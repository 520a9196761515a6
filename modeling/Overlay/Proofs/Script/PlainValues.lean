import Overlay.Proofs.Script.LineBreaks

/-!
# Plain values

The values that a script can be written from and read back as a whole: no double in them is infinite
or not-a-number, the keys of their mappings are identifiers, and their texts hold no boundary
between lines except for those that are escaped.

## Main definitions
- `Literal.Plain`, `Literal.PlainFields`: plain values and mappings

## Main statements
- `Literal.PlainFields.areWritable`, `Literal.PlainFields.escapable`: they are written as lines that
  are read back
-/

namespace Overlay.Literal

open Overlay.Text

/-! ## Section 1: Values -/

instance (p : Char → Bool) (s : String) : Decidable (Escapable p s) :=
  List.decidableBAll (fun c => p c = true → c = '\n' ∨ c = '\r') s.toList

/-- A value that can be read back from its text under a key, and whose texts hold no boundary between
lines except for those that are escaped. -/
def Plain (key v : Value) : Prop :=
  isWritable key v = true ∧ ∀ t ∈ textsOf v, Escapable isLineBreak t

instance (key v : Value) : Decidable (Plain key v) :=
  @instDecidableAnd _ _ _ (List.decidableBAll (Escapable isLineBreak) (textsOf v))

theorem Plain.int (key : Value) {i : Int} (h : Number.hasText i = true) : Plain key (.int i) :=
  ⟨by rw [isWritable, h, Bool.or_true], by simp [textsOf]⟩

theorem Plain.color {key : Value} {i : Int} (h : isColor key (.int i) = true) : Plain key (.int i) :=
  ⟨by rw [isWritable, h, Bool.true_or], by simp [textsOf]⟩

theorem Plain.none (key : Value) : Plain key .none :=
  ⟨rfl, by simp [textsOf]⟩

/-! ## Section 2: Mappings -/

/-- A mapping from identifiers to plain values. -/
def PlainFields (fs : Fields) : Prop :=
  ∀ e ∈ fs, isNameKey e.1 = true ∧ Plain e.1 e.2

instance (fs : Fields) : Decidable (PlainFields fs) :=
  List.decidableBAll (fun e : Value × Value => isNameKey e.1 = true ∧ Plain e.1 e.2) fs

namespace PlainFields

theorem areWritable {fs : Fields} (h : PlainFields fs) : Literal.areWritable fs = true :=
  areWritable_iff.mpr fun e he => ⟨(h e he).1, (h e he).2.1⟩

theorem escapable {fs : Fields} (h : PlainFields fs) : EscapableFields isLineBreak fs := by
  unfold EscapableFields
  induction fs with
  | nil => simp [textsOfFields]
  | cons e r ih =>
    obtain ⟨hhead, htail⟩ := List.forall_mem_cons.mp h
    rw [textsOfFields]
    exact List.forall_mem_append.mpr ⟨hhead.2.2, ih htail⟩

end PlainFields

end Overlay.Literal
