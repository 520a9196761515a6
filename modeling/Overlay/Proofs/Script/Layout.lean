import Overlay.Proofs.Script.Parts

/-!
# How a script is laid out

What is true of all parts of a script together: the blocks and statements stand in the lines one
after the other, none of the lines is left over and none is used twice, no name is given twice, and
every statement speaks of an object whose block is closed above it.

## Main definitions
- `StandsAt`: where in a text some lines stand
- `uses`: the number of parts that a line belongs to
- `Layout`: how the lines of a text are laid out

## Main statements
- `Parts.uses_eq`: every line belongs to exactly one part
- `exists_layout`: every script that is read is laid out in its text
-/

namespace Overlay.Script

open Overlay.Text Overlay.Scanner

/-! ## Section 1: Lines of a text -/

/-- Some lines stand in a text whose first line has a number; `n` is the number of the first of
them. -/
def StandsAt (line : Nat) (ls : List (List Char)) (n : Nat) (part : List (List Char)) : Prop :=
  ∃ before after, ls = before ++ part ++ after ∧ n = line + before.length

theorem StandsAt.start (line : Nat) (part after : List (List Char)) :
    StandsAt line (part ++ after) line part :=
  ⟨[], after, rfl, rfl⟩

/-- In front of a text there may be more lines. -/
theorem StandsAt.append {line n : Nat} {ls part : List (List Char)} (front : List (List Char))
    (h : StandsAt (line + front.length) ls n part) : StandsAt line (front ++ ls) n part := by
  obtain ⟨before, after, rfl, rfl⟩ := h
  refine ⟨front ++ before, after, by simp, ?_⟩
  rw [List.length_append, Nat.add_assoc]

/-- Whether a line lies in a block. -/
def Block.covers (b : Block) (n : Nat) : Bool :=
  b.first ≤ n && n ≤ b.last

theorem Block.covers_iff (b : Block) {n : Nat} : b.covers n = true ↔ b.first ≤ n ∧ n ≤ b.last := by
  simp [covers]

/-- The number of parts that a line belongs to. -/
def uses (blocks : List Block) (sets : List Statement) (n : Nat) : Nat :=
  blocks.countP (fun b => b.covers n) + sets.countP fun st => st.line = n

theorem uses_block (b : Block) (blocks : List Block) (sets : List Statement) (n : Nat) :
    uses (b :: blocks) sets n = uses blocks sets n + if b.covers n then 1 else 0 := by
  rw [uses, uses, List.countP_cons]
  omega

theorem uses_statement (blocks : List Block) (st : Statement) (sets : List Statement) (n : Nat) :
    uses blocks (st :: sets) n = uses blocks sets n + if st.line = n then 1 else 0 := by
  simp only [uses, List.countP_cons, decide_eq_true_eq]
  omega

/-! ## Section 2: The parts of a script -/

section Parts

variable {declared : List String} {line : Nat} {ls : List (List Char)} {blocks : List Block}
  {sets : List Statement}

/-- The blocks lie within the lines. -/
theorem Parts.blocks_within (h : Parts declared line ls blocks sets) :
    ∀ b ∈ blocks, line ≤ b.first ∧ b.last < line + ls.length := by
  induction h with
  | nil => simp
  | block b hfirst hnew hrest ih =>
    have hlast := b.last_succ
    have hlt := b.first_lt_last
    rw [List.length_append, List.forall_mem_cons]
    refine ⟨by omega, ?_⟩
    intro c hc
    have := ih c hc
    omega
  | statement st hstates hline hdeclared hrest ih =>
    intro b hb
    have := ih b hb
    rw [List.length_cons]
    omega

/-- So do the statements. -/
theorem Parts.sets_within (h : Parts declared line ls blocks sets) :
    ∀ st ∈ sets, line ≤ st.line ∧ st.line < line + ls.length := by
  induction h with
  | nil => simp
  | block b hfirst hnew hrest ih =>
    intro st hst
    have hlast := b.last_succ
    have hlt := b.first_lt_last
    have := ih st hst
    rw [List.length_append]
    omega
  | statement st hstates hline hdeclared hrest ih =>
    rw [List.length_cons, List.forall_mem_cons]
    refine ⟨by omega, ?_⟩
    intro s hs
    have := ih s hs
    omega

/-- The blocks are closed in their order. -/
theorem Parts.blocks_ordered (h : Parts declared line ls blocks sets) :
    blocks.Pairwise fun b c => b.last < c.last := by
  induction h with
  | nil => exact .nil
  | block b hfirst hnew hrest ih =>
    refine .cons ?_ ih
    intro c hc
    have := hrest.blocks_within c hc
    have := c.first_lt_last
    omega
  | statement st hstates hline hdeclared hrest ih => exact ih

theorem Parts.sets_ordered (h : Parts declared line ls blocks sets) :
    sets.Pairwise fun s t => s.line < t.line := by
  induction h with
  | nil => exact .nil
  | block b hfirst hnew hrest ih => exact ih
  | statement st hstates hline hdeclared hrest ih =>
    refine .cons ?_ ih
    intro s hs
    have := hrest.sets_within s hs
    omega

/-- A block gives a name that was not known before. -/
theorem Parts.names_new (h : Parts declared line ls blocks sets) :
    ∀ b ∈ blocks, b.definition.name ∉ declared := by
  induction h with
  | nil => simp
  | block b hfirst hnew hrest ih =>
    rw [List.forall_mem_cons]
    refine ⟨hnew, ?_⟩
    intro c hc hknown
    exact ih c hc (List.mem_cons_of_mem _ hknown)
  | statement st hstates hline hdeclared hrest ih => exact ih

theorem Parts.names_nodup (h : Parts declared line ls blocks sets) :
    (blocks.map fun b => b.definition.name).Nodup := by
  induction h with
  | nil => exact .nil
  | block b hfirst hnew hrest ih =>
    rw [List.map_cons, List.nodup_cons]
    refine ⟨?_, ih⟩
    -- behind a block its name is known, and no other block gives a name that is
    intro hmem
    obtain ⟨c, hc, hname⟩ := List.mem_map.mp hmem
    exact hrest.names_new c hc (hname ▸ List.mem_cons_self)
  | statement st hstates hline hdeclared hrest ih => exact ih

/-- A statement speaks of an object that was known before, or whose block is closed above it. -/
theorem Parts.sets_known (h : Parts declared line ls blocks sets) :
    ∀ st ∈ sets, st.name ∈ declared ∨ ∃ b ∈ blocks, b.definition.name = st.name ∧ b.last < st.line := by
  induction h with
  | nil => simp
  | block b hfirst hnew hrest ih =>
    intro st hst
    rcases ih st hst with hknown | ⟨c, hc, hname, hlast⟩
    · rcases List.mem_cons.mp hknown with hname | hknown
      · -- the name has become known through this block, and the statement stands below it
        have hline := (hrest.sets_within st hst).1
        exact Or.inr ⟨b, List.mem_cons_self, hname.symm, by omega⟩
      · exact Or.inl hknown
    · exact Or.inr ⟨c, List.mem_cons_of_mem b hc, hname, hlast⟩
  | statement st hstates hline hdeclared hrest ih =>
    rw [List.forall_mem_cons]
    exact ⟨Or.inl hdeclared, ih⟩

/-- The lines of a block stand at its number. -/
theorem Parts.blocks_stand (h : Parts declared line ls blocks sets) :
    ∀ b ∈ blocks, StandsAt line ls b.first b.text := by
  induction h with
  | nil => simp
  | block b hfirst hnew hrest ih =>
    rw [List.forall_mem_cons]
    subst hfirst
    refine ⟨.start _ _ _, ?_⟩
    intro c hc
    apply StandsAt.append
    rw [← b.last_succ]
    exact ih c hc
  | @statement _ _ _ _ _ l st hstates hline hdeclared hrest ih =>
    intro b hb
    exact .append [l] (ih b hb)

theorem Parts.sets_stand (h : Parts declared line ls blocks sets) :
    ∀ st ∈ sets, ∃ l, StandsAt line ls st.line [l] ∧ States l st := by
  induction h with
  | nil => simp
  | block b hfirst hnew hrest ih =>
    subst hfirst
    intro st hst
    obtain ⟨l, hl, hstates⟩ := ih st hst
    refine ⟨l, ?_, hstates⟩
    apply StandsAt.append
    rw [← b.last_succ]
    exact hl
  | @statement _ _ rest _ _ l st hstates hline hdeclared hrest ih =>
    rw [List.forall_mem_cons]
    refine ⟨⟨l, hline ▸ .start st.line [l] rest, hstates⟩, ?_⟩
    intro s hs
    obtain ⟨m, hm, hstates⟩ := ih s hs
    exact ⟨m, .append [l] hm, hstates⟩

/-- The lines above the parts belong to none of them. -/
theorem Parts.uses_above (h : Parts declared line ls blocks sets) {n : Nat} (hn : n < line) :
    uses blocks sets n = 0 := by
  have hblocks : blocks.countP (fun b => b.covers n) = 0 := by
    rw [List.countP_eq_zero]
    intro b hb
    have hfirst := (h.blocks_within b hb).1
    rw [b.covers_iff]
    omega
  have hsets : sets.countP (fun st => st.line = n) = 0 := by
    rw [List.countP_eq_zero]
    intro st hst
    have hline := (h.sets_within st hst).1
    rw [decide_eq_true_eq]
    omega
  rw [uses, hblocks, hsets]

/-- Every line belongs to exactly one part: it lies in one block and is no statement, or it is one
statement and lies in no block. -/
theorem Parts.uses_eq (h : Parts declared line ls blocks sets) {n : Nat} (hlow : line ≤ n)
    (hhigh : n < line + ls.length) : uses blocks sets n = 1 := by
  induction h with
  | nil =>
    rw [List.length_nil] at hhigh
    omega
  | block b hfirst hnew hrest ih =>
    have hlast := b.last_succ
    rw [List.length_append] at hhigh
    rw [uses_block]
    by_cases hcovers : n ≤ b.last
    · -- all other parts stand below the block
      rw [if_pos (b.covers_iff.mpr ⟨by omega, hcovers⟩), hrest.uses_above (by omega)]
    · rw [if_neg (fun hc => hcovers (b.covers_iff.mp hc).2), ih (by omega) (by omega)]
  | statement st hstates hline hdeclared hrest ih =>
    rw [List.length_cons] at hhigh
    rw [uses_statement]
    by_cases heq : st.line = n
    · rw [if_pos heq, hrest.uses_above (by omega)]
    · rw [if_neg heq, ih (by omega) (by omega)]

end Parts

/-! ## Section 3: Texts -/

/-- How the lines of a text are laid out as a script. -/
structure Layout (ls : List (List Char)) (script : Script) (blocks : List Block) : Prop where
  /-- Each definition has a block. -/
  defs_eq : script.defs = blocks.map Block.definition
  /-- The words of the kinds. -/
  kinds : ∀ d ∈ script.defs, d.kind.word ∈ ["text", "button", "path"]
  names_nodup : (script.defs.map Definition.name).Nodup
  blocks_stand : ∀ b ∈ blocks, StandsAt 1 ls b.first b.text
  closed_in_order : blocks.Pairwise fun b c => b.last < c.last
  /-- Each statement is read from its line. -/
  sets_stand : ∀ st ∈ script.sets, ∃ l, StandsAt 1 ls st.line [l] ∧ States l st
  sets_in_order : script.sets.Pairwise fun s t => s.line < t.line
  sets_within : ∀ st ∈ script.sets, 1 ≤ st.line ∧ st.line ≤ ls.length
  /-- The block of an object is closed above the statements about it. -/
  sets_known : ∀ st ∈ script.sets, ∃ b ∈ blocks, b.definition.name = st.name ∧ b.last < st.line
  /-- The lengths of statements are doubles. -/
  lengths : ∀ st ∈ script.sets, st.toValue.field "duration" = .ok (.float st.duration)
  /-- No line is left over, and none is used twice. -/
  uses_eq : ∀ n, 1 ≤ n → n ≤ ls.length → uses blocks script.sets n = 1

theorem Parts.layout {ls : List (List Char)} {blocks : List Block} {script : Script}
    (h : Parts [] 1 ls blocks script.sets) (hdefs : script.defs = blocks.map Block.definition) :
    Layout ls script blocks where
  defs_eq := hdefs
  kinds := by
    intro d _
    cases d.kind <;> simp [ResourceKind.word]
  names_nodup := by
    rw [hdefs, List.map_map]
    exact h.names_nodup
  blocks_stand := h.blocks_stand
  closed_in_order := h.blocks_ordered
  sets_stand := h.sets_stand
  sets_in_order := h.sets_ordered
  sets_within := by
    intro st hst
    have := h.sets_within st hst
    omega
  sets_known := by
    intro st hst
    rcases h.sets_known st hst with hnone | hblock
    · cases hnone
    · exact hblock
  lengths := fun _ _ => rfl
  uses_eq := fun n hlow hhigh => h.uses_eq hlow (by omega)

/-- Every script that is read is laid out in its text. -/
theorem exists_layout {s : List Char} {script : Script} (h : parse s = .ok script) :
    ∃ blocks, Layout (linesOf s) script blocks := by
  obtain ⟨blocks, hparts, hdefs⟩ := parse_eq_ok_iff.mp h
  exact ⟨blocks, hparts.layout hdefs⟩

/-- An object with an attribute, and a statement about it. -/
theorem exists_layout_of_four_lines :
    ∃ script blocks,
      parse "def text a \x7b\n  x = 1\n\x7d\nset a \x7bx = 2\x7d 1s\n".toList = .ok script
        ∧ Layout (linesOf "def text a \x7b\n  x = 1\n\x7d\nset a \x7bx = 2\x7d 1s\n".toList)
            script blocks := by
  have hread :
      (parse "def text a \x7b\n  x = 1\n\x7d\nset a \x7bx = 2\x7d 1s\n".toList).toOption.isSome
        = true := by decide +kernel
  obtain ⟨script, hscript⟩ := Option.isSome_iff_exists.mp hread
  have hparse := toOption_eq_some.mp hscript
  obtain ⟨blocks, hlayout⟩ := exists_layout hparse
  exact ⟨script, blocks, hparse, hlayout⟩

end Overlay.Script
