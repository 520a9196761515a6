import Overlay.Proofs.Script.Parts

/-!
# What the scanner leaves of a line

Whatever is read from the front of a line, the end of the line is left.  Words and numbers hold no quote,
and a text ends with one.

## Main definitions
- `Skips`: a line that goes on where another one does, behind characters none of which is a quote

## Main statements
- `skips_of_identifier`, `skips_of_numeric`: no quote stands in front of the remainder
- `suffix_of_textBody`: the closing quote of a text does
-/

namespace Overlay.Scanner

open Overlay.Text Overlay.Number

variable {s r t : List Char}

/-! ## Section 1: Characters that are no quotes -/

/-- A line goes on where another one does, behind characters none of which is a quote. -/
def Skips (s r : List Char) : Prop :=
  ∃ w, s = w ++ r ∧ '"' ∉ w

namespace Skips

theorem refl (s : List Char) : Skips s s :=
  ⟨[], rfl, List.not_mem_nil⟩

theorem cons {c : Char} (hc : c ≠ '"') (r : List Char) : Skips (c :: r) r :=
  ⟨[c], rfl, by simpa using hc.symm⟩

theorem trans (h : Skips s r) (h' : Skips r t) : Skips s t := by
  obtain ⟨w, rfl, hw⟩ := h
  obtain ⟨u, rfl, hu⟩ := h'
  exact ⟨w ++ u, by simp, by simp [hw, hu]⟩

theorem suffix (h : Skips s r) : r <:+ s := by
  obtain ⟨w, rfl, -⟩ := h
  exact List.suffix_append w r

theorem length_le (h : Skips s r) : r.length ≤ s.length :=
  h.suffix.length_le

end Skips

/-- A class of characters without the quote is skipped. -/
theorem skips_dropWhile {p : Char → Bool} (hp : p '"' = false) (s : List Char) :
    Skips s (s.dropWhile p) := by
  refine ⟨s.takeWhile p, List.takeWhile_append_dropWhile.symm, fun hmem => ?_⟩
  have hquote := List.mem_takeWhile_imp hmem
  simp [hp] at hquote

theorem skips_skipSpaces (s : List Char) : Skips s (skipSpaces s) :=
  skips_dropWhile (by decide) s

/-! ## Section 2: Words -/

/-- Behind an identifier, less is left. -/
theorem skips_of_identifier? {name : List Char} (h : identifier? s = some (name, r)) :
    Skips s r ∧ r.length < s.length := by
  cases s with
  | nil => cases h
  | cons c t =>
    rw [identifier?] at h
    split at h
    · next hstart =>
      have hc : isIdentifierRest c = true := isIdentifierRest_of_start hstart
      have hspan := Option.some.inj h
      rw [List.span_eq_takeWhile_dropWhile, List.dropWhile_cons_of_pos hc] at hspan
      obtain rfl := (Prod.mk.inj hspan).2
      have hquote : c ≠ '"' := by
        rintro rfl
        cases hstart
      have hskips : Skips t (t.dropWhile isIdentifierRest) := skips_dropWhile (by decide) t
      exact ⟨(Skips.cons hquote t).trans hskips, Nat.lt_succ_of_le hskips.length_le⟩
    · cases h

theorem skips_of_identifier {name : String} (h : identifier s = .ok (name, r)) :
    Skips s r ∧ r.length < s.length := by
  have hspaces := skips_skipSpaces s
  rw [identifier] at h
  split at h
  · next heq =>
    obtain ⟨-, rfl⟩ := Prod.mk.inj (Except.ok.inj h)
    obtain ⟨hskips, hlength⟩ := skips_of_identifier? heq
    exact ⟨hspaces.trans hskips, hlength.trans_le hspaces.length_le⟩
  · cases h

theorem skips_of_keyword? {word : String} (h : keyword? word s = some r) : Skips s r := by
  rw [keyword?] at h
  split at h
  · next heq =>
    split at h
    · obtain rfl := Option.some.inj h
      exact (skips_skipSpaces s).trans (skips_of_identifier? heq).1
    · cases h
  · cases h

theorem skips_of_skipSpaces {c : Char} (hc : c ≠ '"') (h : skipSpaces s = c :: r) :
    Skips s r ∧ r.length < s.length := by
  have hspaces := skips_skipSpaces s
  have hlength := hspaces.length_le
  rw [h, List.length_cons] at hlength
  rw [h] at hspaces
  exact ⟨hspaces.trans (.cons hc r), hlength⟩

theorem skips_of_expect {c : Char} (hc : c ≠ '"') (h : expect c s = .ok r) :
    Skips s r ∧ r.length < s.length :=
  skips_of_skipSpaces hc (expect_eq_ok.mp h)

/-! ## Section 3: Numbers -/

theorem skips_of_hex? {n : Nat} (h : hex? s = some (n, r)) : Skips s r := by
  unfold hex? at h
  split at h
  · next x t =>
    split at h
    · next hx =>
      have hquote : x ≠ '"' := by
        rintro rfl
        simp at hx
      dsimp only at h
      split at h
      · cases h
      · obtain ⟨-, rfl⟩ := Prod.mk.inj (Option.some.inj h)
        rw [List.span_eq_takeWhile_dropWhile]
        apply (Skips.cons (by decide) _).trans
        exact (Skips.cons hquote t).trans (skips_dropWhile (by decide) t)
    · cases h
  · cases h

theorem skips_of_number? {w : List Char} (h : number? s = some (w, r)) : Skips s r := by
  obtain ⟨hw, hs⟩ := isNumber_of_number? h
  refine ⟨w, hs, fun hmem => ?_⟩
  -- a quote is neither a digit nor one of the marks of a number
  have hquote := hw.char_of_mem hmem
  exact absurd hquote (by decide)

theorem skips_withSuffix (w r : List Char) : Skips r (withSuffix w r).2 := by
  unfold withSuffix
  split
  · exact .cons (by decide) _
  · exact .cons (by decide) _
  · exact .refl r

theorem skips_of_numeric {v : Value} (h : numeric s = .ok (v, r)) : Skips s r := by
  rw [numeric] at h
  split at h
  · next heq =>
    obtain ⟨-, rfl⟩ := Prod.mk.inj (Except.ok.inj h)
    exact skips_of_hex? heq
  · split at h
    · next w rest heq =>
      split at h
      · cases h
      · have hrest : (withSuffix w rest).2 = r := congrArg Prod.snd (Except.ok.inj h)
        rw [← hrest]
        exact (skips_of_number? heq).trans (skips_withSuffix w rest)
    · cases h

/-! ## Section 4: Texts -/

/-- The closing quote of a text is in front of the remainder. -/
theorem suffix_of_textBody {body : List Char} (h : textBody s = some (body, r)) :
    '"' :: r <:+ s := by
  fun_induction textBody s generalizing body with
  | case1 => cases h
  | case2 rest =>
    obtain ⟨-, rfl⟩ := Prod.mk.inj (Option.some.inj h)
    exact List.suffix_rfl
  | case3 => cases h
  | case4 c rest ih =>
    obtain ⟨⟨inner, left⟩, hinner, heq⟩ := Option.map_eq_some_iff.mp h
    obtain ⟨-, rfl⟩ := Prod.mk.inj heq
    exact (ih hinner).trans ((List.suffix_cons c rest).trans (List.suffix_cons _ _))
  | case5 c rest hquote hend hescape ih =>
    obtain ⟨⟨inner, left⟩, hinner, heq⟩ := Option.map_eq_some_iff.mp h
    obtain ⟨-, rfl⟩ := Prod.mk.inj heq
    exact (ih hinner).trans (List.suffix_cons c rest)

end Overlay.Scanner
