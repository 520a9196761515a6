import Overlay.Text.Blank
import Overlay.Text.Lines

/-!
# Pieces of a text

A text is cut at every separator, so texts that hold none are found again between the separators that
they are put together with.

## Main statements
- `pieces_append_sep`: a separator splits a text, whatever stands around it
- `not_mem_of_mem_pieces`: no piece holds a separator
- `pieces_joinWith`: texts that are put together are found again
- `strip_eq_self`: a text without blanks is left as it is
-/

namespace Overlay

open Overlay.Text

/-- A separator splits a text, whatever stands in front of it. -/
theorem pieces_append_sep (sep : Char) (s t : List Char) :
    pieces sep (s ++ sep :: t) = pieces sep s ++ pieces sep t := by
  induction s with
  | nil => simp [pieces]
  | cons c r ih =>
    rw [List.cons_append, pieces, pieces, ih]
    split
    · rfl
    · cases hr : pieces sep r with
      | nil => exact absurd hr (pieces_ne_nil sep r)
      | cons l ls => rfl

/-- A text without the separator is one piece. -/
theorem pieces_eq_singleton {sep : Char} {s : List Char} (h : ∀ c ∈ s, c ≠ sep) :
    pieces sep s = [s] := by
  induction s with
  | nil => rfl
  | cons c r ih =>
    obtain ⟨hc, hr⟩ := List.forall_mem_cons.mp h
    rw [pieces, if_neg hc, ih hr, consLine]

/-- No piece holds the separator. -/
theorem not_mem_of_mem_pieces {sep : Char} {s l : List Char} (h : l ∈ pieces sep s) : sep ∉ l := by
  induction s generalizing l with
  | nil =>
    obtain rfl := List.mem_singleton.mp h
    exact List.not_mem_nil
  | cons c r ih =>
    rw [pieces] at h
    split at h
    · rcases List.mem_cons.mp h with rfl | h
      · exact List.not_mem_nil
      · exact ih h
    · next hc =>
      cases hr : pieces sep r with
      | nil => exact absurd hr (pieces_ne_nil sep r)
      | cons first others =>
        rw [hr] at h ih
        rcases List.mem_cons.mp h with rfl | h
        · -- the first piece has got one more character, which is no separator
          have hfirst := ih List.mem_cons_self
          simpa [Ne.symm hc] using hfirst
        · exact ih (List.mem_cons_of_mem first h)

/-- Texts without the separator are the pieces of what they are put together to. -/
theorem pieces_joinWith {sep : Char} {ls : List (List Char)} (hne : ls ≠ [])
    (h : ∀ l ∈ ls, ∀ c ∈ l, c ≠ sep) : pieces sep (joinWith [sep] ls) = ls := by
  induction ls with
  | nil => exact absurd rfl hne
  | cons l r ih =>
    obtain ⟨hl, hr⟩ := List.forall_mem_cons.mp h
    cases r with
    | nil => exact pieces_eq_singleton hl
    | cons m r =>
      have hrest := ih (List.cons_ne_nil m r) hr
      rw [joinWith, List.append_assoc, List.singleton_append, pieces_append_sep,
        pieces_eq_singleton hl, hrest, List.singleton_append]

/-- A text without blanks is left as it is when it is stripped. -/
theorem strip_eq_self {s : List Char} (h : ∀ c ∈ s, isBlank c = false) : strip s = s := by
  have hdrop : ∀ t : List Char, (∀ c ∈ t, isBlank c = false) → t.dropWhile isBlank = t := by
    intro t ht
    cases t with
    | nil => rfl
    | cons c r => rw [List.dropWhile_cons_of_neg (by simp [ht c List.mem_cons_self])]
  -- the second round goes from the other end
  have hreverse : ∀ c ∈ s.reverse, isBlank c = false := fun c hc => h c (List.mem_reverse.mp hc)
  rw [strip, trim, hdrop s h, hdrop _ hreverse, List.reverse_reverse]

end Overlay
