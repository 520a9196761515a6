/-!
# Blank characters

Blank characters are those that separate words without being seen.  The class is that of Unicode,
together with the four information separators.

## Main definitions
- `isBlank`: the class
- `strip`: a text without the blanks at its two ends
-/

namespace Overlay.Text

/-! ## Section 1: The class -/

/-- Whether a character is blank. -/
def isBlank (c : Char) : Bool :=
  let n := c.toNat
  (0x09 ≤ n && n ≤ 0x0D) || (0x1C ≤ n && n ≤ 0x20) || n = 0x85 || n = 0xA0 || n = 0x1680
    || (0x2000 ≤ n && n ≤ 0x200A) || n = 0x2028 || n = 0x2029 || n = 0x202F || n = 0x205F
    || n = 0x3000

/-- Whether a character is one of the four information separators. -/
def isSeparator (c : Char) : Bool :=
  let n := c.toNat
  0x1C ≤ n && n ≤ 0x1F

/-! ## Section 2: Stripping -/

/-- A text without the characters of a class at its two ends. -/
def trim (p : Char → Bool) (s : List Char) : List Char :=
  ((s.dropWhile p).reverse.dropWhile p).reverse

/-- A text without the blanks at its two ends. -/
def strip (s : List Char) : List Char :=
  trim isBlank s

/-- Whether a text holds nothing but blanks. -/
def isBlankText (s : List Char) : Bool :=
  s.all isBlank

/-- Dropping a class of characters leaves nothing exactly where all belong to the class. -/
theorem dropWhile_eq_nil_iff {p : Char → Bool} {s : List Char} :
    s.dropWhile p = [] ↔ ∀ c ∈ s, p c = true := by
  induction s with
  | nil => simp
  | cons c r ih =>
    by_cases h : p c = true
    · simp [h, ih]
    · simp [h]

/-- A blank text is one of which nothing is left when it is stripped. -/
theorem strip_eq_nil_iff {s : List Char} : strip s = [] ↔ isBlankText s = true := by
  have key : s.dropWhile isBlank = [] ↔ isBlankText s = true := by
    rw [dropWhile_eq_nil_iff]
    simp [isBlankText]
  rw [← key]
  constructor
  · intro h
    have hall : ∀ c ∈ s.dropWhile isBlank, isBlank c = true := by
      have := List.reverse_eq_nil_iff.1 h
      rw [dropWhile_eq_nil_iff] at this
      simpa using this
    cases hd : s.dropWhile isBlank with
    | nil => rfl
    | cons c r =>
      have hc : isBlank c = false := by
        have := List.head_dropWhile_not isBlank (l := s) (by simp [hd])
        simpa [hd] using this
      rw [hall c (by simp [hd])] at hc
      exact Bool.noConfusion hc
  · intro h
    simp [strip, trim, h]

end Overlay.Text
