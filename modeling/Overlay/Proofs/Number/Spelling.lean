import Overlay.Proofs.Number.Literals

/-!
# Numbers as they are written

A written number is a sign, digits, perhaps places behind a point, perhaps an exponent.  The
scanner takes exactly such a text from the front of a line, and both readers of numbers agree on
what it stands for.

## Main definitions
- `Spelling`: the parts of a written number
- `Spelling.chars`: its text

## Main statements
- `Spelling.number?_chars`: the scanner stops right behind a written number
- `Spelling.read?_chars`: what a written number stands for
- `Spelling.ofInt_chars`: integers are written numbers
-/

namespace Overlay.Number

open Overlay.Text

/-! ## Section 1: Parts -/

/-- A number as it is written. -/
structure Spelling where
  /-- Whether there is a minus sign. -/
  negative : Bool
  /-- The digits in front of the point. -/
  whole : List Char
  /-- The places behind the point, if there is one. -/
  places : Option (List Char)
  /-- The exponent, if there is one. -/
  exponent : Option Int
  whole_digits : Digits whole
  whole_ne_nil : whole ≠ []
  places_digits : Digits (places.getD [])

namespace Spelling

/-- Places with the point in front of them. -/
def pointed : Option (List Char) → List Char
  | none => []
  | some ds => '.' :: ds

/-- An exponent behind its mark. -/
def raised : Option Int → List Char
  | none => []
  | some e => Double.exponentChars e

/-- The text behind the sign. -/
def magnitude (w : Spelling) : List Char :=
  w.whole ++ (pointed w.places ++ raised w.exponent)

/-- The text of a written number. -/
def chars (w : Spelling) : List Char :=
  Double.withSign w.negative w.magnitude

/-- The digits without the point. -/
def digits (w : Spelling) : List Char :=
  w.whole ++ w.places.getD []

/-- The power of ten that the digits are multiplied with. -/
def power (w : Spelling) : Int :=
  w.exponent.getD 0 - ((w.places.getD []).length : Nat)

/-! ## Section 2: Scanning -/

theorem isMagnitude_pointed (w : Spelling) : IsMagnitude (w.whole ++ pointed w.places) := by
  have hwhole := w.whole_digits.decimalDigits
  cases hp : w.places with
  | none =>
    rw [pointed, List.append_nil]
    exact .whole hwhole w.whole_ne_nil
  | some ds =>
    have hplaces := w.places_digits
    rw [hp] at hplaces
    exact .pointed hwhole hplaces.decimalDigits (Or.inl w.whole_ne_nil)

theorem isExponent_raised (e : Option Int) : IsExponent (raised e) := by
  cases e with
  | none => exact .none
  | some e =>
    have hdigits := (padded_digits 2 e.natAbs).decimalDigits
    have hnil := padded_ne_nil 2 e.natAbs
    rw [raised, Double.exponentChars]
    split
    · exact .raised (Or.inl rfl) (Or.inr (Or.inl rfl)) hdigits hnil
    · exact .raised (Or.inl rfl) (Or.inr (Or.inr rfl)) hdigits hnil

/-- The parts make up a number. -/
theorem isNumber_chars (w : Spelling) : IsNumber w.chars := by
  refine ⟨if w.negative then ['-'] else [], _, _, ?_, ?_, w.isMagnitude_pointed,
    isExponent_raised w.exponent⟩
  · rw [chars, magnitude, Double.withSign, List.append_assoc]
    split <;> rfl
  · split
    · exact Or.inr rfl
    · exact Or.inl rfl

/-- The scanner takes a written number and stops right behind it. -/
theorem number?_chars (w : Spelling) {rest : List Char} (h : StartsOutside continues rest) :
    Scanner.number? (w.chars ++ rest) = some (w.chars, rest) :=
  number?_append w.isNumber_chars h

/-! ## Section 3: Reading -/

theorem magnitude_ne_nil (w : Spelling) : w.magnitude ≠ [] := by
  simp [magnitude, w.whole_ne_nil]

/-- A magnitude starts with a digit. -/
theorem exists_magnitude_cons (w : Spelling) :
    ∃ c r, w.magnitude = c :: r ∧ c.isDigit = true := by
  cases hw : w.whole with
  | nil => exact absurd hw w.whole_ne_nil
  | cons c r =>
    refine ⟨c, r ++ (pointed w.places ++ raised w.exponent), by simp [magnitude, hw], ?_⟩
    exact w.whole_digits c (by simp [hw])

theorem startsOutside_raised {rest : List Char} (h : StartsOutside continues rest)
    (e : Option Int) : StartsOutside isDecimalDigit (raised e ++ rest) :=
  ((isExponent_raised e).startsOutside h).1

theorem startsOutside_pointed {rest : List Char} (h : StartsOutside continues rest)
    (ps : Option (List Char)) (e : Option Int) :
    StartsOutside isDecimalDigit (pointed ps ++ (raised e ++ rest)) := by
  cases ps with
  | none => exact startsOutside_raised h e
  | some ds =>
    intro c hc
    obtain rfl : '.' = c := by simpa [pointed] using hc
    decide

theorem splitSign_chars (w : Spelling) : splitSign w.chars = (w.negative, w.magnitude) := by
  cases hs : w.negative with
  | true => simp [chars, hs, Double.withSign, splitSign]
  | false =>
    obtain ⟨c, r, hc, hdigit⟩ := w.exists_magnitude_cons
    obtain ⟨hminus, hplus⟩ := ne_sign_of_isDecimalDigit (isDecimalDigit_of_isDigit hdigit)
    simp only [chars, hs, Double.withSign, Bool.false_eq_true, if_false, hc, splitSign]
    split
    · next heq =>
      simp only [List.cons.injEq] at heq
      exact absurd heq.1 hminus
    · next heq =>
      simp only [List.cons.injEq] at heq
      exact absurd heq.1 hplus
    · rfl

theorem readExponent?_raised (e : Option Int) : readExponent? (raised e) = some (e.getD 0) := by
  cases e with
  | none => rfl
  | some e =>
    rw [raised, Double.exponentChars]
    generalize hn : e.natAbs = n
    have hnil := padded_ne_nil 2 n
    have hall := all_isDecimalDigit (padded_digits 2 n)
    have hread := ofNumeral_padded 2 n
    by_cases he : e < 0
    · simp [he, readExponent?, splitSign, hnil, hall, hread]
      omega
    · simp [he, readExponent?, splitSign, hnil, hall, hread]
      omega

/-- What a written number stands for. -/
theorem read?_chars (w : Spelling) :
    Scientific.read? w.chars = some ⟨w.negative, ofNumeral w.digits, w.power⟩ := by
  have hend : StartsOutside continues [] := by
    intro c hc
    cases hc
  have hspan := spanDigits_append w.whole_digits (startsOutside_pointed hend w.places w.exponent)
  rw [List.append_nil, ← magnitude] at hspan
  have hexp := readExponent?_raised w.exponent
  unfold Scientific.read?
  rw [splitSign_chars]
  dsimp only
  rw [hspan]
  cases hp : w.places with
  | none =>
    cases he : w.exponent with
    | none => simp [pointed, raised, readExponent?, digits, power, hp, he, w.whole_ne_nil]
    | some e =>
      simp only [he, raised, Double.exponentChars, Option.getD_some] at hexp
      simp [pointed, raised, Double.exponentChars, hexp, digits, power, hp, he, w.whole_ne_nil]
  | some ds =>
    have hplaces : Digits ds := by
      have := w.places_digits
      rwa [hp] at this
    have hraised := spanDigits_append hplaces (startsOutside_raised hend w.exponent)
    rw [List.append_nil] at hraised
    simp [pointed, hraised, hexp, digits, power, hp, w.whole_ne_nil]

/-- Only a number without a point and an exponent is whole as it is written. -/
theorem isWholeText_chars (w : Spelling) :
    Scanner.isWholeText w.chars = (w.places.isNone && w.exponent.isNone) := by
  have hwhole := all_isDecimalDigit w.whole_digits
  rw [Scanner.isWholeText, splitSign_chars, magnitude, List.all_append, List.all_append, hwhole]
  cases w.places with
  | none =>
    cases w.exponent with
    | none => rfl
    | some e =>
      have hmark : isDecimalDigit 'e' = false := by decide
      simp [pointed, raised, Double.exponentChars, hmark]
  | some ds =>
    have hpoint : isDecimalDigit '.' = false := by decide
    simp [pointed, hpoint]

/-! ## Section 4: Characters -/

/-- The characters of written numbers. -/
def isNumberChar (c : Char) : Bool :=
  c.isDigit || c = '.' || c = 'e' || c = '+' || c = '-'

theorem isNumberChar_of_isDigit {c : Char} (h : c.isDigit = true) : isNumberChar c = true := by
  simp [isNumberChar, h]

theorem isNumberChar_pointed {ps : Option (List Char)} (hps : Digits (ps.getD [])) {c : Char}
    (hc : c ∈ pointed ps) : isNumberChar c = true := by
  cases ps with
  | none => cases hc
  | some ds =>
    rcases List.mem_cons.mp hc with rfl | hc
    · decide
    · exact isNumberChar_of_isDigit (hps c hc)

theorem isNumberChar_raised {e : Option Int} {c : Char} (hc : c ∈ raised e) :
    isNumberChar c = true := by
  cases e with
  | none => cases hc
  | some e =>
    rcases List.mem_cons.mp hc with rfl | hc
    · decide
    · rcases List.mem_cons.mp hc with rfl | hc
      · split <;> decide
      · exact isNumberChar_of_isDigit (padded_digits 2 e.natAbs c hc)

/-- A written number is made of digits, points, exponent marks and signs. -/
theorem isNumberChar_of_mem (w : Spelling) {c : Char} (hc : c ∈ w.chars) :
    isNumberChar c = true := by
  have hmagnitude : ∀ d ∈ w.magnitude, isNumberChar d = true := by
    intro d hd
    rcases List.mem_append.mp hd with hd | hd
    · exact isNumberChar_of_isDigit (w.whole_digits d hd)
    · rcases List.mem_append.mp hd with hd | hd
      · exact isNumberChar_pointed w.places_digits hd
      · exact isNumberChar_raised hd
  cases hs : w.negative with
  | false =>
    rw [chars, hs, Double.withSign, if_neg (by decide)] at hc
    exact hmagnitude c hc
  | true =>
    rw [chars, hs, Double.withSign, if_pos rfl] at hc
    rcases List.mem_cons.mp hc with rfl | hc
    · decide
    · exact hmagnitude c hc

theorem chars_ne_nil (w : Spelling) : w.chars ≠ [] := by
  rw [chars, Double.withSign]
  split
  · exact List.cons_ne_nil _ _
  · exact w.magnitude_ne_nil

/-! ## Section 5: Integers -/

/-- An integer as it is written. -/
def ofInt (i : Int) : Spelling where
  negative := decide (i < 0)
  whole := numeral i.natAbs
  places := none
  exponent := none
  whole_digits := numeral_digits i.natAbs
  whole_ne_nil := numeral_ne_nil i.natAbs
  places_digits := Digits.nil

theorem ofInt_chars (i : Int) : (ofInt i).chars = intChars i := by
  cases i with
  | ofNat n => simp [chars, ofInt, magnitude, pointed, raised, Double.withSign, intChars]
  | negSucc n =>
    simp [chars, ofInt, magnitude, pointed, raised, Double.withSign, intChars,
      Int.negSucc_lt_zero]

end Spelling

end Overlay.Number
