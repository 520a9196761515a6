import Overlay.Text.Digit

/-!
# Decimal numerals

Natural numbers as rows of decimal digits, most significant first, without leading zeros.

## Main definitions
- `numeral`, `ofNumeral`: writing and reading
- `padded`: a numeral with leading zeros up to a width
- `intText`: an integer with its sign
- `hasText`: whether an integer is short enough to be written

## Main statements
- `ofNumeral_numeral`: reading gives back what was written
-/

namespace Overlay.Number

open Overlay.Text

/-! ## Section 1: Writing -/

/-- The decimal digits of a number. -/
def numeral (n : Nat) : List Char :=
  if n < 10 then [asciiDigit n] else numeral (n / 10) ++ [asciiDigit (n % 10)]
termination_by n

/-- How many decimal digits a number has; zero has one. -/
def digitCount (n : Nat) : Nat :=
  if n < 10 then 1 else digitCount (n / 10) + 1
termination_by n

/-- The digits of a number, filled up with zeros on the left to a width. -/
def padded (width n : Nat) : List Char :=
  let ds := numeral n
  List.replicate (width - ds.length) '0' ++ ds

/-- An integer in decimal digits, with a minus sign below zero. -/
def intChars : Int → List Char
  | .ofNat n => numeral n
  | .negSucc n => '-' :: numeral (n + 1)

/-- An integer in decimal digits, as a string. -/
def intText (i : Int) : String :=
  String.ofList (intChars i)

/-! ## Section 2: The limit -/

/-- The most digits of an integer that is read from a text or written to one. -/
def maxIntDigits : Nat := 4300

/-- Whether a number can be written with so many digits. -/
def fitsDigits : Nat → Nat → Bool
  | 0, n => n == 0
  | digits + 1, n => n < 10 || fitsDigits digits (n / 10)

/-- Whether an integer can be written in decimal digits. -/
def hasText (i : Int) : Bool :=
  fitsDigits maxIntDigits i.natAbs

/-! ## Section 3: Reading -/

/-- The number read so far, followed by one more digit. -/
def pushDigit (n : Nat) (c : Char) : Nat :=
  10 * n + (digitValue? c).getD 0

/-- The number that a row of digits stands for. -/
def ofNumeral (ds : List Char) : Nat :=
  ds.foldl pushDigit 0

/-- A digit more is ten times the number and the digit. -/
theorem ofNumeral_concat (ds : List Char) (c : Char) :
    ofNumeral (ds ++ [c]) = 10 * ofNumeral ds + (digitValue? c).getD 0 := by
  simp [ofNumeral, pushDigit]

/-- Reading gives back what was written. -/
theorem ofNumeral_numeral (n : Nat) : ofNumeral (numeral n) = n := by
  induction n using Nat.strongRecOn with
  | ind n ih =>
    rw [numeral]
    split
    · next h => simp [ofNumeral, pushDigit, digitValue?_asciiDigit h]
    · next h =>
      rw [ofNumeral_concat, ih (n / 10) (by omega), digitValue?_asciiDigit (by omega)]
      simp only [Option.getD_some]
      omega

/-- As many digits are written as the number has. -/
theorem length_numeral (n : Nat) : (numeral n).length = digitCount n := by
  induction n using Nat.strongRecOn with
  | ind n ih =>
    rw [numeral, digitCount]
    split
    · rfl
    · simp [ih (n / 10) (by omega)]

end Overlay.Number
