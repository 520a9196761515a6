import Overlay.Number.Literal
import Overlay.Number.Rounding
import Overlay.Number.Shortest

/-!
# Decimal numbers

Finite decimal numbers keep the digits they were written with.  Reading is exact; sums and products
keep at most 28 significant digits, rounded to nearest with ties to even, and the exponent follows
from the operands, so `1.50 * 2` has two places behind the point.  A sum or a product whose leading
digit lies above the millionth place has no result.  Text may also show infinite and undefined
numbers, with which arithmetic goes on.

## Main definitions
- `Decimal`: sign, coefficient and exponent
- `Decimal.read?`: the number that a text stands for
- `Decimal.kept`: what arithmetic keeps of an exact result
- `Decimal.add`, `Decimal.mul`: arithmetic with 28 digits
- `Decimal.roundToInt`: the nearest integer
- `Decimal.text`: the text of a number
- `WideDecimal`: decimal numbers with infinite and undefined ones
- `WideDecimal.times`, `WideDecimal.plus`: their arithmetic
-/

namespace Overlay

open Overlay.Number Overlay.Text

/-- The number `coefficient * 10 ^ exponent` with a sign. -/
structure Decimal where
  /-- Whether the number has a minus sign; zero may have one. -/
  negative : Bool
  /-- The digits, read without the point. -/
  coefficient : Nat
  /-- The power of ten. -/
  exponent : Int
  deriving DecidableEq, Repr, Inhabited

namespace Decimal

/-! ## Section 1: Numbers from elsewhere -/

/-- A whole number. -/
def ofInt (i : Int) : Decimal :=
  ⟨decide (i < 0), i.natAbs, 0⟩

/-- The number that the shortest text of a finite double shows. -/
def ofDouble? (x : Double) : Option Decimal :=
  if x.isFinite then
    (Scientific.read? x.chars).map fun s => ⟨s.negative, s.coefficient, s.exponent⟩
  else none

/-- The largest exponent of a leading digit. -/
def maxExponent : Int := 999999999999999999

/-- The smallest exponent. -/
def minExponent : Int := -1999999999999999997

/-- The finite number that a text stands for.  Blanks around it are skipped, the digits of every
script count, and low lines are dropped wherever they stand. -/
def read? (text : List Char) : Option Decimal := do
  let s ← Scientific.read? ((strip text).filter (· != '_'))
  if maxExponent < s.exponent + digitCount s.coefficient - 1 || s.exponent < minExponent then none
  else return ⟨s.negative, s.coefficient, s.exponent⟩

/-! ## Section 2: Rounding -/

/-- The number of significant digits that arithmetic keeps. -/
def precision : Nat := 28

/-- The number with at most `precision` digits. -/
def rounded (x : Decimal) : Decimal :=
  let excess := digitCount x.coefficient - precision
  if excess = 0 then x
  else
    let c := roundDiv x.coefficient (tenTo excess)
    -- a row of nines may be rounded up to one digit more
    if c = tenTo precision then ⟨x.negative, tenTo (precision - 1), x.exponent + excess + 1⟩
    else ⟨x.negative, c, x.exponent + excess⟩

/-- The coefficient without its last digits, rounded to nearest with ties to even. -/
def withoutLast (c places : Nat) : Nat :=
  -- what lies below a tenth is zero, however many places there are
  if digitCount c < places then 0 else roundDiv c (tenTo places)

/-- The nearest integer; ties go to the even one. -/
def roundToInt (x : Decimal) : Int :=
  let n := match x.exponent with
    | .ofNat k => x.coefficient * tenTo k
    | .negSucc k => withoutLast x.coefficient (k + 1)
  Double.signed x.negative n

/-! ## Section 3: Arithmetic -/

/-- The largest exponent of a leading digit in what arithmetic gives. -/
def highest : Int := 999999

/-- The smallest exponent in what arithmetic gives. -/
def lowest : Int := -1000026

/-- The exponent of the leading digit. -/
def magnitude (x : Decimal) : Int :=
  x.exponent + digitCount x.coefficient - 1

/-- What arithmetic keeps of an exact result: at most `precision` digits, none of them below the
lowest exponent.  There is nothing where the leading digit lies above the highest exponent. -/
def kept (x : Decimal) : Option Decimal :=
  if x.coefficient = 0 then some { x with exponent := max lowest (min x.exponent highest) }
  else
    let y :=
      if x.magnitude < lowest + precision - 1 && x.exponent < lowest then
        ⟨x.negative, withoutLast x.coefficient (lowest - x.exponent).toNat, lowest⟩
      else x.rounded
    if highest < y.magnitude then none else some y

/-- The product, as far as arithmetic keeps it. -/
def mul (x y : Decimal) : Option Decimal :=
  kept ⟨x.negative != y.negative, x.coefficient * y.coefficient, x.exponent + y.exponent⟩

/-- The coefficient of a number, with its sign, at an exponent no larger than its own. -/
def coefficientAt (x : Decimal) (e : Int) : Int :=
  if x.coefficient = 0 then 0
  else Double.signed x.negative (x.coefficient * tenTo (x.exponent - e).toNat)

/-- Up to which distance of exponents sums are aligned digit by digit. -/
def reach : Nat := 1000

/-- The number to add instead of one with a smaller exponent: itself, or where it lies far below
all digits that are kept, the smallest number that is rounded in the same way. -/
def standIn (small big : Decimal) : Decimal :=
  let spare : Int := digitCount big.coefficient - precision - 2
  let limit := big.exponent + min (-1) spare
  if big.exponent - small.exponent ≤ reach || big.coefficient = 0
      || limit < small.exponent + digitCount small.coefficient then small
  else ⟨small.negative, min small.coefficient 1, limit⟩

/-- The sum, as far as arithmetic keeps it; an exact zero is negative only where both terms are. -/
def add (x y : Decimal) : Option Decimal :=
  let a := if x.exponent ≤ y.exponent then standIn x y else x
  let b := if x.exponent ≤ y.exponent then y else standIn y x
  let e := min a.exponent b.exponent
  let c := a.coefficientAt e + b.coefficientAt e
  kept ⟨if c = 0 then x.negative && y.negative else decide (c < 0), c.natAbs, e⟩

/-! ## Section 4: Text -/

/-- The exponent of a number with its sign, as it is written behind an `E`. -/
def exponentChars (e : Int) : List Char :=
  'E' :: (if e < 0 then '-' else '+') :: numeral e.natAbs

/-- The characters of a number: with a point where the exponent allows it, with an exponent
elsewhere. -/
def chars (x : Decimal) : List Char :=
  let ds := numeral x.coefficient
  let position := x.exponent + ds.length
  Double.withSign x.negative <|
    if x.exponent ≤ 0 && -6 < position then
      Double.positionalBare ds position
    else Double.pointAfterFirst ds ++ exponentChars (position - 1)

/-- The text of a number. -/
def text (x : Decimal) : String :=
  String.ofList (chars x)

end Decimal

/-! ## Section 5: Infinite and undefined numbers -/

/-- A decimal number, or what a text shows in place of one. -/
inductive WideDecimal where
  | finite (x : Decimal)
  | infinite (negative : Bool)
  /-- No number; arithmetic refuses it if it is marked, and hands it on if not. -/
  | undefined (marked : Bool)
  deriving DecidableEq, Repr, Inhabited

/-- Why arithmetic gives nothing. -/
inductive DecimalTrouble where
  /-- The leading digit of a finite result lies too high. -/
  | overflow
  /-- The operands have no result. -/
  | invalid
  deriving DecidableEq, Repr

namespace WideDecimal

/-- The number that a word stands for; digits may follow the word of an undefined one. -/
def ofWord? (s : List Char) : Option WideDecimal :=
  let signed := splitSign s
  match lowered signed.2 with
  | 's' :: 'n' :: 'a' :: 'n' :: r => if r.all isDecimalDigit then some (.undefined true) else none
  | 'n' :: 'a' :: 'n' :: r => if r.all isDecimalDigit then some (.undefined false) else none
  | word =>
    if word = "inf".toList || word = "infinity".toList then some (.infinite signed.1) else none

/-- The number that a text stands for, written in digits or as a word. -/
def read? (text : List Char) : Option WideDecimal :=
  match Decimal.read? text with
  | some x => some (.finite x)
  | none => ofWord? ((strip text).filter (· != '_'))

/-- A finite result, which may lie too high. -/
def ofResult : Option Decimal → Except DecimalTrouble WideDecimal
  | some x => .ok (.finite x)
  | none => .error .overflow

/-- The product with a finite number. -/
def times (x : WideDecimal) (n : Decimal) : Except DecimalTrouble WideDecimal :=
  match x with
  | .finite x => ofResult (x.mul n)
  | .infinite s => if n.coefficient = 0 then .error .invalid else .ok (.infinite (s != n.negative))
  | .undefined marked => if marked then .error .invalid else .ok x

/-- The sum; infinite numbers of different signs have none. -/
def plus : WideDecimal → WideDecimal → Except DecimalTrouble WideDecimal
  | .undefined true, _ => .error .invalid
  | _, .undefined true => .error .invalid
  | .undefined false, _ => .ok (.undefined false)
  | _, .undefined false => .ok (.undefined false)
  | .infinite s, .infinite t => if s = t then .ok (.infinite s) else .error .invalid
  | .infinite s, .finite _ => .ok (.infinite s)
  | .finite _, .infinite t => .ok (.infinite t)
  | .finite x, .finite y => ofResult (x.add y)

end WideDecimal

end Overlay
