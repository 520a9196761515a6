import Overlay.Number.Double
import Overlay.Number.Numeral

/-!
# Doubles as decimal text

The text of a double has the fewest digits that read back as the same number, and of those the
nearest to it.  It is written with a point where the decimal exponent lies between -4 and 15 and
with an exponent elsewhere.  Two more formats fix the number of digits: significant ones or places
behind the point.

## Main definitions
- `Double.shortest`: the digits and the power of ten
- `Double.text`: the text
- `Double.compactText`: six significant digits, without trailing zeros
- `Double.twoPlacesText`: two places behind the point
-/

namespace Overlay.Double

open Overlay.Number

/-! ## Section 1: Decimal grids -/

/-- The decimal exponent of a positive quotient: the power of ten at or below it. -/
def decimalExponent (a d : Nat) : Int :=
  if d ≤ a then (digitCount (a / d) : Int) - 1 else -(digitCount ((d - 1) / a) : Int)

/-- A quotient measured in steps of `10 ^ e`, as a quotient again. -/
def inSteps (a d : Nat) : Int → Nat × Nat
  | .ofNat k => (a, d * tenTo k)
  | .negSucc k => (a * tenTo (k + 1), d)

/-- The double of `c * 10 ^ e`. -/
def ofDecimal (negative : Bool) (c : Nat) (e : Int) : Double :=
  ofScientific negative c e (digitCount c)

/-- The point of the decimal grid with step `10 ^ e` that reads back as `x`, whose magnitude is the
quotient `a / d`; of two such points the nearer, of two equally near ones the even. -/
def gridPoint? (x : Double) (a d : Nat) (e : Int) : Option (Nat × Int) :=
  let q := inSteps a d e
  let low := q.1 / q.2
  let readsBack (c : Nat) : Bool := decide (ofDecimal x.isNegative c e = x)
  match readsBack low, readsBack (low + 1) with
  | true, true => some (roundDiv q.1 q.2, e)
  | true, false => some (low, e)
  | false, true => some (low + 1, e)
  | false, false => none

/-! ## Section 2: The fewest digits -/

/-- The exact decimal expansion of `n` units. -/
def exactDecimal (n : Nat) : Nat × Int :=
  (n * Nat.pow 5 1074, -1074)

/-- The coefficient and the power of ten of the shortest decimal that reads back as a number; the
grids of one to seventeen digits are tried in turn. -/
def shortest (x : Double) : Nat × Int :=
  match x with
  | .finite _ m p _ =>
    let n := m * twoTo p
    if n = 0 then (0, 0)
    else
      -- seventeen digits always suffice, so the exact expansion is never needed
      let k := decimalExponent n unitsInOne
      let point? (i : Nat) := gridPoint? x n unitsInOne (k - i)
      ((List.range 17).findSome? point?).getD (exactDecimal n)
  | _ => (0, 0)

/-! ## Section 3: Layout of digits -/

/-- The digits without the zeros at their end; at least one is kept. -/
def dropTrailingZeros (ds : List Char) : List Char :=
  match (ds.reverse.dropWhile (· = '0')).reverse with
  | [] => ['0']
  | kept => kept

/-- A decimal exponent with its sign and at least two digits. -/
def exponentChars (e : Int) : List Char :=
  'e' :: (if e < 0 then '-' else '+') :: padded 2 e.natAbs

/-- Digits with a point behind the first one, if more follow. -/
def pointAfterFirst : List Char → List Char
  | [] => []
  | [d] => [d]
  | d :: r => d :: '.' :: r

/-- Digits with a point at a position counted from their left end; zeros fill the gap on either
side of them. -/
def pointAt (ds : List Char) (position : Int) : List Char × List Char :=
  match position with
  | .ofNat k =>
    if k = 0 then (['0'], ds)
    else (ds.take k ++ List.replicate (k - ds.length) '0', ds.drop k)
  | .negSucc k => (['0'], List.replicate (k + 1) '0' ++ ds)

/-- Digits in positional notation; a number without places is given the place `0`. -/
def positional (ds : List Char) (position : Int) : List Char :=
  let r := pointAt ds position
  r.1 ++ '.' :: (if r.2.isEmpty then ['0'] else r.2)

/-- Digits in positional notation, without a point where no place follows. -/
def positionalBare (ds : List Char) (position : Int) : List Char :=
  let r := pointAt ds position
  if r.2.isEmpty then r.1 else r.1 ++ '.' :: r.2

/-- A sign in front of a magnitude. -/
def withSign (negative : Bool) (ds : List Char) : List Char :=
  if negative then '-' :: ds else ds

/-! ## Section 4: Formats -/

/-- The texts of the numbers that are not finite. -/
def specialChars : Double → List Char
  | .infinite s => withSign s ['i', 'n', 'f']
  | _ => ['n', 'a', 'n']

/-- The characters of the shortest text of a number. -/
def chars (x : Double) : List Char :=
  if x.isFinite then
    let r := shortest x
    let all := numeral r.1
    let position := r.2 + all.length
    let ds := dropTrailingZeros all
    withSign x.isNegative <|
      if r.1 = 0 then ['0', '.', '0']
      -- very large and very small numbers are written with an exponent
      else if -4 < position && position ≤ 16 then positional ds position
      else pointAfterFirst ds ++ exponentChars (position - 1)
  else specialChars x

/-- The shortest text of a number. -/
def text (x : Double) : String :=
  String.ofList (chars x)

/-- A magnitude of units rounded to six significant digits: the digits and the position of the
point. -/
def sixDigits (n : Nat) : List Char × Int :=
  let k := decimalExponent n unitsInOne
  -- rounding may reach the next power of ten, so the digits are counted again
  let q := inSteps n unitsInOne (k - 5)
  let c := roundDiv q.1 q.2
  (numeral c, k - 5 + digitCount c)

/-- Six significant digits without trailing zeros, with an exponent outside of -4 to 5. -/
def compactText (x : Double) : String :=
  String.ofList <|
    if x.isFinite then
      let n := x.units.natAbs
      withSign x.isNegative <|
        if n = 0 then ['0']
        else
          let r := sixDigits n
          let ds := dropTrailingZeros r.1
          if -4 < r.2 && r.2 ≤ 6 then positionalBare ds r.2
          else pointAfterFirst ds ++ exponentChars (r.2 - 1)
    else specialChars x

/-- Two places behind the point. -/
def twoPlacesText (x : Double) : String :=
  String.ofList <|
    if x.isFinite then
      let hundredths := roundDiv (x.units.natAbs * 100) unitsInOne
      withSign x.isNegative (numeral (hundredths / 100) ++ '.' :: padded 2 (hundredths % 100))
    else specialChars x

end Overlay.Double
