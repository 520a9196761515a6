import Overlay.Number.Shortest

/-!
# Numbers

A number is an integer of any size or a double.  Arithmetic between the two kinds goes through the
nearest double of the integer, which fails where there is none; the order between them is exact.

## Main definitions
- `Number`: an integer or a double
- `Number.place?`, `Number.lt`, `Number.same`: the exact order
- `Number.add?`, `Number.sub?`, `Number.mul?`: arithmetic
- `Number.thousandth?`: a number of milliseconds as seconds
-/

namespace Overlay

/-- An integer or a double. -/
inductive Number where
  | int (i : Int)
  | float (x : Double)
  deriving DecidableEq, Inhabited

namespace Number

/-! ## Section 1: Order -/

/-- The place of a number on the line; not-a-number has none. -/
def place? : Number → Option Double.Place
  | .int i => some (Double.Place.ofInt i)
  | .float x => x.place?

/-- Whether a number lies before another one; never true of not-a-number. -/
def lt (a b : Number) : Bool :=
  match a.place?, b.place? with
  | some p, some q => p.before q
  | _, _ => false

/-- Whether a number lies before another one or at its place. -/
def le (a b : Number) : Bool :=
  match a.place?, b.place? with
  | some p, some q => !q.before p
  | _, _ => false

/-- Whether two numbers have the same place; not-a-number differs from itself. -/
def same (a b : Number) : Bool :=
  match a.place?, b.place? with
  | some p, some q => p = q
  | _, _ => false

/-! ## Section 2: Arithmetic -/

/-- The nearest double of an integer, where it is finite. -/
def doubleOfInt? (i : Int) : Option Double :=
  let x := Double.ofInt i
  if x.isFinite then some x else none

/-- The nearest double of a number. -/
def toDouble? : Number → Option Double
  | .int i => doubleOfInt? i
  | .float x => some x

/-- An operation that is exact on integers and rounded on doubles. -/
def combine? (onInts : Int → Int → Int) (onDoubles : Double → Double → Double) :
    Number → Number → Option Number
  | .int i, .int j => some (.int (onInts i j))
  | a, b => do
    let x ← a.toDouble?
    let y ← b.toDouble?
    return .float (onDoubles x y)

/-- The sum. -/
def add? : Number → Number → Option Number :=
  combine? (· + ·) Double.add

/-- The difference. -/
def sub? : Number → Number → Option Number :=
  combine? (· - ·) Double.sub

/-- The product. -/
def mul? : Number → Number → Option Number :=
  combine? (· * ·) Double.mul

/-- The thousandth part of a number, as a double.  An integer is divided exactly before rounding. -/
def thousandth? : Number → Option Double
  | .int i =>
    let x := Double.ofQuotient i 1000
    if x.isFinite then some x else none
  | .float x => some (x.div (Double.ofNat 1000))

/-! ## Section 3: Text -/

/-- The text of a number. -/
def text : Number → String
  | .int i => intText i
  | .float x => x.text

end Number

end Overlay
