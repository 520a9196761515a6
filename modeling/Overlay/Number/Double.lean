import Overlay.Number.Power
import Overlay.Number.Rounding

/-!
# Double precision numbers

A finite double is a whole number of units of `2^-1074`, written as a significand below `2^53`
times a power of two.  Each operation is its exact result, rounded to nearest with ties to even;
results beyond the largest finite number become infinite.

## Main definitions
- `Double`: not-a-number, the two infinities, and the finite numbers
- `Double.nearest`: the double nearest a quotient of units
- `Double.add`, `Double.sub`, `Double.mul`, `Double.div`: rounded arithmetic
- `Double.Place`, `Double.place?`: where a number stands on the line, as an exact order key
-/

namespace Overlay

open Overlay.Number

/-! ## Section 1: The numbers -/

/-- A significand `m` and a power `p` that stand for a double: the significand is full unless the
power is the smallest. -/
def Double.Fits (m p : Nat) : Prop :=
  m < twoTo 53 ∧ (twoTo 52 ≤ m ∨ p = 0) ∧ p ≤ 2045

instance Double.decidableFits (m p : Nat) : Decidable (Double.Fits m p) := by
  unfold Double.Fits
  infer_instance

/-- A double precision number; a finite one is `m * 2 ^ p` units of `2^-1074` with a sign. -/
inductive Double where
  | nan
  | infinite (negative : Bool)
  | finite (negative : Bool) (m p : Nat) (fits : Double.Fits m p)
  deriving DecidableEq

namespace Double

/-- The number of units in one. -/
def unitsInOne : Nat := twoTo 1074

/-- The finite number with this significand and power, or the infinity of its sign. -/
def ofParts (negative : Bool) (m p : Nat) : Double :=
  if h : Fits m p then .finite negative m p h else .infinite negative

/-- The power whose multiples lie next to each other around `a / d` units. -/
def unitPower (a d : Nat) : Nat :=
  (a / d).log2 - 52

/-- The double nearest `a / d` units, with a sign. -/
def nearest (negative : Bool) (a d : Nat) : Double :=
  let p := unitPower a d
  let m := roundDiv a (d * twoTo p)
  -- rounding up may need one more bit: then the significand is the smallest full one again
  if m = twoTo 53 then ofParts negative (twoTo 52) (p + 1) else ofParts negative m p

/-- Zero. -/
def zero : Double := ofParts false 0 0

/-- The zero of a sign. -/
def signedZero (negative : Bool) : Double := ofParts negative 0 0

/-- The nearest double of a whole number. -/
def ofNat (n : Nat) : Double :=
  nearest false (n * unitsInOne) 1

/-- The nearest double of an integer. -/
def ofInt (i : Int) : Double :=
  nearest (decide (i < 0)) (i.natAbs * unitsInOne) 1

/-- The nearest double of a quotient of an integer. -/
def ofQuotient (i : Int) (d : Nat) : Double :=
  nearest (decide (i < 0)) (i.natAbs * unitsInOne) d

/-- The nearest double of `c * 10 ^ e`; powers of ten far outside the range are not computed. -/
def ofScientific (negative : Bool) (c : Nat) (e : Int) (digits : Nat) : Double :=
  let top := e + digits
  if c = 0 then signedZero negative
  else if 400 < top then .infinite negative
  else if top < -400 then signedZero negative
  else match e with
    -- both sides of the quotient are exact, so this rounds only once
    | .ofNat k => nearest negative (c * tenTo k * unitsInOne) 1
    | .negSucc k => nearest negative (c * unitsInOne) (tenTo (k + 1))

instance instOfNat (n : Nat) : OfNat Double n := ⟨ofNat n⟩

instance instInhabited : Inhabited Double := ⟨zero⟩

/-! ## Section 2: Looking at a number -/

/-- Whether a number is neither infinite nor not-a-number. -/
def isFinite : Double → Bool
  | .finite .. => true
  | _ => false

/-- The sign of a number. -/
def isNegative : Double → Bool
  | .nan => false
  | .infinite s => s
  | .finite s .. => s

/-- A magnitude with a sign. -/
def signed (negative : Bool) (n : Nat) : Int :=
  if negative then -(n : Int) else n

/-- The units of a finite number; zero for the others. -/
def units : Double → Int
  | .finite s m p _ => signed s (m * twoTo p)
  | _ => 0

/-- Whether a number is finite and whole. -/
def isWhole : Double → Bool
  | .finite _ m p _ => m * twoTo p % unitsInOne = 0
  | _ => false

/-- The whole part of a finite number, rounded toward zero. -/
def truncate (x : Double) : Int :=
  x.units.tdiv unitsInOne

/-! ## Section 3: Order -/

/-- A place on the extended number line: the two infinities lie beyond all finite places, which
are measured in units. -/
structure Place where
  /-- Minus one, zero or one: below, among or above the finite places. -/
  side : Int
  /-- The units from zero. -/
  units : Int
  deriving DecidableEq

/-- Places are ordered by side, then by units. -/
def Place.before (a b : Place) : Bool :=
  a.side < b.side || (a.side = b.side && a.units < b.units)

/-- The place of an integer. -/
def Place.ofInt (i : Int) : Place :=
  ⟨0, i * unitsInOne⟩

/-- The place of a number; not-a-number has none. -/
def place? : Double → Option Place
  | .nan => none
  | .infinite s => some ⟨if s then -1 else 1, 0⟩
  | .finite s m p _ => some ⟨0, signed s (m * twoTo p)⟩

/-- Whether a number lies before another one; never true of not-a-number. -/
def lt (x y : Double) : Bool :=
  match x.place?, y.place? with
  | some a, some b => a.before b
  | _, _ => false

/-- Whether a number lies before another one or at its place. -/
def le (x y : Double) : Bool :=
  match x.place?, y.place? with
  | some a, some b => !b.before a
  | _, _ => false

/-- Whether two numbers have the same place; not-a-number differs from itself. -/
def same (x y : Double) : Bool :=
  match x.place?, y.place? with
  | some a, some b => a = b
  | _, _ => false

/-! ## Section 4: Arithmetic -/

/-- The number with the other sign. -/
def neg : Double → Double
  | .nan => .nan
  | .infinite s => .infinite !s
  | .finite s m p h => .finite (!s) m p h

/-- The double nearest a number of units; an exact zero takes the given sign. -/
def ofUnits (zeroSign : Bool) (u : Int) : Double :=
  if u = 0 then signedZero zeroSign else nearest (decide (u < 0)) u.natAbs 1

/-- The rounded sum; an exact zero is negative only where both terms are. -/
def add : Double → Double → Double
  | .nan, _ => .nan
  | _, .nan => .nan
  | .infinite s, .infinite t => if s = t then .infinite s else .nan
  | .infinite s, .finite .. => .infinite s
  | .finite .., .infinite t => .infinite t
  | .finite s m p _, .finite t n q _ =>
    ofUnits (s && t) (signed s (m * twoTo p) + signed t (n * twoTo q))

/-- The rounded difference. -/
def sub (x y : Double) : Double :=
  add x (neg y)

/-- The rounded product. -/
def mul : Double → Double → Double
  | .nan, _ => .nan
  | _, .nan => .nan
  | .infinite s, .infinite t => .infinite (s != t)
  | .infinite s, .finite t n _ _ => if n = 0 then .nan else .infinite (s != t)
  | .finite s m _ _, .infinite t => if m = 0 then .nan else .infinite (s != t)
  | .finite s m p _, .finite t n q _ =>
    nearest (s != t) (m * twoTo p * (n * twoTo q)) unitsInOne

/-- The rounded quotient. -/
def div : Double → Double → Double
  | .nan, _ => .nan
  | _, .nan => .nan
  | .infinite _, .infinite _ => .nan
  | .infinite s, .finite t .. => .infinite (s != t)
  | .finite s .., .infinite t => signedZero (s != t)
  | .finite s m p _, .finite t n q _ =>
    if n = 0 then (if m = 0 then .nan else .infinite (s != t))
    else nearest (s != t) (m * twoTo p * unitsInOne) (n * twoTo q)

/-- The part of a finite number behind the point, counted upward from the whole number below. -/
def wrapToOne : Double → Double
  | .finite s m p _ =>
    let r := m * twoTo p % unitsInOne
    if r = 0 then zero
    else if s then add (ofUnits true (-(r : Int))) (ofNat 1)
    else ofUnits false r
  | _ => .nan

/-- The larger of zero and a number; zero where the number has no place. -/
def clampBelow (x : Double) : Double :=
  if lt zero x then x else zero

end Double

end Overlay
