import Overlay.Proofs.Number.Thousandths

/-!
# Numbers that do not lie below zero

A sum of two numbers that do not lie below zero is not below zero either, also where it is rounded and
where it becomes infinite.

## Main definitions
- `Number.isNonNegative`: numbers that do not lie below zero; not-a-number is none of them

## Main statements
- `Number.isNonNegative_add`: sums
- `Number.isNonNegative_of_not_lt`, `Number.not_lt_zero`, `Number.lt_of_lt_zero`: zero as a bound
- `Double.truncate_nonneg_iff`: doubles without a fraction
-/

namespace Overlay

open Overlay.Number

attribute [local irreducible] twoTo tenTo Double.unitsInOne

/-! ## Section 1: Doubles -/

namespace Double

/-- Whether a place lies below zero. -/
theorem before_zero (p : Place) : p.before (.ofInt 0) = decide (p.side < 0 ∨ p.side = 0 ∧ p.units < 0) := by
  simp [Place.before, Place.ofInt]

/-- Whether a double does not lie below zero. -/
def isNonNegative (x : Double) : Bool :=
  match x.place? with
  | some p => !p.before (.ofInt 0)
  | none => false

theorem isNonNegative_infinite (s : Bool) : (infinite s).isNonNegative = !s := by
  cases s <;> simp [isNonNegative, place?, before_zero]

theorem isNonNegative_finite {s : Bool} {m p : Nat} (h : Fits m p) :
    (finite s m p h).isNonNegative = decide (0 ≤ signed s (m * twoTo p)) := by
  simp [isNonNegative, place?, before_zero, ← decide_not]

theorem signed_false_nonneg (n : Nat) : 0 ≤ signed false n :=
  Int.natCast_nonneg n

theorem isNonNegative_ofParts (m p : Nat) : (ofParts false m p).isNonNegative = true := by
  unfold ofParts
  split
  · rw [isNonNegative_finite, decide_eq_true_eq]
    exact signed_false_nonneg _
  · rw [isNonNegative_infinite, Bool.not_false]

theorem isNonNegative_nearest (a d : Nat) : (nearest false a d).isNonNegative = true := by
  unfold nearest
  dsimp only
  split
  · exact isNonNegative_ofParts _ _
  · exact isNonNegative_ofParts _ _

theorem isNonNegative_signedZero (s : Bool) : (signedZero s).isNonNegative = true := by
  rw [signedZero, ofParts_of_fits fits_zero, isNonNegative_finite, Nat.zero_mul]
  cases s <;> rfl

theorem isNonNegative_zero : zero.isNonNegative = true :=
  isNonNegative_signedZero false

theorem isNonNegative_ofUnits (zeroSign : Bool) {u : Int} (hu : 0 ≤ u) :
    (ofUnits zeroSign u).isNonNegative = true := by
  unfold ofUnits
  split
  · exact isNonNegative_signedZero zeroSign
  · rw [decide_eq_false (by omega)]
    exact isNonNegative_nearest _ _

theorem isNonNegative_ofInt {i : Int} (hi : 0 ≤ i) : (ofInt i).isNonNegative = true := by
  rw [ofInt, decide_eq_false (by omega)]
  exact isNonNegative_nearest _ _

/-- Doubles that do not lie below zero are added. -/
theorem isNonNegative_add {x y : Double} (hx : x.isNonNegative = true) (hy : y.isNonNegative = true) :
    (x.add y).isNonNegative = true := by
  cases x with
  | nan => cases hx
  | infinite s =>
    rw [isNonNegative_infinite, Bool.not_eq_true'] at hx
    subst hx
    cases y with
    | nan => cases hy
    | infinite t =>
      rw [isNonNegative_infinite, Bool.not_eq_true'] at hy
      subst hy
      rfl
    | finite => exact isNonNegative_infinite false
  | finite s m p hfits =>
    cases y with
    | nan => cases hy
    | infinite t => exact hy
    | finite t n q hfits' =>
      -- the exact sum is rounded once; which zero it becomes does not matter
      rw [isNonNegative_finite, decide_eq_true_eq] at hx hy
      exact isNonNegative_ofUnits _ (Int.add_nonneg hx hy)

/-- Cutting off does not change the sign of a whole number. -/
theorem truncate_nonneg_iff {x : Double} (h : x.isWhole = true) :
    0 ≤ x.truncate ↔ x.isNonNegative = true := by
  cases x with
  | finite s m p hfits =>
    rw [isNonNegative_finite, decide_eq_true_eq, truncate, units]
    -- the units are a multiple of those in one
    obtain ⟨n, hn⟩ := Nat.dvd_of_mod_eq_zero (of_decide_eq_true h)
    have hpos : (0 : Int) < unitsInOne := Int.natCast_pos.mpr unitsInOne_pos
    have hunits : signed s (m * twoTo p) = signed s n * unitsInOne := by
      rw [hn]
      cases s <;> simp [signed, Int.mul_comm]
    rw [hunits, Int.mul_tdiv_cancel _ hpos.ne', Int.mul_nonneg_iff_of_pos_right hpos]
  | _ => cases h

end Double

/-! ## Section 2: Numbers -/

namespace Number

/-- Whether a number does not lie below zero. -/
def isNonNegative (n : Number) : Bool :=
  (Number.int 0).le n

theorem isNonNegative_int (i : Int) : (Number.int i).isNonNegative = decide (0 ≤ i) :=
  le_int 0 i

theorem isNonNegative_float (x : Double) : (Number.float x).isNonNegative = x.isNonNegative := by
  unfold isNonNegative Double.isNonNegative
  cases hx : x.place? with
  | none => simp [le, place?_float, hx]
  | some p => rw [le_eq (place?_int 0) ((place?_float x).trans hx)]

/-- What has a place and does not lie before zero does not lie below it. -/
theorem isNonNegative_of_not_lt {n : Number} (hplace : n.place?.isSome) (h : n.lt (.int 0) = false) :
    n.isNonNegative = true := by
  obtain ⟨p, hp⟩ := Option.isSome_iff_exists.mp hplace
  rw [lt_eq hp (place?_int 0)] at h
  rw [isNonNegative, le_eq (place?_int 0) hp, h, Bool.not_false]

theorem isNonNegative_toDouble? {n : Number} {x : Double} (h : n.isNonNegative = true)
    (hx : n.toDouble? = some x) : x.isNonNegative = true := by
  cases n with
  | int i =>
    obtain ⟨rfl, -⟩ := Double.doubleOfInt?_eq_some.mp hx
    rw [isNonNegative_int, decide_eq_true_eq] at h
    exact Double.isNonNegative_ofInt h
  | float y =>
    rw [← Option.some.inj hx, ← isNonNegative_float]
    exact h

/-- Numbers that do not lie below zero are added. -/
theorem isNonNegative_add {m n k : Number} (hm : m.isNonNegative = true) (hn : n.isNonNegative = true)
    (h : m.add? n = some k) : k.isNonNegative = true := by
  -- as soon as one of the two is a double, both are added as doubles
  have hdoubles : (do return .float (Double.add (← m.toDouble?) (← n.toDouble?)) : Option Number)
      = some k → k.isNonNegative = true := by
    intro hk
    obtain ⟨x, hx, hk⟩ := Option.bind_eq_some_iff.mp hk
    obtain ⟨y, hy, hk⟩ := Option.bind_eq_some_iff.mp hk
    rw [← Option.some.inj hk, isNonNegative_float]
    exact Double.isNonNegative_add (isNonNegative_toDouble? hm hx) (isNonNegative_toDouble? hn hy)
  cases m with
  | int i =>
    cases n with
    | int j =>
      rw [isNonNegative_int, decide_eq_true_eq] at hm hn
      rw [← Option.some.inj h, isNonNegative_int, decide_eq_true_eq]
      exact Int.add_nonneg hm hn
    | float y => exact hdoubles h
  | float x => exact hdoubles h

theorem not_lt_zero {n : Number} (h : n.isNonNegative = true) : n.lt (.int 0) = false := by
  unfold isNonNegative le at h
  cases hplace : n.place? with
  | none => simp [lt, hplace]
  | some p =>
    rw [hplace, place?_int] at h
    rw [lt_eq hplace (place?_int 0)]
    exact Bool.not_eq_true' _ ▸ h

/-- An integer below zero lies before whatever does not lie below zero. -/
theorem lt_of_lt_zero {i : Int} (hi : i < 0) {n : Number} (hn : n.isNonNegative = true) :
    (Number.int i).lt n = true := by
  unfold isNonNegative le at hn
  cases hplace : n.place? with
  | none =>
    rw [hplace] at hn
    cases hn
  | some p =>
    rw [hplace, place?_int] at hn
    simp only [Double.before_zero, Bool.not_eq_true', decide_eq_false_iff_not] at hn
    have hunits : i * (Double.unitsInOne : Int) < 0 :=
      Int.mul_neg_of_neg_of_pos hi (Int.natCast_pos.mpr Double.unitsInOne_pos)
    rw [lt_eq (place?_int i) hplace]
    rcases Int.lt_or_eq_of_le (show 0 ≤ p.side by omega) with hside | hside
    · simp [Double.Place.before, Double.Place.ofInt, hside]
    · have hbefore : i * (Double.unitsInOne : Int) < p.units := by omega
      simp [Double.Place.before, Double.Place.ofInt, ← hside, hbefore]

end Number

end Overlay
