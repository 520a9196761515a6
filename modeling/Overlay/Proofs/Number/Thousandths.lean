import Overlay.Proofs.Number.Exact

/-!
# Thousandths and back

A whole number that is divided by a thousand and multiplied by it again is rounded twice.  Below
`2^52` it stays closer than one to itself, so among the integers it either stays where it is or comes
behind the place where it was.

## Main definitions
- `Double.thereAndBack`: a thousandth, times a thousand
- `Double.isLate`: whether it is larger than the number

## Main statements
- `Double.nearest_error`: rounding changes a quotient by half a unit in the last place at most
- `Double.le_units_ofInt`: rounding an integer keeps its order
- `Double.thereAndBack_le_iff`: which integers a number is not larger than, there and back
-/

namespace Overlay

open Overlay.Number

theorem Number.thousand_lt : 1000 < twoTo 53 := by
  decide

theorem Number.twoTo_small : twoTo 1 = 2 ∧ twoTo 9 = 512 ∧ twoTo 10 = 1024 := by
  decide

attribute [local irreducible] twoTo tenTo Double.unitsInOne

/-! ## Section 1: Errors -/

/-- Rounding a quotient changes it by one half at most. -/
theorem Number.roundDiv_error {d : Nat} (hd : 0 < d) (a : Nat) :
    2 * a ≤ 2 * (d * roundDiv a d) + d ∧ 2 * (d * roundDiv a d) ≤ 2 * a + d := by
  have hsplit : d * (a / d) + a % d = a := Nat.div_add_mod a d
  have hrest : a % d < d := Nat.mod_lt a hd
  have hnext : d * (a / d + 1) = d * (a / d) + d := Nat.mul_succ d (a / d)
  unfold roundDiv
  dsimp only
  split
  · omega
  · split
    · omega
    · split <;> omega

namespace Double

/-- What the nearest double is, in units. -/
theorem units_nearest {s t : Bool} {a d m p : Nat} {h : Fits m p}
    (hnear : nearest s a d = .finite t m p h) :
    m * twoTo p = roundDiv a (d * twoTo (unitPower a d)) * twoTo (unitPower a d) := by
  have hparts : ∀ n q, ofParts s n q = .finite t m p h → m * twoTo p = n * twoTo q := by
    intro n q heq
    unfold ofParts at heq
    split at heq
    · injection heq with _ hm hp
      rw [hm, hp]
    · cases heq
  unfold nearest at hnear
  dsimp only at hnear
  split at hnear
  · next hcarry =>
    have hpower : twoTo 52 * twoTo (unitPower a d + 1) = twoTo 53 * twoTo (unitPower a d) := by
      rw [← twoTo_add, ← twoTo_add, show 52 + (unitPower a d + 1) = 53 + unitPower a d by omega]
    rw [hparts _ _ hnear, hcarry, hpower]
  · exact hparts _ _ hnear

/-- Rounding changes a quotient by half a unit in the last place at most. -/
theorem nearest_error {s t : Bool} {a d m p k : Nat} {h : Fits m p} (hd : 0 < d)
    (hroom : a < d * twoTo (k + 53)) (hnear : nearest s a d = .finite t m p h) :
    2 * a ≤ 2 * (d * (m * twoTo p)) + d * twoTo k
      ∧ 2 * (d * (m * twoTo p)) ≤ 2 * a + d * twoTo k := by
  have hpower : unitPower a d ≤ k := by
    have hquot : a / d < twoTo (k + 53) := by
      rwa [Nat.div_lt_iff_lt_mul hd, Nat.mul_comm]
    unfold unitPower
    by_cases hzero : a / d = 0
    · rw [hzero]
      exact Nat.zero_le k
    · have := (log2_lt_iff hzero).mpr hquot
      omega
  have hstep : d * twoTo (unitPower a d) ≤ d * twoTo k :=
    Nat.mul_le_mul_left d (twoTo_le hpower)
  have herror := roundDiv_error (Nat.mul_pos hd (twoTo_pos (unitPower a d))) a
  have hunits : d * twoTo (unitPower a d) * roundDiv a (d * twoTo (unitPower a d))
      = d * (m * twoTo p) := by
    rw [units_nearest hnear]
    ring
  rw [hunits] at herror
  omega

/-! ## Section 2: Places of finite doubles -/

theorem place?_of_isFinite {x : Double} (hx : x.isFinite = true) : x.place? = some ⟨0, x.units⟩ := by
  cases x with
  | nan => cases hx
  | infinite s => cases hx
  | finite s m p h => rfl

theorem before_units (u v : Int) : (⟨0, u⟩ : Place).before ⟨0, v⟩ = decide (u < v) := by
  simp [Place.before]

/-- Finite doubles are ordered by their units. -/
theorem lt_of_isFinite {x y : Double} (hx : x.isFinite = true) (hy : y.isFinite = true) :
    x.lt y = decide (x.units < y.units) := by
  rw [lt, place?_of_isFinite hx, place?_of_isFinite hy]
  exact before_units _ _

theorem le_of_isFinite {x y : Double} (hx : x.isFinite = true) (hy : y.isFinite = true) :
    x.le y = decide (x.units ≤ y.units) := by
  rw [le_eq (place?_of_isFinite hx) (place?_of_isFinite hy), before_units, ← decide_not]
  exact decide_eq_decide.mpr Int.not_lt

/-- What has the units of a finite double is that double, if a zero takes its sign. -/
theorem ofUnits_units {s z : Bool} {m p : Nat} {h : Fits m p} (hz : m ≠ 0 ∨ z = s) :
    ofUnits z (signed s (m * twoTo p)) = .finite s m p h := by
  have hzero : m = 0 → p = 0 := by
    rintro rfl
    exact h.2.1.resolve_left (Nat.not_le.mpr (twoTo_pos 52))
  by_cases hm : m = 0
  · obtain rfl := hz.resolve_left fun hne => hne hm
    obtain rfl := hzero hm
    subst hm
    have hnone : signed z (0 * twoTo 0) = 0 := by
      rw [Nat.zero_mul]
      cases z <;> rfl
    rw [hnone, ofUnits, if_pos rfl, signedZero, ofParts_of_fits h]
  · have hpos : 0 < m * twoTo p := Nat.mul_pos (by omega) (twoTo_pos p)
    generalize hu : m * twoTo p = u at hpos
    have hsign : decide (signed s u < 0) = s := by
      cases s <;> simp [signed, hpos]
    have hne : signed s u ≠ 0 := by
      cases s <;> simp [signed, Nat.pos_iff_ne_zero.mp hpos]
    rw [ofUnits, if_neg hne, hsign, natAbs_signed, ← hu, nearest_units h]

theorem zero_eq_finite : ∃ h : Fits 0 0, zero = .finite false 0 0 h :=
  ⟨fits_zero, ofParts_of_fits _ false⟩

theorem isFinite_zero : zero.isFinite = true := by
  obtain ⟨h, hzero⟩ := zero_eq_finite
  rw [hzero]
  rfl

theorem units_zero : zero.units = 0 := by
  obtain ⟨h, hzero⟩ := zero_eq_finite
  rw [hzero, units, signed, Nat.zero_mul]
  rfl

/-- Taking away nothing. -/
theorem sub_zero_of_isFinite {x : Double} (hx : x.isFinite = true) : x.sub zero = x := by
  obtain ⟨h, hzero⟩ := zero_eq_finite
  cases x with
  | nan => cases hx
  | infinite s => cases hx
  | finite s m p hf =>
    have hnone : signed true (0 * twoTo 0) = 0 := by
      rw [Nat.zero_mul]
      rfl
    rw [hzero, sub, neg, add, Bool.not_false, hnone, Int.add_zero]
    exact ofUnits_units (Or.inr (Bool.and_true s))

/-- Adding nothing, on either side. -/
theorem add_zero_of_positive {m p : Nat} (h : Fits m p) :
    (Double.finite false m p h).add zero = .finite false m p h
      ∧ zero.add (.finite false m p h) = .finite false m p h := by
  obtain ⟨h0, hzero⟩ := zero_eq_finite
  have hnone : signed false (0 * twoTo 0) = 0 := by
    rw [Nat.zero_mul]
    rfl
  rw [hzero]
  constructor
  · rw [add, hnone, Int.add_zero]
    exact ofUnits_units (Or.inr rfl)
  · rw [add, hnone, Int.zero_add]
    exact ofUnits_units (Or.inr rfl)

/-! ## Section 3: Integers of any size -/

theorem doubleOfInt?_eq_some {t : Int} {x : Double} :
    doubleOfInt? t = some x ↔ ofInt t = x ∧ x.isFinite = true := by
  unfold doubleOfInt?
  dsimp only
  split
  · next hfinite =>
    constructor
    · intro h
      rw [← Option.some.inj h]
      exact ⟨rfl, hfinite⟩
    · rintro ⟨h, -⟩
      rw [h]
  · next hfinite =>
    constructor
    · intro h
      cases h
    · rintro ⟨h, hx⟩
      rw [h] at hfinite
      exact absurd hx hfinite

/-- Integers below `10^308` have doubles. -/
theorem isSome_doubleOfInt? {i : Int} (hi : i.natAbs < tenTo 308) : (doubleOfInt? i).isSome = true :=
  Option.isSome_iff_exists.mpr ⟨_, doubleOfInt?_eq_some.mpr ⟨rfl, isFinite_nearest hi _⟩⟩

/-- The nearest double of a large integer is large. -/
theorem le_units_nearest {n : Nat} (hn : twoTo 53 ≤ n) {s t : Bool} {m p : Nat} {h : Fits m p}
    (hnear : nearest s (n * unitsInOne) 1 = .finite t m p h) :
    twoTo 53 * unitsInOne ≤ m * twoTo p := by
  have hn0 : n ≠ 0 := Nat.pos_iff_ne_zero.mp (Nat.lt_of_lt_of_le (twoTo_pos 53) hn)
  have hlow : 53 ≤ n.log2 := le_log2 hn
  have hlog : (n * unitsInOne).log2 = n.log2 + 1074 := by
    rw [unitsInOne_eq, log2_mul_twoTo hn0]
  have hlead : twoTo 52 ≤ n * unitsInOne / twoTo (n.log2 + 1074 - 52) := by
    have := le_leading (q := n * unitsInOne) (by omega)
    rwa [hlog] at this
  have hpower : unitPower (n * unitsInOne) 1 = n.log2 + 1074 - 52 := by
    rw [unitPower, Nat.div_one, hlog]
  rw [units_nearest hnear, Nat.one_mul, hpower]
  calc twoTo 53 * unitsInOne ≤ twoTo 52 * twoTo (n.log2 + 1074 - 52) := by
        rw [unitsInOne_eq, ← twoTo_add, ← twoTo_add]
        exact twoTo_le (by omega)
    _ ≤ _ := Nat.mul_le_mul_right _ (Nat.le_trans hlead (le_roundDiv _ _))

/-- Rounding an integer keeps its order to what lies from zero up to `2^53`. -/
theorem le_units_ofInt {t : Int} {x : Double} (hx : doubleOfInt? t = some x) {y : Nat}
    (hy : y ≤ twoTo 53 * unitsInOne) :
    (y : Int) ≤ x.units ↔ (y : Int) ≤ t * unitsInOne := by
  obtain ⟨rfl, hfinite⟩ := doubleOfInt?_eq_some.mp hx
  rcases Nat.lt_or_ge t.natAbs (twoTo 53) with hsmall | hlarge
  · -- the integer is a double itself
    obtain ⟨hwhole, htrunc⟩ := truncate_ofInt hsmall
    rw [units_of_isWhole hwhole, htrunc]
  · have hpos : (0 : Int) < unitsInOne := Int.natCast_pos.mpr unitsInOne_pos
    have habs : twoTo 53 * unitsInOne ≤ t.natAbs * unitsInOne := Nat.mul_le_mul_right _ hlarge
    have hroom := Nat.mul_pos (twoTo_pos 53) unitsInOne_pos
    cases hnear : ofInt t with
    | nan => rw [hnear] at hfinite; cases hfinite
    | infinite s => rw [hnear] at hfinite; cases hfinite
    | finite s m p h =>
      have hle := le_units_nearest hlarge hnear
      have hs : s = decide (t < 0) := by
        obtain ⟨n, q, hparts, -⟩ := nearest_parts (decide (t < 0)) (t.natAbs * unitsInOne) 1
        rw [ofInt, hparts, ofParts] at hnear
        split at hnear
        · injection hnear with hs
          exact hs.symm
        · cases hnear
      rw [units, hs]
      rcases Int.lt_or_le t 0 with hneg | hnonneg
      · have ht : t * unitsInOne = -((t.natAbs * unitsInOne : Nat) : Int) := by
          rw [Int.natCast_mul, ← Int.neg_mul]
          congr 1
          omega
        rw [ht, decide_eq_true hneg, signed, if_pos rfl]
        omega
      · have ht : t * unitsInOne = ((t.natAbs * unitsInOne : Nat) : Int) := by
          rw [Int.natCast_mul]
          congr 1
          omega
        rw [ht, decide_eq_false (Int.not_lt.mpr hnonneg), signed, if_neg Bool.false_ne_true]
        omega

/-! ## Section 4: There and back -/

/-- A thousandth of a whole number, times a thousand, with a rounding after each of the two. -/
def thereAndBack (n : Nat) : Double :=
  (ofQuotient n 1000).mul (ofNat 1000)

/-- Whether a whole number has become larger there and back. -/
def isLate (n : Nat) : Bool :=
  (ofNat n).lt (thereAndBack n)

/-- A thousandth of a moderate whole number is a finite double without a sign. -/
theorem exists_thousandth_eq_finite {n : Nat} (hn : n < twoTo 54) :
    ∃ m p, ∃ h : Fits m p, ofQuotient (n : Nat) 1000 = .finite false m p h := by
  have hsign : decide (((n : Nat) : Int) < 0) = false := decide_eq_false (by omega)
  have hlog : (n * unitsInOne / 1000).log2 ≤ 2096 := by
    have hbits : n * unitsInOne / 1000 ≤ twoTo 54 * twoTo 1074 := by
      rw [unitsInOne_eq]
      exact Nat.le_trans (Nat.div_le_self _ _) (Nat.mul_le_mul_right _ (Nat.le_of_lt hn))
    rw [← twoTo_add] at hbits
    by_cases hzero : n * unitsInOne / 1000 = 0
    · rw [hzero]
      decide
    · have hlt : n * unitsInOne / 1000 < twoTo 2097 :=
        Nat.lt_of_le_of_lt hbits (twoTo_lt (by decide))
      have := (log2_lt_iff hzero).mpr hlt
      omega
  obtain ⟨m, p, h, hnear⟩ := exists_nearest_eq_finite hlog false
  exact ⟨m, p, h, by rw [ofQuotient, hsign, Int.natAbs_natCast, hnear]⟩

/-- Whole thousands come back. -/
theorem thereAndBack_of_dvd {n : Nat} (hdvd : 1000 ∣ n) (hn : n < twoTo 53) :
    thereAndBack n = ofNat n := by
  obtain ⟨k, rfl⟩ := hdvd
  have hk : k < twoTo 53 := by omega
  rw [thereAndBack, Nat.mul_comm, ofQuotient_mul (by decide), mul_ofNat hk thousand_lt]

/-- A thousand times a double, before it is rounded. -/
theorem mul_thousand {m p : Nat} (h : Fits m p) :
    (Double.finite false m p h).mul (ofNat 1000) = nearest false (1000 * (m * twoTo p)) 1 := by
  obtain ⟨n, q, k, hy, hnq⟩ := ofNat_eq_finite thousand_lt
  rw [hy, mul, hnq, bne_self_eq_false]
  exact nearest_congr unitsInOne_pos Nat.one_pos (by ring) false

/-- There and back, a whole number stays closer than one to itself. -/
theorem exists_thereAndBack {n : Nat} (hn : n < twoTo 52) :
    ∃ m p, ∃ h : Fits m p, thereAndBack n = .finite false m p h
      ∧ n * unitsInOne < m * twoTo p + unitsInOne ∧ m * twoTo p < n * unitsInOne + unitsInOne := by
  have hpowers : twoTo 52 * unitsInOne = twoTo (1064 + 53) * twoTo 9
      ∧ twoTo (1074 + 53) = twoTo 52 * unitsInOne * twoTo 1
      ∧ unitsInOne = twoTo 1064 * twoTo 10 := by
    rw [unitsInOne_eq]
    simp only [← twoTo_add, Nat.reduceAdd, and_self]
  rw [twoTo_small.1, twoTo_small.2.1, twoTo_small.2.2] at hpowers
  obtain ⟨hfull, hdouble, hstep⟩ := hpowers
  have hsize : n * unitsInOne < twoTo 52 * unitsInOne :=
    Nat.mul_lt_mul_of_pos_right hn unitsInOne_pos
  have hpos := unitsInOne_pos
  have hle : unitsInOne ≤ twoTo 52 * unitsInOne := Nat.le_mul_of_pos_left _ (twoTo_pos 52)
  -- the thousandth is rounded to multiples of `2^1064` units at most
  obtain ⟨m, p, h, hthousandth⟩ := exists_thousandth_eq_finite (n := n)
    (Nat.lt_trans hn (twoTo_lt (by decide)))
  have hnear : nearest false (n * unitsInOne) 1000 = .finite false m p h := by
    have hsign : decide ((n : Int) < 0) = false := decide_eq_false (by omega)
    rwa [ofQuotient, hsign, Int.natAbs_natCast] at hthousandth
  have hfirst := nearest_error (k := 1064) (by decide) (by omega) hnear
  -- and the product to halves of one
  obtain ⟨m', p', h', hproduct⟩ : ∃ m' p', ∃ h' : Fits m' p',
      nearest false (1000 * (m * twoTo p)) 1 = .finite false m' p' h' := by
    apply exists_nearest_eq_finite
    rw [Nat.div_one]
    by_cases hzero : 1000 * (m * twoTo p) = 0
    · rw [hzero]
      decide
    · have hroom : twoTo (1074 + 53) < twoTo 2097 := twoTo_lt (by decide)
      have := (log2_lt_iff hzero).mpr (show 1000 * (m * twoTo p) < twoTo 2097 by omega)
      omega
  have hsecond := nearest_error (k := 1074) Nat.one_pos (by omega) hproduct
  rw [← unitsInOne_eq, Nat.one_mul, Nat.one_mul] at hsecond
  refine ⟨m', p', h', ?_, by omega, by omega⟩
  rw [thereAndBack, hthousandth, mul_thousand, hproduct]

theorem isFinite_thereAndBack {n : Nat} (hn : n < twoTo 52) : (thereAndBack n).isFinite = true := by
  obtain ⟨m, p, h, hx, -⟩ := exists_thereAndBack hn
  rw [hx]
  rfl

/-- A place that is closer than one to a whole number, among the integers. -/
theorem natCast_le_mul_iff {n y u : Nat} (hlow : n * u < y + u) (hhigh : y < n * u + u) (t : Int) :
    (y : Int) ≤ t * u ↔ (n + if n * u < y then 1 else 0 : Int) ≤ t := by
  have hu : (0 : Int) < u := by omega
  have hnext : ∀ a : Int, (a + 1) * u = a * u + u := fun a => by ring
  have hle : ∀ a b : Int, a * u ≤ b * u ↔ a ≤ b := fun a b => Int.mul_le_mul_right hu
  have hprev := hnext (n - 1)
  rw [Int.sub_add_cancel] at hprev
  split
  · next hlate =>
    constructor
    · intro h
      by_contra hlt
      have := (hle t n).mpr (by omega)
      omega
    · intro h
      have := (hle (n + 1) t).mpr h
      rw [hnext] at this
      omega
  · next hlate =>
    rw [Int.add_zero]
    constructor
    · intro h
      by_contra hlt
      have := (hle t (n - 1)).mpr (by omega)
      omega
    · intro h
      have := (hle n t).mpr h
      omega

/-- An integer is not smaller than a whole number there and back exactly if it is not smaller than
the number, or than the next one where the number is late. -/
theorem thereAndBack_le_iff {n : Nat} (hn : n < twoTo 52) {t : Int} {x : Double}
    (hx : doubleOfInt? t = some x) :
    (thereAndBack n).le x = true ↔ (n + if isLate n then 1 else 0 : Int) ≤ t := by
  obtain ⟨m, p, h, hback, hlow, hhigh⟩ := exists_thereAndBack hn
  have hxfinite : x.isFinite = true := (doubleOfInt?_eq_some.mp hx).2
  have hback' : (thereAndBack n).isFinite = true := isFinite_thereAndBack hn
  have hunits : (thereAndBack n).units = ((m * twoTo p : Nat) : Int) := by
    rw [hback, units, signed, if_neg Bool.false_ne_true]
  have hn53 : n < twoTo 53 := Nat.lt_trans hn (twoTo_lt (by decide))
  have hnfinite : (ofNat n).isFinite = true ∧ (ofNat n).units = ((n * unitsInOne : Nat) : Int) := by
    obtain ⟨m0, p0, h0, hn0, hmp0⟩ := ofNat_eq_finite hn53
    rw [hn0, units, signed, if_neg Bool.false_ne_true, hmp0]
    exact ⟨rfl, rfl⟩
  have hlate : isLate n = decide (n * unitsInOne < m * twoTo p) := by
    rw [isLate, lt_of_isFinite hnfinite.1 hback', hnfinite.2, hunits]
    exact decide_eq_decide.mpr Int.ofNat_lt
  have hroom : m * twoTo p ≤ twoTo 53 * unitsInOne := by
    have := Nat.mul_le_mul_right unitsInOne (show n + 1 ≤ twoTo 53 by omega)
    rw [Nat.add_mul, Nat.one_mul] at this
    omega
  rw [le_of_isFinite hback' hxfinite, decide_eq_true_eq, hunits, le_units_ofInt hx hroom, hlate]
  simp only [decide_eq_true_eq]
  exact natCast_le_mul_iff hlow hhigh t

end Double

end Overlay
