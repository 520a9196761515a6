import Overlay.Proofs.Number.Signs

/-!
# Sums that do not shrink

Numbers with a place are ordered as their places are.  Rounding does not pass a double that lies
below: a sum of two numbers that do not lie below zero is not smaller than either of them.

## Main statements
- `Number.le_trans`, `Number.lt_of_lt_of_le`, `Number.le_eq_not_lt`: the order of numbers
- `Double.units_le_nearest`: what is rounded up or down stays above the doubles below it
- `Double.le_add`, `Double.add_le`: sums
- `Double.isNonNegative_mul`: products
-/

namespace Overlay

open Overlay.Number

attribute [local irreducible] twoTo tenTo Double.unitsInOne

/-! ## Section 1: Order -/

namespace Number

theorem le_refl {a : Number} (ha : a.place?.isSome) : a.le a = true := by
  obtain ⟨p, hp⟩ := Option.isSome_iff_exists.mp ha
  rw [le_eq hp hp]
  simp [Double.Place.before]

/-- What lies before something or at its place has a place. -/
theorem exists_places_of_le {a b : Number} (h : a.le b = true) :
    ∃ p q, a.place? = some p ∧ b.place? = some q ∧ q.before p = false := by
  unfold le at h
  split at h
  · next p q hp hq => exact ⟨p, q, hp, hq, by simpa using h⟩
  · cases h

theorem exists_places_of_lt {a b : Number} (h : a.lt b = true) :
    ∃ p q, a.place? = some p ∧ b.place? = some q ∧ p.before q = true := by
  unfold lt at h
  split at h
  · next p q hp hq => exact ⟨p, q, hp, hq, h⟩
  · cases h

theorem le_trans {a b c : Number} (hab : a.le b = true) (hbc : b.le c = true) : a.le c = true := by
  obtain ⟨p, q, hp, hq, hpq⟩ := exists_places_of_le hab
  obtain ⟨q', r, hq', hr, hqr⟩ := exists_places_of_le hbc
  obtain rfl := Option.some.inj (hq.symm.trans hq')
  rw [le_eq hp hr]
  simp only [Double.Place.before, Bool.or_eq_false_iff, Bool.and_eq_false_imp, decide_eq_false_iff_not,
    decide_eq_true_eq, Bool.not_eq_true'] at hpq hqr ⊢
  omega

theorem lt_of_lt_of_le {a b c : Number} (hab : a.lt b = true) (hbc : b.le c = true) :
    a.lt c = true := by
  obtain ⟨p, q, hp, hq, hpq⟩ := exists_places_of_lt hab
  obtain ⟨q', r, hq', hr, hqr⟩ := exists_places_of_le hbc
  obtain rfl := Option.some.inj (hq.symm.trans hq')
  rw [lt_eq hp hr]
  simp only [Double.Place.before, Bool.or_eq_false_iff, Bool.and_eq_false_imp, decide_eq_false_iff_not,
    decide_eq_true_eq, Bool.or_eq_true, Bool.and_eq_true] at hpq hqr ⊢
  omega

/-- Of two numbers with places, one lies before the other, or at its place. -/
theorem le_eq_not_lt {a b : Number} (ha : a.place?.isSome) (hb : b.place?.isSome) :
    b.le a = !a.lt b := by
  obtain ⟨p, hp⟩ := Option.isSome_iff_exists.mp ha
  obtain ⟨q, hq⟩ := Option.isSome_iff_exists.mp hb
  rw [le_eq hq hp, lt_eq hp hq]

end Number

/-! ## Section 2: Rounding -/

namespace Double

theorem isSome_place? {x : Double} (hx : x.isNonNegative = true) : x.place?.isSome := by
  unfold isNonNegative at hx
  cases hplace : x.place? with
  | none =>
    rw [hplace] at hx
    cases hx
  | some p => rfl

/-- Rounding does not pass a double that lies below. -/
theorem units_le_nearest {m p n : Nat} (h : Fits m p) (hle : m * twoTo p ≤ n) {s : Bool}
    {m' p' : Nat} {h' : Fits m' p'} (hnear : nearest false n 1 = .finite s m' p' h') :
    m * twoTo p ≤ m' * twoTo p' := by
  have hround := le_roundDiv n (1 * twoTo (unitPower n 1))
  rw [units_nearest hnear]
  rw [Nat.one_mul] at hround ⊢
  generalize hu : unitPower n 1 = u at hround ⊢
  rw [unitPower, Nat.div_one] at hu
  rcases Nat.lt_or_ge p u with hlow | hhigh
  · -- the number has more digits than the double
    have hn : n ≠ 0 := by
      rintro rfl
      rw [Nat.log2_zero] at hu
      omega
    have hfull : twoTo 52 ≤ n / twoTo u := by
      rw [Nat.le_div_iff_mul_le (twoTo_pos u), ← twoTo_add, show 52 + u = n.log2 by omega]
      exact twoTo_log2_le hn
    calc m * twoTo p
        ≤ twoTo 53 * twoTo p := Nat.mul_le_mul_right _ h.1.le
      _ = twoTo (53 + p) := (twoTo_add 53 p).symm
      _ ≤ twoTo (52 + u) := twoTo_le (by omega)
      _ = twoTo 52 * twoTo u := twoTo_add 52 u
      _ ≤ roundDiv n (twoTo u) * twoTo u := Nat.mul_le_mul_right _ (hfull.trans hround)
  · -- the double is a multiple of the unit that is rounded to
    have hsplit : m * twoTo p = m * twoTo (p - u) * twoTo u := by
      rw [Nat.mul_assoc, ← twoTo_add, show p - u + u = p by omega]
    have hquot : m * twoTo (p - u) ≤ n / twoTo u := by
      rw [Nat.le_div_iff_mul_le (twoTo_pos u), ← hsplit]
      exact hle
    rw [hsplit]
    exact Nat.mul_le_mul_right _ (hquot.trans hround)

/-- What is rounded without a sign is finite or infinite without one. -/
theorem exists_nearest (a d : Nat) :
    nearest false a d = .infinite false ∨ ∃ m p h, nearest false a d = .finite false m p h := by
  have hparts : ∀ m p, ofParts false m p = .infinite false
      ∨ ∃ m' p' h, ofParts false m p = .finite false m' p' h := by
    intro m p
    unfold ofParts
    split
    · next h => exact Or.inr ⟨m, p, h, rfl⟩
    · exact Or.inl rfl
  unfold nearest
  dsimp only
  split
  · exact hparts _ _
  · exact hparts _ _

/-- Both zeros have the same place. -/
theorem place?_signedZero (s : Bool) : (signedZero s).place? = some ⟨0, 0⟩ := by
  rw [signedZero, ofParts_of_fits fits_zero, place?, Nat.zero_mul]
  cases s <;> rfl

/-- The units of a double that are rounded again stay at or above the doubles below them. -/
theorem le_ofUnits {m p : Nat} (h : Fits m p) (z : Bool) {u : Int} (hu : (m * twoTo p : Nat) ≤ u) :
    (finite false m p h).le (ofUnits z u) = true := by
  have hx : (finite false m p h).place? = some ⟨0, (m * twoTo p : Nat)⟩ := rfl
  unfold ofUnits
  split
  · next hzero =>
    have hm : m * twoTo p = 0 := by omega
    rw [le_eq hx (place?_signedZero z), before_units, hm]
    rfl
  · rw [decide_eq_false (show ¬u < 0 by omega)]
    rcases exists_nearest u.natAbs 1 with hnear | ⟨m', p', h', hnear⟩
    · have hy : (nearest false u.natAbs 1).place? = some ⟨1, 0⟩ := by
        rw [hnear]
        rfl
      rw [le_eq hx hy]
      simp [Place.before]
    · have hy : (nearest false u.natAbs 1).place? = some ⟨0, (m' * twoTo p' : Nat)⟩ := by
        rw [hnear]
        rfl
      have hunits := units_le_nearest h (n := u.natAbs) (by omega) hnear
      rw [le_eq hx hy, before_units, ← decide_not, decide_eq_true_eq]
      omega

/-! ## Section 3: Sums and products -/

/-- A finite double that does not lie below zero has a magnitude, and no sign unless it is zero. -/
theorem units_of_isNonNegative {s : Bool} {m p : Nat} {h : Fits m p}
    (hx : (finite s m p h).isNonNegative = true) :
    signed s (m * twoTo p) = (m * twoTo p : Nat) ∧ (s = true → m = 0) := by
  rw [isNonNegative_finite, decide_eq_true_eq] at hx
  cases s with
  | false => exact ⟨rfl, fun hs => nomatch hs⟩
  | true =>
    rw [signed, if_pos rfl] at hx ⊢
    have hzero : m * twoTo p = 0 := by omega
    refine ⟨by omega, fun _ => ?_⟩
    exact (Nat.mul_eq_zero.mp hzero).resolve_right (twoTo_pos p).ne'

/-- A sum is not smaller than its first term. -/
theorem le_add {x y : Double} (hx : x.isNonNegative = true) (hy : y.isNonNegative = true) :
    x.le (x.add y) = true := by
  cases x with
  | nan => cases hx
  | infinite s =>
    rw [isNonNegative_infinite, Bool.not_eq_true'] at hx
    subst hx
    cases y with
    | nan => cases hy
    | infinite t =>
      rw [isNonNegative_infinite, Bool.not_eq_true'] at hy
      subst hy
      rfl
    | finite => rfl
  | finite s m p h =>
    cases y with
    | nan => cases hy
    | infinite t =>
      rw [isNonNegative_infinite, Bool.not_eq_true'] at hy
      subst hy
      rw [add, le, place?, place?]
      simp [Place.before]
    | finite t n q h' =>
      obtain ⟨hunits, -⟩ := units_of_isNonNegative hx
      obtain ⟨hunits', -⟩ := units_of_isNonNegative hy
      -- the place of a zero does not depend on its sign
      have hplace : (finite s m p h).place? = (finite false m p h).place? := by
        rw [place?, place?, hunits]
        rfl
      have hle := le_ofUnits h (s && t) (u := signed s (m * twoTo p) + signed t (n * twoTo q))
        (by omega)
      rw [add, le, hplace]
      exact hle

/-- A sum with a term that does not lie above zero is not larger than the other term. -/
theorem add_le {x y : Double} (hx : x.isNonNegative = true) (hy : y.isNonNegative = true)
    (hzero : y.le zero = true) : (x.add y).le x = true := by
  have hplace := place?_of_isFinite isFinite_zero
  rw [units_zero] at hplace
  cases y with
  | nan => cases hy
  | infinite t =>
    rw [isNonNegative_infinite, Bool.not_eq_true'] at hy
    subst hy
    rw [le_eq rfl hplace] at hzero
    simp [Place.before] at hzero
  | finite t n q h' =>
    obtain ⟨hunits', -⟩ := units_of_isNonNegative hy
    rw [le_eq rfl hplace, before_units, ← decide_not, decide_eq_true_eq, hunits'] at hzero
    have hn : signed t (n * twoTo q) = 0 := by omega
    cases x with
    | nan => cases hx
    | infinite s => cases s <;> rfl
    | finite s m p h =>
      rw [add, hn, Int.add_zero]
      by_cases hm : m = 0
      · have hunits : signed s (m * twoTo p) = 0 := by
          rw [(units_of_isNonNegative hx).1, hm, Nat.zero_mul, Int.natCast_zero]
        rw [ofUnits, if_pos hunits, le_eq (place?_signedZero _) rfl, before_units, hunits]
        rfl
      · rw [@ofUnits_units s _ m p h (Or.inl hm), le_eq rfl rfl, before_units]
        simp

/-- Nothing is rounded to a zero. -/
theorem nearest_zero (s : Bool) (d : Nat) : nearest s 0 d = signedZero s := by
  have hround : roundDiv 0 (d * twoTo 0) = 0 := by
    simp [roundDiv]
  have hpower : unitPower 0 d = 0 := by
    rw [unitPower, Nat.zero_div, Nat.log2_zero]
  unfold nearest
  dsimp only
  rw [hpower, hround, if_neg (twoTo_pos 53).ne, signedZero]

/-- Finite doubles that do not lie below zero are multiplied. -/
theorem isNonNegative_mul {x y : Double} (hx : x.isNonNegative = true) (hy : y.isNonNegative = true)
    (hfinite : x.isFinite = true) (hfinite' : y.isFinite = true) :
    (x.mul y).isNonNegative = true := by
  cases x with
  | nan => cases hfinite
  | infinite s => cases hfinite
  | finite s m p h =>
    cases y with
    | nan => cases hfinite'
    | infinite t => cases hfinite'
    | finite t n q h' =>
      have hsign := (units_of_isNonNegative hx).2
      have hsign' := (units_of_isNonNegative hy).2
      rw [mul]
      by_cases hm : m = 0
      · rw [hm, Nat.zero_mul, Nat.zero_mul, nearest_zero]
        exact isNonNegative_signedZero _
      by_cases hn : n = 0
      · rw [hn, Nat.zero_mul, Nat.mul_zero, nearest_zero]
        exact isNonNegative_signedZero _
      obtain rfl : s = false := Bool.eq_false_iff.mpr fun hs => hm (hsign hs)
      obtain rfl : t = false := Bool.eq_false_iff.mpr fun ht => hn (hsign' ht)
      exact isNonNegative_nearest _ _

end Double

end Overlay
