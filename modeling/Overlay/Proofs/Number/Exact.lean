import Overlay.Number.Basic
import Mathlib.Tactic.Ring

/-!
# Exact doubles

Rounding to the nearest double depends on the quotient alone, and leaves a number that is a double
as it is.  Whole numbers below `2^53` are doubles, and arithmetic on them is the arithmetic of
natural numbers.

## Main statements
- `Double.nearest_mul_left`: only the quotient counts
- `Double.nearest_units`: a double is its own rounding
- `Double.add_ofNat`, `Double.sub_ofNat`, `Double.mul_ofNat`, `Double.div_ofNat`: whole numbers
- `Double.isWhole_nearest`: the rounding of a whole number is whole, unless it is infinite
- `Double.isFinite_nearest`, `Double.nearest_eq_infinite`: where it is finite
- `Double.add_sub_of_isWhole`: the time between two whole doubles
-/

namespace Overlay

open Overlay.Number

/-! ## Section 1: Powers -/

namespace Number

theorem twoTo_add (a b : Nat) : twoTo (a + b) = twoTo a * twoTo b :=
  Nat.pow_add 2 a b

theorem twoTo_pos (k : Nat) : 0 < twoTo k :=
  Nat.pow_pos (by decide)

theorem twoTo_le {a b : Nat} (h : a ≤ b) : twoTo a ≤ twoTo b :=
  Nat.pow_le_pow_right (by decide) h

theorem twoTo_lt {a b : Nat} (h : a < b) : twoTo a < twoTo b :=
  Nat.pow_lt_pow_right (by decide) h

theorem twoTo_succ (k : Nat) : twoTo (k + 1) = twoTo k * 2 :=
  twoTo_add k 1

theorem tenTo_lt {a b : Nat} (h : a < b) : tenTo a < tenTo b :=
  Nat.pow_lt_pow_right (by decide) h

theorem tenTo_zero : tenTo 0 = 1 :=
  rfl

theorem tenTo_add (a b : Nat) : tenTo (a + b) = tenTo a * tenTo b :=
  Nat.pow_add 10 a b

theorem tenTo_succ (k : Nat) : tenTo (k + 1) = tenTo k * 10 :=
  Nat.pow_succ 10 k

theorem tenTo_pos (k : Nat) : 0 < tenTo k :=
  Nat.pow_pos (by decide)

theorem tenTo_eq (k : Nat) : tenTo k = Nat.pow 5 k * twoTo k :=
  Nat.mul_pow 5 2 k

theorem twoTo_log2_le {n : Nat} (hn : n ≠ 0) : twoTo n.log2 ≤ n :=
  Nat.log2_self_le hn

theorem lt_twoTo_log2 (n : Nat) : n < twoTo (n.log2 + 1) :=
  Nat.lt_log2_self

theorem log2_lt_iff {n k : Nat} (hn : n ≠ 0) : n.log2 < k ↔ n < twoTo k :=
  Nat.log2_lt hn

/-- The binary logarithm is the power of two at or below a number. -/
theorem le_log2 {n k : Nat} (h : twoTo k ≤ n) : k ≤ n.log2 := by
  have hn : n ≠ 0 := Nat.pos_iff_ne_zero.mp (Nat.lt_of_lt_of_le (twoTo_pos k) h)
  exact Nat.le_of_not_lt fun hlt => Nat.not_lt.mpr h ((log2_lt_iff hn).mp hlt)

theorem log2_unique {n k : Nat} (hlow : twoTo k ≤ n) (hhigh : n < twoTo (k + 1)) : n.log2 = k := by
  have hn : n ≠ 0 := Nat.pos_iff_ne_zero.mp (Nat.lt_of_lt_of_le (twoTo_pos k) hlow)
  exact (Nat.log2_eq_iff hn).mpr ⟨hlow, hhigh⟩

-- the powers are too large to be computed while two terms are compared
attribute [local irreducible] twoTo tenTo Double.unitsInOne

/-- A power of two moves the binary logarithm. -/
theorem log2_mul_twoTo {n : Nat} (hn : n ≠ 0) (k : Nat) : (n * twoTo k).log2 = n.log2 + k := by
  refine log2_unique ?_ ?_
  · rw [twoTo_add]
    exact Nat.mul_le_mul_right _ (twoTo_log2_le hn)
  · rw [show n.log2 + k + 1 = n.log2 + 1 + k by omega, twoTo_add]
    exact Nat.mul_lt_mul_of_pos_right (lt_twoTo_log2 n) (twoTo_pos k)

/-- Rounding never leads past the next whole number. -/
theorem roundDiv_le (a d : Nat) : roundDiv a d ≤ a / d + 1 := by
  unfold roundDiv
  dsimp only
  split
  · omega
  · split
    · omega
    · split <;> omega

/-- Rounding never leads below the whole part. -/
theorem le_roundDiv (a d : Nat) : a / d ≤ roundDiv a d := by
  unfold roundDiv
  dsimp only
  split
  · omega
  · split
    · omega
    · split <;> omega

end Number

namespace Double

/-! ## Section 2: Rounding to the nearest double -/

/-- Only the quotient counts. -/
theorem nearest_mul_left {c : Nat} (hc : 0 < c) (s : Bool) (a d : Nat) :
    nearest s (c * a) (c * d) = nearest s a d := by
  have hp : unitPower (c * a) (c * d) = unitPower a d := by
    simp only [unitPower, Nat.mul_div_mul_left a d hc]
  simp only [nearest, hp, Nat.mul_assoc, roundDiv_mul_left hc]

/-- Equal quotients are rounded alike. -/
theorem nearest_congr {a d b e : Nat} (hd : 0 < d) (he : 0 < e) (h : a * e = b * d) (s : Bool) :
    nearest s a d = nearest s b e := by
  rw [← nearest_mul_left he s a d, ← nearest_mul_left hd s b e, Nat.mul_comm e a, h,
    Nat.mul_comm b d, Nat.mul_comm e d]

/-- A fitting significand and power stand for a finite double. -/
theorem ofParts_of_fits {m p : Nat} (h : Fits m p) (s : Bool) : ofParts s m p = .finite s m p h :=
  dif_pos h

/-- The power of a double is the one that rounding chooses. -/
theorem unitPower_units {m p : Nat} (h : Fits m p) : unitPower (m * twoTo p) 1 = p := by
  obtain ⟨hm, hfull, -⟩ := h
  rw [unitPower, Nat.div_one]
  rcases hfull with hfull | rfl
  · have hm0 : m ≠ 0 := Nat.pos_iff_ne_zero.mp (Nat.lt_of_lt_of_le (twoTo_pos 52) hfull)
    rw [log2_mul_twoTo hm0, log2_unique hfull hm]
    omega
  · rcases Nat.eq_zero_or_pos m with rfl | hpos
    · rfl
    · have hlog : m.log2 < 53 := (log2_lt_iff (by omega)).mpr hm
      rw [log2_mul_twoTo (by omega)]
      omega

/-- A double is its own rounding. -/
theorem nearest_units {m p : Nat} (h : Fits m p) (s : Bool) :
    nearest s (m * twoTo p) 1 = .finite s m p h := by
  have hm : m ≠ twoTo 53 := Nat.ne_of_lt h.1
  have hround : roundDiv (m * twoTo p) (1 * twoTo p) = m := by
    rw [Nat.one_mul, roundDiv_exact (twoTo_pos p)]
  simp only [nearest, unitPower_units h, hround, if_neg hm, ofParts_of_fits h]

/-- A double is its own rounding, however its quotient is written. -/
theorem nearest_units_mul {m p d : Nat} (h : Fits m p) (hd : 0 < d) (s : Bool) :
    nearest s (m * twoTo p * d) d = .finite s m p h := by
  have hscale := nearest_mul_left hd s (m * twoTo p) 1
  rw [Nat.mul_comm d, Nat.mul_one] at hscale
  rw [hscale, nearest_units h]

/-! ## Section 3: Whole numbers that are doubles -/

theorem unitsInOne_eq : unitsInOne = twoTo 1074 := by
  unfold unitsInOne
  rfl

theorem unitsInOne_pos : 0 < unitsInOne := by
  rw [unitsInOne_eq]
  exact twoTo_pos 1074

theorem fits_zero : Fits 0 0 :=
  ⟨twoTo_pos 53, Or.inr rfl, by decide⟩

/-- Whole numbers below `2^53` are doubles. -/
theorem exists_fits {n : Nat} (hn : n < twoTo 53) :
    ∃ m p, Fits m p ∧ m * twoTo p = n * unitsInOne := by
  rcases Nat.eq_zero_or_pos n with rfl | hpos
  · exact ⟨0, 0, fits_zero, by rw [Nat.zero_mul, Nat.zero_mul]⟩
  · have hlow : twoTo n.log2 ≤ n := Nat.log2_self_le (by omega)
    have hhigh : n < twoTo (n.log2 + 1) := Nat.lt_log2_self
    have hk : n.log2 < 53 := (Nat.log2_lt (by omega)).mpr hn
    -- the significand is filled up with zeros on the right
    have hgap : 0 < twoTo (52 - n.log2) := twoTo_pos _
    refine ⟨n * twoTo (52 - n.log2), 1022 + n.log2, ⟨?_, Or.inl ?_, by omega⟩, ?_⟩
    · rw [show (53 : Nat) = n.log2 + 1 + (52 - n.log2) by omega, twoTo_add]
      exact Nat.mul_lt_mul_of_pos_right hhigh hgap
    · conv_lhs => rw [show (52 : Nat) = n.log2 + (52 - n.log2) by omega, twoTo_add]
      exact Nat.mul_le_mul_right _ hlow
    · rw [Nat.mul_assoc, ← twoTo_add, unitsInOne_eq,
        show 52 - n.log2 + (1022 + n.log2) = 1074 by omega]

/-- A whole number below `2^53` is exact as a double. -/
theorem ofNat_eq_finite {n : Nat} (hn : n < twoTo 53) :
    ∃ m p, ∃ h : Fits m p, ofNat n = .finite false m p h ∧ m * twoTo p = n * unitsInOne := by
  obtain ⟨m, p, h, hmp⟩ := exists_fits hn
  exact ⟨m, p, h, by rw [ofNat, ← hmp, nearest_units h], hmp⟩

theorem ofInt_natCast (n : Nat) : ofInt (n : Int) = ofNat n := by
  have hsign : decide ((n : Int) < 0) = false := decide_eq_false (by omega)
  rw [ofInt, hsign, Int.natAbs_natCast, ofNat]

theorem signedZero_false : signedZero false = ofNat 0 := by
  have hzero := nearest_units fits_zero false
  rw [Nat.zero_mul] at hzero
  rw [signedZero, ofParts_of_fits fits_zero, ofNat, Nat.zero_mul, hzero]

/-- Whole units make a whole number. -/
theorem ofUnits_natCast (n : Nat) : ofUnits false ((n * unitsInOne : Nat) : Int) = ofNat n := by
  unfold ofUnits
  split
  · next hzero =>
    have hn : n = 0 := by
      rcases Nat.mul_eq_zero.mp (Int.natCast_eq_zero.mp hzero) with h | h
      · exact h
      · exact absurd h (Nat.pos_iff_ne_zero.mp unitsInOne_pos)
    rw [hn, signedZero_false]
  · have hsign : decide (((n * unitsInOne : Nat) : Int) < 0) = false := decide_eq_false (by omega)
    rw [hsign, Int.natAbs_natCast, ofNat]

theorem add_ofNat {a b : Nat} (ha : a < twoTo 53) (hb : b < twoTo 53) :
    (ofNat a).add (ofNat b) = ofNat (a + b) := by
  obtain ⟨m, p, h, hx, hmp⟩ := ofNat_eq_finite ha
  obtain ⟨n, q, k, hy, hnq⟩ := ofNat_eq_finite hb
  have hsum : signed false (m * twoTo p) + signed false (n * twoTo q)
      = (((a + b) * unitsInOne : Nat) : Int) := by
    simp only [signed, hmp, hnq, Bool.false_eq_true, if_false, Nat.add_mul, Int.natCast_add]
  rw [hx, hy, add, hsum, Bool.and_self, ofUnits_natCast]

theorem sub_ofNat {a b : Nat} (ha : a < twoTo 53) (hba : b ≤ a) :
    (ofNat a).sub (ofNat b) = ofNat (a - b) := by
  obtain ⟨m, p, h, hx, hmp⟩ := ofNat_eq_finite ha
  obtain ⟨n, q, k, hy, hnq⟩ := ofNat_eq_finite (Nat.lt_of_le_of_lt hba ha)
  have hle : b * unitsInOne ≤ a * unitsInOne := Nat.mul_le_mul_right _ hba
  have hsum : signed false (m * twoTo p) + signed true (n * twoTo q)
      = (((a - b) * unitsInOne : Nat) : Int) := by
    simp only [signed, hmp, hnq, Bool.false_eq_true, if_false, if_true, Nat.sub_mul]
    omega
  rw [sub, hx, hy, neg, Bool.not_false, add, hsum, Bool.false_and, ofUnits_natCast]

theorem mul_ofNat {a b : Nat} (ha : a < twoTo 53) (hb : b < twoTo 53) :
    (ofNat a).mul (ofNat b) = ofNat (a * b) := by
  obtain ⟨m, p, h, hx, hmp⟩ := ofNat_eq_finite ha
  obtain ⟨n, q, k, hy, hnq⟩ := ofNat_eq_finite hb
  have hscale := nearest_mul_left unitsInOne_pos false (a * b * unitsInOne) 1
  rw [Nat.mul_one] at hscale
  rw [hx, hy, mul, hmp, hnq, bne_self_eq_false, ofNat, ← hscale,
    show a * unitsInOne * (b * unitsInOne) = unitsInOne * (a * b * unitsInOne) by ring]

theorem div_ofNat {a b : Nat} (ha : a < twoTo 53) (hb : b < twoTo 53) (hpos : 0 < b) :
    (ofNat a).div (ofNat b) = ofQuotient a b := by
  obtain ⟨m, p, h, hx, hmp⟩ := ofNat_eq_finite ha
  obtain ⟨n, q, k, hy, hnq⟩ := ofNat_eq_finite hb
  have hn : n ≠ 0 := by
    rintro rfl
    rw [Nat.zero_mul] at hnq
    exact absurd hnq.symm (Nat.pos_iff_ne_zero.mp (Nat.mul_pos hpos unitsInOne_pos))
  have hsign : decide ((a : Int) < 0) = false := decide_eq_false (by omega)
  rw [hx, hy, div, if_neg hn, hmp, hnq, bne_self_eq_false, ofQuotient, hsign, Int.natAbs_natCast,
    Nat.mul_comm b, Nat.mul_comm (a * unitsInOne), nearest_mul_left unitsInOne_pos]

/-- Thousands divide without rest. -/
theorem ofQuotient_mul {d : Nat} (hd : 0 < d) (n : Nat) :
    ofQuotient ((n * d : Nat) : Int) d = ofNat n := by
  have hsign : decide (((n * d : Nat) : Int) < 0) = false := decide_eq_false (by omega)
  have hscale := nearest_mul_left hd false (n * unitsInOne) 1
  rw [Nat.mul_one] at hscale
  rw [ofQuotient, hsign, Int.natAbs_natCast, ofNat, ← hscale,
    show n * d * unitsInOne = d * (n * unitsInOne) by ring]

theorem place?_ofNat {n : Nat} (hn : n < twoTo 53) :
    (ofNat n).place? = some (Place.ofInt n) := by
  obtain ⟨m, p, h, hx, hmp⟩ := ofNat_eq_finite hn
  rw [hx]
  show some (⟨0, ((m * twoTo p : Nat) : Int)⟩ : Place) = some ⟨0, n * unitsInOne⟩
  rw [hmp, Int.natCast_mul]

/-- The order of integers is that of their places. -/
theorem before_ofInt (i j : Int) : (Place.ofInt i).before (Place.ofInt j) = decide (i < j) := by
  have hpos : (0 : Int) < unitsInOne := Int.natCast_pos.mpr unitsInOne_pos
  have hiff : i * unitsInOne < j * unitsInOne ↔ i < j := Int.mul_lt_mul_right hpos
  show (decide ((0 : Int) < 0)
    || (decide ((0 : Int) = 0) && decide (i * unitsInOne < j * unitsInOne))) = _
  rw [decide_eq_decide.mpr hiff]
  rfl

/-! ## Section 4: Whole numbers that are rounded -/

/-- From the power `2^1074` units on, every double is whole. -/
theorem isWhole_ofParts {m p : Nat} (h : Fits m p) (hp : 1074 ≤ p) (s : Bool) :
    (ofParts s m p).isWhole = true := by
  obtain ⟨k, rfl⟩ := Nat.exists_eq_add_of_le hp
  rw [ofParts_of_fits h, isWhole, Nat.add_comm, twoTo_add, ← Nat.mul_assoc, ← unitsInOne_eq,
    Nat.mul_mod_left]
  rfl

theorem isWhole_ofNat {n : Nat} (hn : n < twoTo 53) (s : Bool) :
    (nearest s (n * unitsInOne) 1).isWhole = true := by
  obtain ⟨m, p, h, hmp⟩ := exists_fits hn
  rw [← hmp, nearest_units h, isWhole, hmp, Nat.mul_mod_left]
  rfl

/-- The leading part of a number has at most 53 binary digits. -/
theorem leading_lt (q : Nat) : q / twoTo (q.log2 - 52) < twoTo 53 := by
  rw [Nat.div_lt_iff_lt_mul (twoTo_pos _), ← twoTo_add]
  exact Nat.lt_of_lt_of_le (lt_twoTo_log2 q) (twoTo_le (by omega))

/-- The leading part of a large number has no fewer. -/
theorem le_leading {q : Nat} (hq : 52 ≤ q.log2) : twoTo 52 ≤ q / twoTo (q.log2 - 52) := by
  have hq0 : q ≠ 0 := by
    rintro rfl
    exact absurd hq (by decide)
  rw [Nat.le_div_iff_mul_le (twoTo_pos _), ← twoTo_add, show 52 + (q.log2 - 52) = q.log2 by omega]
  exact twoTo_log2_le hq0

/-- Rounding yields a significand that fits; the power grows only where rounding up needs one more
bit. -/
theorem nearest_parts (s : Bool) (a d : Nat) :
    ∃ m p, nearest s a d = ofParts s m p ∧ m < twoTo 53 ∧ (twoTo 52 ≤ m ∨ p = 0)
      ∧ (p = unitPower a d
        ∨ p = unitPower a d + 1 ∧ twoTo 53 ≤ a / d / twoTo (unitPower a d) + 1) := by
  have hround := roundDiv_le a (d * twoTo (unitPower a d))
  have hround' := le_roundDiv a (d * twoTo (unitPower a d))
  rw [← Nat.div_div_eq_div_mul] at hround hround'
  have hlt : a / d / twoTo (unitPower a d) < twoTo 53 := leading_lt (a / d)
  unfold nearest
  dsimp only
  split
  · next hcarry =>
    refine ⟨twoTo 52, unitPower a d + 1, rfl, twoTo_lt (by decide), Or.inl (Nat.le_refl _),
      Or.inr ⟨rfl, ?_⟩⟩
    omega
  · next hfull =>
    refine ⟨_, unitPower a d, rfl, by omega, ?_, Or.inl rfl⟩
    rcases Nat.lt_or_ge (a / d).log2 52 with hsmall | hlarge
    · right
      rw [unitPower]
      omega
    · left
      have hlead : twoTo 52 ≤ a / d / twoTo (unitPower a d) := le_leading hlarge
      omega

/-- The rounding of a quotient that is not too large is finite. -/
theorem exists_nearest_eq_finite {a d : Nat} (h : (a / d).log2 ≤ 2096) (s : Bool) :
    ∃ m p, ∃ hf : Fits m p, nearest s a d = .finite s m p hf := by
  obtain ⟨m, p, hnear, hm, hfull, hp⟩ := nearest_parts s a d
  have hpow : p ≤ 2045 := by
    unfold unitPower at hp
    omega
  have hf : Fits m p := ⟨hm, hfull, hpow⟩
  exact ⟨m, p, hf, by rw [hnear, ofParts_of_fits hf]⟩

theorem unitPower_whole {n : Nat} (hn : 53 ≤ n.log2) :
    unitPower (n * unitsInOne) 1 = n.log2 - 52 + 1074 := by
  have hn0 : n ≠ 0 := by
    rintro rfl
    exact absurd hn (by decide)
  rw [unitPower, Nat.div_one, unitsInOne_eq, log2_mul_twoTo hn0]
  omega

/-- The rounding of a whole number is whole, unless it is infinite. -/
theorem isWhole_nearest (n : Nat) (s : Bool) :
    (nearest s (n * unitsInOne) 1).isWhole = (nearest s (n * unitsInOne) 1).isFinite := by
  rcases Nat.lt_or_ge n (twoTo 53) with hsmall | hlarge
  · obtain ⟨m, p, h, hmp⟩ := exists_fits hsmall
    rw [isWhole_ofNat hsmall, ← hmp, nearest_units h]
    rfl
  · have hlow : 53 ≤ n.log2 := le_log2 hlarge
    obtain ⟨m, p, hnear, -, -, hp⟩ := nearest_parts s (n * unitsInOne) 1
    rw [unitPower_whole hlow] at hp
    rw [hnear]
    by_cases h : Fits m p
    · rw [isWhole_ofParts h (by omega), ofParts_of_fits h]
      rfl
    · rw [ofParts, dif_neg h]
      rfl

theorem isWhole_ofInt (i : Int) : (ofInt i).isWhole = (ofInt i).isFinite :=
  isWhole_nearest i.natAbs _

/-- The rounding of a whole number below `10^308` is finite. -/
theorem isFinite_nearest {n : Nat} (hn : n < tenTo 308) (s : Bool) :
    (nearest s (n * unitsInOne) 1).isFinite = true := by
  rcases Nat.lt_or_ge n (twoTo 53) with hsmall | hlarge
  · rw [← isWhole_nearest, isWhole_ofNat hsmall]
  · have hn0 : n ≠ 0 := Nat.pos_iff_ne_zero.mp (Nat.lt_of_lt_of_le (twoTo_pos 53) hlarge)
    have hlow : 53 ≤ n.log2 := le_log2 hlarge
    have hhigh : n.log2 < 1024 := (log2_lt_iff hn0).mpr (Nat.lt_trans hn (by decide +kernel))
    obtain ⟨m, p, hnear, hm, hfull, hp⟩ := nearest_parts s (n * unitsInOne) 1
    rw [unitPower_whole hlow, Nat.div_one, twoTo_add, ← unitsInOne_eq,
      Nat.mul_div_mul_right _ _ unitsInOne_pos] at hp
    -- a carry at the largest power would need a number beyond `10^308`
    have hpow : p ≤ 2045 := by
      rcases hp with hp | ⟨hp, hcarry⟩
      · omega
      · have htop : n.log2 ≠ 1023 := by
          intro heq
          rw [show n.log2 - 52 = 971 by omega] at hcarry
          have hle : n / twoTo 971 ≤ tenTo 308 / twoTo 971 :=
            Nat.div_le_div_right (Nat.le_of_lt hn)
          have hroom : tenTo 308 / twoTo 971 + 1 < twoTo 53 := by decide +kernel
          generalize tenTo 308 / twoTo 971 = q at hle hroom
          omega
        omega
    rw [hnear, ofParts_of_fits ⟨hm, hfull, hpow⟩]
    rfl

/-- The rounding of a whole number from `10^400` on is infinite. -/
theorem nearest_eq_infinite {n : Nat} (hn : tenTo 400 ≤ n) (s : Bool) :
    nearest s (n * unitsInOne) 1 = .infinite s := by
  have hlog : 1100 ≤ n.log2 := le_log2 (Nat.le_trans (by decide +kernel) hn)
  obtain ⟨m, p, hnear, -, -, hp⟩ := nearest_parts s (n * unitsInOne) 1
  rw [unitPower_whole (by omega)] at hp
  have hfits : ¬Fits m p := by
    intro h
    have := h.2.2
    omega
  rw [hnear, ofParts, dif_neg hfits]

theorem natAbs_signed (s : Bool) (n : Nat) : (signed s n).natAbs = n := by
  cases s
  · exact Int.natAbs_natCast n
  · exact (Int.natAbs_neg n).trans (Int.natAbs_natCast n)

/-- A whole double is the rounding of its whole part; only a negative zero loses its sign. -/
theorem ofInt_truncate {s : Bool} {m p : Nat} {h : Fits m p}
    (hw : (Double.finite s m p h).isWhole = true) (hs : m ≠ 0 ∨ s = false) :
    ofInt (Double.finite s m p h).truncate = .finite s m p h := by
  have hmod : m * twoTo p % unitsInOne = 0 := by simpa [isWhole] using hw
  obtain ⟨q, hq⟩ := Nat.dvd_of_mod_eq_zero hmod
  have htrunc : (Double.finite s m p h).truncate = signed s q := by
    have hpos : (unitsInOne : Int) ≠ 0 := Int.natCast_ne_zero.mpr (Nat.pos_iff_ne_zero.mp unitsInOne_pos)
    cases s
    · simp only [truncate, units, signed, hq, Bool.false_eq_true, if_false, Int.natCast_mul]
      exact Int.mul_tdiv_cancel_left _ hpos
    · simp only [truncate, units, signed, hq, if_true, Int.natCast_mul, Int.neg_tdiv]
      rw [Int.mul_tdiv_cancel_left _ hpos]
  have hsign : decide (signed s q < 0) = s := by
    rcases hs with hm | rfl
    · have hq0 : 0 < q := by
        rcases Nat.eq_zero_or_pos q with rfl | hq0
        · rw [Nat.mul_zero] at hq
          rcases Nat.mul_eq_zero.mp hq with h0 | h0
          · exact absurd h0 hm
          · exact absurd h0 (Nat.pos_iff_ne_zero.mp (twoTo_pos p))
        · exact hq0
      cases s <;> simp [signed, hq0]
    · simp [signed]
  rw [htrunc, ofInt, natAbs_signed, hsign, Nat.mul_comm q, ← hq, nearest_units h]

/-! ## Section 5: Order -/

/-- The order of doubles is that of their places. -/
theorem le_eq {x y : Double} {p q : Place} (hx : x.place? = some p) (hy : y.place? = some q) :
    x.le y = !q.before p := by
  rw [le, hx, hy]

theorem ofNat_le_ofNat {a b : Nat} (ha : a < twoTo 53) (hb : b < twoTo 53) :
    (ofNat a).le (ofNat b) = decide (a ≤ b) := by
  rw [le_eq (place?_ofNat ha) (place?_ofNat hb), before_ofInt, ← decide_not]
  refine decide_eq_decide.mpr ?_
  omega

/-! ## Section 6: Whole doubles -/

theorem zero_eq_ofNat : zero = ofNat 0 :=
  signedZero_false

theorem dvd_signed {d n : Nat} (h : d ∣ n) (s : Bool) : (d : Int) ∣ signed s n := by
  have hd : (d : Int) ∣ n := Int.natCast_dvd_natCast.mpr h
  cases s with
  | false => exact hd
  | true => exact Int.dvd_neg.mpr hd

/-- A whole double is its whole part, in units. -/
theorem units_of_isWhole {x : Double} (hx : x.isWhole = true) :
    x.units = x.truncate * unitsInOne := by
  cases x with
  | nan => cases hx
  | infinite s => cases hx
  | finite s m p h =>
    have hmod : m * twoTo p % unitsInOne = 0 := by simpa [isWhole] using hx
    exact (Int.tdiv_mul_cancel (dvd_signed (Nat.dvd_of_mod_eq_zero hmod) s)).symm

/-- A double is added exactly if its size is whole, whatever the sign of a zero. -/
theorem add_of_units {b d : Nat} {y : Double} (hb : b < twoTo 53) (hy : y.isFinite = true)
    (hunits : y.units = ((d * unitsInOne : Nat) : Int)) : (ofNat b).add y = ofNat (b + d) := by
  obtain ⟨m, p, h, hx, hmp⟩ := ofNat_eq_finite hb
  cases y with
  | nan => cases hy
  | infinite s => cases hy
  | finite t n q k =>
    have hsum : signed false (m * twoTo p) + signed t (n * twoTo q)
        = (((b + d) * unitsInOne : Nat) : Int) := by
      rw [show signed t (n * twoTo q) = ((d * unitsInOne : Nat) : Int) from hunits]
      simp only [signed, hmp, Bool.false_eq_true, if_false, Nat.add_mul, Int.natCast_add]
    rw [hx, add, hsum, Bool.false_and, ofUnits_natCast]

/-- The difference of whole doubles is exact, up to the sign of a zero. -/
theorem units_sub {x y : Double} (hx : x.isWhole = true) (hy : y.isWhole = true) {d : Nat}
    (hd : d < twoTo 53) (h : x.truncate = y.truncate + d) :
    (x.sub y).isFinite = true ∧ (x.sub y).units = ((d * unitsInOne : Nat) : Int) := by
  have hsum : x.units + -y.units = ((d * unitsInOne : Nat) : Int) := by
    rw [units_of_isWhole hx, units_of_isWhole hy, h, Int.add_mul, Int.natCast_mul]
    omega
  have hsub : ∃ z, x.sub y = ofUnits z ((d * unitsInOne : Nat) : Int) := by
    cases x with
    | nan => cases hx
    | infinite s => cases hx
    | finite s m p k =>
      cases y with
      | nan => cases hy
      | infinite s => cases hy
      | finite t n q l =>
        have hneg : signed (!t) (n * twoTo q) = -signed t (n * twoTo q) := by
          cases t <;> simp [signed]
        refine ⟨s && !t, ?_⟩
        rw [← hsum, sub, neg, add, hneg]
        rfl
  obtain ⟨z, hz⟩ := hsub
  rw [hz]
  unfold ofUnits
  split
  · next hzero =>
    -- the zero may be a negative one, which has no units either
    rw [hzero, signedZero, ofParts_of_fits fits_zero]
    refine ⟨rfl, ?_⟩
    cases z <;> simp [units, signed]
  · have hsign : decide (((d * unitsInOne : Nat) : Int) < 0) = false := decide_eq_false (by omega)
    obtain ⟨m, p, k, hx, hmp⟩ := ofNat_eq_finite hd
    rw [hsign, Int.natAbs_natCast, ← ofNat, hx]
    exact ⟨rfl, congrArg Nat.cast hmp⟩

/-- The time from one whole double to another one is added exactly. -/
theorem add_sub_of_isWhole {x y : Double} (hx : x.isWhole = true) (hy : y.isWhole = true)
    {b d : Nat} (hb : b < twoTo 53) (hd : d < twoTo 53) (h : x.truncate = y.truncate + d) :
    (ofNat b).add (x.sub y) = ofNat (b + d) := by
  obtain ⟨hfinite, hunits⟩ := units_sub hx hy hd h
  exact add_of_units hb hfinite hunits

/-- A whole double that is cut off at zero. -/
theorem clampBelow_of_isWhole {x : Double} (hx : x.isWhole = true) :
    x.clampBelow = ofNat x.truncate.toNat := by
  have hplace : lt zero x = decide (0 < x.truncate) := by
    have hpos : (0 : Int) < unitsInOne := Int.natCast_pos.mpr unitsInOne_pos
    have hx' : x.place? = some (Place.ofInt x.truncate) := by
      unfold Place.ofInt
      rw [← units_of_isWhole hx]
      cases x with
      | nan => cases hx
      | infinite s => cases hx
      | finite s m p h => rfl
    rw [lt, zero_eq_ofNat, place?_ofNat (twoTo_pos 53), hx']
    exact before_ofInt 0 _
  rw [clampBelow, hplace]
  by_cases hlt : 0 < x.truncate
  · rw [if_pos (decide_eq_true hlt), ← ofInt_natCast, Int.toNat_of_nonneg (by omega)]
    cases x with
    | nan => cases hx
    | infinite s => cases hx
    | finite s m p h =>
      refine (ofInt_truncate hx (.inl ?_)).symm
      rintro rfl
      have hzero : signed s (0 * twoTo p) = 0 := by
        rw [Nat.zero_mul]
        cases s <;> rfl
      rw [truncate, units, hzero, Int.zero_tdiv] at hlt
      exact absurd hlt (Int.lt_irrefl 0)
  · rw [if_neg (by simpa using hlt), Int.toNat_of_nonpos (by omega), zero_eq_ofNat]

/-- Integers of moderate size are whole doubles. -/
theorem truncate_ofInt {i : Int} (hi : i.natAbs < twoTo 53) :
    (ofInt i).isWhole = true ∧ (ofInt i).truncate = i := by
  refine ⟨isWhole_ofNat hi _, ?_⟩
  obtain ⟨m, p, h, hmp⟩ := exists_fits hi
  have hpos : (unitsInOne : Int) ≠ 0 :=
    Int.natCast_ne_zero.mpr (Nat.pos_iff_ne_zero.mp unitsInOne_pos)
  have hsigned : signed (decide (i < 0)) (i.natAbs * unitsInOne) = i * unitsInOne := by
    by_cases hneg : i < 0
    · rw [signed, decide_eq_true hneg, if_pos rfl, Int.natCast_mul, ← Int.neg_mul]
      congr 1
      omega
    · rw [signed, decide_eq_false hneg, if_neg Bool.false_ne_true, Int.natCast_mul]
      congr 1
      omega
  rw [ofInt, ← hmp, nearest_units h, truncate, units, hmp, hsigned, Int.mul_tdiv_cancel _ hpos]

theorem truncate_ofNat {n : Nat} (hn : n < twoTo 53) :
    (ofNat n).isWhole = true ∧ (ofNat n).truncate = n := by
  rw [← ofInt_natCast]
  exact truncate_ofInt (by rwa [Int.natAbs_natCast])

/-- The whole part of a double has at most 309 digits. -/
theorem natAbs_truncate_lt (x : Double) : x.truncate.natAbs < tenTo 309 := by
  have hzero : ∀ y : Double, y.units = 0 → y.truncate.natAbs < tenTo 309 := by
    intro y hy
    rw [truncate, hy, Int.zero_tdiv]
    exact tenTo_pos 309
  cases x with
  | nan => exact hzero _ rfl
  | infinite s => exact hzero _ rfl
  | finite s m p h =>
    obtain ⟨hm, -, hp⟩ := id h
    have hunits : (Double.finite s m p h).units = signed s (m * twoTo p) := rfl
    have hlargest : twoTo 53 * twoTo 2045 ≤ tenTo 309 * unitsInOne := by decide +kernel
    rw [truncate, hunits, Int.natAbs_tdiv, natAbs_signed, Int.natAbs_natCast]
    refine (Nat.div_lt_iff_lt_mul unitsInOne_pos).mpr ?_
    calc m * twoTo p < twoTo 53 * twoTo p := Nat.mul_lt_mul_of_pos_right hm (twoTo_pos p)
      _ ≤ twoTo 53 * twoTo 2045 := Nat.mul_le_mul_left _ (twoTo_le hp)
      _ ≤ tenTo 309 * unitsInOne := hlargest

end Double

namespace Number

theorem place?_int (i : Int) : (Number.int i).place? = some (Double.Place.ofInt i) :=
  rfl

theorem place?_float (x : Double) : (Number.float x).place? = x.place? :=
  rfl

/-- The order of numbers is that of their places. -/
theorem lt_eq {a b : Number} {p q : Double.Place} (ha : a.place? = some p)
    (hb : b.place? = some q) : a.lt b = p.before q := by
  rw [lt, ha, hb]

theorem le_eq {a b : Number} {p q : Double.Place} (ha : a.place? = some p)
    (hb : b.place? = some q) : a.le b = !q.before p := by
  rw [le, ha, hb]

theorem lt_int (i j : Int) : (Number.int i).lt (.int j) = decide (i < j) := by
  rw [lt_eq (place?_int i) (place?_int j), Double.before_ofInt]

theorem le_int (i j : Int) : (Number.int i).le (.int j) = decide (i ≤ j) := by
  rw [le_eq (place?_int i) (place?_int j), Double.before_ofInt, ← decide_not]
  exact decide_eq_decide.mpr Int.not_lt

/-- Integers and whole doubles are compared exactly. -/
theorem int_lt_ofNat (t : Nat) {n : Nat} (hn : n < twoTo 53) :
    (Number.int t).lt (.float (Double.ofNat n)) = decide (t < n) := by
  have hplace := (place?_float (Double.ofNat n)).trans (Double.place?_ofNat hn)
  rw [lt_eq (place?_int t) hplace, Double.before_ofInt]
  exact decide_eq_decide.mpr Int.ofNat_lt

theorem ofNat_le_int (t : Nat) {n : Nat} (hn : n < twoTo 53) :
    (Number.float (Double.ofNat n)).le (.int t) = decide (n ≤ t) := by
  have hplace := (place?_float (Double.ofNat n)).trans (Double.place?_ofNat hn)
  rw [le_eq hplace (place?_int t), Double.before_ofInt, ← decide_not]
  refine decide_eq_decide.mpr ?_
  omega

end Number

end Overlay
