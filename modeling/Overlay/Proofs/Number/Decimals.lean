import Overlay.Number.Decimal
import Overlay.Proofs.Number.Spelling
import Overlay.Proofs.Text.Pieces

/-!
# Decimal numbers with few digits

Arithmetic keeps 28 digits.  As long as the exact result has no more than that, nothing is lost: sums
and products are exact, and keep the places behind the point that their operands had.

## Main definitions
- `Decimal.withPlaces`: a number with some places behind the point

## Main statements
- `Decimal.read?_chars`: a written number is read with all its digits
- `Decimal.kept_withPlaces`: what has no more than 28 digits is kept
- `Decimal.mul_withPlaces`, `Decimal.add_withPlaces`: exact products and sums
- `Decimal.roundToInt_withPlaces`: a whole number is its own rounding, whatever its places
-/

namespace Overlay

open Overlay.Text Overlay.Number

/-! ## Section 1: Reading -/

/-- The characters of written numbers can be seen, and none of them is a low line. -/
theorem Number.Spelling.visible_of_isNumberChar {c : Char} (h : isNumberChar c = true) :
    isBlank c = false ∧ c ≠ '_' := by
  simp only [isNumberChar, Bool.or_eq_true, decide_eq_true_eq] at h
  rcases h with (((hdigit | rfl) | rfl) | rfl) | rfl
  · obtain ⟨hlow, hhigh⟩ := isDigit_iff.mp hdigit
    constructor
    · simp only [isBlank, Bool.or_eq_false_iff, Bool.and_eq_false_imp, decide_eq_true_eq,
        decide_eq_false_iff_not]
      omega
    · rintro rfl
      exact absurd hhigh (by decide)
  all_goals exact ⟨by decide, by decide⟩

namespace Decimal

/-- A written number is read with the digits and the places that were written. -/
theorem read?_chars (w : Spelling)
    (hhigh : w.power + digitCount (ofNumeral w.digits) - 1 ≤ maxExponent)
    (hlow : minExponent ≤ w.power) :
    read? w.chars = some ⟨w.negative, ofNumeral w.digits, w.power⟩ := by
  have hvisible := fun c hc => Spelling.visible_of_isNumberChar (w.isNumberChar_of_mem (c := c) hc)
  have hbare : (strip w.chars).filter (· != '_') = w.chars := by
    rw [strip_eq_self fun c hc => (hvisible c hc).1, List.filter_eq_self]
    intro c hc
    simpa using (hvisible c hc).2
  have hrange : ¬ (maxExponent < w.power + digitCount (ofNumeral w.digits) - 1
      ∨ w.power < minExponent) := by omega
  rw [read?, hbare, w.read?_chars]
  simpa using hrange

/-! ## Section 2: Places -/

/-- The number whose digits are those of `n`, the last `k` of them behind the point. -/
def withPlaces (n k : Nat) : Decimal :=
  ⟨false, n, -(k : Int)⟩

@[simp] theorem negative_withPlaces (n k : Nat) : (withPlaces n k).negative = false :=
  rfl

@[simp] theorem coefficient_withPlaces (n k : Nat) : (withPlaces n k).coefficient = n :=
  rfl

@[simp] theorem exponent_withPlaces (n k : Nat) : (withPlaces n k).exponent = -(k : Int) :=
  rfl

theorem ofInt_natCast (n : Nat) : ofInt n = withPlaces n 0 := by
  simp [ofInt, withPlaces]

/-- A number without a sign and an exponent is read with the places it shows. -/
theorem read?_withPlaces {w : Spelling} (hsign : w.negative = false) (hexponent : w.exponent = none)
    (hfew : ofNumeral w.digits < tenTo precision) (hplaces : (w.places.getD []).length ≤ reach) :
    read? w.chars = some (withPlaces (ofNumeral w.digits) (w.places.getD []).length) := by
  have hdigits : digitCount (ofNumeral w.digits) ≤ precision := digitCount_le (by decide) hfew
  have hpower : w.power = -((w.places.getD []).length : Int) := by
    rw [Spelling.power, hexponent, Option.getD_none, zero_sub]
  have hprecision : precision = 28 := rfl
  have hreach : reach = 1000 := rfl
  have hmax : maxExponent = 999999999999999999 := rfl
  have hmin : minExponent = -1999999999999999997 := rfl
  rw [read?_chars w (by omega) (by omega), hsign, hpower]
  rfl

/-! ## Section 3: Exact arithmetic -/

/-- A number is kept as it is, if it has no more digits than are kept and as few places as can be
aligned. -/
theorem kept_withPlaces {n k : Nat} (hn : n < tenTo precision) (hk : k ≤ reach) :
    kept (withPlaces n k) = some (withPlaces n k) := by
  have hdigits : digitCount n ≤ precision := digitCount_le (by decide) hn
  have hhighest : highest = 999999 := rfl
  have hlowest : lowest = -1000026 := rfl
  have hprecision : precision = 28 := rfl
  have hreach : reach = 1000 := rfl
  have hrounded : (withPlaces n k).rounded = withPlaces n k := by
    rw [rounded, coefficient_withPlaces, if_pos (by omega)]
  rw [kept, coefficient_withPlaces, exponent_withPlaces, hrounded]
  split
  · -- a zero only has its exponent moved between the two ends, where it is already
    rw [show max lowest (min (-(k : Int)) highest) = -(k : Int) by omega]
    rfl
  · -- no place lies below the lowest, and the leading digit lies below the highest
    have hplaces : ¬ -(k : Int) < lowest := by omega
    have hmagnitude : ¬ highest < (withPlaces n k).magnitude := by
      rw [magnitude, exponent_withPlaces, coefficient_withPlaces]
      omega
    simp [hplaces, hmagnitude]

theorem mul_withPlaces {n m k : Nat} (h : n * m < tenTo precision) (hk : k ≤ reach) :
    (withPlaces n k).mul (withPlaces m 0) = some (withPlaces (n * m) k) := by
  rw [← kept_withPlaces h hk, mul]
  simp [withPlaces]

theorem coefficientAt_withPlaces (n : Nat) {k j : Nat} (h : k ≤ j) :
    (withPlaces n k).coefficientAt (-(j : Int)) = (n * tenTo (j - k) : Nat) := by
  have hdistance : (-(k : Int) - -(j : Int)).toNat = j - k := by omega
  rw [coefficientAt, coefficient_withPlaces, exponent_withPlaces, hdistance]
  split
  · next hn => rw [hn, Nat.zero_mul]; rfl
  · rfl

/-- Digits that are not too far apart are added as they are. -/
theorem standIn_eq_self {small big : Decimal} (h : big.exponent - small.exponent ≤ reach) :
    standIn small big = small := by
  simp [standIn, h]

/-- A whole number and one with places add up to one with these places. -/
theorem add_withPlaces {n m k : Nat} (h : n * tenTo k + m < tenTo precision) (hk : k ≤ reach) :
    (withPlaces n 0).add (withPlaces m k) = some (withPlaces (n * tenTo k + m) k) := by
  -- whichever of the two has the smaller exponent, it is added itself
  have hwhole : standIn (withPlaces n 0) (withPlaces m k) = withPlaces n 0 :=
    standIn_eq_self (by simp only [exponent_withPlaces]; omega)
  have hplaces : standIn (withPlaces m k) (withPlaces n 0) = withPlaces m k :=
    standIn_eq_self (by simp only [exponent_withPlaces]; omega)
  have hexponent : min (-((0 : Nat) : Int)) (-(k : Int)) = -(k : Int) := by omega
  have hm : (withPlaces m k).coefficientAt (-(k : Int)) = (m : Int) := by
    rw [coefficientAt_withPlaces m le_rfl, Nat.sub_self, tenTo_zero, Nat.mul_one]
  have hsum : ((n * tenTo k : Nat) : Int) + (m : Int) = ((n * tenTo k + m : Nat) : Int) := by
    push_cast
    rfl
  have hpositive : ¬ ((n * tenTo k + m : Nat) : Int) < 0 := by omega
  rw [← kept_withPlaces h hk, add, hwhole, hplaces, ite_self, ite_self]
  simp only [exponent_withPlaces, hexponent, coefficientAt_withPlaces n (Nat.zero_le k),
    Nat.sub_zero, hm, hsum, hpositive, Int.natAbs_natCast, negative_withPlaces, Bool.and_self,
    decide_false, ite_self]
  rfl

/-- A whole number is its own rounding, however many zeros stand behind the point. -/
theorem roundToInt_withPlaces (n k : Nat) : (withPlaces (n * tenTo k) k).roundToInt = n := by
  cases k with
  | zero =>
    show Double.signed false (n * tenTo 0 * tenTo 0) = n
    rw [tenTo_zero, Nat.mul_one, Nat.mul_one]
    rfl
  | succ k =>
    have hlast : withoutLast (n * tenTo (k + 1)) (k + 1) = n := by
      rw [withoutLast]
      split
      · -- with as many zeros behind it only zero itself has fewer digits than places
        next hfew =>
        by_contra hn
        rw [digitCount_mul_tenTo (Ne.symm hn)] at hfew
        omega
      · exact roundDiv_exact (tenTo_pos _) n
    exact congrArg (Double.signed false) hlast

end Decimal

end Overlay
