import Overlay.Proofs.Number.Exact
import Overlay.Number.Literal
import Overlay.Number.Shortest
import Mathlib.Data.List.Induction
import Mathlib.Data.List.TakeDrop
import Mathlib.Data.List.TakeWhile

/-!
# Rows of decimal digits

What rows of ASCII digits stand for: zeros in front of a row do not count, each zero behind it is
a factor of ten.  The digits at the front of a text are all of them where no digit follows.

## Main statements
- `ofNumeral_zeros_append`, `ofNumeral_append_zeros`: zeros around a row
- `ofNumeral_append`: a row behind another one
- `numeral_digits`: numerals are digits
- `spanDigits_append`: digits at the front of a text
- `digitCount_le`, `lt_digitCount`, `digitCount_mul_tenTo`: how many digits a number has
- `hasText_iff`: which integers are short enough to be written
-/

namespace Overlay.Number

open Overlay.Text

/-! ## Section 1: Digits -/

/-- A row of ASCII digits. -/
def Digits (ds : List Char) : Prop :=
  ∀ c ∈ ds, c.isDigit = true

theorem Digits.nil : Digits [] := by
  intro c hc
  cases hc

theorem Digits.append {ds es : List Char} (hd : Digits ds) (he : Digits es) :
    Digits (ds ++ es) := by
  intro c hc
  rcases List.mem_append.mp hc with h | h
  · exact hd c h
  · exact he c h

theorem Digits.replicate_zero (k : Nat) : Digits (List.replicate k '0') := by
  intro c hc
  rw [List.eq_of_mem_replicate hc]
  rfl

theorem Digits.take {ds : List Char} (hd : Digits ds) (k : Nat) : Digits (ds.take k) :=
  fun c hc => hd c (List.mem_of_mem_take hc)

theorem Digits.drop {ds : List Char} (hd : Digits ds) (k : Nat) : Digits (ds.drop k) :=
  fun c hc => hd c (List.mem_of_mem_drop hc)

/-- An ASCII digit lies between the codes of `0` and `9`. -/
theorem isDigit_iff {c : Char} : c.isDigit = true ↔ 0x30 ≤ c.toNat ∧ c.toNat ≤ 0x39 := by
  simp only [Char.isDigit, Bool.and_eq_true, decide_eq_true_eq]
  exact Iff.rfl

theorem isDecimalDigit_of_isDigit {c : Char} (h : c.isDigit = true) : isDecimalDigit c = true := by
  have hlow : c.toNat < 0x80 := by
    have := (isDigit_iff.mp h).2
    omega
  simp [isDecimalDigit, digitValue?, hlow, h]

theorem isDigit_asciiDigit {d : Nat} (h : d < 10) : (asciiDigit d).isDigit = true := by
  have hall : ∀ e ∈ List.range 10, (asciiDigit e).isDigit = true := by decide
  exact hall d (List.mem_range.mpr h)

/-- Numerals are rows of digits. -/
theorem numeral_digits (n : Nat) : Digits (numeral n) := by
  induction n using Nat.strongRecOn with
  | ind n ih =>
    rw [numeral]
    split
    · next h =>
      intro c hc
      rw [List.mem_singleton.mp hc]
      exact isDigit_asciiDigit h
    · next h =>
      refine (ih (n / 10) (by omega)).append ?_
      intro c hc
      rw [List.mem_singleton.mp hc]
      exact isDigit_asciiDigit (by omega)

theorem numeral_ne_nil (n : Nat) : numeral n ≠ [] := by
  rw [numeral]
  split <;> simp

theorem padded_digits (w n : Nat) : Digits (padded w n) :=
  (Digits.replicate_zero _).append (numeral_digits n)

theorem padded_ne_nil (w n : Nat) : padded w n ≠ [] := by
  simp [padded, numeral_ne_nil]

/-! ## Section 2: Digits at the front of a text -/

/-- A text that does not start with a character of a class. -/
def StartsOutside (p : Char → Bool) (s : List Char) : Prop :=
  ∀ c ∈ s.head?, p c = false

theorem StartsOutside.cons {p : Char → Bool} {c : Char} (h : p c = false) (r : List Char) :
    StartsOutside p (c :: r) := by
  intro d hd
  rw [← Option.some.inj hd]
  exact h

/-- Characters of a class in front of a text that goes on with another one. -/
theorem span_append {p : Char → Bool} {ds rest : List Char} (hd : ∀ c ∈ ds, p c = true)
    (hr : StartsOutside p rest) : (ds ++ rest).span p = (ds, rest) := by
  rw [List.span_eq_takeWhile_dropWhile, List.takeWhile_append_of_pos hd,
    List.dropWhile_append_of_pos hd]
  cases rest with
  | nil => simp
  | cons c r =>
    have hc : p c = false := hr c rfl
    simp [hc]

/-- Digits in front of a text that does not go on with one. -/
theorem spanDigits_append {ds rest : List Char} (hd : Digits ds)
    (hr : StartsOutside isDecimalDigit rest) : spanDigits (ds ++ rest) = (ds, rest) :=
  span_append (fun c hc => isDecimalDigit_of_isDigit (hd c hc)) hr

theorem all_isDecimalDigit {ds : List Char} (hd : Digits ds) : ds.all isDecimalDigit = true :=
  List.all_eq_true.mpr fun c hc => isDecimalDigit_of_isDigit (hd c hc)

/-! ## Section 3: What rows of digits stand for -/

theorem digitValue?_zero : digitValue? '0' = some 0 := by
  decide

/-- Zeros in front of a row do not count. -/
theorem ofNumeral_zeros_append (k : Nat) (ds : List Char) :
    ofNumeral (List.replicate k '0' ++ ds) = ofNumeral ds := by
  induction k with
  | zero => rfl
  | succ k ih =>
    rw [List.replicate_succ, List.cons_append, ← ih]
    simp [ofNumeral, pushDigit, digitValue?_zero]

/-- A row stands for its front, moved up by as many places as there are digits behind it, and for
those digits. -/
theorem ofNumeral_append (ds es : List Char) :
    ofNumeral (ds ++ es) = ofNumeral ds * tenTo es.length + ofNumeral es := by
  induction es using List.reverseRecOn with
  | nil => simp [tenTo, ofNumeral]
  | append_singleton es c ih =>
    rw [← List.append_assoc, ofNumeral_concat, ofNumeral_concat, ih, List.length_append,
      List.length_singleton, tenTo_succ]
    ring

/-- Each zero behind a row is a factor of ten. -/
theorem ofNumeral_append_zeros (ds : List Char) (k : Nat) :
    ofNumeral (ds ++ List.replicate k '0') = ofNumeral ds * tenTo k := by
  have hzeros : ofNumeral (List.replicate k '0') = 0 := by
    simpa [ofNumeral] using ofNumeral_zeros_append k []
  rw [ofNumeral_append, hzeros, List.length_replicate, Nat.add_zero]

theorem ofNumeral_padded (w n : Nat) : ofNumeral (padded w n) = n := by
  rw [padded, ofNumeral_zeros_append, ofNumeral_numeral]

theorem length_padded (w n : Nat) : (padded w n).length = max w (digitCount n) := by
  rw [padded, List.length_append, List.length_replicate, length_numeral]
  omega

/-- A row that is not zero keeps its digits up to zeros at its end. -/
theorem dropTrailingZeros_append {ds : List Char} (hds : ofNumeral ds ≠ 0) :
    ∃ k, ds = Double.dropTrailingZeros ds ++ List.replicate k '0' := by
  let zeros := ds.reverse.takeWhile (· = '0')
  let kept := (ds.reverse.dropWhile (· = '0')).reverse
  have hzeros : zeros.reverse = List.replicate zeros.length '0' := by
    refine List.eq_replicate_iff.mpr ⟨List.length_reverse, ?_⟩
    intro c hc
    simpa using List.mem_takeWhile_imp (List.mem_reverse.mp hc)
  have hsplit : ds = kept ++ List.replicate zeros.length '0' := by
    rw [← hzeros, ← List.reverse_append, List.takeWhile_append_dropWhile, List.reverse_reverse]
  have hkept : Double.dropTrailingZeros ds = kept := by
    unfold Double.dropTrailingZeros
    split
    · next hnil =>
      -- a row of zeros alone stands for zero
      have hnil' : kept = [] := hnil
      rw [hnil', List.nil_append] at hsplit
      have := ofNumeral_append_zeros [] zeros.length
      rw [List.nil_append, ← hsplit] at this
      exact absurd (this.trans (Nat.zero_mul _)) hds
    · rfl
  exact ⟨zeros.length, hkept.symm ▸ hsplit⟩

/-! ## Section 4: How many digits a number has -/

theorem digitCount_le {n k : Nat} (hk : 0 < k) (h : n < tenTo k) : digitCount n ≤ k := by
  induction k using Nat.strongRecOn generalizing n with
  | ind k ih =>
    rw [digitCount]
    split
    · omega
    · next hn =>
      obtain ⟨j, rfl⟩ : ∃ j, k = j + 1 := ⟨k - 1, by omega⟩
      have hstep : tenTo (j + 1) = tenTo j * 10 := tenTo_succ j
      have hj : 0 < j := by
        rcases Nat.eq_zero_or_pos j with rfl | hj
        · have : tenTo 0 = 1 := rfl
          omega
        · exact hj
      have := ih j (by omega) hj (n := n / 10) (by omega)
      omega

theorem lt_digitCount {n k : Nat} (h : tenTo k ≤ n) : k < digitCount n := by
  induction k generalizing n with
  | zero =>
    rw [digitCount]
    split <;> omega
  | succ k ih =>
    have hstep : tenTo (k + 1) = tenTo k * 10 := tenTo_succ k
    have hpos : 0 < tenTo k := tenTo_pos k
    rw [digitCount, if_neg (by omega)]
    have := ih (n := n / 10) (by omega)
    omega

/-- Each factor of ten is one digit more. -/
theorem digitCount_mul_tenTo {n : Nat} (hn : n ≠ 0) (k : Nat) :
    digitCount (n * tenTo k) = digitCount n + k := by
  induction k with
  | zero => rw [tenTo_zero, Nat.mul_one, Nat.add_zero]
  | succ k ih =>
    have hpos : 0 < n * tenTo k := Nat.mul_pos (by omega) (tenTo_pos k)
    rw [tenTo_succ, ← Nat.mul_assoc, digitCount, if_neg (by omega),
      Nat.mul_div_cancel _ (by decide), ih, Nat.add_assoc]

/-- A number that is written with so many digits lies below that power of ten. -/
theorem fitsDigits_iff {k n : Nat} : fitsDigits k n = true ↔ n < tenTo k := by
  induction k generalizing n with
  | zero =>
    rw [fitsDigits, beq_iff_eq, tenTo_zero]
    omega
  | succ k ih =>
    have hstep : tenTo (k + 1) = tenTo k * 10 := tenTo_succ k
    have hpos : 0 < tenTo k := tenTo_pos k
    rw [fitsDigits, Bool.or_eq_true, decide_eq_true_eq, ih]
    omega

theorem hasText_iff {i : Int} : hasText i = true ↔ i.natAbs < tenTo maxIntDigits :=
  fitsDigits_iff

/-- Integers of moderate size can be written. -/
theorem hasText_of_lt {i : Int} {k : Nat} (hk : k < maxIntDigits) (h : i.natAbs < tenTo k) :
    hasText i = true :=
  hasText_iff.mpr (Nat.lt_trans h (tenTo_lt hk))

end Overlay.Number
