import Overlay.Proofs.Number.Exact
import Overlay.Proofs.Results
import Overlay.Timecode

/-!
# Times

Times are whole numbers of milliseconds.  On whole numbers comparing and adding never fail, and what
passes a check without being a double is a whole number.

## Main definitions
- `Value.whole?`: the whole number that a value counts as
- `isTime`, `IsLength`: no other numbers than integers below `2^53`

## Main statements
- `Value.lessThan_of_whole?`, `Value.plus_of_whole?`, `Value.atLeastZero_of_whole?`: what operations
  do with whole numbers
- `Value.exists_whole?_of_atLeastZero`, `exists_int_of_requireNonNegative`: what passes a check
-/

namespace Overlay

open Overlay.Number

attribute [local irreducible] twoTo

/-! ## Section 1: Whole numbers -/

namespace Value

/-- The whole number that a value counts as; truth values count as 0 and 1. -/
def whole? : Value → Option Int
  | .bool b => some (if b then 1 else 0)
  | .int i => some i
  | _ => .none

def isFloat : Value → Bool
  | .float _ => true
  | _ => false

variable {a b v w : Value} {i j : Int}

theorem number?_of_whole? (h : a.whole? = some i) : a.number? = some (.int i) := by
  cases a <;> simp_all [whole?, number?]

theorem toNumber_of_whole? (h : a.whole? = some i) : a.toNumber = .ok (.int i) := by
  simp [toNumber, number?_of_whole? h]

/-- What counts as a number without being a double is a whole number. -/
theorem exists_whole?_of_toNumber (hv : v.isFloat = false) {n : Number} (h : v.toNumber = .ok n) :
    ∃ i, v.whole? = some i := by
  cases v with
  | bool b => exact ⟨_, rfl⟩
  | int i => exact ⟨i, rfl⟩
  | float x => cases hv
  | _ => cases h

theorem lessThan_of_whole? (ha : a.whole? = some i) (hb : b.whole? = some j) :
    a.lessThan b = .ok (decide (i < j)) := by
  simp [lessThan, toNumber_of_whole? ha, toNumber_of_whole? hb, Number.lt_int]

theorem plus_of_whole? (ha : a.whole? = some i) (hb : b.whole? = some j) :
    a.plus b = .ok (.int (i + j)) := by
  unfold plus
  split
  · cases ha
  · cases ha
  · cases ha
  · simp [toNumber_of_whole? ha, toNumber_of_whole? hb, Number.add?, Number.combine?, ofNumber]

theorem atLeastZero_of_whole? (h : a.whole? = some i) :
    a.atLeastZero = .ok (if 0 < i then a else .int 0) := by
  have hzero : whole? (.int 0) = some 0 := rfl
  simp [atLeastZero, lessThan_of_whole? hzero h]

theorem smaller_of_whole? (ha : a.whole? = some i) (hb : b.whole? = some j) :
    a.smaller b = .ok (if j < i then b else a) := by
  simp [smaller, lessThan_of_whole? hb ha]

/-- The larger of zero and a whole number. -/
theorem whole?_ite_pos (h : a.whole? = some i) :
    (if 0 < i then a else .int 0).whole? = some (max 0 i) := by
  split
  · rw [h, max_eq_right (by omega)]
  · rw [whole?, max_eq_left (by omega)]

theorem exists_whole?_of_atLeastZero (hv : v.isFloat = false) (h : v.atLeastZero = .ok w) :
    ∃ i, w.whole? = some i ∧ 0 ≤ i := by
  obtain ⟨less, hless, -⟩ := bind_eq_ok.mp h
  obtain ⟨_, -, hless⟩ := bind_eq_ok.mp hless
  obtain ⟨n, hn, -⟩ := bind_eq_ok.mp hless
  obtain ⟨i, hi⟩ := exists_whole?_of_toNumber hv hn
  rw [atLeastZero_of_whole? hi] at h
  rw [← Except.ok.inj h]
  exact ⟨_, whole?_ite_pos hi, le_max_left 0 i⟩

theorem exists_whole?_of_smaller (hv : v.isFloat = false) (hb : b.whole? = some j)
    (h : v.smaller b = .ok w) : ∃ i, w.whole? = some i ∧ i ≤ j := by
  obtain ⟨less, hless, -⟩ := bind_eq_ok.mp h
  obtain ⟨_, -, hless⟩ := bind_eq_ok.mp hless
  obtain ⟨n, hn, -⟩ := bind_eq_ok.mp hless
  obtain ⟨i, hi⟩ := exists_whole?_of_toNumber hv hn
  rw [smaller_of_whole? hi hb] at h
  rw [← Except.ok.inj h]
  split
  · exact ⟨j, hb, le_rfl⟩
  · exact ⟨i, hi, by omega⟩

end Value

theorem exists_int_of_requireNonNegative {v : Value} {label : String} (hv : v.isFloat = false)
    (h : requireNonNegative v label = .ok ()) : ∃ i, v = .int i ∧ 0 ≤ i := by
  cases v with
  | int i =>
    refine ⟨i, rfl, ?_⟩
    by_contra hneg
    have hlt : (Number.int i).lt (.int 0) = true := by
      rw [Number.lt_int, decide_eq_true_eq]
      omega
    simp [requireNonNegative, Value.plainNumber?, hlt, refuse] at h
  | float x => cases hv
  | _ => cases h

/-! ## Section 2: Moderate times -/

/-- Whether a value that is a number is an integer below `2^53`; what is no number at all is refused
wherever a time is asked for. -/
def isTime : Value → Bool
  | .int i => decide (i < twoTo 53)
  | .bool _ => false
  | .float _ => false
  | _ => true

/-- A length of time in milliseconds. -/
def IsLength (v : Value) : Prop :=
  ∃ n : Nat, v = .int n ∧ n < twoTo 53

theorem isFloat_of_isTime {v : Value} (h : isTime v = true) : v.isFloat = false := by
  cases v with
  | float x => cases h
  | _ => rfl

/-- A time that is accepted as a length is one. -/
theorem isLength_of_requireNonNegative {v : Value} {label : String} (htime : isTime v = true)
    (h : requireNonNegative v label = .ok ()) : IsLength v := by
  obtain ⟨i, rfl, hi⟩ := exists_int_of_requireNonNegative (isFloat_of_isTime htime) h
  rw [isTime, decide_eq_true_eq] at htime
  exact ⟨i.toNat, by rw [Int.toNat_of_nonneg hi], by omega⟩

/-- A time above zero stays as it is, any other one becomes zero. -/
theorem isLength_of_atLeastZero {time v : Value} (htime : isTime time = true)
    (h : time.atLeastZero = .ok v) : IsLength v := by
  cases time with
  | int i =>
    rw [Value.atLeastZero_of_whole? rfl] at h
    rw [← Except.ok.inj h]
    rw [isTime, decide_eq_true_eq] at htime
    split
    · exact ⟨i.toNat, by rw [Int.toNat_of_nonneg (by omega)], by omega⟩
    · exact ⟨0, rfl, twoTo_pos 53⟩
  | bool b => cases htime
  | float x => cases htime
  | _ => cases h

end Overlay
