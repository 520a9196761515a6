import Overlay.Preview.Evaluation
import Overlay.Proofs.Number.Thousandths
import Overlay.Proofs.Results

/-!
# Blending

A value on the way to another one.  Numbers are blended through doubles, which fails where an integer
has no nearest double; two percentages give a percentage, and anything else stays as it is until the
change is over.

## Main definitions
- `Number.isModerate`: numbers that are no integers of enormous size

## Main statements
- `mixNumbers_cases`, `mixNumbers_of_moderate`: a number on the way to another one
- `mix_float`: a double on the way
- `mix_cases`: any value on the way
-/

namespace Overlay

open Overlay.Number

attribute [local irreducible] twoTo tenTo Double.unitsInOne

/-! ## Section 1: Numbers -/

/-- Arithmetic with a double is arithmetic of doubles. -/
theorem combine?_float (onInts : Int → Int → Int) (onDoubles : Double → Double → Double)
    (n : Number) (x : Double) :
    combine? onInts onDoubles n (.float x)
      = n.toDouble?.map fun y => .float (onDoubles y x) := by
  cases n with
  | int i =>
    simp only [combine?, toDouble?]
    cases doubleOfInt? i <;> rfl
  | float y => rfl

/-- A double on the way to a number, which has to have a nearest double. -/
theorem mixNumbers_float (x : Double) (n : Number) (ratio : Double) :
    Evaluation.mixNumbers (.float x) n ratio
      = (orFault .tooLarge n.toDouble?).map fun y => .float (x.add ((y.sub x).mul ratio)) := by
  unfold Evaluation.mixNumbers sub? mul? add?
  rw [combine?_float]
  cases n.toDouble? with
  | none => rw [Option.map_none, orFault, orFault, error_bind, error_map]
  | some y =>
    -- what has been a double stays one
    rw [Option.map_some, orFault_some, ok_bind, combine?_float, toDouble?, Option.map_some,
      orFault_some, ok_bind, combine?_float, toDouble?, Option.map_some, orFault_some,
      orFault_some, ok_map]

/-- A double is blended towards the nearest double of a number, and stays where there is none. -/
theorem mix_float (x : Double) (v : Value) (ratio : Double) :
    Evaluation.mix (.float x) v ratio
      = if Double.le (Double.ofNat 1) ratio then .ok v
        else match v.plainNumber? with
          | some n => (orFault .tooLarge n.toDouble?).map fun y =>
              .float (x.add ((y.sub x).mul ratio))
          | none => .ok (.float x) := by
  unfold Evaluation.mix
  split
  · rfl
  · cases hnumber : v.plainNumber? with
    | none => simp only [Value.plainNumber?, Evaluation.percent?]
    | some n =>
      simp only [Value.plainNumber?, mixNumbers_float]
      cases n.toDouble? with
      | none => rw [orFault, error_map, error_map, error_map]
      | some y => rw [orFault_some, ok_map, ok_map, ok_map, Value.ofNumber]

/-- Whether a number is no integer of enormous size: the differences of such integers have doubles. -/
def Number.isModerate : Number → Bool
  | .int i => decide (i.natAbs < tenTo 307)
  | .float _ => true

theorem toDouble?_of_moderate {n : Number} (h : n.isModerate = true) : ∃ x, n.toDouble? = some x := by
  cases n with
  | int i =>
    exact Option.isSome_iff_exists.mp
      (Double.isSome_doubleOfInt? (Nat.lt_trans (of_decide_eq_true h) (tenTo_lt (by decide))))
  | float x => exact ⟨x, rfl⟩

/-- A number on the way to another one, once their difference is known. -/
theorem mixNumbers_eq (m n : Number) (ratio : Double) :
    Evaluation.mixNumbers m n ratio
      = orFault .tooLarge (n.sub? m) >>= fun distance =>
          orFault .tooLarge distance.toDouble? >>= fun y =>
            (orFault .tooLarge m.toDouble?).map fun x => .float (x.add (y.mul ratio)) := by
  unfold Evaluation.mixNumbers mul? add?
  cases n.sub? m with
  | none => rfl
  | some distance =>
    rw [orFault_some, ok_bind, ok_bind, combine?_float]
    cases distance.toDouble? with
    | none => rfl
    | some y =>
      rw [Option.map_some, orFault_some, orFault_some, ok_bind, ok_bind, combine?_float]
      cases m.toDouble? <;> rfl

/-- A number on the way is a double, or there is none. -/
theorem mixNumbers_cases (m n : Number) (ratio : Double) :
    (∃ x, Evaluation.mixNumbers m n ratio = .ok (.float x))
      ∨ Evaluation.mixNumbers m n ratio = .error .tooLarge := by
  rw [mixNumbers_eq]
  cases n.sub? m with
  | none => exact Or.inr rfl
  | some distance =>
    rw [orFault_some, ok_bind]
    cases distance.toDouble? with
    | none => exact Or.inr rfl
    | some y =>
      rw [orFault_some, ok_bind]
      cases m.toDouble? with
      | none => exact Or.inr rfl
      | some x => exact Or.inl ⟨_, rfl⟩

theorem exists_sub?_of_moderate {m n : Number} (hm : m.isModerate = true) (hn : n.isModerate = true) :
    ∃ distance y, n.sub? m = some distance ∧ distance.toDouble? = some y := by
  obtain ⟨x, hx⟩ := toDouble?_of_moderate hm
  obtain ⟨y, hy⟩ := toDouble?_of_moderate hn
  cases m with
  | float x' =>
    refine ⟨.float (y.sub x'), y.sub x', ?_, rfl⟩
    rw [sub?, combine?_float, hy, Option.map_some]
  | int i =>
    cases n with
    | float y' =>
      obtain rfl : y' = y := Option.some.inj hy
      refine ⟨.float (y'.sub x), y'.sub x, ?_, rfl⟩
      rw [sub?, combine?, hy, hx]
      · rfl
      · intro _ _ h
        cases h
    | int j =>
      have hi : i.natAbs < tenTo 307 := of_decide_eq_true hm
      have hj : j.natAbs < tenTo 307 := of_decide_eq_true hn
      have hten : tenTo 308 = tenTo 307 * 10 := tenTo_succ 307
      have hsome := Double.isSome_doubleOfInt? (i := j - i) (by omega)
      obtain ⟨z, hz⟩ := Option.isSome_iff_exists.mp hsome
      exact ⟨.int (j - i), z, rfl, hz⟩

/-- Between numbers that are no integers of enormous size there is always one. -/
theorem mixNumbers_of_moderate {m n : Number} (hm : m.isModerate = true) (hn : n.isModerate = true)
    (ratio : Double) : ∃ x, Evaluation.mixNumbers m n ratio = .ok (.float x) := by
  obtain ⟨distance, y, hdistance, hy⟩ := exists_sub?_of_moderate hm hn
  obtain ⟨x, hx⟩ := toDouble?_of_moderate hm
  rw [mixNumbers_eq, hdistance, orFault_some, ok_bind, hy, orFault_some, ok_bind, hx, orFault_some]
  exact ⟨_, rfl⟩

/-! ## Section 2: Values -/

/-- A value on the way to another one: the other one at the end, a number between two numbers, a
percentage between two percentages, and else the value itself. -/
theorem mix_cases (a b : Value) (ratio : Double) :
    Evaluation.mix a b ratio = .ok b
      ∨ (∃ m n, a.plainNumber? = some m ∧ b.plainNumber? = some n
          ∧ Evaluation.mix a b ratio = (Evaluation.mixNumbers m n ratio).map Value.ofNumber)
      ∨ (a.plainNumber? = none ∨ b.plainNumber? = none)
          ∧ (Evaluation.mix a b ratio = .ok a ∨ ∃ s, Evaluation.mix a b ratio = .ok (.text s)) := by
  unfold Evaluation.mix
  split
  · exact Or.inl rfl
  · right
    split
    · next m n hm hn => exact Or.inl ⟨m, n, hm, hn, rfl⟩
    · next hnone =>
      right
      constructor
      · cases ha : a.plainNumber? with
        | none => exact Or.inl rfl
        | some m =>
          right
          cases hb : b.plainNumber? with
          | none => rfl
          | some n => exact absurd hb (hnone m n ha)
      · split
        · exact Or.inr ⟨_, rfl⟩
        · exact Or.inl rfl

end Overlay
