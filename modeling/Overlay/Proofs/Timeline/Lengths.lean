import Overlay.Proofs.Number.Signs
import Overlay.Proofs.Timeline.Outcomes
import Overlay.Proofs.Timeline.Times

/-!
# Lengths that do not lie below zero

A clip that starts at zero or later and whose length does not lie below zero ends somewhere, unless its
start is too large to be added to a double.  A timeline that reaches the end of such a clip has no
length below zero, even if it had one before.

## Main definitions
- `Value.isNonNegative`: numbers that do not lie below zero
- `Timeline.Measured`: timelines of which it can be told whether they reach a clip

## Main statements
- `isNonNegative_of_requireNonNegative`: what passes a check as a length
- `Timeline.Measured.extent_delivers`: the length of a timeline that has to reach a clip
-/

namespace Overlay

open Overlay.Number

attribute [local irreducible] twoTo Double.unitsInOne

/-! ## Section 1: Values -/

namespace Value

variable {a b v : Value} {m n : Number}

/-- Whether a value is a number that does not lie below zero; truth values are no numbers here. -/
def isNonNegative (v : Value) : Bool :=
  match v.plainNumber? with
  | some n => n.isNonNegative
  | .none => false

theorem isNonNegative_int (i : Int) : (Value.int i).isNonNegative = decide (0 ≤ i) :=
  Number.isNonNegative_int i

theorem isNonNegative_float (x : Double) : (Value.float x).isNonNegative = x.isNonNegative :=
  Number.isNonNegative_float x

theorem isNonNegative_ofNumber (n : Number) : (ofNumber n).isNonNegative = n.isNonNegative := by
  cases n <;> rfl

theorem exists_plainNumber? (h : v.isNonNegative = true) :
    ∃ n, v.plainNumber? = some n ∧ n.isNonNegative = true := by
  unfold isNonNegative at h
  cases hn : v.plainNumber? with
  | none =>
    rw [hn] at h
    cases h
  | some n =>
    rw [hn] at h
    exact ⟨n, rfl, h⟩

theorem toNumber_of_plainNumber? (h : v.plainNumber? = some n) : v.toNumber = .ok n := by
  cases v with
  | int i => rw [← Option.some.inj h]; rfl
  | float x => rw [← Option.some.inj h]; rfl
  | _ => cases h

/-- Numbers are added as numbers. -/
theorem plus_of_plainNumber? (ha : a.plainNumber? = some m) (hb : b.plainNumber? = some n) :
    a.plus b = (orFault .tooLarge (m.add? n)).map ofNumber := by
  have hsum : a.plus b = do
      let m ← a.toNumber
      let n ← b.toNumber
      return ofNumber (← orFault .tooLarge (m.add? n)) := by
    unfold plus
    split
    · cases ha
    · cases ha
    · cases ha
    · rfl
  rw [hsum, toNumber_of_plainNumber? ha, toNumber_of_plainNumber? hb, ok_bind, ok_bind]
  cases m.add? n with
  | none => rfl
  | some k => rfl

/-- The sum of two numbers that do not lie below zero is one as well, if it can be told. -/
theorem plus_delivers (ha : a.plainNumber? = some m) (hb : b.plainNumber? = some n)
    (hm : m.isNonNegative = true) (hn : n.isNonNegative = true) :
    Delivers (m.add? n = .none) (fun s => ∃ k, s = ofNumber k ∧ m.add? n = some k
      ∧ k.isNonNegative = true) (a.plus b) := by
  rw [plus_of_plainNumber? ha hb]
  cases hsum : m.add? n with
  | none => exact .tooLarge rfl
  | some k => exact .ok ⟨k, rfl, rfl, Number.isNonNegative_add hm hn hsum⟩

end Value

/-- What passes the check of a length does not lie below zero, unless it is not-a-number. -/
theorem isNonNegative_of_requireNonNegative {v : Value} {label : String}
    (h : requireNonNegative v label = .ok ()) (hv : ∀ x, v = .float x → x.place?.isSome) :
    v.isNonNegative = true := by
  unfold requireNonNegative at h
  unfold Value.isNonNegative
  cases hn : v.plainNumber? with
  | none =>
    rw [hn] at h
    cases h
  | some n =>
    rw [hn] at h
    dsimp only at h ⊢
    split at h
    · cases h
    · next hlt =>
      refine Number.isNonNegative_of_not_lt ?_ (Bool.eq_false_iff.mpr hlt)
      cases v with
      | int i =>
        rw [← Option.some.inj hn]
        rfl
      | float x =>
        rw [← Option.some.inj hn]
        exact hv x rfl
      | _ => cases hn

/-! ## Section 2: Timelines -/

namespace Timeline

variable {tl : Timeline} {c : Clip}

/-- A timeline whose length is an integer, or at least does not lie below zero. -/
def Measured (tl : Timeline) : Prop :=
  (∃ i, tl.duration = .int i) ∨ tl.duration.isNonNegative = true

theorem Measured.place (h : tl.Measured) (trackId : Value) (c : Clip) :
    (tl.place trackId c).Measured :=
  h

theorem Measured.exists_plainNumber? (h : tl.Measured) : ∃ n, tl.duration.plainNumber? = some n := by
  rcases h with ⟨i, hi⟩ | hlength
  · exact ⟨.int i, by rw [hi]; rfl⟩
  · obtain ⟨n, hn, -⟩ := Value.exists_plainNumber? hlength
    exact ⟨n, hn⟩

/-- What does not reach as far as a number that does not lie below zero does not lie below it either. -/
theorem Measured.isNonNegative_of_not_lt (h : tl.Measured) {m n : Number}
    (hm : tl.duration.plainNumber? = some m) (hn : n.isNonNegative = true) (hlt : m.lt n = false) :
    tl.duration.isNonNegative = true := by
  rcases h with ⟨i, hi⟩ | hlength
  · rw [hi] at hm
    obtain rfl := Option.some.inj hm
    rw [hi, Value.isNonNegative_int, decide_eq_true_eq]
    by_contra hneg
    rw [Number.lt_of_lt_zero (by omega) hn] at hlt
    cases hlt
  · exact hlength

/-- Each number can be extended. -/
theorem exists_add?_extension (n : Number) : ∃ k, n.add? (.int extension) = some k := by
  cases n with
  | int i => exact ⟨_, rfl⟩
  | float x =>
    have hsmall : extension.natAbs < tenTo 308 :=
      Nat.lt_trans (show 60000 < tenTo 5 by decide) (tenTo_lt (by decide))
    obtain ⟨y, hy⟩ := Option.isSome_iff_exists.mp (Double.isSome_doubleOfInt? hsmall)
    exact ⟨.float (x.add y), by simp [Number.add?, Number.combine?, Number.toDouble?, hy]⟩

/-- A timeline that reaches the end of a clip has no length below zero.  Where the clip ends cannot be
told if its length is a double and its start is beyond all doubles. -/
theorem Measured.extent_delivers (h : tl.Measured) {i : Int} (hstart : c.start = .int i) (hi : 0 ≤ i)
    (hlength : c.duration.isNonNegative = true) :
    Delivers (c.duration.isFloat = true ∧ doubleOfInt? i = none)
      (fun length => length.isNonNegative = true) (tl.extent c) := by
  obtain ⟨m, hm⟩ := h.exists_plainNumber?
  obtain ⟨n, hn, hpos⟩ := Value.exists_plainNumber? hlength
  have hfirst : (Number.int i).isNonNegative = true := by
    rw [Number.isNonNegative_int, decide_eq_true_eq]
    exact hi
  have hstop := Value.plus_delivers (a := c.start) (by rw [hstart]; rfl) hn hfirst hpos
  unfold extent
  refine (hstop.mono ?_ fun _ h => h).bind ?_
  · -- integers can always be added
    intro hnone
    cases hd : c.duration with
    | int j =>
      rw [hd] at hn
      rw [← Option.some.inj hn] at hnone
      cases hnone
    | float y =>
      rw [hd] at hn
      rw [← Option.some.inj hn] at hnone
      refine ⟨rfl, Option.eq_none_iff_forall_ne_some.mpr fun x hx => ?_⟩
      simp [Number.add?, Number.combine?, Number.toDouble?, hx] at hnone
    | _ =>
      rw [hd] at hn
      cases hn
  · rintro stop ⟨k, rfl, hsum, hk⟩
    have hplain : (Value.ofNumber k).plainNumber? = some k := by cases k <;> rfl
    rw [Value.lessThan, Value.toNumber_of_plainNumber? hm, Value.toNumber_of_plainNumber? hplain]
    simp only [ok_bind, pure_eq_ok]
    cases hless : m.lt k with
    | false => exact .ok (h.isNonNegative_of_not_lt hm hk hless)
    | true =>
      -- the timeline reaches a little further than the clip
      have hrest : (Number.int extension).isNonNegative = true := by
        rw [Number.isNonNegative_int]
        rfl
      refine (Value.plus_delivers hplain rfl hk hrest).mono ?_ ?_
      · intro hnone
        obtain ⟨x, hx⟩ := exists_add?_extension k
        rw [hx] at hnone
        cases hnone
      · rintro _ ⟨longer, rfl, -, hlonger⟩
        rwa [Value.isNonNegative_ofNumber]

end Timeline

end Overlay
