import Overlay.Proofs.Number.Spelling

/-!
# Reading back the text of a double

The shortest text of a finite double is read as that double again, in each of the layouts that the
text can have.

## Main statements
- `Double.shortest_reads`: the shortest decimal of a double is read as the double
- `Double.exists_spelling`: so is its text
-/

namespace Overlay.Double

open Overlay.Text Overlay.Number

attribute [local irreducible] twoTo tenTo unitsInOne

/-! ## Section 1: Decimals with an exponent -/

/-- The double nearest `c * 10 ^ (a - b)`. -/
theorem ofScientific_eq_nearest {c : Nat} (hc : c ≠ 0) {e : Int} {w : Nat}
    (hlow : -400 ≤ e + w) (hhigh : e + w ≤ 400) {a b : Nat} (he : e + b = a) (s : Bool) :
    ofScientific s c e w = nearest s (c * tenTo a * unitsInOne) (tenTo b) := by
  unfold ofScientific
  dsimp only
  rw [if_neg hc, if_neg (by omega), if_neg (by omega)]
  cases e with
  | ofNat k =>
    obtain rfl : a = k + b := by
      simp only [Int.ofNat_eq_natCast] at he
      omega
    refine nearest_congr (by decide) (tenTo_pos b) ?_ s
    rw [tenTo_add]
    ring
  | negSucc k =>
    obtain rfl : b = a + (k + 1) := by
      simp only [Int.negSucc_eq] at he
      omega
    refine nearest_congr (tenTo_pos (k + 1)) (tenTo_pos _) ?_ s
    rw [tenTo_add]
    ring

/-- Two ways to write one decimal are read alike. -/
theorem ofScientific_congr {c c' : Nat} (hc : c ≠ 0) (hc' : c' ≠ 0) {e e' : Int} {w w' : Nat}
    (hlow : -400 ≤ e + w) (hhigh : e + w ≤ 400) (hlow' : -400 ≤ e' + w') (hhigh' : e' + w' ≤ 400)
    {j k : Nat} (hcc : c * tenTo j = c' * tenTo k) (hee : e + k = e' + j) (s : Bool) :
    ofScientific s c e w = ofScientific s c' e' w' := by
  -- both exponents are measured from a power of ten below them
  let b := e.natAbs + e'.natAbs
  obtain ⟨a, ha⟩ : ∃ a : Nat, e + b = a := Int.eq_ofNat_of_zero_le (by omega)
  obtain ⟨a', ha'⟩ : ∃ a' : Nat, e' + b = a' := Int.eq_ofNat_of_zero_le (by omega)
  have hcancel : c * tenTo a = c' * tenTo a' := by
    refine Nat.eq_of_mul_eq_mul_right (tenTo_pos j) ?_
    calc c * tenTo a * tenTo j = c * tenTo j * tenTo a := by ring
      _ = c' * tenTo (a + k) := by rw [hcc, tenTo_add]; ring
      _ = c' * tenTo (a' + j) := by rw [show a + k = a' + j by omega]
      _ = c' * tenTo a' * tenTo j := by rw [tenTo_add]; ring
  rw [ofScientific_eq_nearest hc hlow hhigh ha, ofScientific_eq_nearest hc' hlow' hhigh' ha',
    hcancel]

/-- A decimal that is read as a number other than zero lies in the range of doubles. -/
theorem range_of_reads {s : Bool} {c : Nat} {e : Int} {w m p : Nat} {h : Fits m p} (hm : m ≠ 0)
    (hread : ofScientific s c e w = .finite s m p h) :
    c ≠ 0 ∧ -400 ≤ e + w ∧ e + w ≤ 400 := by
  have hzero : signedZero s ≠ .finite s m p h := by
    rw [signedZero, ofParts_of_fits fits_zero]
    intro heq
    injection heq with _ hm0
    exact hm hm0.symm
  unfold ofScientific at hread
  dsimp only at hread
  by_cases hc : c = 0
  · rw [if_pos hc] at hread
    exact absurd hread hzero
  · rw [if_neg hc] at hread
    by_cases hhigh : 400 < e + w
    · rw [if_pos hhigh] at hread
      cases hread
    · rw [if_neg hhigh] at hread
      by_cases hlow : e + w < -400
      · rw [if_pos hlow] at hread
        exact absurd hread hzero
      · exact ⟨hc, by omega, by omega⟩

/-! ## Section 2: The shortest decimal -/

/-- A grid point that is chosen is read back. -/
theorem gridPoint?_reads {x : Double} {a d : Nat} {e : Int} {r : Nat × Int}
    (h : gridPoint? x a d e = some r) : ofDecimal x.isNegative r.1 r.2 = x := by
  unfold gridPoint? at h
  dsimp only at h
  split at h
  · next hlow hhigh =>
    -- both neighbours are read back, and the rounding is one of them
    obtain rfl := Option.some.inj h
    have h1 := le_roundDiv (inSteps a d e).1 (inSteps a d e).2
    have h2 := roundDiv_le (inSteps a d e).1 (inSteps a d e).2
    rcases Nat.lt_or_ge ((inSteps a d e).1 / (inSteps a d e).2)
        (roundDiv (inSteps a d e).1 (inSteps a d e).2) with hlt | hge
    · rw [show roundDiv (inSteps a d e).1 (inSteps a d e).2
          = (inSteps a d e).1 / (inSteps a d e).2 + 1 by omega]
      exact of_decide_eq_true hhigh
    · rw [show roundDiv (inSteps a d e).1 (inSteps a d e).2
          = (inSteps a d e).1 / (inSteps a d e).2 by omega]
      exact of_decide_eq_true hlow
  · next hlow _ =>
    obtain rfl := Option.some.inj h
    exact of_decide_eq_true hlow
  · next _ hhigh =>
    obtain rfl := Option.some.inj h
    exact of_decide_eq_true hhigh
  · cases h

/-- The exact expansion is read back. -/
theorem exactDecimal_reads {s : Bool} {m p : Nat} (h : Fits m p) (hm : m ≠ 0) :
    ofDecimal s (exactDecimal (m * twoTo p)).1 (exactDecimal (m * twoTo p)).2
      = .finite s m p h := by
  have hn : 0 < m * twoTo p := Nat.mul_pos (by omega) (twoTo_pos p)
  have hfive : tenTo 700 ≤ Nat.pow 5 1074 := by decide +kernel
  have hc : m * twoTo p * Nat.pow 5 1074 ≠ 0 := by
    have := Nat.mul_le_mul hn hfive
    have := tenTo_pos 700
    omega
  have hmany : 700 < digitCount (m * twoTo p * Nat.pow 5 1074) := by
    refine lt_digitCount ?_
    have := Nat.mul_le_mul hn hfive
    omega
  have hfew : digitCount (m * twoTo p * Nat.pow 5 1074) ≤ 1400 := by
    refine digitCount_le (by decide) ?_
    have hbits : m * twoTo p ≤ twoTo 53 * twoTo 2045 :=
      Nat.mul_le_mul (Nat.le_of_lt h.1) (twoTo_le h.2.2)
    have hroom : twoTo 53 * twoTo 2045 * Nat.pow 5 1074 < tenTo 1400 := by decide +kernel
    exact Nat.lt_of_le_of_lt (Nat.mul_le_mul_right _ hbits) hroom
  show ofScientific s (m * twoTo p * Nat.pow 5 1074) (-1074)
    (digitCount (m * twoTo p * Nat.pow 5 1074)) = _
  rw [ofScientific_eq_nearest hc (by omega) (by omega) (a := 0) (b := 1074) (by omega)]
  have hvalue : ∀ k, m * twoTo p * Nat.pow 5 k * tenTo 0 * twoTo k = m * twoTo p * tenTo k := by
    intro k
    rw [tenTo_zero, Nat.mul_one, tenTo_eq, Nat.mul_assoc]
  rw [unitsInOne_eq, hvalue 1074, nearest_units_mul h (tenTo_pos 1074)]

/-- The shortest decimal of a double other than zero is read as that double. -/
theorem shortest_reads {s : Bool} {m p : Nat} (h : Fits m p) (hm : m ≠ 0) :
    ofDecimal s (shortest (.finite s m p h)).1 (shortest (.finite s m p h)).2
      = .finite s m p h := by
  have hn : m * twoTo p ≠ 0 := Nat.mul_ne_zero hm (Nat.pos_iff_ne_zero.mp (twoTo_pos p))
  unfold shortest
  dsimp only
  rw [if_neg hn]
  cases hfind : (List.range 17).findSome? fun i =>
      gridPoint? (.finite s m p h) (m * twoTo p) unitsInOne
        (decimalExponent (m * twoTo p) unitsInOne - (i : Nat)) with
  | none => exact exactDecimal_reads h hm
  | some r =>
    obtain ⟨i, -, hi⟩ := List.exists_of_findSome?_eq_some hfind
    exact gridPoint?_reads hi

/-! ## Section 3: Layouts -/

/-- Digits around a point stand for the row of digits, moved by powers of ten. -/
structure Placed (ds : List Char) (position : Int) (r : List Char × List Char) : Prop where
  left_digits : Digits r.1
  left_ne_nil : r.1 ≠ []
  right_digits : Digits r.2
  value : ∃ j : Nat, ofNumeral (r.1 ++ r.2) = ofNumeral ds * tenTo j
    ∧ position + r.2.length = ds.length + j

/-- The point of positional notation falls on the right place. -/
theorem placed_pointAt {ds : List Char} (hd : Digits ds) (hne : ds ≠ []) (position : Int) :
    Placed ds position (pointAt ds position) := by
  have hzero : Digits ['0'] := Digits.replicate_zero 1
  cases position with
  | negSucc k =>
    have hds := ofNumeral_zeros_append (k + 1 + 1) ds
    refine ⟨hzero, by simp [pointAt], (Digits.replicate_zero _).append hd, 0, ?_, ?_⟩
    · rw [tenTo_zero, Nat.mul_one, ← hds]
      rfl
    · simp only [pointAt, Int.negSucc_eq, List.length_append, List.length_replicate]
      omega
  | ofNat k =>
    simp only [pointAt]
    split
    · next hk0 =>
      have hds := ofNumeral_zeros_append 1 ds
      refine ⟨hzero, by simp, hd, 0, ?_, ?_⟩
      · rw [tenTo_zero, Nat.mul_one, ← hds]
        rfl
      · simp [hk0]
    · next hk0 =>
      rcases Nat.lt_or_ge ds.length k with hshort | hlong
      · -- zeros fill the gap in front of the point
        have htake : ds.take k = ds := List.take_of_length_le (by omega)
        have hdrop : ds.drop k = [] := List.drop_of_length_le (by omega)
        rw [htake, hdrop]
        refine ⟨hd.append (Digits.replicate_zero _), by simp [hne], Digits.nil, k - ds.length, ?_, ?_⟩
        · rw [List.append_nil, ofNumeral_append_zeros]
        · simp only [Int.ofNat_eq_natCast, List.length_nil]
          omega
      · rw [Nat.sub_eq_zero_of_le hlong, List.replicate_zero, List.append_nil]
        refine ⟨hd.take k, ?_, hd.drop k, 0, ?_, ?_⟩
        · rw [ne_eq, List.take_eq_nil_iff]
          simp [hk0, hne]
        · rw [List.take_append_drop, tenTo_zero, Nat.mul_one]
        · simp only [Int.ofNat_eq_natCast, List.length_drop]
          omega

/-- What a layout of digits has to stand for: the row of digits, moved by powers of ten. -/
structure Spells (s : Bool) (ds : List Char) (position : Int) (w : Spelling) : Prop where
  negative_eq : w.negative = s
  not_whole : (w.places.isNone && w.exponent.isNone) = false
  value : ∃ j : Nat, ofNumeral w.digits = ofNumeral ds * tenTo j
    ∧ w.power + j = position - ds.length

theorem positional_spells {ds : List Char} (hd : Digits ds) (hne : ds ≠ []) (position : Int)
    (s : Bool) :
    ∃ w : Spelling, withSign s (positional ds position) = w.chars ∧ Spells s ds position w := by
  obtain ⟨hleft, hnil, hright, j, hvalue, hplace⟩ := placed_pointAt hd hne position
  unfold positional
  dsimp only
  generalize pointAt ds position = r at *
  cases hempty : r.2.isEmpty with
  | false =>
    refine ⟨⟨s, r.1, some r.2, none, hleft, hnil, hright⟩, ?_, rfl, rfl, j, hvalue, ?_⟩
    · simp [Spelling.chars, Spelling.magnitude, Spelling.pointed, Spelling.raised]
    · simp only [Spelling.power, Option.getD_some, Option.getD_none]
      omega
  | true =>
    -- a number without places is given the place `0`
    have hright_nil : r.2 = [] := List.isEmpty_iff.mp hempty
    rw [hright_nil, List.append_nil] at hvalue
    rw [hright_nil, List.length_nil] at hplace
    have hzero : Digits ['0'] := Digits.replicate_zero 1
    refine ⟨⟨s, r.1, some ['0'], none, hleft, hnil, hzero⟩, ?_, rfl, rfl, j + 1, ?_, ?_⟩
    · simp [Spelling.chars, Spelling.magnitude, Spelling.pointed, Spelling.raised]
    · have hlast := ofNumeral_append_zeros r.1 1
      rw [List.replicate_one] at hlast
      simp only [Spelling.digits, Option.getD_some]
      rw [hlast, hvalue, tenTo_add, Nat.mul_assoc]
    · simp only [Spelling.power, Option.getD_some, Option.getD_none, List.length_singleton]
      omega

theorem scientific_spells {ds : List Char} (hd : Digits ds) (hne : ds ≠ []) (position : Int)
    (s : Bool) :
    ∃ w : Spelling, withSign s (pointAfterFirst ds ++ exponentChars (position - 1)) = w.chars
      ∧ Spells s ds position w := by
  match ds, hd, hne with
  | [d], hd, _ =>
    refine ⟨⟨s, [d], none, some (position - 1), hd, by simp, Digits.nil⟩, rfl, rfl, rfl, 0, ?_, ?_⟩
    · rw [tenTo_zero, Nat.mul_one]
      rfl
    · simp only [Spelling.power, Option.getD_some, Option.getD_none, List.length_nil,
        List.length_singleton]
      omega
  | d :: c :: r, hd, _ =>
    have hhead : Digits [d] := hd.take 1
    have htail : Digits (c :: r) := hd.drop 1
    refine ⟨⟨s, [d], some (c :: r), some (position - 1), hhead, by simp, htail⟩, ?_, rfl, rfl, 0, ?_,
      ?_⟩
    · simp [Spelling.chars, Spelling.magnitude, Spelling.pointed, Spelling.raised, pointAfterFirst]
    · rw [tenTo_zero, Nat.mul_one]
      rfl
    · simp only [Spelling.power, Option.getD_some, List.length_cons]
      omega

/-! ## Section 4: The text of a double -/

/-- A spelling of the digits of a decimal is read as the decimal is. -/
theorem doubleOf_spells {s : Bool} {m p : Nat} {h : Fits m p} (hm : m ≠ 0) {c : Nat} {e : Int}
    (hread : ofDecimal s c e = .finite s m p h) {w : Spelling}
    (hw : Spells s (dropTrailingZeros (numeral c)) (e + (numeral c).length) w) :
    Scanner.doubleOf w.chars = .finite s m p h := by
  obtain ⟨hc, hlow, hhigh⟩ := range_of_reads hm hread
  have hnum : ofNumeral (numeral c) ≠ 0 := by
    rw [ofNumeral_numeral]
    exact hc
  obtain ⟨k, hk⟩ := dropTrailingZeros_append hnum
  obtain ⟨j, hvalue, hpower⟩ := hw.value
  have hcoeff : c = ofNumeral (dropTrailingZeros (numeral c)) * tenTo k := by
    rw [← ofNumeral_append_zeros, ← hk, ofNumeral_numeral]
  have hlen : (numeral c).length = (dropTrailingZeros (numeral c)).length + k := by
    conv_lhs => rw [hk]
    simp
  have hdigits : ofNumeral w.digits ≠ 0 := by
    rw [hvalue]
    intro hzero
    rcases Nat.mul_eq_zero.mp hzero with h0 | h0
    · rw [h0, Nat.zero_mul] at hcoeff
      exact hc hcoeff
    · exact absurd h0 (Nat.pos_iff_ne_zero.mp (tenTo_pos j))
  have hcross : ofNumeral w.digits * tenTo k = c * tenTo j := by
    rw [hvalue]
    conv_rhs => rw [hcoeff]
    ring
  have hcount : digitCount (ofNumeral w.digits) + k = digitCount c + j := by
    rw [← digitCount_mul_tenTo hdigits, ← digitCount_mul_tenTo hc, hcross]
  have hchars : Scanner.doubleOf w.chars = ofDecimal s (ofNumeral w.digits) w.power := by
    simp [Scanner.doubleOf, w.read?_chars, Scientific.toDouble, hw.negative_eq]
  rw [hchars, ← hread, ofDecimal, ofDecimal]
  exact ofScientific_congr hdigits hc (by omega) (by omega) hlow hhigh hcross (by omega) s

/-- A zero keeps its sign in its text. -/
theorem zero_spelling (s : Bool) (h : Fits 0 0) :
    ∃ w : Spelling, (Double.finite s 0 0 h).chars = w.chars
      ∧ Scanner.doubleOf w.chars = .finite s 0 0 h
      ∧ Scanner.isWholeText w.chars = false := by
  have hzero : Digits ['0'] := Digits.replicate_zero 1
  have hread : ofNumeral ['0', '0'] = 0 := by decide +kernel
  let w : Spelling := ⟨s, ['0'], some ['0'], none, hzero, by simp, hzero⟩
  refine ⟨w, ?_, ?_, ?_⟩
  · simp [chars, isFinite, shortest, isNegative, w, Spelling.chars, Spelling.magnitude,
      Spelling.pointed, Spelling.raised]
  · rw [Scanner.doubleOf, w.read?_chars]
    simp [Scientific.toDouble, w, Spelling.digits, hread, ofDecimal, ofScientific, signedZero,
      ofParts_of_fits h]
  · rw [w.isWholeText_chars]
    rfl

/-- The text of a finite double is a written number that is read as the double, and it is not
written as a whole number. -/
theorem exists_spelling {x : Double} (hx : x.isFinite = true) :
    ∃ w : Spelling, x.chars = w.chars ∧ Scanner.doubleOf w.chars = x
      ∧ Scanner.isWholeText w.chars = false := by
  cases x with
  | nan => cases hx
  | infinite s => cases hx
  | finite s m p h =>
    by_cases hm : m = 0
    · subst hm
      obtain rfl : p = 0 := by
        rcases h.2.1 with hfull | hp
        · exact absurd hfull (Nat.not_le.mpr (twoTo_pos 52))
        · exact hp
      exact zero_spelling s h
    · have hread := shortest_reads h hm (s := s)
      obtain ⟨hc, -⟩ := range_of_reads hm hread
      have hnum : ofNumeral (numeral (shortest (.finite s m p h)).1) ≠ 0 := by
        rw [ofNumeral_numeral]
        exact hc
      have hds : Digits (dropTrailingZeros (numeral (shortest (.finite s m p h)).1)) := by
        obtain ⟨k, hk⟩ := dropTrailingZeros_append hnum
        intro d hd
        refine numeral_digits (shortest (.finite s m p h)).1 d ?_
        rw [hk]
        exact List.mem_append_left _ hd
      have hne : dropTrailingZeros (numeral (shortest (.finite s m p h)).1) ≠ [] := by
        unfold dropTrailingZeros
        split
        · simp
        · next h0 => exact h0
      unfold chars
      rw [if_pos hx]
      dsimp only
      rw [if_neg hc, isNegative]
      split
      · obtain ⟨w, hw, hspells⟩ := positional_spells hds hne _ s
        exact ⟨w, hw, doubleOf_spells hm hread hspells,
          by rw [w.isWholeText_chars, hspells.not_whole]⟩
      · obtain ⟨w, hw, hspells⟩ := scientific_spells hds hne _ s
        exact ⟨w, hw, doubleOf_spells hm hread hspells,
          by rw [w.isWholeText_chars, hspells.not_whole]⟩

end Overlay.Double
