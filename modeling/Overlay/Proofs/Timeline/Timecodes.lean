import Overlay.Proofs.Number.Decimals
import Overlay.Proofs.Script.LineBreaks
import Overlay.Proofs.Timeline.Times

/-!
# Times that are shown and read again

A time is shown as minutes, seconds and milliseconds, with hours in front where there are any.  Reading
the fields takes sums and products of decimal numbers, which are exact as long as no more than 28
digits are needed.  So what is shown is read back.

## Main definitions
- `Timecode.wholeField`, `Timecode.secondsField`: the fields as written numbers

## Main statements
- `Timecode.secondsOf_withPlaces`: the seconds of three fields
- `Timecode.readText_clock`: the fields of a time that is shown stand for its seconds
- `Timecode.readMs_format`: what is shown is read back
-/

namespace Overlay

open Overlay.Text Overlay.Number

theorem Number.tenTo_three : tenTo 3 = 1000 :=
  rfl

theorem Decimal.tenTo_precision : tenTo Decimal.precision = 10 ^ 28 :=
  rfl

attribute [local irreducible] tenTo

namespace Timecode

open Decimal

/-! ## Section 1: Fields -/

/-- The hours or minutes of a time. -/
def wholeField (n : Nat) : Spelling where
  negative := false
  whole := padded 2 n
  places := none
  exponent := none
  whole_digits := padded_digits 2 n
  whole_ne_nil := padded_ne_nil 2 n
  places_digits := Digits.nil

/-- The seconds of a time, with the milliseconds behind the point. -/
def secondsField (s f : Nat) : Spelling where
  negative := false
  whole := padded 2 s
  places := some (padded 3 f)
  exponent := none
  whole_digits := padded_digits 2 s
  whole_ne_nil := padded_ne_nil 2 s
  places_digits := padded_digits 3 f

theorem wholeField_chars (n : Nat) : (wholeField n).chars = padded 2 n := by
  simp [Spelling.chars, Spelling.magnitude, Spelling.pointed, Spelling.raised, wholeField,
    Double.withSign]

theorem secondsField_chars (s f : Nat) :
    (secondsField s f).chars = padded 2 s ++ '.' :: padded 3 f := by
  simp [Spelling.chars, Spelling.magnitude, Spelling.pointed, Spelling.raised, secondsField,
    Double.withSign]

theorem read?_wholeField {n : Nat} (hn : n < tenTo precision) :
    WideDecimal.read? (wholeField n).chars = some (.finite (withPlaces n 0)) := by
  have hdigits : ofNumeral (wholeField n).digits = n := by
    simp [Spelling.digits, wholeField, ofNumeral_padded]
  rw [WideDecimal.read?, read?_withPlaces rfl rfl (hdigits.symm ▸ hn) (Nat.zero_le _), hdigits]
  rfl

theorem read?_secondsField {s f : Nat} (hf : f < 1000) (hs : s * 1000 + f < tenTo precision) :
    WideDecimal.read? (secondsField s f).chars = some (.finite (withPlaces (s * 1000 + f) 3)) := by
  have hlength : (padded 3 f).length = 3 := by
    rw [length_padded]
    exact max_eq_left (digitCount_le (by decide) (tenTo_three.symm ▸ hf))
  have hdigits : ofNumeral (secondsField s f).digits = s * 1000 + f := by
    simp [Spelling.digits, secondsField, ofNumeral_append, ofNumeral_padded, hlength, tenTo_three]
  have hplaces : ((secondsField s f).places.getD []).length = 3 := hlength
  rw [WideDecimal.read?, read?_withPlaces rfl rfl (hdigits.symm ▸ hs) (by rw [hplaces]; decide), hdigits,
    hplaces]

/-- Finite numbers have the sums and products that they have among themselves. -/
theorem times_finite {x n y : Decimal} (h : x.mul n = some y) :
    (WideDecimal.finite x).times n = .ok (.finite y) := by
  rw [WideDecimal.times, h, WideDecimal.ofResult]

theorem plus_finite {x y z : Decimal} (h : x.add y = some z) :
    (WideDecimal.finite x).plus (.finite y) = .ok (.finite z) := by
  rw [WideDecimal.plus, h, WideDecimal.ofResult]

/-- The seconds of three fields, the last of them with places. -/
theorem secondsOf_withPlaces {h m s k : Nat}
    (hfew : (h * 3600 + m * 60) * tenTo k + s < tenTo precision) (hk : k ≤ reach) :
    secondsOf (.finite (withPlaces h 0)) (.finite (withPlaces m 0)) (.finite (withPlaces s k))
      = .ok (.finite (withPlaces ((h * 3600 + m * 60) * tenTo k + s) k)) := by
  -- the whole seconds have no more digits than the sum with places has
  have hwhole : h * 3600 + m * 60 < tenTo precision :=
    lt_of_le_of_lt ((Nat.le_mul_of_pos_right _ (tenTo_pos k)).trans (Nat.le_add_right _ s)) hfew
  have hhour : Decimal.ofInt 3600 = withPlaces 3600 0 := ofInt_natCast 3600
  have hminute : Decimal.ofInt 60 = withPlaces 60 0 := ofInt_natCast 60
  have hhours := mul_withPlaces (lt_of_le_of_lt (Nat.le_add_right _ _) hwhole) (Nat.zero_le reach)
  have hminutes := mul_withPlaces (lt_of_le_of_lt (Nat.le_add_left _ _) hwhole) (Nat.zero_le reach)
  have hsum : (withPlaces (h * 3600) 0).add (withPlaces (m * 60) 0)
      = some (withPlaces (h * 3600 + m * 60) 0) := by
    have hadd := @add_withPlaces (h * 3600) (m * 60) 0
    rw [tenTo_zero, Nat.mul_one] at hadd
    exact hadd hwhole (Nat.zero_le _)
  rw [secondsOf, hhour, hminute, times_finite hhours, ok_bind, times_finite hminutes, ok_bind,
    plus_finite hsum, ok_bind, plus_finite (add_withPlaces hfew hk)]

/-! ## Section 2: Times -/

/-- The fields of a time, the hours only where there are any. -/
def fields (ms : Nat) : List Spelling :=
  let short := [wholeField (ms / 1000 / 60 % 60), secondsField (ms / 1000 % 60) (ms % 1000)]
  if 0 < ms / 1000 / 60 / 60 then wholeField (ms / 1000 / 60 / 60) :: short else short

/-- A time is shown as its fields with colons between them. -/
theorem clock_eq_joinWith (ms : Nat) : clock ms = joinWith [':'] ((fields ms).map Spelling.chars) := by
  rw [clock, fields]
  split
  · simp [joinWith, wholeField_chars, secondsField_chars]
  · simp [joinWith, wholeField_chars, secondsField_chars]

theorem pieces_clock (ms : Nat) : pieces ':' (clock ms) = (fields ms).map Spelling.chars := by
  rw [clock_eq_joinWith]
  refine pieces_joinWith ?_ ?_
  · rw [fields]
    split <;> simp
  · rw [List.forall_mem_map]
    rintro w - c hc rfl
    exact absurd (w.isNumberChar_of_mem hc) (by decide)

theorem strip_clock (ms : Nat) : strip (clock ms) = clock ms := by
  have hfields : ∀ l ∈ (fields ms).map Spelling.chars, Avoids isBlank l := by
    rw [List.forall_mem_map]
    exact fun w _ c hc => (Spelling.visible_of_isNumberChar (w.isNumberChar_of_mem hc)).1
  rw [clock_eq_joinWith]
  exact strip_eq_self (joinWith_avoids (by decide) hfields)

/-- The fields of a time stand for its seconds, with the milliseconds behind the point. -/
theorem readText_clock {ms : Nat} (hms : ms < tenTo precision) (unread : Fault) :
    readText (clock ms) unread = .ok (withPlaces ms 3) := by
  -- the hours may take any number of digits, the other fields are remainders
  generalize hh : ms / 1000 / 60 / 60 = h
  generalize hm : ms / 1000 / 60 % 60 = m
  generalize hs : ms / 1000 % 60 = s
  generalize hf : ms % 1000 = f
  have hwhole : (h * 3600 + m * 60) * 1000 + (s * 1000 + f) = ms := by omega
  have hsum := @secondsOf_withPlaces h m (s * 1000 + f) 3
  rw [tenTo_three, hwhole] at hsum
  have htotal := hsum hms (by decide)
  have hhours := @read?_wholeField h (by omega)
  have hminutes := @read?_wholeField m (by omega)
  have hseconds := @read?_secondsField s f (by omega) (by omega)
  rw [readText, strip_clock, pieces_clock, fields, hh, hm, hs, hf]
  by_cases hany : 0 < h
  · simp only [if_pos hany, List.map_cons, List.map_nil, hseconds, hminutes, hhours, htotal,
      orFault_some, ok_bind, settle]
  · -- without a field for the hours zero is added for them
    obtain rfl : h = 0 := by omega
    have hnone : Decimal.ofInt 0 = withPlaces 0 0 := ofInt_natCast 0
    simp only [if_neg hany, List.map_cons, List.map_nil, hseconds, hminutes, hnone, htotal,
      orFault_some, ok_bind, settle]

theorem hasFields_clock (ms : Nat) : hasFields (.text (String.ofList (clock ms))) = true := by
  rw [hasFields, String.toList_ofList, clock]
  split <;> simp

/-- A time is shown if its hours have not too many digits. -/
theorem format_int {ms : Int} (hhours : hasText (ms.toNat / hourLength : Nat) = true) :
    format (.int ms) = .ok (String.ofList (clock ms.toNat)) := by
  have hshown : (if 0 < ms then Value.int ms else .int 0) = .int (ms.toNat : Int) := by
    split
    · rw [Int.toNat_of_nonneg (by omega)]
    · rw [Int.toNat_of_nonpos (by omega)]
      rfl
  have hwhole : (Value.int (ms.toNat : Int)).toInt = .ok (ms.toNat : Int) := rfl
  rw [format, Value.atLeastZero_of_whole? rfl, hshown, ok_bind, hwhole, ok_bind, Int.toNat_natCast,
    if_pos hhours, pure_eq_ok]

/-- A time that is shown is read back; the bound leaves digits for the places and for the thousand
that seconds are multiplied with. -/
theorem readMs_format {ms : Int} (hms : 0 ≤ ms) (hsmall : ms < 10 ^ 24) (label : String) :
    (format (.int ms) >>= fun s => readMs (.text s) label) = .ok ms := by
  obtain ⟨n, rfl⟩ := Int.eq_ofNat_of_zero_le hms
  have hdigits := tenTo_precision
  have hread := @readText_clock n (by omega)
    (.refused (.timeText label (.text (String.ofList (clock n)))))
  have hthousand : Decimal.ofInt 1000 = withPlaces 1000 0 := ofInt_natCast 1000
  have hmul := @mul_withPlaces n 1000 3 (by omega) (by decide)
  have hround := roundToInt_withPlaces n 3
  rw [tenTo_three] at hround
  have hhours : hasText ((n : Int).toNat / hourLength : Nat) = true := by
    refine hasText_of_lt (k := 28) (by decide) ?_
    have hpower : tenTo 28 = 10 ^ 28 := tenTo_precision
    have hdiv := Nat.div_le_self n hourLength
    rw [Int.toNat_natCast, Int.natAbs_natCast]
    omega
  rw [format_int hhours, ok_bind, Int.toNat_natCast, readMs, read, String.toList_ofList, hread, ok_bind,
    hasFields_clock, hthousand, hmul]
  simp [hround]

/-- A time of more than a day, and the label that is used where none is given. -/
theorem readMs_format_day :
    (format (.int 123456789) >>= fun s => readMs (.text s) "time value") = .ok 123456789 :=
  readMs_format (by decide) (by decide) "time value"

end Timecode

end Overlay
