import Overlay.Proofs.Number.Thousandths
import Overlay.Proofs.Results
import Overlay.Proofs.Script.Words

/-!
# Numbers of a script line

Whatever number the writer puts into a line, the scanner reads the same number: integers and whole
doubles as integers, other doubles as themselves, colors from their hexadecimal digits, percentages
as texts and lengths of time as doubles.

## Main definitions
- `bare`: a number as the scanner gives it back
- `IsSpelling`: the text of a written number that is read as a value

## Main statements
- `isSpelling_int`, `exists_isSpelling_double`: numbers are written so that they are read back
- `bare_int`: integers of moderate size stay as they are
- `numeric_gap`, `numeric_percent`, `numeric_seconds`: written numbers in front of what follows
- `numeric_color`: colors
-/

namespace Overlay.Scanner

open Overlay.Text Overlay.Number

attribute [local irreducible] twoTo tenTo Double.unitsInOne

/-! ## Section 1: Integers -/

/-- The double that the digits of an integer stand for is the nearest one; beyond `10^400` both are
infinite. -/
theorem doubleOf_intChars (i : Int) : doubleOf (intChars i) = Double.ofInt i := by
  have hread : doubleOf (intChars i)
      = Double.ofScientific (decide (i < 0)) i.natAbs 0 (digitCount i.natAbs) := by
    rw [← Spelling.ofInt_chars, doubleOf, Spelling.read?_chars]
    simp [Spelling.ofInt, Spelling.digits, Spelling.power, Scientific.toDouble, Double.ofDecimal,
      ofNumeral_numeral]
  rw [hread, Double.ofInt]
  by_cases hzero : i.natAbs = 0
  · obtain rfl : i = 0 := Int.natAbs_eq_zero.mp hzero
    have hsign : decide ((0 : Int) < 0) = false := rfl
    unfold Double.ofScientific
    dsimp only
    rw [if_pos hzero, hsign, Double.signedZero_false]
    rfl
  rcases Nat.lt_or_ge i.natAbs (tenTo 400) with hsmall | hlarge
  · have hcount : digitCount i.natAbs ≤ 400 := digitCount_le (by decide) hsmall
    rw [Double.ofScientific_eq_nearest hzero (by omega) (by omega) (a := 0) (b := 0) rfl, tenTo_zero,
      Nat.mul_one]
  · have hcount : 400 < digitCount i.natAbs := lt_digitCount hlarge
    rw [Double.nearest_eq_infinite hlarge]
    unfold Double.ofScientific
    dsimp only
    rw [if_neg hzero, if_pos (by omega)]

/-- A number as the scanner gives it back: whole doubles become integers, and integers beyond the
largest double become infinite. -/
def bare : Number → Value
  | .int i => if (Double.ofInt i).isFinite then .int i else .float (Double.ofInt i)
  | .float x => if x.isWhole then .int x.truncate else .float x

/-- Integers of moderate size stay as they are. -/
theorem bare_int {i : Int} (hi : i.natAbs < tenTo 308) : bare (.int i) = .int i := by
  have hfinite : (Double.ofInt i).isFinite = true := Double.isFinite_nearest hi _
  rw [bare, if_pos hfinite]

theorem splitSign_intChars (i : Int) :
    splitSign (intChars i) = (decide (i < 0), numeral i.natAbs) := by
  rw [← Spelling.ofInt_chars, Spelling.splitSign_chars]
  simp [Spelling.ofInt, Spelling.magnitude, Spelling.pointed, Spelling.raised]

/-- The digits of an integer are read back. -/
theorem ofNumber_numberOf_intChars (i : Int) :
    Value.ofNumber (numberOf (intChars i)) = bare (.int i) := by
  have htext : isWholeText (intChars i) = true := by
    rw [← Spelling.ofInt_chars, Spelling.isWholeText_chars]
    rfl
  have hsigned : Double.signed (decide (i < 0)) i.natAbs = i := by
    by_cases hneg : i < 0
    · simp only [Double.signed, hneg, decide_true, if_true]
      omega
    · simp only [Double.signed, hneg, decide_false, Bool.false_eq_true, if_false]
      omega
  unfold numberOf
  simp only [doubleOf_intChars, Double.isWhole_ofInt, htext, Bool.and_true, splitSign_intChars,
    ofNumeral_numeral, hsigned]
  rw [bare]
  cases (Double.ofInt i).isFinite with
  | true => rfl
  | false => rfl

/-- The digits of an integer are never too many to be read: where they might be, the double that they
stand for is infinite. -/
theorem isTooLong_intChars (i : Int) : isTooLong (intChars i) = false := by
  unfold isTooLong
  rcases Nat.lt_or_ge i.natAbs (tenTo 400) with hsmall | hlarge
  · have hcount : digitCount i.natAbs ≤ 400 := digitCount_le (by decide) hsmall
    have hlimit : ¬maxIntDigits < digitCount i.natAbs := by
      unfold maxIntDigits
      omega
    rw [splitSign_intChars, length_numeral, decide_eq_false hlimit, Bool.and_false]
  · have hinfinite : (Double.ofInt i).isWhole = false := by
      rw [Double.ofInt, Double.nearest_eq_infinite hlarge]
      rfl
    rw [doubleOf_intChars, hinfinite, Bool.false_and, Bool.false_and]

/-- A text is that of a written number which is read as a value. -/
structure IsSpelling (text : List Char) (v : Value) (w : Spelling) : Prop where
  chars_eq : text = w.chars
  isShort : isTooLong w.chars = false
  read_eq : Value.ofNumber (numberOf w.chars) = v

/-- Integers are written as numbers that are read back. -/
theorem isSpelling_int (i : Int) : IsSpelling (intChars i) (bare (.int i)) (Spelling.ofInt i) := by
  refine ⟨(Spelling.ofInt_chars i).symm, ?_, ?_⟩
  · rw [Spelling.ofInt_chars, isTooLong_intChars]
  · rw [Spelling.ofInt_chars, ofNumber_numberOf_intChars]

/-! ## Section 2: Doubles -/

/-- The whole part of a whole double is whole as a double again. -/
theorem isWhole_ofInt_truncate {x : Double} (hx : x.isWhole = true) :
    (Double.ofInt x.truncate).isWhole = true := by
  cases x with
  | nan => cases hx
  | infinite s => cases hx
  | finite s m p h =>
    by_cases hm : m = 0
    · -- a negative zero has lost its sign, and is whole as zero
      have hzero : (Double.finite s m p h).truncate = 0 := by
        simp [Double.truncate, Double.units, Double.signed, hm]
      rw [hzero]
      decide +kernel
    · rw [Double.ofInt_truncate hx (Or.inl hm)]
      exact hx

/-- Finite doubles are read back, whole ones as integers. -/
theorem exists_isSpelling_double {x : Double} (hx : x.isFinite = true) :
    ∃ w, IsSpelling (Literal.double x) (bare (.float x)) w := by
  cases hwhole : x.isWhole with
  | true =>
    have hint := isSpelling_int x.truncate
    refine ⟨Spelling.ofInt x.truncate, ?_, hint.isShort, ?_⟩
    · rw [Literal.double, if_pos hwhole, hint.chars_eq]
    · have hfinite : (Double.ofInt x.truncate).isFinite = true := by
        rw [← Double.isWhole_ofInt, isWhole_ofInt_truncate hwhole]
      rw [hint.read_eq, bare, bare, if_pos hfinite, if_pos hwhole]
  | false =>
    obtain ⟨w, hchars, hdouble, -⟩ := Double.exists_spelling hx
    refine ⟨w, ?_, ?_, ?_⟩
    · rw [Literal.double, if_neg (by simp [hwhole]), hchars]
    · simp [isTooLong, hdouble, hwhole]
    · simp [numberOf, hdouble, hwhole, Value.ofNumber, bare]

/-- The seconds that a written double stands for are the double, unless it is a negative zero. -/
theorem secondsOf_bare {s : Bool} {m p : Nat} {h : Double.Fits m p} (hs : m ≠ 0 ∨ s = false)
    {w : Spelling} (hread : Value.ofNumber (numberOf w.chars) = bare (.float (.finite s m p h))) :
    secondsOf w.chars = .finite s m p h := by
  unfold secondsOf
  cases hwhole : (Double.finite s m p h).isWhole with
  | true =>
    simp only [bare, hwhole, if_true] at hread
    cases hn : numberOf w.chars with
    | float y => rw [hn] at hread; cases hread
    | int i =>
      rw [hn] at hread
      obtain rfl := Value.int.inj hread
      exact Double.ofInt_truncate hwhole hs
  | false =>
    simp only [bare, hwhole, Bool.false_eq_true, if_false] at hread
    cases hn : numberOf w.chars with
    | int i => rw [hn] at hread; cases hread
    | float y =>
      rw [hn] at hread
      exact Value.float.inj hread

/-! ## Section 3: Lengths of time -/

/-- Milliseconds are written as seconds that are read back. -/
theorem exists_spelling_seconds {ms : Nat} (hms : ms < twoTo 54) :
    ∃ w : Spelling, Literal.seconds (.int ms) = .ok w.chars ∧ isTooLong w.chars = false
      ∧ secondsOf w.chars = Double.ofQuotient ms 1000 := by
  obtain ⟨m, p, h, hx⟩ := Double.exists_thousandth_eq_finite hms
  obtain ⟨w, hw, hshort, hread⟩ := exists_isSpelling_double (x := Double.finite false m p h) rfl
  refine ⟨w, ?_, hshort, ?_⟩
  · have hthousandth : Number.thousandth? (.int ms) = some (.finite false m p h) := by
      unfold Number.thousandth?
      dsimp only
      rw [hx, if_pos]
      rfl
    rw [Literal.seconds, Value.toNumber, Value.number?, orFault_some, ok_bind, hthousandth,
      orFault_some, ok_bind, hw, pure_eq_ok]
  · rw [hx]
    exact secondsOf_bare (Or.inr rfl) hread

/-! ## Section 4: Colors -/

/-- The characters that the scanner takes for hexadecimal digits. -/
def isHexDigit (c : Char) : Bool :=
  c.isDigit || (0x61 ≤ c.toNat && c.toNat ≤ 0x66) || (0x41 ≤ c.toNat && c.toNat ≤ 0x46)

theorem hexDigit_spec {d : Nat} (h : d < 16) :
    isHexDigit (hexDigit d) = true ∧ hexValue? (hexDigit d) = some d := by
  have hall : ∀ e ∈ List.range 16,
      isHexDigit (hexDigit e) = true ∧ hexValue? (hexDigit e) = some e := by decide
  exact hall d (List.mem_range.mpr h)

theorem isHexDigit_of_mem_hexNumeral (n : Nat) : ∀ c ∈ Literal.hexNumeral n, isHexDigit c = true := by
  induction n using Nat.strongRecOn with
  | ind n ih =>
    intro c hc
    rw [Literal.hexNumeral] at hc
    split at hc
    · next h =>
      rw [List.mem_singleton.mp hc]
      exact (hexDigit_spec h).1
    · next h =>
      rcases List.mem_append.mp hc with hc | hc
      · exact ih (n / 16) (by omega) c hc
      · rw [List.mem_singleton.mp hc]
        exact (hexDigit_spec (by omega)).1

theorem hexNumeral_ne_nil (n : Nat) : Literal.hexNumeral n ≠ [] := by
  rw [Literal.hexNumeral]
  split <;> simp

theorem ofHex_hexNumeral (n : Nat) : ofHex (Literal.hexNumeral n) = n := by
  induction n using Nat.strongRecOn with
  | ind n ih =>
    rw [Literal.hexNumeral]
    split
    · next h => simp [ofHex, (hexDigit_spec h).2]
    · next h =>
      have hprev := ih (n / 16) (by omega)
      rw [ofHex] at hprev ⊢
      rw [List.foldl_append, hprev, List.foldl_cons, List.foldl_nil,
        (hexDigit_spec (by omega : n % 16 < 16)).2, Option.getD_some]
      omega

/-- Zeros in front of hexadecimal digits do not count. -/
theorem ofHex_zeros_append (k : Nat) (ds : List Char) :
    ofHex (List.replicate k '0' ++ ds) = ofHex ds := by
  induction k with
  | zero => rfl
  | succ k ih =>
    rw [List.replicate_succ, List.cons_append, ← ih]
    rfl

/-- A color is read back, however large its number is. -/
theorem hex?_color (n : Nat) {rest : List Char} (h : AtGap rest) :
    hex? (Literal.color n ++ rest) = some (n, rest) := by
  let ds := List.replicate (6 - (Literal.hexNumeral n).length) '0' ++ Literal.hexNumeral n
  have hds : ∀ c ∈ ds, isHexDigit c = true := by
    intro c hc
    rcases List.mem_append.mp hc with hc | hc
    · rw [List.eq_of_mem_replicate hc]
      decide
    · exact isHexDigit_of_mem_hexNumeral n c hc
  have hspan : (ds ++ rest).span isHexDigit = (ds, rest) :=
    span_append hds (h.startsOutside (by decide) (by decide))
  have hnil : ds.isEmpty = false := by
    simp [ds, hexNumeral_ne_nil]
  have hvalue : ofHex ds = n := by
    rw [ofHex_zeros_append, ofHex_hexNumeral]
  have hcolor : Literal.color n ++ rest = '0' :: 'x' :: (ds ++ rest) := by
    simp [Literal.color, ds]
  rw [hcolor]
  show (if ((ds ++ rest).span isHexDigit).1.isEmpty then none
    else some (ofHex ((ds ++ rest).span isHexDigit).1, ((ds ++ rest).span isHexDigit).2))
    = some (n, rest)
  simp only [hspan, hnil, hvalue, Bool.false_eq_true, if_false]

/-! ## Section 5: Numbers in front of what follows -/

variable {w : Spelling}

/-- A written number is taken with the letter behind it. -/
theorem numeric_chars (hw : isTooLong w.chars = false) {rest : List Char}
    (hnumber : StartsOutside continues rest) (hmark : StartsOutside isHexMark rest) :
    numeric (w.chars ++ rest) = .ok (withSuffix w.chars rest) := by
  rw [numeric, hex?_append w.isNumber_chars hmark, w.number?_chars hnumber]
  simp only [hw, Bool.false_eq_true, if_false]

/-- The letters behind a number that say what it is. -/
def isSuffix (c : Char) : Bool :=
  c = '%' || c = 's'

/-- Without such a letter, a number is itself. -/
theorem withSuffix_of_startsOutside {rest : List Char} (h : StartsOutside isSuffix rest)
    (w : List Char) : withSuffix w rest = (Value.ofNumber (numberOf w), rest) := by
  unfold withSuffix
  split
  · exact absurd (h '%' rfl) (by decide)
  · exact absurd (h 's' rfl) (by decide)
  · rfl

/-- A written number in front of a gap. -/
theorem numeric_gap (hw : isTooLong w.chars = false) {rest : List Char} (h : AtGap rest) :
    numeric (w.chars ++ rest) = .ok (Value.ofNumber (numberOf w.chars), rest) := by
  rw [numeric_chars hw (h.startsOutside (by decide) (by decide))
    (h.startsOutside (by decide) (by decide)),
    withSuffix_of_startsOutside (h.startsOutside (by decide) (by decide))]

/-- A percentage stays a text. -/
theorem numeric_percent (hw : isTooLong w.chars = false) (rest : List Char) :
    numeric (w.chars ++ '%' :: rest) = .ok (.text (String.ofList (w.chars ++ ['%'])), rest) := by
  rw [numeric_chars hw (StartsOutside.cons (by decide) rest) (StartsOutside.cons (by decide) rest)]
  rfl

/-- Seconds are read as a double. -/
theorem numeric_seconds (hw : isTooLong w.chars = false) (rest : List Char) :
    numeric (w.chars ++ 's' :: rest) = .ok (.float (secondsOf w.chars), rest) := by
  rw [numeric_chars hw (StartsOutside.cons (by decide) rest) (StartsOutside.cons (by decide) rest)]
  rfl

theorem numeric_color (n : Nat) {rest : List Char} (h : AtGap rest) :
    numeric (Literal.color n ++ rest) = .ok (.int n, rest) := by
  rw [numeric, hex?_color n h]

end Overlay.Scanner
