import Overlay.Proofs.Script.Complaints
import Overlay.Proofs.Script.Layout

/-!
# How long statements take

A statement says how long it takes behind its properties.  The reader asks for a value that is a
double, and a number with the mark of seconds is one.  So is a number without a mark, if a point or an
exponent is in it or no double is as large.  These two forms are all that is accepted; whole numbers,
percentages, texts, hexadecimal numbers and mappings are refused.  A whole number with too many digits is
not read in any of them.

## Main definitions
- `SaysLength`: what stands behind the properties of a statement

## Main statements
- `numberOf_eq_float_iff`: which written numbers are doubles without a mark
- `value_eq_float_iff`: what is read as a double up to the end of a line
- `StartsStatement.readLines_ok_iff`: a statement is accepted exactly if it has a length
- `lengths_of_parse`: what this means for whole texts
-/

namespace Overlay

open Overlay.Text Overlay.Number

attribute [local irreducible] twoTo tenTo Double.unitsInOne

/-! ## Section 1: Numbers without a mark -/

/-- The double of a whole decimal is whole, unless it is infinite. -/
theorem Double.isWhole_ofDecimal (s : Bool) (n : Nat) :
    (ofDecimal s n 0).isWhole = (ofDecimal s n 0).isFinite := by
  unfold ofDecimal
  by_cases hzero : n = 0
  · unfold ofScientific
    dsimp only
    rw [if_pos hzero, signedZero, ofParts_of_fits fits_zero, isWhole, Nat.zero_mul, Nat.zero_mod]
    rfl
  rcases Nat.lt_or_ge 400 (digitCount n) with hlarge | hsmall
  · unfold ofScientific
    dsimp only
    rw [if_neg hzero, if_pos (by omega)]
    rfl
  · rw [ofScientific_eq_nearest hzero (by omega) (by omega) (a := 0) (b := 0) rfl, tenTo_zero,
      Nat.mul_one]
    exact isWhole_nearest n s

namespace Scanner

/-- Without a point and an exponent, a number stands for a whole decimal. -/
theorem isWhole_doubleOf {w : List Char} (hw : IsNumber w) (hwhole : isWholeText w = true) :
    (doubleOf w).isWhole = (doubleOf w).isFinite := by
  have hdigits : DecimalDigits (splitSign w).2 := List.all_eq_true.mp hwhole
  have hne : (splitSign w).2 ≠ [] := by
    obtain ⟨sign, ms, e, rfl, hsign, hms, -⟩ := hw
    obtain ⟨c, r, rfl, -⟩ := id hms.exists_cons
    rw [splitSign_append hsign hms e]
    exact List.cons_ne_nil _ _
  have hspan := spanDigits_decimal hdigits (r := []) (fun c hc => nomatch hc)
  rw [List.append_nil] at hspan
  have hread : Scientific.read? w
      = some ⟨(splitSign w).1, ofNumeral (splitSign w).2, 0⟩ := by
    simp [Scientific.read?, hspan, hne, readExponent?]
  rw [doubleOf, hread]
  exact Double.isWhole_ofDecimal _ _

/-- The written numbers that are doubles without a mark. -/
theorem numberOf_eq_float_iff {w : List Char} (hw : IsNumber w) {x : Double} :
    numberOf w = .float x ↔
      ('.' ∈ w ∨ 'e' ∈ w ∨ 'E' ∈ w ∨ (doubleOf w).isFinite = false) ∧ x = doubleOf w := by
  have hmarks := isWholeText_iff hw
  unfold numberOf
  cases hwhole : isWholeText w with
  | false =>
    have hsome : '.' ∈ w ∨ 'e' ∈ w ∨ 'E' ∈ w := by
      by_contra hno
      simp only [not_or] at hno
      rw [hmarks.mpr hno] at hwhole
      cases hwhole
    simp only [Bool.and_false, Bool.false_eq_true, if_false, Number.float.injEq]
    constructor
    · intro hx
      exact ⟨hsome.imp_right (Or.imp_right Or.inl), hx.symm⟩
    · intro h
      exact h.2.symm
  | true =>
    obtain ⟨hpoint, hlower, hupper⟩ := hmarks.mp hwhole
    cases hfinite : (doubleOf w).isFinite with
    | true => simp [isWhole_doubleOf hw hwhole, hfinite, hpoint, hlower, hupper]
    | false =>
      simp only [isWhole_doubleOf hw hwhole, hfinite, Bool.false_and, Bool.false_eq_true, if_false,
        Number.float.injEq, or_true, true_and]
      exact eq_comm

/-- Such a number is read, however many digits it has. -/
theorem isTooLong_of_float {w : List Char} {x : Double} (h : numberOf w = .float x) :
    isTooLong w = false := by
  unfold numberOf at h
  dsimp only at h
  split at h
  · cases h
  · next hnot => rw [isTooLong, Bool.eq_false_iff.mpr hnot, Bool.false_and]

/-! ## Section 2: Gaps -/

/-- Spaces and tabs. -/
def IsGap (s : List Char) : Prop :=
  ∀ c ∈ s, c = ' ' ∨ c = '\t'

theorem IsGap.isSpace {s : List Char} (h : IsGap s) : ∀ c ∈ s, isSpace c = true := by
  intro c hc
  simpa [Scanner.isSpace] using h c hc

theorem atEnd_iff {s : List Char} : atEnd s = true ↔ IsGap s := by
  rw [atEnd, skipSpaces, List.isEmpty_iff, dropWhile_eq_nil_iff]
  simp only [IsGap, Scanner.isSpace, Bool.or_eq_true, decide_eq_true_eq]

/-- A gap in front of a line is skipped. -/
theorem exists_gap (s : List Char) : ∃ gap, IsGap gap ∧ s = gap ++ skipSpaces s := by
  refine ⟨s.takeWhile Scanner.isSpace, ?_, List.takeWhile_append_dropWhile.symm⟩
  intro c hc
  simpa [Scanner.isSpace] using List.mem_takeWhile_imp hc

theorem skipSpaces_gap {gap : List Char} (h : IsGap gap) (s : List Char) :
    skipSpaces (gap ++ s) = skipSpaces s :=
  List.dropWhile_append_of_pos h.isSpace

theorem IsGap.startsOutside {s : List Char} (h : IsGap s) {p : Char → Bool} (hspace : p ' ' = false)
    (htab : p '\t' = false) : StartsOutside p s := by
  intro c hc
  rcases h c (List.mem_of_mem_head? hc) with rfl | rfl
  · exact hspace
  · exact htab

/-! ## Section 3: Lengths -/

/-- What stands behind the properties of a statement, with the seconds that it says. -/
inductive SaysLength : List Char → Double → Prop where
  /-- A number with the mark of seconds, whose digits are read. -/
  | seconds {gap w tail : List Char} (hgap : IsGap gap) (hw : IsNumber w) (htail : IsGap tail)
      (hshort : isTooLong w = false) :
      SaysLength (gap ++ (w ++ 's' :: tail)) (secondsOf w)
  /-- A number without a mark that is a double all the same. -/
  | unmarked {gap w tail : List Char} (hgap : IsGap gap) (hw : IsNumber w) (htail : IsGap tail)
      (hdouble : '.' ∈ w ∨ 'e' ∈ w ∨ 'E' ∈ w ∨ (doubleOf w).isFinite = false) :
      SaysLength (gap ++ (w ++ tail)) (doubleOf w)

/-- A value that is a double is a number. -/
theorem value_eq_float {s t : List Char} {x : Double} (h : value s = .ok (.float x, t)) :
    numeric (skipSpaces s) = .ok (.float x, t) := by
  rw [value, fuelFor, valueFrom] at h
  split at h
  · obtain ⟨⟨u, r⟩, -, hr⟩ := bind_eq_ok.mp h
    cases hr
  · obtain ⟨⟨fs, r⟩, -, hr⟩ := bind_eq_ok.mp h
    cases hr
  · exact h

/-- A number is read as a value, whatever gap is in front of it. -/
theorem value_number {gap w rest : List Char} (hgap : IsGap gap) (hw : IsNumber w) :
    value (gap ++ (w ++ rest)) = numeric (w ++ rest) := by
  obtain ⟨c, r, rfl, hc⟩ := id hw.exists_cons
  have hclass : ∀ d, isDecimalDigit d = false → isNumberMark d = false → c ≠ d := by
    rintro d hdigit hmark rfl
    rw [hdigit, hmark] at hc
    simp at hc
  have hspace : Scanner.isSpace c = false := by
    simp only [Scanner.isSpace, Bool.or_eq_false_iff, decide_eq_false_iff_not]
    exact ⟨hclass ' ' (by decide) (by decide), hclass '\t' (by decide) (by decide)⟩
  -- a number starts with no quote and no brace
  rw [value, fuelFor, valueFrom, skipSpaces_gap hgap, List.cons_append, skipSpaces_cons hspace]
  split
  · next heq => exact absurd (List.cons.inj heq).1 (hclass '"' (by decide) (by decide))
  · next heq => exact absurd (List.cons.inj heq).1 (hclass '{' (by decide) (by decide))
  · rfl

theorem ofNumber_eq_float_iff {n : Number} {x : Double} :
    Value.ofNumber n = .float x ↔ n = .float x := by
  cases n with
  | int i => simp [Value.ofNumber]
  | float y => simp [Value.ofNumber]

/-- What is read as a double up to the end of a line is a length. -/
theorem value_eq_float_iff {s : List Char} {x : Double} :
    (∃ t, value s = .ok (.float x, t) ∧ atEnd t = true) ↔ SaysLength s x := by
  constructor
  · -- of all that a value can be, only a number is a double
    rintro ⟨t, hv, hend⟩
    have htail := atEnd_iff.mp hend
    obtain ⟨gap, hgap, hs⟩ := exists_gap s
    have hnumeric := value_eq_float hv
    rw [numeric] at hnumeric
    split at hnumeric
    · cases hnumeric
    · split at hnumeric
      · next w rest hnumber =>
        obtain ⟨hw, hrest⟩ := isNumber_of_number? hnumber
        split at hnumeric
        · cases hnumeric
        · next hshort =>
          have hsuffix := Except.ok.inj hnumeric
          rw [hs, hrest]
          unfold withSuffix at hsuffix
          split at hsuffix
          · cases hsuffix
          · obtain ⟨hx, rfl⟩ := Prod.mk.inj hsuffix
            rw [← Value.float.inj hx]
            exact .seconds hgap hw htail (Bool.eq_false_iff.mpr hshort)
          · obtain ⟨hx, rfl⟩ := Prod.mk.inj hsuffix
            obtain ⟨hdouble, rfl⟩ := (numberOf_eq_float_iff hw).mp (ofNumber_eq_float_iff.mp hx)
            exact .unmarked hgap hw htail hdouble
      · cases hnumeric
  · intro h
    cases h with
    | @seconds gap w tail hgap hw htail hshort =>
      refine ⟨tail, ?_, atEnd_iff.mpr htail⟩
      rw [value_number hgap hw, numeric, hex?_append hw (StartsOutside.cons (by decide) tail),
        number?_append hw (StartsOutside.cons (by decide) tail)]
      dsimp only
      rw [hshort]
      rfl
    | @unmarked gap w tail hgap hw htail hdouble =>
      have hfloat := (numberOf_eq_float_iff hw).mpr ⟨hdouble, rfl⟩
      refine ⟨tail, ?_, atEnd_iff.mpr htail⟩
      rw [value_number hgap hw, numeric, hex?_append hw (htail.startsOutside (by decide) (by decide)),
        number?_append hw (htail.startsOutside (by decide) (by decide))]
      dsimp only
      rw [isTooLong_of_float hfloat, if_neg Bool.false_ne_true,
        withSuffix_of_startsOutside (htail.startsOutside (by decide) (by decide)),
        ofNumber_eq_float_iff.mpr hfloat]

end Scanner

namespace Script

open Scanner

/-! ## Section 4: Lines -/

theorem states_iff {l : List Char} {st : Statement} :
    States l st ↔
      ∃ r, StartsStatement l st.chained st.name st.properties r ∧ SaysLength r st.duration := by
  constructor
  · rintro ⟨r, t, hstarts, hv, hend⟩
    exact ⟨r, hstarts, value_eq_float_iff.mp ⟨t, hv, hend⟩⟩
  · rintro ⟨r, hstarts, hlength⟩
    obtain ⟨t, hv, hend⟩ := value_eq_float_iff.mpr hlength
    exact ⟨r, t, hstarts, hv, hend⟩

/-- Outside of blocks, a line with the words of a statement is accepted exactly if its object is known
and it says a length. -/
theorem StartsStatement.readLine_ok_iff {l : List Char} {chained : Bool} {name : String}
    {properties : Fields} {r : List Char} (h : StartsStatement l chained name properties r)
    {p : Progress} (hp : p.current = none) (line : Nat) :
    (∃ q, readLine p line l = .ok q) ↔ name ∈ p.declared ∧ ∃ x, SaysLength r x := by
  rw [h.readLine_eq hp, h.readSet_eq]
  constructor
  · rintro ⟨q, hq⟩
    obtain ⟨st, hst, hq⟩ := bind_eq_ok.mp hq
    obtain ⟨x, t, hv, hend, rfl⟩ := endStatement_eq_ok.mp hst
    split at hq
    · next hdeclared =>
      exact ⟨List.contains_iff_mem.mp hdeclared, x, value_eq_float_iff.mp ⟨t, hv, hend⟩⟩
    · cases hq
  · rintro ⟨hdeclared, x, hlength⟩
    obtain ⟨t, hv, hend⟩ := value_eq_float_iff.mpr hlength
    rw [endStatement_eq_ok.mpr ⟨x, t, hv, hend, rfl⟩, ok_bind,
      if_pos (List.contains_iff_mem.mpr hdeclared)]
    exact ⟨_, rfl⟩

/-- Such a line holds a number with too many digits exactly if one stands where the length is read. -/
theorem StartsStatement.readLine_tooLong_iff {l : List Char} {chained : Bool} {name : String}
    {properties : Fields} {r : List Char} (h : StartsStatement l chained name properties r)
    {p : Progress} (hp : p.current = none) (line digits : Nat) :
    readLine p line l = .error (.tooLongToRead digits)
      ↔ value r = .error (.tooLongToRead digits) := by
  rw [h.readLine_eq hp, h.readSet_eq, bind_eq_error, endStatement, bind_eq_error]
  constructor
  · rintro ((hvalue | ⟨⟨v, t⟩, -, hend⟩) | ⟨st, -, hst⟩)
    · exact hvalue
    · split at hend
      · split at hend
        · cases hend
        · cases hend
      · cases hend
    · split at hst
      · cases hst
      · cases hst
  · intro hvalue
    exact Or.inl (Or.inl hvalue)

theorem StandsAt.line_unique {line n : Nat} {ls : List (List Char)} {l m : List Char}
    (hl : StandsAt line ls n [l]) (hm : StandsAt line ls n [m]) : l = m := by
  obtain ⟨before, after, rfl, hn⟩ := hl
  obtain ⟨before', after', hls, hn'⟩ := hm
  have hsplit : before ++ (l :: after) = before' ++ (m :: after') := by simpa using hls
  have hlength : before.length = before'.length := by omega
  exact (List.cons.inj (List.append_inj hsplit hlength).2).1

/-! ## Section 5: Texts -/

/-- A line outside of the blocks is a statement. -/
theorem Layout.exists_statement {ls : List (List Char)} {script : Script} {blocks : List Block}
    (h : Layout ls script blocks) {n : Nat} {l : List Char} (hl : StandsAt 1 ls n [l])
    (houtside : ∀ b ∈ blocks, b.covers n = false) :
    ∃ st ∈ script.sets, st.line = n ∧ States l st := by
  have hn : 1 ≤ n ∧ n ≤ ls.length := by
    obtain ⟨before, after, hls, rfl⟩ := hl
    rw [hls]
    simp
    omega
  have huses := h.uses_eq n hn.1 hn.2
  have hblocks : blocks.countP (fun b => b.covers n) = 0 := by
    rw [List.countP_eq_zero]
    intro b hb
    rw [houtside b hb]
    exact Bool.false_ne_true
  -- no block uses the line, and something does
  rw [uses, hblocks, Nat.zero_add] at huses
  have hpos : 0 < script.sets.countP (fun st => st.line = n) := by omega
  obtain ⟨st, hst, hline⟩ := List.countP_pos_iff.mp hpos
  have hline : st.line = n := of_decide_eq_true hline
  obtain ⟨m, hm, hstates⟩ := h.sets_stand st hst
  rw [hline] at hm
  obtain rfl := hl.line_unique hm
  exact ⟨st, hst, hline, hstates⟩

section Line

variable {before : List (List Char)} {l : List Char} {chained : Bool} {name : String}
  {properties : Fields} {r : List Char}

/-- Behind lines that are accepted, a statement outside of blocks is accepted exactly if its object is
known and it has a length. -/
theorem StartsStatement.readLines_ok_iff (h : StartsStatement l chained name properties r)
    {p : Progress} (hbefore : readLines .start 1 before = .ok p) (hp : p.current = none) :
    (∃ q, readLines .start 1 (before ++ [l]) = .ok q) ↔ name ∈ p.declared ∧ ∃ x, SaysLength r x := by
  rw [readLines_append, hbefore, ok_bind, ← h.readLine_ok_iff hp (1 + before.length), readLines]
  cases readLine p (1 + before.length) l with
  | error complaint => simp
  | ok q => simp [readLines]

/-- It is not read for the number of its digits exactly if its length is not. -/
theorem StartsStatement.readLines_tooLong_iff (h : StartsStatement l chained name properties r)
    {p : Progress} (hbefore : readLines .start 1 before = .ok p) (hp : p.current = none)
    (digits : Nat) :
    readLines .start 1 (before ++ [l]) = .error (.tooLongToRead digits)
      ↔ value r = .error (.tooLongToRead digits) := by
  rw [readLines_append, hbefore, ok_bind, ← h.readLine_tooLong_iff hp (1 + before.length), readLines]
  cases readLine p (1 + before.length) l with
  | error complaint => simp [Complaint.fault_eq_tooLongToRead_iff]
  | ok q => simp [readLines]

/-- Whatever stands in front of it, a statement without a length is not accepted. -/
theorem StartsStatement.exists_fault (h : StartsStatement l chained name properties r)
    (houtside : ∀ p, readLines .start 1 before = .ok p → p.current = none)
    (hno : ∀ x, ¬ SaysLength r x) : ∃ fault, readLines .start 1 (before ++ [l]) = .error fault := by
  cases hread : readLines .start 1 (before ++ [l]) with
  | error fault => exact ⟨fault, rfl⟩
  | ok q =>
    have happend := hread
    rw [readLines_append] at happend
    obtain ⟨p, hp, -⟩ := bind_eq_ok.mp happend
    obtain ⟨-, x, hx⟩ := (h.readLines_ok_iff hp (houtside p hp)).mp ⟨q, hread⟩
    exact absurd hx (hno x)

end Line

/-- In a script that is read, every line outside of the blocks is a statement with a length.  A text
is refused at the latest at the first line outside of the blocks that starts a statement and has no
length, unless a number with too many digits keeps it from being read.  A line that starts a statement
about a known object is accepted if it has a length, and holds such a number exactly if one is read in
place of its length. -/
theorem lengths_of_parse (s : List Char) :
    (∀ script, parse s = .ok script → ∃ blocks, Layout (linesOf s) script blocks ∧
      ∀ n l, StandsAt 1 (linesOf s) n [l] → (∀ b ∈ blocks, b.covers n = false) →
        ∃ st ∈ script.sets, st.line = n ∧
          ∃ r, StartsStatement l st.chained st.name st.properties r ∧ SaysLength r st.duration)
    ∧ (∀ before l after chained name properties r, linesOf s = before ++ l :: after →
      (∀ p, readLines .start 1 before = .ok p → p.current = none) →
      StartsStatement l chained name properties r → (∀ x, ¬ SaysLength r x) →
        (∃ n complaint, parse s = .error (.refused (.scriptLine n complaint))
          ∧ n ≤ before.length + 1)
        ∨ ∃ digits, maxIntDigits < digits ∧ parse s = .error (.tooLongToRead digits))
    ∧ ∀ before p l chained name properties r, readLines .start 1 before = .ok p →
      p.current = none → StartsStatement l chained name properties r →
        ((∃ q, readLines .start 1 (before ++ [l]) = .ok q)
          ↔ name ∈ p.declared ∧ ∃ x, SaysLength r x)
        ∧ ∀ digits, readLines .start 1 (before ++ [l]) = .error (.tooLongToRead digits)
          ↔ value r = .error (.tooLongToRead digits) := by
  refine ⟨?accepted, ?refused, ?exact⟩
  case accepted =>
    intro script hparse
    obtain ⟨blocks, hlayout⟩ := exists_layout hparse
    refine ⟨blocks, hlayout, fun n l hl houtside => ?_⟩
    obtain ⟨st, hst, hline, hstates⟩ := hlayout.exists_statement hl houtside
    exact ⟨st, hst, hline, states_iff.mp hstates⟩
  case refused =>
    intro before l after chained name properties r hls houtside hstarts hno
    obtain ⟨fault, hfault⟩ := hstarts.exists_fault houtside hno
    obtain ⟨q, n, complaint, m, -, hline, rfl, hn⟩ := exists_refused_line hfault
    rw [List.length_append, List.length_singleton] at hn
    -- what is refused stays refused, whatever follows
    have hsplit : linesOf s = (before ++ [l]) ++ after := by
      rw [hls, List.append_assoc, List.singleton_append]
    have hparse : parse s = .error (complaint.fault n) := by
      rw [parse, hsplit, readLines_append, hfault, error_bind, error_bind]
    rcases fault_of_readLine hline with hrefused | ⟨digits, hdigits, hunread⟩
    · exact Or.inl ⟨n, complaint, hrefused ▸ hparse, by omega⟩
    · exact Or.inr ⟨digits, hdigits, hunread ▸ hparse⟩
  case exact =>
    intro before p l chained name properties r hbefore hp hstarts
    exact ⟨hstarts.readLines_ok_iff hbefore hp, hstarts.readLines_tooLong_iff hbefore hp⟩

/-- A length with a point and without a mark is accepted; one without both is not. -/
theorem lengths_of_parse_sample :
    (∃ script, parse "def text a \x7b\n\x7d\nset a \x7b\x7d 1.5\n".toList = .ok script ∧ ∃ st ∈ script.sets,
      ∃ r, StartsStatement "set a \x7b\x7d 1.5".toList st.chained st.name st.properties r
        ∧ SaysLength r st.duration)
    ∧ ∃ n complaint, parse "def text a \x7b\n\x7d\nset a \x7b\x7d 1\n".toList
      = .error (.refused (.scriptLine n complaint)) ∧ n ≤ 3 := by
  constructor
  · have hlines : (parse "def text a \x7b\n\x7d\nset a \x7b\x7d 1.5\n".toList).toOption.map
        (fun script => script.sets.map Statement.line) = some [3] := by decide +kernel
    obtain ⟨script, hscript, hlines⟩ := Option.map_eq_some_iff.mp hlines
    have hparse := toOption_eq_some.mp hscript
    obtain ⟨blocks, hlayout, hlengths⟩ := (lengths_of_parse _).1 script hparse
    have hthird : script.sets.countP (fun st => st.line = 3) = 1 := by
      have hcount : (script.sets.map Statement.line).countP (fun n => n = 3) = 1 := by
        rw [hlines]
        decide
      rwa [List.countP_map] at hcount
    -- the third line is used up by the statement
    have hblocks : blocks.countP (fun b => b.covers 3) = 0 := by
      have huses := hlayout.uses_eq 3 (by decide) (by decide)
      rw [uses, hthird] at huses
      omega
    rw [List.countP_eq_zero] at hblocks
    obtain ⟨st, hst, -, hr⟩ := hlengths 3 "set a \x7b\x7d 1.5".toList
      ⟨["def text a \x7b".toList, "\x7d".toList], [], rfl, rfl⟩
      (fun b hb => Bool.eq_false_iff.mpr (hblocks b hb))
    exact ⟨script, hparse, st, hst, hr⟩
  · have hread : readLines .start 1 ["def text a \x7b".toList, "\x7d".toList]
        = .ok ⟨[⟨.text, "a", []⟩], [], ["a"], none⟩ := rfl
    have hstarts : StartsStatement "set a \x7b\x7d 1".toList false "a" [] " 1".toList :=
      ⟨"set a \x7b\x7d 1".toList, " a \x7b\x7d 1".toList, " \x7b\x7d 1".toList, rfl, rfl, rfl, rfl⟩
    have hint : (value " 1".toList).toOption.map (fun e => e.1 matches .int _) = some true := by
      decide +kernel
    have hno : ∀ x, ¬ SaysLength " 1".toList x := by
      intro x hx
      obtain ⟨t, hv, -⟩ := value_eq_float_iff.mpr hx
      rw [hv] at hint
      cases hint
    obtain ⟨-, hrefused, hexact⟩ := lengths_of_parse "def text a \x7b\n\x7d\nset a \x7b\x7d 1\n".toList
    obtain ⟨haccepted, hunread⟩ := hexact _ _ _ _ _ _ _ hread rfl hstarts
    refine (hrefused ["def text a \x7b".toList, "\x7d".toList] _ [] _ _ _ _ rfl ?_ hstarts
      hno).resolve_right ?_
    · intro p hp
      rw [← Except.ok.inj (hread.symm.trans hp)]
    · -- the number in place of the length is read
      rintro ⟨digits, -, hparse⟩
      rcases bind_eq_error.mp hparse with hlines | ⟨q, hq, -⟩
      · rw [(hunread digits).mp hlines] at hint
        cases hint
      · obtain ⟨-, x, hx⟩ := haccepted.mp ⟨q, hq⟩
        exact hno x hx

end Script

end Overlay
