import Overlay.Proofs.Script.Concatenation
import Overlay.Proofs.Script.Fuel
import Overlay.Proofs.Script.Lengths

/-!
# Blanks around lines

The scanner skips spaces and tabs in front of everything that it reads, so a line may be indented.  What
is added at the end of a line is either left over or skipped as well: it cannot go on with a word, a
number or a text.  So a script is read in the same way, whatever spaces and tabs are added at the two ends
of its lines, and is refused for the same reason if it is refused.

## Main definitions
- `Trails`: a line with a gap added at its end
- `SameRead`: what is read of both, and what is left
- `PaddedLine`, `Padded`: lines and texts with gaps added around the lines

## Main statements
- `numeric_trails`, `value_trails`, `mapping_trails`: the scanner reads the same
- `readLine_padded`: so does the reader of lines
- `parse_padded`: so does the reader of scripts
-/

namespace Overlay

namespace Scanner

open Overlay.Text Overlay.Number

variable {s t gap : List Char} {α : Type}

/-! ## Section 1: Gaps at the end -/

/-- A line with a gap added at its end. -/
def Trails (s t : List Char) : Prop :=
  ∃ gap, IsGap gap ∧ t = s ++ gap

/-- The same was read, and what is left is the same up to a gap at the end. -/
def SameRead (x y : α × List Char) : Prop :=
  x.1 = y.1 ∧ Trails x.2 y.2

theorem IsGap.skipSpaces_eq (h : IsGap gap) : skipSpaces gap = [] :=
  dropWhile_eq_nil_iff.mpr h.isSpace

/-- What is skipped is the same, unless nothing but spaces is there. -/
theorem skipSpaces_append_gap (h : IsGap gap) (s : List Char) :
    skipSpaces s = [] ∧ skipSpaces (s ++ gap) = []
      ∨ ∃ c r, skipSpaces s = c :: r ∧ skipSpaces (s ++ gap) = c :: r ++ gap := by
  have happend : skipSpaces (s ++ gap)
      = if (skipSpaces s).isEmpty then skipSpaces gap else skipSpaces s ++ gap :=
    List.dropWhile_append
  cases hs : skipSpaces s with
  | nil => simp [happend, hs, h.skipSpaces_eq]
  | cons c r => simp [happend, hs]

/-- Nothing starts in a gap whose class holds neither spaces nor tabs. -/
theorem span_append_gap (h : IsGap gap) {p : Char → Bool} (hspace : p ' ' = false)
    (htab : p '\t' = false) (s : List Char) :
    (s ++ gap).span p = ((s.span p).1, (s.span p).2 ++ gap) := by
  have houtside : StartsOutside p (s.dropWhile p ++ gap) := by
    cases hrest : s.dropWhile p with
    | nil => exact h.startsOutside hspace htab
    | cons c r =>
      apply StartsOutside.cons
      -- the first character that is left does not belong to the class
      have hfirst := List.head?_dropWhile_not p s
      simpa [hrest] using hfirst
  have hsplit : s ++ gap = s.takeWhile p ++ (s.dropWhile p ++ gap) := by
    rw [← List.append_assoc, List.takeWhile_append_dropWhile]
  rw [hsplit, span_append (fun c hc => List.mem_takeWhile_imp hc) houtside,
    List.span_eq_takeWhile_dropWhile]

theorem spanDigits_append_gap (h : IsGap gap) (s : List Char) :
    spanDigits (s ++ gap) = ((spanDigits s).1, (spanDigits s).2 ++ gap) :=
  span_append_gap h (by decide) (by decide) s

theorem atEnd_append_gap (h : IsGap gap) (s : List Char) : atEnd (s ++ gap) = atEnd s := by
  rcases skipSpaces_append_gap h s with ⟨hs, ht⟩ | ⟨c, r, hs, ht⟩
  · rw [atEnd, atEnd, hs, ht]
  · rw [atEnd, atEnd, hs, ht]
    rfl

/-! ## Section 2: Words -/

theorem identifier?_append_gap (h : IsGap gap) (c : Char) (r : List Char) :
    identifier? (c :: r ++ gap) = (identifier? (c :: r)).map fun e => (e.1, e.2 ++ gap) := by
  have hspan := span_append_gap h (p := isIdentifierRest) (by decide) (by decide) (c :: r)
  rw [List.cons_append] at hspan ⊢
  rw [identifier?, identifier?, hspan]
  split <;> rfl

theorem identifier_trails (h : Trails s t) :
    Agree True SameRead (identifier s) (identifier t) := by
  obtain ⟨gap, hgap, rfl⟩ := h
  rw [identifier, identifier]
  rcases skipSpaces_append_gap hgap s with ⟨hs, ht⟩ | ⟨c, r, hs, ht⟩
  · rw [hs, ht]
    exact .error _
  · rw [hs, ht, identifier?_append_gap hgap]
    cases identifier? (c :: r) with
    | none => exact .error _
    | some e => exact .ok ⟨rfl, gap, hgap, rfl⟩

/-- A keyword comes next in both lines or in none. -/
theorem keyword?_append_gap (h : IsGap gap) (word : String) (s : List Char) :
    keyword? word (s ++ gap) = (keyword? word s).map fun r => r ++ gap := by
  rw [keyword?, keyword?]
  rcases skipSpaces_append_gap h s with ⟨hs, ht⟩ | ⟨c, r, hs, ht⟩
  · rw [hs, ht]
    rfl
  · rw [hs, ht, identifier?_append_gap h]
    cases identifier? (c :: r) with
    | none => rfl
    | some e =>
      dsimp only [Option.map_some]
      split <;> rfl

theorem expect_trails (c : Char) (h : Trails s t) : Agree True Trails (expect c s) (expect c t) := by
  obtain ⟨gap, hgap, rfl⟩ := h
  rw [expect, expect]
  rcases skipSpaces_append_gap hgap s with ⟨hs, ht⟩ | ⟨d, r, hs, ht⟩
  · rw [hs, ht]
    exact .error _
  · rw [hs, ht, List.cons_append]
    dsimp only
    split
    · exact .ok ⟨gap, hgap, rfl⟩
    · exact .error _

/-! ## Section 3: Texts -/

theorem textBody_eq_none (h : '"' ∉ s) : textBody s = none := by
  cases hbody : textBody s with
  | none => rfl
  | some e =>
    obtain ⟨body, r⟩ := e
    -- a text ends with a quote
    exact absurd ((suffix_of_textBody hbody).mem List.mem_cons_self) h

theorem IsGap.quote_not_mem (h : IsGap gap) : '"' ∉ gap := by
  intro hmem
  have := h _ hmem
  simp at this

/-- A text that is not closed is not closed by a gap either. -/
theorem textBody_append_gap (h : IsGap gap) (s : List Char) :
    textBody (s ++ gap) = (textBody s).map fun e => (e.1, e.2 ++ gap) := by
  fun_induction textBody s with
  | case1 => exact textBody_eq_none h.quote_not_mem
  | case2 r => rfl
  | case3 => exact textBody_eq_none (by simp [h.quote_not_mem])
  | case4 c r ih =>
    rw [List.cons_append, List.cons_append, textBody, ih]
    cases textBody r <;> rfl
  | case5 c r hquote hend hescape ih =>
    have hslash : c ≠ '\\' := by
      rintro rfl
      cases r with
      | nil => exact hend rfl rfl
      | cons d r => exact hescape d r rfl rfl
    rw [List.cons_append, textBody, ih]
    · cases textBody r <;> rfl
    · exact hquote
    · exact fun heq => absurd heq hslash
    · exact fun _ _ heq => absurd heq hslash

theorem text_trails (h : Trails s t) : Agree True SameRead (text s) (text t) := by
  obtain ⟨gap, hgap, rfl⟩ := h
  rw [text, text, textBody_append_gap hgap]
  cases textBody s with
  | none => exact .error _
  | some e => exact .ok ⟨rfl, gap, hgap, rfl⟩

/-! ## Section 4: Numbers -/

/-- A hexadecimal number starts with a zero. -/
theorem hex?_eq_none (h : s.head? ≠ some '0') : hex? s = none := by
  unfold hex?
  split
  · exact absurd rfl h
  · rfl

theorem IsGap.head?_ne (h : IsGap gap) {c : Char} (hc : Scanner.isSpace c = false) : gap.head? ≠ some c := by
  intro hhead
  have hspace := h.isSpace c (List.mem_of_mem_head? hhead)
  simp [hc] at hspace

theorem hex?_append_gap (h : IsGap gap) (s : List Char) :
    hex? (s ++ gap) = (hex? s).map fun e => (e.1, e.2 ++ gap) := by
  cases s with
  | nil => exact hex?_eq_none (h.head?_ne (by decide))
  | cons c r =>
    by_cases hzero : c = '0'
    · subst hzero
      cases r with
      | nil =>
        -- the letter behind the zero does not stand in the gap
        cases gap with
        | nil => rfl
        | cons x gap =>
          have hmark : ¬(x = 'x' ∨ x = 'X') := by
            rcases h x List.mem_cons_self with rfl | rfl <;> decide
          simp [hex?, hmark]
      | cons x r =>
        have hspan := span_append_gap h
          (p := fun c => c.isDigit || (0x61 ≤ c.toNat && c.toNat ≤ 0x66)
            || (0x41 ≤ c.toNat && c.toNat ≤ 0x46)) (by decide) (by decide) r
        simp only [hex?, List.cons_append, hspan]
        split
        · split <;> rfl
        · rfl
    · have hnone : ∀ l, hex? (c :: l) = none := fun l => hex?_eq_none (by simpa using hzero)
      rw [List.cons_append, hnone, hnone, Option.map_none]

theorem pointedDigits_append_gap (h : IsGap gap) (s : List Char) :
    pointedDigits (s ++ gap) = ((pointedDigits s).1, (pointedDigits s).2 ++ gap) := by
  unfold pointedDigits
  simp only [spanDigits_append_gap h]
  cases hrest : (spanDigits s).2 with
  | nil =>
    -- no point stands in the gap
    cases gap with
    | nil => rfl
    | cons c gap =>
      have hpoint : c ≠ '.' := by
        rintro rfl
        exact absurd (h '.' List.mem_cons_self) (by decide)
      simp [hpoint]
  | cons c r =>
    by_cases hpoint : c = '.'
    · subst hpoint
      simp only [List.cons_append, spanDigits_append_gap h]
      split <;> rfl
    · simp [hpoint]

theorem exponentPart_append_gap (h : IsGap gap) (s : List Char) :
    exponentPart (s ++ gap) = ((exponentPart s).1, (exponentPart s).2 ++ gap) := by
  cases s with
  | nil =>
    apply exponentPart_of_ne_mark
    intro c hc
    rcases h c (List.mem_of_mem_head? hc) with rfl | rfl <;> decide
  | cons e r =>
    by_cases hmark : e = 'e' ∨ e = 'E'
    · cases r with
      | nil =>
        -- neither a sign nor a digit stands in the gap
        cases gap with
        | nil => simp [exponentPart, hmark]
        | cons c gap =>
          have hsign : ¬(c = '-' ∨ c = '+') := by
            rcases h c List.mem_cons_self with rfl | rfl <;> decide
          have hdigits : spanDigits (c :: gap) = ([], c :: gap) :=
            spanDigits_append_gap h []
          simp [exponentPart, hmark, hsign, hdigits]
      | cons c t =>
        have hspan := spanDigits_append_gap h (c :: t)
        rw [List.cons_append] at hspan
        simp only [exponentPart, List.cons_append, spanDigits_append_gap h t, hspan]
        repeat' split
        all_goals rfl
    · simp [exponentPart, hmark]

/-- The number behind a sign. -/
def magnitude? (sign s : List Char) : Option (List Char × List Char) :=
  let body := pointedDigits s
  if body.1.isEmpty then none
  else some (sign ++ body.1 ++ (exponentPart body.2).1, (exponentPart body.2).2)

theorem magnitude?_append_gap (h : IsGap gap) (sign s : List Char) :
    magnitude? sign (s ++ gap) = (magnitude? sign s).map fun e => (e.1, e.2 ++ gap) := by
  simp only [magnitude?, pointedDigits_append_gap h, exponentPart_append_gap h]
  split <;> rfl

theorem number?_eq_magnitude? (h : s.head? ≠ some '-') : number? s = magnitude? [] s := by
  unfold number?
  dsimp only
  split
  · exact absurd rfl h
  · rfl

theorem number?_append_gap (h : IsGap gap) (s : List Char) :
    number? (s ++ gap) = (number? s).map fun e => (e.1, e.2 ++ gap) := by
  by_cases hminus : s.head? = some '-'
  · obtain ⟨r, rfl⟩ := List.head?_eq_some_iff.mp hminus
    exact magnitude?_append_gap h ['-'] r
  · have hboth : (s ++ gap).head? ≠ some '-' := by
      cases s with
      | nil => exact h.head?_ne (by decide)
      | cons c r => exact hminus
    rw [number?_eq_magnitude? hminus, number?_eq_magnitude? hboth, magnitude?_append_gap h]

theorem withSuffix_append_gap (h : IsGap gap) (w r : List Char) :
    withSuffix w (r ++ gap) = ((withSuffix w r).1, (withSuffix w r).2 ++ gap) := by
  cases r with
  | nil => exact withSuffix_of_startsOutside (h.startsOutside (by decide) (by decide)) w
  | cons c r =>
    by_cases hpercent : c = '%'
    · simp [withSuffix, hpercent]
    · by_cases hseconds : c = 's' <;> simp [withSuffix, hpercent, hseconds]

theorem numeric_trails (h : Trails s t) : Agree True SameRead (numeric s) (numeric t) := by
  obtain ⟨gap, hgap, rfl⟩ := h
  rw [numeric, numeric, hex?_append_gap hgap, number?_append_gap hgap]
  cases hex? s with
  | some e => exact .ok ⟨rfl, gap, hgap, rfl⟩
  | none =>
    cases number? s with
    | none => exact .error _
    | some e =>
      dsimp only [Option.map_none, Option.map_some]
      split
      · -- the digits are counted without the gap
        exact .error _
      · rw [withSuffix_append_gap hgap]
        exact .ok ⟨rfl, gap, hgap, rfl⟩

/-! ## Section 5: Values -/

theorem Trails.refl (s : List Char) : Trails s s :=
  ⟨[], nofun, (List.append_nil s).symm⟩

/-- Without a quote and a brace, only a number can be read. -/
theorem valueFrom_eq_numeric {c : Char} {r : List Char} (hs : skipSpaces s = c :: r) (hquote : c ≠ '"')
    (hbrace : c ≠ '{') (n : Nat) : valueFrom (n + 1) s = numeric (c :: r) := by
  rw [valueFrom, hs]
  simp [hquote, hbrace]

/-- Values, fields and assignments are the same in front of a gap. -/
theorem values_trails (n : Nat) :
    (∀ s t, Trails s t → Agree True SameRead (valueFrom n s) (valueFrom n t))
      ∧ (∀ s t, Trails s t → Agree True SameRead (fieldsFrom n s) (fieldsFrom n t))
      ∧ ∀ acc s t, Trails s t →
        Agree True SameRead (assignmentsFrom n acc s) (assignmentsFrom n acc t) := by
  -- the same fuel on both sides, so that the calls go together
  induction n with
  | zero => exact ⟨fun _ _ _ => .error _, fun _ _ _ => .error _, fun _ _ _ _ => .error _⟩
  | succ n ih =>
    obtain ⟨ihValue, ihFields, ihAssignments⟩ := ih
    refine ⟨?value, ?fields, ?assignments⟩
    case value =>
      rintro s _ ⟨gap, hgap, rfl⟩
      rcases skipSpaces_append_gap hgap s with ⟨hs, ht⟩ | ⟨c, r, hs, ht⟩
      · rw [valueFrom, valueFrom, hs, ht]
        exact numeric_trails (.refl [])
      · have hrest : Trails r (r ++ gap) := ⟨gap, hgap, rfl⟩
        by_cases hquote : c = '"'
        · rw [valueFrom, valueFrom, hs, ht, hquote]
          exact (text_trails hrest).bind fun _ _ h => .ok ⟨congrArg Value.text h.1, h.2⟩
        · by_cases hbrace : c = '{'
          · rw [valueFrom, valueFrom, hs, ht, hbrace]
            exact (ihFields _ _ hrest).bind fun _ _ h => .ok ⟨congrArg Value.dict h.1, h.2⟩
          · rw [valueFrom_eq_numeric hs hquote hbrace, valueFrom_eq_numeric ht hquote hbrace]
            exact numeric_trails ⟨gap, hgap, rfl⟩
    case fields =>
      rintro s _ ⟨gap, hgap, rfl⟩
      rw [fieldsFrom, fieldsFrom]
      rcases skipSpaces_append_gap hgap s with ⟨hs, ht⟩ | ⟨c, r, hs, ht⟩
      · rw [hs, ht]
        exact ihAssignments [] _ _ (.refl [])
      · rw [hs, ht]
        by_cases hbrace : c = '}'
        · rw [hbrace]
          exact .ok ⟨rfl, gap, hgap, rfl⟩
        · have htrails : Trails (c :: r) (c :: r ++ gap) := ⟨gap, hgap, rfl⟩
          simpa [hbrace] using ihAssignments [] _ _ htrails
    case assignments =>
      intro acc s t h
      rw [assignmentsFrom, assignmentsFrom]
      apply (identifier_trails h).bind
      rintro ⟨key, behindKey⟩ ⟨_, behindKey'⟩ ⟨rfl, hkey⟩
      refine (expect_trails '=' hkey).bind fun behindSign behindSign' hsign => ?_
      apply (ihValue _ _ hsign).bind
      rintro ⟨v, behindValue⟩ ⟨_, _⟩ ⟨rfl, gap, hgap, rfl⟩
      dsimp only
      rcases skipSpaces_append_gap hgap behindValue with ⟨hs, ht⟩ | ⟨c, r, hs, ht⟩
      · rw [hs, ht]
        exact .error _
      · rw [hs, ht, List.cons_append]
        by_cases hcomma : c = ','
        · rw [hcomma]
          exact ihAssignments _ _ _ ⟨gap, hgap, rfl⟩
        · by_cases hbrace : c = '}'
          · rw [hbrace]
            exact .ok ⟨rfl, gap, hgap, rfl⟩
          · have hthrow : Agree True (SameRead (α := Fields)) (throw Complaint.expectedCommaOrBrace)
                (throw Complaint.expectedCommaOrBrace) := .error Complaint.expectedCommaOrBrace
            simpa [hcomma, hbrace] using hthrow

/-- A longer line comes with more fuel, which changes nothing. -/
theorem value_trails (h : Trails s t) : Agree True SameRead (value s) (value t) := by
  obtain ⟨gap, hgap, rfl⟩ := h
  have hfuel : valueFrom (fuelFor (s ++ gap)) s = value s := by
    apply valueFrom_eq_value
    rw [fuelFor, List.length_append]
    omega
  rw [← hfuel]
  exact (values_trails _).1 _ _ ⟨gap, hgap, rfl⟩

theorem mapping_trails (h : Trails s t) : Agree True SameRead (mapping s) (mapping t) := by
  rw [mapping, mapping]
  apply (expect_trails '{' h).bind
  rintro r _ ⟨gap, hgap, rfl⟩
  have hfuel : fieldsFrom (fuelFor (r ++ gap)) r = fieldsFrom (fuelFor r) r := by
    apply fieldsFrom_eq_of_le
    rw [fuelFor, List.length_append]
    omega
  rw [← hfuel]
  exact (values_trails _).2.1 _ _ ⟨gap, hgap, rfl⟩

end Scanner

namespace Script

open Overlay.Text Overlay.Scanner

variable {s t gap : List Char}

/-! ## Section 6: Lines -/

theorem readStatement_trails (line : Nat) (chained : Bool) (h : Trails s t) :
    readStatement line chained t = readStatement line chained s := by
  obtain ⟨gap, hgap, rfl⟩ := h
  rw [readStatement, readStatement, keyword?_append_gap hgap]
  cases keyword? "set" s with
  | none => rfl
  | some r =>
    dsimp only [Option.map_some]
    symm
    apply Agree.eq
    apply (identifier_trails ⟨gap, hgap, rfl⟩).bind
    rintro ⟨name, behindName⟩ ⟨_, _⟩ ⟨rfl, hname⟩
    apply (mapping_trails hname).bind
    rintro ⟨properties, behindProperties⟩ ⟨_, _⟩ ⟨rfl, hproperties⟩
    apply (value_trails hproperties).bind
    rintro ⟨duration, behindDuration⟩ ⟨_, _⟩ ⟨rfl, gap, hgap, rfl⟩
    dsimp only
    rw [atEnd_append_gap hgap]
    exact .same fun _ _ => rfl

theorem readInside_trails (p : Progress) (d : Definition) (h : Trails s t) :
    readInside p d t = readInside p d s := by
  obtain ⟨gap, hgap, rfl⟩ := h
  rw [readInside, readInside]
  rcases skipSpaces_append_gap hgap s with ⟨hs, ht⟩ | ⟨c, r, hs, ht⟩
  · rw [hs, ht]
  · rw [hs, ht, List.cons_append]
    split
    · next r' heq =>
      obtain ⟨rfl, rfl⟩ := List.cons.inj heq
      simp only [atEnd_append_gap hgap]
    · next hother =>
      split
      · next r' heq => exact absurd rfl ((List.cons.inj heq).1 ▸ hother _)
      · -- a line that closes nothing gives an attribute
        symm
        apply Agree.eq
        apply (identifier_trails ⟨gap, hgap, rfl⟩).bind
        rintro ⟨key, behindKey⟩ ⟨_, _⟩ ⟨rfl, hkey⟩
        refine (expect_trails '=' hkey).bind fun behindSign behindSign' hsign => ?_
        apply (value_trails hsign).bind
        rintro ⟨v, behindValue⟩ ⟨_, _⟩ ⟨rfl, gap, hgap, rfl⟩
        dsimp only
        rw [atEnd_append_gap hgap]
        exact .same fun _ _ => rfl

theorem readOpening_trails (p : Progress) (h : Trails s t) : readOpening p t = readOpening p s := by
  symm
  apply Agree.eq
  rw [readOpening, readOpening]
  apply (identifier_trails h).bind
  rintro ⟨word, behindWord⟩ ⟨_, _⟩ ⟨rfl, hword⟩
  dsimp only
  split
  · exact .error _
  · next kind _ =>
    apply (identifier_trails hword).bind
    rintro ⟨name, behindName⟩ ⟨_, _⟩ ⟨rfl, hname⟩
    dsimp only
    split
    · exact .error _
    · apply (expect_trails '{' hname).bind
      rintro r _ ⟨gap, hgap, rfl⟩
      rw [atEnd_append_gap hgap]
      exact .same fun _ _ => rfl

theorem readSet_trails (p : Progress) (line : Nat) (h : Trails s t) :
    readSet p line t = readSet p line s := by
  obtain ⟨gap, hgap, rfl⟩ := h
  rw [readSet, readSet, keyword?_append_gap hgap]
  cases keyword? "then" s with
  | none =>
    dsimp only [Option.map_none]
    rw [readStatement_trails line false ⟨gap, hgap, rfl⟩]
  | some r =>
    dsimp only [Option.map_some]
    rw [readStatement_trails line true ⟨gap, hgap, rfl⟩]

/-- A line with gaps added at its two ends. -/
def PaddedLine (s t : List Char) : Prop :=
  ∃ lead trail, IsGap lead ∧ IsGap trail ∧ t = lead ++ (s ++ trail)

theorem isBlankText_append_gap (h : IsGap gap) (s : List Char) :
    isBlankText (s ++ gap) = isBlankText s ∧ isBlankText (gap ++ s) = isBlankText s := by
  have hblank : isBlankText gap = true := by
    rw [isBlankText, List.all_eq_true]
    intro c hc
    rcases h c hc with rfl | rfl <;> decide
  rw [isBlankText] at hblank ⊢
  simp [isBlankText, hblank]

theorem keyword?_gap (h : IsGap gap) (word : String) (s : List Char) :
    keyword? word (gap ++ s) = keyword? word s := by
  rw [keyword?, keyword?, skipSpaces_gap h]

/-- Lines with gaps at their front are read as without. -/
theorem readLine_gap (h : IsGap gap) (p : Progress) (line : Nat) (s : List Char) :
    readLine p line (gap ++ s) = readLine p line s := by
  have hinside : ∀ d, readInside p d (gap ++ s) = readInside p d s := by
    intro d
    rw [readInside, readInside, skipSpaces_gap h]
  have hset : readSet p line (gap ++ s) = readSet p line s := by
    simp only [readSet, readStatement, keyword?_gap h]
  simp only [readLine, (isBlankText_append_gap h s).2, hinside, keyword?_gap h, hset]

/-- Lines with gaps at their end are read as without. -/
theorem readLine_append_gap (h : IsGap gap) (p : Progress) (line : Nat) (s : List Char) :
    readLine p line (s ++ gap) = readLine p line s := by
  have htrails : Trails s (s ++ gap) := ⟨gap, h, rfl⟩
  rw [readLine, readLine, (isBlankText_append_gap h s).1]
  split
  · rfl
  · cases p.current with
    | some d => exact readInside_trails p d htrails
    | none =>
      dsimp only
      rw [keyword?_append_gap h]
      cases keyword? "def" s with
      | some r => exact readOpening_trails p ⟨gap, h, rfl⟩
      | none => exact readSet_trails p line htrails

theorem readLine_padded (h : PaddedLine s t) (p : Progress) (line : Nat) :
    readLine p line t = readLine p line s := by
  obtain ⟨lead, trail, hlead, htrail, rfl⟩ := h
  rw [readLine_gap hlead, readLine_append_gap htrail]

theorem readLines_padded {ls ms : List (List Char)} (h : List.Forall₂ PaddedLine ls ms) (p : Progress)
    (line : Nat) : readLines p line ms = readLines p line ls := by
  induction h generalizing p line with
  | nil => rfl
  | cons hline _ ih =>
    rw [readLines, readLines, readLine_padded hline]
    cases readLine p line _ with
    | error complaint => rfl
    | ok q => exact ih q (line + 1)

/-! ## Section 7: Texts -/

/-- A text whose lines have got gaps at their two ends.  Behind the last line feed there is a line only
if something stands there. -/
inductive Padded : List Char → List Char → Prop where
  | nil : Padded [] []
  | last {line line' : List Char} (hne : line ≠ []) (hline : '\n' ∉ line)
      (hpadded : PaddedLine line line') : Padded line line'
  | line {line line' rest rest' : List Char} (hline : '\n' ∉ line) (hpadded : PaddedLine line line')
      (hrest : Padded rest rest') : Padded (line ++ '\n' :: rest) (line' ++ '\n' :: rest')

theorem PaddedLine.not_mem (h : PaddedLine s t) (hs : '\n' ∉ s) : '\n' ∉ t := by
  obtain ⟨lead, trail, hlead, htrail, rfl⟩ := h
  have hgap : ∀ {gap : List Char}, IsGap gap → '\n' ∉ gap := by
    intro gap hgap hmem
    exact absurd (hgap _ hmem) (by decide)
  simp [hs, hgap hlead, hgap htrail]

theorem linesOf_last (hne : s ≠ []) (hs : '\n' ∉ s) : linesOf s = [s] := by
  simp [linesOf, pieces_eq_self hs, hne]

theorem linesOf_padded (h : Padded s t) : List.Forall₂ PaddedLine (linesOf s) (linesOf t) := by
  induction h with
  | nil => exact .nil
  | @last line line' hne hline hpadded =>
    have hne' : line' ≠ [] := by
      obtain ⟨lead, trail, -, -, rfl⟩ := hpadded
      simp [hne]
    rw [linesOf_last hne hline, linesOf_last hne' (hpadded.not_mem hline)]
    exact .cons hpadded .nil
  | line hline hpadded _ ih =>
    rw [linesOf_line hline, linesOf_line (hpadded.not_mem hline)]
    exact .cons hpadded ih

/-- Spaces and tabs at the two ends of lines do not matter: the script is the same, or it is refused for
the same broken rule, or the same number with too many digits keeps it from being read. -/
theorem parse_padded (h : Padded s t) :
    parse t = parse s
      ∧ ((∃ script, parse s = .ok script) ∨ (∃ cause, parse s = .error (.refused cause))
        ∨ ∃ digits, Number.maxIntDigits < digits ∧ parse s = .error (.tooLongToRead digits)) := by
  constructor
  · rw [parse, parse, readLines_padded (linesOf_padded h)]
  · cases hparse : parse s with
    | ok script => exact Or.inl ⟨script, rfl⟩
    | error fault =>
      rcases parse_error_cases hparse with ⟨cause, rfl⟩ | ⟨digits, hdigits, rfl⟩
      · exact Or.inr (Or.inl ⟨cause, rfl⟩)
      · exact Or.inr (Or.inr ⟨digits, hdigits, rfl⟩)

/-- A text that is refused for its second line, and the same with gaps around its lines. -/
theorem parse_padded_sample :
    parse "  def text a \x7b\t\n\t x = 1 2 \n".toList = parse "def text a \x7b\nx = 1 2\n".toList := by
  have hfirst : PaddedLine "def text a \x7b".toList "  def text a \x7b\t".toList :=
    ⟨[' ', ' '], ['\t'], by simp [IsGap], by simp [IsGap], by decide⟩
  have hsecond : PaddedLine "x = 1 2".toList "\t x = 1 2 ".toList :=
    ⟨['\t', ' '], [' '], by simp [IsGap], by simp [IsGap], by decide⟩
  exact (parse_padded (.line (by decide) hfirst (.line (by decide) hsecond .nil))).1

end Script

end Overlay
