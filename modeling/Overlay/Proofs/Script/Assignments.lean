import Overlay.Proofs.Fields
import Overlay.Proofs.Script.Numbers

/-!
# Fields of a script

Texts that are read as values, and what is put together from them: a field with its key, and fields
between braces, which are read as assignments to one mapping, one after the other.

## Main definitions
- `Fields.assign`: a mapping after some more assignments
- `Reads`: a text that is read as a value, whatever stands behind the gap after it
- `Assigned`: a field as it is written and as it is read

## Main statements
- `IsSpelling.reads`, `IsSpelling.reads_percent`, `reads_seconds`, `reads_color`, `reads_quote`: single
  words
- `valueFrom_braced`, `reads_braced`, `mapping_braced`: fields between braces
-/

namespace Overlay

open Overlay.Text Overlay.Number

attribute [local irreducible] twoTo tenTo Double.unitsInOne

/-! ## Section 1: Assignments -/

/-- A mapping after some more assignments. -/
def Fields.assign (fs : Fields) (assignments : List (String × Value)) : Fields :=
  assignments.foldl (fun acc e => Fields.put acc e.1 e.2) fs

namespace Fields

theorem assign_append (fs : Fields) (l m : List (String × Value)) :
    assign fs (l ++ m) = assign (assign fs l) m :=
  List.foldl_append

theorem assign_eq_merge (fs : Fields) (l : List (String × Value)) :
    assign fs l = merge fs (l.map fun e => (.text e.1, e.2)) := by
  rw [assign, merge, List.foldl_map]
  rfl

theorem textKeyed_assign {fs : Fields} (h : TextKeyed fs) (assignments : List (String × Value)) :
    TextKeyed (assign fs assignments) := by
  unfold assign
  induction assignments generalizing fs with
  | nil => exact h
  | cons e r ih => exact ih (h.insert e.1 e.2)

theorem distinct_assign {fs : Fields} (h : Distinct fs) (assignments : List (String × Value)) :
    Distinct (assign fs assignments) := by
  unfold assign
  induction assignments generalizing fs with
  | nil => exact h
  | cons e r ih => exact ih (h.insert (.text e.1) e.2)

end Fields

namespace Scanner

/-! ## Section 2: Texts that are read -/

/-- A text that is read as a value, whatever stands behind the gap after it. -/
structure Reads (text : List Char) (v : Value) : Prop where
  ne_nil : text ≠ []
  valueFrom_eq : ∀ {rest : List Char} {fuel : Nat}, AtGap rest → text.length ≤ fuel →
    valueFrom fuel (text ++ rest) = .ok (v, rest)

/-- The scanner has fuel for every text that is read. -/
theorem Reads.value_eq {text : List Char} {v : Value} (h : Reads text v) {rest : List Char}
    (hrest : AtGap rest) : value (' ' :: (text ++ rest)) = .ok (v, rest) := by
  rw [value, valueFrom_blank]
  refine h.valueFrom_eq hrest ?_
  rw [fuelFor, List.length_cons, List.length_append]
  omega

/-- A text that starts like a number is read as one. -/
theorem valueFrom_numeric {c : Char} (hc : Spelling.isNumberChar c = true) (fuel : Nat)
    (r : List Char) : valueFrom (fuel + 1) (c :: r) = numeric (c :: r) := by
  have hspace : isSpace c = false := by
    cases hs : isSpace c with
    | false => rfl
    | true =>
      simp only [isSpace, Bool.or_eq_true, decide_eq_true_eq] at hs
      rcases hs with rfl | rfl
      · exact absurd hc (by decide)
      · exact absurd hc (by decide)
  rw [valueFrom, skipSpaces_cons hspace]
  split
  · next heq =>
    obtain rfl := (List.cons.inj heq).1
    exact absurd hc (by decide)
  · next heq =>
    obtain rfl := (List.cons.inj heq).1
    exact absurd hc (by decide)
  · rfl

/-- Texts that start like a number are read as values where they are read as numbers. -/
theorem Reads.of_numeric {text : List Char} {v : Value}
    (hhead : ∃ c r, text = c :: r ∧ Spelling.isNumberChar c = true)
    (hnumeric : ∀ rest, AtGap rest → numeric (text ++ rest) = .ok (v, rest)) : Reads text v := by
  obtain ⟨c, r, rfl, hc⟩ := hhead
  refine ⟨List.cons_ne_nil c r, ?_⟩
  intro rest fuel hrest hfuel
  obtain ⟨f, rfl⟩ : ∃ f, fuel = f + 1 := ⟨fuel - 1, by rw [List.length_cons] at hfuel; omega⟩
  rw [← hnumeric rest hrest]
  exact valueFrom_numeric hc f (r ++ rest)

theorem exists_chars_cons (w : Spelling) (t : List Char) :
    ∃ c r, w.chars ++ t = c :: r ∧ Spelling.isNumberChar c = true := by
  cases hw : w.chars with
  | nil => exact absurd hw w.chars_ne_nil
  | cons c r =>
    refine ⟨c, r ++ t, rfl, w.isNumberChar_of_mem ?_⟩
    rw [hw]
    exact List.mem_cons_self

/-- A written number is read as a number. -/
theorem IsSpelling.reads {text : List Char} {v : Value} {w : Spelling} (h : IsSpelling text v w) :
    Reads text v := by
  obtain ⟨rfl, hshort, rfl⟩ := h
  have hhead := exists_chars_cons w []
  rw [List.append_nil] at hhead
  exact Reads.of_numeric hhead fun rest hrest => numeric_gap hshort hrest

/-- A percentage is read as a text. -/
theorem IsSpelling.reads_percent {text : List Char} {v : Value} {w : Spelling}
    (h : IsSpelling text v w) : Reads (text ++ ['%']) (.text (String.ofList (text ++ ['%']))) := by
  obtain ⟨rfl, hshort, -⟩ := h
  refine Reads.of_numeric (exists_chars_cons w ['%']) fun rest _ => ?_
  rw [List.append_assoc]
  exact numeric_percent hshort rest

/-- A length of time is read as a double. -/
theorem reads_seconds {w : Spelling} (hw : isTooLong w.chars = false) :
    Reads (w.chars ++ ['s']) (.float (secondsOf w.chars)) := by
  refine Reads.of_numeric (exists_chars_cons w ['s']) fun rest _ => ?_
  rw [List.append_assoc]
  exact numeric_seconds hw rest

theorem reads_color (n : Nat) : Reads (Literal.color n) (.int n) := by
  refine Reads.of_numeric ⟨'0', _, rfl, by decide⟩ fun rest hrest => ?_
  exact numeric_color n hrest

/-- A text between quotes is read up to its closing quote, whatever stands behind it. -/
theorem valueFrom_quote (s : String) (rest : List Char) (fuel : Nat) :
    valueFrom (fuel + 1) (Literal.quote s.toList ++ rest) = .ok (.text s, rest) := by
  rw [quote_append, valueFrom, skipSpaces_cons (by decide)]
  simp only [text_quoted, ok_bind, pure_eq_ok, String.ofList_toList]

/-- A text between quotes is read as the text. -/
theorem reads_quote (s : String) : Reads (Literal.quote s.toList) (.text s) := by
  refine ⟨List.cons_ne_nil _ _, ?_⟩
  intro rest fuel _ hfuel
  obtain ⟨f, rfl⟩ : ∃ f, fuel = f + 1 := by
    refine ⟨fuel - 1, ?_⟩
    simp only [Literal.quote, List.cons_append, List.length_cons] at hfuel
    omega
  exact valueFrom_quote s rest f

/-! ## Section 3: Mappings -/

/-- A field as it is written and as it is read. -/
structure Assigned where
  /-- The key. -/
  key : String
  /-- The text of the value. -/
  text : List Char
  /-- The value that is read. -/
  value : Value

namespace Assigned

/-- The text of a field. -/
def chars (a : Assigned) : List Char :=
  Literal.assignment (.text a.key) a.text

/-- What a field assigns. -/
def field (a : Assigned) : String × Value :=
  (a.key, a.value)

/-- A field with a key that is an identifier and a text that is read as its value. -/
structure Sound (a : Assigned) : Prop where
  name : isName a.key.toList = true
  reads : Reads a.text a.value

theorem chars_append (a : Assigned) (rest : List Char) :
    a.chars ++ rest = a.key.toList ++ ' ' :: '=' :: ' ' :: (a.text ++ rest) := by
  simp [chars, Literal.assignment, Value.shown]

theorem length_chars (a : Assigned) :
    a.chars.length = a.key.toList.length + 3 + a.text.length := by
  simp only [chars, Literal.assignment, Value.shown, List.length_append, List.length_cons,
    List.length_nil]

/-- A field starts with a character of its key. -/
theorem exists_chars_eq_cons {a : Assigned} (ha : a.Sound) :
    ∃ c t, a.chars = c :: t ∧ isIdentifierRest c = true := by
  have hname := ha.name
  cases hkey : a.key.toList with
  | nil =>
    rw [hkey] at hname
    cases hname
  | cons c t =>
    refine ⟨c, t ++ ' ' :: '=' :: ' ' :: a.text, ?_, isIdentifierRest_of_mem hname ?_⟩
    · simp [chars, Literal.assignment, Value.shown, hkey]
    · rw [hkey]
      exact List.mem_cons_self

end Assigned

/-- The text of fields with commas between them. -/
def joinedChars (parts : List Assigned) : List Char :=
  joinWith [',', ' '] (parts.map Assigned.chars)

/-- The key of a field and the mark behind it, in front of the value. -/
theorem identifier_chars {a : Assigned} (ha : a.Sound) (rest : List Char) :
    identifier (a.chars ++ rest) = .ok (a.key, ' ' :: '=' :: ' ' :: (a.text ++ rest)) := by
  rw [a.chars_append, identifier_append ha.name
    ((AtGap.blank _).startsOutside (by decide) (by decide)), String.ofList_toList]

theorem expect_equals (r : List Char) : expect '=' (' ' :: '=' :: ' ' :: r) = .ok (' ' :: r) := by
  rw [expect_blank, expect_cons (by decide)]

/-- A field and what stands behind it. -/
theorem assignmentsFrom_chars {a : Assigned} (ha : a.Sound) {rest : List Char} (hrest : AtGap rest)
    {fuel : Nat} (hfuel : a.chars.length ≤ fuel + 1) (acc : Fields) :
    assignmentsFrom (fuel + 1) acc (a.chars ++ rest)
      = match skipSpaces rest with
        | ',' :: r => assignmentsFrom fuel (Fields.put acc a.key a.value) r
        | '}' :: r => .ok (Fields.put acc a.key a.value, r)
        | _ => .error .expectedCommaOrBrace := by
  have hvalue : valueFrom fuel (a.text ++ rest) = .ok (a.value, rest) := by
    refine ha.reads.valueFrom_eq hrest ?_
    rw [a.length_chars] at hfuel
    omega
  rw [assignmentsFrom, identifier_chars ha, ok_bind]
  simp only [expect_equals, ok_bind, valueFrom_blank, hvalue]
  rfl

theorem assignmentsFrom_blank (fuel : Nat) (acc : Fields) (s : List Char) :
    assignmentsFrom fuel acc (' ' :: s) = assignmentsFrom fuel acc s := by
  cases fuel with
  | zero => rfl
  | succ fuel => rw [assignmentsFrom, assignmentsFrom, identifier_blank]

/-- Fields are assigned one after the other, up to the closing brace. -/
theorem assignmentsFrom_joined {parts : List Assigned} (hparts : ∀ a ∈ parts, a.Sound)
    (hne : parts ≠ []) {fuel : Nat} (hfuel : (joinedChars parts).length ≤ fuel) (acc : Fields)
    (rest : List Char) :
    assignmentsFrom fuel acc (joinedChars parts ++ ' ' :: '}' :: rest)
      = .ok (Fields.assign acc (parts.map Assigned.field), rest) := by
  induction parts generalizing fuel acc with
  | nil => exact absurd rfl hne
  | cons a r ih =>
    have ha : a.Sound := hparts a List.mem_cons_self
    cases r with
    | nil =>
      have hjoin : joinedChars [a] = a.chars := rfl
      rw [hjoin] at hfuel ⊢
      obtain ⟨f, rfl⟩ : ∃ f, fuel = f + 1 := ⟨fuel - 1, by rw [a.length_chars] at hfuel; omega⟩
      rw [assignmentsFrom_chars ha (AtGap.blank _) hfuel, skipSpaces_blank,
        skipSpaces_cons (by decide)]
      rfl
    | cons b r =>
      have hjoin : joinedChars (a :: b :: r) = a.chars ++ ',' :: ' ' :: joinedChars (b :: r) := by
        simp [joinedChars, joinWith]
      rw [hjoin, List.length_append, List.length_cons, List.length_cons] at hfuel
      obtain ⟨f, rfl⟩ : ∃ f, fuel = f + 1 := ⟨fuel - 1, by omega⟩
      rw [hjoin, List.append_assoc, List.cons_append, List.cons_append,
        assignmentsFrom_chars ha (AtGap.comma _) (by omega), skipSpaces_cons (by decide)]
      show assignmentsFrom f _ (' ' :: (joinedChars (b :: r) ++ ' ' :: '}' :: rest)) = _
      rw [assignmentsFrom_blank, ih (fun c hc => hparts c (List.mem_cons_of_mem a hc))
        (List.cons_ne_nil b r) (by omega)]
      rfl

/-- The text of a mapping behind its opening brace. -/
def closing (parts : List Assigned) : List Char :=
  if parts.isEmpty then ['}'] else ' ' :: joinedChars parts ++ [' ', '}']

theorem braced_eq (parts : List Assigned) :
    Literal.braced (parts.map Assigned.chars) = '{' :: closing parts := by
  cases parts with
  | nil => rfl
  | cons a r => simp [Literal.braced, closing, joinedChars]

/-- Behind its opening brace, a mapping is read as the successive assignments of its fields. -/
theorem fieldsFrom_closing {parts : List Assigned} (hparts : ∀ a ∈ parts, a.Sound) {fuel : Nat}
    (hfuel : (closing parts).length ≤ fuel) (rest : List Char) :
    fieldsFrom fuel (closing parts ++ rest)
      = .ok (Fields.assign [] (parts.map Assigned.field), rest) := by
  cases parts with
  | nil =>
    obtain ⟨f, rfl⟩ : ∃ f, fuel = f + 1 := ⟨fuel - 1, by simp [closing] at hfuel; omega⟩
    rw [fieldsFrom]
    rfl
  | cons a r =>
    have hclosing : closing (a :: r) ++ rest = ' ' :: (joinedChars (a :: r) ++ ' ' :: '}' :: rest) := by
      simp [closing]
    have hlength : (closing (a :: r)).length = (joinedChars (a :: r)).length + 3 := by
      simp [closing]
    obtain ⟨f, rfl⟩ : ∃ f, fuel = f + 1 := ⟨fuel - 1, by omega⟩
    have hroom : (joinedChars (a :: r)).length ≤ f := by omega
    have hassign := assignmentsFrom_joined hparts (List.cons_ne_nil a r) hroom [] rest
    -- the first field starts with its key, and not with the closing brace
    obtain ⟨c, t, hc, hstart⟩ := Assigned.exists_chars_eq_cons (hparts a List.mem_cons_self)
    obtain ⟨u, hu⟩ : ∃ u, joinedChars (a :: r) ++ ' ' :: '}' :: rest = c :: u := by
      cases r with
      | nil => exact ⟨t ++ ' ' :: '}' :: rest, by simp [joinedChars, joinWith, hc]⟩
      | cons b r =>
        exact ⟨t ++ ',' :: ' ' :: (joinedChars (b :: r) ++ ' ' :: '}' :: rest), by
          simp [joinedChars, joinWith, hc]⟩
    rw [hclosing, fieldsFrom, skipSpaces_blank, hu,
      skipSpaces_cons (isSpace_of_isIdentifierRest hstart), ← hassign, hu]
    split
    · next heq =>
      obtain rfl := (List.cons.inj heq).1
      exact absurd hstart (by decide)
    · rfl

/-- A mapping between braces is read up to its closing brace, whatever stands behind it. -/
theorem valueFrom_braced {parts : List Assigned} (hparts : ∀ a ∈ parts, a.Sound) {fuel : Nat}
    (hfuel : (Literal.braced (parts.map Assigned.chars)).length ≤ fuel) (rest : List Char) :
    valueFrom fuel (Literal.braced (parts.map Assigned.chars) ++ rest)
      = .ok (.dict (Fields.assign [] (parts.map Assigned.field)), rest) := by
  rw [braced_eq] at hfuel ⊢
  rw [List.length_cons] at hfuel
  obtain ⟨f, rfl⟩ : ∃ f, fuel = f + 1 := ⟨fuel - 1, by omega⟩
  have hroom : (closing parts).length ≤ f := by omega
  have hfields := fieldsFrom_closing hparts hroom rest
  rw [List.cons_append, valueFrom, skipSpaces_cons (by decide)]
  simp only [hfields, ok_bind, pure_eq_ok]

/-- A mapping between braces is read as the successive assignments of its fields. -/
theorem reads_braced {parts : List Assigned} (hparts : ∀ a ∈ parts, a.Sound) :
    Reads (Literal.braced (parts.map Assigned.chars))
      (.dict (Fields.assign [] (parts.map Assigned.field))) := by
  constructor
  · rw [braced_eq]
    exact List.cons_ne_nil _ _
  · intro rest fuel _ hfuel
    exact valueFrom_braced hparts hfuel rest

/-- So it is where only a mapping may come next. -/
theorem mapping_braced {parts : List Assigned} (hparts : ∀ a ∈ parts, a.Sound)
    (rest : List Char) :
    mapping (' ' :: Literal.braced (parts.map Assigned.chars) ++ rest)
      = .ok (Fields.assign [] (parts.map Assigned.field), rest) := by
  have hfuel : (closing parts).length ≤ fuelFor (closing parts ++ rest) := by
    rw [fuelFor, List.length_append]
    omega
  rw [braced_eq, mapping, List.cons_append, List.cons_append, expect_blank,
    expect_cons (by decide), ok_bind, fieldsFrom_closing hparts hfuel]

end Scanner

end Overlay
