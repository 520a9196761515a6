import Overlay.Proofs.Script.Shots

/-!
# Reading the lines of a block

How the reader goes through a block: the opening declares a name, each attribute line assigns, the
closing brace ends the object, and each statement is put behind those before it.

## Main definitions
- `Says`: a line that is read as a statement
- `Progress.after`: what has been read after the block of a shot

## Main statements
- `readLines_append`: lines are read one part after the other
- `readLines_attributes`: attribute lines assign
- `readLines_statements`: statements are read in their order
-/

namespace Overlay.Script

open Overlay.Text Overlay.Number Overlay.Scanner Overlay.Literal

/-! ## Section 1: Blanks -/

theorem isBlankText_of_mem {s : List Char} {c : Char} (hc : c ∈ s) (hblank : isBlank c = false) :
    isBlankText s = false := by
  cases h : isBlankText s with
  | false => rfl
  | true =>
    have hall := List.all_eq_true.mp h c hc
    rw [hblank] at hall
    cases hall

/-- The characters of identifiers can be seen. -/
theorem isBlank_of_isIdentifierRest {c : Char} (h : isIdentifierRest c = true) :
    isBlank c = false := by
  obtain ⟨hlow, hhigh⟩ := toNat_of_isIdentifierRest h
  simp only [isBlank, Bool.or_eq_false_iff, Bool.and_eq_false_imp, decide_eq_true_eq,
    decide_eq_false_iff_not]
  omega

/-! ## Section 2: Parts of a script -/

/-- Lines are read one part after the other. -/
theorem readLines_append (p : Progress) (line : Nat) (ls ms : List (List Char)) :
    readLines p line (ls ++ ms)
      = readLines p line ls >>= fun q => readLines q (line + ls.length) ms := by
  induction ls generalizing p line with
  | nil => rfl
  | cons l r ih =>
    rw [List.cons_append, readLines, readLines]
    cases readLine p line l with
    | error complaint => rfl
    | ok q =>
      show readLines q (line + 1) (r ++ ms) = _
      rw [ih, List.length_cons, show line + (r.length + 1) = line + 1 + r.length by omega]

/-- Lines that are refused are refused for one of them. -/
theorem exists_refused_line {p : Progress} {line : Nat} {ls : List (List Char)} {fault : Fault}
    (h : readLines p line ls = .error fault) :
    ∃ q n complaint, ∃ l ∈ ls, readLine q n l = .error complaint
      ∧ fault = complaint.fault n ∧ n < line + ls.length := by
  induction ls generalizing p line with
  | nil => cases h
  | cons l r ih =>
    rw [readLines] at h
    rw [List.length_cons]
    split at h
    · obtain ⟨q, n, complaint, m, hm, hrefused, hfault, hn⟩ := ih h
      exact ⟨q, n, complaint, m, List.mem_cons_of_mem l hm, hrefused, hfault, by omega⟩
    · next complaint hrefused =>
      exact ⟨p, line, complaint, l, List.mem_cons_self, hrefused, (Except.error.inj h).symm, by omega⟩

theorem readLines_cons {p q : Progress} {line : Nat} {l : List Char}
    (h : readLine p line l = .ok q) (r : List (List Char)) :
    readLines p line (l :: r) = readLines q (line + 1) r := by
  rw [readLines, h]

/-! ## Section 3: Objects -/

/-- The line of an attribute. -/
def attributeLine (a : Assigned) : List Char :=
  Emission.indent ++ a.chars

theorem skipSpaces_indent (s : List Char) : skipSpaces (Emission.indent ++ s) = skipSpaces s := by
  show skipSpaces (' ' :: ' ' :: ' ' :: ' ' :: s) = skipSpaces s
  simp only [skipSpaces_blank]

/-- An attribute line assigns. -/
theorem readLine_attribute {p : Progress} {d : Definition} (hp : p.current = some d) {a : Assigned}
    (ha : a.Sound) (line : Nat) :
    readLine p line (attributeLine a)
      = .ok { p with current := some { d with attrs := Fields.put d.attrs a.key a.value } } := by
  obtain ⟨c, t, hc, hstart⟩ := Assigned.exists_chars_eq_cons ha
  have hblank : isBlankText (attributeLine a) = false := by
    refine isBlankText_of_mem (c := c) ?_ (isBlank_of_isIdentifierRest hstart)
    simp [attributeLine, hc]
  have hskip : skipSpaces (attributeLine a) = a.chars := by
    rw [attributeLine, skipSpaces_indent, hc, skipSpaces_cons (isSpace_of_isIdentifierRest hstart)]
  have hkey := identifier_chars ha []
  have hvalue := ha.reads.value_eq AtGap.nil
  rw [List.append_nil] at hkey
  rw [readLine, hblank, hp]
  simp only [Bool.false_eq_true, if_false]
  rw [readInside, hskip]
  split
  · next heq =>
    rw [hc] at heq
    obtain rfl := (List.cons.inj heq).1
    exact absurd hstart (by decide)
  · rw [hkey, ok_bind]
    simp only [expect_equals, ok_bind, hvalue]
    rfl

/-- Attribute lines assign one after the other. -/
theorem readLines_attributes {parts : List Assigned} (hparts : ∀ a ∈ parts, a.Sound)
    {p : Progress} {d : Definition} (hp : p.current = some d) (line : Nat) :
    readLines p line (parts.map attributeLine)
      = .ok { p with
        current := some { d with attrs := Fields.assign d.attrs (parts.map Assigned.field) } } := by
  induction parts generalizing p d line with
  | nil =>
    rw [List.map_nil, readLines, List.map_nil, Fields.assign, List.foldl_nil, ← hp]
  | cons a r ih =>
    have ha : a.Sound := hparts a List.mem_cons_self
    rw [List.map_cons, readLines_cons (readLine_attribute hp ha line),
      ih (fun b hb => hparts b (List.mem_cons_of_mem a hb)) rfl]
    rfl

/-- The name of an object is an identifier. -/
theorem isName_identifier (id : Value) : isName (identifier id).toList = true := by
  rw [identifier, String.toList_ofList, identifierChars]
  have hrest : ∀ c ∈ id.shown.toList.filter Char.isAlphanum, isIdentifierRest c = true := by
    intro c hc
    rw [isIdentifierRest, (List.mem_filter.mp hc).2, Bool.true_or]
  simp only [identifierMark, List.cons_append, List.nil_append, isName, List.all_cons, Bool.and_eq_true,
    List.all_eq_true]
  exact ⟨by decide, by decide, by decide, by decide, hrest⟩

/-- The identifier of an id that has a text is an identifier. -/
theorem isName_of_identifierOf {id : Value} {name : String} (h : identifierOf id = .ok name) :
    isName name.toList = true := by
  rw [eq_identifier_of_identifierOf h]
  exact isName_identifier id

/-- The line that opens an object. -/
def openingLine (kind : ResourceKind) (name : String) : List Char :=
  "def ".toList ++ kind.word.toList ++ ' ' :: name.toList ++ " \x7b".toList

theorem openingLine_eq (kind : ResourceKind) (name : String) :
    openingLine kind name
      = "def ".toList ++ kind.word.toList ++ ' ' :: name.toList ++ " \x7b".toList :=
  rfl

/-- The opening of an object declares its name. -/
theorem readLine_opening {p : Progress} (hp : p.current = none) (kind : ResourceKind) {name : String}
    (hname : isName name.toList = true) (hnew : p.declared.contains name = false) (line : Nat) :
    readLine p line (openingLine kind name)
      = .ok { p with declared := name :: p.declared, current := some ⟨kind, name, []⟩ } := by
  have hline : openingLine kind name
      = "def".toList ++ ' ' :: (kind.word.toList ++ ' ' :: (name.toList ++ [' ', '{'])) := by
    rw [openingLine_eq]
    simp
  have hblank : isBlankText (openingLine kind name) = false := by
    rw [hline]
    exact isBlankText_of_mem (c := 'd') (by simp) (by decide)
  have hword : isName kind.word.toList = true := by
    cases kind <;> decide
  have hgap : ∀ r, StartsOutside isIdentifierRest (' ' :: r) :=
    fun r => StartsOutside.cons (by decide) r
  rw [readLine, hblank, hp]
  simp only [Bool.false_eq_true, if_false]
  rw [hline, keyword?_append (by decide), if_pos rfl]
  simp only [readOpening, identifier_blank, identifier_append hword (hgap _), ok_bind,
    String.ofList_toList, ResourceKind.ofWord?_word, identifier_append hname (hgap _), hnew,
    Bool.false_eq_true, if_false]
  rfl

/-- The closing brace ends an object. -/
theorem readLine_closing {p : Progress} {d : Definition} (hp : p.current = some d) (line : Nat) :
    readLine p line ['}'] = .ok { p with defs := p.defs ++ [d], current := none } := by
  rw [readLine, hp]
  rfl

/-! ## Section 4: Statements -/

/-- A line that is read as a statement about an object. -/
structure Says (name : String) (text : List Char) (b : Beat) : Prop where
  readLine_eq : ∀ {p : Progress} {line : Nat}, p.current = none → p.declared.contains name = true →
    readLine p line text = .ok { p with sets := p.sets ++ [b.at name line] }

/-- Properties between braces that are read as a mapping. -/
def ReadsMapping (text : List Char) (fs : Fields) : Prop :=
  ∀ rest, Scanner.mapping (' ' :: (text ++ rest)) = .ok (fs, rest)

/-- What stands behind the words of a statement. -/
def behind (name : String) (properties seconds : List Char) : List Char :=
  name.toList ++ ' ' :: (properties ++ ' ' :: (seconds ++ ['s']))

theorem readStatement_set {name : String} (hname : isName name.toList = true)
    {properties : List Char} {fs : Fields} (hproperties : ReadsMapping properties fs)
    {w : Spelling} (hw : isTooLong w.chars = false) (line : Nat) (chained : Bool) :
    readStatement line chained ("set".toList ++ ' ' :: behind name properties w.chars)
      = .ok ⟨name, fs, secondsOf w.chars, chained, line⟩ := by
  have hgap : StartsOutside isIdentifierRest (' ' :: (properties ++ ' ' :: (w.chars ++ ['s']))) :=
    StartsOutside.cons (by decide) _
  have hseconds := (reads_seconds hw).value_eq AtGap.nil
  rw [List.append_nil] at hseconds
  have hmapping := hproperties (' ' :: (w.chars ++ ['s']))
  rw [readStatement, keyword?_append (by decide), if_pos rfl]
  simp only [identifier_blank, behind, identifier_append hname hgap, ok_bind, hmapping,
    hseconds, String.ofList_toList]
  rfl

/-- A statement is read with its properties and its length. -/
theorem says_statement {name : String} (hname : isName name.toList = true)
    {properties : List Char} {fs : Fields} (hproperties : ReadsMapping properties fs)
    {w : Spelling} (hw : isTooLong w.chars = false) (chained : Bool) :
    Says name
      (Emission.statement (if chained then Emission.thenSetWord else Emission.setWord) name.toList
        properties w.chars)
      ⟨fs, secondsOf w.chars, chained⟩ := by
  refine ⟨?_⟩
  intro p line hp hdeclared
  cases chained with
  | false =>
    have htext : Emission.statement Emission.setWord name.toList properties w.chars
        = "set".toList ++ ' ' :: behind name properties w.chars := by
      simp [Emission.statement, Emission.setWord, behind]
    have hblank : isBlankText ("set".toList ++ ' ' :: behind name properties w.chars) = false :=
      isBlankText_of_mem (c := 's') (by simp) (by decide)
    simp only [Bool.false_eq_true, if_false]
    rw [htext, readLine, hblank, hp]
    simp only [Bool.false_eq_true, if_false]
    rw [keyword?_append (by decide), if_neg (by decide)]
    have hset : isName "set".toList = true := by decide
    simp only [readSet, keyword?_append hset "then",
      if_neg (show "set".toList ≠ "then".toList by decide),
      readStatement_set hname hproperties hw line false, ok_bind, hdeclared, if_true, hp]
    rfl
  | true =>
    have htext : Emission.statement Emission.thenSetWord name.toList properties w.chars
        = "then".toList ++ ' ' :: ("set".toList ++ ' ' :: behind name properties w.chars) := by
      rw [Emission.statement, show Emission.thenSetWord = "then".toList ++ ' ' :: "set".toList by rfl]
      simp only [behind, List.append_assoc, List.cons_append]
    have hblank : isBlankText ("then".toList ++ ' ' :: ("set".toList ++ ' ' ::
        behind name properties w.chars)) = false :=
      isBlankText_of_mem (c := 't') (by simp) (by decide)
    have hstatement : readStatement line true
        (' ' :: ("set".toList ++ ' ' :: behind name properties w.chars))
          = .ok ⟨name, fs, secondsOf w.chars, true, line⟩ := by
      rw [← readStatement_set hname hproperties hw line true, readStatement, readStatement,
        keyword?_blank]
    simp only [if_true]
    rw [htext, readLine, hblank, hp]
    simp only [Bool.false_eq_true, if_false]
    rw [keyword?_append (by decide), if_neg (by decide)]
    have hthen : isName "then".toList = true := by decide
    simp only [readSet, keyword?_append hthen "then", if_true, hstatement, ok_bind, hdeclared, hp]
    rfl

/-- Statements are read in their order. -/
theorem readLines_statements {name : String} {ls : List (List Char)} {bs : List Beat}
    (h : List.Forall₂ (Says name) ls bs) {p : Progress} (hp : p.current = none)
    (hdeclared : p.declared.contains name = true) (line : Nat) :
    readLines p line ls = .ok { p with sets := p.sets ++ numbered name line bs } := by
  induction h generalizing p line with
  | nil => simp [readLines, numbered]
  | @cons l b ls bs hline _ ih =>
    have hnext := ih (p := { p with sets := p.sets ++ [b.at name line] }) hp hdeclared (line + 1)
    rw [readLines_cons (hline.readLine_eq hp hdeclared), hnext, numbered]
    simp only [List.append_assoc, List.cons_append, List.nil_append]

end Overlay.Script
