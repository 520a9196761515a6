import Mathlib.Data.List.DropRight
import Overlay.Proofs.Script.Reading

/-!
# The parts of a script

What a script is made of: blocks, each of which defines an object over several lines, and statements
of one line.  The reader goes from line to line and keeps the block that is open.  Here a script is
taken apart as a whole, and the reader accepts a text exactly if its lines are such parts.

## Main definitions
- `IsOpening`, `IsAttribute`, `IsClosing`, `Defines`: the lines of a block
- `StartsStatement`, `States`: the line of a statement
- `Block`: a definition with the lines that give it
- `Parts`: lines that are blocks and statements, one after the other

## Main statements
- `readLine_inside_eq_ok`, `readLine_outside_eq_ok`: what one line can do
- `Parts.exists_readLines`, `exists_parts`: what all lines can do
- `parse_eq_ok_iff`: a text is accepted exactly if its lines are parts of a script
-/

namespace Overlay

/-- Only the word of a kind names the kind. -/
theorem ResourceKind.eq_word_of_ofWord? {w : String} {kind : ResourceKind}
    (h : ofWord? w = some kind) : w = kind.word := by
  have hword := List.find?_some h
  exact (eq_of_beq hword).symm

namespace Scanner

/-! ## Section 1: Words that are there -/

theorem skipSpaces_skipSpaces (s : List Char) : skipSpaces (skipSpaces s) = skipSpaces s := by
  rw [skipSpaces, skipSpaces, List.dropWhile_idempotent]

/-- What is left after the spaces was there before. -/
theorem mem_of_mem_skipSpaces {c : Char} {s : List Char} (h : c ∈ skipSpaces s) : c ∈ s :=
  (List.dropWhile_sublist isSpace).mem h

theorem identifier_skipSpaces (s : List Char) : identifier (skipSpaces s) = identifier s := by
  rw [identifier, identifier, skipSpaces_skipSpaces]

/-- An identifier starts with one of its characters. -/
theorem exists_start_of_identifier? {s name r : List Char}
    (h : identifier? s = some (name, r)) : ∃ c t, s = c :: t ∧ isIdentifierStart c = true := by
  cases s with
  | nil => cases h
  | cons c t =>
    rw [identifier?] at h
    split at h
    · next hc => exact ⟨c, t, rfl, hc⟩
    · cases h

theorem exists_start_of_identifier {s : List Char} {name : String} {r : List Char}
    (h : identifier s = .ok (name, r)) :
    ∃ c t, skipSpaces s = c :: t ∧ isIdentifierStart c = true := by
  rw [identifier] at h
  split at h
  · next heq => exact exists_start_of_identifier? heq
  · cases h

theorem exists_start_of_keyword? {word : String} {s r : List Char}
    (h : keyword? word s = some r) : ∃ c t, skipSpaces s = c :: t ∧ isIdentifierStart c = true := by
  rw [keyword?] at h
  split at h
  · next heq => exact exists_start_of_identifier? heq
  · cases h

/-- Only one word comes next. -/
theorem keyword?_unique {v w : String} {s r t : List Char} (hv : keyword? v s = some r)
    (hw : keyword? w s = some t) : v = w := by
  rw [keyword?] at hv hw
  split at hv
  · split at hv
    · next heq hname =>
      rw [heq] at hw
      dsimp only at hw
      split at hw
      · next hname' => exact String.toList_inj.mp (hname.symm.trans hname')
      · cases hw
    · cases hv
  · cases hv

/-- A line with another word at its front does not start with a keyword. -/
theorem keyword?_eq_none {v w : String} {s r : List Char} (hv : keyword? v s = some r)
    (hne : v ≠ w) : keyword? w s = none := by
  cases hw : keyword? w s with
  | none => rfl
  | some t => exact absurd (keyword?_unique hv hw) hne

/-- A character comes next where it is left after the spaces. -/
theorem expect_eq_ok {c : Char} {s r : List Char} :
    expect c s = .ok r ↔ skipSpaces s = c :: r := by
  rw [expect]
  split
  · next d t heq =>
    rw [heq]
    by_cases h : d = c
    · simp [h]
    · simp [h]
  · next heq => simp [heq]

end Scanner

namespace Script

open Overlay.Text Overlay.Scanner

/-! ## Section 2: The lines of a block -/

/-- A line that opens the block of an object. -/
def IsOpening (l : List Char) (kind : ResourceKind) (name : String) : Prop :=
  ∃ r s t u, keyword? "def" l = some r ∧ Scanner.identifier r = .ok (kind.word, s)
    ∧ Scanner.identifier s = .ok (name, t) ∧ expect '{' t = .ok u ∧ atEnd u = true

/-- A line that gives an attribute. -/
def IsAttribute (l : List Char) (a : String × Value) : Prop :=
  ∃ r s t, Scanner.identifier l = .ok (a.1, r) ∧ expect '=' r = .ok s
    ∧ Scanner.value s = .ok (a.2, t) ∧ atEnd t = true

/-- A line that closes a block. -/
def IsClosing (l : List Char) : Prop :=
  ∃ r, expect '}' l = .ok r ∧ atEnd r = true

/-- Lines that are the block of a definition; of the attributes with one key the last one counts. -/
def Defines (ls : List (List Char)) (d : Definition) : Prop :=
  ∃ opening inner closing assignments, ls = opening :: (inner ++ [closing])
    ∧ IsOpening opening d.kind d.name ∧ List.Forall₂ IsAttribute inner assignments
    ∧ IsClosing closing ∧ d.attrs = Fields.assign [] assignments

/-- A line on which an identifier stands is not blank. -/
theorem isBlankText_of_start {l : List Char}
    (h : ∃ c t, skipSpaces l = c :: t ∧ isIdentifierStart c = true) : isBlankText l = false := by
  obtain ⟨c, t, hskip, hc⟩ := h
  refine isBlankText_of_mem (c := c) (mem_of_mem_skipSpaces ?_)
    (isBlank_of_isIdentifierRest (isIdentifierRest_of_start hc))
  rw [hskip]
  exact List.mem_cons_self

theorem IsClosing.isBlankText_eq {l : List Char} (h : IsClosing l) : isBlankText l = false := by
  obtain ⟨r, hr, -⟩ := h
  refine isBlankText_of_mem (c := '}') (mem_of_mem_skipSpaces ?_) (by decide)
  rw [expect_eq_ok.mp hr]
  exact List.mem_cons_self

/-- Inside of a block, a line closes the block or gives an attribute. -/
theorem readInside_eq_ok {p q : Progress} {d : Definition} {l : List Char} :
    readInside p d l = .ok q ↔
      IsClosing l ∧ q = { p with defs := p.defs ++ [d], current := none }
      ∨ ∃ a, IsAttribute l a
        ∧ q = { p with current := some { d with attrs := Fields.put d.attrs a.1 a.2 } } := by
  rw [readInside]
  split
  · -- a brace is no identifier, so the line can only close the block
    next r hskip =>
    have hno : ∀ a, ¬ IsAttribute l a := by
      rintro a ⟨s, -, -, hs, -⟩
      obtain ⟨c, t, hstart, hc⟩ := exists_start_of_identifier hs
      obtain rfl := (List.cons.inj (hskip.symm.trans hstart)).1
      exact absurd hc (by decide)
    have hclosing : IsClosing l ↔ atEnd r = true := by
      constructor
      · rintro ⟨s, hs, hend⟩
        rw [(List.cons.inj (hskip.symm.trans (expect_eq_ok.mp hs))).2]
        exact hend
      · intro hend
        exact ⟨r, expect_eq_ok.mpr hskip, hend⟩
    simp only [hclosing, hno, false_and, exists_false, or_false]
    split
    · next hend => simp [hend, eq_comm]
    · next hend => simp [hend]
  · -- without a brace, the line can only give an attribute
    next hother =>
    have hno : ¬ IsClosing l := by
      rintro ⟨r, hr, -⟩
      exact hother r (expect_eq_ok.mp hr)
    simp only [hno, false_and, false_or, identifier_skipSpaces, bind_eq_ok]
    constructor
    · rintro ⟨⟨key, r⟩, hr, s, hs, ⟨v, t⟩, ht, hq⟩
      split at hq
      · next hend => exact ⟨(key, v), ⟨r, s, t, hr, hs, ht, hend⟩, (Except.ok.inj hq).symm⟩
      · cases hq
    · rintro ⟨⟨key, v⟩, ⟨r, s, t, hr, hs, ht, hend⟩, rfl⟩
      refine ⟨(key, r), hr, s, hs, (v, t), ht, ?_⟩
      simp only [hend, if_true, pure_eq_ok]

theorem readLine_inside_eq_ok {p q : Progress} {d : Definition} (hp : p.current = some d)
    {line : Nat} {l : List Char} :
    readLine p line l = .ok q ↔
      IsClosing l ∧ q = { p with defs := p.defs ++ [d], current := none }
      ∨ ∃ a, IsAttribute l a
        ∧ q = { p with current := some { d with attrs := Fields.put d.attrs a.1 a.2 } } := by
  rw [readLine, hp]
  cases hblank : isBlankText l with
  | false => exact readInside_eq_ok
  | true =>
    -- a blank line is refused, and none of the two lines is blank
    have hclosing : ¬ IsClosing l := by
      intro h
      rw [h.isBlankText_eq] at hblank
      cases hblank
    have hattribute : ∀ a, ¬ IsAttribute l a := by
      rintro a ⟨r, -, -, hr, -⟩
      rw [isBlankText_of_start (exists_start_of_identifier hr)] at hblank
      cases hblank
    simp [hclosing, hattribute]

/-! ## Section 3: The line of a statement -/

/-- What stands in front of the length of a statement; `r` is left behind the properties. -/
def StartsStatement (l : List Char) (chained : Bool) (name : String) (properties : Fields)
    (r : List Char) : Prop :=
  ∃ s t u, (if chained then keyword? "then" l = some s else s = l)
    ∧ keyword? "set" s = some t ∧ Scanner.identifier t = .ok (name, u)
    ∧ mapping u = .ok (properties, r)

/-- A line that is a statement, whose length is a double. -/
def States (l : List Char) (s : Statement) : Prop :=
  ∃ r t, StartsStatement l s.chained s.name s.properties r
    ∧ Scanner.value r = .ok (.float s.duration, t) ∧ atEnd t = true

/-- The word at the front of a statement. -/
theorem StartsStatement.keyword?_eq {l : List Char} {chained : Bool} {name : String}
    {properties : Fields} {r : List Char} (h : StartsStatement l chained name properties r) :
    ∃ s, keyword? (if chained then "then" else "set") l = some s := by
  obtain ⟨s, t, u, hthen, hset, -⟩ := h
  cases chained with
  | true => exact ⟨s, hthen⟩
  | false =>
    obtain rfl : s = l := hthen
    exact ⟨t, hset⟩

/-- What is made of the length of a statement. -/
def endStatement (line : Nat) (chained : Bool) (name : String) (properties : Fields)
    (r : List Char) : Except Complaint Statement :=
  Scanner.value r >>= fun e => match e.1 with
    | .float x => if atEnd e.2 then .ok ⟨name, properties, x, chained, line⟩ else .error .textAfterSet
    | _ => .error .durationNotInSeconds

theorem endStatement_eq_ok {line : Nat} {chained : Bool} {name : String} {properties : Fields}
    {r : List Char} {st : Statement} :
    endStatement line chained name properties r = .ok st ↔
      ∃ x t, Scanner.value r = .ok (.float x, t) ∧ atEnd t = true
        ∧ st = ⟨name, properties, x, chained, line⟩ := by
  rw [endStatement, bind_eq_ok]
  constructor
  · rintro ⟨⟨v, t⟩, hv, hst⟩
    split at hst
    · next x hx =>
      obtain rfl : v = .float x := hx
      split at hst
      · next hend => exact ⟨x, t, hv, hend, (Except.ok.inj hst).symm⟩
      · cases hst
    · cases hst
  · rintro ⟨x, t, hv, hend, rfl⟩
    exact ⟨(.float x, t), hv, if_pos hend⟩

/-- Behind its properties, only the length of a statement is still open. -/
theorem StartsStatement.readSet_eq {l : List Char} {chained : Bool} {name : String}
    {properties : Fields} {r : List Char} (h : StartsStatement l chained name properties r)
    (p : Progress) (line : Nat) :
    readSet p line l = endStatement line chained name properties r >>= fun st =>
      if p.declared.contains st.name then .ok { p with sets := p.sets ++ [st] }
      else .error (.notDeclared st.name) := by
  obtain ⟨s, t, u, hthen, hset, hname, hmapping⟩ := h
  have hstatement : readStatement line chained s
      = endStatement line chained name properties r := by
    simp only [readStatement, hset, hname, hmapping, ok_bind]
    rfl
  cases chained with
  | true =>
    rw [if_pos rfl] at hthen
    simp only [readSet, hthen, hstatement]
    rfl
  | false =>
    obtain rfl : s = l := hthen
    simp only [readSet, keyword?_eq_none hset (show "set" ≠ "then" by decide), hstatement]
    rfl

/-- A statement that is read has the words of one. -/
theorem exists_startsStatement {p q : Progress} {line : Nat} {l : List Char}
    (h : readSet p line l = .ok q) :
    ∃ chained name properties r, StartsStatement l chained name properties r := by
  -- the words behind the one that chains are the same in both cases
  have hwords : ∀ chained s st, readStatement line chained s = .ok st →
      ∃ t u properties r, keyword? "set" s = some t ∧ Scanner.identifier t = .ok (st.name, u)
        ∧ mapping u = .ok (properties, r) := by
    intro chained s st hst
    rw [readStatement] at hst
    split at hst
    · cases hst
    · next t hset =>
      obtain ⟨⟨name, u⟩, hname, hst⟩ := bind_eq_ok.mp hst
      obtain ⟨⟨properties, r⟩, hmapping, hst⟩ := bind_eq_ok.mp hst
      obtain ⟨x, t', -, -, rfl⟩ := endStatement_eq_ok.mp hst
      exact ⟨t, u, properties, r, hset, hname, hmapping⟩
  rw [readSet] at h
  split at h
  · next s hthen =>
    obtain ⟨st, hst, -⟩ := bind_eq_ok.mp h
    obtain ⟨t, u, properties, r, hset, hname, hmapping⟩ := hwords true s st hst
    exact ⟨true, st.name, properties, r, s, t, u, hthen, hset, hname, hmapping⟩
  · obtain ⟨st, hst, -⟩ := bind_eq_ok.mp h
    obtain ⟨t, u, properties, r, hset, hname, hmapping⟩ := hwords false l st hst
    exact ⟨false, st.name, properties, r, l, t, u, rfl, hset, hname, hmapping⟩

theorem readSet_eq_ok {p q : Progress} {line : Nat} {l : List Char} :
    readSet p line l = .ok q ↔
      ∃ st, States l st ∧ st.line = line ∧ st.name ∈ p.declared
        ∧ q = { p with sets := p.sets ++ [st] } := by
  constructor
  · intro h
    obtain ⟨chained, name, properties, r, hstarts⟩ := exists_startsStatement h
    rw [hstarts.readSet_eq] at h
    obtain ⟨st, hst, h⟩ := bind_eq_ok.mp h
    obtain ⟨x, t, hv, hend, rfl⟩ := endStatement_eq_ok.mp hst
    split at h
    · next hdeclared =>
      exact ⟨_, ⟨r, t, hstarts, hv, hend⟩, rfl, List.contains_iff_mem.mp hdeclared,
        (Except.ok.inj h).symm⟩
    · cases h
  · rintro ⟨st, ⟨r, t, hstarts, hv, hend⟩, rfl, hdeclared, rfl⟩
    rw [hstarts.readSet_eq, endStatement_eq_ok.mpr ⟨st.duration, t, hv, hend, rfl⟩, ok_bind,
      if_pos (List.contains_iff_mem.mpr hdeclared)]

/-! ## Section 4: Single lines -/

theorem readOpening_eq_ok {p q : Progress} {l r : List Char} (hdef : keyword? "def" l = some r) :
    readOpening p r = .ok q ↔
      ∃ kind name, IsOpening l kind name ∧ name ∉ p.declared
        ∧ q = { p with declared := name :: p.declared, current := some ⟨kind, name, []⟩ } := by
  constructor
  · intro h
    obtain ⟨⟨word, s⟩, hword, h⟩ := bind_eq_ok.mp h
    dsimp only at h
    split at h
    · cases h
    · next kind hkind =>
      obtain rfl := ResourceKind.eq_word_of_ofWord? hkind
      obtain ⟨⟨name, t⟩, hname, h⟩ := bind_eq_ok.mp h
      dsimp only at h
      split at h
      · cases h
      · next hnew =>
        obtain ⟨u, hu, h⟩ := bind_eq_ok.mp h
        split at h
        · next hend =>
          rw [List.contains_iff_mem] at hnew
          exact ⟨kind, name, ⟨r, s, t, u, hdef, hword, hname, hu, hend⟩, hnew,
            (Except.ok.inj h).symm⟩
        · cases h
  · rintro ⟨kind, name, ⟨r', s, t, u, hdef', hword, hname, hu, hend⟩, hnew, rfl⟩
    obtain rfl := Option.some.inj (hdef.symm.trans hdef')
    have hfresh : p.declared.contains name = false := by
      rw [← Bool.not_eq_true, List.contains_iff_mem]
      exact hnew
    simp only [readOpening, hword, ok_bind, ResourceKind.ofWord?_word, hname, hfresh,
      Bool.false_eq_true, if_false, hu, hend, if_true]
    rfl

theorem IsOpening.isBlankText_eq {l : List Char} {kind : ResourceKind} {name : String}
    (h : IsOpening l kind name) : isBlankText l = false := by
  obtain ⟨r, -, -, -, hdef, -⟩ := h
  exact isBlankText_of_start (exists_start_of_keyword? hdef)

/-- A line with the words of a statement is handed on as one. -/
theorem StartsStatement.readLine_eq {l : List Char} {chained : Bool} {name : String}
    {properties : Fields} {r : List Char} (h : StartsStatement l chained name properties r)
    {p : Progress} (hp : p.current = none) (line : Nat) :
    readLine p line l = readSet p line l := by
  obtain ⟨s, hs⟩ := h.keyword?_eq
  have hblank := isBlankText_of_start (exists_start_of_keyword? hs)
  have hdef : keyword? "def" l = none := by
    refine keyword?_eq_none hs ?_
    cases chained <;> decide
  simp only [readLine, hblank, Bool.false_eq_true, if_false, hp, hdef]

/-- Outside of blocks, a line opens a block with a new name or is a statement about an object that is
known. -/
theorem readLine_outside_eq_ok {p q : Progress} (hp : p.current = none) {line : Nat}
    {l : List Char} :
    readLine p line l = .ok q ↔
      (∃ kind name, IsOpening l kind name ∧ name ∉ p.declared
        ∧ q = { p with declared := name :: p.declared, current := some ⟨kind, name, []⟩ })
      ∨ ∃ st, States l st ∧ st.line = line ∧ st.name ∈ p.declared
        ∧ q = { p with sets := p.sets ++ [st] } := by
  constructor
  · intro h
    rw [readLine, hp] at h
    split at h
    · cases h
    · dsimp only at h
      split at h
      · next r hdef => exact Or.inl ((readOpening_eq_ok hdef).mp h)
      · exact Or.inr (readSet_eq_ok.mp h)
  · rintro (⟨kind, name, hopening, hnew, rfl⟩ | ⟨st, hst, hline, hdeclared, rfl⟩)
    · obtain ⟨r, -, -, -, hdef, -⟩ := id hopening
      rw [readLine, hopening.isBlankText_eq, hp]
      simp only [Bool.false_eq_true, if_false, hdef]
      exact (readOpening_eq_ok hdef).mpr ⟨kind, name, hopening, hnew, rfl⟩
    · obtain ⟨r, -, hstarts, -⟩ := id hst
      rw [hstarts.readLine_eq hp]
      exact readSet_eq_ok.mpr ⟨st, hst, hline, hdeclared, rfl⟩

/-! ## Section 5: Blocks -/

/-- A definition with the lines that give it and the number of the first of them. -/
structure Block where
  first : Nat
  text : List (List Char)
  definition : Definition
  defines : Defines text definition

/-- The number of the line that closes a block. -/
def Block.last (b : Block) : Nat :=
  b.first + b.text.length - 1

/-- A block has a line that opens it and another one that closes it. -/
theorem Defines.two_le_length {ls : List (List Char)} {d : Definition} (h : Defines ls d) :
    2 ≤ ls.length := by
  obtain ⟨opening, inner, closing, assignments, rfl, -⟩ := h
  simp

theorem Block.first_lt_last (b : Block) : b.first < b.last := by
  have := b.defines.two_le_length
  rw [last]
  omega

theorem Block.last_succ (b : Block) : b.last + 1 = b.first + b.text.length := by
  have := b.defines.two_le_length
  rw [last]
  omega

/-- Attributes are assigned one after the other. -/
theorem readLines_inner {inner : List (List Char)} {assignments : List (String × Value)}
    (h : List.Forall₂ IsAttribute inner assignments) {p : Progress} {d : Definition}
    (hp : p.current = some d) (line : Nat) :
    readLines p line inner
      = .ok { p with current := some { d with attrs := Fields.assign d.attrs assignments } } := by
  induction h generalizing p d line with
  | nil => rw [readLines, Fields.assign, List.foldl_nil, ← hp]
  | @cons l a inner assignments hl _ ih =>
    rw [readLines_cons ((readLine_inside_eq_ok hp).mpr (Or.inr ⟨a, hl, rfl⟩)), ih rfl]
    rfl

/-- The reader takes a block as a whole. -/
theorem Defines.readLines_append {ls : List (List Char)} {d : Definition} (h : Defines ls d)
    {p : Progress} (hp : p.current = none) (hnew : d.name ∉ p.declared) (line : Nat)
    (rest : List (List Char)) :
    readLines p line (ls ++ rest)
      = readLines { p with defs := p.defs ++ [d], declared := d.name :: p.declared }
          (line + ls.length) rest := by
  obtain ⟨opening, inner, closing, assignments, rfl, hopening, hinner, hclosing, hattrs⟩ := h
  have hfirst : readLine p line opening
      = .ok { p with declared := d.name :: p.declared, current := some ⟨d.kind, d.name, []⟩ } :=
    (readLine_outside_eq_ok hp).mpr (Or.inl ⟨d.kind, d.name, hopening, hnew, rfl⟩)
  have hclose : ∀ q : Progress, q.current = some d → ∀ n,
      readLine q n closing = .ok { q with defs := q.defs ++ [d], current := none } :=
    fun q hq n => (readLine_inside_eq_ok hq).mpr (Or.inl ⟨hclosing, rfl⟩)
  -- the opening, the attributes and the closing line, one after the other
  rw [List.cons_append, readLines_cons hfirst, List.append_assoc, Script.readLines_append,
    readLines_inner hinner rfl, ok_bind, List.singleton_append, readLines_cons, hp]
  rotate_left
  · refine hclose _ ?_ _
    rw [← hattrs]
  · simp only [List.length_cons, List.length_append, List.length_nil]
    congr 1
    omega

/-- From inside of a block, the reader comes out of it at a line that closes it. -/
theorem exists_closing {p q : Progress} {d : Definition} (hp : p.current = some d) {line : Nat}
    {ls : List (List Char)} (h : readLines p line ls = .ok q) (hq : q.current = none) :
    ∃ inner closing rest assignments, ls = inner ++ closing :: rest
      ∧ List.Forall₂ IsAttribute inner assignments ∧ IsClosing closing := by
  induction ls generalizing p d line with
  | nil =>
    rw [readLines] at h
    rw [← Except.ok.inj h, hp] at hq
    cases hq
  | cons l r ih =>
    rw [readLines] at h
    split at h
    · next p' hl =>
      rcases (readLine_inside_eq_ok hp).mp hl with ⟨hclosing, -⟩ | ⟨a, ha, rfl⟩
      · exact ⟨[], l, r, [], rfl, .nil, hclosing⟩
      · obtain ⟨inner, closing, rest, assignments, rfl, hinner, hclosing⟩ := ih rfl h
        exact ⟨l :: inner, closing, rest, a :: assignments, rfl, .cons ha hinner, hclosing⟩
    · cases h

/-! ## Section 6: Whole scripts -/

/-- Lines that are blocks and statements, one after the other.  Some names are known before, and the
first of the lines has a number. -/
inductive Parts :
    List String → Nat → List (List Char) → List Block → List Statement → Prop where
  | nil {declared : List String} {line : Nat} : Parts declared line [] [] []
  | block {declared : List String} {line : Nat} {rest : List (List Char)} {blocks : List Block}
      {sets : List Statement} (b : Block) (hfirst : b.first = line)
      (hnew : b.definition.name ∉ declared)
      (hrest : Parts (b.definition.name :: declared) (b.last + 1) rest blocks sets) :
      Parts declared line (b.text ++ rest) (b :: blocks) sets
  | statement {declared : List String} {line : Nat} {rest : List (List Char)} {blocks : List Block}
      {sets : List Statement} {l : List Char} (st : Statement) (hstates : States l st)
      (hline : st.line = line) (hdeclared : st.name ∈ declared)
      (hrest : Parts declared (line + 1) rest blocks sets) :
      Parts declared line (l :: rest) blocks (st :: sets)

/-- The reader takes the parts of a script one after the other. -/
theorem Parts.exists_readLines {declared : List String} {line : Nat} {ls : List (List Char)}
    {blocks : List Block} {sets : List Statement} (h : Parts declared line ls blocks sets)
    {p : Progress} (hp : p.current = none) (hdeclared : p.declared = declared) :
    ∃ known, readLines p line ls
      = .ok ⟨p.defs ++ blocks.map Block.definition, p.sets ++ sets, known, none⟩ := by
  induction h generalizing p with
  | nil => exact ⟨p.declared, by simp [readLines, ← hp]⟩
  | block b hfirst hnew hrest ih =>
    subst hdeclared
    rw [b.defines.readLines_append hp hnew, ← hfirst, ← b.last_succ]
    simpa using ih (p := { p with
      defs := p.defs ++ [b.definition], declared := b.definition.name :: p.declared }) hp rfl
  | statement st hstates hline hknown hrest ih =>
    subst hdeclared
    rw [readLines_cons ((readLine_outside_eq_ok hp).mpr (Or.inr ⟨st, hstates, hline, hknown, rfl⟩))]
    simpa using ih (p := { p with sets := p.sets ++ [st] }) hp rfl

/-- Lines that are read to their end are parts of a script. -/
theorem exists_parts {p q : Progress} (hp : p.current = none) {line : Nat}
    {ls : List (List Char)} (h : readLines p line ls = .ok q) (hq : q.current = none) :
    ∃ blocks sets, Parts p.declared line ls blocks sets := by
  -- a block takes several lines at once
  induction hn : ls.length using Nat.strong_induction_on generalizing p line ls with
  | _ n ih =>
    subst hn
    cases ls with
    | nil => exact ⟨[], [], .nil⟩
    | cons l r =>
      have hread := h
      rw [readLines] at h
      split at h
      · next p' hl =>
        rcases (readLine_outside_eq_ok hp).mp hl with
          ⟨kind, name, hopening, hnew, rfl⟩ | ⟨st, hst, hline, hdeclared, rfl⟩
        · obtain ⟨inner, closing, rest, assignments, rfl, hinner, hclosing⟩ :=
            exists_closing rfl h hq
          let b : Block := ⟨line, l :: (inner ++ [closing]), ⟨kind, name, Fields.assign [] assignments⟩,
            l, inner, closing, assignments, rfl, hopening, hinner, hclosing, rfl⟩
          have hsplit : l :: (inner ++ closing :: rest) = b.text ++ rest := by simp [b]
          rw [hsplit, b.defines.readLines_append hp hnew, ← b.last_succ] at hread
          obtain ⟨blocks, sets, hparts⟩ := ih rest.length (by simp; omega) (by exact hp) hread rfl
          rw [hsplit]
          exact ⟨b :: blocks, sets, .block b rfl hnew hparts⟩
        · obtain ⟨blocks, sets, hparts⟩ := ih r.length (by simp) (by exact hp) h rfl
          exact ⟨blocks, st :: sets, .statement st hst hline hdeclared hparts⟩
      · cases h

/-- A text is accepted exactly if its lines are parts of a script, which gives its definitions and
its statements. -/
theorem parse_eq_ok_iff {s : List Char} {script : Script} :
    parse s = .ok script ↔
      ∃ blocks, Parts [] 1 (linesOf s) blocks script.sets
        ∧ script.defs = blocks.map Block.definition := by
  have hparse : ∀ {blocks sets}, Parts [] 1 (linesOf s) blocks sets →
      parse s = .ok ⟨blocks.map Block.definition, sets⟩ := by
    intro blocks sets hparts
    obtain ⟨known, hread⟩ := hparts.exists_readLines (p := .start) rfl rfl
    rw [parse, hread]
    rfl
  constructor
  · intro h
    obtain ⟨q, hread, hend⟩ := bind_eq_ok.mp h
    split at hend
    · cases hend
    · next hq =>
      obtain ⟨blocks, sets, hparts⟩ := exists_parts rfl hread hq
      obtain rfl := Except.ok.inj ((hparse hparts).symm.trans h)
      exact ⟨blocks, hparts, rfl⟩
  · rintro ⟨blocks, hparts, hdefs⟩
    rw [hparse hparts, ← hdefs]

end Script

end Overlay
