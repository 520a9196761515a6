import Overlay.Proofs.Script.Layout
import Overlay.Proofs.Text.Pieces

/-!
# Scripts one behind the other

Two scripts that do not give the same name can be put one behind the other: the whole is read as the
definitions of both and as the statements of both, where the second ones stand further down.  What is
wrong with a line of the first script is wrong with the same line of the whole.

## Main definitions
- `EndsLine`: texts with no line left open
- `Statement.shift`, `Block.shift`: parts further down in a text

## Main statements
- `linesOf_append`: the lines of the whole are those of both texts
- `Parts.shift`: parts may stand further down, where more names are known
- `Parts.append`: parts may be followed by more parts
- `parse_append`: reading goes along with putting texts one behind the other
-/

namespace Overlay

open Overlay.Text

/-! ## Section 1: Lines -/

/-- A statement some lines further down. -/
def Statement.shift (k : Nat) (st : Statement) : Statement :=
  { st with line := st.line + k }

namespace Script

/-- A text with no line left open: there is none, or a line feed ends it. -/
def EndsLine (s : List Char) : Prop :=
  s = [] ∨ ∃ t, s = t ++ ['\n']

/-- The lines of the whole are those of both texts. -/
theorem linesOf_append {s : List Char} (hs : EndsLine s) (t : List Char) :
    linesOf (s ++ t) = linesOf s ++ linesOf t := by
  rcases hs with rfl | ⟨r, rfl⟩
  · rfl
  · have hfront : linesOf (r ++ ['\n']) = pieces '\n' r := by
      rw [linesOf, pieces_append_sep]
      simp [pieces]
    have hne : pieces '\n' t ≠ [] := pieces_ne_nil '\n' t
    rw [hfront, linesOf, linesOf, List.append_assoc, List.singleton_append, pieces_append_sep,
      List.getLast?_append_of_ne_nil _ hne]
    split
    · rw [List.dropLast_append_of_ne_nil hne]
    · rfl

theorem pieces_eq_self {s : List Char} (hs : '\n' ∉ s) : pieces '\n' s = [s] := by
  apply pieces_eq_singleton
  rintro c hc rfl
  exact hs hc

/-- A text without line feeds is the first line in front of one. -/
theorem linesOf_line {s : List Char} (hs : '\n' ∉ s) (t : List Char) :
    linesOf (s ++ '\n' :: t) = s :: linesOf t := by
  have hfront : linesOf (s ++ ['\n']) = [s] := by
    rw [linesOf, pieces_append_sep, pieces_eq_self hs]
    simp [pieces]
  rw [← List.singleton_append, ← List.append_assoc, linesOf_append (Or.inr ⟨s, rfl⟩), hfront,
    List.singleton_append]

/-! ## Section 2: Parts further down -/

/-- A block some lines further down. -/
def Block.shift (k : Nat) (b : Block) : Block :=
  { b with first := b.first + k }

theorem Block.last_shift (b : Block) (k : Nat) : (b.shift k).last + 1 = b.last + 1 + k := by
  rw [last_succ, last_succ]
  exact Nat.add_right_comm b.first k b.text.length

variable {declared : List String} {line : Nat} {ls : List (List Char)} {blocks : List Block}
  {sets : List Statement}

/-- Parts may stand further down, where more names are known, if they give none of them. -/
theorem Parts.shift (h : Parts declared line ls blocks sets) {known : List String}
    (hknown : ∀ name ∈ declared, name ∈ known)
    (hnew : ∀ b ∈ blocks, b.definition.name ∉ known) (k : Nat) :
    Parts known (line + k) ls (blocks.map (Block.shift k)) (sets.map (Statement.shift k)) := by
  induction h generalizing known with
  | nil => exact .nil
  | block b hfirst hfresh hrest ih =>
    rw [List.forall_mem_cons] at hnew
    refine .block (b.shift k) (congrArg (· + k) hfirst) hnew.1 ?_
    rw [b.last_shift]
    refine ih ?_ ?_
    · intro name hname
      rcases List.mem_cons.mp hname with rfl | hname
      · exact List.mem_cons_self
      · exact List.mem_cons_of_mem _ (hknown name hname)
    · -- the names of the other blocks differ from the one that has become known
      intro c hc hmem
      rcases List.mem_cons.mp hmem with hsame | hmem
      · exact hrest.names_new c hc (hsame ▸ List.mem_cons_self)
      · exact hnew.2 c hc hmem
  | @statement _ line rest _ _ l st hstates hline hdeclared hrest ih =>
    refine .statement (st.shift k) hstates (congrArg (· + k) hline) (hknown _ hdeclared) ?_
    rw [show line + k + 1 = line + 1 + k by omega]
    exact ih hknown hnew

/-- Parts may be followed by more parts, for which the names of the first ones are known. -/
theorem Parts.append (h : Parts declared line ls blocks sets) {ms : List (List Char)}
    {more : List Block} {moreSets : List Statement}
    (hmore : Parts ((blocks.map fun b => b.definition.name).reverse ++ declared)
      (line + ls.length) ms more moreSets) :
    Parts declared line (ls ++ ms) (blocks ++ more) (sets ++ moreSets) := by
  induction h with
  | nil => exact hmore
  | block b hfirst hnew hrest ih =>
    rw [List.append_assoc]
    refine .block b hfirst hnew (ih ?_)
    -- the parts that follow stand behind the block now, which gives its name
    rw [List.length_append, ← Nat.add_assoc, ← hfirst, ← b.last_succ, List.map_cons,
      List.reverse_cons, List.append_assoc] at hmore
    exact hmore
  | statement st hstates hline hdeclared hrest ih =>
    refine .statement st hstates hline hdeclared (ih ?_)
    rw [List.length_cons, Nat.add_comm _ 1, ← Nat.add_assoc] at hmore
    exact hmore

/-! ## Section 3: Texts -/

/-- What is wrong with a line is wrong with it whatever lines follow. -/
theorem readLines_error_append {p : Progress} {fault : Fault}
    (h : readLines p line ls = .error fault) (ms : List (List Char)) :
    readLines p line (ls ++ ms) = .error fault := by
  rw [readLines_append, h, error_bind]

/-- Two scripts that give no name twice are read one behind the other; a text that is refused for one
of its lines is refused for it whatever follows. -/
theorem parse_append {s : List Char} (hs : EndsLine s) (t : List Char) :
    (∀ a b, parse s = .ok a → parse t = .ok b →
      (∀ d ∈ a.defs, ∀ e ∈ b.defs, d.name ≠ e.name) →
      parse (s ++ t) = .ok ⟨a.defs ++ b.defs,
        a.sets ++ b.sets.map (Statement.shift (linesOf s).length)⟩)
    ∧ ∀ n complaint, parse s = .error (.refused (.scriptLine n complaint)) →
      parse (s ++ t) = .error (.refused (.scriptLine n complaint)) := by
  constructor
  · rintro ⟨defs, sets⟩ ⟨moreDefs, moreSets⟩ ha hb hnames
    obtain ⟨blocks, hparts, rfl⟩ := parse_eq_ok_iff.mp ha
    obtain ⟨more, hmore, rfl⟩ := parse_eq_ok_iff.mp hb
    -- seen from the second script, only the names of the first one are known
    have hnew : ∀ c ∈ more,
        c.definition.name ∉ (blocks.map fun b => b.definition.name).reverse ++ [] := by
      intro c hc hmem
      rw [List.append_nil, List.mem_reverse, List.mem_map] at hmem
      obtain ⟨b, hb, hname⟩ := hmem
      exact hnames _ (List.mem_map_of_mem hb) _ (List.mem_map_of_mem hc) hname
    have hshift := hmore.shift (fun _ h => nomatch h) hnew (linesOf s).length
    refine parse_eq_ok_iff.mpr ⟨blocks ++ more.map (Block.shift (linesOf s).length), ?_, ?_⟩
    · rw [linesOf_append hs]
      exact hparts.append hshift
    · rw [List.map_append, List.map_map]
      rfl
  · intro n complaint h
    rcases bind_eq_error.mp h with hlines | ⟨p, -, hend⟩
    · rw [parse, linesOf_append hs, readLines_error_append hlines, error_bind]
    · -- a block that is still open is no fault of one line
      split at hend
      · cases hend
      · cases hend

/-- Two scripts of one object each, and a text that starts with a brace. -/
theorem parse_append_of_two_objects :
    (∃ b, parse "def path b \x7b\n\x7d\nset b \x7b\x7d 1s\n".toList = .ok b
      ∧ parse ("def text a \x7b\n\x7d\n".toList ++ "def path b \x7b\n\x7d\nset b \x7b\x7d 1s\n".toList)
        = .ok ⟨⟨.text, "a", []⟩ :: b.defs, b.sets.map (Statement.shift 2)⟩)
    ∧ ∀ t, parse ("\x7d\n".toList ++ t) = .error (.refused (.scriptLine 1 .expectedSet)) := by
  constructor
  · have hnames : (parse "def path b \x7b\n\x7d\nset b \x7b\x7d 1s\n".toList).toOption.map
        (fun b => b.defs.map Definition.name) = some ["b"] := by decide +kernel
    obtain ⟨b, hb, hnames⟩ := Option.map_eq_some_iff.mp hnames
    have hparse := toOption_eq_some.mp hb
    refine ⟨b, hparse, ?_⟩
    refine (parse_append (Or.inr ⟨"def text a \x7b\n\x7d".toList, rfl⟩) _).1
      ⟨[⟨.text, "a", []⟩], []⟩ b rfl hparse ?_
    intro d hd e he
    obtain rfl := List.mem_singleton.mp hd
    have hname := List.mem_map_of_mem (f := Definition.name) he
    rw [hnames, List.mem_singleton] at hname
    rw [hname]
    decide
  · intro t
    exact (parse_append (Or.inr ⟨"\x7d".toList, rfl⟩) t).2 1 .expectedSet rfl

end Script

end Overlay
