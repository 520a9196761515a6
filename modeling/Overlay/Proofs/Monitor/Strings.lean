import Mathlib.Data.List.Forall2
import Overlay.Proofs.Monitor.Spans
import Overlay.Proofs.Script.Stretches
import Overlay.Proofs.Text.Pieces

/-!
# Highlighted texts

The highlighter searches a line for texts from left to right, and knows nothing of the scanner.  Still the
two find the same texts in each line of a script that is read.  The texts are laid on a line behind all
other matches, so their style has the last word exactly inside of them.

## Main definitions
- `Literal.span`: the stretch of a text in its line, in the style of texts
- `Highlight.topStyle`: the style that has the last word on a character
- `Highlight.MarksExactly`: the texts of a line are marked as such, and nothing else is

## Main statements
- `Highlight.textLength_of_textBody`: the highlighter sees the same end of a text as the scanner
- `Highlight.findFrom_text_of_scans`: it finds the texts on a way along a line
- `Highlight.marksExactly_of_scans`: so it marks them
- `Script.exists_marked_texts`: all this holds for each line of a script that is read
-/

namespace Overlay

open Overlay.Text Overlay.Scanner

/-! ## Section 1: Stretches -/

/-- From where to where a text reaches, if the line ends at a position. -/
def Literal.range (stop : Nat) (x : Literal) : Nat × Nat :=
  (stop - x.opening.length, stop - x.rest.length)

/-- The stretch of a text in its line, both quotes included, in the style of texts. -/
def Literal.span (line : List Char) (x : Literal) : Span :=
  ⟨(x.range line.length).1, (x.range line.length).2, Palette.strings⟩

/-- Whether a character of a text belongs to a span. -/
def Span.covers (s : Span) (i : Nat) : Bool :=
  s.start ≤ i && i < s.stop

namespace Highlight

/-- The style that has the last word on a character, if any span covers it. -/
def topStyle (spans : List Span) (i : Nat) : Option String :=
  (spans.filter fun s => s.covers i).getLast?.map Span.style

variable {s r : List Char} {xs : List Literal}

/-! ## Section 2: Searching for texts -/

/-- The characters of a match are passed over. -/
theorem findFrom_skip (pattern : Pattern) (position : Nat) (before : Option Char) (w r : List Char) :
    ∃ before', findFrom pattern w.length position before (w ++ r)
      = findFrom pattern 0 (position + w.length) before' r := by
  induction w generalizing position before with
  | nil => exact ⟨before, rfl⟩
  | cons c w ih =>
    obtain ⟨before', hrest⟩ := ih (position + 1) (some c)
    refine ⟨before', ?_⟩
    rw [List.length_cons, List.cons_append, findFrom, hrest]
    congr 1
    omega

/-- What stands in front of a text does not matter. -/
theorem findFrom_text_before (skip position : Nat) (before : Option Char) (s : List Char) :
    findFrom text skip position before s = findFrom text skip position none s := by
  cases s with
  | nil => rfl
  | cons c r => cases skip <;> rfl

/-- Where no quote is, no text is found. -/
theorem findFrom_text_of_skips (h : Skips s r) (position : Nat) :
    findFrom text 0 position none s
      = findFrom text 0 (position + (s.length - r.length)) none r := by
  obtain ⟨w, rfl, hw⟩ := h
  rw [List.length_append, Nat.add_sub_cancel]
  induction w generalizing position with
  | nil => rfl
  | cons c w ih =>
    have hquote : c ≠ '"' := fun heq => hw (heq ▸ List.mem_cons_self)
    have hnone : text none (c :: (w ++ r)) = none := by simp [text, hquote]
    rw [List.cons_append, findFrom, hnone]
    dsimp only
    rw [findFrom_text_before, ih _ fun hmem => hw (List.mem_cons_of_mem c hmem)]
    congr 1
    rw [List.length_cons]
    omega

/-- In a line, the highlighter sees the same end of a text as the scanner. -/
theorem textLength_of_textBody {body : List Char} (h : textBody s = some (body, r)) (hs : '\n' ∉ s) :
    ∃ w, s = w ++ r ∧ textLength s = some w.length := by
  fun_induction textBody s generalizing body with
  | case1 => cases h
  | case2 rest =>
    obtain ⟨-, rfl⟩ := Prod.mk.inj (Option.some.inj h)
    exact ⟨['"'], rfl, rfl⟩
  | case3 => cases h
  | case4 c rest ih =>
    obtain ⟨⟨inner, left⟩, hinner, heq⟩ := Option.map_eq_some_iff.mp h
    obtain ⟨-, rfl⟩ := Prod.mk.inj heq
    -- the pattern refuses nothing but a line feed behind the escape
    simp only [List.mem_cons, not_or] at hs
    obtain ⟨w, rfl, hlength⟩ := ih hinner hs.2.2
    refine ⟨'\\' :: c :: w, rfl, ?_⟩
    rw [textLength, if_neg (Ne.symm hs.2.1), hlength]
    rfl
  | case5 c rest hquote hend hescape ih =>
    obtain ⟨⟨inner, left⟩, hinner, heq⟩ := Option.map_eq_some_iff.mp h
    obtain ⟨-, rfl⟩ := Prod.mk.inj heq
    simp only [List.mem_cons, not_or] at hs
    obtain ⟨w, rfl, hlength⟩ := ih hinner hs.2
    refine ⟨c :: w, rfl, ?_⟩
    rw [textLength, hlength]
    · rfl
    all_goals assumption

/-- The texts on a way along a line are found, in their order. -/
theorem findFrom_text_of_scans (h : Scans s xs r) (hs : '\n' ∉ s) (position : Nat) :
    findFrom text 0 position none s
      = xs.map (Literal.range (position + s.length))
        ++ findFrom text 0 (position + (s.length - r.length)) none r := by
  induction h generalizing position with
  | stop s => simp
  | @skip s r t xs hskips hrest ih =>
    have hfirst := hskips.length_le
    have hsecond := hrest.suffix.length_le
    have hr : '\n' ∉ r := fun hmem => hs (hskips.suffix.subset hmem)
    have hstop : position + (s.length - r.length) + r.length = position + s.length := by omega
    have hend : position + (s.length - r.length) + (r.length - t.length)
        = position + (s.length - t.length) := by omega
    rw [findFrom_text_of_skips hskips, ih hr, hstop, hend]
  | @text s r t body xs hbody hrest ih =>
    -- a match from quote to quote, and the search goes on behind it
    have hinside : '\n' ∉ s := fun hmem => hs (List.mem_cons_of_mem _ hmem)
    obtain ⟨w, rfl, hlength⟩ := textLength_of_textBody hbody hinside
    have hr : '\n' ∉ r := fun hmem => hinside (List.mem_append_right w hmem)
    have hmatch : text none ('"' :: (w ++ r)) = some (w.length + 1) := by simp [text, hlength]
    obtain ⟨before', hskip⟩ := findFrom_skip text (position + 1) (some '"') w r
    have hsecond := hrest.suffix.length_le
    rw [findFrom, hmatch]
    dsimp only
    rw [hskip, findFrom_text_before, ih hr]
    have hrange : Literal.range (position + ('"' :: (w ++ r)).length) ⟨'"' :: (w ++ r), r⟩
        = (position, position + w.length + 1) := by
      simp only [Literal.range, List.length_cons, List.length_append, Prod.mk.injEq]
      omega
    have hstop : position + 1 + w.length + r.length = position + ('"' :: (w ++ r)).length := by
      simp only [List.length_cons, List.length_append]
      omega
    have hend : position + 1 + w.length + (r.length - t.length)
        = position + (('"' :: (w ++ r)).length - t.length) := by
      simp only [List.length_cons, List.length_append]
      omega
    rw [List.map_cons, hrange, hstop, hend, List.cons_append]

theorem findAll_text_of_scans (h : Scans s xs []) (hs : '\n' ∉ s) :
    findAll text s = xs.map (Literal.range s.length) := by
  rw [findAll, findFrom_text_of_scans h hs, Nat.zero_add, findFrom, List.append_nil]

/-! ## Section 3: The last word -/

theorem mem_of_topStyle {spans : List Span} {i : Nat} {style : String}
    (h : topStyle spans i = some style) : ∃ s ∈ spans, s.covers i = true ∧ s.style = style := by
  obtain ⟨s, hs, hstyle⟩ := Option.map_eq_some_iff.mp h
  obtain ⟨hmem, hcovers⟩ := List.mem_filter.mp (List.mem_of_getLast? hs)
  exact ⟨s, hmem, hcovers, hstyle⟩

/-- Spans of one style behind all others have the last word on what they cover. -/
theorem topStyle_append {others spans : List Span} {style : String} {i : Nat}
    (hothers : ∀ s ∈ others, s.style ≠ style) (hspans : ∀ s ∈ spans, s.style = style) :
    topStyle (others ++ spans) i = some style ↔ ∃ s ∈ spans, s.covers i = true := by
  constructor
  · intro h
    obtain ⟨s, hs, hcovers, hstyle⟩ := mem_of_topStyle h
    rcases List.mem_append.mp hs with hs | hs
    · exact absurd hstyle (hothers s hs)
    · exact ⟨s, hs, hcovers⟩
  · rintro ⟨s, hs, hcovers⟩
    have hne : (spans.filter fun s => s.covers i) ≠ [] :=
      List.ne_nil_of_mem (List.mem_filter.mpr ⟨hs, hcovers⟩)
    rw [topStyle, List.filter_append, List.getLast?_append_of_ne_nil _ hne,
      List.getLast?_eq_some_getLast hne, Option.map_some]
    have hlast := List.getLast_mem hne
    rw [hspans _ (List.mem_of_mem_filter hlast)]

/-- The texts of a line are marked as such, and nothing else is. -/
structure MarksExactly (s : List Char) (literals : List Literal) : Prop where
  /-- Each text stands in the line, from its opening quote to its closing one. -/
  quoted : ∀ x ∈ literals,
    x.opening <:+ s ∧ ∃ inner, x.opening = '"' :: (inner ++ '"' :: x.rest)
  /-- The spans in the style of texts are those of the texts, in their order. -/
  texts : (laid s).filter (fun span => span.style = Palette.strings)
    = literals.map (Literal.span s)
  /-- They are laid on behind all others. -/
  last : laid s = (laid s).filter (fun span => span.style ≠ Palette.strings)
    ++ literals.map (Literal.span s)
  /-- So their style has the last word inside of the texts, and nowhere else. -/
  decides : ∀ i, topStyle (laid s) i = some Palette.strings
    ↔ ∃ x ∈ literals, (x.span s).covers i = true
  /-- What is shown is the line with these spans laid on. -/
  shown : line s = (laid s).foldl StyledText.lay (StyledText.ofChars s Palette.foreground)
  /-- If no character is lost on the way, each of them is a span of what is shown. -/
  kept : (∀ c ∈ s, StyledText.isLost c = false) → line s = ⟨s, Palette.foreground, laid s⟩

/-- The matches of all patterns but the last one are in other styles. -/
theorem laid_split (s : List Char) : ∃ others, laid s = others ++ spansOf s (text, Palette.strings)
    ∧ ∀ span ∈ others, span.style ≠ Palette.strings := by
  have hstyles : ∀ rule ∈ rules.dropLast, rule.2 ≠ Palette.strings := by
    intro rule hrule
    simp only [rules, List.dropLast_cons_cons, List.dropLast_singleton, List.mem_cons,
      List.not_mem_nil, or_false] at hrule
    rcases hrule with rfl | rfl | rfl
    · exact ne_of_beq_false rfl
    · exact ne_of_beq_false rfl
    · exact ne_of_beq_false rfl
  refine ⟨rules.dropLast.flatMap (spansOf s), by simp [laid, rules], fun span hspan => ?_⟩
  obtain ⟨rule, hrule, hspan⟩ := List.mem_flatMap.mp hspan
  obtain ⟨m, -, rfl⟩ := List.mem_map.mp hspan
  exact hstyles rule hrule

/-- A line without line feeds that is a row of texts has just these marked. -/
theorem marksExactly_of_scans (h : Scans s xs []) (hs : '\n' ∉ s) : MarksExactly s xs := by
  have htexts : spansOf s (text, Palette.strings) = xs.map (Literal.span s) := by
    rw [spansOf, findAll_text_of_scans h hs, List.map_map]
    rfl
  have hstyle : ∀ span ∈ xs.map (Literal.span s), span.style = Palette.strings := by
    intro span hspan
    obtain ⟨x, -, rfl⟩ := List.mem_map.mp hspan
    rfl
  -- the last rule is the one of texts, so what it gives stands behind all others
  obtain ⟨others, hlaid, hothers⟩ := laid_split s
  rw [htexts] at hlaid
  constructor
  case quoted => exact fun x hx => h.quoted hx
  case texts =>
    rw [hlaid, List.filter_append, List.filter_eq_nil_iff.mpr, List.filter_eq_self.mpr, List.nil_append]
    · simpa using hstyle
    · simpa using hothers
  case last =>
    have hfirst : (laid s).filter (fun span => span.style ≠ Palette.strings) = others := by
      rw [hlaid, List.filter_append, List.filter_eq_self.mpr, List.filter_eq_nil_iff.mpr, List.append_nil]
      · simpa using hstyle
      · simpa using hothers
    rw [hfirst, hlaid]
  case decides =>
    intro i
    rw [hlaid, topStyle_append hothers hstyle]
    simp
  case shown => exact line_eq_foldl s
  case kept => exact line_eq_of_kept

end Highlight

namespace Script

/-! ## Section 4: Scripts -/

theorem not_mem_of_mem_linesOf {s l : List Char} (h : l ∈ linesOf s) : '\n' ∉ l := by
  apply not_mem_of_mem_pieces (s := s)
  rw [linesOf] at h
  split at h
  · exact List.dropLast_subset _ h
  · exact h

/-- In each line of a script that is read, the texts that the scanner reads are marked, and nothing else
is marked as they are. -/
theorem exists_marked_texts {s : List Char} {script : Script} (h : parse s = .ok script) :
    ∃ literals, tracedParse s = .ok (script, literals)
      ∧ List.Forall₂ Highlight.MarksExactly (linesOf s) literals := by
  obtain ⟨literals, hread⟩ := exists_tracedParse h
  refine ⟨literals, hread, ?_⟩
  have hlines := (List.forall₂_and_left (linesOf s) literals).mpr
    ⟨fun l hl => not_mem_of_mem_linesOf hl, scans_of_tracedParse hread⟩
  exact hlines.imp fun l xs hl => Highlight.marksExactly_of_scans hl.2 hl.1

/-- A script with a text that ends in an escaped quote, and with two texts in one line. -/
def scriptOfTexts : List Char :=
  "def text a \x7b\nx = \"\\\"\"\n\x7d\nset a \x7bx = \"\", m = \x7bk = \"2\"\x7d\x7d 1s".toList

/-- The three texts of the script, by what they leave of their lines. -/
theorem exists_marked_texts_of_three : ∃ script literals, parse scriptOfTexts = .ok script
    ∧ List.Forall₂ Highlight.MarksExactly (linesOf scriptOfTexts) literals
    ∧ literals.map (fun xs => xs.map fun x => (x.opening.length, x.rest.length))
      = [[], [(4, 0)], [], [(21, 19), (8, 5)]] := by
  have hsome : (parse scriptOfTexts).toOption.isSome = true := by decide +kernel
  obtain ⟨script, hscript⟩ := Option.isSome_iff_exists.mp hsome
  have hparse := toOption_eq_some.mp hscript
  obtain ⟨literals, hread, hmarks⟩ := exists_marked_texts hparse
  have hlengths : (tracedParse scriptOfTexts).toOption.map
      (fun e => e.2.map fun xs => xs.map fun x => (x.opening.length, x.rest.length))
        = some [[], [(4, 0)], [], [(21, 19), (8, 5)]] := by decide +kernel
  rw [hread] at hlengths
  exact ⟨script, literals, hparse, hmarks, Option.some.inj hlengths⟩

end Script

end Overlay
