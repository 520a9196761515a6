import Overlay.Proofs.Script.Complaints
import Overlay.Proofs.Script.Tidiness

/-!
# Taking out blank lines

The lines of a text that can be seen are kept, each with a line feed behind it, and nothing else is.
Lines end at any boundary there, and at line feeds alone where scripts are read.  What is kept holds no
other boundary, so both ways of cutting see the same lines in it.

## Main definitions
- `Emission.seenLines`: the lines of a text that can be seen

## Main statements
- `lines_append_lineFeed`: what stands at the seam of two texts
- `Emission.stripBlankLines_joinLines`: lines that can be seen and hold no boundary stay
- `Emission.stripBlankLines_line_by_line`: what is kept is read line by line
-/

namespace Overlay

open Overlay.Text Overlay.Number Overlay.Scanner Overlay.Literal

/-! ## Section 1: Lines between any boundaries -/

theorem lines_cons {c : Char} (hc : isLineBreak c = false) (r : List Char) :
    lines (c :: r) = consLine c (lines r) := by
  rw [lines, if_neg (by simp [hc])]
  rintro _ rfl
  cases hc

theorem lines_cons_of_break {c : Char} (hc : isLineBreak c = true) {r : List Char}
    (hreturn : ∀ t, c = '\r' → r ≠ '\n' :: t) : lines (c :: r) = [] :: lines r := by
  rw [lines, if_pos hc]
  exact hreturn

theorem lines_lineFeed (r : List Char) : lines ('\n' :: r) = [] :: lines r :=
  lines_cons_of_break (by decide) fun _ h => absurd h (by decide)

/-- A line ends at the first boundary. -/
theorem lines_append {l : List Char} (hl : Avoids isLineBreak l) (r : List Char) :
    lines (l ++ '\n' :: r) = l :: lines r := by
  induction l with
  | nil => exact lines_lineFeed r
  | cons c t ih =>
    have ht : Avoids isLineBreak t := fun d hd => hl d (List.mem_cons_of_mem c hd)
    rw [List.cons_append, lines_cons (hl c List.mem_cons_self), ih ht, consLine]

theorem lines_endLines {ls : List (List Char)} (h : ∀ l ∈ ls, Avoids isLineBreak l) :
    lines (Emission.endLines ls) = ls := by
  induction ls with
  | nil => rfl
  | cons l t ih =>
    rw [List.forall_mem_cons] at h
    have hjoin : Emission.endLines (l :: t) = l ++ '\n' :: Emission.endLines t := by
      simp [Emission.endLines]
    rw [hjoin, lines_append h.1, ih h.2]

theorem consLine_avoids {p : Char → Bool} {c : Char} (hc : p c = false) {ls : List (List Char)}
    (h : ∀ l ∈ ls, Avoids p l) : ∀ l ∈ consLine c ls, Avoids p l := by
  cases ls with
  | nil => exact List.forall_mem_cons.mpr ⟨Avoids.nil.cons hc, by simp⟩
  | cons l r =>
    rw [List.forall_mem_cons] at h
    exact List.forall_mem_cons.mpr ⟨h.1.cons hc, h.2⟩

/-- Between boundaries there is none. -/
theorem lines_avoid (s : List Char) : ∀ l ∈ lines s, Avoids isLineBreak l := by
  induction s using lines.induct with
  | case1 => simp [lines]
  | case2 r ih =>
    rw [lines]
    exact List.forall_mem_cons.mpr ⟨Avoids.nil, ih⟩
  | case3 c r hreturn hbreak ih =>
    rw [lines_cons_of_break hbreak hreturn]
    exact List.forall_mem_cons.mpr ⟨Avoids.nil, ih⟩
  | case4 c r _ hbreak ih =>
    have hc : isLineBreak c = false := Bool.eq_false_iff.mpr hbreak
    rw [lines_cons hc]
    exact consLine_avoids hc ih

/-! ## Section 2: Seams -/

theorem consLine_append (c : Char) {ls : List (List Char)} (hls : ls ≠ []) (ms : List (List Char)) :
    consLine c (ls ++ ms) = consLine c ls ++ ms := by
  cases ls with
  | nil => exact absurd rfl hls
  | cons l r => rfl

theorem lines_ne_nil {s : List Char} (hs : s ≠ []) : lines s ≠ [] := by
  induction s using lines.induct with
  | case1 => exact absurd rfl hs
  | case2 r _ => simp [lines]
  | case3 c r hreturn hbreak _ =>
    rw [lines_cons_of_break hbreak hreturn]
    exact List.cons_ne_nil _ _
  | case4 c r _ hbreak _ =>
    rw [lines_cons (Bool.eq_false_iff.mpr hbreak)]
    cases lines r <;> simp [consLine]

/-- Two texts with a line feed between them have the lines of both, and at most an empty line more at
the seam. -/
theorem lines_append_lineFeed (s t : List Char) :
    lines (s ++ '\n' :: t) = lines s ++ lines t
      ∨ lines (s ++ '\n' :: t) = lines s ++ [] :: lines t := by
  induction s using lines.induct with
  | case1 => exact Or.inr (lines_lineFeed t)
  | case2 r ih =>
    simp only [List.cons_append, lines]
    exact ih.imp (congrArg _) (congrArg _)
  | case3 c r hreturn hbreak ih =>
    rw [lines_cons_of_break hbreak hreturn]
    by_cases hseam : c = '\r' ∧ r = []
    · -- the line feed belongs to the carriage return in front of it
      obtain ⟨rfl, rfl⟩ := hseam
      exact Or.inl (by simp [lines])
    · have hreturn' : ∀ u, c = '\r' → r ++ '\n' :: t ≠ '\n' :: u := by
        intro u hc heq
        cases r with
        | nil => exact hseam ⟨hc, rfl⟩
        | cons d r => exact hreturn r hc (by rw [(List.cons.inj heq).1])
      rw [List.cons_append, lines_cons_of_break hbreak hreturn']
      exact ih.imp (congrArg _) (congrArg _)
  | case4 c r _ hbreak ih =>
    have hc : isLineBreak c = false := Bool.eq_false_iff.mpr hbreak
    rw [List.cons_append, lines_cons hc, lines_cons hc]
    by_cases hr : r = []
    · -- the line feed ends the line that was left open
      subst hr
      rw [List.nil_append, lines_lineFeed]
      exact Or.inl rfl
    · have hne := lines_ne_nil hr
      rcases ih with ih | ih
      · exact Or.inl (by rw [ih, consLine_append c hne])
      · exact Or.inr (by rw [ih, consLine_append c hne])

/-! ## Section 3: Taking out blank lines -/

namespace Emission

/-- The lines of a text that can be seen. -/
def seenLines (s : List Char) : List (List Char) :=
  (lines s).filter fun l => !isBlankText l

theorem stripBlankLines_eq (s : List Char) : stripBlankLines s = endLines (seenLines s) :=
  rfl

theorem seenLines_tidy (s : List Char) : Tidy isLineBreak (seenLines s) := by
  intro l hl
  obtain ⟨hmem, hseen⟩ := List.mem_filter.mp hl
  exact ⟨lines_avoid s l hmem, by simpa using hseen⟩

/-- Lines that can be seen and hold no boundary are found again. -/
theorem seenLines_endLines {ls : List (List Char)} (h : Tidy isLineBreak ls) :
    seenLines (endLines ls) = ls := by
  rw [seenLines, lines_endLines fun l hl => (h l hl).1]
  refine List.filter_eq_self.mpr fun l hl => ?_
  rw [(h l hl).2]
  rfl

/-- What stands at the seam of two texts cannot be seen. -/
theorem seenLines_append_lineFeed (s t : List Char) :
    seenLines (s ++ '\n' :: t) = seenLines s ++ seenLines t := by
  have hempty : isBlankText [] = true := rfl
  unfold seenLines
  rcases lines_append_lineFeed s t with h | h
  · rw [h, List.filter_append]
  · rw [h, List.filter_append, List.filter_cons_of_neg (by simp [hempty])]

theorem stripBlankLines_endLines {ls : List (List Char)} (h : Tidy isLineBreak ls) :
    stripBlankLines (endLines ls) = endLines ls := by
  rw [stripBlankLines_eq, seenLines_endLines h]

theorem stripBlankLines_append_lineFeed (s t : List Char) :
    stripBlankLines (s ++ '\n' :: t) = stripBlankLines s ++ stripBlankLines t := by
  rw [stripBlankLines_eq, seenLines_append_lineFeed, endLines, List.flatMap_append]
  rfl

/-- Blank lines are taken out of each of the parts of a script, and so is what stands between the
parts.  Lines that can be seen and hold no boundary stay. -/
theorem stripBlankLines_joinLines {parts : List (List (List Char))}
    (h : ∀ ls ∈ parts, Tidy isLineBreak ls) :
    stripBlankLines (joinLines (parts.map endLines)) = (parts.map endLines).flatten := by
  induction parts with
  | nil => rfl
  | cons ls r ih =>
    rw [List.forall_mem_cons] at h
    have hfirst := stripBlankLines_endLines h.1
    cases r with
    | nil =>
      show stripBlankLines (endLines ls) = _
      rw [hfirst]
      simp
    | cons ms r =>
      have hjoin : joinLines ((ls :: ms :: r).map endLines)
          = endLines ls ++ '\n' :: joinLines ((ms :: r).map endLines) := by
        simp [joinLines, joinWith]
      rw [hjoin, stripBlankLines_append_lineFeed, hfirst, ih h.2]
      rfl

/-- Blank lines are taken out at every boundary. -/
theorem stripBlankLines_avoids (s : List Char) {c : Char} (hc : c ∈ stripBlankLines s)
    (hbreak : isLineBreak c = true) : c = '\n' := by
  obtain ⟨l, hl, hcl⟩ := List.mem_flatMap.mp hc
  rcases List.mem_append.mp hcl with hcl | hcl
  · have := (seenLines_tidy s l hl).1 c hcl
    rw [hbreak] at this
    cases this
  · exact List.mem_singleton.mp hcl

/-- Nothing is kept, or a line feed stands behind the last character of the last line. -/
theorem stripBlankLines_ends (s : List Char) :
    stripBlankLines s = [] ∨ ∃ t c, stripBlankLines s = t ++ [c, '\n'] ∧ c ≠ '\n' := by
  rcases List.eq_nil_or_concat (seenLines s) with hnone | ⟨ls, l, hlast⟩
  · exact Or.inl (by rw [stripBlankLines_eq, hnone]; rfl)
  · have hl := seenLines_tidy s l (by simp [hlast])
    -- the last line can be seen, so it has a last character
    rcases List.eq_nil_or_concat l with rfl | ⟨t, c, rfl⟩
    · cases hl.2
    · refine Or.inr ⟨endLines ls ++ t, c, ?_, ?_⟩
      · rw [stripBlankLines_eq, hlast]
        simp [endLines]
      · rintro rfl
        exact absurd (hl.1 '\n' (by simp)) (by decide)

/-- What is kept of a text is read line by line.  Between its line feeds stand the lines that can be seen,
behind the last of them stands nothing, and no line is refused for being blank.  Nothing more is taken out
of it, and of two texts with a line feed between them the lines of both are kept. -/
theorem stripBlankLines_line_by_line (s : List Char) :
    (pieces '\n' (stripBlankLines s) = seenLines s ++ [[]]
      ∧ Script.linesOf (stripBlankLines s) = seenLines s
      ∧ (∀ l ∈ seenLines s, strip l ≠ [])
      ∧ ∀ n, Script.parse (stripBlankLines s) ≠ refuse (.scriptLine n .blankLine))
    ∧ (stripBlankLines s = [] ∨ ∃ t c, stripBlankLines s = t ++ [c, '\n'] ∧ c ≠ '\n')
    ∧ stripBlankLines (stripBlankLines s) = stripBlankLines s
    ∧ ∀ t, stripBlankLines (s ++ '\n' :: t) = stripBlankLines s ++ stripBlankLines t := by
  have htidy := seenLines_tidy s
  have hfeeds : ∀ l ∈ seenLines s, Avoids isLineFeed l :=
    fun l hl => Avoids.of_marksBreaks marksBreaks_isLineFeed (htidy l hl).1
  have hlines : Script.linesOf (stripBlankLines s) = seenLines s := linesOf_endLines hfeeds
  refine ⟨⟨pieces_endLines hfeeds, hlines, ?seen, ?read⟩, stripBlankLines_ends s,
    stripBlankLines_endLines htidy, stripBlankLines_append_lineFeed s⟩
  case seen =>
    intro l hl hstrip
    have hblank := strip_eq_nil_iff.mp hstrip
    rw [(htidy l hl).2] at hblank
    cases hblank
  case read =>
    apply Script.parse_ne_blankLine
    rw [hlines]
    exact fun l hl => (htidy l hl).2

/-- A text that ends in a carriage return, in front of one with a line separator. -/
theorem stripBlankLines_line_by_line_sample :
    "a".toList ∈ seenLines " \na\r".toList ∧ strip "a".toList ≠ []
      ∧ stripBlankLines (" \na\r".toList ++ '\n' :: "\u2028b".toList) = "a\nb\n".toList := by
  have hseen : "a".toList ∈ seenLines " \na\r".toList := by decide
  refine ⟨hseen, (stripBlankLines_line_by_line _).1.2.2.1 _ hseen, ?_⟩
  rw [(stripBlankLines_line_by_line _).2.2.2]
  decide

end Emission

end Overlay
