import Overlay.Monitor.Highlight

/-!
# What is laid on a line

The styles of a line are laid on one match after the other.  As each pattern only matches characters that
are there, each match gives a span, and nothing is cut off; characters that are lost when they enter a
styled text are the one exception.

## Main definitions
- `StyledText.lay`: a text with one more span
- `Highlight.laid`: all the matches in a line, in the order in which they are laid on
- `Highlight.Fits`: patterns that match no more characters than there are

## Main statements
- `Highlight.findFrom_bounds`: matches are not empty and stand inside of the line
- `Highlight.line_eq_foldl`: a line is the plain line with all the matches laid on
- `Highlight.line_eq_of_kept`: if no character is lost, these are its spans
-/

namespace Overlay

/-! ## Section 1: Spans laid on a text -/

namespace StyledText

/-- A text with one more span laid on. -/
def lay (t : StyledText) (s : Span) : StyledText :=
  t.stylize s.style s.start s.stop

/-- A span that stands inside of the text is kept as it is. -/
theorem lay_eq {t : StyledText} {s : Span} (hnonempty : s.start < s.stop)
    (hinside : s.stop ≤ t.chars.length) : t.lay s = { t with spans := t.spans ++ [s] } := by
  have hkept : ¬ (t.chars.length ≤ s.start ∨ s.stop ≤ s.start) := by omega
  rw [lay, stylize, Nat.min_eq_right hinside]
  simp [hkept]

theorem foldl_lay {spans : List Span} {t : StyledText}
    (h : ∀ s ∈ spans, s.start < s.stop ∧ s.stop ≤ t.chars.length) :
    spans.foldl lay t = { t with spans := t.spans ++ spans } := by
  induction spans generalizing t with
  | nil => simp
  | cons s r ih =>
    obtain ⟨hnonempty, hinside⟩ := h s List.mem_cons_self
    rw [List.foldl_cons, ih, lay_eq hnonempty hinside]
    · simp
    · -- the characters stay the same, so the spans behind fit as before
      intro s' hs'
      rw [lay_eq hnonempty hinside]
      exact h s' (List.mem_cons_of_mem s hs')

end StyledText

namespace Highlight

/-! ## Section 2: Matches -/

/-- A pattern matches no more characters than there are. -/
def Fits (pattern : Pattern) : Prop :=
  ∀ before s n, pattern before s = some n → n ≤ s.length

/-- Matches are not empty, and they stand inside of the text that was searched. -/
theorem findFrom_bounds {pattern : Pattern} (hfits : Fits pattern) {skip position : Nat}
    {before : Option Char} {s : List Char} {m : Nat × Nat}
    (h : m ∈ findFrom pattern skip position before s) :
    position ≤ m.1 ∧ m.1 < m.2 ∧ m.2 ≤ position + s.length := by
  induction s generalizing skip position before with
  | nil => cases h
  | cons c r ih =>
    rw [List.length_cons]
    cases skip with
    | succ skip =>
      obtain ⟨hstart, hnonempty, hstop⟩ := ih h
      omega
    | zero =>
      rw [findFrom] at h
      split at h
      · next n hn =>
        have hlength := hfits _ _ _ hn
        rw [List.length_cons] at hlength
        rcases List.mem_cons.mp h with rfl | h
        · dsimp only
          omega
        · obtain ⟨hstart, hnonempty, hstop⟩ := ih h
          omega
      · obtain ⟨hstart, hnonempty, hstop⟩ := ih h
        omega

theorem runLength_le (p : Char → Bool) (s : List Char) : runLength p s ≤ s.length :=
  (List.takeWhile_prefix p).length_le

theorem fits_keyword : Fits keyword := by
  intro before s n h
  cases before with
  | some c => cases h
  | none =>
    obtain ⟨w, hw, rfl⟩ := Option.map_eq_some_iff.mp h
    have hfound := List.find?_some hw
    simp only [Bool.and_eq_true, List.isPrefixOf_iff_prefix] at hfound
    have hlength := hfound.1.length_le
    have hblanks := runLength_le Text.isBlank s
    rw [List.length_drop] at hlength
    omega

theorem fits_name : Fits name := by
  intro before s n h
  simp only [name] at h
  split at h
  · next hstart =>
    simp only [Bool.and_eq_true, List.isPrefixOf_iff_prefix] at hstart
    have hmark := hstart.2.length_le
    have hrun := runLength_le Char.isAlphanum (s.drop nameMark.length)
    rw [List.length_drop] at hrun
    split at h
    · cases h
    · obtain rfl := Option.some.inj h
      omega
  · cases h

theorem fits_hexNumber : Fits hexNumber := by
  intro before s n h
  unfold hexNumber at h
  split at h
  · next r =>
    have hrun := runLength_le isHex r
    dsimp only at h
    split at h
    · cases h
    · obtain rfl := Option.some.inj h
      simp only [List.length_cons]
      omega
  · cases h

/-- A character that is found behind some others is there. -/
theorem lt_length_of_drop {s r : List Char} {c : Char} {m : Nat} (h : s.drop m = c :: r) :
    m + r.length + 1 = s.length := by
  have hlength := congrArg List.length h
  rw [List.length_drop, List.length_cons] at hlength
  omega

theorem fits_unsignedNumber : Fits unsignedNumber := by
  intro before s n h
  simp only [unsignedNumber] at h
  have hwhole := runLength_le Text.isDecimalDigit s
  split at h
  · cases h
  · obtain rfl := Option.some.inj h
    split
    · next r hpoint =>
      have hrest := lt_length_of_drop hpoint
      have hrun := runLength_le Text.isDecimalDigit r
      generalize runLength Text.isDecimalDigit r = n at hrun ⊢
      have hplaces : (if n = 0 then 0 else n + 1) ≤ r.length + 1 := by
        split <;> omega
      -- from here on, only the places and the letter behind them count
      generalize (if n = 0 then 0 else n + 1) = places at hplaces ⊢
      split
      · next hletter =>
        have hend := lt_length_of_drop hletter
        omega
      · next hletter =>
        have hend := lt_length_of_drop hletter
        omega
      · omega
    · split
      · next hletter =>
        have hend := lt_length_of_drop hletter
        omega
      · next hletter =>
        have hend := lt_length_of_drop hletter
        omega
      · exact hwhole

theorem fits_number : Fits number := by
  intro before s n h
  unfold number at h
  split at h
  · next m hm =>
    obtain rfl := Option.some.inj h
    exact fits_hexNumber _ _ _ hm
  · split at h
    · next r =>
      obtain ⟨m, hm, rfl⟩ := Option.map_eq_some_iff.mp h
      exact Nat.succ_le_succ (fits_unsignedNumber _ _ _ hm)
    · exact fits_unsignedNumber _ _ _ h

theorem textLength_le {s : List Char} {n : Nat} (h : textLength s = some n) : n ≤ s.length := by
  fun_induction textLength s generalizing n with
  | case1 => cases h
  | case2 r =>
    obtain rfl := Option.some.inj h
    simp
  | case3 => cases h
  | case4 => cases h
  | case5 c r hc ih =>
    obtain ⟨m, hm, rfl⟩ := Option.map_eq_some_iff.mp h
    exact Nat.add_le_add_right (ih hm) 2
  | case6 c r hquote hend hescape ih =>
    obtain ⟨m, hm, rfl⟩ := Option.map_eq_some_iff.mp h
    exact Nat.add_le_add_right (ih hm) 1

theorem fits_text : Fits text := by
  intro before s n h
  unfold text at h
  split at h
  · next r =>
    obtain ⟨m, hm, rfl⟩ := Option.map_eq_some_iff.mp h
    exact Nat.succ_le_succ (textLength_le hm)
  · cases h

theorem fits_of_mem_rules {rule : Pattern × String} (h : rule ∈ rules) : Fits rule.1 := by
  simp only [rules, List.mem_cons, List.not_mem_nil, or_false] at h
  rcases h with rfl | rfl | rfl | rfl
  · exact fits_keyword
  · exact fits_name
  · exact fits_number
  · exact fits_text

/-! ## Section 3: Lines -/

/-- The matches of a rule in a line, as spans in its style. -/
def spansOf (s : List Char) (rule : Pattern × String) : List Span :=
  (findAll rule.1 s).map fun m => ⟨m.1, m.2, rule.2⟩

/-- All the matches in a line, in the order in which they are laid on. -/
def laid (s : List Char) : List Span :=
  rules.flatMap (spansOf s)

theorem mark_eq_foldl (s : List Char) (t : StyledText) (rule : Pattern × String) :
    mark s t rule = (spansOf s rule).foldl StyledText.lay t := by
  rw [mark, spansOf, List.foldl_map]
  rfl

/-- A line is the plain line with all the matches laid on. -/
theorem line_eq_foldl (s : List Char) :
    line s = (laid s).foldl StyledText.lay (StyledText.ofChars s Palette.foreground) := by
  rw [line, laid, List.foldl_flatMap]
  congr 1
  funext t rule
  exact mark_eq_foldl s t rule

theorem laid_bounds {s : List Char} {span : Span} (h : span ∈ laid s) :
    span.start < span.stop ∧ span.stop ≤ s.length := by
  obtain ⟨rule, hrule, h⟩ := List.mem_flatMap.mp h
  obtain ⟨m, hm, rfl⟩ := List.mem_map.mp h
  obtain ⟨-, hnonempty, hstop⟩ := findFrom_bounds (fits_of_mem_rules hrule) hm
  rw [Nat.zero_add] at hstop
  exact ⟨hnonempty, hstop⟩

/-- If no character of a line is lost, each match gives one span. -/
theorem line_eq_of_kept {s : List Char} (h : ∀ c ∈ s, StyledText.isLost c = false) :
    line s = ⟨s, Palette.foreground, laid s⟩ := by
  have hkept : StyledText.kept s = s := by
    apply List.filter_eq_self.mpr
    intro c hc
    rw [h c hc]
    rfl
  rw [line_eq_foldl, StyledText.ofChars, hkept]
  rw [StyledText.foldl_lay fun span hspan => laid_bounds hspan]
  rfl

end Highlight

end Overlay
