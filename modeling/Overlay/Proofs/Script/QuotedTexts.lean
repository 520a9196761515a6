import Overlay.Proofs.Script.Concatenation
import Overlay.Proofs.Script.RoundTrip
import Overlay.Proofs.Script.ValueTexts

/-!
# Texts between quotes

Between quotes, a text stands for itself and does nothing else.  It is read up to its closing quote,
whatever it holds and whatever stands behind it, and no line ends inside of it.  So neither an attribute
nor a property can take up what follows it, or bring a line of its own into a script.

## Main definitions
- `Literal.escaped`: a text after the replacements that are made between quotes
- `Script.StandsFor`: texts that stand for a value in a script, and do nothing else there

## Main statements
- `Literal.escaped_eq`: replacements of the whole text are replacements of each character
- `Script.readLines_attributeLine`, `Script.readLines_statement`: a script goes on behind a line
- `Literal.quote_standsFor`: a text between quotes stands for the text
-/

namespace Overlay

open Overlay.Text Overlay.Number Overlay.Scanner Overlay.Literal

/-! ## Section 1: Replacements -/

namespace Literal

/-- A text in which every occurrence of a character is replaced. -/
def replaced (c : Char) (word s : List Char) : List Char :=
  s.flatMap fun d => if d = c then word else [d]

/-- A text after the replacements that are made between quotes.  Backslashes are the first to be
replaced, as all other replacements bring new ones. -/
def escaped (s : List Char) : List Char :=
  replaced '\n' ['\\', 'n'] (replaced '\r' ['\\', 'r']
    (replaced '"' ['\\', '"'] (replaced '\\' ['\\', '\\'] s)))

theorem replaced_append (c : Char) (word s t : List Char) :
    replaced c word (s ++ t) = replaced c word s ++ replaced c word t :=
  List.flatMap_append

theorem replaced_of_ne {c d : Char} (h : d ≠ c) (word : List Char) : replaced c word [d] = [d] := by
  simp [replaced, h]

theorem escaped_append (s t : List Char) : escaped (s ++ t) = escaped s ++ escaped t := by
  simp only [escaped, replaced_append]

/-- What replaces a character is left alone by the replacements behind it. -/
theorem escaped_singleton (c : Char) : escaped [c] = quoteChar c := by
  unfold quoteChar
  split
  · rfl
  · rfl
  · rfl
  · rfl
  · next hslash hquote hreturn hfeed =>
    rw [escaped, replaced_of_ne hslash, replaced_of_ne hquote, replaced_of_ne hreturn,
      replaced_of_ne hfeed]

/-- Replacements of the whole text, one after the other, are replacements of each character. -/
theorem escaped_eq (s : List Char) : escaped s = s.flatMap quoteChar := by
  induction s with
  | nil => rfl
  | cons c r ih =>
    rw [← List.singleton_append, escaped_append, escaped_singleton, ih, List.flatMap_append,
      List.flatMap_singleton]

end Literal

/-! ## Section 2: Lines of a script -/

namespace Script

variable {p : Progress}

/-- Behind a line that gives an attribute, reading goes on in the next line. -/
theorem readLines_attributeLine {a : Assigned} (ha : a.Sound) (hfeed : '\n' ∉ a.text) {d : Definition}
    (hp : p.current = some d) (line : Nat) (rest : List Char) :
    readLines p line (linesOf (attributeLine a ++ '\n' :: rest))
      = readLines { p with current := some { d with attrs := Fields.put d.attrs a.key a.value } }
          (line + 1) (linesOf rest) := by
  have hkey : isNameKey (.text a.key) = true := ha.name
  have htidy := Emission.attributeLine_tidy marksBreaks_isLineFeed hkey (avoids_isLineFeed_iff.mpr hfeed)
  have hline : '\n' ∉ attributeLine a :=
    avoids_isLineFeed_iff.mp (htidy _ List.mem_cons_self).1
  rw [linesOf_line hline]
  exact readLines_cons (readLine_attribute hp ha line) _

/-- Behind a statement, reading goes on in the next line. -/
theorem readLines_statement {parts : List Assigned} (hparts : ∀ a ∈ parts, a.Sound ∧ '\n' ∉ a.text)
    {name : String} (hname : isName name.toList = true) (hp : p.current = none)
    (hdeclared : p.declared.contains name = true) {w : Spelling} (hw : isTooLong w.chars = false)
    (chained : Bool) (line : Nat) (rest : List Char) :
    readLines p line (linesOf
        (Emission.statement (if chained then Emission.thenSetWord else Emission.setWord) name.toList
          (braced (parts.map Assigned.chars)) w.chars ++ '\n' :: rest))
      = readLines { p with sets := p.sets ++
          [⟨name, Fields.assign [] (parts.map Assigned.field), secondsOf w.chars, chained, line⟩] }
          (line + 1) (linesOf rest) := by
  have hword : Avoids isLineBreak (if chained then Emission.thenSetWord else Emission.setWord) := by
    cases chained <;> decide
  have hfields : Avoids isLineFeed (braced (parts.map Assigned.chars)) := by
    refine braced_avoids marksBreaks_isLineFeed (List.forall_mem_map.mpr fun a ha => ?_)
    obtain ⟨hsound, hfeed⟩ := hparts a ha
    exact assignment_avoids marksBreaks_isLineFeed (k := .text a.key) hsound.name
      (avoids_isLineFeed_iff.mpr hfeed)
  have hseconds := Avoids.of_marksBreaks marksBreaks_isLineFeed (spelling_avoids w)
  have htidy := Emission.statement_tidy marksBreaks_isLineFeed hword hname hfields hseconds
  have hread := says_statement hname (readsMapping_braced fun a ha => (hparts a ha).1) hw chained
  rw [linesOf_line (avoids_isLineFeed_iff.mp (htidy _ List.mem_cons_self).1)]
  exact readLines_cons (hread.readLine_eq hp hdeclared) _

/-! ## Section 3: Texts that stand for a value -/

/-- A text that stands for a value in a script, and does nothing else there. -/
structure StandsFor (text : List Char) (v : Value) : Prop where
  /-- No line ends inside of it. -/
  on_one_line : '\n' ∉ text ∧ '\r' ∉ text
  /-- Where a value comes next, it is read up to its end, whatever stands behind it. -/
  valueFrom_eq : ∀ (fuel : Nat) (rest : List Char), valueFrom (fuel + 1) (text ++ rest) = .ok (v, rest)
  /-- As an attribute it assigns the value, and reading goes on in the next line. -/
  as_attribute : ∀ {p : Progress} {d : Definition}, p.current = some d →
    ∀ key : String, isName key.toList = true → ∀ (line : Nat) (rest : List Char),
      readLines p line (linesOf (Emission.attributeLine (.text key) text ++ '\n' :: rest))
        = readLines { p with current := some { d with attrs := Fields.put d.attrs key v } }
            (line + 1) (linesOf rest)
  /-- As one of the properties of a statement it assigns the value, and reading goes on in the next
  line. -/
  as_property : ∀ {p : Progress}, p.current = none →
    ∀ name : String, isName name.toList = true → p.declared.contains name = true →
    ∀ key : String, isName key.toList = true →
    ∀ before after : List Assigned, (∀ a ∈ before ++ after, a.Sound ∧ '\n' ∉ a.text) →
    ∀ (w : Spelling), isTooLong w.chars = false → ∀ (chained : Bool) (line : Nat) (rest : List Char),
      readLines p line (linesOf
          (Emission.statement (if chained then Emission.thenSetWord else Emission.setWord) name.toList
            (braced (before.map Assigned.chars ++ assignment (.text key) text
              :: after.map Assigned.chars)) w.chars ++ '\n' :: rest))
        = readLines { p with sets := p.sets ++ [⟨name, Fields.assign [] (before.map Assigned.field
            ++ (key, v) :: after.map Assigned.field), secondsOf w.chars, chained, line⟩] }
            (line + 1) (linesOf rest)

/-- A text stands for a value if it is read up to its end and no line ends inside of it. -/
theorem StandsFor.of_valueFrom {text : List Char} {v : Value} (hne : text ≠ [])
    (hlines : '\n' ∉ text ∧ '\r' ∉ text)
    (hvalue : ∀ (fuel : Nat) (rest : List Char), valueFrom (fuel + 1) (text ++ rest) = .ok (v, rest)) :
    StandsFor text v := by
  have hreads : Reads text v := by
    refine ⟨hne, ?_⟩
    intro rest fuel _ hfuel
    have hlength := List.length_pos_of_ne_nil hne
    obtain ⟨f, rfl⟩ : ∃ f, fuel = f + 1 := ⟨fuel - 1, by omega⟩
    exact hvalue f rest
  refine ⟨hlines, hvalue, ?as_attribute, ?as_property⟩
  case as_attribute =>
    intro p d hp key hkey line rest
    exact readLines_attributeLine (a := ⟨key, text, v⟩) ⟨hkey, hreads⟩ hlines.1 hp line rest
  case as_property =>
    intro p hp name hname hdeclared key hkey before after hothers w hw chained line rest
    have hparts : ∀ a ∈ before ++ ⟨key, text, v⟩ :: after, a.Sound ∧ '\n' ∉ a.text := by
      rw [List.forall_mem_append] at hothers
      rw [List.forall_mem_append, List.forall_mem_cons]
      exact ⟨hothers.1, ⟨⟨hkey, hreads⟩, hlines.1⟩, hothers.2⟩
    have hstatement := readLines_statement hparts hname hp hdeclared hw chained line rest
    rw [List.map_append, List.map_append, List.map_cons, List.map_cons] at hstatement
    exact hstatement

end Script

namespace Literal

theorem expect_quote (s rest : List Char) :
    expect '"' (quote s ++ rest) = .ok (s.flatMap quoteChar ++ '"' :: rest) := by
  rw [quote_append, expect_cons (by decide)]

/-- Between quotes stands the text after four replacements, and every text is written between quotes.  It
is read back up to its closing quote, whatever it holds and whatever follows, and does nothing else in a
script than to stand for the text. -/
theorem quote_standsFor (s : String) :
    quote s.toList = '"' :: escaped s.toList ++ ['"']
      ∧ (∀ key : Value, key.hasText = true → value key (.text s) = .ok (quote s.toList))
      ∧ (∀ rest, (expect '"' (quote s.toList ++ rest) >>= Scanner.text) = .ok (s, rest))
      ∧ Script.StandsFor (quote s.toList) (.text s) := by
  have hlines := quote_avoids marksBreaks_endsLine (escapable_endsLine s)
  have hnot : ∀ c, endsLine c = true → c ∉ quote s.toList := by
    intro c hc hmem
    rw [hlines c hmem] at hc
    cases hc
  refine ⟨?between, fun key hkey => under_of_hasText hkey _, ?scanned, ?stands⟩
  case between => rw [escaped_eq, quote]
  case scanned =>
    intro rest
    rw [expect_quote, ok_bind, text_quoted, String.ofList_toList]
  case stands =>
    exact Script.StandsFor.of_valueFrom (List.cons_ne_nil _ _) ⟨hnot '\n' rfl, hnot '\r' rfl⟩
      fun fuel rest => valueFrom_quote s rest fuel

/-- A text that looks like the end of its block with a statement behind it stays an attribute. -/
theorem quote_standsFor_sample :
    Script.readLines ⟨[], [], ["a"], some ⟨.text, "a", []⟩⟩ 2 (Script.linesOf
        (Emission.attributeLine (.text "content") (quote "\\\"\n\x7d\nset a \x7b\x7d 1s".toList)
          ++ '\n' :: "\x7d\n".toList))
      = .ok ⟨[⟨.text, "a", [(.text "content", .text "\\\"\n\x7d\nset a \x7b\x7d 1s")]⟩], [], ["a"],
          none⟩ := by
  have hstands := (quote_standsFor "\\\"\n\x7d\nset a \x7b\x7d 1s").2.2.2
  rw [hstands.as_attribute rfl "content" (by decide)]
  rfl

end Literal

end Overlay
