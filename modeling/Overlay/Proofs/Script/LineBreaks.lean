import Overlay.Proofs.Script.Values
import Overlay.Proofs.Text.Pieces
import Overlay.Script.Parser
import Mathlib.Tactic.SplitIfs

/-!
# Boundaries between lines in written values

The ends of lines are escaped in texts, and everything else is written without them.  Other
boundaries between lines are not escaped; a written value holds one of them only where a text does.

## Main definitions
- `Avoids`: texts without the characters of a class
- `MarksBreaks`: classes of boundaries between lines
- `isLineFeed`: the class of the line feed alone
- `Literal.keysOf`, `Literal.textsOf`: the keys and the texts that are written for a value
- `Literal.NamedFields`, `Literal.EscapableFields`: mappings with identifiers as keys, and with
  texts that are escaped where they have to be

## Main statements
- `Value.quoted_avoids`: values inside of lists are written without boundaries between lines
- `Literal.value_avoids_of_keys`: so are all others, up to the characters of their keys and texts
- `linesOf_endLines`: lines without line feeds are found again
-/

namespace Overlay

open Overlay.Text Overlay.Number Overlay.Scanner Overlay.Literal

/-! ## Section 1: Characters that end no line -/

/-- A text without the characters of a class. -/
def Avoids (p : Char → Bool) (s : List Char) : Prop :=
  ∀ c ∈ s, p c = false

instance (p : Char → Bool) (s : List Char) : Decidable (Avoids p s) :=
  List.decidableBAll (fun c => p c = false) s

namespace Avoids

variable {p : Char → Bool}

theorem nil : Avoids p [] := by
  intro c hc
  cases hc

theorem cons {c : Char} {s : List Char} (hc : p c = false) (hs : Avoids p s) : Avoids p (c :: s) :=
  List.forall_mem_cons.mpr ⟨hc, hs⟩

theorem append {s t : List Char} (hs : Avoids p s) (ht : Avoids p t) : Avoids p (s ++ t) :=
  List.forall_mem_append.mpr ⟨hs, ht⟩

theorem flatMap {α : Type} {l : List α} {f : α → List Char} (h : ∀ a ∈ l, Avoids p (f a)) :
    Avoids p (l.flatMap f) := by
  intro c hc
  obtain ⟨a, ha, hca⟩ := List.mem_flatMap.mp hc
  exact h a ha c hca

theorem text_append {s t : String} (hs : Avoids p s.toList) (ht : Avoids p t.toList) :
    Avoids p (s ++ t).toList := by
  rw [String.toList_append]
  exact hs.append ht

end Avoids

/-- The visible characters of ASCII and the blank end no line. -/
theorem isLineBreak_of_ascii {c : Char} (hlow : 0x20 ≤ c.toNat) (hhigh : c.toNat < 0x7F) :
    isLineBreak c = false := by
  simp only [isLineBreak, Bool.or_eq_false_iff, Bool.and_eq_false_imp, decide_eq_true_eq,
    decide_eq_false_iff_not]
  omega

theorem isLineBreak_of_isDigit {c : Char} (h : c.isDigit = true) : isLineBreak c = false := by
  obtain ⟨hlow, hhigh⟩ := isDigit_iff.mp h
  exact isLineBreak_of_ascii (by omega) (by omega)

theorem isLineBreak_of_isNumberChar {c : Char} (h : Spelling.isNumberChar c = true) :
    isLineBreak c = false := by
  simp only [Spelling.isNumberChar, Bool.or_eq_true, decide_eq_true_eq] at h
  rcases h with (((h | rfl) | rfl) | rfl) | rfl
  · exact isLineBreak_of_isDigit h
  · decide
  · decide
  · decide
  · decide

theorem isLineBreak_of_isIdentifierRest {c : Char} (h : isIdentifierRest c = true) :
    isLineBreak c = false := by
  obtain ⟨hlow, hhigh⟩ := toNat_of_isIdentifierRest h
  exact isLineBreak_of_ascii (by omega) (by omega)

/-- What ends a line has no visible shape. -/
theorem isPrintable_of_isLineBreak {c : Char} (h : isLineBreak c = true) :
    isPrintable c = false := by
  have hfar : ∀ n ∈ [0x85, 0x2028, 0x2029],
      invisibleRanges.any (fun r => r.1 ≤ n && n ≤ r.2) = true := by decide +kernel
  simp only [isLineBreak, Bool.or_eq_true, Bool.and_eq_true, decide_eq_true_eq] at h
  unfold isPrintable
  dsimp only
  split
  · rw [Bool.and_eq_false_imp]
    intro hlow
    rw [decide_eq_true_eq] at hlow
    omega
  · have hmem : c.toNat ∈ [0x85, 0x2028, 0x2029] := by
      simp only [List.mem_cons, List.not_mem_nil, or_false]
      omega
    rw [hfar c.toNat hmem]
    rfl

/-! ## Section 2: Values between quotes -/

theorem spelling_avoids (w : Spelling) : Avoids isLineBreak w.chars :=
  fun _ hc => isLineBreak_of_isNumberChar (w.isNumberChar_of_mem hc)

theorem digits_avoid {ds : List Char} (h : Digits ds) : Avoids isLineBreak ds :=
  fun c hc => isLineBreak_of_isDigit (h c hc)

theorem intChars_avoid (i : Int) : Avoids isLineBreak (intChars i) := by
  rw [← Spelling.ofInt_chars]
  exact spelling_avoids _

/-- The text of a double, finite or not. -/
theorem chars_avoid (x : Double) : Avoids isLineBreak x.chars := by
  cases x with
  | nan => decide
  | infinite s => cases s <;> decide
  | finite s m p h =>
    obtain ⟨w, hw, -⟩ := Double.exists_spelling (x := .finite s m p h) rfl
    rw [hw]
    exact spelling_avoids w

theorem hexDigit_avoids {d : Nat} (h : d < 16) : isLineBreak (hexDigit d) = false := by
  have hall : ∀ e ∈ List.range 16, isLineBreak (hexDigit e) = false := by decide
  exact hall d (List.mem_range.mpr h)

theorem hexDigits_avoid (width n : Nat) : Avoids isLineBreak (hexDigits width n) := by
  induction width generalizing n with
  | zero => exact Avoids.nil
  | succ width ih =>
    exact (ih (n / 16)).append (Avoids.nil.cons (hexDigit_avoids (by omega)))

/-- Between quotes, what ends a line is escaped. -/
theorem escapeChar_avoids {q : Char} (hq : isLineBreak q = false) (c : Char) :
    Avoids isLineBreak (escapeChar q c) := by
  have hslash : isLineBreak '\\' = false := by decide
  unfold escapeChar
  split_ifs with hself hfeed hreturn htab hprint hbyte hword
  · simp only [Bool.or_eq_true, decide_eq_true_eq] at hself
    rcases hself with rfl | rfl
    · exact Avoids.cons hslash (Avoids.nil.cons hq)
    · exact Avoids.cons hslash (Avoids.nil.cons hslash)
  · decide
  · decide
  · decide
  · refine Avoids.nil.cons ?_
    cases hc : isLineBreak c with
    | false => rfl
    | true =>
      rw [isPrintable_of_isLineBreak hc] at hprint
      cases hprint
  · exact Avoids.cons hslash (Avoids.cons (by decide) (hexDigits_avoid _ _))
  · exact Avoids.cons hslash (Avoids.cons (by decide) (hexDigits_avoid _ _))
  · exact Avoids.cons hslash (Avoids.cons (by decide) (hexDigits_avoid _ _))

theorem quotedChars_avoid (s : List Char) : Avoids isLineBreak (quotedChars s) := by
  have hq : isLineBreak (quoteFor s) = false := by
    unfold quoteFor
    split <;> decide
  refine (Avoids.cons hq (Avoids.flatMap fun c _ => escapeChar_avoids hq c)).append ?_
  exact Avoids.nil.cons hq

theorem Date.text_avoids (d : Date) : Avoids isLineBreak d.text.toList := by
  have hdash : isLineBreak '-' = false := by decide
  rw [Date.text, String.toList_ofList]
  exact ((digits_avoid (padded_digits 4 d.year)).append
    (Avoids.cons hdash (digits_avoid (padded_digits 2 d.month)))).append
    (Avoids.cons hdash (digits_avoid (padded_digits 2 d.day)))

theorem intText_avoids (i : Int) : Avoids isLineBreak (intText i).toList := by
  rw [intText, String.toList_ofList]
  exact intChars_avoid i

theorem Date.quoted_avoids (d : Date) : Avoids isLineBreak d.quoted.toList := by
  have hcall : Avoids isLineBreak "datetime.date(".toList := by decide
  have hcomma : Avoids isLineBreak ", ".toList := by decide
  have hclose : Avoids isLineBreak ")".toList := by decide
  exact (((((hcall.text_append (intText_avoids _)).text_append hcomma).text_append
    (intText_avoids _)).text_append hcomma).text_append (intText_avoids _)).text_append hclose

mutual

/-- Inside of lists, values are written without line boundaries. -/
theorem Value.quoted_avoids (v : Value) : Avoids isLineBreak v.quoted.toList := by
  have hopen : Avoids isLineBreak "(".toList := by decide
  have hclose : Avoids isLineBreak ")".toList := by decide
  match v with
  | .none => rw [Value.quoted]; decide
  | .bool b => rw [Value.quoted]; cases b <;> decide
  | .int i =>
    rw [Value.quoted]
    exact intText_avoids i
  | .float x =>
    rw [Value.quoted, Double.text, String.toList_ofList]
    exact chars_avoid x
  | .text s =>
    rw [Value.quoted, Text.quoted, String.toList_ofList]
    exact quotedChars_avoid s.toList
  | .date d =>
    rw [Value.quoted]
    exact d.quoted_avoids
  | .list items =>
    have hleft : Avoids isLineBreak "[".toList := by decide
    have hright : Avoids isLineBreak "]".toList := by decide
    rw [Value.quoted]
    exact (hleft.text_append (Value.quotedItems_avoid items)).text_append hright
  | .tuple [] => rw [Value.quoted, Value.quotedItems] <;> first | decide | simp
  | .tuple [item] =>
    have hcomma : Avoids isLineBreak ",)".toList := by decide
    rw [Value.quoted]
    exact (hopen.text_append (Value.quoted_avoids item)).text_append hcomma
  | .tuple (v :: w :: r) =>
    rw [Value.quoted]
    · exact (hopen.text_append (Value.quotedItems_avoid (v :: w :: r))).text_append hclose
    · simp
  | .dict entries =>
    have hleft : Avoids isLineBreak "\x7b".toList := by decide
    have hright : Avoids isLineBreak "\x7d".toList := by decide
    rw [Value.quoted]
    exact (hleft.text_append (Value.quotedEntries_avoid entries)).text_append hright

theorem Value.quotedItems_avoid (items : List Value) :
    Avoids isLineBreak (Value.quotedItems items).toList := by
  have hcomma : Avoids isLineBreak ", ".toList := by decide
  match items with
  | [] => decide
  | [v] => exact Value.quoted_avoids v
  | v :: w :: r =>
    rw [Value.quotedItems]
    exact ((Value.quoted_avoids v).text_append hcomma).text_append
      (Value.quotedItems_avoid (w :: r))

theorem Value.quotedEntries_avoid (entries : List (Value × Value)) :
    Avoids isLineBreak (Value.quotedEntries entries).toList := by
  have hcolon : Avoids isLineBreak ": ".toList := by decide
  have hcomma : Avoids isLineBreak ", ".toList := by decide
  match entries with
  | [] => decide
  | [(k, v)] =>
    rw [Value.quotedEntries]
    exact ((Value.quoted_avoids k).text_append hcolon).text_append (Value.quoted_avoids v)
  | (k, v) :: e :: r =>
    rw [Value.quotedEntries]
    exact ((((Value.quoted_avoids k).text_append hcolon).text_append
      (Value.quoted_avoids v)).text_append hcomma).text_append (Value.quotedEntries_avoid (e :: r))

end

/-! ## Section 3: Values under a key -/

namespace Literal

mutual

/-- The keys of the mappings in a value, at every depth. -/
def keysOf : Value → List Value
  | .dict entries => keysOfFields entries
  | _ => []

/-- The keys of a mapping and of the mappings in it. -/
def keysOfFields : List (Value × Value) → List Value
  | [] => []
  | (k, v) :: r => k :: (keysOf v ++ keysOfFields r)

end

mutual

/-- The texts that a value is or that the mappings in it hold. -/
def textsOf : Value → List String
  | .text s => [s]
  | .dict entries => textsOfFields entries
  | _ => []

/-- The texts that a mapping holds, at every depth. -/
def textsOfFields : List (Value × Value) → List String
  | [] => []
  | (_, v) :: r => textsOf v ++ textsOfFields r

end

/-- A mapping whose keys are identifiers, at every depth. -/
def NamedFields (fs : Fields) : Prop :=
  ∀ k ∈ keysOfFields fs, isNameKey k = true

instance (fs : Fields) : Decidable (NamedFields fs) :=
  List.decidableBAll (fun k => isNameKey k = true) (keysOfFields fs)

/-- A text without the characters of a class, except for those that are escaped. -/
def Escapable (p : Char → Bool) (s : String) : Prop :=
  ∀ c ∈ s.toList, p c = true → c = '\n' ∨ c = '\r'

/-- A mapping whose texts are escaped where they have to be. -/
def EscapableFields (p : Char → Bool) (fs : Fields) : Prop :=
  ∀ s ∈ textsOfFields fs, Escapable p s

theorem NamedFields.of_mem {fs : Fields} (h : NamedFields fs) {e : Value × Value} (he : e ∈ fs) :
    ∀ k ∈ keysOf e.2, isNameKey k = true := by
  induction fs with
  | nil => cases he
  | cons d r ih =>
    unfold NamedFields at h ih
    rw [keysOfFields, List.forall_mem_cons, List.forall_mem_append] at h
    rcases List.mem_cons.mp he with rfl | he
    · exact h.2.1
    · exact ih h.2.2 he

theorem EscapableFields.of_mem {p : Char → Bool} {fs : Fields} (h : EscapableFields p fs)
    {e : Value × Value} (he : e ∈ fs) : ∀ s ∈ textsOf e.2, Escapable p s := by
  induction fs with
  | nil => cases he
  | cons d r ih =>
    unfold EscapableFields at h ih
    rw [textsOfFields, List.forall_mem_append] at h
    rcases List.mem_cons.mp he with rfl | he
    · exact h.1
    · exact ih h.2 he

theorem NamedFields.get {fs : Fields} (h : NamedFields fs) (name : String) :
    ∀ k ∈ keysOf (Fields.get fs name), isNameKey k = true := by
  rcases Fields.get_cases fs name with heq | he
  · rw [heq]
    simp [keysOf]
  · exact h.of_mem he

theorem EscapableFields.get {p : Char → Bool} {fs : Fields} (h : EscapableFields p fs)
    (name : String) : ∀ s ∈ textsOf (Fields.get fs name), Escapable p s := by
  rcases Fields.get_cases fs name with heq | he
  · rw [heq]
    simp [textsOf]
  · exact h.of_mem he

end Literal

/-- A class of boundaries between lines. -/
def MarksBreaks (p : Char → Bool) : Prop :=
  ∀ c, isLineBreak c = false → p c = false

theorem Avoids.of_marksBreaks {p : Char → Bool} (hp : MarksBreaks p) {s : List Char}
    (h : Avoids isLineBreak s) : Avoids p s :=
  fun c hc => hp c (h c hc)

theorem joinWith_avoids {p : Char → Bool} {sep : List Char} (hsep : Avoids p sep)
    {ls : List (List Char)} (h : ∀ l ∈ ls, Avoids p l) : Avoids p (joinWith sep ls) := by
  induction ls with
  | nil => exact Avoids.nil
  | cons l r ih =>
    have hl := h l List.mem_cons_self
    cases r with
    | nil => exact hl
    | cons m r => exact (hl.append hsep).append (ih fun n hn => h n (List.mem_cons_of_mem l hn))

namespace Literal

/-- A text that is written at all is the given one. -/
theorem yields_written {q : List Char → Prop} {v : Value} {text : List Char} (h : q text) :
    Yields q (written v text) := by
  unfold written
  split
  · exact Yields.ok h
  · exact Yields.error _

theorem yields_under {q : List Char → Prop} {key : Value} {text : Result (List Char)}
    (h : Yields q text) : Yields q (under key text) := by
  unfold under
  split
  · exact h
  · exact Yields.error _

section Lines

variable {p : Char → Bool} (hp : MarksBreaks p)
include hp

/-- Names end no line. -/
theorem name_avoids {name : List Char} (h : isName name = true) : Avoids p name :=
  fun c hc => hp c (isLineBreak_of_isIdentifierRest (isIdentifierRest_of_mem h hc))

theorem key_avoids {k : Value} (hk : isNameKey k = true) : Avoids p k.shown.toList := by
  cases k with
  | text s => exact name_avoids hp hk
  | _ => cases hk

theorem quote_avoids {s : String} (h : Escapable p s) : Avoids p (quote s.toList) := by
  have hplain : ∀ c, isLineBreak c = false → Avoids p [c] :=
    fun c hc => Avoids.nil.cons (hp c hc)
  have hchar : ∀ c ∈ s.toList, Avoids p (quoteChar c) := by
    intro c hc
    unfold quoteChar
    split
    · exact Avoids.of_marksBreaks hp (by decide)
    · exact Avoids.of_marksBreaks hp (by decide)
    · exact Avoids.of_marksBreaks hp (by decide)
    · exact Avoids.of_marksBreaks hp (by decide)
    · next _ _ hreturn hfeed =>
      refine Avoids.nil.cons ?_
      cases hpc : p c with
      | false => rfl
      | true =>
        rcases h c hc hpc with heq | heq
        · exact absurd heq hfeed
        · exact absurd heq hreturn
  exact (Avoids.cons (hp _ (by decide)) (Avoids.flatMap hchar)).append (hplain _ (by decide))

theorem double_avoids (x : Double) : Avoids p (double x) := by
  refine Avoids.of_marksBreaks hp ?_
  unfold double
  split
  · exact intChars_avoid _
  · exact chars_avoid x

theorem color_avoids (n : Nat) : Avoids p (color n) := by
  have hdigit : ∀ c, isHexDigit c = true → isLineBreak c = false := by
    intro c hc
    simp only [isHexDigit, Bool.or_eq_true, Bool.and_eq_true, decide_eq_true_eq] at hc
    rcases hc with (hc | hc) | hc
    · exact isLineBreak_of_isDigit hc
    · exact isLineBreak_of_ascii (by omega) (by omega)
    · exact isLineBreak_of_ascii (by omega) (by omega)
  have hzeros : ∀ k, Avoids isLineBreak (List.replicate k '0') :=
    fun k => digits_avoid (Digits.replicate_zero k)
  have hnumeral : Avoids isLineBreak (hexNumeral n) :=
    fun c hc => hdigit c (isHexDigit_of_mem_hexNumeral n c hc)
  refine Avoids.of_marksBreaks hp (Avoids.append ?_ hnumeral)
  exact Avoids.cons (by decide) (Avoids.cons (by decide) (hzeros _))

theorem number_avoids {v : Value} {n : Number} (hv : v = Value.ofNumber n) : Avoids p (number v) := by
  subst hv
  cases n with
  | int i =>
    rw [Value.ofNumber, number_int]
    exact Avoids.of_marksBreaks hp (intChars_avoid i)
  | float x => exact double_avoids hp x

theorem numberUnder_avoids (key : Value) (n : Number) :
    Yields (Avoids p) (numberUnder key (Value.ofNumber n) n) := by
  unfold numberUnder
  split
  · exact Yields.bind_any fun i _ => Yields.ok (color_avoids hp i.toNat)
  · split
    · exact yields_written ((number_avoids hp rfl).append (Avoids.nil.cons (hp _ (by decide))))
    · exact yields_written (number_avoids hp rfl)

theorem bool_avoids (b : Bool) : Avoids p (number (.bool b)) := by
  refine Avoids.of_marksBreaks hp ?_
  cases b <;> decide

theorem shown_avoids (v : Value) (hv : ∀ s, v ≠ .text s) : Avoids p v.shown.toList := by
  refine Avoids.of_marksBreaks hp ?_
  cases v with
  | text s => exact absurd rfl (hv s)
  | date d => exact d.text_avoids
  | _ =>
    rw [Value.shown]
    · exact Value.quoted_avoids _
    · simp
    · simp

theorem assignment_avoids_of_key {k : Value} (hk : Avoids p k.shown.toList) {text : List Char}
    (h : Avoids p text) : Avoids p (assignment k text) :=
  (hk.append (Avoids.of_marksBreaks hp (by decide))).append h

theorem assignment_avoids {k : Value} (hk : isNameKey k = true) {text : List Char}
    (h : Avoids p text) : Avoids p (assignment k text) :=
  assignment_avoids_of_key hp (key_avoids hp hk) h

theorem braced_avoids {ls : List (List Char)} (h : ∀ l ∈ ls, Avoids p l) :
    Avoids p (braced ls) := by
  have hplain : ∀ s, Avoids isLineBreak s → Avoids p s := fun s hs => Avoids.of_marksBreaks hp hs
  unfold braced
  split
  · exact hplain _ (by decide)
  · exact ((hplain _ (by decide)).append (joinWith_avoids (hplain _ (by decide)) h)).append
      (hplain _ (by decide))

mutual

/-- The text of a value has only the characters of its keys, and of its texts that are not escaped. -/
theorem value_avoids_of_keys (key v : Value) (hkeys : ∀ k ∈ keysOf v, Avoids p k.shown.toList)
    (htexts : ∀ s ∈ textsOf v, Escapable p s) : Yields (Avoids p) (value key v) := by
  match v with
  | .none => exact Yields.ok Avoids.nil
  | .bool b => exact yields_under (Yields.ok (bool_avoids hp b))
  | .int i => exact yields_under (numberUnder_avoids hp key (.int i))
  | .float x => exact yields_under (numberUnder_avoids hp key (.float x))
  | .text s =>
    exact yields_under (Yields.ok (quote_avoids hp (htexts s (List.mem_singleton.mpr rfl))))
  | .date d => exact yields_under (Yields.ok (Avoids.of_marksBreaks hp d.text_avoids))
  | .list items => exact yields_under (yields_written (shown_avoids hp (.list items) (by simp)))
  | .tuple items => exact yields_under (yields_written (shown_avoids hp (.tuple items) (by simp)))
  | .dict entries =>
    rw [value]
    exact yields_under (Yields.bind (fields_avoid_of_keys entries hkeys htexts) fun ls hls =>
      Yields.ok (braced_avoids hp hls))

theorem fields_avoid_of_keys (entries : List (Value × Value))
    (hkeys : ∀ k ∈ keysOfFields entries, Avoids p k.shown.toList)
    (htexts : ∀ s ∈ textsOfFields entries, Escapable p s) :
    Yields (fun ls => ∀ l ∈ ls, Avoids p l) (fields entries) := by
  match entries with
  | [] => exact Yields.ok (by simp)
  | (k, v) :: r =>
    rw [keysOfFields, List.forall_mem_cons, List.forall_mem_append] at hkeys
    rw [textsOfFields, List.forall_mem_append] at htexts
    rw [fields]
    refine Yields.bind (value_avoids_of_keys k v hkeys.2.1 htexts.1) fun text htext => ?_
    refine Yields.bind (fields_avoid_of_keys r hkeys.2.2 htexts.2) fun ls hls => Yields.ok ?_
    split
    · exact hls
    · exact List.forall_mem_cons.mpr ⟨assignment_avoids_of_key hp hkeys.1 htext, hls⟩

end

/-- Under identifiers, the text of a value has only the characters of its texts. -/
theorem value_avoids (key v : Value) (hkeys : ∀ k ∈ keysOf v, isNameKey k = true)
    (htexts : ∀ s ∈ textsOf v, Escapable p s) : Yields (Avoids p) (value key v) :=
  value_avoids_of_keys hp key v (fun k hk => key_avoids hp (hkeys k hk)) htexts

theorem seconds_avoids (ms : Value) : Yields (Avoids p) (seconds ms) :=
  Yields.bind_any fun _ _ => Yields.bind_any fun x _ => Yields.ok (double_avoids hp x)

theorem renamedFields_avoid {fs : Fields} (hkeys : NamedFields fs) (htexts : EscapableFields p fs) :
    Yields (fun ls => ∀ l ∈ ls, Avoids p l) (renamedFields Emission.renames fs) := by
  induction fs with
  | nil => exact Yields.ok (by simp)
  | cons e r ih =>
    obtain ⟨k, v⟩ := e
    unfold NamedFields EscapableFields at *
    rw [keysOfFields, List.forall_mem_cons, List.forall_mem_append] at hkeys
    rw [textsOfFields, List.forall_mem_append] at htexts
    have hrest := ih hkeys.2.2 htexts.2
    rw [renamedFields]
    refine Yields.bind (value_avoids hp k v hkeys.2.1 htexts.1) fun text htext => ?_
    split
    · exact hrest
    · have hname : isNameKey (.text (scriptName k.shown)) = true := by
        cases k with
        | text s => exact isName_scriptName hkeys.1
        | _ => cases hkeys.1
      rw [← bind_assoc, renamed_renames hkeys.1, ok_bind]
      exact Yields.bind hrest fun ls hls =>
        Yields.ok (List.forall_mem_cons.mpr ⟨assignment_avoids hp hname htext, hls⟩)

theorem mapping_avoids {properties : Value}
    (h : ∀ fs, properties = .dict fs → NamedFields fs ∧ EscapableFields p fs) :
    Yields (Avoids p) (mapping properties Emission.renames) := by
  cases properties with
  | dict fs =>
    obtain ⟨hkeys, htexts⟩ := h fs rfl
    intro text htext
    obtain ⟨ls, hls, rfl⟩ := map_eq_ok.mp htext
    exact braced_avoids hp (renamedFields_avoid hp hkeys htexts ls hls)
  | _ => exact Yields.error _

end Lines

end Literal

/-! ## Section 4: Line feeds -/

/-- Whether a character is the line feed. -/
def isLineFeed (c : Char) : Bool :=
  c = '\n'

theorem marksBreaks_isLineFeed : MarksBreaks isLineFeed := by
  intro c hc
  cases h : isLineFeed c with
  | false => rfl
  | true =>
    obtain rfl : c = '\n' := of_decide_eq_true h
    cases hc

theorem avoids_isLineFeed_iff {s : List Char} : Avoids isLineFeed s ↔ '\n' ∉ s := by
  constructor
  · intro h hmem
    exact absurd (h '\n' hmem) (by decide)
  · intro h c hc
    cases hfeed : isLineFeed c with
    | false => rfl
    | true =>
      obtain rfl : c = '\n' := of_decide_eq_true hfeed
      exact absurd hc h

/-- Line feeds are always escaped. -/
theorem escapable_isLineFeed (s : String) : Escapable isLineFeed s :=
  fun _ _ h => Or.inl (of_decide_eq_true h)

/-- A piece ends at the first line feed. -/
theorem pieces_append {l : List Char} (hl : Avoids isLineFeed l) (r : List Char) :
    pieces '\n' (l ++ '\n' :: r) = l :: pieces '\n' r := by
  have hone : pieces '\n' l = [l] :=
    pieces_eq_singleton fun c hc => of_decide_eq_false (hl c hc)
  rw [pieces_append_sep, hone, List.singleton_append]

theorem pieces_endLines {ls : List (List Char)} (h : ∀ l ∈ ls, Avoids isLineFeed l) :
    pieces '\n' (Emission.endLines ls) = ls ++ [[]] := by
  induction ls with
  | nil => rfl
  | cons l r ih =>
    rw [List.forall_mem_cons] at h
    have hjoin : Emission.endLines (l :: r) = l ++ '\n' :: Emission.endLines r := by
      simp [Emission.endLines]
    rw [hjoin, pieces_append h.1, ih h.2, List.cons_append]

/-- Lines without line feeds are found again. -/
theorem linesOf_endLines {ls : List (List Char)} (h : ∀ l ∈ ls, Avoids isLineFeed l) :
    Script.linesOf (Emission.endLines ls) = ls := by
  rw [Script.linesOf, pieces_endLines h]
  simp

end Overlay
