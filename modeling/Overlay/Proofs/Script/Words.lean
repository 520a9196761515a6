import Overlay.Proofs.Number.ReadBack
import Overlay.Script.Literal

/-!
# Words of a script line

The scanner inverts the writer word by word.  Each word is read up to the gap behind it, whatever
the line goes on with there.

## Main definitions
- `AtGap`: a line that ends, or goes on with a blank or a comma
- `isName`: the texts that are identifiers

## Main statements
- `textBody_quoted`: a text between quotes is read back, whatever its characters are
- `identifier_append`: so is an identifier, in front of what cannot belong to it
-/

namespace Overlay.Scanner

open Overlay.Text Overlay.Number

/-! ## Section 1: Gaps -/

/-- A line that ends, or goes on with a blank or a comma. -/
def AtGap (s : List Char) : Prop :=
  ∀ c ∈ s.head?, c = ' ' ∨ c = ','

theorem AtGap.nil : AtGap [] := by
  intro c hc
  cases hc

theorem AtGap.blank (s : List Char) : AtGap (' ' :: s) := by
  intro c hc
  exact Or.inl (Option.some.inj hc).symm

theorem AtGap.comma (s : List Char) : AtGap (',' :: s) := by
  intro c hc
  exact Or.inr (Option.some.inj hc).symm

/-- A class without the blank and the comma does not reach over a gap. -/
theorem AtGap.startsOutside {s : List Char} (h : AtGap s) {p : Char → Bool} (hblank : p ' ' = false)
    (hcomma : p ',' = false) : StartsOutside p s := by
  intro c hc
  rcases h c hc with rfl | rfl
  · exact hblank
  · exact hcomma

@[simp] theorem skipSpaces_blank (s : List Char) : skipSpaces (' ' :: s) = skipSpaces s := by
  simp [skipSpaces, isSpace]

/-- There is nothing to skip in front of a word. -/
theorem skipSpaces_cons {c : Char} (hc : isSpace c = false) (s : List Char) :
    skipSpaces (c :: s) = c :: s := by
  simp [skipSpaces, hc]

@[simp] theorem keyword?_blank (word : String) (s : List Char) :
    keyword? word (' ' :: s) = keyword? word s := by
  rw [keyword?, keyword?, skipSpaces_blank]

theorem valueFrom_blank (fuel : Nat) (s : List Char) :
    valueFrom fuel (' ' :: s) = valueFrom fuel s := by
  cases fuel with
  | zero => rfl
  | succ fuel => rw [valueFrom, valueFrom, skipSpaces_blank]

@[simp] theorem identifier_blank (s : List Char) : identifier (' ' :: s) = identifier s := by
  rw [identifier, identifier, skipSpaces_blank]

@[simp] theorem expect_blank (c : Char) (s : List Char) : expect c (' ' :: s) = expect c s := by
  rw [expect, expect, skipSpaces_blank]

/-- A character that comes next is taken. -/
theorem expect_cons {c : Char} (hc : isSpace c = false) (s : List Char) :
    expect c (c :: s) = .ok s := by
  simp [expect, skipSpaces_cons hc]

/-! ## Section 2: Identifiers -/

/-- Whether a text is an identifier. -/
def isName : List Char → Bool
  | [] => false
  | c :: r => isIdentifierStart c && r.all isIdentifierRest

theorem isIdentifierRest_of_start {c : Char} (h : isIdentifierStart c = true) :
    isIdentifierRest c = true := by
  simp only [isIdentifierStart, Bool.or_eq_true] at h
  simp only [isIdentifierRest, Char.isAlphanum, Bool.or_eq_true]
  rcases h with h | h
  · exact Or.inl (Or.inl h)
  · exact Or.inr h

/-- The characters of identifiers lie between the digits and the small letters. -/
theorem toNat_of_isIdentifierRest {c : Char} (h : isIdentifierRest c = true) :
    0x30 ≤ c.toNat ∧ c.toNat ≤ 0x7A := by
  simp only [isIdentifierRest, Char.isAlphanum, Bool.or_eq_true, decide_eq_true_eq] at h
  delta Char.isAlpha Char.isUpper Char.isLower Char.isDigit at h
  simp only [Bool.or_eq_true, Bool.and_eq_true, decide_eq_true_eq] at h
  rcases h with ((⟨h1, h2⟩ | ⟨h1, h2⟩) | ⟨h1, h2⟩) | rfl
  · exact ⟨Nat.le_trans (by decide) (UInt32.le_iff_toNat_le.mp h1),
      Nat.le_trans (UInt32.le_iff_toNat_le.mp h2) (by decide)⟩
  · exact ⟨Nat.le_trans (by decide) (UInt32.le_iff_toNat_le.mp h1),
      Nat.le_trans (UInt32.le_iff_toNat_le.mp h2) (by decide)⟩
  · exact ⟨Nat.le_trans (by decide) (UInt32.le_iff_toNat_le.mp h1),
      Nat.le_trans (UInt32.le_iff_toNat_le.mp h2) (by decide)⟩
  · exact ⟨by decide, by decide⟩

/-- A name is made of the characters that go on with an identifier. -/
theorem isIdentifierRest_of_mem {name : List Char} (hname : isName name = true) {c : Char}
    (hc : c ∈ name) : isIdentifierRest c = true := by
  cases name with
  | nil => cases hc
  | cons d r =>
    simp only [isName, Bool.and_eq_true, List.all_eq_true] at hname
    rcases List.mem_cons.mp hc with rfl | hc
    · exact isIdentifierRest_of_start hname.1
    · exact hname.2 c hc

/-- The characters of identifiers are not skipped. -/
theorem isSpace_of_isIdentifierRest {c : Char} (h : isIdentifierRest c = true) :
    isSpace c = false := by
  cases hspace : isSpace c with
  | false => rfl
  | true =>
    simp only [isSpace, Bool.or_eq_true, decide_eq_true_eq] at hspace
    rcases hspace with rfl | rfl
    · exact absurd h (by decide)
    · exact absurd h (by decide)

/-- A name is read up to the first character that cannot belong to it. -/
theorem identifier?_append {name rest : List Char} (hname : isName name = true)
    (hrest : StartsOutside isIdentifierRest rest) :
    identifier? (skipSpaces (name ++ rest)) = some (name, rest) := by
  have hspan := span_append (fun c hc => isIdentifierRest_of_mem hname hc) hrest
  cases name with
  | nil => cases hname
  | cons c r =>
    have hc : isIdentifierStart c = true := by
      simp only [isName, Bool.and_eq_true] at hname
      exact hname.1
    have hspace := isSpace_of_isIdentifierRest (isIdentifierRest_of_start hc)
    rw [List.cons_append] at hspan ⊢
    rw [skipSpaces_cons hspace, identifier?, if_pos hc, hspan]

theorem identifier_append {name rest : List Char} (hname : isName name = true)
    (hrest : StartsOutside isIdentifierRest rest) :
    identifier (name ++ rest) = .ok (String.ofList name, rest) := by
  rw [identifier, identifier?_append hname hrest]

/-- A word in front of a blank is a keyword exactly where it is the word that is looked for. -/
theorem keyword?_append {name : List Char} (hname : isName name = true) (word : String)
    (rest : List Char) :
    keyword? word (name ++ ' ' :: rest)
      = if name = word.toList then some (' ' :: rest) else none := by
  have hrest : StartsOutside isIdentifierRest (' ' :: rest) :=
    (AtGap.blank rest).startsOutside (by decide) (by decide)
  rw [keyword?, identifier?_append hname hrest]

/-! ## Section 3: Texts -/

/-- A character as it stands between quotes is read as the character. -/
theorem textBody_quoteChar (c : Char) (t : List Char) :
    textBody (Literal.quoteChar c ++ t) = (textBody t).map fun r => (c :: r.1, r.2) := by
  unfold Literal.quoteChar
  split
  · simp [textBody, unescape]
  · simp [textBody, unescape]
  · simp [textBody, unescape]
  · simp [textBody, unescape]
  · next hslash hquote _ _ =>
    rw [List.cons_append, List.nil_append, textBody]
    · exact hquote
    · exact fun h => absurd h hslash
    · exact fun _ _ h => absurd h hslash

/-- What stands between quotes is read back character by character. -/
theorem textBody_quoted (s rest : List Char) :
    textBody (s.flatMap Literal.quoteChar ++ '"' :: rest) = some (s, rest) := by
  induction s with
  | nil => rfl
  | cons c r ih =>
    rw [List.flatMap_cons, List.append_assoc, textBody_quoteChar, ih, Option.map_some]

theorem quote_append (s rest : List Char) :
    Literal.quote s ++ rest = '"' :: (s.flatMap Literal.quoteChar ++ '"' :: rest) := by
  simp [Literal.quote]

theorem text_quoted (s rest : List Char) :
    text (s.flatMap Literal.quoteChar ++ '"' :: rest) = .ok (String.ofList s, rest) := by
  rw [text, textBody_quoted]

end Overlay.Scanner
