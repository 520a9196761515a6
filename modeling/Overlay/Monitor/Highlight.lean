import Overlay.Monitor.StyledText
import Overlay.Text.Blank
import Overlay.Text.Digit
import Overlay.Text.Word

/-!
# Highlighted script lines

A line of a script is shown with its keywords, names, numbers and texts in styles of their own.
The styles are laid on one after the other, so that texts have the last word.

## Main definitions
- `Palette`: the styles
- `Highlight.findAll`: the matches of a pattern in a line
- `Highlight.line`: a line with its styles
-/

namespace Overlay

open Overlay.Text

/-! ## Section 1: Styles -/

namespace Palette

/-- The style of plain text. -/
def foreground : String := "#D8DEE9"

/-- The style of labels. -/
def dim : String := "#4C566A"

/-- The style of keywords. -/
def keyword : String := "#81A1C1"

/-- The style of numbers. -/
def numbers : String := "#B48EAD"

/-- The style of names. -/
def names : String := "#A3BE8C"

/-- The style of texts. -/
def strings : String := "#EBCB8B"

/-- The style of trouble. -/
def error : String := "#BF616A"

end Palette

namespace Highlight

/-! ## Section 2: Patterns -/

/-- A pattern says how many characters it matches at the front of a text, given the character
before the text. -/
abbrev Pattern := Option Char → List Char → Option Nat

/-- The matches of a pattern that do not overlap, from left to right, as start and stop; the first
`skip` characters belong to a match already. -/
def findFrom (pattern : Pattern) (skip position : Nat) (before : Option Char) :
    List Char → List (Nat × Nat)
  | [] => []
  | c :: r =>
    match skip with
    | skip + 1 => findFrom pattern skip (position + 1) (some c) r
    -- empty matches are left out
    | 0 => match pattern before (c :: r) with
      | some (n + 1) =>
        (position, position + n + 1) :: findFrom pattern n (position + 1) (some c) r
      | _ => findFrom pattern 0 (position + 1) (some c) r

/-- The matches of a pattern that do not overlap, from left to right. -/
def findAll (pattern : Pattern) (s : List Char) : List (Nat × Nat) :=
  findFrom pattern 0 0 none s

/-- Whether a word ends between a character and a text. -/
def boundaryBefore (before : Option Char) (s : List Char) : Bool :=
  isBoundary before s.head?

/-- Whether a word ends behind some characters of a text. -/
def boundaryAfter (s : List Char) (n : Nat) : Bool :=
  isBoundary (s.take n).getLast? (s.drop n).head?

/-- How many characters at the front of a text belong to a class. -/
def runLength (p : Char → Bool) (s : List Char) : Nat :=
  (s.takeWhile p).length

/-- The keywords that may start a line. -/
def keywords : List (List Char) := ["def".toList, "then set".toList, "set".toList]

/-- A keyword at the start of a line, with the blanks before it. -/
def keyword : Pattern := fun before s =>
  match before with
  | some _ => none
  | none =>
    let n := runLength isBlank s
    let rest := s.drop n
    (keywords.find? fun w => w.isPrefixOf rest && boundaryAfter rest w.length).map
      fun w => n + w.length

/-- What the names of objects start with. -/
def nameMark : List Char := "obj_".toList

/-- The name of an object. -/
def name : Pattern := fun before s =>
  if boundaryBefore before s && nameMark.isPrefixOf s then
    let n := runLength Char.isAlphanum (s.drop nameMark.length)
    if n = 0 || !boundaryAfter s (nameMark.length + n) then none else some (nameMark.length + n)
  else none

/-- Whether a character is a hexadecimal digit. -/
def isHex (c : Char) : Bool :=
  c.isDigit || (0x61 ≤ c.toNat && c.toNat ≤ 0x66) || (0x41 ≤ c.toNat && c.toNat ≤ 0x46)

/-- A hexadecimal number. -/
def hexNumber : Pattern := fun before s =>
  match s with
  | '0' :: 'x' :: r =>
    let n := runLength isHex r
    if n = 0 || !boundaryBefore before s || !boundaryAfter s (n + 2) then none else some (n + 2)
  | _ => none

/-- The digits of a number, with their places and the letter behind them. -/
def unsignedNumber : Pattern := fun before s =>
  let whole := runLength isDecimalDigit s
  if whole = 0 || !boundaryBefore before s then none
  else
    let places := match s.drop whole with
      | '.' :: r => let n := runLength isDecimalDigit r; if n = 0 then 0 else n + 1
      | _ => 0
    let letter := match s.drop (whole + places) with
      | '%' :: _ => 1
      | 's' :: _ => 1
      | _ => 0
    some (whole + places + letter)

/-- A number. -/
def number : Pattern := fun before s =>
  match hexNumber before s with
  | some n => some n
  | none => match s with
    | '-' :: r => (unsignedNumber (some '-') r).map (· + 1)
    | s => unsignedNumber before s

/-- The length of a text up to its closing quote. -/
def textLength : List Char → Option Nat
  | [] => none
  | '"' :: _ => some 1
  | ['\\'] => none
  | '\\' :: c :: r => if c = '\n' then none else (textLength r).map (· + 2)
  | _ :: r => (textLength r).map (· + 1)

/-- A text between quotes. -/
def text : Pattern := fun _ s =>
  match s with
  | '"' :: r => (textLength r).map (· + 1)
  | _ => none

/-! ## Section 3: Lines -/

/-- The patterns with their styles, in the order in which they are laid on. -/
def rules : List (Pattern × String) :=
  [(keyword, Palette.keyword), (name, Palette.names), (number, Palette.numbers),
    (text, Palette.strings)]

/-- A text with the matches of a pattern in a style; the matches are those of the line from which
the text was made. -/
def mark (s : List Char) (t : StyledText) (rule : Pattern × String) : StyledText :=
  (findAll rule.1 s).foldl (fun t m => t.stylize rule.2 m.1 m.2) t

/-- A line with its styles. -/
def line (s : List Char) : StyledText :=
  rules.foldl (mark s) (StyledText.ofChars s Palette.foreground)

end Highlight

end Overlay
