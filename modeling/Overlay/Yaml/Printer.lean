import Overlay.Yaml.Scalar
import Overlay.Value.Render

/-!
# Values as documents

A value is written in block style: one line for each field and each entry, with collections
indented by two columns and empty collections between their brackets.  A text is written without
quotes where it reads back as itself, between single quotes where that suffices, and between double
quotes with escapes elsewhere.  Long texts are folded at spaces.

## Main definitions
- `Style.ofText`: how a text is to be written
- `Pen`: what has been written so far
- `print`: the document of a value
-/

namespace Overlay.Yaml

open Overlay.Text

/-! ## Section 1: Styles of texts -/

/-- How a text is written. -/
inductive Style where
  | plain
  | single
  | double
  deriving DecidableEq, Repr

/-- What matters about the characters of a text. -/
structure Traits where
  /-- A character has a meaning of its own in block style. -/
  marked : Bool
  /-- The text has more than one line. -/
  multiline : Bool
  /-- A character can only be written as an escape. -/
  special : Bool
  /-- A space stands behind the end of a line. -/
  breakSpace : Bool
  /-- The end of a line stands behind a space. -/
  spaceBreak : Bool
  deriving Inhabited

/-- Whether a character ends a line when it is written. -/
def endsLine (c : Char) : Bool :=
  c = '\n' || c = '\x85' || c = '\u2028' || c = '\u2029'

/-- Whether a character separates words when it is written. -/
def separates (c : Char) : Bool :=
  endsLine c || c = '\r' || c = ' ' || c = '\t' || c = '\x00'

/-- Whether a character is written as it is. -/
def isWritable (c : Char) : Bool :=
  let n := c.toNat
  c = '\n' || (0x20 ≤ n && n ≤ 0x7E) || n = 0x85
    || (((0xA0 ≤ n && n ≤ 0xD7FF) || (0xE000 ≤ n && n ≤ 0xFFFD) || (0x10000 ≤ n && n < 0x10FFFF))
      && n ≠ 0xFEFF)

/-- The characters that may not begin a plain text. -/
def leadingMarks : List Char :=
  ['#', ',', '[', ']', '{', '}', '&', '*', '!', '|', '>', '\'', '"', '%', '@', '\x60']

/-- Whether a character has a meaning of its own, between its neighbours. -/
def isMark (before : Option Char) (c : Char) (after : Option Char) : Bool :=
  let ends := (after.map separates).getD true
  match before with
  | none => leadingMarks.contains c || ((c = '?' || c = ':' || c = '-') && ends)
  | some b => (c = ':' && ends) || (c = '#' && separates b)

/-- What matters about the characters from a place on, given the one before. -/
def traitsFrom (before : Option Char) : List Char → Traits
  | [] => ⟨false, false, false, false, false⟩
  | c :: r =>
    let t := traitsFrom (some c) r
    let follows (p : Char → Bool) : Bool := (before.map p).getD false
    { marked := isMark before c r.head? || t.marked
      multiline := endsLine c || t.multiline
      special := !isWritable c || t.special
      breakSpace := (c = ' ' && follows endsLine) || t.breakSpace
      spaceBreak := (endsLine c && follows (· = ' ')) || t.spaceBreak }

/-- Whether a text begins like a line that divides documents. -/
def beginsDivider (s : List Char) : Bool :=
  s.take 3 = ['-', '-', '-'] || s.take 3 = ['.', '.', '.']

/-- Whether a character is a space or ends a line. -/
def isOuterBlank (c : Char) : Bool :=
  c = ' ' || endsLine c

/-- Whether a blank stands at an end of a text. -/
def hasOuterBlank (s : List Char) : Bool :=
  (s.head?.map isOuterBlank).getD false || (s.getLast?.map isOuterBlank).getD false

/-- How a text is written, as a key or as a value; `looks` says whether it would read back as a
text without quotes. -/
def Style.ofText (looks : Bool) (asKey : Bool) (s : List Char) : Style :=
  let t := traitsFrom none s
  -- a text without quotes has to read back as it is, so it is one line of plain characters
  let plain := looks && !(asKey && (s.isEmpty || t.multiline)) && !hasOuterBlank s && !t.breakSpace
    && !t.spaceBreak && !t.special && !t.multiline && !t.marked && !beginsDivider s
  if plain then .plain
  else if !t.spaceBreak && !t.special && !t.breakSpace && !(asKey && t.multiline) then .single
  else .double

/-! ## Section 2: The pen -/

/-- What has been written so far. -/
structure Pen where
  /-- The characters, the last one first. -/
  written : List Char
  /-- The characters on the current line. -/
  column : Nat
  /-- Whether a blank or a line end was written last. -/
  spaced : Bool
  /-- Whether the line holds nothing but indentation and marks of entries. -/
  atMargin : Bool
  deriving Inhabited

namespace Pen

/-- Nothing has been written. -/
def start : Pen := ⟨[], 0, true, true⟩

/-- Writes characters on the current line. -/
def put (p : Pen) (s : List Char) : Pen :=
  { p with written := s.reverse ++ p.written, column := p.column + s.length }

/-- Writes the end of a line. -/
def newLine (p : Pen) (mark : Char) : Pen :=
  ⟨mark :: p.written, 0, true, true⟩

/-- Moves to a column on a fresh line. -/
def margin (p : Pen) (indent : Nat) : Pen :=
  let p :=
    if !p.atMargin || indent < p.column || (p.column = indent && !p.spaced) then p.newLine '\n'
    else p
  if p.column < indent then { p.put (List.replicate (indent - p.column) ' ') with spaced := true }
  else p

/-- Writes a mark, with a space in front where one is needed. -/
def mark (p : Pen) (s : List Char) (needsSpace margin : Bool) : Pen :=
  let q := p.put (if p.spaced || !needsSpace then s else ' ' :: s)
  { q with spaced := false, atMargin := p.atMargin && margin }

end Pen

/-- The width at which long texts are folded. -/
def lineWidth : Nat := 80

/-! ## Section 3: Texts without escapes -/

/-- A run of spaces: one space may become the end of a line where the line is long. -/
def putSpaces (p : Pen) (indent : Nat) (split : Bool) (n : Nat) : Pen :=
  if split && n = 1 && lineWidth < p.column then
    { p.margin indent with spaced := false, atMargin := false }
  else p.put (List.replicate n ' ')

/-- A run of line ends, each of them written as itself, and one more for a line feed in front. -/
def putBreaks (p : Pen) (indent : Nat) (breaks : List Char) : Pen :=
  let p := if breaks.head? = some '\n' then p.newLine '\n' else p
  (breaks.foldl Pen.newLine p).margin indent

/-- The words, spaces and line ends of a text; a quote in it is written twice where `quoted`. -/
def putWords (indent : Nat) (split quoted : Bool) (first : Bool) : Nat → Pen → List Char → Pen
  | 0, p, _ => p
  | _, p, [] => p
  | fuel + 1, p, c :: r =>
    if c = ' ' then
      let n := (c :: r).takeWhile (· = ' ')
      let rest := (c :: r).drop n.length
      -- a space next to a quote would be lost if the line ended there
      let foldable := split && !(quoted && (first || rest.isEmpty))
      putWords indent split quoted false fuel (putSpaces p indent foldable n.length) rest
    else if endsLine c then
      let breaks := (c :: r).takeWhile endsLine
      putWords indent split quoted false fuel (putBreaks p indent breaks)
        ((c :: r).drop breaks.length)
    else if quoted && c = '\'' then
      putWords indent split quoted false fuel (p.put ['\'', '\'']) r
    else putWords indent split quoted false fuel (p.put [c]) r

/-- A text without quotes. -/
def putPlain (p : Pen) (indent : Nat) (split : Bool) (s : List Char) : Pen :=
  if s.isEmpty then p
  else
    let p := if p.spaced then p else p.put [' ']
    putWords indent split false true (s.length + 1) { p with spaced := false, atMargin := false } s

/-- A text between single quotes. -/
def putSingle (p : Pen) (indent : Nat) (split : Bool) (s : List Char) : Pen :=
  let p := p.mark ['\''] true false
  (putWords indent split true true (s.length + 1) p s).mark ['\''] false false

/-! ## Section 4: Texts with escapes -/

/-- The letters of the characters that have one. -/
def escapeLetters : List (Char × Char) :=
  [('\x00', '0'), ('\x07', 'a'), ('\x08', 'b'), ('\t', 't'), ('\n', 'n'), ('\x0b', 'v'),
    ('\x0c', 'f'), ('\r', 'r'), ('\x1b', 'e'), ('"', '"'), ('\\', '\\'), ('\x85', 'N'),
    ('\xa0', '_'), ('\u2028', 'L'), ('\u2029', 'P')]

/-- Hexadecimal digits with capital letters. -/
def upperHex (width n : Nat) : List Char :=
  (hexDigits width n).map Char.toUpper

/-- Whether a character stands for itself between double quotes. -/
def isBare (c : Char) : Bool :=
  let n := c.toNat
  !(c = '"' || c = '\\' || c = '\x85' || c = '\u2028' || c = '\u2029' || c = '\uFEFF')
    && ((0x20 ≤ n && n ≤ 0x7E) || (0xA0 ≤ n && n ≤ 0xD7FF) || (0xE000 ≤ n && n ≤ 0xFFFD))

/-- A character between double quotes, as an escape. -/
def escaped (c : Char) : List Char :=
  match escapeLetters.lookup c with
  | some l => ['\\', l]
  | none =>
    if c.toNat ≤ 0xFF then '\\' :: 'x' :: upperHex 2 c.toNat
    else if c.toNat ≤ 0xFFFF then '\\' :: 'u' :: upperHex 4 c.toNat
    else '\\' :: 'U' :: upperHex 8 c.toNat

/-- Goes on with a text between double quotes on the next line. -/
def foldDouble (p : Pen) (indent : Nat) (next : Option Char) : Pen :=
  let p := { (p.put ['\\']).margin indent with spaced := false, atMargin := false }
  if next = some ' ' then p.put ['\\'] else p

/-- The characters of a text between double quotes, given how many stand before and the ones that
wait to be written. -/
def putEscaped (indent : Nat) (split : Bool) (size : Nat) :
    Nat → Pen → List Char → List Char → Pen
  | _, p, pending, [] => p.put pending.reverse
  | position, p, pending, c :: r =>
    let bare := isBare c
    let (p, pending) :=
      if bare then (p, pending) else ((p.put pending.reverse).put (escaped c), [])
    -- lines are folded at spaces and behind escapes
    let inside := 0 < position && position + 1 < size
    let mayFold := c = ' ' || !bare || pending.isEmpty
    let isWide := if bare then lineWidth < p.column + pending.length else lineWidth + 1 < p.column
    if split && inside && mayFold && isWide then
      let p := p.put pending.reverse
      let next := if bare then some c else r.head?
      let p := foldDouble p indent next
      putEscaped indent split size (position + 1) p (if bare then [c] else []) r
    else
      putEscaped indent split size (position + 1) p (if bare then c :: pending else pending) r

/-- A text between double quotes. -/
def putDouble (p : Pen) (indent : Nat) (split : Bool) (s : List Char) : Pen :=
  let p := p.mark ['"'] true false
  (putEscaped indent split s.length 0 p [] s).mark ['"'] false false

/-! ## Section 5: Scalars -/

/-- The text of a double, with a place behind the point in front of an exponent. -/
def doubleText (x : Double) : List Char :=
  match x with
  | .nan => ".nan".toList
  | .infinite false => ".inf".toList
  | .infinite true => "-.inf".toList
  | x =>
    let s := x.chars
    if s.contains '.' then s
    else s.flatMap fun c => if c = 'e' then ['.', '0', 'e'] else [c]

/-- The characters of a scalar, and the length of the name of its kind. -/
def scalarText : Value → List Char × Nat
  | .none => ("null".toList, 6)
  | .bool b => ((if b then "true" else "false").toList, 6)
  | .int i => (Number.intChars i, 5)
  | .float x => (doubleText x, 7)
  | .text s => (s.toList, 5)
  | .date d => (d.text.toList, 11)
  | _ => ([], 0)

/-- A scalar, as a key or as a value. -/
def putScalar (p : Pen) (indent : Nat) (asKey : Bool) (v : Value) : Pen :=
  let s := (scalarText v).1
  let looks := match v with
    | .text _ => Tag.ofPlain s = .str
    | _ => true
  match Style.ofText looks asKey s with
  | .plain => putPlain p indent (!asKey) s
  | .single => putSingle p indent (!asKey) s
  | .double => putDouble p indent (!asKey) s

/-- The longest key that is written in front of its colon. -/
def maxSimpleKey : Nat := 128

/-- Whether a key is written in front of its colon. -/
def isSimpleKey : Value → Bool
  | .tuple _ => false
  | v =>
    let (s, kind) := scalarText v
    s.length + kind < maxSimpleKey && !s.isEmpty && !s.any endsLine

/-! ## Section 6: Collections -/

mutual

/-- A value at an indentation, absent outside of all collections; `inMapping` says whether it is
the value of a field. -/
def putValue (p : Pen) (indent : Option Nat) (inMapping : Bool) : Value → Pen
  | .list items =>
    if items.isEmpty then (p.mark ['['] true false).mark [']'] false false
    else
      let inner := match indent with
        | none => 0
        | some n => if inMapping && !p.atMargin then n else n + 2
      putItems p inner items
  | .tuple items =>
    if items.isEmpty then (p.mark ['['] true false).mark [']'] false false
    else
      let inner := match indent with
        | none => 0
        | some n => if inMapping && !p.atMargin then n else n + 2
      putItems p inner items
  | .dict entries =>
    if entries.isEmpty then (p.mark ['{'] true false).mark ['}'] false false
    else putEntries p ((indent.map (· + 2)).getD 0) entries
  | v => putScalar p ((indent.getD 0) + 2) false v

/-- The entries of a list. -/
def putItems (p : Pen) (indent : Nat) : List Value → Pen
  | [] => p
  | v :: r =>
    let p := (p.margin indent).mark ['-'] true true
    putItems (putValue p (some indent) false v) indent r

/-- The fields of a mapping. -/
def putEntries (p : Pen) (indent : Nat) : List (Value × Value) → Pen
  | [] => p
  | (k, v) :: r =>
    let p := p.margin indent
    let p :=
      if isSimpleKey k then (putScalar p (indent + 2) true k).mark [':'] false false
      else
        let p := putScalar (p.mark ['?'] true true) (indent + 2) false k
        (p.margin indent).mark [':'] true true
    putEntries (putValue p (some indent) true v) indent r

end

/-- The document of a value. -/
def print (v : Value) : List Char :=
  ((putValue .start none false v).margin 0).written.reverse

end Overlay.Yaml
