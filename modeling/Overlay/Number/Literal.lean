import Overlay.Number.Shortest
import Overlay.Text.Blank

/-!
# Numbers in text

Numbers are written as decimal numerals with an optional sign, point and exponent.  Blanks around
them are skipped, the digits of every script count, and a low line may stand between two digits.

## Main definitions
- `Scientific`: what a decimal numeral with an exponent says
- `Scientific.read?`: the whole of a text as such a numeral
- `readDouble?`, `readInt?`, `readHex?`: numbers from text
-/

namespace Overlay.Number

open Overlay.Text

/-! ## Section 1: Decimal numerals with an exponent -/

/-- The number `coefficient * 10 ^ exponent` with a sign. -/
structure Scientific where
  /-- Whether a minus sign was written. -/
  negative : Bool
  /-- The digits, read without the point. -/
  coefficient : Nat
  /-- The power of ten. -/
  exponent : Int
  deriving DecidableEq, Repr

/-- The nearest double. -/
def Scientific.toDouble (s : Scientific) : Double :=
  Double.ofDecimal s.negative s.coefficient s.exponent

/-- An optional sign in front of a text, and whether it is a minus sign. -/
def splitSign : List Char → Bool × List Char
  | '-' :: r => (true, r)
  | '+' :: r => (false, r)
  | s => (false, s)

/-- The digits at the front of a text. -/
def spanDigits (s : List Char) : List Char × List Char :=
  s.span isDecimalDigit

/-- The exponent behind the digits of a numeral, which has to end the text. -/
def readExponent? : List Char → Option Int
  | [] => some 0
  | c :: r =>
    if c = 'e' || c = 'E' then
      let s := splitSign r
      if s.2.isEmpty || !s.2.all isDecimalDigit then none
      else
        let n := ofNumeral s.2
        some (if s.1 then -(n : Int) else n)
    else none

/-- A whole text as a numeral without blanks. -/
def Scientific.read? (s : List Char) : Option Scientific :=
  let signed := splitSign s
  let whole := spanDigits signed.2
  let places := match whole.2 with
    | '.' :: r => spanDigits r
    | r => ([], r)
  let digits := whole.1 ++ places.1
  if digits.isEmpty then none
  else
    (readExponent? places.2).map fun e =>
      ⟨signed.1, ofNumeral digits, e - places.1.length⟩

/-! ## Section 2: Blanks and low lines -/

/-- A text without the blanks around it; information separators are none of them here. -/
def stripAround (s : List Char) : List Char :=
  trim (fun c => isBlank c && !isSeparator c) s

/-- Whether each low line stands between two digits, given the character before the text. -/
def lowLinesFit (before : Option Char) : List Char → Bool
  | [] => true
  | c :: r =>
    (c != '_' || (before.any isDecimalDigit && r.head?.any isDecimalDigit))
      && lowLinesFit (some c) r

/-- A text without its low lines, each of which has to stand between two digits. -/
def dropLowLines? (s : List Char) : Option (List Char) :=
  if lowLinesFit none s then some (s.filter (· != '_')) else none

/-! ## Section 3: Numbers -/

/-- A text in ASCII lower case. -/
def lowered (s : List Char) : List Char :=
  s.map Char.toLower

/-- The numbers that are written as words. -/
def readSpecial? (s : List Char) : Option Double :=
  let signed := splitSign s
  let word := lowered signed.2
  if word = ['i', 'n', 'f'] || word = ['i', 'n', 'f', 'i', 'n', 'i', 't', 'y'] then
    some (.infinite signed.1)
  else if word = ['n', 'a', 'n'] then some .nan
  else none

/-- The double that a text stands for. -/
def readDouble? (text : String) : Option Double :=
  let s := stripAround text.toList
  match readSpecial? s with
  | some x => some x
  | none => do
    let bare ← dropLowLines? s
    return (← Scientific.read? bare).toDouble

/-- The integer that a text stands for. -/
def readInt? (text : String) : Option Int := do
  let s := splitSign (stripAround text.toList)
  let bare ← dropLowLines? s.2
  if bare.isEmpty || !bare.all isDecimalDigit || maxIntDigits < bare.length then none
  else
    let n := ofNumeral bare
    return if s.1 then -(n : Int) else n

/-- The value of a hexadecimal digit; the decimal digits of every script count. -/
def hexValue? (c : Char) : Option Nat :=
  match digitValue? c with
  | some d => some d
  | none =>
    let n := c.toNat
    if 0x61 ≤ n && n ≤ 0x66 then some (n - 0x57)
    else if 0x41 ≤ n && n ≤ 0x46 then some (n - 0x37)
    else none

/-- The number that a row of hexadecimal digits stands for. -/
def ofHex (ds : List Char) : Nat :=
  ds.foldl (fun n c => 16 * n + (hexValue? c).getD 0) 0

/-- Hexadecimal digits in which a low line may stand between two digits. -/
def readHexDigits? (afterDigit : Bool) : List Char → Option (List Char)
  | [] => if afterDigit then some [] else none
  | c :: r =>
    if c = '_' then (if afterDigit then readHexDigits? false r else none)
    else if (hexValue? c).isSome then (readHexDigits? true r).map (c :: ·)
    else none

/-- The integer that a text of hexadecimal digits behind `0x` stands for; a low line may follow
the mark. -/
def readHex? (text : String) : Option Int :=
  let s := splitSign (stripAround text.toList)
  let digits := match s.2 with
    -- one low line may stand right behind the mark
    | '0' :: x :: '_' :: r => if x = 'x' || x = 'X' then readHexDigits? false r else none
    | '0' :: x :: r => if x = 'x' || x = 'X' then readHexDigits? false r else none
    | _ => none
  digits.map fun ds => if s.1 then -(ofHex ds : Int) else ofHex ds

end Overlay.Number
