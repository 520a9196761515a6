import Overlay.Color.Names
import Overlay.Color.Wheel
import Overlay.Number.Literal
import Overlay.Text.Lines
import Overlay.Value.Access

/-!
# Reading colors

A color is one number with eight bits each for red, green and blue.  It may be given as a number,
as three channels, or as a text: in hexadecimal digits, by name, or by one of the functions `rgb`,
`rgba`, `hsl`, `hsv` and `hsb`.

## Main definitions
- `Color.ofText?`: the color that a text names
- `Color.read`: the color that a value stands for
-/

namespace Overlay.Color

open Overlay.Text Overlay.Number

/-- Red, green and blue. -/
abbrev Channels := Int × Int × Int

/-- Channels in one number; a channel above 255 carries into the next one. -/
def pack (c : Channels) : Int :=
  c.1 * 65536 + c.2.1 * 256 + c.2.2

/-! ## Section 1: Hexadecimal digits -/

/-- Whether a character is a hexadecimal digit in lower case. -/
def isHex (c : Char) : Bool :=
  c.isDigit || (0x61 ≤ c.toNat && c.toNat ≤ 0x66)

/-- Two hexadecimal digits as a channel. -/
def hexPair (a b : Char) : Int :=
  (ofHex [a, b] : Nat)

/-- The digits behind the mark `#`: one or two for each channel; those for opacity are ignored. -/
def ofHexDigits? (ds : List Char) : Option Channels :=
  if ds.all isHex then
    match ds with
    | [r, g, b] => some (hexPair r r, hexPair g g, hexPair b b)
    | [r, g, b, _] => some (hexPair r r, hexPair g g, hexPair b b)
    | [r, s, g, h, b, c] => some (hexPair r s, hexPair g h, hexPair b c)
    | [r, s, g, h, b, c, _, _] => some (hexPair r s, hexPair g h, hexPair b c)
    | _ => none
  else none

/-! ## Section 2: Functions -/

/-- The arguments of a call of a function, without the blanks around them. -/
def arguments? (name : List Char) (s : List Char) : Option (List (List Char)) :=
  let opening := name ++ ['(']
  if opening.isPrefixOf s then
    match (s.drop opening.length).reverse with
    | ')' :: inner => some ((pieces ',' inner.reverse).map strip)
    | _ => none
  else none

/-- A whole number without a sign. -/
def whole? (s : List Char) : Option Nat :=
  if s.isEmpty || !s.all isDecimalDigit then none else some (ofNumeral s)

/-- A number with an optional point and without a sign. -/
def decimal? (s : List Char) : Option Double :=
  let r := spanDigits s
  if r.1.isEmpty then none
  else match r.2 with
    | [] => (Scientific.read? s).map Scientific.toDouble
    | '.' :: places =>
      if places.all isDecimalDigit then (Scientific.read? s).map Scientific.toDouble else none
    | _ => none

/-- What stands in front of a percent sign. -/
def percent? (s : List Char) : Option (List Char) :=
  match s.reverse with
  | '%' :: r => some r.reverse
  | _ => none

/-- A percentage of a channel, as a channel. -/
def ofPercent (n : Nat) : Int :=
  (((Double.ofNat (n * 255)).div 100).add half).truncate

/-- Three parts of one as channels. -/
def ofParts (c : Double × Double × Double) : Channels :=
  (byteOf c.1, byteOf c.2.1, byteOf c.2.2)

/-- Channels as whole numbers or as percentages. -/
def ofRed? : List (List Char) → Option Channels
  | [r, g, b] =>
    (do return ((← whole? r : Nat), (← whole? g : Nat), (← whole? b : Nat)))
    <|> (do
      let r ← percent? r >>= whole?
      let g ← percent? g >>= whole?
      let b ← percent? b >>= whole?
      return (ofPercent r, ofPercent g, ofPercent b))
  | _ => none

/-- Channels as whole numbers, followed by an opacity that is ignored. -/
def ofRedOpacity? : List (List Char) → Option Channels
  | [r, g, b, a] => do
    let _ ← whole? a
    return ((← whole? r : Nat), (← whole? g : Nat), (← whole? b : Nat))
  | _ => none

/-- A hue in degrees and two percentages, as parts of one. -/
def hueAndPercents? : List (List Char) → Option (Double × Double × Double)
  | [h, a, b] => do
    let h ← decimal? h
    let a ← percent? a >>= decimal?
    let b ← percent? b >>= decimal?
    return (h.div 360, a.div 100, b.div 100)
  | _ => none

/-- The channels that a call of a color function comes to. -/
def ofCall? (s : List Char) : Option Channels :=
  (arguments? "rgb".toList s >>= ofRed?)
  <|> (arguments? "rgba".toList s >>= ofRedOpacity?)
  <|> (do
    let (h, saturation, lightness) ← arguments? "hsl".toList s >>= hueAndPercents?
    return ofParts (ofHueLightness h lightness saturation))
  <|> (do
    let (h, saturation, brightness) ←
      (arguments? "hsv".toList s <|> arguments? "hsb".toList s) >>= hueAndPercents?
    return ofParts (ofHueBrightness h saturation brightness))

/-! ## Section 3: Texts and values -/

/-- The longest text that is looked at. -/
def maxLength : Nat := 100

/-- A character in lower case, as far as color texts can hold it; the Kelvin sign is a `k`. -/
def lowerChar (c : Char) : Char :=
  if c.toNat = 0x212A then 'k' else c.toLower

/-- The color that a text names, in any case. -/
def ofText? (s : List Char) : Option Int :=
  if maxLength < s.length then none
  else
    let low := s.map lowerChar
    match named? (String.ofList low) with
    | some n => some n
    | none => (match low with
      | '#' :: ds => ofHexDigits? ds
      | _ => ofCall? low).map pack

/-- The color that three channels come to. -/
def ofItems (r g b : Value) : Result Value := do
  let r ← r.toInt
  let g ← g.toInt
  let b ← b.toInt
  return .int (pack (r, g, b))

/-- The color that a value stands for; an absent color stays absent. -/
def read (v : Value) : Result Value :=
  match v with
  | .none => .ok .none
  | .bool _ => refuse .colorKind
  | .int i => .ok (.int i)
  | .list [r, g, b] => ofItems r g b
  | .tuple [r, g, b] => ofItems r g b
  | .text s =>
    let bare := strip s.toList
    -- a mark of a hexadecimal number rules out all other forms
    if (lowered (bare.take 2)) = ['0', 'x'] then
      orFault .badValue ((readHex? (String.ofList bare)).map Value.int)
    else orFault (.refused (.color v)) ((ofText? bare).map Value.int)
  | _ => refuse (.color v)

end Overlay.Color
