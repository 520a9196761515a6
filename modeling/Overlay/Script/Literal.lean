import Overlay.Resource.Basic

/-!
# Script literals

How values are written in a script: colors in hexadecimal digits, some numbers as percentages,
texts between double quotes, mappings between braces.  A value that is absent is left out.  Only
colors may have as many digits as they like.

## Main definitions
- `Literal.quote`: a text between quotes
- `Literal.number`, `Literal.seconds`: numbers and lengths of time
- `Literal.value`, `Literal.mapping`: any value under a key
-/

namespace Overlay.Literal

open Overlay.Text Overlay.Number

/-! ## Section 1: Texts -/

/-- A character as it stands between quotes: quotes and backslashes behind a backslash, the ends
of lines as letters. -/
def quoteChar : Char → List Char
  | '\\' => ['\\', '\\']
  | '"' => ['\\', '"']
  | '\r' => ['\\', 'r']
  | '\n' => ['\\', 'n']
  | c => [c]

/-- A text between quotes. -/
def quote (s : List Char) : List Char :=
  '"' :: s.flatMap quoteChar ++ ['"']

/-! ## Section 2: Numbers -/

/-- A double without a point where it is whole. -/
def double (x : Double) : List Char :=
  if x.isWhole then intChars x.truncate else x.chars

/-- A value as a number would be written; truth values are 1 and 0. -/
def number : Value → List Char
  | .bool b => if b then ['1'] else ['0']
  | .float x => double x
  | v => v.shown.toList

/-- What a value is written as, if its integers can be written. -/
def written (v : Value) (text : List Char) : Result (List Char) :=
  if v.hasText then .ok text else .error .tooLongToWrite

/-- Milliseconds as seconds. -/
def seconds (ms : Value) : Result (List Char) := do
  let n ← ms.toNumber
  let x ← orFault .tooLarge n.thousandth?
  return double x

/-- The hexadecimal digits of a number, most significant first. -/
def hexNumeral (n : Nat) : List Char :=
  if n < 16 then [hexDigit n] else hexNumeral (n / 16) ++ [hexDigit (n % 16)]
termination_by n

/-- A color: at least six hexadecimal digits behind their mark. -/
def color (n : Nat) : List Char :=
  let ds := hexNumeral n
  '0' :: 'x' :: List.replicate (6 - ds.length) '0' ++ ds

/-! ## Section 3: Values under a key -/

/-- The keys whose numbers are percentages. -/
def percentKeys : List String := ["x", "y", "fontSize"]

/-- Whether the numbers under a key are percentages. -/
def isPercentKey (key : Value) : Bool :=
  match key with
  | .text s => percentKeys.contains s
  | _ => false

/-- Whether a number under a key is written as a color: colors are not negative. -/
def isColor (key : Value) (n : Number) : Bool :=
  Resource.isColorName key.shown && (Number.int 0).le n

/-- A number under a key. -/
def numberUnder (key v : Value) (n : Number) : Result (List Char) :=
  if isColor key n then do
    return color (← v.toInt).toNat
  else if isPercentKey key then written v (number v ++ ['%'])
  else written v (number v)

/-- The fields of a mapping between braces. -/
def braced (parts : List (List Char)) : List Char :=
  if parts.isEmpty then ['{', '}']
  else ['{', ' '] ++ joinWith [',', ' '] parts ++ [' ', '}']

/-- One field of a mapping. -/
def assignment (key : Value) (text : List Char) : List Char :=
  key.shown.toList ++ [' ', '=', ' '] ++ text

/-- What is found under a key, whose name is looked at first. -/
def under (key : Value) (text : Result (List Char)) : Result (List Char) :=
  if key.hasText then text else .error .tooLongToWrite

mutual

/-- A value under a key; an absent one has the empty text. -/
def value (key : Value) : Value → Result (List Char)
  | .none => .ok []
  | .bool b => under key (.ok (number (.bool b)))
  | .int i => under key (numberUnder key (.int i) (.int i))
  | .float x => under key (numberUnder key (.float x) (.float x))
  | .text s => under key (.ok (quote s.toList))
  | .dict entries => under key do return braced (← fields entries)
  | .date d => under key (.ok d.text.toList)
  | .list items => under key (written (.list items) (Value.list items).shown.toList)
  | .tuple items => under key (written (.tuple items) (Value.tuple items).shown.toList)

/-- The fields of a mapping, without those whose text is empty. -/
def fields : List (Value × Value) → Result (List (List Char))
  | [] => .ok []
  | (k, v) :: r => do
    let text ← value k v
    let rest ← fields r
    return if text.isEmpty then rest else assignment k text :: rest

end

/-- The new name of a key. -/
def renamed (rename key : Value) : Result Value :=
  match rename with
  | .none => .ok key
  | .dict names => .ok ((Fields.find? names key).getD key)
  | _ => .error .notOffered

/-- The fields of a mapping under new names. -/
def renamedFields (rename : Value) : Fields → Result (List (List Char))
  | [] => .ok []
  | (k, v) :: r => do
    let text ← value k v
    if text.isEmpty then renamedFields rename r
    else
      let name ← renamed rename k
      let first ← written name (assignment name text)
      return first :: (← renamedFields rename r)

/-- A mapping with its keys renamed by another mapping, if there is one. -/
def mapping (properties rename : Value) : Result (List Char) :=
  match properties with
  | .dict entries => (renamedFields rename entries).map braced
  | _ => .error .notOffered

end Overlay.Literal
