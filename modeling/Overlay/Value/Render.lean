import Overlay.Value.Basic
import Overlay.Text.Printable

/-!
# Values as text

A value is shown in messages and scripts as the text one would write it with.  A string that
stands alone is shown bare, a string inside of a larger value between quotes.  A value that holds an
integer of too many digits has no text.

## Main definitions
- `Value.quoted`: the text with quotes around strings
- `Value.shown`: the text with a string that stands alone shown bare
- `Value.hasText`: whether all integers in a value can be written
-/

namespace Overlay

/-- A day as year, month and day with hyphens. -/
def Date.text (d : Date) : String :=
  String.ofList (Number.padded 4 d.year ++ '-' :: Number.padded 2 d.month
    ++ '-' :: Number.padded 2 d.day)

/-- A day as a call that makes it. -/
def Date.quoted (d : Date) : String :=
  "datetime.date(" ++ Number.intText d.year ++ ", " ++ Number.intText d.month ++ ", "
    ++ Number.intText d.day ++ ")"

namespace Value

mutual

/-- The text of a value, with quotes around strings. -/
def quoted : Value → String
  | .none => "None"
  | .bool b => if b then "True" else "False"
  | .int i => Number.intText i
  | .float x => x.text
  | .text s => Text.quoted s
  | .date d => d.quoted
  | .list items => "[" ++ quotedItems items ++ "]"
  | .tuple [item] => "(" ++ quoted item ++ ",)"
  | .tuple items => "(" ++ quotedItems items ++ ")"
  | .dict entries => "\x7b" ++ quotedEntries entries ++ "\x7d"

/-- The texts of values with commas between them. -/
def quotedItems : List Value → String
  | [] => ""
  | [v] => quoted v
  | v :: w :: r => quoted v ++ ", " ++ quotedItems (w :: r)

/-- The texts of fields with commas between them. -/
def quotedEntries : List (Value × Value) → String
  | [] => ""
  | [(k, v)] => quoted k ++ ": " ++ quoted v
  | (k, v) :: e :: r => quoted k ++ ": " ++ quoted v ++ ", " ++ quotedEntries (e :: r)

end

/-- The text of a value; a string that stands alone is shown bare. -/
def shown : Value → String
  | .text s => s
  | .date d => d.text
  | v => quoted v

mutual

/-- Whether a value can be shown: each integer in it can be written in decimal digits. -/
def hasText : Value → Bool
  | .int i => Number.hasText i
  | .list items => itemsHaveText items
  | .tuple items => itemsHaveText items
  | .dict entries => entriesHaveText entries
  | _ => true

/-- Whether all of some values can be shown. -/
def itemsHaveText : List Value → Bool
  | [] => true
  | v :: r => hasText v && itemsHaveText r

/-- Whether all keys and values of some fields can be shown. -/
def entriesHaveText : List (Value × Value) → Bool
  | [] => true
  | (k, v) :: r => hasText k && hasText v && entriesHaveText r

end

end Value

end Overlay
