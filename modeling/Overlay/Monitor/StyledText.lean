/-!
# Styled text

A text with a style of its own and styled spans over it, in the order in which they were laid on.
Some control characters are lost when characters enter a styled text.

## Main definitions
- `StyledText`: the text with its spans
- `StyledText.append`, `StyledText.stylize`: more text, and more spans
-/

namespace Overlay

/-- A stretch of text with a style. -/
structure Span where
  /-- The first character. -/
  start : Nat
  /-- The character behind the last one. -/
  stop : Nat
  /-- The style. -/
  style : String
  deriving DecidableEq, Repr, Inhabited

/-- A text with styled spans. -/
structure StyledText where
  /-- The characters. -/
  chars : List Char
  /-- The style of all that no span covers. -/
  style : String
  /-- The spans, the one laid on first in front. -/
  spans : List Span
  deriving DecidableEq, Repr, Inhabited

namespace StyledText

/-- Whether a character is lost. -/
def isLost (c : Char) : Bool :=
  c = '\x07' || c = '\x08' || c = '\x0b' || c = '\x0c' || c = '\x0d'

/-- The characters that are kept. -/
def kept (s : List Char) : List Char :=
  s.filter fun c => !isLost c

/-- A text in one style. -/
def ofChars (s : List Char) (style : String) : StyledText :=
  ⟨kept s, style, []⟩

/-- The text without characters. -/
def empty : StyledText := ⟨[], "", []⟩

/-- The text with more characters in a style behind it. -/
def append (t : StyledText) (s : List Char) (style : String) : StyledText :=
  if s.isEmpty then t
  else
    let more := kept s
    { t with
      chars := t.chars ++ more
      spans := if style = "" then t.spans
        else t.spans ++ [⟨t.chars.length, t.chars.length + more.length, style⟩] }

/-- The text with a span laid on; what reaches beyond the text is cut off. -/
def stylize (t : StyledText) (style : String) (start stop : Nat) : StyledText :=
  if t.chars.length ≤ start || stop ≤ start then t
  else { t with spans := t.spans ++ [⟨start, min t.chars.length stop, style⟩] }

end StyledText

end Overlay
