/-!
# Lines of a text

Two ways to cut a text into lines are in use.  `pieces` cuts at line feeds alone and keeps the
piece behind the last one, even when it is empty.  `lines` knows every line boundary of Unicode,
takes a carriage return together with the line feed after it as one boundary, and knows no line
behind a boundary that ends the text.

## Main definitions
- `isLineBreak`, `lines`: lines between any boundaries
- `pieces`, `joinLines`: pieces between line feeds, and the text made of them
-/

namespace Overlay.Text

/-! ## Section 1: Every boundary -/

/-- Whether a character ends a line. -/
def isLineBreak (c : Char) : Bool :=
  let n := c.toNat
  (0x0A ≤ n && n ≤ 0x0D) || (0x1C ≤ n && n ≤ 0x1E) || n = 0x85 || n = 0x2028 || n = 0x2029

/-- A character put in front of the first line. -/
def consLine (c : Char) : List (List Char) → List (List Char)
  | [] => [[c]]
  | l :: ls => (c :: l) :: ls

/-- The lines of a text, without the boundaries between them. -/
def lines : List Char → List (List Char)
  | [] => []
  | '\r' :: '\n' :: r => [] :: lines r
  | c :: r => if isLineBreak c then [] :: lines r else consLine c (lines r)

/-! ## Section 2: Line feeds -/

/-- The pieces of a text around a separating character; there is always at least one. -/
def pieces (sep : Char) : List Char → List (List Char)
  | [] => [[]]
  | c :: r => if c = sep then [] :: pieces sep r else consLine c (pieces sep r)

/-- The texts put together with a separator between neighbours. -/
def joinWith (sep : List Char) : List (List Char) → List Char
  | [] => []
  | [l] => l
  | l :: m :: r => l ++ sep ++ joinWith sep (m :: r)

/-- The text made of lines, with a line feed between neighbours. -/
def joinLines (ls : List (List Char)) : List Char :=
  joinWith ['\n'] ls

/-- There is always a piece. -/
theorem pieces_ne_nil (sep : Char) (s : List Char) : pieces sep s ≠ [] := by
  cases s with
  | nil => simp [pieces]
  | cons c r =>
    rw [pieces]
    split
    · simp
    · cases pieces sep r <;> simp [consLine]

end Overlay.Text
