import Overlay.Signal
import Overlay.Value.Render

/-!
# The console

Notes for the user are printed, unless the console is quiet: information to the standard output,
warnings to the error output.  A reporter, where there is one, gets every note.

## Main definitions
- `Console`: what was printed and reported
- `Console.note`: one more note
- `Console.hear`: a signal, if it is a note
-/

namespace Overlay

/-- What was printed and reported. -/
structure Console where
  /-- Whether notes are kept from being printed. -/
  quiet : Bool
  /-- Whether notes are reported. -/
  reporting : Bool
  /-- The reported notes, the first one first. -/
  reported : List (Level × Value)
  /-- The standard output. -/
  out : String
  /-- The error output. -/
  err : String
  deriving Inhabited

namespace Console

/-- A console on which nothing was printed. -/
def start : Console := ⟨false, false, [], "", ""⟩

/-- Prints to the standard output. -/
def print (c : Console) (s : String) : Console :=
  { c with out := c.out ++ s }

/-- Prints a line to the standard output. -/
def printLine (c : Console) (s : String) : Console :=
  c.print (s ++ "\n")

/-- Takes a note. -/
def note (c : Console) (level : Level) (message : Value) : Console :=
  let c := if c.reporting then { c with reported := c.reported ++ [(level, message)] } else c
  if c.quiet then c
  else match level with
    | .info => c.printLine message.shown
    | .warning => { c with err := c.err ++ "warning: " ++ message.shown ++ "\n" }

/-- Hears a signal; only notes are meant for the console. -/
def hear (c : Console) : Signal → Console
  | .note level message => c.note level (.text message)
  | _ => c

/-- A reported note as a value. -/
def eventValue (e : Level × Value) : Value :=
  .dict [(.text "event", .text "log"), (.text "level", .text e.1.word), (.text "message", e.2)]

end Console

end Overlay
