import Overlay.Preview.Entry

/-!
# Signals

What an operation lets the outside know while it runs: notes for the user, answers to those who
asked for an entry to be loaded, and what a session has asked of its engine.

## Main definitions
- `Level`: how urgent a note is
- `Call`: what an engine can be asked to do
- `Signal`: all signals
-/

namespace Overlay

/-! ## Section 1: Notes -/

/-- How urgent a note is. -/
inductive Level where
  | info
  | warning
  deriving DecidableEq, Repr

/-- The word for a level. -/
def Level.word : Level → String
  | .info => "info"
  | .warning => "warning"

/-! ## Section 2: Engine calls -/

/-- The things that an engine may offer. -/
inductive Method where
  | init
  | add
  | play
  | pause
  | seek
  | clear
  | remove
  | visible
  | resize
  deriving DecidableEq, Repr

/-- The word for a thing that an engine may offer. -/
def Method.word : Method → String
  | .init => "init"
  | .add => "add"
  | .play => "play"
  | .pause => "pause"
  | .seek => "seek"
  | .clear => "clear"
  | .remove => "remove"
  | .visible => "visible"
  | .resize => "resize"

/-- What an engine is asked to do. -/
inductive Call where
  | init
  | add (request : AddRequest)
  | play
  | pause
  | seek (seconds refresh : Value)
  | clear
  | remove (id : Value)
  | visible (shown : Value)
  | resize (width height : Value)
  deriving Inhabited

/-- The thing that has to be offered for a call. -/
def Call.method : Call → Method
  | .init => .init
  | .add _ => .add
  | .play => .play
  | .pause => .pause
  | .seek .. => .seek
  | .clear => .clear
  | .remove _ => .remove
  | .visible _ => .visible
  | .resize .. => .resize

/-! ## Section 3: Signals -/

/-- What an operation lets the outside know. -/
inductive Signal where
  /-- A note for the user. -/
  | note (level : Level) (message : String)
  /-- An entry was loaded for one who asked. -/
  | accepted (entry : Entry)
  /-- An entry was not loaded for one who asked. -/
  | rejected (message : String)
  /-- An engine with this number was to be built from these options. -/
  | built (number : Nat) (options : Fields)
  /-- The engine with this number was asked to do something. -/
  | asked (number : Nat) (call : Call)
  deriving Inhabited

end Overlay
