import Overlay.Value.Basic

/-!
# Loaded scripts

An engine holds entries: scripts that have been read, each with an id and the time at which its
clock starts.

## Main definitions
- `Entry`: a loaded script
- `AddRequest`: what an engine is asked to load
-/

namespace Overlay

/-- A loaded script. -/
structure Entry where
  /-- The id of the entry. -/
  id : Value
  /-- The time at which the script starts, in seconds. -/
  start : Double
  /-- The text that was read, if the entry came as text. -/
  text : Value
  /-- The declared objects. -/
  defs : Value
  /-- The set statements. -/
  sets : Value
  deriving Inhabited

/-- An entry as a mapping. -/
def Entry.toValue (e : Entry) : Value :=
  .dict [(.text "dmid", e.id), (.text "stime", .float e.start), (.text "text", e.text),
    (.text "defs", e.defs), (.text "sets", e.sets)]

/-- What an engine is asked to load. -/
structure AddRequest where
  /-- The description of the entry. -/
  entry : Value
  /-- Whether the description holds objects and statements instead of a text. -/
  parsed : Value
  /-- Whether the entry goes to the shelf for tests. -/
  test : Value
  /-- Whether the caller wants to hear of the loaded entry. -/
  tellsAccepted : Bool
  /-- Whether the caller wants to hear why the entry was not loaded. -/
  tellsRejected : Bool
  deriving Inhabited

end Overlay
