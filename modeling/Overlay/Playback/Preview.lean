import Overlay.Playback.Session
import Overlay.Preview.Engine

/-!
# Sessions with a preview engine

The preview engine as an engine that a session can drive.  Its time is that of the session's
clock.

## Main definitions
- `PreviewEngine.kind`: how preview engines are built and driven
- `PreviewSession`: sessions with a preview engine
-/

namespace Overlay

/-- What lies on a shelf of a preview engine. -/
def PreviewEngine.shelf (e : PreviewEngine) : Shelf → Value
  | .entries => .list (e.entries.map Entry.toValue)
  | .tests => .list (e.testEntries.map Entry.toValue)

/-- A preview engine with a shelf emptied. -/
def PreviewEngine.emptyShelf (e : PreviewEngine) : Shelf → PreviewEngine
  | .entries => { e with entries := [] }
  | .tests => { e with testEntries := [] }

/-- How preview engines are built and driven; they offer everything. -/
def PreviewEngine.kind : EngineKind PreviewEngine where
  build _ options := .ok (.ofOptions options (Fields.get options Session.timeKey).holds)
  offers _ _ := true
  perform := PreviewEngine.perform
  shelf := PreviewEngine.shelf
  emptyShelf := PreviewEngine.emptyShelf
  shelf_emptyShelf e s t := by cases s <;> cases t <;> rfl

/-- A session with a preview engine. -/
abbrev PreviewSession := Session PreviewEngine

/-- The engine of a session, which has to be there to be looked at. -/
def Session.requireEngine (s : PreviewSession) : Result PreviewEngine :=
  orFault .notOffered s.engine

/-- The objects alive at a time, or at the time of the clock. -/
def Session.objectStates (s : PreviewSession) (instant : Double) (time : Value) :
    Result (List PreviewEngine.ObjectState) := do
  let e ← s.requireEngine
  e.objectStates (e.lookTime time (s.clock.now instant))

/-- The objects that can be seen at a time, or at the time of the clock. -/
def Session.visibleObjects (s : PreviewSession) (instant : Double) (time : Value) :
    Result (List PreviewEngine.ObjectState) := do
  let e ← s.requireEngine
  e.visibleObjects (e.lookTime time (s.clock.now instant))

end Overlay
