import Overlay.Resource.Store
import Overlay.Script.Emission
import Overlay.Script.Parser
import Overlay.Timeline.Editing

/-!
# Projects

A project holds resources and a timeline, how it is played, and where its script goes.

## Main definitions
- `Project`: the data
- `Project.compile`, `Project.validate`: the script of a project, as text and as read back
- `Project.deleteResource`: a resource and its clips removed
-/

namespace Overlay

/-- Resources on a timeline. -/
structure Project where
  /-- The resources. -/
  store : Store
  /-- The timeline. -/
  timeline : Timeline
  /-- The options of playback. -/
  playback : Fields
  /-- The file that the script goes to, if one is named. -/
  outputFile : Value
  deriving Inhabited

namespace Project

/-- A project without resources and tracks. -/
def empty : Project := ⟨.empty, .empty, [], .none⟩

/-- An action on the resources. -/
def onStore {α : Type} (act : Act Store α) : Act Project α :=
  Act.on Project.store (fun store p => { p with store := store }) act

/-- An action on the timeline. -/
def onTimeline {α : Type} (act : Act Timeline α) : Act Project α :=
  Act.on Project.timeline (fun timeline p => { p with timeline := timeline }) act

/-- The script of a project. -/
def compile (p : Project) : Result (List Char) :=
  Emission.ofTracks p.timeline.trackValues (.store p.store)

/-- The script of a project, read back. -/
def validate (p : Project) : Result Script :=
  p.compile >>= Script.parse

/-- Removes a resource and all clips that show it; the answer is the number of clips. -/
def deleteResource (id : Value) : Act Project Nat := do
  let _ ← onStore (Store.remove id)
  let removed ← onTimeline (Timeline.removeClipsOf id)
  -- the note comes last, so an id that cannot be shown has been removed by then
  let shown ← Act.ofResult id.toText
  Act.note .info
    ("deleted resource " ++ shown ++ " and " ++ Number.intText removed ++ " clip(s)")
  return removed

/-- A project as a value. -/
def summary (p : Project) : Value :=
  .dict [(.text "duration", p.timeline.duration), (.text "tracks", .list p.timeline.trackValues),
    (.text "resources", .list p.store.toValues), (.text "playback", .dict p.playback),
    (.text "output", .dict [(.text "file", p.outputFile)])]

end Project

end Overlay
