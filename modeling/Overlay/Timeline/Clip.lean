import Overlay.Value.Access

/-!
# Clips and tracks

A clip places a resource on a track for a stretch of time and carries its animations.  A track
holds clips in the order of their starts.

## Main definitions
- `Clip`, `Track`: the data
- `Clip.toValue`, `Track.toValue`: the same as mappings
- `Clip.put`: a clip with a field changed
- `Clip.endOf`: where a clip ends
-/

namespace Overlay

/-! ## Section 1: Clips -/

/-- A resource placed on a track. -/
structure Clip where
  /-- The id of the clip. -/
  id : Value
  /-- The id of the resource. -/
  resourceId : Value
  /-- The name that the clip is listed under. -/
  name : Value
  /-- The start in milliseconds. -/
  start : Value
  /-- The length in milliseconds. -/
  duration : Value
  /-- The id of the track. -/
  trackId : Value
  /-- The animation segments: a list, unless pairs were given to change the clip. -/
  animations : Value
  /-- Whatever else was attached to the clip. -/
  extra : Fields
  deriving Inhabited

namespace Clip

/-- A clip as a mapping. -/
def toFields (c : Clip) : Fields :=
  [(.text "id", c.id), (.text "resource_id", c.resourceId), (.text "name", c.name),
    (.text "start_time", c.start), (.text "duration", c.duration), (.text "track_id", c.trackId),
    (.text "animations", c.animations)] ++ c.extra

/-- A clip as a value. -/
def toValue (c : Clip) : Value :=
  .dict c.toFields

/-- A clip with a field changed. -/
def put (c : Clip) (key value : Value) : Clip :=
  match key with
  | .text "id" => { c with id := value }
  | .text "resource_id" => { c with resourceId := value }
  | .text "name" => { c with name := value }
  | .text "start_time" => { c with start := value }
  | .text "duration" => { c with duration := value }
  | .text "track_id" => { c with trackId := value }
  | .text "animations" => { c with animations := value }
  | key => { c with extra := Fields.insert c.extra key value }

/-- A clip with fields changed in their order. -/
def merge (c : Clip) (updates : Fields) : Clip :=
  updates.foldl (fun acc e => acc.put e.1 e.2) c

/-- Where a stretch of time ends. -/
def endOf (clip : Value) : Result Value := do
  let start ← clip.field "start_time"
  let duration ← clip.field "duration"
  start.plus duration

/-- Whether the first clip may stand in front of the second one: it does not start later. -/
def startsNoLater (a b : Clip) : Bool :=
  match a.start.number?, b.start.number? with
  | some m, some n => !n.lt m
  | _, _ => true

end Clip

/-! ## Section 2: Tracks -/

/-- A row of clips. -/
structure Track where
  /-- The id of the track. -/
  id : Value
  /-- The name of the track. -/
  name : Value
  /-- The clips, ordered by their starts. -/
  clips : List Clip
  /-- Whether the track is shown. -/
  visible : Bool
  /-- Whether the track is protected from changes by hand. -/
  locked : Bool
  /-- Whether the track is shown with its details. -/
  expanded : Bool
  deriving Inhabited

namespace Track

/-- A track as a mapping. -/
def toFields (t : Track) : Fields :=
  [(.text "id", t.id), (.text "name", t.name), (.text "clips", .list (t.clips.map Clip.toValue)),
    (.text "visible", .bool t.visible), (.text "locked", .bool t.locked),
    (.text "expanded", .bool t.expanded)]

/-- A track as a value. -/
def toValue (t : Track) : Value :=
  .dict t.toFields

/-- A track with its clips in the order of their starts; clips that start together keep their
order. -/
def sorted (t : Track) : Track :=
  { t with clips := t.clips.mergeSort Clip.startsNoLater }

end Track

end Overlay
