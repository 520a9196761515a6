import Overlay.Timeline.Clip
import Overlay.Timeline.Identifier

/-!
# The timeline

A timeline holds tracks, its own length, the current position, and what is selected.

## Main definitions
- `Timeline`: the data
- `Timeline.findTrack?`, `Timeline.findClip?`: looking for what has an id
- `Timeline.clips`: the clips of all tracks
- `updateFirst`, `eraseFirst`: changing a list at its first match
-/

namespace Overlay

/-! ## Section 1: First matches -/

/-- A list with its first match changed. -/
def updateFirst {α : Type} (p : α → Bool) (f : α → α) : List α → List α
  | [] => []
  | a :: r => if p a then f a :: r else a :: updateFirst p f r

/-- A list without its first match. -/
def eraseFirst {α : Type} (p : α → Bool) : List α → List α
  | [] => []
  | a :: r => if p a then r else a :: eraseFirst p r

/-! ## Section 2: Timelines -/

/-- Tracks with clips, and what an editor shows of them. -/
structure Timeline where
  /-- The tracks from top to bottom. -/
  tracks : List Track
  /-- The length in milliseconds. -/
  duration : Value
  /-- The current position in milliseconds. -/
  currentTime : Value
  /-- The id of the selected clip. -/
  selectedClip : Value
  /-- The id of the selected animation. -/
  selectedAnimation : Value
  deriving Inhabited

namespace Timeline

/-- The length of a new timeline. -/
def defaultDuration : Int := 300000

/-- The length of a clip whose resource gives none. -/
def defaultClipDuration : Int := 5000

/-- How far the timeline reaches beyond a clip that made it longer. -/
def extension : Int := 60000

/-- A timeline without tracks. -/
def ofDuration (duration : Value) : Timeline :=
  ⟨[], duration, .int 0, .none, .none⟩

/-- The timeline that a project starts from. -/
def empty : Timeline :=
  ofDuration (.int defaultDuration)

/-- Whether a track has an id. -/
def isTrack (id : Value) (t : Track) : Bool :=
  t.id.same id

/-- Whether a clip has an id. -/
def isClip (id : Value) (c : Clip) : Bool :=
  c.id.same id

/-- Whether a track holds a clip with an id. -/
def holdsClip (id : Value) (t : Track) : Bool :=
  t.clips.any (isClip id)

/-- The first track with an id. -/
def findTrack? (tl : Timeline) (id : Value) : Option Track :=
  tl.tracks.find? (isTrack id)

/-- The clips of all tracks. -/
def clips (tl : Timeline) : List Clip :=
  tl.tracks.flatMap Track.clips

/-- The first clip with an id. -/
def findClip? (tl : Timeline) (id : Value) : Option Clip :=
  tl.clips.find? (isClip id)

/-- The tracks as values. -/
def trackValues (tl : Timeline) : List Value :=
  tl.tracks.map Track.toValue

/-- The timeline with its first track of an id changed. -/
def changeTrack (tl : Timeline) (id : Value) (f : Track → Track) : Timeline :=
  { tl with tracks := updateFirst (isTrack id) f tl.tracks }

/-- The timeline with the track that holds a clip changed. -/
def changeTrackOf (tl : Timeline) (clipId : Value) (f : Track → Track) : Timeline :=
  { tl with tracks := updateFirst (holdsClip clipId) f tl.tracks }

/-- The timeline with its first clip of an id changed. -/
def changeClip (tl : Timeline) (id : Value) (f : Clip → Clip) : Timeline :=
  tl.changeTrackOf id fun t => { t with clips := updateFirst (isClip id) f t.clips }

/-- The timeline with a clip selected; selecting none leaves no animation selected. -/
def select (tl : Timeline) (id : Value) : Timeline :=
  { tl with
    selectedClip := id
    selectedAnimation := if id.isNone then .none else tl.selectedAnimation }

/-- The timeline as a value, without what only an editor needs to know. -/
def summary (tl : Timeline) : Value :=
  .dict [(.text "duration", tl.duration), (.text "current_time", tl.currentTime),
    (.text "selected_clip_id", tl.selectedClip),
    (.text "selected_animation_id", tl.selectedAnimation), (.text "tracks", .list tl.trackValues)]

end Timeline

end Overlay
