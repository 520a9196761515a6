import Overlay.Resource.Basic
import Overlay.Timeline.Basic
import Overlay.Timeline.Segment

/-!
# Editing a timeline

The operations on tracks, clips and animations.  Clips stay ordered by their starts, the timeline
grows with its clips, and no two clips share an identifier.

## Main definitions
- `Timeline.addTrack`, `Timeline.removeTrack`, …: tracks
- `Timeline.addClip`, `Timeline.updateClip`, …: clips
- `Timeline.insertAnimation`, `Timeline.moveAnimation`, …: animations
- `Timeline.Command`, `Timeline.run`: all operations as data
-/

namespace Overlay.Timeline

/-! ## Section 1: Tracks -/

/-- The name of a track that was given none. -/
def trackName (tl : Timeline) : Value :=
  .text ("Track " ++ Number.intText (tl.tracks.length + 1))

/-- Adds a track below the others; an id is drawn where none is given. -/
def addTrack (name id visible locked : Value) : Act Timeline Value := do
  let id ← match id with
    | .none => (do return Value.text (← Act.freshPrefixed "track") : Act Timeline Value)
    | v => pure v
  let tl ← get
  if (tl.findTrack? id).isSome then Act.stop (.trackIdTaken id)
  let name := if name.isNone then tl.trackName else name
  let track : Track := ⟨id, name, [], visible.holds, locked.holds, false⟩
  set { tl with tracks := tl.tracks ++ [track] }
  return id

/-- Removes a track with its clips. -/
def removeTrack (id : Value) : Act Timeline Unit := do
  let tl ← get
  match tl.findTrack? id with
  | none => return
  | some t =>
    let tl := if t.clips.any fun c => tl.selectedClip.same c.id then tl.select .none else tl
    set { tl with tracks := eraseFirst (isTrack id) tl.tracks }

/-- The track with an id, which has to exist. -/
def requireTrack (id : Value) : Act Timeline Track := do
  match (← get).findTrack? id with
  | some t => return t
  | none => Act.stop (.trackUnknown id)

/-- Changes a track, which has to exist. -/
def editTrack (id : Value) (f : Track → Track) : Act Timeline Unit := do
  let _ ← requireTrack id
  modify fun tl => tl.changeTrack id f

/-! ## Section 2: Clips -/

/-- The clip with an id, which has to exist. -/
def requireClip (id : Value) : Act Timeline Clip := do
  match (← get).findClip? id with
  | some c => return c
  | none => Act.stop (.clipUnknown id)

/-- Lets the timeline reach beyond the end of a clip. -/
def extendTo (clip : Clip) : Act Timeline Unit := do
  let stop ← Act.ofResult (clip.start.plus clip.duration)
  let tl ← get
  if ← Act.ofResult (tl.duration.lessThan stop) then
    let longer ← Act.ofResult (stop.plus (.int extension))
    set { tl with duration := longer }

/-- The first clip with an identifier; each one before it has to have an identifier as well. -/
def clipCalled (name : String) : List Clip → Result (Option Clip)
  | [] => .ok none
  | c :: r => do
    if (← identifierOf c.id) == name then return some c
    clipCalled name r

/-- An id for a new clip may neither be taken nor lead to an identifier that is. -/
def checkClipId (tl : Timeline) (id : Value) : Result Unit := do
  if (tl.findClip? id).isSome then refuse (.clipIdTaken id)
  let name ← identifierOf id
  match ← clipCalled name tl.clips with
  | some other => refuse (.identifierTaken id other.id name)
  | none => return

/-- The length of a new clip: the given one, else that of the resource, else the default. -/
def clipDuration (resource duration : Value) : Result Value := do
  match duration with
  | .none =>
    let own ← resource.look "durationMs" .none
    return if own.holds then own else .int defaultClipDuration
  | v => return v

/-- Places a resource on a track; an id is drawn where none is given. -/
def addClip (resource trackId time id duration : Value) : Act Timeline Clip := do
  let _ ← requireTrack trackId
  let id ← match id with
    | .none => (do return Value.text (← Act.freshPrefixed "clip") : Act Timeline Value)
    | v => pure v
  Act.ofResult (checkClipId (← get) id)
  let duration ← Act.ofResult (clipDuration resource duration)
  Act.ofResult (requireNonNegative duration "clip duration")
  -- truth values count as numbers elsewhere, but are no times
  if time.plainNumber?.isNone then Act.stop .clipStart
  let start ← Act.ofResult time.atLeastZero
  let resourceId ← Act.ofResult (resource.field "id")
  let name ← Act.ofResult (Resource.itemName resource)
  let clip : Clip := ⟨id, resourceId, name, start, duration, trackId, .list [], []⟩
  -- sorting is stable: the new clip comes behind those that start at the same time
  modify fun tl => tl.changeTrack trackId fun t => { t with clips := t.clips ++ [clip] }.sorted
  extendTo clip
  return clip

/-- Removes a clip. -/
def removeClip (id : Value) : Act Timeline Unit := do
  let tl ← get
  if (tl.findClip? id).isSome then
    let tl := if tl.selectedClip.same id then tl.select .none else tl
    set (tl.changeTrackOf id fun t => { t with clips := eraseFirst (isClip id) t.clips })

/-- Whether a clip shows a resource. -/
def shows (resourceId : Value) (c : Clip) : Bool :=
  c.resourceId.same resourceId

/-- Removes all clips of a resource; the answer is their number. -/
def removeClipsOf (resourceId : Value) : Act Timeline Nat := do
  let tl ← get
  let gone := tl.clips.filter (shows resourceId)
  let kept := tl.tracks.map fun t =>
    { t with clips := t.clips.filter fun c => !shows resourceId c }
  let tl' := if gone.any fun c => tl.selectedClip.same c.id then tl.select .none else tl
  set { tl' with tracks := kept }
  return gone.length

/-- The fields of a clip that an update may not change. -/
def fixedFields : List String := ["id", "track_id", "animations"]

/-- Refuses an update that would change one of some fields. -/
def checkFixed (clip : Clip) (updates : Value) : List String → Result Unit
  | [] => .ok ()
  | name :: r => do
    if ← updates.contains name then
      let new ← updates.field name
      let old ← clip.toValue.field name
      if !new.same old then refuse (.clipFieldFixed name)
    checkFixed clip updates r

/-- The fields of an update, with a start below zero at zero. -/
def clipUpdates (updates : Value) : Result Fields := do
  let values ← updates.toFields
  let values ← match Fields.get? values "start_time" with
    | some start => do
      let start ← start.atLeastZero
      pure (Fields.put values "start_time" start)
    | none => pure values
  match Fields.get? values "duration" with
  | some duration => requireNonNegative duration "clip duration"
  | none => pure ()
  return values

/-- The timeline with a clip in the place of the first one of an id, which is then sorted in on its
track. -/
def resort (tl : Timeline) (id : Value) (clip : Clip) : Timeline :=
  tl.changeTrackOf id fun t =>
    { t with clips := updateFirst (isClip id) (fun _ => clip) t.clips }.sorted

/-- Changes fields of a clip. -/
def updateClip (id updates : Value) : Act Timeline Clip := do
  let clip ← requireClip id
  Act.ofResult (checkFixed clip updates fixedFields)
  let values ← Act.ofResult (clipUpdates updates)
  let clip := clip.merge values
  -- other fields do not move the clip
  if Fields.has values "start_time" || Fields.has values "duration" then
    modify fun tl => tl.resort id clip
    extendTo clip
  else modify fun tl => tl.changeClip id fun _ => clip
  return clip

/-! ## Section 3: Position and selection -/

/-- Moves the current position, which stays between zero and the end. -/
def setCurrentTime (time : Value) : Act Timeline Unit := do
  let tl ← get
  let inside ← Act.ofResult (time.smaller tl.duration)
  let position ← Act.ofResult inside.atLeastZero
  set { tl with currentTime := position }

/-- Selects a clip, or none. -/
def setSelectedClip (id : Value) : Act Timeline Unit :=
  modify fun tl => tl.select id

/-- Selects an animation, or none. -/
def setSelectedAnimation (id : Value) : Act Timeline Unit :=
  modify fun tl => { tl with selectedAnimation := id }

/-! ## Section 4: Animations -/

/-- Changes the animations of a clip. -/
def setAnimations (clipId animations : Value) : Act Timeline Unit :=
  modify fun tl => tl.changeClip clipId fun c => { c with animations := animations }

/-- Adds an animation behind the others. -/
def addAnimation (clipId animation : Value) : Act Timeline Unit := do
  let clip ← requireClip clipId
  let items ← Act.ofResult clip.animations.listed
  setAnimations clipId (.list (items ++ [animation]))

/-- A place in a list of a length, moved to the nearer end if outside. -/
def clampedIn (index : Value) (length : Nat) : Result Value := do
  (← index.smaller (.int length)).atLeastZero

/-- The place that a whole number is. -/
def toPlace : Value → Result Nat
  | .int i => .ok i.toNat
  | .bool b => .ok (if b then 1 else 0)
  | _ => .error .wrongKind

/-- A place in a list of a length: given as a whole number, moved to the nearer end if outside. -/
def placeIn (index : Value) (length : Nat) : Result Nat := do
  toPlace (← clampedIn index length)

/-- A list with an item put at a place. -/
def insertAt {α : Type} (items : List α) (place : Nat) (item : α) : List α :=
  items.take place ++ item :: items.drop place

/-- Puts an animation at a place. -/
def insertAnimation (clipId index animation : Value) : Act Timeline Unit := do
  let clip ← requireClip clipId
  let length ← Act.ofResult clip.animations.count
  let place ← Act.ofResult (clampedIn index length)
  let items ← Act.ofResult clip.animations.listed
  -- only a list asks for a whole number
  let place ← Act.ofResult (toPlace place)
  setAnimations clipId (.list (insertAt items place animation))

/-- The place of the first animation with an id; each one before it has to have an id as well. -/
def animationPlace (id : Value) : List Value → Result (Option Nat)
  | [] => .ok none
  | a :: r => do
    if (← a.field "id").same id then return some 0
    return (← animationPlace id r).map (· + 1)

/-- Removes an animation. -/
def removeAnimation (clipId id : Value) : Act Timeline Unit := do
  let clip ← requireClip clipId
  let items ← Act.ofResult clip.animations.items
  match ← Act.ofResult (animationPlace id items) with
  | none => return
  | some i =>
    let items ← Act.ofResult clip.animations.listed
    setAnimations clipId (.list (items.eraseIdx i))
    modify fun tl =>
      if tl.selectedAnimation.same id then { tl with selectedAnimation := .none } else tl

/-- Changes fields of an animation. -/
def updateAnimation (clipId id updates : Value) : Act Timeline Unit := do
  let clip ← requireClip clipId
  let items ← Act.ofResult clip.animations.items
  match ← Act.ofResult (animationPlace id items) with
  | none => return
  | some i =>
    Act.ofResult (Segment.checkUpdate updates)
    let old ← Act.ofResult ((items.getD i .none).toFields)
    let new ← Act.ofResult updates.toFields
    setAnimations clipId (clip.animations.setItem i (.dict (Fields.merge old new)))

/-- Moves an animation to a place among the others. -/
def moveAnimation (clipId id index : Value) : Act Timeline Unit := do
  let clip ← requireClip clipId
  let items ← Act.ofResult clip.animations.items
  match ← Act.ofResult (animationPlace id items) with
  | none => Act.stop (.animationUnknown id)
  | some i =>
    let items ← Act.ofResult clip.animations.listed
    let others := items.eraseIdx i
    -- the place is counted among the others
    setAnimations clipId (.list others)
    let place ← Act.ofResult (placeIn index others.length)
    setAnimations clipId (.list (insertAt others place (items.getD i .none)))

/-! ## Section 5: Operations as data -/

/-- An operation on a timeline. -/
inductive Command where
  | addTrack (name id visible locked : Value)
  | removeTrack (id : Value)
  | findTrack (id : Value)
  | toggleTrack (id : Value)
  | setTrackVisible (id visible : Value)
  | setTrackLocked (id locked : Value)
  | addClip (resource trackId time id duration : Value)
  | findClip (id : Value)
  | removeClip (id : Value)
  | removeClipsOf (resourceId : Value)
  | updateClip (id updates : Value)
  | setCurrentTime (time : Value)
  | setSelectedClip (id : Value)
  | setSelectedAnimation (id : Value)
  | addAnimation (clipId animation : Value)
  | insertAnimation (clipId index animation : Value)
  | removeAnimation (clipId id : Value)
  | updateAnimation (clipId id updates : Value)
  | moveAnimation (clipId id index : Value)
  | clips
  deriving Inhabited

/-- An action without an answer, as one with the absent value. -/
def silent (act : Act Timeline Unit) : Act Timeline Value := do
  act
  return .none

/-- Carries an operation out; the answer is what it found or made. -/
def run : Command → Act Timeline Value
  | .addTrack name id visible locked => addTrack name id visible locked
  | .removeTrack id => silent (removeTrack id)
  | .findTrack id => do return (((← get).findTrack? id).map Track.toValue).getD .none
  | .toggleTrack id => silent (editTrack id fun t => { t with expanded := !t.expanded })
  | .setTrackVisible id v => silent (editTrack id fun t => { t with visible := v.holds })
  | .setTrackLocked id v => silent (editTrack id fun t => { t with locked := v.holds })
  | .addClip resource trackId time id duration => do
    return (← addClip resource trackId time id duration).toValue
  | .findClip id => do return (((← get).findClip? id).map Clip.toValue).getD .none
  | .removeClip id => silent (removeClip id)
  | .removeClipsOf resourceId => do return .int (← removeClipsOf resourceId : Nat)
  | .updateClip id updates => do return (← updateClip id updates).toValue
  | .setCurrentTime time => silent (setCurrentTime time)
  | .setSelectedClip id => silent (setSelectedClip id)
  | .setSelectedAnimation id => silent (setSelectedAnimation id)
  | .addAnimation clipId animation => silent (addAnimation clipId animation)
  | .insertAnimation clipId index animation => silent (insertAnimation clipId index animation)
  | .removeAnimation clipId id => silent (removeAnimation clipId id)
  | .updateAnimation clipId id updates => silent (updateAnimation clipId id updates)
  | .moveAnimation clipId id index => silent (moveAnimation clipId id index)
  | .clips => do return .list ((← get).clips.map Clip.toValue)

end Overlay.Timeline
