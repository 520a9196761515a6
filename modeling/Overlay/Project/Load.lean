import Overlay.Project.Basic

/-!
# Loading projects

A project is described by a mapping: a version, resources, a timeline with tracks, clips and
animations, and options for playback and output.  Ids that are left out are filled in.

## Main definitions
- `Project.load`: a project from its description
- `Project.ofData`: the same as a value of its own
-/

namespace Overlay.Project

/-! ## Section 1: Resources -/

/-- The attributes of a resource from its entry: the id as a text, a length under its other name
in milliseconds. -/
def resourceFields (entry : Fields) (id : String) : Result Fields := do
  let fs := Fields.put (Fields.without entry "type") "id" (.text id)
  match Fields.get? fs "duration" with
  | some length =>
    -- a length in milliseconds takes precedence over a timecode
    if Fields.has fs "durationMs" then return fs
    else
      let ms ← Timecode.readMs length ("resource " ++ id ++ " duration")
      return Fields.put (Fields.without fs "duration") "durationMs" (.int ms)
  | none => return fs

/-- Loads the resource of an entry. -/
def loadResource (index : Nat) (entry : Value) : Act Project Unit := do
  match entry with
  | .dict fs =>
    let kind := Fields.get fs "type"
    if kind.isNone then Act.stop (.resourceEntryKind index)
    let id := Fields.get fs "id"
    if id.isNone then Act.stop (.resourceEntryId index)
    let shown ← Act.ofResult id.toText
    let o ← Act.ofResult (resourceFields fs shown)
    let resource ← Resource.create kind o
    let _ ← onStore (Store.add (.dict resource))
  | _ => Act.stop (.resourceEntry index)

/-- Does something with each item of a list and its place, counted from a number. -/
def forEach (f : Nat → Value → Act Project Unit) (index : Nat) : List Value → Act Project Unit
  | [] => pure ()
  | v :: r => do
    f index v
    forEach f (index + 1) r

/-- Loads the resources of a list; there may be none. -/
def loadResources (v : Value) : Act Project Unit := do
  match v with
  | .none => return
  | .list items => forEach loadResource 1 items
  | _ => Act.stop .resourcesKind

/-! ## Section 2: Animations -/

/-- The properties of a segment, with every color that is a text as a number. -/
def segmentColors : Fields → Result Fields
  | [] => .ok []
  | (k, v) :: r => do
    let name ← match k with
      | .text s => Except.ok s
      | _ => .error .notOffered
    let w ← match v with
      | .text _ => if Resource.isColorName name then Color.read v else .ok v
      | _ => .ok v
    return (k, w) :: (← segmentColors r)

/-- The segment of an entry. -/
def readSegment (clipId : String) (entry : Value) : Act Project Value := do
  match entry with
  | .dict fs =>
    let label := "clip " ++ clipId
    let delay ← match Fields.get fs "delay" with
      | .none => pure Value.none
      | v => do
        let ms ← Act.ofResult (Timecode.readMs v (label ++ " animation delay"))
        pure (Value.int ms)
    let properties := Emission.orElse (Fields.get fs "properties") (.dict [])
    let properties ← Act.ofResult (properties.toFields >>= segmentColors)
    let length := (Fields.get? fs "duration").getD (.int 0)
    let ms ← Act.ofResult (Timecode.readMs length (label ++ " animation duration"))
    Segment.create (Fields.get fs "type") (.int ms) (.dict properties) delay (Fields.get fs "id")
  | _ => Act.stop (.animationEntry clipId)

/-- Loads the animations of a clip. -/
def loadAnimations (clipId : Value) : List Value → Act Project Unit
  | [] => pure ()
  | entry :: r => do
    let segment ← readSegment clipId.shown entry
    onTimeline (Timeline.addAnimation clipId segment)
    loadAnimations clipId r

/-! ## Section 3: Tracks -/

/-- A value as a text, unless it is absent. -/
def asText : Value → Value
  | .none => .none
  | v => .text v.shown

/-- What a clip shows whose resource is not there. -/
def placeholder (id : String) : Value :=
  .dict [(.text "id", .text id), (.text "type", .none), (.text "durationMs", .none)]

/-- Loads the clip of an entry. -/
def loadClip (track : String) (entry : Value) : Act Project Unit := do
  match entry with
  | .dict fs =>
    let resourceId := Fields.get fs "resource"
    if resourceId.isNone then Act.stop (.clipResource track)
    let shown ← Act.ofResult resourceId.toText
    -- a clip may name a resource that is not there
    let resource := (((← get).store.find? (.text shown)).map Value.dict).getD (placeholder shown)
    let id := Fields.get fs "id"
    -- faults speak of the clip by its id, or by its track
    let label ← if id.isNone then pure ("track " ++ track ++ " clip")
      else (do return "clip " ++ (← Act.ofResult id.toText) : Act Project String)
    let start := (Fields.get? fs "start").getD (.int 0)
    let start ← Act.ofResult (Timecode.readMs start (label ++ " start"))
    let length ← match Fields.get fs "duration" with
      | .none => pure Value.none
      | v => do
        let ms ← Act.ofResult (Timecode.readMs v (label ++ " duration"))
        pure (Value.int ms)
    let clip ← onTimeline
      (Timeline.addClip resource (.text track) (.int start) (asText id) length)
    let name := Fields.get fs "name"
    if !name.isNone then
      onTimeline (modify fun tl => tl.changeClip clip.id fun c => { c with name := name })
    match (Fields.get? fs "animations").getD (.list []) with
    | .list items => loadAnimations clip.id items
    | _ => Act.stop (.animationListKind clip.id.shown)
  | _ => Act.stop (.clipEntry track)

/-- The id of the track with a number that was given none. -/
def numberedTrack (index : Nat) : String :=
  "track_" ++ Number.intText index

/-- Loads the track of an entry. -/
def loadTrack (index : Nat) (entry : Value) : Act Project Unit := do
  match entry with
  | .dict fs =>
    let given := Fields.get fs "id"
    let id ← if given.isNone then pure (numberedTrack index) else Act.ofResult given.toText
    let _ ← onTimeline (Timeline.addTrack (Fields.get fs "name") (.text id)
      ((Fields.get? fs "visible").getD (.bool true)) (Fields.get fs "locked"))
    match (Fields.get? fs "clips").getD (.list []) with
    | .list items => forEach (fun _ => loadClip id) 1 items
    | _ => Act.stop (.clipListKind id)
  | _ => Act.stop (.trackEntry index)

/-- Loads the timeline. -/
def loadTimeline (v : Value) : Act Project Unit := do
  match v with
  | .dict fs =>
    match Fields.get fs "duration" with
    | .none => pure ()
    | length => do
      let ms ← Act.ofResult (Timecode.readMs length "timeline duration")
      onTimeline (modify fun tl => { tl with duration := .int ms })
    match (Fields.get? fs "tracks").getD (.list []) with
    | .list items => forEach loadTrack 1 items
    | _ => Act.stop .trackListKind
  | _ => Act.stop .timelineKind

/-! ## Section 4: Projects -/

/-- The options of playback. -/
def readPlayback (v : Value) : Result Fields := do
  let fs ← match v with
    | .none => Except.ok []
    | .dict fs => .ok fs
    | _ => refuse .playbackKind
  return [(.text "easing", (Fields.get? fs "easing").getD (.text "linear")),
    (.text "visible", .bool ((Fields.get? fs "visible").getD (.bool true)).holds),
    (.text "font_family", (Fields.get? fs "font_family").getD (.text ""))]

/-- The file that the script goes to, unless another one takes its place. -/
def readOutput (v override : Value) : Result Value := do
  let fs ← match v with
    | .none => Except.ok []
    | .dict fs => .ok fs
    | _ => refuse .outputKind
  return if override.isNone then Fields.get fs "file" else override

/-- The version of project descriptions. -/
def version : Value := .int 1

/-- The keys that a description has to have. -/
def requiredKeys : List String := ["resources", "timeline"]

/-- The fields of a description of the right version with all required keys. -/
def checkData (data : Value) : Result Fields := do
  match data with
  | .dict fs =>
    if !(Fields.get fs "danmu").same version then refuse .projectVersion
    match requiredKeys.find? fun k => !Fields.has fs k with
    | some k => refuse (.projectKey k)
    | none => return fs
  | _ => refuse .projectKind

/-- Loads a project from its description. -/
def load (data override : Value) : Act Project Unit := do
  let fs ← Act.ofResult (checkData data)
  loadResources (Fields.get fs "resources")
  loadTimeline (Fields.get fs "timeline")
  let playback ← Act.ofResult (readPlayback (Fields.get fs "playback"))
  let output ← Act.ofResult (readOutput (Fields.get fs "output") override)
  modify fun p => { p with playback := playback, outputFile := output }

/-- The project of a description. -/
def ofData {σ : Type} (data override : Value) : Act σ Project :=
  ExceptT.mk do
    let r ← ((load data override).run.run empty : StateM Surroundings (Result Unit × Project))
    return r.1.map fun _ => r.2

end Overlay.Project
