import Overlay.Act
import Overlay.Preview.Evaluation
import Overlay.Script.Parser
import Overlay.Timecode

/-!
# The preview engine

An engine that shows nothing: it holds loaded scripts and tells the state of their objects at any
time.  Entries for tests lie on a shelf of their own.

## Main definitions
- `PreviewEngine`: the engine
- `PreviewEngine.perform`: what it does when it is asked to
- `PreviewEngine.objectStates`, `PreviewEngine.visibleObjects`: the objects at a time
-/

namespace Overlay

/-- An engine that holds scripts and tells the state of their objects. -/
structure PreviewEngine where
  /-- Where objects would be shown. -/
  container : Value
  /-- How motions would run. -/
  easing : Value
  /-- The font that texts would be shown in. -/
  fontFamily : Value
  /-- Whether objects would be shown at all. -/
  shown : Bool
  /-- Whether times are read from outside. -/
  synced : Bool
  /-- The loaded entries. -/
  entries : List Entry
  /-- The entries loaded for tests. -/
  testEntries : List Entry
  /-- Whether time runs. -/
  playing : Bool
  /-- Whether the engine was set up. -/
  ready : Bool
  /-- The size of the stage, once it is known. -/
  size : Option (Value × Value)
  /-- How many entries were ever loaded. -/
  loaded : Nat
  deriving Inhabited

namespace PreviewEngine

/-! ## Section 1: Building -/

/-- An engine with these options. -/
def ofOptions (options : Fields) (synced : Bool) : PreviewEngine where
  container := Fields.get options "container"
  easing := (Fields.get? options "easing").getD (.text "linear")
  fontFamily := (Fields.get? options "font_family").getD (.text "")
  shown := ((Fields.get? options "visible").getD (.bool true)).holds
  synced := synced
  entries := []
  testEntries := []
  playing := false
  ready := false
  size := none
  loaded := 0

/-! ## Section 2: Loading -/

/-- The id of the entry with a number. -/
def numberedId (n : Nat) : Value :=
  .text ("dm_" ++ String.ofList (Number.padded 4 n))

/-- A value, or a default where it counts as false. -/
def orElse (v default : Value) : Value :=
  if v.holds then v else default

/-- The objects and statements of a description: given, or read from its text. -/
def contents (request : AddRequest) (dm : Fields) : Result (Value × Value) :=
  if request.parsed.holds then
    .ok ((Fields.get? dm "defs").getD (.list []), (Fields.get? dm "sets").getD (.list []))
  else do
    let script ← Script.ofValue ((Fields.get? dm "text").getD (.text ""))
    return (script.defsValue, script.setsValue)

/-- Puts an entry onto its shelf. -/
def shelve (request : AddRequest) (entry : Entry) (e : PreviewEngine) : PreviewEngine :=
  if request.test.holds then { e with testEntries := e.testEntries ++ [entry] }
  else { e with entries := e.entries ++ [entry] }

/-- Loads an entry; one whose script breaks a rule is reported and left out. -/
def add (request : AddRequest) : Act PreviewEngine Unit := do
  let dm ← Act.ofResult (orElse request.entry (.dict [])).toFields
  match contents request dm with
  -- only broken rules of scripts are told; any other fault goes on to the caller
  | .error (.refused cause) =>
    if request.tellsRejected then Act.emit (.rejected cause.message)
  | .error fault => throw fault
  | .ok (defs, sets) =>
    -- the number is used up even if the entry brings an id of its own
    modify fun e => { e with loaded := e.loaded + 1 }
    let number := (← get).loaded
    let start ← Act.ofResult (orElse (Fields.get dm "stime") (.int 0)).toDouble
    let entry : Entry :=
      ⟨orElse (Fields.get dm "dmid") (numberedId number), start, Fields.get dm "text", defs, sets⟩
    modify (shelve request entry)
    if request.tellsAccepted then Act.emit (.accepted entry)

/-! ## Section 3: The other calls -/

/-- Tells where the preview moves to. -/
def seek (seconds refresh : Value) : Act PreviewEngine Unit := do
  if refresh.holds then
    let n ← Act.ofResult seconds.toNumber
    let ms ← Act.ofResult (orFault .tooLarge (n.mul? (.int 1000)))
    let shown ← Act.ofResult (Timecode.format (.ofNumber ms))
    Act.note .info ("preview seek to " ++ shown)

/-- Does what the engine is asked to do. -/
def perform : Call → Act PreviewEngine Unit
  | .init => modify fun e => { e with ready := true }
  | .add request => add request
  | .play => modify fun e => { e with playing := true }
  | .pause => modify fun e => { e with playing := false }
  | .seek seconds refresh => seek seconds refresh
  | .clear => modify fun e => { e with entries := [], testEntries := [] }
  | .remove id => modify fun e => { e with entries := e.entries.filter fun x => !x.id.same id }
  | .visible v => modify fun e => { e with shown := v.holds }
  | .resize width height => modify fun e => { e with size := some (width, height) }

/-! ## Section 4: Objects at a time -/

/-- An object at a time. -/
structure ObjectState where
  /-- The id of the entry. -/
  entryId : Value
  /-- The name of the object. -/
  name : Value
  /-- What the object shows. -/
  kind : Value
  /-- The attributes. -/
  attrs : Fields
  deriving Inhabited

/-- An object at a time, as a value. -/
def ObjectState.toValue (s : ObjectState) : Value :=
  .dict [(.text "dmid", s.entryId), (.text "name", s.name), (.text "kind", s.kind),
    (.text "attrs", .dict s.attrs)]

/-- Whether the life of an object is over: its duration, if it has one, has passed. -/
def isOver (time : Double) (lifetime : Value) : Result Bool :=
  match lifetime.number? with
  | none => .ok false
  | some _ => do
    let stop ← Evaluation.toMs lifetime
    return stop.le time

/-- The statements that speak of an object. -/
def statementsOf (definition : Value) : List Value → Result (List Value)
  | [] => .ok []
  | s :: r => do
    let own := (← s.field "name").same (← definition.field "name")
    let rest ← statementsOf definition r
    return if own then s :: rest else rest

/-- The states of some objects of an entry. -/
def statesOf (entry : Entry) (time : Double) : List Value → Result (List ObjectState)
  | [] => .ok []
  | d :: r => do
    let lifetime ← (← d.field "attrs").look "duration" .none
    if ← isOver time lifetime then statesOf entry time r
    else
      let statements ← statementsOf d (← entry.sets.items)
      let attrs ← Evaluation.object d statements (.float time)
      let state := ⟨entry.id, ← d.field "name", ← d.field "kind", attrs⟩
      return state :: (← statesOf entry time r)

/-- The states of the objects of some entries. -/
def statesIn (time : Value) : List Entry → Result (List ObjectState)
  | [] => .ok []
  | entry :: r => do
    let t ← time.toNumber
    let x ← orFault .tooLarge t.toDouble?
    let passed := x.sub (entry.start.mul Evaluation.thousand)
    if passed.lt Double.zero then statesIn time r
    else
      let states ← statesOf entry passed (← entry.defs.items)
      return states ++ (← statesIn time r)

/-- The objects that are alive at a time in milliseconds. -/
def objectStates (e : PreviewEngine) (time : Value) : Result (List ObjectState) :=
  statesIn time e.entries

/-- The states whose objects are not fully transparent. -/
def visibleOf : List ObjectState → Result (List ObjectState)
  | [] => .ok []
  | s :: r => do
    let seen ← Value.lessThan (.int 0) ((Fields.get? s.attrs "alpha").getD (.int 1))
    let rest ← visibleOf r
    return if seen then s :: rest else rest

/-- The objects that can be seen at a time in milliseconds. -/
def visibleObjects (e : PreviewEngine) (time : Value) : Result (List ObjectState) :=
  objectStates e time >>= visibleOf

/-- The time that is looked at: the given one, else that from outside. -/
def lookTime (e : PreviewEngine) (time : Value) (outside : Double) : Value :=
  match time with
  | .none => .float (if e.synced then outside else Double.zero)
  | t => t

end PreviewEngine

end Overlay
