import Overlay.Act
import Overlay.Playback.Clock

/-!
# Playback sessions

A session ties a clock to an engine.  The engine takes its time from the clock; the clock never
depends on the engine, whose failures are noted and passed over.  A reset empties the engine, or
builds a new one where that fails or none is there.

## Main definitions
- `EngineKind`: how engines of one kind are built and driven
- `Session`: the session
- `Session.withClock`: the options that an engine is built from
- `Session.init`, `Session.reset`, `Session.reload`, …: the operations
- `Session.Command`, `Session.run`: all operations as data
-/

namespace Overlay

/-! ## Section 1: Engines -/

/-- Where an engine keeps what it has loaded. -/
inductive Shelf where
  | entries
  | tests
  deriving DecidableEq, Repr

/-- How engines of one kind are built and driven. -/
structure EngineKind (ε : Type) where
  /-- The engine with a number, built from options; numbers count from one. -/
  build : Nat → Fields → Result ε
  /-- Whether an engine can be asked to do something. -/
  offers : ε → Method → Bool
  /-- What an engine does when it is asked to. -/
  perform : Call → Act ε Unit
  /-- What lies on a shelf; a shelf that an engine lacks holds the absent value. -/
  shelf : ε → Shelf → Value
  /-- The engine with a shelf emptied. -/
  emptyShelf : ε → Shelf → ε
  /-- Emptying a shelf leaves the empty list there and the other shelf as it is. -/
  shelf_emptyShelf : ∀ e s t, shelf (emptyShelf e s) t = if s = t then .list [] else shelf e t

/-- Whether a value is a list. -/
def isList : Value → Bool
  | .list _ => true
  | _ => false

/-- The engine with a shelf emptied, if a list lies there. -/
def EngineKind.tidy {ε : Type} (kind : EngineKind ε) (s : Shelf) (e : ε) : ε :=
  if isList (kind.shelf e s) then kind.emptyShelf e s else e

/-! ## Section 2: Sessions -/

/-- A clock with an engine. -/
structure Session (ε : Type) where
  /-- The clock. -/
  clock : Clock
  /-- The engine, if there is one. -/
  engine : Option ε
  /-- The options that an engine was last to be built from. -/
  lastOptions : Option Fields
  /-- How many engines were to be built. -/
  builds : Nat

namespace Session

variable {ε : Type}

/-- A session that was never set up. -/
def fresh : Session ε := ⟨.start, none, none, 0⟩

instance : Inhabited (Session ε) := ⟨fresh⟩

/-- Whether there is an engine. -/
def isReady (s : Session ε) : Bool :=
  s.engine.isSome

/-- The options of an engine where none are given. -/
def defaultOptions : Fields :=
  [(.text "container", .none), (.text "easing", .text "linear"), (.text "visible", .bool true),
    (.text "font_family", .text "")]

/-- The option under which an engine finds the time to go by. -/
def timeKey : String := "time_sync_func"

/-- The time that a session lets its engines go by: what the clock shows. -/
def clockTime : Value := .text "now_ms"

/-- Options with the time of the clock. -/
def withClock (options : Fields) : Fields :=
  Fields.put options timeKey clockTime

/-- Changes the clock. -/
def onClock (f : Clock → Clock) : Act (Session ε) Unit :=
  modify fun s => { s with clock := f s.clock }

/-- Sets the stopped clock to zero. -/
def rewind : Act (Session ε) Unit := do
  let s ← get
  let clock ← Act.ofResult (s.clock.set Double.zero)
  set { s with clock := clock }

/-- Lets an engine do something and gives the engine it becomes, with the fault if it failed. -/
def drive (kind : EngineKind ε) (number : Nat) (call : Call) (e : ε) :
    Act (Session ε) (Result Unit × ε) :=
  ExceptT.mk do
    let r ← ((do Act.emit (.asked number call); kind.perform call : Act ε Unit).run.run e :
      StateM Surroundings (Result Unit × ε))
    return .ok r

/-- Asks the engine to do something; without an engine, or one that does not offer it, nothing
happens, and a failure is noted. -/
def ask (kind : Option (EngineKind ε)) (call : Call) : Act (Session ε) Unit := do
  let s ← get
  match kind, s.engine with
  | some kind, some e =>
    if kind.offers e call.method then
      let (outcome, e) ← drive kind s.builds call e
      modify fun s => { s with engine := some e }
      match outcome with
      | .ok () => return
      -- the clock has moved already and is not held up by the engine
      | .error fault =>
        Act.note .warning ("engine " ++ call.method.word ++ " failed: " ++ fault.report)
  | _, _ => return

/-! ## Section 3: Building and clearing -/

/-- A new engine, set up if it can be. -/
def buildEngine (kind : EngineKind ε) (number : Nat) (options : Fields) :
    Act (Session ε) (Result ε) := do
  Act.emit (.built number options)
  match kind.build number options with
  | .error fault => return .error fault
  | .ok e =>
    if kind.offers e .init then
      let (outcome, e) ← drive kind number .init e
      return outcome.map fun _ => e
    else return .ok e

/-- Builds the engine from options on top of the default ones and starts the clock at zero. -/
def init (kind : Option (EngineKind ε)) (instant : Double) (options : Value) :
    Act (Session ε) Unit := do
  let given ← Act.ofResult (if options.holds then options.toFields else .ok [])
  let merged := Fields.merge defaultOptions given
  modify fun s => { s with lastOptions := some merged }
  match kind with
  -- the options are remembered even if there is nothing to build
  | none => Act.stop .engineAbsent
  | some kind =>
    -- the clock runs before the engine is built, and runs on if that fails
    onClock fun c => c.pause instant
    rewind
    onClock fun c => c.play instant
    modify fun s => { s with builds := s.builds + 1 }
    let number := (← get).builds
    -- the time is not remembered with the options
    match ← buildEngine kind number (withClock merged) with
    | .ok e => modify fun s => { s with engine := some e }
    | .error fault =>
      modify fun s => { s with engine := none }
      Act.stop (.engineBuild fault.report)

/-- Empties an engine without building it anew. -/
def softClear (kind : EngineKind ε) (number : Nat) (e : ε) :
    Act (Session ε) (Result Unit × ε) := do
  let (outcome, e) ← if kind.offers e .clear then drive kind number .clear e else pure (.ok (), e)
  match outcome with
  | .ok () => return (.ok (), kind.tidy .tests (kind.tidy .entries e))
  | .error fault => return (.error fault, e)

/-! ## Section 4: Transport -/

/-- Starts the clock and the engine. -/
def play (kind : Option (EngineKind ε)) (instant : Double) : Act (Session ε) Unit := do
  onClock fun c => c.play instant
  ask kind .play

/-- Stops the engine and the clock. -/
def pause (kind : Option (EngineKind ε)) (instant : Double) : Act (Session ε) Unit := do
  ask kind .pause
  onClock fun c => c.pause instant

/-- Stops what runs and starts what does not. -/
def toggle (kind : Option (EngineKind ε)) (instant : Double) : Act (Session ε) Unit := do
  if (← get).clock.isRunning then pause kind instant else play kind instant

/-- Moves to a time in seconds, not below zero. -/
def seek (kind : Option (EngineKind ε)) (instant : Double) (seconds refresh : Value) :
    Act (Session ε) Unit := do
  let x ← Act.ofResult (if seconds.holds then seconds.toDouble else .ok Double.zero)
  let x := x.clampBelow
  onClock fun c => c.seek instant (x.mul (Double.ofNat 1000))
  ask kind (.seek (.float x) refresh)

/-- Builds a new engine from the last options and lets it rest at zero. -/
def rebuild (kind : Option (EngineKind ε)) (instant : Double) (options : Fields) :
    Act (Session ε) Unit := do
  init kind instant (.dict options)
  pause kind instant
  rewind

/-- Empties the engine and rests at zero; an engine that cannot be emptied, or is not there, is
built anew. -/
def reset (kind : Option (EngineKind ε)) (instant : Double) : Act (Session ε) Unit := do
  match (← get).lastOptions with
  | none => Act.note .info "playback reset skipped: session was never initialized"
  | some options =>
    pause kind instant
    let s ← get
    match kind, s.engine with
    | some k, some e =>
      match ← softClear k s.builds e with
      -- the engine stays, so nothing is built
      | (.ok (), e) =>
        modify fun s => { s with engine := some e }
        rewind
      | (.error fault, _) =>
        Act.note .warning ("engine clear failed, rebuilding: " ++ fault.report)
        modify fun s => { s with engine := none }
        rebuild kind instant options
    | _, _ => rebuild kind instant options

/-! ## Section 5: Loading -/

/-- Who wants to hear about an entry. -/
structure Listeners where
  /-- Whether the loaded entry is told. -/
  accepted : Bool
  /-- Whether the reason for leaving an entry out is told. -/
  rejected : Bool
  deriving DecidableEq, Repr, Inhabited

/-- Loads objects and statements. -/
def addParsed (kind : Option (EngineKind ε)) (entry test : Value) (l : Listeners) :
    Act (Session ε) Unit :=
  ask kind (.add ⟨entry, .bool true, test, l.accepted, l.rejected⟩)

/-- The description of an entry that comes as text and starts at zero. -/
def scriptEntry (script : Value) : Value :=
  .dict [(.text "text", script), (.text "stime", .int 0)]

/-- Loads a script. -/
def addScript (kind : Option (EngineKind ε)) (script test : Value) (l : Listeners) :
    Act (Session ε) Unit :=
  ask kind (.add ⟨scriptEntry script, .bool false, test, l.accepted, l.rejected⟩)

/-- Replaces what is loaded by a script and rests at zero. -/
def reload (kind : Option (EngineKind ε)) (instant : Double) (script : Value) (l : Listeners) :
    Act (Session ε) Unit := do
  reset kind instant
  addScript kind script (.bool false) l

/-! ## Section 6: Operations as data -/

/-- An operation on a session. -/
inductive Command where
  | init (options : Value)
  | reset
  | play
  | pause
  | toggle
  | seek (seconds refresh : Value)
  | clear
  | visible (shown : Value)
  | resize (width height : Value)
  | remove (id : Value)
  | addParsed (entry test : Value) (l : Listeners)
  | addScript (script test : Value) (l : Listeners)
  | reload (script : Value) (l : Listeners)
  | dropEngine
  deriving Inhabited

/-- Carries an operation out at an instant. -/
def run (kind : Option (EngineKind ε)) (instant : Double) : Command → Act (Session ε) Unit
  | .init options => init kind instant options
  | .reset => reset kind instant
  | .play => play kind instant
  | .pause => pause kind instant
  | .toggle => toggle kind instant
  | .seek seconds refresh => seek kind instant seconds refresh
  | .clear => ask kind .clear
  | .visible shown => ask kind (.visible shown)
  | .resize width height => ask kind (.resize width height)
  | .remove id => ask kind (.remove id)
  | .addParsed entry test l => addParsed kind entry test l
  | .addScript script test l => addScript kind script test l
  | .reload script l => reload kind instant script l
  | .dropEngine => modify fun s => { s with engine := none }

end Session

end Overlay
