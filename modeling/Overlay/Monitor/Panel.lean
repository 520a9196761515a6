import Overlay.Monitor.Highlight
import Overlay.Monitor.Summary
import Overlay.Project.Studio
import Overlay.Text.Lines

/-!
# The monitor's panel

A panel plays the project of a file.  It shows a clock, the objects that can be seen and a log,
which holds the script of the project and the notes that came in since.  A project that cannot be
loaded is a trouble that the log tells; what played before goes on playing.

## Main definitions
- `Scene`: what a panel finds around it
- `Panel`: the panel
- `Panel.load`, `Panel.refresh`, `Panel.recompile`, …: the operations
- `Panel.Command`, `Panel.run`: all operations as data
-/

namespace Overlay

open Overlay.Text

/-! ## Section 1: Panels -/

/-- What a panel finds around it when it acts. -/
structure Scene where
  /-- The working folder. -/
  folder : Folder
  /-- The instant. -/
  instant : Double
  /-- The date and the time of day, as the journal writes them. -/
  stamp : String
  deriving Inhabited

/-- The session that a panel shows. -/
inductive Watched where
  | nothing
  /-- The session of the studio. -/
  | studio
  /-- A session that the studio has let go. -/
  | former (session : PreviewSession)
  deriving Inhabited

/-- A panel. -/
structure Panel where
  /-- The file of the project. -/
  path : String
  /-- The project, once one was loaded. -/
  studio : Option Studio
  /-- The session that is shown. -/
  watched : Watched
  /-- The script that was shown last. -/
  script : List Char
  /-- Why the last project was not loaded. -/
  trouble : Option String
  /-- Whether there is something to show on. -/
  attached : Bool
  /-- What the clock shows. -/
  clock : Option StyledText
  /-- The objects that are shown. -/
  objects : Option StyledText
  /-- The lines of the log. -/
  log : List StyledText
  /-- Whether notes are kept from being printed. -/
  quiet : Bool
  /-- Whether notes come in. -/
  reporting : Bool
  /-- How often the panel is refreshed, in seconds; one entry for every time it was mounted. -/
  intervals : List Double
  /-- The journal, if one is kept. -/
  journal : Option String
  deriving Inhabited

namespace Panel

/-- A panel on which nothing was shown. -/
def start (path : String) (attached mounted keepsJournal : Bool) : Panel where
  path := path
  studio := none
  watched := .nothing
  script := []
  trouble := none
  attached := attached
  clock := none
  objects := none
  log := []
  quiet := mounted
  reporting := mounted
  intervals := []
  journal := if keepsJournal then some "" else none

/-! ## Section 2: The log and the journal -/

/-- Adds a line to the log. -/
def showLine (line : StyledText) (p : Panel) : Panel :=
  if p.attached then { p with log := p.log ++ [line] } else p

/-- Adds a line to the journal. -/
def record (stamp message : String) (p : Panel) : Panel :=
  { p with journal := p.journal.map fun j => j ++ "[" ++ stamp ++ "] " ++ message ++ "\n" }

/-- The style of notes. -/
def noteStyle : Level → String
  | .info => Palette.foreground
  | .warning => Palette.error

/-- Takes a signal; only notes are meant for the panel. -/
def hear (stamp : String) (p : Panel) : Signal → Panel
  | .note level message =>
    if p.reporting then
      (p.record stamp (level.word ++ ": " ++ message)).showLine
        (StyledText.ofChars message.toList (noteStyle level))
    else p
  | _ => p

/-- An action whose signals the panel takes once it is over. -/
def listening {α : Type} (stamp : String) (act : Act Panel α) : Act Panel α :=
  ExceptT.mk do
    let before := (← getThe Surroundings).signals
    modifyThe Surroundings fun w => { w with signals := [] }
    let r ← act.run
    let heard := (← getThe Surroundings).signals
    modifyThe Surroundings fun w => { w with signals := before }
    modify fun p => heard.foldl (hear stamp) p
    return r

/-- Tells a trouble. -/
def tell (trouble : String) (p : Panel) : Panel :=
  { p with trouble := some trouble }.showLine
    (StyledText.ofChars ("error: " ++ trouble).toList ("bold " ++ Palette.error))

/-- Shows a script in place of all that the log holds. -/
def showScript (p : Panel) : Panel :=
  if p.attached then { p with log := (lines p.script).map Highlight.line } else p

/-- Takes a script that is shown from now on; the trouble is over. -/
def present (script : List Char) (p : Panel) : Panel :=
  { p with script := script, trouble := none }.showScript

/-! ## Section 3: The session -/

/-- The session that is shown. -/
def session? (p : Panel) : Option PreviewSession :=
  match p.watched with
  | .nothing => none
  | .studio => p.studio.bind Studio.session
  | .former session => some session

/-- Puts a session in the place of the one that is shown. -/
def putSession (session : PreviewSession) (p : Panel) : Panel :=
  match p.watched with
  | .nothing => p
  | .studio => { p with studio := p.studio.map fun s => { s with session := some session } }
  | .former _ => { p with watched := .former session }

/-- The panel with another project; the session that is shown stays the same. -/
def replaceStudio (studio : Studio) (p : Panel) : Panel :=
  let watched := match p.watched, p.session? with
    | .studio, some session => .former session
    | watched, _ => watched
  { p with studio := some studio, watched := watched }

/-- An action on the project, if there is one. -/
def onStudio {α : Type} (scene : Scene) (act : Act Studio α) : Act Panel (Option α) := do
  match (← get).studio with
  | none => return none
  | some _ =>
    listening scene.stamp <|
      Act.on (fun p => p.studio.getD default) (fun s p => { p with studio := some s })
        (do return some (← act))

/-- An action on the session that is shown, if there is one. -/
def onSession (scene : Scene) (act : Act PreviewSession Unit) : Act Panel Unit := do
  match (← get).session? with
  | none => return
  | some session =>
    listening scene.stamp (Act.on (fun p => p.session?.getD session) putSession act)

/-! ## Section 4: Loading -/

/-- The project of the panel's file. -/
def openProject (scene : Scene) : Act Panel Project := do
  let path := (← get).path
  listening scene.stamp (Project.ofFile scene.folder path .none)

/-- Loads the project and starts its preview. -/
def loadProject (scene : Scene) : Act Panel Unit := do
  let project ← openProject scene
  -- from here on the new project counts, whether its preview starts or not
  modify (replaceStudio ⟨project, none⟩)
  let _ ← onStudio scene (Studio.startPreview scene.instant .none)
  modify fun p => { p with watched := .studio }
  let script ← Act.ofResult project.compile
  modify (present script)

/-- Loads the project; a fault is a trouble to be told. -/
def load (scene : Scene) : Act Panel Unit := do
  match ← Act.attempt (loadProject scene) with
  | .ok () => return
  | .error fault => modify (tell fault.report)

/-- Loads the project anew into the session that is shown. -/
def recompile (scene : Scene) : Act Panel Unit := do
  match ← Act.attempt (openProject scene) with
  | .error fault => modify (tell fault.report)
  | .ok project =>
    -- the session moves over to the new project
    modify fun p =>
      let session := p.session?
      { p with
        studio := some ⟨project, session⟩
        watched := if session.isSome then .studio else .nothing }
    let script ← onStudio scene (Studio.recompile scene.instant)
    modify (present (script.getD []))
    modify (record scene.stamp "recompiled")

/-- Loads the script into the preview of the project once more. -/
def reset (scene : Scene) : Act Panel Unit := do
  let _ ← onStudio scene (Studio.recompile scene.instant)

/-! ## Section 5: Showing -/

/-- How often the panel is refreshed, in seconds. -/
def refreshInterval : Double := Double.ofQuotient 1 10

/-- The clock of a panel without a session. -/
def idleClock (trouble : Option String) : StyledText :=
  (StyledText.empty.append "Status: ".toList Palette.dim).append
    (if trouble.isSome then "failed" else "loading").toList Palette.error

/-- The clock of a panel with a session. -/
def sessionClock (path : String) (instant : Double) (duration : Value) (s : PreviewSession) :
    Result StyledText := do
  let time ← Summary.clock (.float (s.clock.now instant)) duration
  let status := if s.clock.isRunning then "playing" else "paused"
  return [("Status: ", Palette.dim), (status, Palette.names), ("\n", ""), ("Time: ", Palette.dim),
    (time, Palette.numbers), ("\n", ""), ("YAML: ", Palette.dim), (path, Palette.names)].foldl
    (fun t part => t.append part.1.toList part.2) .empty

/-- An object behind those that are listed already. -/
def listObject (t : StyledText) (o : PreviewEngine.ObjectState) : Result StyledText := do
  let kind ← o.kind.toText
  let text ← Summary.object (.dict o.attrs)
  return [(o.name.shown, Palette.names), (" (" ++ kind ++ ")", Palette.dim), (" ", ""),
    (text, Palette.foreground), ("\n", "")].foldl (fun t part => t.append part.1.toList part.2) t

/-- Shows the clock. -/
def refreshClock (scene : Scene) : Act Panel Unit := do
  let p ← get
  if p.attached then
    match p.session? with
    | none => set { p with clock := some (idleClock p.trouble) }
    | some s =>
      let duration := (p.studio.map fun s => s.project.timeline.duration).getD .none
      let text ← Act.ofResult (sessionClock p.path scene.instant duration s)
      set { p with clock := some text }

/-- Shows the objects that can be seen. -/
def refreshObjects (scene : Scene) : Act Panel Unit := do
  let p ← get
  if p.attached then
    match p.session? with
    | some s =>
      if s.isReady then
        let states ← Act.ofResult (s.visibleObjects scene.instant .none)
        let text ← Act.ofResult (states.foldlM listObject .empty)
        set { p with objects := some text }
    | none => return

/-- Shows the clock and the objects. -/
def refresh (scene : Scene) : Act Panel Unit := do
  refreshClock scene
  refreshObjects scene

/-- Finds something to show on, lets notes come in and loads the project. -/
def mount (scene : Scene) : Act Panel Unit := do
  modify fun p => { p with attached := true, quiet := true, reporting := true }
  load scene
  modify fun p => { p with intervals := p.intervals ++ [refreshInterval] }

/-- Lets notes go where they went before. -/
def unmount : Act Panel Unit :=
  modify fun p => { p with quiet := false, reporting := false }

/-! ## Section 6: Operations as data -/

/-- The session moved by some milliseconds, not below zero. -/
def seekBy (scene : Scene) (offset : Double) : Act Panel Unit :=
  onSession scene do
    let seconds := ((← get).clock.now scene.instant).div (Double.ofNat 1000)
    let target := (seconds.add offset).clampBelow
    Session.seek (some PreviewEngine.kind) scene.instant (.float target) (.bool false)

/-- An operation on a panel. -/
inductive Command where
  | mount
  | unmount
  | load
  | refresh
  | toggle
  | seekBack
  | seekForward
  | reset
  | recompile
  deriving DecidableEq, Repr, Inhabited

/-- Carries an operation out. -/
def run (scene : Scene) : Command → Act Panel Unit
  | .mount => mount scene
  | .unmount => unmount
  | .load => load scene
  | .refresh => refresh scene
  | .toggle => onSession scene (Session.toggle (some PreviewEngine.kind) scene.instant)
  | .seekBack => seekBy scene (Double.ofNat 1).neg
  | .seekForward => seekBy scene (Double.ofNat 1)
  | .reset => reset scene
  | .recompile => recompile scene

end Panel

end Overlay
