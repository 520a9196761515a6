import Overlay.Folder
import Overlay.Playback.Preview
import Overlay.Project.Load
import Overlay.Yaml.Document

/-!
# The studio

A project that is worked on: it is read from a file, its script is written to one, and a preview
session plays it.

## Main definitions
- `Project.ofFile`: the project of a file
- `Project.writeScript`: a project's script in a file
- `Studio`: a project with its preview session
- `Studio.startPreview`, `Studio.recompile`: the script in the preview
-/

namespace Overlay

open Overlay.Text

/-! ## Section 1: Files -/

/-- The largest file that is read, in bytes. -/
def maxFileSize : Nat := 10000000

/-- A text with a line feed at the end of each line. -/
def plainLineEnds : List Char → List Char
  | '\r' :: '\n' :: r => '\n' :: plainLineEnds r
  | c :: r => (if c = '\r' then '\n' else c) :: plainLineEnds r
  | [] => []

/-- The description of a project in a file. -/
def Project.readData (folder : Folder) (path : String) : Result Value := do
  let bytes ← folder.read path
  if maxFileSize < bytes.size then refuse .fileTooLarge
  let text ← orFault (.file path .notText) (String.fromUTF8? bytes)
  match ← Yaml.read (plainLineEnds text.toList) with
  | .dict fs => return .dict fs
  | _ => refuse .projectKind

/-- The project of a file. -/
def Project.ofFile {σ : Type} (folder : Folder) (path : String) (override : Value) :
    Act σ Project := do
  let data ← Act.ofResult (Project.readData folder path)
  Project.ofData data override

/-- Writes the script of a project to a file: the given one, or the one that the project names.
The answer is the file. -/
def Project.writeScript (p : Project) (file : Value) : Act Folder String := do
  let file := if file.holds then file else p.outputFile
  if file.isNone then Act.stop .outputMissing
  -- the script is made before any folder is
  let script ← Act.ofResult p.compile
  match file with
  | .text path =>
    Folder.write path (String.ofList script)
    return path
  | _ => throw .wrongKind

/-! ## Section 2: Studios -/

/-- A project with its preview session. -/
structure Studio where
  /-- The project. -/
  project : Project
  /-- The preview session, once there is one. -/
  session : Option PreviewSession
  deriving Inhabited

namespace Studio

/-- An action on the project. -/
def onProject {α : Type} (act : Act Project α) : Act Studio α :=
  Act.on Studio.project (fun p s => { s with project := p }) act

/-- An action on the session, if there is one. -/
def onSession (act : Act PreviewSession Unit) : Act Studio Unit := do
  match (← get).session with
  | none => return
  | some _ =>
    Act.on (fun s => s.session.getD .fresh) (fun x s => { s with session := some x }) act

/-- A script that was rejected becomes a warning. -/
def warnRejected : Signal → Signal
  | .rejected message => .note .warning ("script rejected: " ++ message)
  | s => s

/-- Loads the script of the project into the preview, if there is one; the answer is the script. -/
def recompile (instant : Double) : Act Studio (List Char) := do
  let script ← Act.ofResult (← get).project.compile
  onSession <| Act.mapSignals warnRejected <|
    Session.reload (some PreviewEngine.kind) instant (.text (String.ofList script)) ⟨false, true⟩
  return script

/-- Makes sure that there is a preview and loads the script into it. -/
def startPreview (instant : Double) (container : Value) : Act Studio Unit := do
  let s ← get
  if s.session.isNone then
    -- the session is there even if its engine cannot be built
    set { s with session := some Session.fresh }
    let options := Fields.put s.project.playback "container" container
    onSession (Session.init (some PreviewEngine.kind) instant (.dict options))
  let _ ← recompile instant

end Studio

end Overlay
