import Overlay.CommandLine.Options
import Overlay.Console
import Overlay.Project.Studio
import Overlay.Yaml.Printer

/-!
# The programs

Two programs turn a project into a script.  The compiler prints the script or writes it to the file
that the project names; it can also only check it, or print the plan of the project.  The exporter
always writes a file.

## Main definitions
- `compiler`, `exporter`: what the programs do once their options are known
- `Program`, `run`: a program on a command line
-/

namespace Overlay.CommandLine

open Overlay.Text

/-! ## Section 1: What the programs work on -/

/-- The files and the console. -/
structure Desk where
  /-- The working folder. -/
  folder : Folder
  /-- The console. -/
  console : Console
  deriving Inhabited

/-- Prints to the standard output. -/
def say (s : String) : Act Desk Unit :=
  modify fun d => { d with console := d.console.print s }

/-- Gives a note to the console. -/
def inform (message : String) : Act Desk Unit :=
  modify fun d => { d with console := d.console.note .info (.text message) }

/-- The project of a file on the desk. -/
def openProject (path : String) (override : Value) : Act Desk Project := do
  Project.ofFile (← get).folder path override

/-- Writes the script of a project. -/
def writeScript (p : Project) (file : Value) : Act Desk String :=
  Act.on Desk.folder (fun f d => { d with folder := f }) (p.writeScript file)

/-- A setting as a value. -/
def settingValue : Option String → Value
  | none => .none
  | some s => .text s

/-! ## Section 2: The compiler -/

/-- The plan of a project: its length, tracks and resources. -/
def plan (p : Project) : Value :=
  .dict [(.text "duration", p.timeline.duration), (.text "tracks", .list p.timeline.trackValues),
    (.text "resources", .list p.store.toValues)]

/-- What the compiler does. -/
def compiler (s : Settings) : Act Desk Unit := do
  modify fun d => { d with console := { d.console with quiet := s.quiet } }
  let p ← openProject (s.yaml.getD "") (settingValue s.output)
  if s.dumpPlan then
    if !(plan p).hasText then throw .tooLongToWrite
    say (String.ofList (Yaml.print (plan p)) ++ "\n")
  else
    -- nothing is written before the script was read back
    let script ← Act.ofResult p.validate
    if s.dryRun then
      inform ("dry run: " ++ Number.intText script.defs.length ++ " objects, "
        ++ Number.intText script.sets.length ++ " set statements")
    else if p.outputFile.isNone then
      say (String.ofList (← Act.ofResult p.compile))
    else
      let file ← writeScript p .none
      inform ("wrote " ++ file)

/-! ## Section 3: The exporter -/

/-- A path without the extension of its last name; a name is not all extension. -/
def withoutExtension (path : List Char) : List Char :=
  let name := (path.reverse.takeWhile (· ≠ '/')).reverse
  let before := path.take (path.length - name.length)
  let stem := ((name.reverse.dropWhile (· ≠ '.')).drop 1).reverse
  if stem.all (· = '.') then path else before ++ stem

/-- A text without an ending. -/
def dropEnding (ending s : List Char) : List Char :=
  if ending.isSuffixOf s then s.take (s.length - ending.length) else s

/-- The file of a project's script where none is named. -/
def defaultOutput (path : String) : String :=
  String.ofList (dropEnding ".danmu".toList (withoutExtension path.toList) ++ ".bas".toList)

/-- What the exporter does; a script that cannot be read back is not written. -/
def exporter (s : Settings) : Act Desk Unit := do
  let path := s.yaml.getD ""
  let p ← openProject path .none
  let file := Emission.orElse (Emission.orElse (settingValue s.output) p.outputFile)
    (.text (defaultOutput path))
  let _ ← Act.ofResult p.validate
  let written ← writeScript p file
  say ("wrote " ++ written ++ "\n")

/-! ## Section 4: Command lines -/

/-- The programs. -/
inductive Program where
  | compiler
  | exporter
  deriving DecidableEq, Repr

/-- The options of a program. -/
def Program.options : Program → List OptionNames
  | .compiler => compilerOptions
  | .exporter => exporterOptions

/-- What a program does once its options are known. -/
def Program.act : Program → Settings → Act Desk Unit
  | .compiler => CommandLine.compiler
  | .exporter => CommandLine.exporter

/-- How a program ends. -/
inductive Ending where
  /-- The command line asked for nothing that could be done. -/
  | exit (code : Nat)
  /-- The program did its work. -/
  | done (desk : Desk)
  /-- The program stopped with a fault. -/
  | failed (fault : Fault) (desk : Desk)
  deriving Inhabited

/-- Runs a program on a command line. -/
def run (program : Program) (arguments : List String) (folder : Folder) (w : Surroundings) :
    Ending :=
  match parse program.options arguments with
  | .help => .exit 0
  | .misuse => .exit 2
  | .settings s =>
    match (program.act s).perform ⟨folder, .start⟩ w with
    | (.ok (), desk, _) => .done desk
    | (.error fault, desk, _) => .failed fault desk

end Overlay.CommandLine
