import Overlay.CommandLine.Run

/-!
# The executable

The compiler with real files; with `export` in front of its arguments, the exporter.  Everything is
decided by `CommandLine.run`: what is left here is to read the file of the project, to write the
files that changed, and to print.

## Main definitions
- `main`: the executable
-/

namespace Overlay.CommandLine

/-- The program that a command line asks for, and its arguments. -/
def choose : List String → Program × List String
  | "export" :: arguments => (.exporter, arguments)
  | arguments => (.compiler, arguments)

/-- The file that a command line names as its project, if it names one. -/
def projectPath (program : Program) (arguments : List String) : String :=
  match parse program.options arguments with
  | .settings s => s.yaml.getD ""
  | _ => ""

/-- The working folder as far as a program looks into it. -/
def readFolder (path : String) : IO Folder := do
  try
    let bytes ← IO.FS.readBinFile path
    return Folder.store default (Folder.routeOf path.toList) bytes
  catch
    | .noFileOrDirectory .. => return default
    | .inappropriateType .. => return ⟨[], [Folder.routeOf path.toList]⟩
    | e => throw e

/-- Writes the files that changed. -/
def writeFiles (files : List StoredFile) : IO Unit := do
  for file in files do
    let parent := Folder.pathOf file.route.dropLast
    if parent ≠ "" then IO.FS.createDirAll parent
    IO.FS.writeBinFile (Folder.pathOf file.route) file.bytes

/-- Draws for new ids that differ from run to run. -/
def drawIds : IO IdSource := do
  let seed ← IO.rand 0 (Number.twoTo 62)
  return ⟨fun n => (mixHash (hash seed) (hash n)).toNat, 0⟩

/-- Writes and prints what a program has left on its desk. -/
def finish (before : Folder) (desk : Desk) : IO Unit := do
  writeFiles (desk.folder.changedSince before)
  IO.print desk.console.out
  IO.eprint desk.console.err

/-- Runs a program and gives its exit code. -/
def execute (program : Program) (arguments : List String) : IO UInt32 := do
  let folder ← readFolder (projectPath program arguments)
  match run program arguments folder ⟨← drawIds, []⟩ with
  | .exit 0 =>
    IO.println "options: -y FILE [-o FILE] [-n] [-p] [-q]"
    return 0
  | .exit code =>
    IO.eprintln "usage: -y FILE [-o FILE] [-n] [-p] [-q]"
    return code.toUInt32
  | .done desk =>
    finish folder desk
    return 0
  | .failed fault desk =>
    finish folder desk
    IO.eprintln fault.report
    return 1

end Overlay.CommandLine

/-- The executable. -/
def main (arguments : List String) : IO UInt32 := do
  let (program, arguments) := Overlay.CommandLine.choose arguments
  Overlay.CommandLine.execute program arguments
