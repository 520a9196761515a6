import Overlay.Act
import Overlay.Text.Lines

/-!
# Folders of files

A working folder: files with their bytes, and folders below it.  Paths are taken from the folder
itself, with `/` between names, and may lead out of it.

## Main definitions
- `Folder`: the files and the folders below
- `Folder.read`: the bytes of a file
- `Folder.write`: a file with new text, and the folders it lies in
-/

namespace Overlay

open Overlay.Text

/-- The names on the way to a file. -/
abbrev Route := List (List Char)

/-- A file below a folder. -/
structure StoredFile where
  /-- The names on the way to the file. -/
  route : Route
  /-- What the file holds. -/
  bytes : ByteArray

/-- Files and folders below a folder. -/
structure Folder where
  /-- The files. -/
  files : List StoredFile
  /-- The folders that were made, whether they hold files or not. -/
  folders : List Route

instance : Inhabited Folder := ⟨⟨[], []⟩⟩

namespace Folder

/-! ## Section 1: Paths -/

/-- The name that leads back. -/
def upName : List Char := ['.', '.']

/-- The route one step back: above the outermost folder there is only itself, and above the folder
itself lies what is outside of it. -/
def up (route : Route) : Route :=
  match route.getLast? with
  | none => [upName]
  | some name =>
    if name = [] then route
    else if name = upName then route ++ [upName]
    else route.dropLast

/-- A route with one more name: dots stay where they are or lead back. -/
def walk (route : Route) (name : List Char) : Route :=
  if name = [] || name = ['.'] then route
  else if name = upName then up route
  else route ++ [name]

/-- The route that a path takes; one from the outermost folder starts with an empty name. -/
def routeOf (path : List Char) : Route :=
  (pieces '/' path).foldl walk (if path.head? = some '/' then [[]] else [])

/-- Whether a name leads out of the folder. -/
def leadsOut (name : List Char) : Bool :=
  name = [] || name = upName

/-- What stands in front of the last name of a path. -/
def parentOf (path : List Char) : List Char :=
  joinWith ['/'] (pieces '/' path).dropLast

/-- Whether a path can only lead to a folder. -/
def leadsToFolder (path : List Char) : Bool :=
  path.getLast? = some '/'

/-- A route as a path. -/
def pathOf (route : Route) : String :=
  String.ofList (joinWith ['/'] route)

/-! ## Section 2: Looking -/

/-- The file at the end of a route. -/
def file? (f : Folder) (route : Route) : Option StoredFile :=
  f.files.find? fun x => x.route = route

/-- Whether a folder lies at the end of a route. -/
def isFolder (f : Folder) (route : Route) : Bool :=
  route.all leadsOut || f.folders.any (fun x => route.isPrefixOf x)
    || f.files.any fun x => route.isPrefixOf x.route && x.route ≠ route

/-- Whether a file stands in the way of a route. -/
def isBlocked (f : Folder) (route : Route) : Bool :=
  f.files.any fun x => x.route.isPrefixOf route && x.route ≠ route

/-- The bytes of a file. -/
def read (f : Folder) (path : String) : Result ByteArray :=
  let chars := path.toList
  let route := routeOf chars
  if chars.isEmpty then .error (.file path .missing)
  else match f.file? route with
    | some x => if leadsToFolder chars then .error (.file path .notDirectory) else .ok x.bytes
    | none =>
      if f.isFolder route then .error (.file path .isDirectory)
      else if f.isBlocked route then .error (.file path .notDirectory)
      else .error (.file path .missing)

/-! ## Section 3: Writing -/

/-- Puts bytes at the end of a route. -/
def store (f : Folder) (route : Route) (bytes : ByteArray) : Folder :=
  if (f.file? route).isSome then
    { f with files := f.files.map fun x => if x.route = route then ⟨route, bytes⟩ else x }
  else { f with files := f.files ++ [⟨route, bytes⟩] }

/-- A folder of files with texts. -/
def ofTexts (texts : List (String × String)) : Folder :=
  texts.foldl (fun f e => f.store (routeOf e.1.toList) e.2.toUTF8) default

/-- Makes the folders on the way to a file. -/
def makeParents (path : String) : Act Folder Unit := do
  let parent := parentOf path.toList
  let route := routeOf parent
  let f ← get
  if (f.file? route).isSome then throw (.file (String.ofList parent) .alreadyThere)
  if f.isBlocked route then throw (.file (String.ofList parent) .notDirectory)
  set { f with folders := f.folders ++ [route] }

/-- Writes a text to a file and makes the folders on the way to it. -/
def write (path text : String) : Act Folder Unit := do
  makeParents path
  let f ← get
  let chars := path.toList
  let route := routeOf chars
  if chars.isEmpty then throw (.file path .missing)
  -- the folders on the way are made before the file is looked at
  if leadsToFolder chars || f.isFolder route then throw (.file path .isDirectory)
  set (f.store route text.toUTF8)

/-- The files that lie below the folder. -/
def inside (files : List StoredFile) : List StoredFile :=
  files.filter fun x => !(x.route.head?.map leadsOut).getD true

/-- Whether a file lies in a folder as it is. -/
def holds (f : Folder) (x : StoredFile) : Bool :=
  match f.file? x.route with
  | some y => y.bytes.data == x.bytes.data
  | none => false

/-- The files that are new or different since an earlier state of the folder. -/
def changedSince (f earlier : Folder) : List StoredFile :=
  f.files.filter fun x => !earlier.holds x

end Folder

end Overlay
