import Overlay.Script.Basic
import Overlay.Script.Scanner
import Overlay.Text.Lines

/-!
# Reading scripts

A script is read line by line.  A definition takes several lines, from its opening to a closing
brace; a set statement takes one.  Statements speak of objects that were declared before.

## Main definitions
- `Script.Progress`: what has been read so far
- `Script.readLine`: one more line
- `Script.parse`: a whole script
-/

namespace Overlay.Script

open Overlay.Text

/-! ## Section 1: Statements -/

/-- A set statement behind the word that chains it, if any. -/
def readStatement (line : Nat) (chained : Bool) (s : List Char) : Except Complaint Statement := do
  match Scanner.keyword? "set" s with
  | none => throw .expectedSet
  | some r =>
    let (name, r) ← Scanner.identifier r
    let (properties, r) ← Scanner.mapping r
    let (duration, r) ← Scanner.value r
    match duration with
    | .float x =>
      if Scanner.atEnd r then return ⟨name, properties, x, chained, line⟩
      else throw .textAfterSet
    | _ => throw .durationNotInSeconds

/-! ## Section 2: Lines -/

/-- What has been read so far. -/
structure Progress where
  /-- The closed definitions. -/
  defs : List Definition
  /-- The statements. -/
  sets : List Statement
  /-- The names of all definitions, closed or not. -/
  declared : List String
  /-- The definition whose lines are being read. -/
  current : Option Definition
  deriving Inhabited

/-- Nothing has been read. -/
def Progress.start : Progress := ⟨[], [], [], none⟩

/-- A line inside of a definition. -/
def readInside (p : Progress) (d : Definition) (s : List Char) : Except Complaint Progress :=
  match Scanner.skipSpaces s with
  | '}' :: r =>
    if Scanner.atEnd r then .ok { p with defs := p.defs ++ [d], current := none }
    else .error .textAfterBlock
  | r => do
    let (key, r) ← Scanner.identifier r
    let r ← Scanner.expect '=' r
    let (v, r) ← Scanner.value r
    if Scanner.atEnd r then
      return { p with current := some { d with attrs := Fields.put d.attrs key v } }
    else throw .textAfterAttribute

/-- The line that opens a definition, behind its first word. -/
def readOpening (p : Progress) (s : List Char) : Except Complaint Progress := do
  let (word, r) ← Scanner.identifier s
  match ResourceKind.ofWord? word with
  | none => throw (.unknownKind word)
  | some kind =>
    let (name, r) ← Scanner.identifier r
    -- a name is taken from the opening of its block on
    if p.declared.contains name then throw (.declaredTwice name)
    let r ← Scanner.expect '{' r
    if Scanner.atEnd r then
      return { p with declared := name :: p.declared, current := some ⟨kind, name, []⟩ }
    else throw .textAfterOpening

/-- A line that is a statement. -/
def readSet (p : Progress) (line : Nat) (s : List Char) : Except Complaint Progress := do
  let statement ← match Scanner.keyword? "then" s with
    | some r => readStatement line true r
    | none => readStatement line false s
  if p.declared.contains statement.name then
    return { p with sets := p.sets ++ [statement] }
  else throw (.notDeclared statement.name)

/-- One more line. -/
def readLine (p : Progress) (line : Nat) (s : List Char) : Except Complaint Progress :=
  if isBlankText s then .error .blankLine
  else match p.current with
    | some d => readInside p d s
    | none => match Scanner.keyword? "def" s with
      | some r => readOpening p r
      | none => readSet p line s

/-- The lines from a number on. -/
def readLines (p : Progress) (line : Nat) : List (List Char) → Result Progress
  | [] => .ok p
  | s :: r => match readLine p line s with
    | .ok p => readLines p (line + 1) r
    | .error complaint => .error (complaint.fault line)

/-! ## Section 3: Scripts -/

/-- The lines of a text; behind a last line feed there is none. -/
def linesOf (s : List Char) : List (List Char) :=
  let ls := pieces '\n' s
  -- the piece behind the last line feed is no line if it is empty
  if ls.getLast? = some [] then ls.dropLast else ls

/-- A script from its text. -/
def parse (s : List Char) : Result Script := do
  let p ← readLines .start 1 (linesOf s)
  match p.current with
  | some d => refuse (.unterminatedBlock d.name)
  | none => return ⟨p.defs, p.sets⟩

/-- A script from a value, which has to be a text. -/
def ofValue (v : Value) : Result Script :=
  match v with
  | .text s => parse s.toList
  | _ => .error .notOffered

end Overlay.Script
