import Overlay.Resource.Basic

/-!
# Scripts

A script declares objects and sets their properties over time.

## Main definitions
- `Definition`: a declared object
- `Statement`: a set statement
- `Script`: definitions and statements
-/

namespace Overlay

/-- A declared object. -/
structure Definition where
  /-- What the object shows. -/
  kind : ResourceKind
  /-- The name of the object. -/
  name : String
  /-- The attributes that the object starts with. -/
  attrs : Fields
  deriving Inhabited

/-- A definition as a value. -/
def Definition.toValue (d : Definition) : Value :=
  .dict [(.text "kind", .text d.kind.word), (.text "name", .text d.name),
    (.text "attrs", .dict d.attrs)]

/-- A set statement. -/
structure Statement where
  /-- The name of the object. -/
  name : String
  /-- The properties that are set. -/
  properties : Fields
  /-- How long it takes to set them, in seconds. -/
  duration : Double
  /-- Whether the statement begins when the one before it ends. -/
  chained : Bool
  /-- The line of the script. -/
  line : Nat
  deriving Inhabited

/-- A statement as a value. -/
def Statement.toValue (s : Statement) : Value :=
  .dict [(.text "name", .text s.name), (.text "properties", .dict s.properties),
    (.text "duration", .float s.duration), (.text "chained", .bool s.chained),
    (.text "line", .int s.line)]

/-- Definitions and statements, each in the order of the script. -/
structure Script where
  /-- The definitions. -/
  defs : List Definition
  /-- The statements. -/
  sets : List Statement
  deriving Inhabited

namespace Script

/-- The definitions as a value. -/
def defsValue (s : Script) : Value :=
  .list (s.defs.map Definition.toValue)

/-- The statements as a value. -/
def setsValue (s : Script) : Value :=
  .list (s.sets.map Statement.toValue)

/-- A script as a value. -/
def toValue (s : Script) : Value :=
  .dict [(.text "defs", s.defsValue), (.text "sets", s.setsValue)]

end Script

end Overlay
