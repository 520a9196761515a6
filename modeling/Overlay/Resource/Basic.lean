import Overlay.Act
import Overlay.Color.Read
import Overlay.Timecode

/-!
# Resources

A resource is something that can be shown: a text, a button or a path.  Its attributes are a
mapping that starts with what every resource has, goes on with what its kind has, and ends with
whatever else was given.

## Main definitions
- `ResourceKind`: texts, buttons and paths
- `Resource.create`, `Resource.createPreset`: new resources
- `Resource.normalizeColors`, `Resource.checkOpacity`: the rules that attributes obey
- `Resource.itemName`: the name that a resource is listed under
-/

namespace Overlay

open Overlay.Text

/-! ## Section 1: Kinds -/

/-- What a resource shows. -/
inductive ResourceKind where
  | text
  | button
  | path
  deriving DecidableEq, Repr, Inhabited

namespace ResourceKind

/-- All kinds. -/
def all : List ResourceKind := [.text, .button, .path]

/-- The word for a kind. -/
def word : ResourceKind → String
  | .text => "text"
  | .button => "button"
  | .path => "path"

/-- The kind that a word names. -/
def ofWord? (w : String) : Option ResourceKind :=
  all.find? fun k => k.word == w

/-- The kind that a value names. -/
def ofValue? : Value → Option ResourceKind
  | .text w => ofWord? w
  | _ => none

/-- The attribute that carries what is shown. -/
def payload : ResourceKind → String
  | .text => "content"
  | .button => "text"
  | .path => "d"

/-- The name of a resource without a name of its own. -/
def defaultName : ResourceKind → String
  | .text => "文本弹幕"
  | .button => "按钮弹幕"
  | .path => "路径弹幕"

/-- A kind's word names the kind. -/
theorem ofWord?_word (k : ResourceKind) : ofWord? k.word = some k := by
  cases k <;> decide

end ResourceKind

namespace Resource

/-! ## Section 2: Rules for attributes -/

/-- The letters that mark the name of an attribute as that of a color. -/
def colorMark : List Char := ['c', 'o', 'l', 'o', 'r']

/-- Whether an attribute holds a color. -/
def isColorName (name : String) : Bool :=
  Value.containsText (Number.lowered name.toList) colorMark

/-- The attributes with every color as a number; names that are no text have no meaning here. -/
def normalizeColors : Fields → Result Fields
  | [] => .ok []
  | (k, v) :: r => do
    let name ← match k with
      | .text s => Except.ok s
      | _ => .error .notOffered
    let w ← if isColorName name && !v.isNone then Color.read v else .ok v
    return (k, w) :: (← normalizeColors r)

/-- An opacity is absent or a number from 0 to 1. -/
def checkOpacity (v : Value) : Result Unit :=
  match v with
  | .none => .ok ()
  | v => match v.plainNumber? with
    | none => refuse .opacityKind
    | some n => if n.lt (.int 0) || (Number.int 1).lt n then refuse .opacityRange else .ok ()

/-- A length of time in milliseconds, where numbers and their texts are taken and anything else
leaves the fallback in place. -/
def duration (v : Value) (fallback : Int) : Result Value :=
  match v with
  | .none => .ok (.int fallback)
  | v => match v.toDouble with
    | .error .tooLarge => .error .tooLarge
    | .error _ => .ok (.int fallback)
    | .ok x =>
      .ok <|
        if !x.isFinite then .int fallback
        else if x.isWhole then .int x.truncate
        else .float x

/-! ## Section 3: New resources -/

/-- An attribute that was given, or its default. -/
def given (overrides : Fields) (name : String) (default : Value) : Value × Value :=
  (.text name, (Fields.get? overrides name).getD default)

/-- A decimal number with one digit behind the point. -/
def tenths (n : Nat) : Value :=
  .float (Double.ofQuotient n 10)

/-- What every resource has. -/
def baseFields (kind : ResourceKind) (o : Fields) (id length : Value) : Fields := [
  (.text "id", id), (.text "type", .text kind.word), given o "name" .none,
  given o "x" (.int 50), given o "y" (.int 50), given o "zIndex" (.int 1),
  (.text "durationMs", length), given o "scale" (.int 1), given o "rotateX" (.int 0),
  given o "rotateY" (.int 0), given o "rotateZ" (.int 0), given o "opacity" (.int 1),
  given o "anchorX" (tenths 5), given o "anchorY" (tenths 5), given o "parentId" .none]

/-- White. -/
def white : Value := .int 0xffffff

/-- What the resources of a kind have. -/
def kindFields (kind : ResourceKind) (o : Fields) : Fields :=
  match kind with
  | .text => [
    given o "content" (.text ""), given o "fontSize" (.int 5),
    given o "fontFamily" (.text "黑体"), given o "bold" (.int 0), given o "textShadow" (.int 0),
    given o "color" white, given o "strokeWidth" (.int 1), given o "strokeColor" white,
    given o "textColor" .none]
  | .button => [
    given o "text" (.text ""), given o "fontSize" (.int 5), given o "textColor" white,
    given o "fillColor" (.int 0xff9100), given o "fillAlpha" (tenths 8),
    given o "target" .none]
  | .path => [
    given o "d" (.text ""), given o "viewBox" .none, given o "borderWidth" (.int 1),
    given o "borderColor" white, given o "borderAlpha" (tenths 8),
    given o "fillColor" (.int 0x00a1d6), given o "fillAlpha" (tenths 8),
    given o "width" (.int 20)]

/-- The fields of one mapping, followed by those of another one that are missing. -/
def fillIn (fs extra : Fields) : Fields :=
  extra.foldl (fun acc e => if (Fields.find? acc e.1).isSome then acc else acc ++ [e]) fs

/-- Attribute names are texts, and some words are kept for other uses. -/
def checkNames (reserved : List String) (o : Fields) : Result Unit :=
  if o.all fun e => match e.1 with
    | .text s => !reserved.contains s
    | _ => false
  then .ok () else .error .wrongKind

variable {σ : Type}

/-- A new resource of a known kind; an id is drawn where none is given. -/
def createOf (kind : ResourceKind) (o : Fields) : Act σ Fields := do
  let id ← match Fields.get o "id" with
    | .none => Act.freshId 10
    | v => Act.ofResult v.toText
  let length ← Act.ofResult (duration (Fields.get o "durationMs") 2000)
  let full := fillIn (baseFields kind o (.text id) length ++ kindFields kind o) o
  let colored ← Act.ofResult (normalizeColors full)
  Act.ofResult (checkOpacity (Fields.get colored "opacity"))
  return colored

/-- The word that no attribute of a new resource may have as its name. -/
def kindWord : String := "danmu_type"

/-- A new resource with the given attributes. -/
def create (kind : Value) (o : Fields) : Act σ Fields := do
  Act.ofResult (checkNames [kindWord] o)
  match ResourceKind.ofValue? kind with
  | some k => createOf k o
  | none => Act.stop (.resourceKind kind)

/-- What a new resource has when it is dropped onto a project by hand. -/
def preset : ResourceKind → Fields
  | .text =>
    [(.text "content", .text ""), (.text "zIndex", .int 3), (.text "durationMs", .int 5000)]
  | .path => [(.text "zIndex", .int 1), (.text "durationMs", .int 2000), (.text "scale", tenths 8)]
  | .button => [(.text "text", .text ResourceKind.button.defaultName), (.text "zIndex", .int 1),
    (.text "durationMs", .int 2000), (.text "scale", .int 1)]

/-- A new resource as it is dropped onto a project, with the given attributes on top. -/
def createPreset (kind : Value) (o : Fields) : Act σ Fields := do
  Act.ofResult (checkNames ["key"] o)
  match ResourceKind.ofValue? kind with
  | some k => create kind (Fields.merge (preset k) o)
  | none => Act.stop (.resourceKind kind)

/-! ## Section 4: Names -/

/-- The name of what has no known kind. -/
def unknownName : String := "未知项目"

/-- The name of a resource without a name of its own. -/
def defaultName (resource : Value) : Result Value := do
  let kind ← resource.look "type" .none
  if kind.isKey then
    return .text (((ResourceKind.ofValue? kind).map ResourceKind.defaultName).getD unknownName)
  else .error .wrongKind

/-- The name that a resource is listed under. -/
def itemName (resource : Value) : Result Value := do
  let name ← resource.look "name" .none
  if name.holds then return name else defaultName resource

end Resource

end Overlay
