import Overlay.Resource.Store
import Overlay.Script.Literal
import Overlay.Timeline.Identifier
import Overlay.Timeline.Segment

/-!
# Scripts of clips

Each clip becomes one block of a script: the definition of its object, and statements for its
reveal and its animation segments.  A clip that starts later than zero is defined with its object
hidden; a first pair of statements waits for the start and brings the opacity back.

## Main definitions
- `Emission.declaration`, `Emission.reveal`, `Emission.segment`: the lines of a block
- `Emission.clip`: the block of a clip
- `Emission.timeline`: the script of all visible tracks
- `Emission.stripBlankLines`: a text without blank lines
-/

namespace Overlay.Emission

open Overlay.Text

/-! ## Section 1: Definitions -/

/-- The blanks in front of an attribute. -/
def indent : List Char := List.replicate 4 ' '

/-- The attributes that never become attributes of an object under their own name. -/
def excludedKeys : List String :=
  ["id", "type", "name", "durationMs", "parentId", "content", "text", "d"]

/-- The attribute that is called differently in scripts. -/
def opacityKey : String := "opacity"

/-- What the opacity is called in scripts. -/
def alphaKey : String := "alpha"

/-- The new names of attributes, as a mapping. -/
def renames : Value :=
  .dict [(.text opacityKey, .text alphaKey)]

/-- Whether an attribute is left out of a definition. -/
def isExcluded : Value → Bool
  | .text s => excludedKeys.contains s
  | _ => false

/-- The name of an attribute in scripts. -/
def scriptKey (key : Value) : Value :=
  if key.same (.text opacityKey) then .text alphaKey else key

/-- The line that gives an attribute its value. -/
def attributeLine (key : Value) (text : List Char) : List Char :=
  indent ++ Literal.assignment key text

/-- The kind of a resource. -/
def kindOf (resource : Value) : Result ResourceKind := do
  let kind ← resource.look "type" .none
  match ResourceKind.ofValue? kind with
  | some k => return k
  | none => refuse (.resourceKind kind)

/-- Whether a value is there and not the empty text. -/
def isGiven : Value → Bool
  | .none => false
  | .text s => s != ""
  | _ => true

/-- The line of what a resource shows, if it shows anything. -/
def payloadLine (kind : ResourceKind) (resource : Fields) : Result (List (List Char)) := do
  let key := Value.text kind.payload
  let shown := Fields.get resource kind.payload
  if isGiven shown then return [attributeLine key (← Literal.value key shown)] else return []

/-- The lines of the other attributes; the opacity of a delayed object is left to its reveal. -/
def attributeLines (delayed : Bool) : Fields → Result (List (List Char))
  | [] => .ok []
  | (key, v) :: r =>
    if isExcluded key then attributeLines delayed r
    else
      let name := scriptKey key
      -- a delayed object is hidden until its reveal, which sets the opacity
      if delayed && name.same (.text alphaKey) then attributeLines delayed r
      else do
        let text ← Literal.value key v
        let rest ← attributeLines delayed r
        return if text.isEmpty then rest else attributeLine name text :: rest

/-- The definition of an object. -/
def declaration (name : List Char) (clip resource : Value) (start : Value) (delayed : Bool)
    (kind : ResourceKind) : Result (List (List Char)) := do
  let fields ← resource.toFields
  let opening := "def ".toList ++ kind.word.toList ++ ' ' :: name ++ " \x7b".toList
  let payload ← payloadLine kind fields
  let attributes ← attributeLines delayed fields
  let total ← start.plus (← clip.field "duration")
  let lasting := attributeLine (.text "duration") ((← Literal.seconds total) ++ ['s'])
  let hidden := if delayed then [attributeLine (.text alphaKey) ['0']] else []
  return opening :: payload ++ attributes ++ lasting :: hidden ++ [['}']]

/-! ## Section 2: Statements -/

/-- A set statement. -/
def statement (keyword name properties seconds : List Char) : List Char :=
  keyword ++ ' ' :: name ++ ' ' :: properties ++ ' ' :: seconds ++ ['s']

/-- The word of a statement that opens a chain. -/
def setWord : List Char := "set".toList

/-- The words of a statement that goes on with a chain. -/
def thenSetWord : List Char := "then set".toList

/-- The statement that waits. -/
def wait (name seconds : List Char) : List Char :=
  statement setWord name ['{', '}'] seconds

/-- The statements that bring a hidden object into view when its clip starts. -/
def reveal (name : List Char) (start : Value) (resource : Fields) :
    Result (List (List Char)) := do
  let seconds ← Literal.seconds start
  let opacity := match Fields.get resource opacityKey with
    | .none => Value.int 1
    | v => v
  let alpha ← Literal.value (.text alphaKey) opacity
  let properties := ['{', ' '] ++ Literal.assignment (.text alphaKey) alpha ++ [' ', '}']
  return [wait name seconds, statement thenSetWord name properties ['0']]

/-- A value, or a default where it counts as false. -/
def orElse (v default : Value) : Value :=
  if v.holds then v else default

/-- The statements of an animation segment, given whether a chain is open. -/
def segment (name : List Char) (start segment : Value) (opened : Bool) :
    Result (List (List Char)) := do
  let kind ← segment.look "type" .none
  let properties := orElse (← segment.look "properties" .none) (.dict [])
  let properties ← Literal.mapping properties renames
  let seconds ← Literal.seconds (orElse (← segment.look "duration" .none) (.int 0))
  match SegmentKind.ofValue? kind with
  | some .chained =>
    -- without a chain to go on with, the segment opens one
    return [statement (if opened then thenSetWord else setWord) name properties seconds]
  | some .set => do
    let offset ← start.plus (orElse (← segment.look "delay" .none) (.int 0))
    -- chains start at time zero, so a chain that starts later has to wait first
    if (← offset.toNumber).le (.int 0) then return [statement setWord name properties seconds]
    else
      let waited ← Literal.seconds offset
      return [wait name waited, statement thenSetWord name properties seconds]
  | none => refuse (.segmentUnsupported kind)

/-- The statements of animation segments, one after the other. -/
def segments (name : List Char) (start : Value) (opened : Bool) :
    List Value → Result (List (List Char))
  | [] => .ok []
  | s :: r => do
    let first ← segment name start s opened
    let rest ← segments name start true r
    return first ++ rest

/-! ## Section 3: Blocks -/

/-- Lines with a line feed behind each of them. -/
def endLines (ls : List (List Char)) : List Char :=
  ls.flatMap (· ++ ['\n'])

/-- The lines of the block of a clip. -/
def clipLines (clip resource : Value) : Result (List (List Char)) := do
  let name := (← identifierOf (← clip.field "id")).toList
  let kind ← kindOf resource
  let start ← clip.field "start_time"
  let delayed ← Value.lessThan (.int 0) start
  let block ← declaration name clip resource start delayed kind
  -- the reveal opens a chain that the first segment may go on with
  let revealed ← if delayed then do reveal name start (← resource.toFields) else pure []
  let items ← (orElse (← clip.look "animations" .none) (.list [])).items
  let moves ← segments name start delayed items
  return block ++ revealed ++ moves

/-- The block of a clip. -/
def clip (clip resource : Value) : Result (List Char) :=
  (clipLines clip resource).map endLines

/-- The lines of a text that are not blank, with a line feed behind each of them. -/
def stripBlankLines (s : List Char) : List Char :=
  endLines ((lines s).filter fun l => !isBlankText l)

/-! ## Section 4: Timelines -/

/-- Where the resources of clips are looked up. -/
inductive Source where
  /-- A resource store. -/
  | store (s : Store)
  /-- The first of the listed resources with each id. -/
  | table (t : Fields)
  deriving Inhabited

/-- A table of the first resource with each id. -/
def tableOf (acc : Fields) : List Value → Result Fields
  | [] => .ok acc
  | resource :: r => do
    let id ← resource.look "id" .none
    if !id.isKey then throw .wrongKind
    tableOf (if (Fields.find? acc id).isSome then acc else acc ++ [(id, resource)]) r

/-- The source that a value is: a mapping from ids, or a list of resources. -/
def Source.ofValue (v : Value) : Result Source :=
  match v with
  | .dict fs => .ok (.table fs)
  | .list items => (tableOf [] items).map .table
  | .tuple items => (tableOf [] items).map .table
  | _ => refuse .resourceSource

/-- The resource with an id; the absent value where there is none. -/
def Source.find (source : Source) (id : Value) : Result Value :=
  match source with
  | .store s => .ok (((s.find? id).map Value.dict).getD .none)
  | .table t => if id.isKey then .ok ((Fields.find? t id).getD .none) else .error .wrongKind

/-- The blocks of the clips of one track; clips without a resource are left out. -/
def clipBlocks (source : Source) : List Value → Result (List (List Char))
  | [] => .ok []
  | c :: r => do
    let resource ← source.find (← c.look "resource_id" .none)
    if resource.isNone then clipBlocks source r
    else
      let block ← clip c resource
      return block :: (← clipBlocks source r)

/-- The blocks of the clips of all visible tracks. -/
def trackBlocks (source : Source) : List Value → Result (List (List Char))
  | [] => .ok []
  | t :: r => do
    let visible ← t.look "visible" (.bool true)
    if !visible.holds then trackBlocks source r
    else
      let blocks ← clipBlocks source (← (← t.look "clips" (.list [])).items)
      return blocks ++ (← trackBlocks source r)

/-- The script of tracks. -/
def ofTracks (tracks : List Value) (source : Source) : Result (List Char) := do
  return stripBlankLines (joinLines (← trackBlocks source tracks))

/-- The script of tracks given as values; the source is looked at after the tracks. -/
def timeline (tracks : Value) (source : Result Source) : Result (List Char) := do
  let items ← match tracks with
    | .list items => Except.ok items
    | .tuple items => .ok items
    | _ => refuse .tracksKind
  ofTracks items (← source)

end Overlay.Emission
