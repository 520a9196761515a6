import Overlay.Proofs.Script.Values
import Overlay.Script.Parser

/-!
# Shots

A clip together with its resource, as the script of the clip shows it: an object with attributes,
and what happens to it from the first statement to the last one.

## Main definitions
- `Move`, `Shot`: an animation segment, and a clip with its resource
- `Shot.Given`: the clip and the resource as data
- `Shot.Writable`: the shots whose script can be read
- `Shot.definition`: the object
- `Shot.beats`: what the statements do
- `Shot.script`: the script that the block of the clip is read as
-/

namespace Overlay

open Overlay.Number Overlay.Literal

/-! ## Section 1: Clips with their resources -/

/-- An animation segment; times are in milliseconds. -/
structure Move where
  /-- Beside the others, or after the one before. -/
  kind : SegmentKind
  /-- The length. -/
  duration : Nat
  /-- The delay. -/
  delay : Nat
  /-- The properties that are changed. -/
  properties : Fields

/-- A clip together with its resource; times are in milliseconds. -/
structure Shot where
  /-- The id of the clip. -/
  id : Value
  /-- The start. -/
  start : Nat
  /-- The length. -/
  duration : Nat
  /-- What the resource shows. -/
  kind : ResourceKind
  /-- The attributes of the resource. -/
  resource : Fields
  /-- The animation segments. -/
  moves : List Move

/-- A segment as data: its delay and its properties may be absent. -/
structure Move.Given (m : Move) (segment : Value) : Prop where
  kind_eq : segment.look "type" .none = .ok (.text m.kind.word)
  duration_eq : segment.look "duration" .none = .ok (.int m.duration)
  delay_eq : segment.look "delay" .none = .ok (.int m.delay)
    ∨ segment.look "delay" .none = .ok .none ∧ m.delay = 0
  properties_eq : segment.look "properties" .none = .ok (.dict m.properties)
    ∨ segment.look "properties" .none = .ok .none ∧ m.properties = []

/-- A clip and its resource as data: the animations may be absent. -/
structure Shot.Given (s : Shot) (clip resource : Value) : Prop where
  id_eq : clip.field "id" = .ok s.id
  start_eq : clip.field "start_time" = .ok (.int s.start)
  duration_eq : clip.field "duration" = .ok (.int s.duration)
  resource_eq : resource = .dict s.resource
  kind_eq : Fields.get s.resource "type" = .text s.kind.word
  animations_eq :
    (∃ items, clip.look "animations" .none = .ok (.list items)
      ∧ List.Forall₂ Move.Given s.moves items)
    ∨ clip.look "animations" .none = .ok .none ∧ s.moves = []

/-- A segment with moderate times whose properties can be read. -/
structure Move.Writable (m : Move) : Prop where
  duration_lt : m.duration < twoTo 53
  delay_lt : m.delay < twoTo 53
  properties_writable : areWritable m.properties = true

/-- A shot with moderate times whose id makes an identifier and whose attributes can be read. -/
structure Shot.Writable (s : Shot) : Prop where
  named : identifierOf s.id = .ok (identifier s.id)
  start_lt : s.start < twoTo 53
  duration_lt : s.duration < twoTo 53
  resource_writable : areWritable s.resource = true
  moves_writable : ∀ m ∈ s.moves, m.Writable

/-! ## Section 2: Objects -/

/-- Milliseconds as seconds. -/
def secondsOfMs (ms : Nat) : Double :=
  Double.ofQuotient ms 1000

namespace Shot

/-- Whether the object stays hidden until its clip starts. -/
def isDelayed (s : Shot) : Bool :=
  decide (0 < s.start)

/-- Whether an attribute of the resource becomes one of the object under its own name; the opacity
of a hidden object does not. -/
def keeps (s : Shot) (key : Value) : Bool :=
  !Emission.isExcluded key
    && !(s.isDelayed && (Emission.scriptKey key).same (.text Emission.alphaKey))

/-- What the resource shows, if it shows anything. -/
def payload (s : Shot) : List (String × Value) :=
  let key := s.kind.payload
  let shown := Fields.get s.resource key
  if Emission.isGiven shown then [(key, readBack (.text key) shown)] else []

/-- The attributes of the object, one after the other. -/
def assignments (s : Shot) : List (String × Value) :=
  s.payload
    ++ readBackProperties (s.resource.filter fun e => s.keeps e.1)
    ++ ("duration", .float (secondsOfMs (s.start + s.duration)))
    :: if s.isDelayed then [(Emission.alphaKey, .int 0)] else []

/-- The object. -/
def definition (s : Shot) : Definition :=
  ⟨s.kind, identifier s.id, Fields.assign [] s.assignments⟩

end Shot

/-! ## Section 3: Statements -/

/-- What a statement does, wherever it stands. -/
structure Beat where
  /-- The properties that are set. -/
  properties : Fields
  /-- How long it takes to set them, in seconds. -/
  duration : Double
  /-- Whether it goes on with the chain before it. -/
  chained : Bool

/-- The statement that does something to an object, in a line of the script. -/
def Beat.at (b : Beat) (name : String) (line : Nat) : Statement :=
  ⟨name, b.properties, b.duration, b.chained, line⟩

/-- Statements in neighbouring lines. -/
def numbered (name : String) (line : Nat) : List Beat → List Statement
  | [] => []
  | b :: r => b.at name line :: numbered name (line + 1) r

theorem numbered_append (name : String) (line : Nat) (bs cs : List Beat) :
    numbered name line (bs ++ cs) = numbered name line bs ++ numbered name (line + bs.length) cs := by
  induction bs generalizing line with
  | nil => rfl
  | cons b r ih =>
    rw [List.cons_append, numbered, numbered, ih, List.length_cons, List.cons_append,
      show line + 1 + r.length = line + (r.length + 1) by omega]

/-- Waiting at the front of a chain. -/
def Beat.wait (ms : Nat) : Beat :=
  ⟨[], secondsOfMs ms, false⟩

/-- Going on with a chain. -/
def Beat.next (properties : Fields) (ms : Nat) (chained : Bool) : Beat :=
  ⟨properties, secondsOfMs ms, chained⟩

/-- The properties of a segment as they are read. -/
def Move.targets (m : Move) : Fields :=
  Fields.assign [] (readBackProperties m.properties)

/-- What the statements of a segment do, given whether a chain is open. -/
def Move.beats (start : Nat) (opened : Bool) (m : Move) : List Beat :=
  match m.kind with
  | .chained => [.next m.targets m.duration opened]
  | .set =>
    if start + m.delay = 0 then [.next m.targets m.duration false]
    else [.wait (start + m.delay), .next m.targets m.duration true]

/-- What the statements of segments do, one after the other. -/
def Move.allBeats (start : Nat) (opened : Bool) : List Move → List Beat
  | [] => []
  | m :: r => m.beats start opened ++ Move.allBeats start true r

namespace Shot

/-- The opacity that the object has from the start of its clip on, as data. -/
def opacity (s : Shot) : Value :=
  match Fields.get s.resource Emission.opacityKey with
  | .none => .int 1
  | v => v

/-- The same as it is read. -/
def alpha (s : Shot) : Value :=
  readBack (.text Emission.alphaKey) s.opacity

/-- What brings a hidden object into view. -/
def revealBeats (s : Shot) : List Beat :=
  if s.isDelayed then
    [.wait s.start, .next (Fields.put [] Emission.alphaKey s.alpha) 0 true]
  else []

/-- What the statements of a shot do. -/
def beats (s : Shot) : List Beat :=
  s.revealBeats ++ Move.allBeats s.start s.isDelayed s.moves

/-! ## Section 4: Scripts -/

/-- The line of the first statement: the object has a line for its opening, one for each attribute
and one for its closing brace. -/
def firstStatement (s : Shot) : Nat :=
  s.assignments.length + 2

/-- How many lines the block of a shot has. -/
def lineCount (s : Shot) : Nat :=
  s.firstStatement + s.beats.length

/-- The statements of a shot whose object is opened in a line. -/
def statements (s : Shot) (line : Nat) : List Statement :=
  numbered (identifier s.id) (line + s.firstStatement) s.beats

/-- The script of a shot. -/
def script (s : Shot) : Script :=
  ⟨[s.definition], s.statements 1⟩

end Shot

end Overlay
