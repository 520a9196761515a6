import Overlay.Act
import Overlay.Timecode

/-!
# Animation segments

An animation segment changes properties of a clip's object over a length of time.  It either runs
beside the others, after a delay of its own, or follows the one before it.

## Main definitions
- `SegmentKind`: beside the others or after the one before
- `Segment.create`: a new segment
- `Segment.checkUpdate`: the rules for changes to a segment
-/

namespace Overlay

/-- How a segment relates to the others: `set` runs beside them, `chained` follows the one before
it. -/
inductive SegmentKind where
  | set
  | chained
  deriving DecidableEq, Repr

namespace SegmentKind

/-- The word for a kind. -/
def word : SegmentKind → String
  | .set => "set"
  | .chained => "then"

/-- The kind that a value names. -/
def ofValue? : Value → Option SegmentKind
  | .text "set" => some .set
  | .text "then" => some .chained
  | _ => none

/-- A kind's word names the kind. -/
theorem ofValue?_word (k : SegmentKind) : ofValue? (.text k.word) = some k := by
  cases k <;> rfl

end SegmentKind

namespace Segment

/-- What segment lengths are called in faults. -/
def durationLabel : String := "animation duration"

/-- What segment delays are called in faults. -/
def delayLabel : String := "animation delay"

/-- A kind of segment has to be named by its word. -/
def checkKind (kind : Value) : Result Unit :=
  if (SegmentKind.ofValue? kind).isSome then .ok () else refuse (.segmentKind kind)

/-- A delay is absent or a length of time. -/
def checkDelay (delay : Value) : Result Unit :=
  match delay with
  | .none => .ok ()
  | v => requireNonNegative v delayLabel

/-- The properties of a segment: a mapping, or nothing for the empty one. -/
def properties (v : Value) : Result Fields :=
  match v with
  | .none => .ok []
  | .dict fs => .ok fs
  | _ => refuse .segmentProperties

/-- The fields of a segment; a delay is kept only where there is one. -/
def fields (kind duration : Value) (props : Fields) (delay id : Value) : Fields :=
  [(.text "id", id), (.text "type", kind), (.text "duration", duration),
    (.text "properties", .dict props)]
  ++ match delay with
    | .none => []
    | d => [(.text "delay", d)]

/-- A new segment; an id is drawn where none is given. -/
def create {σ : Type} (kind duration props delay id : Value) : Act σ Value := do
  Act.ofResult (checkKind kind)
  Act.ofResult (requireNonNegative duration durationLabel)
  Act.ofResult (checkDelay delay)
  let props ← Act.ofResult (properties props)
  let id ← match id with
    | .none => (do return Value.text (← Act.freshPrefixed "anim") : Act σ Value)
    | v => pure v
  return .dict (fields kind duration props delay id)

/-- The rules for changes to a segment. -/
def checkUpdate (updates : Value) : Result Unit := do
  if ← updates.contains "type" then checkKind (← updates.field "type")
  if ← updates.contains "duration" then
    requireNonNegative (← updates.field "duration") durationLabel
  checkDelay (← updates.look "delay" .none)

end Segment

end Overlay
