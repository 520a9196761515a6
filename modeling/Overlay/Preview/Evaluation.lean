import Overlay.Value.Access

/-!
# Objects over time

Evaluating a definition at a time.  Statements form chains: one that is not chained opens a chain
at time zero, a chained one begins when the one before it ends.  A statement that has ended sets
its properties; one that is running blends them from what they were.

## Main definitions
- `Evaluation.mix`: a value between two others
- `Evaluation.step`: one statement
- `Evaluation.object`: all statements
-/

namespace Overlay.Evaluation

open Overlay.Number

/-! ## Section 1: Blending -/

/-- The number of a percentage. -/
def percent? (v : Value) : Option Double :=
  match v with
  | .text s => match s.toList.reverse with
    | '%' :: r => readDouble? (String.ofList r.reverse)
    | _ => none
  | _ => none

/-- A number on the way from one to another. -/
def mixNumbers (a b : Number) (ratio : Double) : Result Number := do
  let distance ← orFault .tooLarge (b.sub? a)
  let part ← orFault .tooLarge (distance.mul? (.float ratio))
  orFault .tooLarge (a.add? part)

/-- A value on the way from one to another: numbers and percentages are blended, anything else
changes at the end. -/
def mix (a b : Value) (ratio : Double) : Result Value :=
  if Double.le (Double.ofNat 1) ratio then .ok b
  else match a.plainNumber?, b.plainNumber? with
    | some m, some n => (mixNumbers m n ratio).map Value.ofNumber
    | _, _ => match percent? a, percent? b with
      | some x, some y =>
        .ok (.text ((x.add ((y.sub x).mul ratio)).compactText ++ "%"))
      | _, _ => .ok a

/-- Attributes with properties blended in. -/
def blend (ratio : Double) (attrs : Fields) : Fields → Result Fields
  | [] => .ok attrs
  | (key, v) :: r => do
    let w ← mix ((Fields.find? attrs key).getD v) v ratio
    blend ratio (Fields.insert attrs key w) r

/-! ## Section 2: Statements -/

/-- A thousand, as a double. -/
def thousand : Double := Double.ofNat 1000

/-- Seconds as milliseconds, in a double. -/
def toMs (seconds : Value) : Result Double := do
  let n ← seconds.toNumber
  let x ← orFault .tooLarge n.toDouble?
  return x.mul thousand

/-- One statement at a time, given the attributes so far and the end of the chain before it. -/
def step (time : Value) (attrs : Fields) (chainEnd : Double) (statement : Value) :
    Result (Fields × Double) := do
  let chained ← statement.field "chained"
  let start := if chained.holds then chainEnd else Double.zero
  let length ← toMs (← statement.field "duration")
  -- a statement that has not begun yet still moves the end of its chain
  let stop := start.add length
  let t ← time.toNumber
  if t.lt (.float start) then return (attrs, stop)
  else if length.le Double.zero || (Number.float stop).le t then
    let properties ← (← statement.field "properties").toFields
    return (Fields.merge attrs properties, stop)
  else
    let x ← orFault .tooLarge t.toDouble?
    let ratio := (x.sub start).div length
    match ← statement.field "properties" with
    | .dict properties => return (← blend ratio attrs properties, stop)
    | _ => throw .notOffered

/-- Statements at a time, one after the other. -/
def steps (time : Value) (attrs : Fields) (chainEnd : Double) : List Value → Result Fields
  | [] => .ok attrs
  | s :: r => do
    let (attrs, stop) ← step time attrs chainEnd s
    steps time attrs stop r

/-- The attributes that a definition starts with. -/
def initial (definition : Value) : Result Fields := do
  (← definition.field "attrs").toFields

/-- The attributes of a definition at a time in milliseconds since the script began. -/
def object (definition : Value) (statements : List Value) (time : Value) : Result Fields := do
  let attrs ← initial definition
  steps time attrs Double.zero statements

/-- The same for statements given as one value, which is looked at after the definition. -/
def objectOf (definition statements time : Value) : Result Fields := do
  let attrs ← initial definition
  steps time attrs Double.zero (← statements.items)

end Overlay.Evaluation
