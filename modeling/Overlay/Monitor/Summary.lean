import Overlay.Timecode

/-!
# Short descriptions

What a monitor shows of a clock and of an object.

## Main definitions
- `Summary.clock`: a position and a length
- `Summary.object`: the main attributes of an object
-/

namespace Overlay.Summary

/-- A position and a length, both as timecodes. -/
def clock (now total : Value) : Result String := do
  let a ← Timecode.format now
  let b ← Timecode.format total
  return a ++ " / " ++ b

/-- The most characters of a label. -/
def labelWidth : Nat := 24

/-- The label of an object: what it shows, cut short where it is too long. -/
def label (v : Value) : Result String := do
  let n ← match v with
    | .dict fs => Except.ok fs.length
    | v => v.count
  if labelWidth < n then
    match v with
    | .text s => return String.ofList (s.toList.take (labelWidth - 3)) ++ "..."
    | _ => throw .wrongKind
  else v.toText

/-- An attribute with its value, if it is there; doubles have two places. -/
def attributeText (attrs : Fields) (name : String) : Result (List String) :=
  match Fields.get? attrs name with
  | none => .ok []
  | some (.float x) => .ok [name ++ "=" ++ x.twoPlacesText]
  | some v => do return [name ++ "=" ++ (← v.toText)]

/-- The first of some values that counts as true, or the empty text. -/
def firstOf : List Value → Value
  | [] => .text ""
  | v :: r => if v.holds then v else firstOf r

/-- The main attributes of an object. -/
def object (attrs : Value) : Result String := do
  match attrs with
  | .dict fs =>
    let shown := firstOf [Fields.get fs "content", Fields.get fs "text", Fields.get fs "d"]
    let text ← label shown
    let quotes := if shown.holds then ["\"" ++ text ++ "\""] else []
    let numbers ← ["x", "y", "alpha"].mapM (attributeText fs)
    return " ".intercalate (quotes ++ numbers.flatten)
  | _ => throw .notOffered

end Overlay.Summary
