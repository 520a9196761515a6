import Overlay.Yaml.Node

/-!
# Documents as data

The value that a document describes.  In a mapping a later value of a key takes the place of an
earlier one; a merge key brings in the fields of other mappings in front of the mapping's own.

## Main definitions
- `Yaml.valueOf`: the value of a tree
- `Yaml.read`: the value of a document
-/

namespace Overlay.Yaml

/-- The mapping that fields make, set in their order; keys have to be scalars. -/
def fieldsOf (acc : Fields) : List (Value × Value) → Result Fields
  | [] => .ok acc
  | (k, v) :: r => if k.isKey then fieldsOf (Fields.insert acc k v) r else .error .malformed

mutual

/-- The value of a tree. -/
def valueOf : Node → Result Value
  | .scalar tag text => readScalar tag text
  | .sequence .seq items => do return .list (← valuesOf items)
  | .sequence _ _ => .error .malformed
  | .mapping .map pairs => do
    let (merged, own) ← entriesOf pairs
    -- the own fields come last and so win over what is merged in
    return .dict (← fieldsOf [] (merged ++ own))
  | .mapping _ _ => .error .malformed

/-- The values of trees. -/
def valuesOf : List Node → Result (List Value)
  | [] => .ok []
  | n :: r => do
    let v ← valueOf n
    return v :: (← valuesOf r)

/-- The fields of pairs: those that merge keys bring in, and the mapping's own. -/
def entriesOf : List (Node × Node) → Result (List (Value × Value) × List (Value × Value))
  | [] => .ok ([], [])
  | (.scalar .merge _, source) :: r => do
    let brought ← mergeOf source
    let (merged, own) ← entriesOf r
    return (brought ++ merged, own)
  | (key, value) :: r => do
    let k ← match key with
      | .scalar .value text => Except.ok (Value.text (String.ofList text))
      | key => valueOf key
    let v ← valueOf value
    let (merged, own) ← entriesOf r
    return (merged, (k, v) :: own)

/-- The fields that a merge key brings in: of a mapping, or of several, where earlier ones win. -/
def mergeOf : Node → Result (List (Value × Value))
  | .mapping _ pairs => do
    let (merged, own) ← entriesOf pairs
    return merged ++ own
  | .sequence _ items => mergeAll items
  | .scalar _ _ => .error .malformed

/-- The fields of several mappings, the last mapping first. -/
def mergeAll : List Node → Result (List (Value × Value))
  | [] => .ok []
  | .mapping _ pairs :: r => do
    let (merged, own) ← entriesOf pairs
    -- set in this order, the fields of earlier mappings win
    let later ← mergeAll r
    return later ++ merged ++ own
  | _ :: _ => .error .malformed

end

/-- The value of a document; an empty document has the absent value. -/
def read (s : List Char) : Result Value := do
  let tokens ← Token.ofText s
  match ← Node.ofTokens tokens with
  | some node => valueOf node
  | none => return .none

end Overlay.Yaml
