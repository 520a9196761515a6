import Overlay.Fault
import Overlay.Number.Literal

/-!
# Working with free-form data

Operations that have a meaning for some kinds of values only.  Each answers with the fault that
says what the value lacks.

## Main definitions
- `Value.look`, `Value.field`: reading a mapping by key
- `Value.items`: walking through a value
- `Value.plus`, `Value.lessThan`: numbers, and what else can be put together
- `Value.toFields`: a value as a mapping
-/

namespace Overlay.Value

/-! ## Section 1: Reading by key -/

/-- The value of a key in a mapping, with a default where the key is missing; values that are not
mappings offer no such look-up. -/
def look (v : Value) (name : String) (default : Value) : Result Value :=
  match v with
  | .dict fs => .ok ((Fields.get? fs name).getD default)
  | _ => .error .notOffered

/-- The value of a key that has to be present. -/
def field (v : Value) (name : String) : Result Value :=
  match v with
  | .dict fs => orFault .keyMissing (Fields.get? fs name)
  | _ => .error .wrongKind

/-- Whether a text contains another one. -/
def containsText (whole part : List Char) : Bool :=
  match whole with
  | [] => part.isEmpty
  | c :: r => part.isPrefixOf (c :: r) || containsText r part

/-- Whether a value contains a text: as a key, as an item, or as a part. -/
def contains (v : Value) (name : String) : Result Bool :=
  match v with
  | .dict fs => .ok (Fields.has fs name)
  | .list items => .ok (items.any fun item => item.same (.text name))
  | .tuple items => .ok (items.any fun item => item.same (.text name))
  | .text s => .ok (containsText s.toList name.toList)
  | _ => .error .wrongKind

/-! ## Section 2: Walking -/

/-- The items of a value: of a list, the characters of a text, the keys of a mapping. -/
def items : Value → Result (List Value)
  | .list vs => .ok vs
  | .tuple vs => .ok vs
  | .text s => .ok (s.toList.map fun c => .text c.toString)
  | .dict fs => .ok (fs.map (·.1))
  | _ => .error .wrongKind

/-- The number of items of a value. -/
def count (v : Value) : Result Nat :=
  (items v).map List.length

/-- The items of a value that can grow and shrink: of a list. -/
def listed (v : Value) : Result (List Value) :=
  match v with
  | .list items => .ok items
  | _ => .error .notOffered

/-- A value with one of its items changed; only lists and rows hold items that can be. -/
def setItem (v : Value) (place : Nat) (item : Value) : Value :=
  match v with
  | .list items => .list (items.set place item)
  | .tuple items => .tuple (items.set place item)
  | v => v

/-- Two items as a field. -/
def pairOf (v : Value) : Result (Value × Value) :=
  match items v with
  | .error fault => .error fault
  | .ok [k, w] => if k.isKey then .ok (k, w) else .error .wrongKind
  | .ok _ => .error .badValue

/-- The fields that a list of pairs describes, set in their order. -/
def fieldsOfPairs (acc : Fields) : List Value → Result Fields
  | [] => .ok acc
  | v :: r => match pairOf v with
    | .ok e => fieldsOfPairs (Fields.insert acc e.1 e.2) r
    | .error fault => .error fault

/-- A value as a mapping: one already, or pairs of keys and values. -/
def toFields (v : Value) : Result Fields :=
  match v with
  | .dict fs => .ok fs
  | _ => items v >>= fieldsOfPairs []

/-! ## Section 3: Numbers -/

/-- The number that a value counts as. -/
def toNumber (v : Value) : Result Number :=
  orFault .wrongKind v.number?

/-- Whether a number lies before another one. -/
def lessThan (a b : Value) : Result Bool := do
  let m ← a.toNumber
  let n ← b.toNumber
  return m.lt n

/-- The sum of two numbers, or one text, list or row behind another. -/
def plus (a b : Value) : Result Value :=
  match a, b with
  | .text s, .text t => .ok (.text (s ++ t))
  | .list xs, .list ys => .ok (.list (xs ++ ys))
  | .tuple xs, .tuple ys => .ok (.tuple (xs ++ ys))
  | a, b => do
    let m ← a.toNumber
    let n ← b.toNumber
    return ofNumber (← orFault .tooLarge (m.add? n))

/-- The larger of zero and a value; zero itself where the value does not lie above it. -/
def atLeastZero (v : Value) : Result Value := do
  return if ← lessThan (.int 0) v then v else .int 0

/-- The smaller of two values; the first where the second does not lie below it. -/
def smaller (a b : Value) : Result Value := do
  return if ← lessThan b a then b else a

/-- The double that a value stands for: of a number the nearest one, of a text the one it shows. -/
def toDouble (v : Value) : Result Double :=
  match v with
  | .text s => orFault .badValue (Number.readDouble? s)
  | v => do
    let n ← v.toNumber
    orFault .tooLarge n.toDouble?

/-- The integer that a value stands for: of a double its whole part, of a text the one it shows. -/
def toInt (v : Value) : Result Int :=
  match v with
  | .text s => orFault .badValue (Number.readInt? s)
  | .float .nan => .error .badValue
  | .float (.infinite _) => .error .tooLarge
  | .float x => .ok x.truncate
  | v => do
    match ← v.toNumber with
    | .int i => return i
    | .float x => return x.truncate

end Overlay.Value
