import Overlay.Number.Basic

/-!
# Data values

Projects, resources, clips and animations are described by free-form data: scalars, lists, fixed
rows and mappings with an order.  This module holds the type of such values, their equality, and
mappings as lists of fields.

Two values are equal when they show the same content: numbers by their place on the line whatever
their kind (truth values count as 0 and 1), lists item by item, mappings by key.

## Main definitions
- `Value`: the data values
- `Value.same`: equality of content
- `Value.holds`: whether a value counts as true
- `Fields`: mappings, with `Fields.get?`, `Fields.put` and `Fields.merge`
-/

namespace Overlay

/-! ## Section 1: Values -/

/-- A day of the calendar. -/
structure Date where
  /-- The year. -/
  year : Nat
  /-- The month, from 1. -/
  month : Nat
  /-- The day of the month, from 1. -/
  day : Nat
  deriving DecidableEq, Repr, Inhabited

/-- A piece of data. -/
inductive Value where
  | none
  | bool (b : Bool)
  | int (i : Int)
  | float (x : Double)
  | text (s : String)
  | date (d : Date)
  | list (items : List Value)
  | tuple (items : List Value)
  | dict (entries : List (Value × Value))
  deriving Inhabited

/-- A mapping: fields in the order in which their keys were first set. -/
abbrev Fields := List (Value × Value)

namespace Value

/-- The number that a value counts as in arithmetic and comparison; truth values count as 0
and 1. -/
def number? : Value → Option Number
  | .bool b => some (.int (if b then 1 else 0))
  | .int i => some (.int i)
  | .float x => some (.float x)
  | _ => .none

/-- The number that a value is; truth values are none. -/
def plainNumber? : Value → Option Number
  | .int i => some (.int i)
  | .float x => some (.float x)
  | _ => .none

/-- A number as a value. -/
def ofNumber : Number → Value
  | .int i => .int i
  | .float x => .float x

/-- Whether a value is absent. -/
def isNone : Value → Bool
  | .none => true
  | _ => false

/-- Whether a value counts as true. -/
def holds : Value → Bool
  | .none => false
  | .bool b => b
  | .int i => i != 0
  | .float x => !(x.same Double.zero)
  | .text s => !s.isEmpty
  | .date _ => true
  | .list items => !items.isEmpty
  | .tuple items => !items.isEmpty
  | .dict entries => !entries.isEmpty

/-! ## Section 2: Equality -/

/-- Whether two scalars that are not containers are equal. -/
def sameScalar (a b : Value) : Bool :=
  match a, b with
  | .none, .none => true
  | .text s, .text t => s == t
  | .date d, .date e => d == e
  | a, b => match a.number?, b.number? with
    | some m, some n => m.same n
    | _, _ => false

mutual

/-- Whether two values have the same content. -/
def same : Value → Value → Bool
  | .list xs, b => match b with
    | .list ys => sameItems xs ys
    | _ => false
  | .tuple xs, b => match b with
    | .tuple ys => sameItems xs ys
    | _ => false
  | .dict xs, b => match b with
    | .dict ys => xs.length == ys.length && sameEntries xs ys
    | _ => false
  | a, b => sameScalar a b

/-- Whether two lists have the same content, item by item. -/
def sameItems : List Value → List Value → Bool
  | [], ys => ys.isEmpty
  | x :: xs, ys => match ys with
    | [] => false
    | y :: ys => same x y && sameItems xs ys

/-- Whether each of the entries is found in a mapping. -/
def sameEntries : List (Value × Value) → List (Value × Value) → Bool
  | [], _ => true
  | (k, v) :: xs, ys =>
    (match ys.find? fun e => same k e.1 with
      | some e => same v e.2
      | .none => false) && sameEntries xs ys

end

/-! ## Section 3: Keys -/

mutual

/-- Whether a value may be the key of a mapping: lists and mappings may not. -/
def isKey : Value → Bool
  | .list _ => false
  | .dict _ => false
  | .tuple items => areKeys items
  | _ => true

/-- Whether all of the values may be keys. -/
def areKeys : List Value → Bool
  | [] => true
  | v :: r => isKey v && areKeys r

end

end Value

/-! ## Section 4: Mappings -/

namespace Fields

/-- The value of a key. -/
def find? (fs : Fields) (key : Value) : Option Value :=
  (List.find? (fun e => e.1.same key) fs).map (·.2)

/-- The value of a key that is a text. -/
def get? (fs : Fields) (name : String) : Option Value :=
  find? fs (.text name)

/-- The value of a key that is a text, absent where the key is missing. -/
def get (fs : Fields) (name : String) : Value :=
  (get? fs name).getD .none

/-- Whether a key is present. -/
def has (fs : Fields) (name : String) : Bool :=
  (get? fs name).isSome

/-- The mapping with a key set; a present key keeps its place. -/
def insert (fs : Fields) (key value : Value) : Fields :=
  match fs with
  | [] => [(key, value)]
  | e :: r => if e.1.same key then (e.1, value) :: r else e :: insert r key value

/-- The mapping with a key that is a text set. -/
def put (fs : Fields) (name : String) (value : Value) : Fields :=
  insert fs (.text name) value

/-- The mapping with the fields of another one set in their order. -/
def merge (fs updates : Fields) : Fields :=
  updates.foldl (fun acc e => insert acc e.1 e.2) fs

/-- The mapping without a key that is a text. -/
def without (fs : Fields) (name : String) : Fields :=
  fs.filter fun e => !e.1.same (.text name)

end Fields

end Overlay
