import Overlay.Resource.Basic

/-!
# The resource store

A store keeps resources in the order in which they were added.  Each has an id of its own and a
known kind, and neither of them ever changes.

## Main definitions
- `Store`: the resources
- `Store.add`, `Store.create`, `Store.update`, `Store.remove`: the operations
- `Store.find?`: the resource with an id
- `Store.ofValue`: a store from a list
-/

namespace Overlay

/-- Resources in the order in which they were added. -/
structure Store where
  /-- The resources. -/
  resources : List Fields
  deriving Inhabited

namespace Store

/-! ## Section 1: Looking -/

/-- The store without resources. -/
def empty : Store := ⟨[]⟩

/-- Whether a resource has an id. -/
def hasId (id : Value) (resource : Fields) : Bool :=
  (Fields.get resource "id").same id

/-- The first resource with an id. -/
def find? (store : Store) (id : Value) : Option Fields :=
  store.resources.find? (hasId id)

/-- The number of resources. -/
def size (store : Store) : Nat :=
  store.resources.length

/-- The resources as values. -/
def toValues (store : Store) : List Value :=
  store.resources.map Value.dict

/-! ## Section 2: Adding -/

/-- Whether a resource may be added. -/
def checkNew (store : Store) (resource : Fields) : Result Unit := do
  let kind := Fields.get resource "type"
  if (ResourceKind.ofValue? kind).isNone then refuse (.resourceKind kind)
  let id := Fields.get resource "id"
  if id.isNone then refuse .resourceIdMissing
  if (store.find? id).isSome then refuse (.resourceIdTaken id)
  Resource.checkOpacity (Fields.get resource "opacity")

/-- Adds a resource at the end. -/
def add (resource : Value) : Act Store Fields := do
  match resource with
  | .dict fs =>
    Act.ofResult (checkNew (← get) fs)
    modify fun store => ⟨store.resources ++ [fs]⟩
    return fs
  | _ => throw .notOffered

/-- The words that no attribute of a resource made by the store may have as its name. -/
def reserved : List String := ["self", Resource.kindWord, "key"]

/-- Makes a resource and adds it. -/
def create (kind : Value) (o : Fields) : Act Store Fields := do
  Act.ofResult (Resource.checkNames reserved o)
  let fs ← Resource.createPreset kind o
  add (.dict fs)

/-- Adds resources one after the other. -/
def addAll : List Value → Act Store Unit
  | [] => pure ()
  | v :: r => do
    let _ ← add v
    addAll r

/-- The store that a list of resources makes; anything that counts as false makes an empty one. -/
def ofValue (v : Value) : Act Store Unit := do
  if v.holds then addAll (← Act.ofResult v.items)

/-! ## Section 3: Changing and removing -/

/-- Whether an update would change a field that has to stay. -/
def changes (resource : Fields) (updates : Value) (name : String) : Result Bool := do
  if ← updates.contains name then
    let new ← updates.field name
    let old ← Value.field (.dict resource) name
    return !new.same old
  else return false

/-- A resource after an update: kind and id stay, colors become numbers, the opacity has to be
one. -/
def updated (resource : Fields) (updates : Value) : Result Fields := do
  if ← changes resource updates "type" then refuse .resourceKindFixed
  if ← changes resource updates "id" then refuse .resourceIdFixed
  let merged := Fields.merge resource (← updates.toFields)
  -- the merged resource is checked, not the update alone
  let colored ← Resource.normalizeColors merged
  Resource.checkOpacity (Fields.get colored "opacity")
  return colored

/-- The resources with the first one of an id replaced. -/
def replaceFirst (id : Value) (new : Fields) : List Fields → List Fields
  | [] => []
  | fs :: r => if hasId id fs then new :: r else fs :: replaceFirst id new r

/-- Updates the resource with an id. -/
def update (id updates : Value) : Act Store Fields := do
  match (← get).find? id with
  | none => Act.stop (.resourceUnknown id)
  | some old =>
    let new ← Act.ofResult (updated old updates)
    modify fun store => ⟨replaceFirst id new store.resources⟩
    return new

/-- The resources without the first one of an id. -/
def eraseFirst (id : Value) : List Fields → List Fields
  | [] => []
  | fs :: r => if hasId id fs then r else fs :: eraseFirst id r

/-- Removes the resource with an id; the answer says whether there was one. -/
def remove (id : Value) : Act Store Bool := do
  let store ← get
  set (⟨eraseFirst id store.resources⟩ : Store)
  return (store.find? id).isSome

end Store

end Overlay
