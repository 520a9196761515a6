import Overlay.Fault

/-!
# Script identifiers

In a script a clip is called by an identifier made of the letters and digits of its id.

## Main definitions
- `identifier`: the identifier of a clip
- `identifierOf`: the same for any id, of which some have no text
-/

namespace Overlay

/-- What every identifier of a clip starts with. -/
def identifierMark : List Char := ['o', 'b', 'j', '_']

/-- The characters of the identifier that an id gives rise to. -/
def identifierChars (id : String) : List Char :=
  identifierMark ++ id.toList.filter Char.isAlphanum

/-- The identifier of the clip with an id. -/
def identifier (id : Value) : String :=
  String.ofList (identifierChars id.shown)

/-- The identifier of the clip with an id, if the id has a text. -/
def identifierOf (id : Value) : Result String :=
  if id.hasText then .ok (identifier id) else .error .tooLongToWrite

/-- An id is called by its identifier or not at all. -/
theorem eq_identifier_of_identifierOf {id : Value} {name : String} (h : identifierOf id = .ok name) :
    name = identifier id := by
  unfold identifierOf at h
  split at h
  · exact (Except.ok.inj h).symm
  · cases h

end Overlay
