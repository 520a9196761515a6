import Overlay.Value.Render

/-!
# Faults

What can go wrong, and the words it is reported with.  A `Cause` is a rule of this library that was
broken, with its message.  A `Fault` is a cause, or a mismatch in free-form data that no rule
speaks of, or trouble with a file, or trouble inside of an engine.

## Main definitions
- `Complaint`: what is wrong with a line of a script
- `Cause`, `Cause.message`: the broken rules and their messages
- `Fault`, `Fault.report`: all faults and the text they are shown with
- `Cause.fault`, `Complaint.fault`: the faults that broken rules come to
- `Value.toText`: the text of a value, as far as it has one
-/

namespace Overlay

/-! ## Section 1: Scripts -/

/-- What is told of an integer with too many digits, with more about it. -/
def digitLimitText (more : String) : String :=
  "Exceeds the limit (" ++ Number.intText Number.maxIntDigits
    ++ " digits) for integer string conversion" ++ more
    ++ "; use sys.set_int_max_str_digits() to increase the limit"

/-- What is told of an integer that has too many digits to be read. -/
def tooLongToReadText (digits : Nat) : String :=
  digitLimitText (": value has " ++ Number.intText digits ++ " digits")

/-- What is wrong with a line of a script. -/
inductive Complaint where
  | expectedChar (c : Char)
  | expectedIdentifier
  | expectedValue
  | unterminatedString
  | expectedCommaOrBrace
  | expectedSet
  | durationNotInSeconds
  | textAfterSet
  | textAfterBlock
  | textAfterAttribute
  | textAfterOpening
  | unknownKind (word : String)
  | declaredTwice (name : String)
  | notDeclared (name : String)
  | blankLine
  /-- A whole number is written with so many digits that it is not read; no rule of scripts speaks
  of that. -/
  | tooLongToRead (digits : Nat)
  deriving DecidableEq, Repr

/-- The words of a complaint. -/
def Complaint.message : Complaint → String
  | .expectedChar c => "expected '" ++ c.toString ++ "'"
  | .expectedIdentifier => "expected identifier"
  | .expectedValue => "expected a value"
  | .unterminatedString => "unterminated string"
  | .expectedCommaOrBrace => "expected ',' or '\x7d'"
  | .expectedSet => "expected 'set'"
  | .durationNotInSeconds => "set duration must be given in seconds"
  | .textAfterSet => "unexpected text after set statement"
  | .textAfterBlock => "unexpected text after '\x7d'"
  | .textAfterAttribute => "unexpected text after attribute"
  | .textAfterOpening => "unexpected text after '\x7b'"
  | .unknownKind word => "unknown def kind: " ++ word
  | .declaredTwice name => "duplicate def: " ++ name
  | .notDeclared name => "set before def: " ++ name
  | .blankLine => "blank lines are not permitted"
  | .tooLongToRead digits => tooLongToReadText digits

/-! ## Section 2: Causes -/

/-- A broken rule of the library. -/
inductive Cause where
  | timeMissing (label : String)
  | timeKind (label : String)
  | timeText (label : String) (value : Value)
  | notNumber (label : String)
  | negativeNumber (label : String)
  | colorKind
  | color (value : Value)
  | opacityKind
  | opacityRange
  | resourceKind (value : Value)
  | resourceIdMissing
  | resourceIdTaken (id : Value)
  | resourceUnknown (id : Value)
  | resourceKindFixed
  | resourceIdFixed
  | segmentKind (value : Value)
  | segmentProperties
  | segmentUnsupported (value : Value)
  | trackIdTaken (id : Value)
  | trackUnknown (id : Value)
  | clipIdTaken (id : Value)
  | identifierTaken (id other : Value) (identifier : String)
  | clipStart
  | clipUnknown (id : Value)
  | clipFieldFixed (field : String)
  | animationUnknown (id : Value)
  | tracksKind
  | resourceSource
  | scriptLine (line : Nat) (complaint : Complaint)
  | unterminatedBlock (name : String)
  | clockRunning
  | engineAbsent
  | engineBuild (reason : String)
  | fileTooLarge
  | projectKind
  | projectVersion
  | projectKey (key : String)
  | resourcesKind
  | resourceEntry (index : Nat)
  | resourceEntryKind (index : Nat)
  | resourceEntryId (index : Nat)
  | timelineKind
  | trackListKind
  | trackEntry (index : Nat)
  | clipListKind (track : String)
  | clipEntry (track : String)
  | clipResource (track : String)
  | animationListKind (clip : String)
  | animationEntry (clip : String)
  | playbackKind
  | outputKind
  | outputMissing
  deriving Inhabited

/-- A number in a message. -/
def Cause.number (n : Nat) : String :=
  Number.intText n

/-- The message of a broken rule. -/
def Cause.message : Cause → String
  | .timeMissing label => label ++ " is required"
  | .timeKind label => label ++ " must be int, float, or timecode string"
  | .timeText label value => label ++ " is not a valid time: " ++ value.quoted
  | .notNumber label => label ++ " must be a number"
  | .negativeNumber label => label ++ " must be non-negative"
  | .colorKind => "invalid color value"
  | .color value => "invalid color value: " ++ value.shown
  | .opacityKind => "opacity must be a number"
  | .opacityRange => "opacity must be between 0 and 1"
  | .resourceKind value => "unsupported danmu type: " ++ value.shown
  | .resourceIdMissing => "resource id is required"
  | .resourceIdTaken id => "resource id already exists: " ++ id.shown
  | .resourceUnknown id => "resource not found: " ++ id.shown
  | .resourceKindFixed => "resource type cannot change"
  | .resourceIdFixed => "resource id cannot change"
  | .segmentKind value => "animation type must be set or then: " ++ value.shown
  | .segmentProperties => "animation properties must be a mapping"
  | .segmentUnsupported value => "unsupported animation type: " ++ value.shown
  | .trackIdTaken id => "track id already exists: " ++ id.shown
  | .trackUnknown id => "track not found: " ++ id.shown
  | .clipIdTaken id => "clip id already exists: " ++ id.shown
  | .identifierTaken id other identifier =>
    "clip id " ++ id.shown ++ " collides with " ++ other.shown ++ " as " ++ identifier
  | .clipStart => "clip start must be a number"
  | .clipUnknown id => "clip not found: " ++ id.shown
  | .clipFieldFixed field => "clip " ++ field ++ " cannot be changed with update_clip"
  | .animationUnknown id => "animation not found: " ++ id.shown
  | .tracksKind => "tracks must be a list"
  | .resourceSource => "resources must be a list or provide find_resource_by_id"
  | .scriptLine line complaint => "line " ++ number line ++ ": " ++ complaint.message
  | .unterminatedBlock name => "unterminated def block: " ++ name
  | .clockRunning => "clock.set() requires a paused clock; use seek()"
  | .engineAbsent => "rendering engine not found; cannot initialize playback"
  | .engineBuild reason => "rendering engine failed to initialize: " ++ reason
  | .fileTooLarge => "yaml file is larger than 10MB"
  | .projectKind => "danmu yaml must be a mapping at the top level"
  | .projectVersion => "danmu must be set to 1"
  | .projectKey key => "missing required key: " ++ key
  | .resourcesKind => "resources must be a list"
  | .resourceEntry index => "resources entry " ++ number index ++ " must be a mapping"
  | .resourceEntryKind index => "resources entry " ++ number index ++ " requires type"
  | .resourceEntryId index => "resources entry " ++ number index ++ " requires id"
  | .timelineKind => "timeline must be a mapping"
  | .trackListKind => "timeline.tracks must be a list"
  | .trackEntry index => "timeline.tracks entry " ++ number index ++ " must be a mapping"
  | .clipListKind track => "track " ++ track ++ " clips must be a list"
  | .clipEntry track => "track " ++ track ++ " clips entries must be mappings"
  | .clipResource track => "track " ++ track ++ " clip requires resource"
  | .animationListKind clip => "clip " ++ clip ++ " animations must be a list"
  | .animationEntry clip => "clip " ++ clip ++ " animations entries must be mappings"
  | .playbackKind => "playback must be a mapping"
  | .outputKind => "output must be a mapping"
  | .outputMissing => "output.file is required to write a script"

/-- The values that a message shows. -/
def Cause.values : Cause → List Value
  | .timeText _ value => [value]
  | .color value => [value]
  | .resourceKind value => [value]
  | .resourceIdTaken id => [id]
  | .resourceUnknown id => [id]
  | .segmentKind value => [value]
  | .segmentUnsupported value => [value]
  | .trackIdTaken id => [id]
  | .trackUnknown id => [id]
  | .clipIdTaken id => [id]
  | .identifierTaken id other _ => [id, other]
  | .clipUnknown id => [id]
  | .animationUnknown id => [id]
  | _ => []

/-- Whether a message can be made: each value that it shows has a text. -/
def Cause.isTellable (c : Cause) : Bool :=
  c.values.all Value.hasText

/-! ## Section 3: Faults -/

/-- What is wrong with a file that was to be read or written. -/
inductive FileProblem where
  | missing
  | isDirectory
  | notDirectory
  | alreadyThere
  | notText
  deriving DecidableEq, Repr

/-- Why an operation came to nothing. -/
inductive Fault where
  /-- A rule of the library was broken. -/
  | refused (cause : Cause)
  /-- A value is of a kind that the operation has no meaning for. -/
  | wrongKind
  /-- A value is of the right kind and has no meaning all the same. -/
  | badValue
  /-- A number does not fit into a double, or a decimal sum lies out of range. -/
  | tooLarge
  /-- An integer in a text has so many digits that it is not read. -/
  | tooLongToRead (digits : Nat)
  /-- An integer has so many digits that it is not written. -/
  | tooLongToWrite
  /-- A value does not offer what is asked of it. -/
  | notOffered
  /-- A mapping lacks a key. -/
  | keyMissing
  /-- A file cannot be read or written. -/
  | file (path : String) (problem : FileProblem)
  /-- A document is not well formed. -/
  | malformed
  /-- An engine gave up, in its own words. -/
  | engine (reason : String)
  deriving Inhabited

/-- The text that a fault is shown with. -/
def Fault.report : Fault → String
  | .refused cause => cause.message
  | .wrongKind => "unsupported kind of value"
  | .badValue => "invalid value"
  | .tooLarge => "number too large"
  | .tooLongToRead digits => tooLongToReadText digits
  | .tooLongToWrite => digitLimitText ""
  | .notOffered => "value does not offer this operation"
  | .keyMissing => "missing key"
  | .file path .missing => "[Errno 2] No such file or directory: " ++ Text.quoted path
  | .file path .alreadyThere => "[Errno 17] File exists: " ++ Text.quoted path
  | .file path .notDirectory => "[Errno 20] Not a directory: " ++ Text.quoted path
  | .file path .isDirectory => "[Errno 21] Is a directory: " ++ Text.quoted path
  | .file _ .notText => "file is not UTF-8 text"
  | .malformed => "malformed document"
  | .engine reason => reason

/-- An answer or a fault. -/
abbrev Result := Except Fault

/-- The fault that a broken rule comes to: the rule with its message, if the message can be made. -/
def Cause.fault (c : Cause) : Fault :=
  if c.isTellable then .refused c else .tooLongToWrite

/-- The fault that a complaint about a line comes to. -/
def Complaint.fault (line : Nat) : Complaint → Fault
  | .tooLongToRead digits => .tooLongToRead digits
  | complaint => .refused (.scriptLine line complaint)

/-- The answer of an operation whose rule was broken. -/
def refuse {α : Type} (cause : Cause) : Result α :=
  .error cause.fault

/-- The text of a value. -/
def Value.toText (v : Value) : Result String :=
  if v.hasText then .ok v.shown else .error .tooLongToWrite

/-- An answer that may be absent, with the fault that its absence is. -/
def orFault {α : Type} (fault : Fault) : Option α → Result α
  | some a => .ok a
  | .none => .error fault

end Overlay
