import Overlay.Text.Digit
import Overlay.Text.Lines

/-!
# Command line options

Arguments are read from left to right.  Long options may be cut short as long as they stay unique,
short ones may be joined, and the value of an option may stand in the same argument.

## Main definitions
- `OptionNames`: what an option is called
- `parse`: the options of a command line
-/

namespace Overlay.CommandLine

open Overlay.Text

/-! ## Section 1: Options -/

/-- What an option does. -/
inductive Purpose where
  | help
  | yaml
  | output
  | dryRun
  | dumpPlan
  | quiet
  deriving DecidableEq, Repr

/-- Whether an option takes a value. -/
def Purpose.takesValue : Purpose → Bool
  | .yaml => true
  | .output => true
  | _ => false

/-- The names of an option. -/
structure OptionNames where
  /-- The letter behind one hyphen. -/
  letter : Char
  /-- The word behind two hyphens. -/
  word : List Char
  /-- What the option does. -/
  purpose : Purpose
  deriving DecidableEq, Repr

/-- The option that shows how the program is used. -/
def helpOption : OptionNames := ⟨'h', "help".toList, .help⟩

/-- The option that names the project. -/
def yamlOption : OptionNames := ⟨'y', "yaml".toList, .yaml⟩

/-- The option that names the file to write. -/
def outputOption : OptionNames := ⟨'o', "output".toList, .output⟩

/-- The options of the compiler. -/
def compilerOptions : List OptionNames :=
  [helpOption, yamlOption, outputOption, ⟨'n', "dry-run".toList, .dryRun⟩,
    ⟨'p', "dump-plan".toList, .dumpPlan⟩, ⟨'q', "quiet".toList, .quiet⟩]

/-- The options of the exporter. -/
def exporterOptions : List OptionNames := [helpOption, yamlOption, outputOption]

/-- The values of the options on a command line. -/
structure Settings where
  /-- The project. -/
  yaml : Option String
  /-- The file to write. -/
  output : Option String
  /-- Whether nothing is written. -/
  dryRun : Bool
  /-- Whether the plan is printed instead. -/
  dumpPlan : Bool
  /-- Whether notes are kept from being printed. -/
  quiet : Bool
  deriving DecidableEq, Repr, Inhabited

/-- The settings without any options. -/
def Settings.none : Settings := ⟨Option.none, Option.none, false, false, false⟩

/-- The settings after an option without a value. -/
def Settings.flag (s : Settings) : Purpose → Settings
  | .dryRun => { s with dryRun := true }
  | .dumpPlan => { s with dumpPlan := true }
  | .quiet => { s with quiet := true }
  | _ => s

/-- The settings after an option with a value. -/
def Settings.assign (s : Settings) (p : Purpose) (v : List Char) : Settings :=
  match p with
  | .yaml => { s with yaml := some (String.ofList v) }
  | .output => { s with output := some (String.ofList v) }
  | _ => s

/-! ## Section 2: Single arguments -/

/-- What an argument is. -/
inductive Argument where
  /-- A value, or something that belongs to no option. -/
  | plain (text : List Char)
  /-- The mark behind which there are no options. -/
  | divider
  /-- An option written as a word, with a value in the same argument if there is one. -/
  | word (option : OptionNames) (value : Option (List Char))
  /-- An option written as a letter, with what follows in the same argument. -/
  | letter (option : OptionNames) (rest : List Char)
  /-- Something that looks like an option and is none. -/
  | unknown
  /-- A word cut so short that it may be one of several options. -/
  | ambiguous
  deriving DecidableEq, Repr

/-- What stands before and behind the first equals sign. -/
def splitValue (s : List Char) : List Char × Option (List Char) :=
  match s.span (· ≠ '=') with
  | (name, _ :: v) => (name, some v)
  | (name, []) => (name, none)

/-- Whether a text is a number without a sign. -/
def isNumber (s : List Char) : Bool :=
  match pieces '.' s with
  | [whole] => !whole.isEmpty && whole.all isDecimalDigit
  | [whole, places] =>
    whole.all isDecimalDigit && !places.isEmpty && places.all isDecimalDigit
  | _ => false

/-- What looks like an option and is none; with a space in it, or as a number below zero, it is a
value. -/
def ofStray (text : List Char) : Argument :=
  if isNumber text.tail || text.contains ' ' then .plain text else .unknown

/-- What an argument is. -/
def Argument.ofText (options : List OptionNames) (text : List Char) : Argument :=
  match text with
  | ['-', '-'] => .divider
  | '-' :: '-' :: rest =>
    let (name, value) := splitValue rest
    match options.find? (·.word = rest), options.find? (·.word = name) with
    | some o, _ => .word o none
    | none, some o => .word o value
    | none, none => match options.filter fun o => name.isPrefixOf o.word with
      | [o] => .word o value
      | [] => ofStray text
      | _ => .ambiguous
  | ['-'] => .plain text
  | '-' :: c :: rest =>
    match options.find? (·.letter = c) with
    | some o => .letter o rest
    | none => ofStray text
  | _ => .plain text

/-! ## Section 3: Command lines -/

/-- How reading a command line ends. -/
inductive Outcome where
  /-- The options are in order. -/
  | settings (s : Settings)
  /-- The program shows how it is used. -/
  | help
  /-- The command line makes no sense. -/
  | misuse
  deriving DecidableEq, Repr

/-- What one argument asks for. -/
structure Request where
  /-- The options in their order, with their values. -/
  given : List (Purpose × Option (List Char))
  /-- The option whose value has to be the next argument. -/
  waiting : Option Purpose
  /-- Whether a part of the argument belongs to no option. -/
  stray : Bool
  deriving DecidableEq, Repr

/-- What an option asks for, with its value if it comes in the same argument; only options that
take a value may have one. -/
def Request.ofOption? (p : Purpose) : Option (List Char) → Option Request
  | none => some (if p.takesValue then ⟨[], some p, false⟩ else ⟨[(p, none)], none, false⟩)
  | some v => if p.takesValue then some ⟨[(p, some v)], none, false⟩ else none

/-- What an option written as a letter asks for, together with what follows in the same argument: a
value, or more letters. -/
def Request.ofLetters? (options : List OptionNames) (p : Purpose) : List Char → Option Request
  | [] => ofOption? p none
  | '=' :: v => ofOption? p (some v)
  | c :: r =>
    if p.takesValue then ofOption? p (some (c :: r))
    else if c = '-' then none
    else match options.find? (·.letter = c) with
      | none => some ⟨[(p, none)], none, true⟩
      | some o => (ofLetters? options o.purpose r).map fun q =>
        { q with given := (p, none) :: q.given }

/-- What an argument asks for, if it makes sense. -/
def Request.ofArgument? (options : List OptionNames) : Argument → Option Request
  | .word o value => ofOption? o.purpose value
  | .letter o rest => ofLetters? options o.purpose rest
  | .ambiguous => none
  | _ => some ⟨[], none, true⟩

/-- The settings after some options; help comes before all that follows it. -/
def Settings.grant (s : Settings) : List (Purpose × Option (List Char)) → Except Outcome Settings
  | [] => .ok s
  | (p, value) :: r =>
    if p = .help then .error .help
    else match value with
      | some v => (s.assign p v).grant r
      | .none => (s.flag p).grant r

/-- Reads arguments one after the other; `strays` says whether something belonged to no option. -/
def readAll (options : List OptionNames) (s : Settings) (strays : Bool) :
    List Argument → Except Outcome (Settings × Bool)
  | [] => .ok (s, strays)
  | a :: r =>
    match Request.ofArgument? options a with
    | none => .error .misuse
    | some q =>
      match q.waiting, r with
      | none, r => do readAll options (← s.grant q.given) (strays || q.stray) r
      | some p, .plain v :: r => do
        readAll options (← s.grant (q.given ++ [(p, some v)])) (strays || q.stray) r
      | some _, _ => .error .misuse

/-- The arguments, of which those behind a divider are plain. -/
def classify (options : List OptionNames) : List (List Char) → List Argument
  | [] => []
  | a :: r => match Argument.ofText options a with
    | .divider => .divider :: r.map Argument.plain
    | x => x :: classify options r

/-- The options of a command line; a project has to be named. -/
def parse (options : List OptionNames) (arguments : List String) : Outcome :=
  let as := classify options (arguments.map String.toList)
  -- an ambiguous word is found before anything else is done
  if as.contains .ambiguous then .misuse
  else match readAll options .none false as with
    | .error e => e
    | .ok (s, strays) => if strays || s.yaml.isNone then .misuse else .settings s

end Overlay.CommandLine
