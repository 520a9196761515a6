import Overlay.Fault
import Overlay.Number.Literal

/-!
# The words of a script line

Reading from the front of a line: identifiers, numbers, texts and mappings.  Spaces and tabs may
stand in front of each of them.

## Main definitions
- `Scanner.identifier`, `Scanner.keyword?`, `Scanner.expect`: single words
- `Scanner.text`: a text between quotes
- `Scanner.value`, `Scanner.mapping`: values
-/

namespace Overlay.Scanner

open Overlay.Text Overlay.Number

/-! ## Section 1: Blanks and single characters -/

/-- Whether a character only separates words. -/
def isSpace (c : Char) : Bool :=
  c = ' ' || c = '\t'

/-- The line without the spaces at its front. -/
def skipSpaces (s : List Char) : List Char :=
  s.dropWhile isSpace

/-- Whether nothing but spaces is left. -/
def atEnd (s : List Char) : Bool :=
  (skipSpaces s).isEmpty

/-- What is left behind a character that has to come next. -/
def expect (c : Char) (s : List Char) : Except Complaint (List Char) :=
  match skipSpaces s with
  | d :: r => if d = c then .ok r else .error (.expectedChar c)
  | [] => .error (.expectedChar c)

/-! ## Section 2: Identifiers -/

/-- Whether a character may start an identifier. -/
def isIdentifierStart (c : Char) : Bool :=
  c.isAlpha || c = '_'

/-- Whether a character may go on with an identifier. -/
def isIdentifierRest (c : Char) : Bool :=
  c.isAlphanum || c = '_'

/-- The identifier at the front of a line. -/
def identifier? (s : List Char) : Option (List Char × List Char) :=
  match s with
  | c :: r => if isIdentifierStart c then some ((c :: r).span isIdentifierRest) else none
  | [] => none

/-- The identifier that has to come next. -/
def identifier (s : List Char) : Except Complaint (String × List Char) :=
  match identifier? (skipSpaces s) with
  | some (name, r) => .ok (String.ofList name, r)
  | none => .error .expectedIdentifier

/-- What is left behind a word, if it comes next. -/
def keyword? (word : String) (s : List Char) : Option (List Char) :=
  match identifier? (skipSpaces s) with
  | some (name, r) => if name = word.toList then some r else none
  | none => none

/-! ## Section 3: Texts -/

/-- The character that an escape stands for. -/
def unescape : Char → Char
  | 'n' => '\n'
  | 'r' => '\r'
  | c => c

/-- The text up to the closing quote. -/
def textBody : List Char → Option (List Char × List Char)
  | [] => none
  | '"' :: r => some ([], r)
  | ['\\'] => none
  | '\\' :: c :: r => (textBody r).map fun t => (unescape c :: t.1, t.2)
  | c :: r => (textBody r).map fun t => (c :: t.1, t.2)

/-- The text behind its opening quote. -/
def text (s : List Char) : Except Complaint (String × List Char) :=
  match textBody s with
  | some (t, r) => .ok (String.ofList t, r)
  | none => .error .unterminatedString

/-! ## Section 4: Numbers -/

/-- The hexadecimal number at the front of a line. -/
def hex? (s : List Char) : Option (Nat × List Char) :=
  match s with
  | '0' :: x :: r =>
    if x = 'x' || x = 'X' then
      let t := r.span fun c => c.isDigit || (0x61 ≤ c.toNat && c.toNat ≤ 0x66)
        || (0x41 ≤ c.toNat && c.toNat ≤ 0x46)
      if t.1.isEmpty then none else some (ofHex t.1, t.2)
    else none
  | _ => none

/-- The exponent at the front of a line; without digits there is none. -/
def exponentPart (s : List Char) : List Char × List Char :=
  match s with
  | e :: r =>
    if e = 'e' || e = 'E' then
      match r with
      | c :: t =>
        if c = '-' || c = '+' then
          let d := spanDigits t
          if d.1.isEmpty then ([], s) else (e :: c :: d.1, d.2)
        else
          let d := spanDigits r
          if d.1.isEmpty then ([], s) else (e :: d.1, d.2)
      | [] => ([], s)
    else ([], s)
  | [] => ([], s)

/-- The digits of a number with an optional point at the front of a line. -/
def pointedDigits (s : List Char) : List Char × List Char :=
  let whole := spanDigits s
  match whole.2 with
  | '.' :: r =>
    let places := spanDigits r
    if whole.1.isEmpty && places.1.isEmpty then ([], s)
    else (whole.1 ++ '.' :: places.1, places.2)
  | r => (whole.1, r)

/-- The number at the front of a line, as it is written. -/
def number? (s : List Char) : Option (List Char × List Char) :=
  let signed := match s with
    | '-' :: r => (['-'], r)
    | r => ([], r)
  let body := pointedDigits signed.2
  if body.1.isEmpty then none
  else
    let e := exponentPart body.2
    some (signed.1 ++ body.1 ++ e.1, e.2)

/-- Whether a written number has neither a point nor an exponent. -/
def isWholeText (s : List Char) : Bool :=
  (splitSign s).2.all isDecimalDigit

/-- The double that a written number stands for. -/
def doubleOf (s : List Char) : Double :=
  ((Scientific.read? s).map Scientific.toDouble).getD .nan

/-- The number that was written: whole numbers in the range of doubles stay exact. -/
def numberOf (s : List Char) : Number :=
  let x := doubleOf s
  -- read as integer, as a double would round numbers of many digits
  if x.isWhole && isWholeText s then
    let signed := splitSign s
    .int (Double.signed signed.1 (ofNumeral signed.2))
  else .float x

/-- Whether a whole number in the range of doubles is written with too many digits to be read. -/
def isTooLong (s : List Char) : Bool :=
  (doubleOf s).isWhole && isWholeText s && maxIntDigits < (splitSign s).2.length

/-- The seconds that were written; a whole number leaves no sign on a zero. -/
def secondsOf (s : List Char) : Double :=
  match numberOf s with
  | .int i => Double.ofInt i
  | .float x => x

/-- A written number with the letter behind it: a percentage stays a text, seconds are a double. -/
def withSuffix (written rest : List Char) : Value × List Char :=
  match rest with
  | '%' :: r => (.text (String.ofList (written ++ ['%'])), r)
  | 's' :: r => (.float (secondsOf written), r)
  | r => (Value.ofNumber (numberOf written), r)

/-- The number that has to come next. -/
def numeric (s : List Char) : Except Complaint (Value × List Char) :=
  match hex? s with
  | some (n, r) => .ok (.int n, r)
  | none => match number? s with
    | some (written, r) =>
      -- the digits are counted whatever letter follows them
      if isTooLong written then .error (.tooLongToRead (splitSign written).2.length)
      else .ok (withSuffix written r)
    | none => .error .expectedValue

/-! ## Section 5: Values -/

mutual

/-- The value that has to come next; each mapping inside of it takes some of the fuel. -/
def valueFrom : Nat → List Char → Except Complaint (Value × List Char)
  | 0, _ => .error .expectedValue
  | fuel + 1, s =>
    match skipSpaces s with
    | '"' :: r => do
      let (t, r) ← text r
      return (.text t, r)
    | '{' :: r => do
      let (fs, r) ← fieldsFrom fuel r
      return (.dict fs, r)
    | r => numeric r

/-- The fields up to the closing brace, behind the opening one. -/
def fieldsFrom : Nat → List Char → Except Complaint (Fields × List Char)
  | 0, _ => .error .expectedCommaOrBrace
  | fuel + 1, s =>
    match skipSpaces s with
    | '}' :: r => .ok ([], r)
    | r => assignmentsFrom fuel [] r

/-- The assignments up to the closing brace, set on top of those before them. -/
def assignmentsFrom : Nat → Fields → List Char → Except Complaint (Fields × List Char)
  | 0, _, _ => .error .expectedCommaOrBrace
  | fuel + 1, acc, s => do
    let (key, r) ← identifier s
    let r ← expect '=' r
    let (v, r) ← valueFrom fuel r
    let acc := Fields.put acc key v
    match skipSpaces r with
    | ',' :: r => assignmentsFrom fuel acc r
    | '}' :: r => return (acc, r)
    | _ => throw .expectedCommaOrBrace

end

/-- Enough fuel for all that can be read from a line. -/
def fuelFor (s : List Char) : Nat :=
  2 * s.length + 2

/-- The value that has to come next. -/
def value (s : List Char) : Except Complaint (Value × List Char) :=
  valueFrom (fuelFor s) s

/-- The mapping that has to come next. -/
def mapping (s : List Char) : Except Complaint (Fields × List Char) := do
  let r ← expect '{' s
  fieldsFrom (fuelFor r) r

end Overlay.Scanner
