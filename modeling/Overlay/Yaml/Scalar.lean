import Overlay.Number.Literal
import Overlay.Fault
import Overlay.Text.Lines

/-!
# Plain scalars

A scalar that is written without quotes stands for what it looks like: the absent value, a truth
value, a number, a day, or else a text.

## Main definitions
- `Tag`: the kinds of nodes
- `Tag.ofPlain`: what a plain scalar looks like
- `readScalar`: the value of a scalar of a kind
-/

namespace Overlay.Yaml

open Overlay.Text Overlay.Number

/-! ## Section 1: Kinds -/

/-- The kinds of nodes. -/
inductive Tag where
  | null
  | bool
  | int
  | float
  | str
  | timestamp
  | merge
  | value
  | seq
  | map
  | unknown
  deriving DecidableEq, Repr, Inhabited

/-- The kind with a name. -/
def Tag.ofName (s : List Char) : Tag :=
  match String.ofList s with
  | "null" => .null
  | "bool" => .bool
  | "int" => .int
  | "float" => .float
  | "str" => .str
  | "timestamp" => .timestamp
  | "merge" => .merge
  | "value" => .value
  | "seq" => .seq
  | "map" => .map
  | _ => .unknown

/-! ## Section 2: What scalars look like -/

/-- The words for the absent value. -/
def nullWords : List String := ["", "~", "null", "Null", "NULL"]

/-- The words for truth. -/
def trueWords : List String := ["yes", "Yes", "YES", "true", "True", "TRUE", "on", "On", "ON"]

/-- The words for falsehood. -/
def falseWords : List String := ["no", "No", "NO", "false", "False", "FALSE", "off", "Off", "OFF"]

/-- The words for infinity. -/
def infinityWords : List String := [".inf", ".Inf", ".INF"]

/-- The words for not-a-number. -/
def nanWords : List String := [".nan", ".NaN", ".NAN"]

/-- Whether a character is a digit or a low line. -/
def isDigitMark (c : Char) : Bool :=
  c.isDigit || c = '_'

/-- A text without its sign. -/
def unsigned : List Char → List Char
  | '-' :: r => r
  | '+' :: r => r
  | s => s

/-- Whether a text is a row of digits and low lines that starts with a digit. -/
def isDigitRow : List Char → Bool
  | c :: r => c.isDigit && r.all isDigitMark
  | [] => false

/-- Whether a text is a number below sixty with at most two digits. -/
def isSixtieth : List Char → Bool
  | [a] => a.isDigit
  | [a, b] => '0' ≤ a && a ≤ '5' && b.isDigit
  | _ => false

/-- Whether a text is an exponent with a sign, or empty. -/
def isExponent : List Char → Bool
  | [] => true
  | e :: s :: r => (e = 'e' || e = 'E') && (s = '-' || s = '+') && !r.isEmpty && r.all Char.isDigit
  | _ => false

/-- Whether a text looks like an integer. -/
def looksInt (s : List Char) : Bool :=
  match unsigned s with
  | '0' :: 'b' :: r => !r.isEmpty && r.all fun c => c = '0' || c = '1' || c = '_'
  | '0' :: 'x' :: r =>
    !r.isEmpty && r.all fun c => (hexValue? c).isSome && c.toNat < 0x80 || c = '_'
  | '0' :: r => r.all fun c => ('0' ≤ c && c ≤ '7') || c = '_'
  | s => match pieces ':' s with
    | [whole] => isDigitRow whole
    | whole :: parts => isDigitRow whole && parts.all isSixtieth
    | [] => false

/-- Whether a text looks like a double with digits. -/
def looksDecimal (s : List Char) : Bool :=
  let body := unsigned s
  let whole := body.takeWhile isDigitMark
  match body.drop whole.length with
  | '.' :: r =>
    let places := r.takeWhile isDigitMark
    isExponent (r.drop places.length)
      && (isDigitRow whole || (whole.isEmpty && body.length = s.length && isDigitRow places))
  | _ => false

/-- Whether a text looks like a double in base sixty. -/
def looksSixty (s : List Char) : Bool :=
  match pieces ':' (unsigned s) with
  | whole :: parts => match parts.reverse with
    | last :: middle =>
      let units := last.takeWhile (· ≠ '.')
      isDigitRow whole && middle.all isSixtieth && isSixtieth units
        && (match last.drop units.length with
          | '.' :: places => places.all isDigitMark
          | _ => false)
    | [] => false
  | [] => false

/-- Whether a text looks like a double. -/
def looksFloat (s : List Char) : Bool :=
  looksDecimal s || looksSixty s || infinityWords.contains (String.ofList (unsigned s))
    || nanWords.contains (String.ofList s)

/-- The numbers of a text that looks like a day. -/
def dayParts? (s : List Char) : Option Date :=
  match pieces '-' s with
  | [y, m, d] =>
    if y.length = 4 && m.length = 2 && d.length = 2 && (y ++ m ++ d).all Char.isDigit then
      some ⟨ofNumeral y, ofNumeral m, ofNumeral d⟩
    else none
  | _ => none

/-- Whether a text is one or two digits. -/
def isOneOrTwoDigits (s : List Char) : Bool :=
  (s.length = 1 || s.length = 2) && s.all Char.isDigit

/-- Whether a text looks like a difference from universal time. -/
def looksZone (s : List Char) : Bool :=
  match s.dropWhile fun c => c = ' ' || c = '\t' with
  | [] => s.isEmpty
  | ['Z'] => true
  | c :: r => (c = '-' || c = '+') && (match pieces ':' r with
    | [h] => isOneOrTwoDigits h
    | [h, m] => isOneOrTwoDigits h && m.length = 2 && m.all Char.isDigit
    | _ => false)

/-- Whether a text looks like a time of day, with a difference from universal time. -/
def looksClock (s : List Char) : Bool :=
  match pieces ':' (s.take 8) with
  | h :: _ =>
    let r := s.drop h.length
    match r with
    | ':' :: m1 :: m2 :: ':' :: s1 :: s2 :: r =>
      let places := match r with
        | '.' :: t => t.dropWhile Char.isDigit
        | t => t
      isOneOrTwoDigits h && [m1, m2, s1, s2].all Char.isDigit && looksZone places
    | _ => false
  | [] => false

/-- Whether a text looks like a moment: a day and a time of day. -/
def looksMoment (s : List Char) : Bool :=
  let day := s.takeWhile fun c => c.isDigit || c = '-'
  let rest := s.drop day.length
  let clock := match rest with
    | 'T' :: r => r
    | 't' :: r => r
    | r =>
      let t := r.dropWhile fun c => c = ' ' || c = '\t'
      if t.length < r.length then t else []
  (match pieces '-' day with
    | [y, m, d] => y.length = 4 && y.all Char.isDigit && isOneOrTwoDigits m && isOneOrTwoDigits d
    | _ => false) && looksClock clock

/-- What a plain scalar looks like. -/
def Tag.ofPlain (s : List Char) : Tag :=
  let word := String.ofList s
  if trueWords.contains word || falseWords.contains word then .bool
  else if looksFloat s then .float
  else if looksInt s then .int
  else if word = "<<" then .merge
  else if nullWords.contains word then .null
  else if (dayParts? s).isSome || looksMoment s then .timestamp
  else if word = "=" then .value
  else .str

/-! ## Section 3: Values of scalars -/

/-- The digits of a base, without low lines, as a number. -/
def ofDigits? (base : Nat) (s : List Char) : Option Nat :=
  if s.isEmpty then none
  else s.foldl (fun acc c => do
    let n ← acc
    let d ← hexValue? c
    if d < base then some (n * base + d) else none) (some 0)

/-- The number of a decimal part of a scalar; the other bases have no limit. -/
def readDecimal (part : List Char) : Result Nat :=
  if maxIntDigits < part.length then .error (.tooLongToRead part.length)
  else orFault .badValue (ofDigits? 10 part)

/-- The integer of a scalar. -/
def readInt (s : List Char) : Result Int := do
  let bare := s.filter (· ≠ '_')
  let negative := bare.head? = some '-'
  let body := unsigned bare
  let n ← match body with
    | '0' :: 'b' :: r => orFault .badValue (ofDigits? 2 r)
    | '0' :: 'x' :: r => orFault .badValue (ofDigits? 16 r)
    | '0' :: r => orFault .badValue (ofDigits? 8 ('0' :: r))
    | s => (pieces ':' s).foldlM (fun n part => do return n * 60 + (← readDecimal part)) 0
  return if negative then -(n : Int) else n

/-- The parts of a number in base sixty, last one first, put together. -/
def sumSixty (total : Double) (base : Nat) : List Double → Double
  | [] => total
  | x :: r => sumSixty (total.add (x.mul (Double.ofNat base))) (base * 60) r

/-- The double of a scalar. -/
def readFloat (s : List Char) : Result Double := do
  let bare := lowered (s.filter (· ≠ '_'))
  let negative := bare.head? = some '-'
  let body := unsigned bare
  let word := String.ofList body
  let sign (x : Double) : Double := if negative then x.neg else x
  if word = ".inf" then return .infinite negative
  else if word = ".nan" then return .nan
  else
    let parts ← orFault .badValue
      ((pieces ':' body).mapM fun p => readDouble? (String.ofList p))
    match parts with
    | [x] => return sign x
    | parts => return sign (sumSixty Double.zero 1 parts.reverse)

/-- The days of a month. -/
def daysIn (year month : Nat) : Nat :=
  if month = 2 then
    (if year % 4 = 0 && (year % 100 ≠ 0 || year % 400 = 0) then 29 else 28)
  else if month = 4 || month = 6 || month = 9 || month = 11 then 30
  else 31

/-- The value of a scalar that is a day; moments stay texts. -/
def readTimestamp (s : List Char) : Result Value :=
  match dayParts? s with
  | some d =>
    if 1 ≤ d.year && 1 ≤ d.month && d.month ≤ 12 && 1 ≤ d.day && d.day ≤ daysIn d.year d.month then
      .ok (.date d)
    else .error .badValue
  | none => .ok (.text (String.ofList s))

/-- The truth value of a word, in any case. -/
def readBool (s : List Char) : Result Value :=
  let word := String.ofList (lowered s)
  if trueWords.contains word then .ok (.bool true)
  else if falseWords.contains word then .ok (.bool false)
  else .error .keyMissing

/-- The value of a scalar of a kind. -/
def readScalar (tag : Tag) (s : List Char) : Result Value :=
  match tag with
  | .null => .ok .none
  | .bool => readBool s
  | .int => (readInt s).map .int
  | .float => (readFloat s).map .float
  | .str => .ok (.text (String.ofList s))
  | .timestamp => readTimestamp s
  | _ => .error .malformed

end Overlay.Yaml
