import Overlay.Number.Decimal
import Overlay.Text.Lines
import Overlay.Value.Access

/-!
# Times

A time is given as a number of milliseconds or as a timecode `hh:mm:ss.fff`, whose hours may be
left out.  Times are shown as timecodes again, with hours only where there are any.

## Main definitions
- `Timecode.read`: a time as a decimal number
- `Timecode.readMs`: a time in whole milliseconds
- `Timecode.clock`, `Timecode.format`: a time as a timecode
- `requireNonNegative`: the rule for lengths of time
-/

namespace Overlay

open Overlay.Text Overlay.Number

namespace Timecode

/-! ## Section 1: Reading -/

/-- The seconds that the fields of a timecode stand for, from hours to seconds. -/
def secondsOf (hours minutes seconds : WideDecimal) : Except DecimalTrouble WideDecimal := do
  let hours ← hours.times (.ofInt 3600)
  let minutes ← minutes.times (.ofInt 60)
  (← hours.plus minutes).plus seconds

/-- The finite number that arithmetic gives.  The given fault is that of a text that shows none. -/
def settle (unread : Fault) : Except DecimalTrouble WideDecimal → Result Decimal
  | .ok (.finite x) => .ok x
  | .ok _ => .error unread
  | .error .overflow => .error .tooLarge
  | .error .invalid => .error unread

/-- The number that a text shows: a plain decimal number, or the seconds of a timecode.  The given
fault is that of a text that shows none. -/
def readText (s : List Char) (unread : Fault) : Result Decimal :=
  let field (s : List Char) : Result WideDecimal := orFault unread (WideDecimal.read? s)
  match pieces ':' (strip s) with
  | [plain] => orFault unread (Decimal.read? plain)
  | [m, s] => do
    let seconds ← field s
    let minutes ← field m
    -- infinite and undefined fields are refused after the sum, which may be too large before
    settle unread (secondsOf (.finite (.ofInt 0)) minutes seconds)
  | [h, m, s] => do
    let seconds ← field s
    let minutes ← field m
    let hours ← field h
    settle unread (secondsOf hours minutes seconds)
  | _ => .error unread

/-- A time as a decimal number; faults speak of it by its label. -/
def read (raw : Value) (label : String) : Result Decimal :=
  match raw with
  | .none => refuse (.timeMissing label)
  | .int i => .ok (.ofInt i)
  | .float x => orFault (.refused (.timeText label raw)) (Decimal.ofDouble? x)
  | .text s => readText s.toList (.refused (.timeText label raw))
  | _ => refuse (.timeKind label)

/-- Whether a value is a timecode with more than one field. -/
def hasFields : Value → Bool
  | .text s => s.toList.contains ':'
  | _ => false

/-- A time in whole milliseconds: plain numbers count milliseconds, timecodes seconds. -/
def readMs (raw : Value) (label : String) : Result Int := do
  let time ← read raw label
  if hasFields raw then
    let ms ← orFault .tooLarge (time.mul (.ofInt 1000))
    return ms.roundToInt
  else
    return time.roundToInt

/-! ## Section 2: Showing -/

/-- Milliseconds as a timecode. -/
def clock (ms : Nat) : List Char :=
  let seconds := ms / 1000
  let minutes := seconds / 60
  let hours := minutes / 60
  let short := padded 2 (minutes % 60) ++ ':' :: padded 2 (seconds % 60)
    ++ '.' :: padded 3 (ms % 1000)
  if 0 < hours then padded 2 hours ++ ':' :: short else short

/-- The milliseconds of an hour. -/
def hourLength : Nat := 3600000

/-- A number of milliseconds as a timecode; what lies below zero is shown as zero. -/
def format (v : Value) : Result String := do
  let ms ← (← v.atLeastZero).toInt
  if hasText (ms.toNat / hourLength : Nat) then return String.ofList (clock ms.toNat)
  else throw .tooLongToWrite

end Timecode

/-! ## Section 3: Lengths of time -/

/-- Refuses what is not a number and what lies below zero. -/
def requireNonNegative (v : Value) (label : String) : Result Unit :=
  match v.plainNumber? with
  | none => refuse (.notNumber label)
  | some n => if n.lt (.int 0) then refuse (.negativeNumber label) else .ok ()

end Overlay
