import Overlay.Value.Access

/-!
# The playback clock

A clock shows milliseconds.  It keeps the time it showed last and, while it runs, the instant at
which it showed that.  Instants come from outside with every operation.

## Main definitions
- `Clock`: the clock
- `Clock.now`: what it shows
- `Clock.play`, `Clock.pause`, `Clock.seek`, `Clock.set`: the operations
-/

namespace Overlay

/-- A clock that is stopped or runs since an instant. -/
structure Clock where
  /-- The time shown when the clock was last touched, in milliseconds. -/
  base : Double
  /-- The instant since which the clock runs. -/
  runsSince : Option Double
  deriving DecidableEq

namespace Clock

/-- A stopped clock at zero. -/
def start : Clock := ⟨Double.zero, none⟩

instance : Inhabited Clock := ⟨start⟩

/-- What the clock shows at an instant. -/
def now (c : Clock) (instant : Double) : Double :=
  match c.runsSince with
  | none => c.base
  | some since => c.base.add (instant.sub since)

/-- Whether the clock runs. -/
def isRunning (c : Clock) : Bool :=
  c.runsSince.isSome

/-- Starts the clock; a running clock goes on. -/
def play (c : Clock) (instant : Double) : Clock :=
  match c.runsSince with
  | none => { c with runsSince := some instant }
  | some _ => c

/-- Stops the clock. -/
def pause (c : Clock) (instant : Double) : Clock :=
  match c.runsSince with
  | none => c
  | some _ => ⟨c.now instant, none⟩

/-- Moves the clock to a time, not below zero; a running clock runs on from there. -/
def seek (c : Clock) (instant ms : Double) : Clock :=
  ⟨ms.clampBelow, c.runsSince.map fun _ => instant⟩

/-- Sets a stopped clock to a time, not below zero. -/
def set (c : Clock) (ms : Double) : Result Clock :=
  match c.runsSince with
  | none => .ok ⟨ms.clampBelow, none⟩
  | some _ => refuse .clockRunning

/-! ## Section 1: Times given as data -/

/-- Moves the clock to a time given as data. -/
def seekTo (c : Clock) (instant : Double) (ms : Value) : Result Clock := do
  return c.seek instant (← ms.toDouble)

/-- Sets a stopped clock to a time given as data. -/
def setTo (c : Clock) (ms : Value) : Result Clock := do
  if c.isRunning then refuse .clockRunning
  c.set (← ms.toDouble)

end Clock

end Overlay
