import Overlay.Fault
import Overlay.Signal

/-!
# Actions

An action works on a state and may stop with a fault; what it had changed by then stays changed.
Around the state are a source of new ids and the signals that were given so far.

## Main definitions
- `IdSource`: where the characters of new ids come from
- `Surroundings`: the source of ids and the signals
- `Act`: actions
- `Act.on`: an action on a part of the state
- `Act.freshId`, `Act.freshPrefixed`: new ids
-/

namespace Overlay

/-! ## Section 1: Ids -/

/-- The characters of new ids. -/
def idAlphabet : List Char :=
  "abcdefghijklmnopqrstuvwxyzABCDEFGHIJKLMNOPQRSTUVWXYZ0123456789".toList

/-- An endless row of draws, of which the first few have been used. -/
structure IdSource where
  /-- The draws. -/
  draw : Nat → Nat
  /-- How many draws have been used. -/
  used : Nat

instance : Inhabited IdSource := ⟨⟨id, 0⟩⟩

/-- The character that a draw picks from the alphabet. -/
def IdSource.charAt (ids : IdSource) (n : Nat) : Char :=
  idAlphabet.getD (ids.draw n % 62) 'a'

/-- The next characters. -/
def IdSource.peek (ids : IdSource) (length : Nat) : List Char :=
  (List.range length).map fun i => ids.charAt (ids.used + i)

/-- The source after some more draws. -/
def IdSource.skip (ids : IdSource) (length : Nat) : IdSource :=
  { ids with used := ids.used + length }

/-! ## Section 2: Actions -/

/-- What lies around the state of an action. -/
structure Surroundings where
  /-- Where new ids come from. -/
  ids : IdSource
  /-- The signals given so far, the first one first. -/
  signals : List Signal
  deriving Inhabited

/-- An action on a state: it answers or stops with a fault, and leaves a state either way. -/
abbrev Act (σ : Type) := ExceptT Fault (StateT σ (StateM Surroundings))

namespace Act

variable {σ τ α : Type}

/-- What an action comes to: its answer or fault, the state and the surroundings it leaves. -/
def perform (act : Act σ α) (s : σ) (w : Surroundings) : Result α × σ × Surroundings :=
  let r := (act.run.run s).run w
  (r.1.1, r.1.2, r.2)

/-- The action that an answer or a fault is. -/
def ofResult (r : Result α) : Act σ α :=
  ExceptT.mk (pure r)

/-- The action that stops with the fault of a broken rule. -/
def stop (cause : Cause) : Act σ α :=
  throw cause.fault

/-- An action on a part of the state. -/
def on (part : σ → τ) (put : τ → σ → σ) (act : Act τ α) : Act σ α :=
  ExceptT.mk do
    let s ← get
    let r ← (act.run.run (part s) : StateM Surroundings (Result α × τ))
    set (put r.2 s)
    return r.1

/-- An action whose fault becomes its answer. -/
def attempt (act : Act σ α) : Act σ (Result α) :=
  ExceptT.mk do
    let r ← act.run
    return .ok r

/-- Gives a signal. -/
def emit (signal : Signal) : Act σ Unit :=
  ExceptT.mk do
    modifyThe Surroundings fun w => { w with signals := w.signals ++ [signal] }
    return .ok ()

/-- An action whose signals are changed on their way out. -/
def mapSignals (f : Signal → Signal) (act : Act σ α) : Act σ α :=
  ExceptT.mk do
    let before := (← getThe Surroundings).signals
    modifyThe Surroundings fun w => { w with signals := [] }
    let r ← act.run
    modifyThe Surroundings fun w => { w with signals := before ++ w.signals.map f }
    return r

/-- Gives a note. -/
def note (level : Level) (message : String) : Act σ Unit :=
  emit (.note level message)

/-- A new id of a length. -/
def freshId (length : Nat) : Act σ String :=
  ExceptT.mk do
    let w ← getThe Surroundings
    set { w with ids := w.ids.skip length }
    return .ok (String.ofList (w.ids.peek length))

/-- A new id of a length given as data; a length below zero is none. -/
def freshIdOf (length : Value) : Act σ String :=
  match length with
  | .int i => freshId i.toNat
  | .bool b => freshId (if b then 1 else 0)
  | _ => throw .wrongKind

/-- A new id behind a word: seven characters in lower case. -/
def freshPrefixed (word : String) : Act σ String := do
  let id ← freshId 7
  return word ++ "_" ++ String.ofList (id.toList.map Char.toLower)

end Act

end Overlay
