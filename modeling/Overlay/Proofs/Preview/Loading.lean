import Overlay.Playback.Preview
import Overlay.Proofs.Acts

/-!
# Loading entries

A preview engine that is asked to load an entry takes it, and the entry lies on its shelf then, or says why
the script was refused and is the engine that it was.  It answers once either way.  A script that breaks no
rule and is not read all the same is answered by nobody: its fault goes to the caller.

## Main statements
- `PreviewEngine.perform_add_loaded`, `PreviewEngine.perform_add_refused`: loading an entry
- `PreviewEngine.perform_add_raised`: an entry whose fault goes to the caller
- `PreviewEngine.silent_perform`: whoever asks for anything else hears nothing
-/

namespace Overlay

namespace PreviewEngine

open Act

variable {request : AddRequest} {dm : Fields}

/-- The entry that is made of a description, for the engine that has counted it. -/
def entryOf (dm : Fields) (start : Double) (defs sets : Value) (number : Nat) : Entry :=
  ⟨orElse (Fields.get dm "dmid") (numberedId number), start, Fields.get dm "text", defs, sets⟩

/-- The surroundings after an answer, which is given to those who wait for it. -/
def answered (tells : Bool) (answer : Signal) (w : Surroundings) : Surroundings :=
  if tells then { w with signals := w.signals ++ [answer] } else w

theorem answers_answered {answer : Signal} (h : answer.isAnswer = true) (tells : Bool)
    (w : Surroundings) :
    (answered tells answer w).answers = w.answers ++ (if tells then [answer] else []) := by
  cases tells with
  | true => simp [answered, h]
  | false => simp [answered]

/-- An entry is taken at the end of its shelf, and told. -/
theorem perform_add_loaded {start : Double} {defs sets : Value}
    (hdm : (orElse request.entry (.dict [])).toFields = .ok dm)
    (hcontents : contents request dm = .ok (defs, sets))
    (hstart : (orElse (Fields.get dm "stime") (.int 0)).toDouble = .ok start) (e : PreviewEngine)
    (w : Surroundings) :
    let entry := entryOf dm start defs sets (e.loaded + 1)
    (add request).perform e w = (.ok (), shelve request entry { e with loaded := e.loaded + 1 },
      answered request.tellsAccepted (.accepted entry) w) := by
  simp only [add, perform_bind, perform_ofResult, hdm, hcontents, perform_modify, perform_get, hstart]
  unfold answered
  split
  · rfl
  · rfl

/-- A script that breaks a rule leaves the engine as it is; the rule is told. -/
theorem perform_add_refused {cause : Cause}
    (hdm : (orElse request.entry (.dict [])).toFields = .ok dm)
    (hcontents : contents request dm = .error (.refused cause)) (e : PreviewEngine) (w : Surroundings) :
    (add request).perform e w
      = (.ok (), e, answered request.tellsRejected (.rejected cause.message) w) := by
  simp only [add, perform_bind, perform_ofResult, hdm, hcontents]
  unfold answered
  split
  · rfl
  · rfl

/-- Any other fault of a script goes to the caller and is told nobody. -/
theorem perform_add_raised {fault : Fault} (hdm : (orElse request.entry (.dict [])).toFields = .ok dm)
    (hcontents : contents request dm = .error fault) (hfault : ∀ cause, fault ≠ .refused cause)
    (e : PreviewEngine) (w : Surroundings) : (add request).perform e w = (.error fault, e, w) := by
  simp only [add, perform_bind, perform_ofResult, hdm, hcontents]
  rfl

theorem silent_seek (seconds refresh : Value) : Silent (seek seconds refresh) := by
  unfold seek
  split
  · refine .bind (.of_ofResult _) fun n => .bind (.of_ofResult _) fun ms => ?_
    exact .bind (.of_ofResult _) fun shown => .of_note _ _
  · exact .of_pure ()

/-- Only those who ask for an entry to be loaded are answered. -/
theorem silent_perform {call : Call} (h : call.method ≠ .add) : Silent (perform call) := by
  cases call with
  | add request => exact absurd rfl h
  | seek seconds refresh => exact silent_seek seconds refresh
  | _ => exact .of_modify _

end PreviewEngine

end Overlay
