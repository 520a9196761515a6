import Overlay.Playback.Session
import Overlay.Proofs.Acts

/-!
# Sessions and their engines

What an engine is asked for changes the engine alone; its failures are passed over.  A new engine is
built from the options and the time of the clock, which starts at zero before.

## Main definitions
- `Session.Asked`, `Session.EngineAsked`: the engine that one becomes when it is asked for something
- `Session.BuildFails`: a new engine cannot be built or set up
- `Session.InitOutcome`: what setting a session up can come to
- `Session.Reached`: sessions that are reached by operations

## Main statements
- `Session.ask_leaves`, `Session.pause_leaves`, `Session.softClear_leaves`: asking an engine
- `Session.init_outcome`: setting a session up
-/

namespace Overlay.Session

open Act

variable {ε : Type} {kind : Option (EngineKind ε)} {k : EngineKind ε} {instant : Double}
  {call : Call} {e e' : ε}
  {s t : Session ε}

/-! ## Section 1: Asking an engine -/

/-- The engine that one becomes when it is asked for something, which it may not offer. -/
inductive Asked (k : EngineKind ε) (call : Call) (e : ε) : ε → Prop where
  | missing (h : k.offers e call.method = false) : Asked k call e e
  | offered (h : k.offers e call.method = true) (w : Surroundings) :
      Asked k call e ((k.perform call).perform e w).2.1

/-- The same where there may be no engine. -/
def EngineAsked (kind : Option (EngineKind ε)) (call : Call) (o o' : Option ε) : Prop :=
  match kind, o with
  | some k, some e => ∃ e', o' = some e' ∧ Asked k call e e'
  | _, _ => o' = o

theorem perform_drive (k : EngineKind ε) (number : Nat) (call : Call) (e : ε) (s : Session ε)
    (w : Surroundings) :
    (drive k number call e).perform s w
      = let r := (k.perform call).perform e { w with signals := w.signals ++ [.asked number call] }
        (.ok (r.1, r.2.1), s, r.2.2) :=
  rfl

/-- The session stays as it is, and the engine comes to some end. -/
theorem drive_leaves (h : k.offers e call.method = true) (number : Nat) (s : Session ε) :
    (drive k number call e).Leaves s fun r t =>
      t = s ∧ ∃ outcome e', r = .ok (outcome, e') ∧ Asked k call e e'
        ∧ ∃ v, outcome = ((k.perform call).perform e v).1 := by
  intro w
  rw [perform_drive]
  exact ⟨rfl, _, _, rfl, .offered h _, _, rfl⟩

theorem ask_leaves (kind : Option (EngineKind ε)) (call : Call) (s : Session ε) :
    (ask kind call).Leaves s fun r t =>
      r = .ok () ∧ ∃ o, EngineAsked kind call s.engine o ∧ t = { s with engine := o } := by
  unfold ask
  refine .bind_get ?_
  cases kind with
  | none => exact .of_pure ⟨rfl, s.engine, rfl, rfl⟩
  | some k =>
    cases hengine : s.engine with
    | none => exact .of_pure ⟨rfl, none, rfl, by rw [← hengine]⟩
    | some e =>
      dsimp only
      split
      · next hoffers =>
        refine .bind (drive_leaves hoffers s.builds s) ?_ ?_
        · rintro ⟨outcome, e'⟩ t ⟨rfl, _, _, heq, hasked, -⟩
          cases heq
          refine .bind_modify ?_
          -- a failure is noted and changes nothing else
          cases outcome with
          | ok => exact .of_pure ⟨rfl, some e', ⟨e', rfl, hasked⟩, rfl⟩
          | error => exact .of_note ⟨rfl, some e', ⟨e', rfl, hasked⟩, rfl⟩
        · rintro fault t ⟨-, _, _, heq, -⟩
          cases heq
      · next hmissing =>
        exact .of_pure ⟨rfl, some e, ⟨e, rfl, .missing (by simpa using hmissing)⟩, by rw [← hengine]⟩

/-- An engine that does what it is asked to do. -/
theorem perform_ask_of_ok {w w' : Surroundings} (hengine : s.engine = some e)
    (hoffers : k.offers e call.method = true)
    (h : (k.perform call).perform e { w with signals := w.signals ++ [.asked s.builds call] }
      = (.ok (), e', w')) :
    (ask (some k) call).perform s w = (.ok (), { s with engine := some e' }, w') := by
  simp only [ask, perform_bind, perform_get, hengine, hoffers, if_true, perform_drive, h,
    perform_modify, perform_pure]

/-- An engine that fails: nothing stops, and what it says is noted. -/
theorem perform_ask_of_error {w w' : Surroundings} {fault : Fault} (hengine : s.engine = some e)
    (hoffers : k.offers e call.method = true)
    (h : (k.perform call).perform e { w with signals := w.signals ++ [.asked s.builds call] }
      = (.error fault, e', w')) :
    (ask (some k) call).perform s w = (.ok (), { s with engine := some e' },
      { w' with signals := w'.signals
          ++ [.note .warning ("engine " ++ call.method.word ++ " failed: " ++ fault.report)] }) := by
  simp only [ask, perform_bind, perform_get, hengine, hoffers, if_true, perform_drive, h,
    perform_modify, note, perform_emit]

theorem pause_leaves (kind : Option (EngineKind ε)) (instant : Double) (s : Session ε) :
    (pause kind instant).Leaves s fun r t => r = .ok () ∧ ∃ o, EngineAsked kind .pause s.engine o
      ∧ t = { s with engine := o, clock := s.clock.pause instant } := by
  unfold pause
  refine .bind (ask_leaves kind .pause s) ?_ ?_
  · rintro _ t ⟨-, o, ho, rfl⟩
    exact .of_modify ⟨rfl, o, ho, rfl⟩
  · rintro fault t ⟨heq, -⟩
    cases heq

theorem play_leaves (kind : Option (EngineKind ε)) (instant : Double) (s : Session ε) :
    (play kind instant).Leaves s fun r t => r = .ok () ∧ ∃ o, EngineAsked kind .play s.engine o
      ∧ t = { s with engine := o, clock := s.clock.play instant } := by
  unfold play
  refine .bind_modify ((ask_leaves kind .play _).mono ?_)
  rintro r t ⟨rfl, o, ho, rfl⟩
  exact ⟨rfl, o, ho, rfl⟩

/-- A stopped clock is set to zero. -/
theorem perform_rewind (h : s.clock.runsSince = none) (w : Surroundings) :
    rewind.perform s w = (.ok (), { s with clock := .start }, w) := by
  have hzero : Double.zero.clampBelow = Double.zero := by decide +kernel
  simp [rewind, perform_bind, Clock.set, h, hzero, Clock.start]

/-! ## Section 2: Building and clearing -/

/-- A new engine cannot be built from options, or it fails while it is set up. -/
inductive BuildFails (k : EngineKind ε) (number : Nat) (options : Fields) (fault : Fault) : Prop where
  | build (h : k.build number options = .error fault)
  | init {e : ε} (hbuild : k.build number options = .ok e) (hoffers : k.offers e .init = true)
      (w : Surroundings) (h : ((k.perform .init).perform e w).1 = .error fault)

/-- A new engine comes from what was built by being set up. -/
theorem buildEngine_leaves (k : EngineKind ε) (number : Nat) (options : Fields) (s : Session ε) :
    (buildEngine k number options).Leaves s fun r t => t = s ∧ ∃ built, r = .ok built
      ∧ (∀ e, built = .ok e → ∃ e₀, k.build number options = .ok e₀ ∧ Asked k .init e₀ e)
      ∧ ∀ fault, built = .error fault → BuildFails k number options fault := by
  unfold buildEngine
  refine .bind_emit ?_
  split
  · next fault hbuild =>
    refine .of_pure ⟨rfl, _, rfl, (fun _ h => nomatch h), fun _ h => ?_⟩
    rw [← Except.error.inj h]
    exact .build hbuild
  · next e₀ hbuild =>
    split
    · next hoffers =>
      refine .bind (drive_leaves hoffers number s) ?_ ?_
      · rintro ⟨outcome, e'⟩ t ⟨rfl, _, _, heq, hasked, w, houtcome⟩
        cases heq
        cases outcome with
        | ok =>
          refine .of_pure ⟨rfl, _, rfl, fun e he => ?_, fun _ h => nomatch h⟩
          rw [← Except.ok.inj he]
          exact ⟨e₀, hbuild, hasked⟩
        | error fault =>
          refine .of_pure ⟨rfl, _, rfl, (fun _ h => nomatch h), fun _ h => ?_⟩
          rw [← Except.error.inj h]
          exact .init hbuild hoffers w houtcome.symm
      · rintro fault t ⟨-, _, _, heq, -⟩
        cases heq
    · next hmissing =>
      refine .of_pure ⟨rfl, _, rfl, fun e he => ⟨e₀, hbuild, ?_⟩, fun _ h => nomatch h⟩
      rw [← Except.ok.inj he]
      exact .missing (by simpa [Call.method] using hmissing)

/-- The options that are asked for; what counts as false asks for none. -/
def requested (options : Value) : Result Fields :=
  if options.holds then options.toFields else .ok []

/-- What setting a session up can come to. -/
inductive InitOutcome (kind : Option (EngineKind ε)) (instant : Double) (options : Value)
    (s : Session ε) : Result Unit → Session ε → Prop where
  /-- The options cannot be read. -/
  | refused {fault : Fault} (h : requested options = .error fault) :
      InitOutcome kind instant options s (.error fault) s
  /-- There is nothing to build. -/
  | absent {given : Fields} (h : requested options = .ok given) (hkind : kind = none) :
      InitOutcome kind instant options s (.error (.refused .engineAbsent))
        { s with lastOptions := some (Fields.merge defaultOptions given) }
  /-- Building fails; the clock has been started. -/
  | failed {given : Fields} {k : EngineKind ε} {fault : Fault} (h : requested options = .ok given)
      (hkind : kind = some k)
      (hfails : BuildFails k (s.builds + 1) (withClock (Fields.merge defaultOptions given)) fault) :
      InitOutcome kind instant options s (.error (.refused (.engineBuild fault.report)))
        ⟨⟨Double.zero, some instant⟩, none, some (Fields.merge defaultOptions given), s.builds + 1⟩
  | built {given : Fields} {k : EngineKind ε} {e₀ e : ε} (h : requested options = .ok given)
      (hkind : kind = some k)
      (hbuild : k.build (s.builds + 1) (withClock (Fields.merge defaultOptions given)) = .ok e₀)
      (hinit : Asked k .init e₀ e) :
      InitOutcome kind instant options s (.ok ())
        ⟨⟨Double.zero, some instant⟩, some e, some (Fields.merge defaultOptions given), s.builds + 1⟩

@[simp] theorem runsSince_pause (c : Clock) (instant : Double) : (c.pause instant).runsSince = none := by
  unfold Clock.pause
  split
  · assumption
  · rfl

theorem init_outcome (kind : Option (EngineKind ε)) (instant : Double) (options : Value)
    (s : Session ε) :
    (init kind instant options).Leaves s fun r t => InitOutcome kind instant options s r t := by
  unfold init
  refine .bind_ofResult (fun given hgiven => ?_) fun fault hfault => .refused hfault
  refine .bind_modify ?_
  cases kind with
  | none => exact .of_stop (.absent hgiven rfl)
  | some k =>
    -- the clock was stopped just before, so it can be set
    refine .bind_modify (.bind_ok (fun w => ⟨w, perform_rewind (runsSince_pause _ _) w⟩) ?_)
    refine .bind_modify (.bind_modify (.bind_get ?_))
    refine .bind (buildEngine_leaves k (s.builds + 1) _ _) ?_ ?_
    · rintro built t ⟨rfl, _, heq, hbuilt, hfails⟩
      cases heq
      cases built with
      | ok e =>
        obtain ⟨e₀, hbuild, hinit⟩ := hbuilt e rfl
        exact .of_modify (.built hgiven rfl hbuild hinit)
      | error fault => exact .bind_modify (.of_stop (.failed hgiven rfl (hfails fault rfl)))
    · rintro fault t ⟨-, _, heq, -⟩
      cases heq

/-- An engine with both shelves emptied, as far as lists lie there. -/
def tidied (k : EngineKind ε) (e : ε) : ε :=
  k.tidy .tests (k.tidy .entries e)

theorem shelf_tidy (k : EngineKind ε) (e : ε) (a b : Shelf) :
    k.shelf (k.tidy a e) b
      = if a = b ∧ isList (k.shelf e b) = true then .list [] else k.shelf e b := by
  unfold EngineKind.tidy
  by_cases hlist : isList (k.shelf e a) = true
  · rw [if_pos hlist, k.shelf_emptyShelf]
    by_cases hab : a = b
    · subst hab
      simp [hlist]
    · simp [hab]
  · rw [if_neg hlist]
    by_cases hab : a = b
    · subst hab
      simp [hlist]
    · simp [hab]

/-- A shelf is the empty list where a list lay, and as it was where none did. -/
theorem shelf_tidied (k : EngineKind ε) (e : ε) (a : Shelf) :
    k.shelf (tidied k e) a = if isList (k.shelf e a) then .list [] else k.shelf e a := by
  rw [tidied, shelf_tidy, shelf_tidy]
  cases a <;> simp

theorem softClear_leaves (k : EngineKind ε) (number : Nat) (e : ε) (s : Session ε) :
    (softClear k number e).Leaves s fun r t => t = s ∧ ∃ outcome e', r = .ok (outcome, e')
      ∧ (outcome = .ok () → ∃ e₁, Asked k .clear e e₁ ∧ e' = tidied k e₁) := by
  unfold softClear
  extract_lets next
  -- both ways go on with the end that clearing came to
  have hnext : ∀ outcome e₁, Asked k .clear e e₁ → (next (outcome, e₁)).Leaves s fun r t =>
      t = s ∧ ∃ outcome e', r = .ok (outcome, e')
        ∧ (outcome = .ok () → ∃ e₁, Asked k .clear e e₁ ∧ e' = tidied k e₁) := by
    intro outcome e₁ hasked
    cases outcome with
    | ok => exact .of_pure ⟨rfl, _, _, rfl, fun _ => ⟨e₁, hasked, rfl⟩⟩
    | error => exact .of_pure ⟨rfl, _, _, rfl, fun h => nomatch h⟩
  split
  · next hoffers =>
    refine .bind (drive_leaves hoffers number s) ?_ ?_
    · rintro _ t ⟨rfl, outcome, e₁, heq, hasked, -⟩
      rw [Except.ok.inj heq]
      exact hnext outcome e₁ hasked
    · rintro fault t ⟨-, _, _, heq, -⟩
      cases heq
  · next hmissing =>
    exact .bind_pure (hnext (.ok ()) e (.missing (by simpa [Call.method] using hmissing)))

/-! ## Section 3: Reached sessions -/

/-- Sessions that are reached from one with any clock by any operations, at any instants and whether
they succeed or not.  In between, others may use the clock and the engine. -/
inductive Reached (kind : Option (EngineKind ε)) : Session ε → Prop where
  | start (clock : Clock) : Reached kind ⟨clock, none, none, 0⟩
  | step {s : Session ε} (h : Reached kind s) (instant : Double) (command : Command)
      (w : Surroundings) : Reached kind ((run kind instant command).perform s w).2.1
  | shared {s : Session ε} (h : Reached kind s) (clock : Clock) (f : ε → ε) :
      Reached kind { s with clock := clock, engine := s.engine.map f }

theorem Reached.foldl (h : Reached kind s) (instant : Double) (w : Surroundings)
    (commands : List Command) :
    Reached kind (commands.foldl (fun s command => ((run kind instant command).perform s w).2.1) s) := by
  induction commands generalizing s with
  | nil => exact h
  | cons command commands ih => exact ih (h.step instant command w)

end Overlay.Session
