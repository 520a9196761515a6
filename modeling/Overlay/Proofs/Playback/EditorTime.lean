import Overlay.Playback.Preview
import Overlay.Proofs.Playback.Operations

/-!
# The time of a session and its engine

An engine may lack what it is asked for, raise, or go missing between two operations: the time of the
session is the same function of the operations and the instants.  Two sessions that are driven alike
therefore show the same time, even where one of them empties its engine and the other builds a new one.
The exception is an engine that cannot be built.  A reset that fails on it has started the clock by
then, and nothing stops the clock again.

## Main definitions
- `Session.FailsToBuild`: the end of an operation whose engine could not be built or set up
- `Session.Lockstep`: two sessions that are driven alike, with engines of their own

## Main statements
- `Session.RunOutcome.time_eq`: the time after an operation
- `Session.Lockstep.clock_eq`: two sessions in lockstep agree on their clocks and on what fails
- `Session.isRunning_after_reset_iff`: when the clock runs after a reset
-/

namespace Overlay

/-! ## Section 1: Data that cannot be read -/

/-- The faults of data that cannot be read; none of them is a broken rule. -/
def Fault.IsUnreadable (fault : Fault) : Prop :=
  fault = .wrongKind ∨ fault = .badValue ∨ fault = .tooLarge

theorem unreadable_of_orFault {α : Type} {fault f : Fault} {o : Option α}
    (hfault : fault.IsUnreadable) (h : orFault fault o = .error f) : f.IsUnreadable := by
  cases o with
  | none => rwa [← Except.error.inj h]
  | some a => cases h

theorem not_unreadable_refused (cause : Cause) : ¬(Fault.refused cause).IsUnreadable := by
  simp [Fault.IsUnreadable]

namespace Value

theorem unreadable_of_items {v : Value} {fault : Fault} (h : v.items = .error fault) :
    fault.IsUnreadable := by
  apply Or.inl
  cases v <;> simp_all [items]

theorem unreadable_of_pairOf {v : Value} {fault : Fault} (h : v.pairOf = .error fault) :
    fault.IsUnreadable := by
  unfold pairOf at h
  split at h
  · next hitems =>
    rw [Except.error.inj h] at hitems
    exact unreadable_of_items hitems
  · split at h
    · cases h
    · exact .inl (Except.error.inj h).symm
  · exact .inr (.inl (Except.error.inj h).symm)

theorem unreadable_of_fieldsOfPairs {acc : Fields} {vs : List Value} {fault : Fault}
    (h : fieldsOfPairs acc vs = .error fault) : fault.IsUnreadable := by
  induction vs generalizing acc with
  | nil => cases h
  | cons v r ih =>
    rw [fieldsOfPairs] at h
    split at h
    · exact ih h
    · next hpair =>
      rw [Except.error.inj h] at hpair
      exact unreadable_of_pairOf hpair

theorem unreadable_of_toFields {v : Value} {fault : Fault} (h : v.toFields = .error fault) :
    fault.IsUnreadable := by
  unfold toFields at h
  split at h
  · cases h
  · rcases bind_eq_error.mp h with hitems | ⟨vs, -, hpairs⟩
    · exact unreadable_of_items hitems
    · exact unreadable_of_fieldsOfPairs hpairs

theorem unreadable_of_toDouble {v : Value} {fault : Fault} (h : v.toDouble = .error fault) :
    fault.IsUnreadable := by
  unfold toDouble at h
  split at h
  · exact unreadable_of_orFault (.inr (.inl rfl)) h
  · rcases bind_eq_error.mp h with hnumber | ⟨n, -, hdouble⟩
    · exact unreadable_of_orFault (.inl rfl) hnumber
    · exact unreadable_of_orFault (.inr (.inr rfl)) hdouble

end Value

namespace Session

open Act

variable {ε ε₁ ε₂ : Type} {kind : Option (EngineKind ε)} {k : EngineKind ε} {instant : Double}
  {s t : Session ε} {options : Fields} {command : Command} {r : Result Unit}

/-! ## Section 2: The time after an operation -/

/-- The end of an operation whose engine could not be built, or failed while it was set up. -/
def FailsToBuild (r : Result Unit) : Prop :=
  ∃ reason, r = .error (.refused (.engineBuild reason))

theorem Time.run_of_resets (hcommand : command.resets = true) (time : Time) :
    time.run instant command = (.ok (), if time.initialised then ⟨.start, true⟩ else time) := by
  cases command with
  | reset => rfl
  | reload script l => rfl
  | _ => cases hcommand

theorem Time.initialised_run (hcommand : command.transports = true) (instant : Double)
    (time : Time) :
    (time.run instant command).2.initialised = time.initialised := by
  cases command with
  | init options => cases hcommand
  | reset => cases hcommand
  | reload script l => cases hcommand
  | seek seconds refresh =>
    cases hposition : position seconds <;> simp [Time.run, hposition]
  | _ => rfl

theorem ResetOutcome.time_eq (h : ResetOutcome (some k) instant options s r t)
    (hbuilt : ¬FailsToBuild r) : (r, t.time) = (.ok (), ⟨.start, true⟩) := by
  cases h with
  | cleared => rfl
  | rebuilt o ho h =>
    cases h with
    | absent hkind => cases hkind
    | failed => exact absurd ⟨_, rfl⟩ hbuilt
    | built => rfl

/-- An operation moves the time in a way that the engine has no say in, if none fails to be built. -/
theorem RunOutcome.time_eq (h : RunOutcome (some k) instant s command r t)
    (hbuilt : ¬FailsToBuild r) : (r, t.time) = s.time.run instant command := by
  cases h with
  | init hcommand h =>
    subst hcommand
    cases h with
    | refused hgiven => simp [Time.run, hgiven]
    | absent _ hkind => cases hkind
    | failed => exact absurd ⟨_, rfl⟩ hbuilt
    | built hgiven => simp [Time.run, hgiven, time]
  | skipped hcommand hoptions =>
    rw [Time.run_of_resets hcommand]
    simp [time, hoptions]
  | reset hcommand hoptions h =>
    rw [Time.run_of_resets hcommand, h.time_eq hbuilt]
    simp [time, hoptions]
  | reloaded hcommand hoptions h =>
    rw [Time.run_of_resets hcommand]
    refine (h.time_eq hbuilt).trans ?_
    simp [time, hoptions]
  | moved hcommand =>
    have hinitialised := Time.initialised_run hcommand instant s.time
    rw [Prod.ext_iff]
    refine ⟨rfl, ?_⟩
    show (⟨_, s.time.initialised⟩ : Time) = _
    rw [← hinitialised]

theorem unreadable_of_requested {v : Value} {fault : Fault} (h : requested v = .error fault) :
    fault.IsUnreadable := by
  unfold requested at h
  split at h
  · exact Value.unreadable_of_toFields h
  · cases h

theorem Time.unreadable_of_run {time : Time} {fault : Fault}
    (h : (time.run instant command).1 = .error fault) : fault.IsUnreadable := by
  cases command with
  | init options =>
    cases hgiven : requested options with
    | ok given => simp [Time.run, hgiven] at h
    | error f =>
      simp only [Time.run, hgiven] at h
      rw [Except.error.inj h] at hgiven
      exact unreadable_of_requested hgiven
  | seek seconds refresh =>
    cases hposition : position seconds with
    | ok x => simp [Time.run, hposition] at h
    | error f =>
      simp only [Time.run, hposition] at h
      rw [Except.error.inj h, position] at hposition
      split at hposition
      · exact Value.unreadable_of_toDouble hposition
      · cases hposition
  | _ => cases h

/-- Only an engine that cannot be built, or fails while it is set up, makes an operation report that. -/
theorem RunOutcome.exists_buildFails (h : RunOutcome (some k) instant s command r t)
    (hr : FailsToBuild r) : ∃ options fault, BuildFails k (s.builds + 1) options fault := by
  have hreset : ∀ {options r t}, ResetOutcome (some k) instant options s r t → FailsToBuild r →
      ∃ options fault, BuildFails k (s.builds + 1) options fault := by
    rintro _ _ _ houtcome ⟨reason, hr⟩
    cases houtcome with
    | cleared => cases hr
    | rebuilt o ho h =>
      cases h with
      | absent hkind => cases hkind
      | failed hkind hfails =>
        cases hkind
        exact ⟨_, _, hfails⟩
      | built => cases hr
  obtain ⟨reason, hreason⟩ := hr
  cases h with
  | init hcommand h =>
    cases h with
    | refused hgiven =>
      rw [Except.error.inj hreason] at hgiven
      exact absurd (unreadable_of_requested hgiven) (not_unreadable_refused _)
    | absent _ hkind => cases hkind
    | failed _ hkind hfails =>
      cases hkind
      exact ⟨_, _, hfails⟩
    | built => cases hreason
  | skipped => cases hreason
  | reset hcommand hoptions h => exact hreset h ⟨reason, hreason⟩
  | reloaded => cases hreason
  | moved => exact absurd (Time.unreadable_of_run hreason) (not_unreadable_refused _)

/-! ## Section 3: Two sessions -/

/-- Two sessions with engines of their own that are driven by the same operations at the same
instants.  In between, either engine may be dropped or changed. -/
inductive Lockstep (k₁ : EngineKind ε₁) (k₂ : EngineKind ε₂) : Session ε₁ → Session ε₂ → Prop where
  /-- The clocks are equal, and both sessions are new, or both were set up before. -/
  | start {s : Session ε₁} {t : Session ε₂} (hclock : s.clock = t.clock)
      (hset : s.lastOptions.isSome = t.lastOptions.isSome) : Lockstep k₁ k₂ s t
  | step {s : Session ε₁} {t : Session ε₂} (h : Lockstep k₁ k₂ s t) (instant : Double)
      (command : Command) (w v : Surroundings)
      (hs : ¬FailsToBuild ((run (some k₁) instant command).perform s w).1)
      (ht : ¬FailsToBuild ((run (some k₂) instant command).perform t v).1) :
      Lockstep k₁ k₂ ((run (some k₁) instant command).perform s w).2.1
        ((run (some k₂) instant command).perform t v).2.1
  | left {s : Session ε₁} {t : Session ε₂} (h : Lockstep k₁ k₂ s t) (o : Option ε₁) :
      Lockstep k₁ k₂ { s with engine := o } t
  | right {s : Session ε₁} {t : Session ε₂} (h : Lockstep k₁ k₂ s t) (o : Option ε₂) :
      Lockstep k₁ k₂ s { t with engine := o }

variable {k₁ : EngineKind ε₁} {k₂ : EngineKind ε₂}

theorem Lockstep.time_eq {s : Session ε₁} {t : Session ε₂} (h : Lockstep k₁ k₂ s t) :
    s.time = t.time := by
  induction h with
  | start hclock hset => exact Time.mk.injEq .. ▸ ⟨hclock, hset⟩
  | step h instant command w v hs ht ih =>
    have hfirst := (run_outcome (some k₁) instant command _ w).time_eq hs
    have hsecond := (run_outcome (some k₂) instant command _ v).time_eq ht
    rw [ih] at hfirst
    exact congrArg Prod.snd (hfirst.trans hsecond.symm)
  | left h o ih => exact ih
  | right h o ih => exact ih

/-- Two sessions in lockstep show the same time, and the next operation comes to the same end. -/
theorem Lockstep.clock_eq {s : Session ε₁} {t : Session ε₂} (h : Lockstep k₁ k₂ s t) :
    s.clock = t.clock ∧ (∀ instant, s.clock.now instant = t.clock.now instant)
      ∧ ∀ instant command w v,
        ¬FailsToBuild ((run (some k₁) instant command).perform s w).1 →
        ¬FailsToBuild ((run (some k₂) instant command).perform t v).1 →
        ((run (some k₁) instant command).perform s w).1
          = ((run (some k₂) instant command).perform t v).1 := by
  have htime := h.time_eq
  have hclock : s.clock = t.clock := congrArg Time.clock htime
  refine ⟨hclock, fun instant => by rw [hclock], ?_⟩
  intro instant command w v hs ht
  have hfirst := (run_outcome (some k₁) instant command s w).time_eq hs
  have hsecond := (run_outcome (some k₂) instant command t v).time_eq ht
  rw [htime] at hfirst
  exact congrArg Prod.fst (hfirst.trans hsecond.symm)

theorem not_failsToBuild (hk : ∀ number options fault, ¬BuildFails k number options fault)
    (instant : Double) (command : Command) (s : Session ε) (w : Surroundings) :
    ¬FailsToBuild ((run (some k) instant command).perform s w).1 := by
  intro h
  obtain ⟨options, fault, hfails⟩ := (run_outcome (some k) instant command s w).exists_buildFails h
  exact hk _ options fault hfails

/-- Preview engines can always be built. -/
theorem not_buildFails_preview (number : Nat) (options : Fields) (fault : Fault) :
    ¬BuildFails PreviewEngine.kind number options fault := by
  rintro (h | ⟨_, _, _, h⟩) <;> cases h

/-- Engines that raise whatever they are asked for, once they have been set up. -/
def stubborn : EngineKind Unit where
  build _ _ := .ok ()
  offers _ _ := true
  perform
    | .init => pure ()
    | call => throw (.engine (call.method.word ++ " exploded"))
  shelf _ _ := .list []
  emptyShelf _ _ := ()
  shelf_emptyShelf _ _ _ := (ite_self _).symm

theorem not_buildFails_stubborn (number : Nat) (options : Fields) (fault : Fault) :
    ¬BuildFails stubborn number options fault := by
  rintro (h | ⟨_, _, _, h⟩) <;> cases h

/-- A running session that is reset after a thousand milliseconds. -/
def resetAfterSecond {ε : Type} (k : EngineKind ε) : Session ε :=
  let s := ((run (some k) .zero (.init .none)).perform fresh default).2.1
  ((run (some k) (.ofNat 1000) .reset).perform s default).2.1

theorem lockstep_resetAfterSecond
    (h₁ : ∀ number options fault, ¬BuildFails k₁ number options fault)
    (h₂ : ∀ number options fault, ¬BuildFails k₂ number options fault) :
    Lockstep k₁ k₂ (resetAfterSecond k₁) (resetAfterSecond k₂) := by
  have hnew : Lockstep k₁ k₂ (fresh : Session ε₁) (fresh : Session ε₂) := .start rfl rfl
  have hinit := hnew.step .zero (.init .none) default default
    (not_failsToBuild h₁ _ _ _ _) (not_failsToBuild h₂ _ _ _ _)
  exact hinit.step (.ofNat 1000) .reset default default
    (not_failsToBuild h₁ _ _ _ _) (not_failsToBuild h₂ _ _ _ _)

/-- One session empties its engine and the other builds a new one, and one engine goes missing. -/
theorem clock_eq_sample :
    let s := { resetAfterSecond PreviewEngine.kind with engine := none }
    let t := resetAfterSecond stubborn
    s.builds = 1 ∧ t.builds = 2 ∧ s.clock = t.clock
      ∧ ((run (some PreviewEngine.kind) .zero .play).perform s default).1
        = ((run (some stubborn) .zero .play).perform t default).1 := by
  intro s t
  have hreset : Lockstep PreviewEngine.kind stubborn s t :=
    (lockstep_resetAfterSecond not_buildFails_preview not_buildFails_stubborn).left none
  obtain ⟨hclock, -, hends⟩ := hreset.clock_eq
  exact ⟨rfl, rfl, hclock, hends .zero .play default default
    (not_failsToBuild not_buildFails_preview _ _ _ _)
    (not_failsToBuild not_buildFails_stubborn _ _ _ _)⟩

/-! ## Section 4: Resets that fail -/

theorem ResetOutcome.isRunning_iff (h : ResetOutcome kind instant options s r t)
    (hengine : kind = none → s.engine = none) :
    (r ≠ .ok () → t.isReady = false)
      ∧ (t.clock.isRunning = true ↔ r ≠ .ok () ∧ kind.isSome = true)
      ∧ ∀ k, kind = some k → r ≠ .ok () → t.clock = ⟨Double.zero, some instant⟩
        ∧ ∃ fault, BuildFails k (s.builds + 1) (withClock (Fields.merge defaultOptions options)) fault
          ∧ r = .error (.refused (.engineBuild fault.report)) := by
  cases h with
  | cleared =>
    refine ⟨fun hr => absurd rfl hr, ?_, fun _ _ hr => absurd rfl hr⟩
    simp [Clock.isRunning, Clock.start]
  | rebuilt o ho h =>
    cases h with
    | absent hkind =>
      subst hkind
      refine ⟨fun _ => ?_, ?_, ?_⟩
      · simp [isReady, ho rfl, hengine rfl]
      · simp [Clock.isRunning]
      · intro k hk
        cases hk
    | failed hkind hfails =>
      refine ⟨fun _ => rfl, ?_, fun k hk _ => ⟨rfl, _, ?_, rfl⟩⟩
      · simp [Clock.isRunning, hkind]
      · rw [hkind] at hk
        rwa [← Option.some.inj hk]
    | built =>
      refine ⟨fun hr => absurd rfl hr, ?_, fun _ _ hr => absurd rfl hr⟩
      simp [Clock.isRunning, Clock.start]

/-- After a reset, or a reload, the clock runs if and only if the session could build an engine and
building it failed.  It runs from zero then, though there is no engine. -/
theorem isRunning_after_reset_iff (hs : Reached kind s) (hoptions : s.lastOptions = some options)
    (hcommand : command.resets = true) (instant : Double) (w : Surroundings) :
    let r := (run kind instant command).perform s w
    (r.1 ≠ .ok () → r.2.1.isReady = false)
      ∧ (r.2.1.clock.isRunning = true ↔ r.1 ≠ .ok () ∧ kind.isSome = true)
      ∧ ∀ k, kind = some k → r.1 ≠ .ok () → r.2.1.clock = ⟨Double.zero, some instant⟩
        ∧ ∃ fault, BuildFails k (s.builds + 1) (withClock options) fault
          ∧ r.1 = .error (.refused (.engineBuild fault.report)) := by
  have hengine : kind = none → s.engine = none := by
    rintro rfl
    exact hs.engine_eq_none
  have hends := run_outcome kind instant command s w
  have hmerge := hs.remembers.merge_eq hoptions
  dsimp only
  generalize (run kind instant command).perform s w = ends at hends
  obtain ⟨r, t, v⟩ := ends
  cases hends with
  | init h => simp [h, Command.resets] at hcommand
  | skipped _ hnone => rw [hoptions] at hnone; cases hnone
  | reset _ hsome h =>
    rw [hoptions] at hsome
    obtain rfl := Option.some.inj hsome
    rw [← hmerge]
    exact h.isRunning_iff hengine
  | reloaded _ hsome h =>
    -- the reset has succeeded, and what follows it leaves the clock alone
    have hrests := (h.isRunning_iff hengine).2.1
    exact ⟨fun hr => absurd rfl hr, hrests, fun _ _ hr => absurd rfl hr⟩
  | moved hmoves => cases command <;> simp_all [Command.resets, Command.transports]

/-- Engines that offer nothing, of which only the first can be built. -/
def onlyFirst : EngineKind Unit where
  build number _ := if number = 1 then .ok () else .error (.engine "no canvas")
  offers _ _ := false
  perform _ := pure ()
  shelf _ _ := .list []
  emptyShelf _ _ := ()
  shelf_emptyShelf _ _ _ := (ite_self _).symm

/-- The engine of a running session goes missing, and the next one cannot be built. -/
theorem isRunning_after_reset_sample :
    let s := ([Command.init .none, .dropEngine].foldl
      (fun s command => ((run (some onlyFirst) .zero command).perform s default).2.1) fresh)
    let r := (run (some onlyFirst) .zero .reset).perform s default
    s.lastOptions = some defaultOptions ∧ r.1 = .error (.refused (.engineBuild "no canvas"))
      ∧ r.2.1.isReady = false ∧ r.2.1.clock.isRunning = true := by
  intro s r
  have hoptions : s.lastOptions = some defaultOptions := rfl
  have hfails : r.1 = .error (.refused (.engineBuild "no canvas")) := rfl
  have hne : r.1 ≠ .ok () := by
    rw [hfails]
    simp
  have hreached : Reached (some onlyFirst) s := (Reached.start .start).foldl .zero default _
  have hcommand : Command.resets .reset = true := rfl
  obtain ⟨hready, hrunning, -⟩ :=
    isRunning_after_reset_iff hreached hoptions hcommand .zero default
  exact ⟨hoptions, hfails, hready hne, hrunning.mpr ⟨hne, rfl⟩⟩

end Session

end Overlay
