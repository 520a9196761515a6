import Overlay.Proofs.Fields
import Overlay.Proofs.Playback.Sessions

/-!
# What operations leave

All ends that an operation on a session can come to.  An operation that neither sets the session up
nor resets it moves the clock in a way that its engine has no say in; the others build engines, or
empty the one that is there.

## Main definitions
- `Session.RebuildOutcome`, `Session.ResetOutcome`: the ends of building anew and of a reset
- `Session.Time`: the part of a session that its engine should have no say in
- `Session.Time.run`: what an operation does to it, told without engines
- `Session.RunOutcome`: the ends of an operation

## Main statements
- `Session.run_outcome`: each operation comes to one of these ends
- `Session.Reached.remembers`: the options that a reached session remembers
- `Session.Reached.engine_eq_none`: sessions that have no way to build an engine
-/

namespace Overlay.Session

open Act

variable {ε : Type} {kind : Option (EngineKind ε)} {k : EngineKind ε} {instant : Double}
  {s t : Session ε} {options : Fields} {command : Command} {r : Result Unit}

/-! ## Section 1: Building anew -/

theorem requested_dict (options : Fields) : requested (.dict options) = .ok options := by
  cases options <;> rfl

/-- What building anew can come to. -/
inductive RebuildOutcome (kind : Option (EngineKind ε)) (instant : Double) (options : Fields)
    (s : Session ε) : Result Unit → Session ε → Prop where
  /-- There is nothing to build. -/
  | absent (hkind : kind = none) :
      RebuildOutcome kind instant options s (.error (.refused .engineAbsent))
        { s with lastOptions := some (Fields.merge defaultOptions options) }
  /-- Building fails; the clock has been started and nothing stops it. -/
  | failed {k : EngineKind ε} {fault : Fault} (hkind : kind = some k)
      (hfails : BuildFails k (s.builds + 1) (withClock (Fields.merge defaultOptions options)) fault) :
      RebuildOutcome kind instant options s (.error (.refused (.engineBuild fault.report)))
        ⟨⟨Double.zero, some instant⟩, none, some (Fields.merge defaultOptions options), s.builds + 1⟩
  | built {k : EngineKind ε} {e₀ e₁ e' : ε} (hkind : kind = some k)
      (hbuild : k.build (s.builds + 1) (withClock (Fields.merge defaultOptions options)) = .ok e₀)
      (hinit : Asked k .init e₀ e₁) (hpause : Asked k .pause e₁ e') :
      RebuildOutcome kind instant options s (.ok ())
        ⟨.start, some e', some (Fields.merge defaultOptions options), s.builds + 1⟩

theorem rebuild_outcome (kind : Option (EngineKind ε)) (instant : Double) (options : Fields)
    (s : Session ε) :
    (rebuild kind instant options).Leaves s fun r t => RebuildOutcome kind instant options s r t := by
  unfold rebuild
  refine .bind (init_outcome kind instant _ s) ?_ ?_
  · intro _ t houtcome
    cases houtcome with
    | built hgiven hkind hbuild hinit =>
      rw [requested_dict] at hgiven
      obtain rfl := Except.ok.inj hgiven
      subst hkind
      -- building has started the clock; it is stopped again before it is set
      refine .bind (pause_leaves _ instant _) ?_ fun _ _ h => nomatch h.1
      rintro _ _ ⟨-, _, ⟨e', rfl, hpause⟩, rfl⟩ w
      rw [perform_rewind (runsSince_pause _ _)]
      exact .built rfl hbuild hinit hpause
  · intro fault t houtcome
    -- options that are a mapping can always be read
    cases houtcome with
    | refused hgiven =>
      rw [requested_dict] at hgiven
      cases hgiven
    | absent hgiven hkind =>
      rw [requested_dict] at hgiven
      obtain rfl := Except.ok.inj hgiven
      exact .absent hkind
    | failed hgiven hkind hfails =>
      rw [requested_dict] at hgiven
      obtain rfl := Except.ok.inj hgiven
      exact .failed hkind hfails

/-! ## Section 2: Resets -/

/-- What a reset of a session that remembers its options can come to. -/
inductive ResetOutcome (kind : Option (EngineKind ε)) (instant : Double) (options : Fields)
    (s : Session ε) : Result Unit → Session ε → Prop where
  /-- The engine is emptied and stays. -/
  | cleared {k : EngineKind ε} {e e₁ e₂ : ε} (hkind : kind = some k) (hengine : s.engine = some e)
      (hpause : Asked k .pause e e₁) (hclear : Asked k .clear e₁ e₂) :
      ResetOutcome kind instant options s (.ok ())
        ⟨.start, some (tidied k e₂), some options, s.builds⟩
  /-- The engine cannot be emptied, or there is none.  The clock stands still by then. -/
  | rebuilt {r : Result Unit} {t : Session ε} (o : Option ε) (ho : kind = none → o = s.engine)
      (h : RebuildOutcome kind instant options
        { s with clock := s.clock.pause instant, engine := o } r t) :
      ResetOutcome kind instant options s r t

theorem EngineAsked.exists_eq {call : Call} {o : Option ε} {e' : ε}
    (h : EngineAsked (some k) call o (some e')) : ∃ e, o = some e ∧ Asked k call e e' := by
  cases o with
  | none => cases (h : some e' = none)
  | some e =>
    obtain ⟨_, heq, hasked⟩ := h
    cases heq
    exact ⟨e, rfl, hasked⟩

theorem reset_outcome (kind : Option (EngineKind ε)) (instant : Double)
    (hoptions : s.lastOptions = some options) :
    (reset kind instant).Leaves s fun r t => ResetOutcome kind instant options s r t := by
  unfold reset
  refine .bind_get ?_
  rw [hoptions]
  refine .bind (pause_leaves kind instant s) ?_ fun _ _ h => nomatch h.1
  rintro _ _ ⟨-, o, hasked, rfl⟩
  refine .bind_get ?_
  have hrebuild : (kind = none → o = s.engine) →
      (rebuild kind instant options).Leaves { s with clock := s.clock.pause instant, engine := o }
        fun r t => ResetOutcome kind instant options s r t := fun ho =>
    (rebuild_outcome kind instant options _).mono fun _ _ h => .rebuilt o ho h
  cases kind with
  | none => exact hrebuild fun _ => hasked
  | some k =>
    cases o with
    | none => exact hrebuild fun hk => nomatch hk
    | some e₁ =>
      obtain ⟨e, hengine, hpause⟩ := hasked.exists_eq
      refine .bind (softClear_leaves k s.builds e₁ _) ?_ ?_
      · rintro ⟨outcome, _⟩ _ ⟨rfl, _, _, heq, htidied⟩
        cases heq
        cases outcome with
        | ok =>
          obtain ⟨e₂, hclear, rfl⟩ := htidied rfl
          refine .bind_modify fun w => ?_
          -- the clock was stopped at the beginning, so it can be set
          rw [perform_rewind (runsSince_pause _ _)]
          exact hoptions ▸ .cleared rfl hengine hpause hclear
        | error fault =>
          refine .bind_emit (.bind_modify ?_)
          refine (rebuild_outcome _ instant options _).mono fun _ _ h => ?_
          exact .rebuilt none (fun hk => nomatch hk) h
      · rintro fault t ⟨-, _, _, heq, -⟩
        cases heq

/-! ## Section 3: The time of a session -/

/-- The operations that begin with a reset. -/
def Command.resets : Command → Bool
  | .reset => true
  | .reload .. => true
  | _ => false

/-- The operations that neither set the session up nor reset it. -/
def Command.transports : Command → Bool
  | .init _ => false
  | c => !c.resets

/-- The part of a session that its engine should have no say in. -/
structure Time where
  /-- The clock. -/
  clock : Clock
  /-- Whether the session was ever set up. -/
  initialised : Bool

/-- The time of a session. -/
def time (s : Session ε) : Time :=
  ⟨s.clock, s.lastOptions.isSome⟩

/-- The position that is asked for in seconds; what counts as false asks for the beginning. -/
def position (seconds : Value) : Result Double :=
  if seconds.holds then seconds.toDouble else .ok Double.zero

/-- What an operation comes to and the time that it leaves, if no engine fails to be built. -/
def Time.run (instant : Double) (time : Time) : Command → Result Unit × Time
  | .init options => match requested options with
    | .ok _ => (.ok (), ⟨⟨Double.zero, some instant⟩, true⟩)
    | .error fault => (.error fault, time)
  | .reset | .reload .. => (.ok (), if time.initialised then ⟨.start, true⟩ else time)
  | .play => (.ok (), { time with clock := time.clock.play instant })
  | .pause => (.ok (), { time with clock := time.clock.pause instant })
  | .toggle => (.ok (), { time with
      clock := if time.clock.isRunning then time.clock.pause instant else time.clock.play instant })
  | .seek seconds _ => match position seconds with
    | .ok x => (.ok (), { time with
        clock := time.clock.seek instant (x.clampBelow.mul (Double.ofNat 1000)) })
    | .error fault => (.error fault, time)
  | _ => (.ok (), time)

/-! ## Section 4: All operations -/

/-- What an operation can come to. -/
inductive RunOutcome (kind : Option (EngineKind ε)) (instant : Double) (s : Session ε)
    (command : Command) : Result Unit → Session ε → Prop where
  /-- The session is set up. -/
  | init {options : Value} {r : Result Unit} {t : Session ε} (hcommand : command = .init options)
      (h : InitOutcome kind instant options s r t) : RunOutcome kind instant s command r t
  /-- A session that was never set up is not reset. -/
  | skipped (hcommand : command.resets = true) (hoptions : s.lastOptions = none) (o : Option ε)
      (ho : kind = none → s.engine = none → o = none) :
      RunOutcome kind instant s command (.ok ()) { s with engine := o }
  | reset {options : Fields} {r : Result Unit} {t : Session ε} (hcommand : command.resets = true)
      (hoptions : s.lastOptions = some options) (h : ResetOutcome kind instant options s r t) :
      RunOutcome kind instant s command r t
  /-- What follows the reset changes the engine alone. -/
  | reloaded {options : Fields} {t : Session ε} (hcommand : command.resets = true)
      (hoptions : s.lastOptions = some options) (h : ResetOutcome kind instant options s (.ok ()) t)
      (o : Option ε) (ho : kind = none → t.engine = none → o = none) :
      RunOutcome kind instant s command (.ok ()) { t with engine := o }
  /-- The clock is moved, or stays. -/
  | moved (hcommand : command.transports = true) (o : Option ε)
      (ho : kind = none → s.engine = none → o = none) :
      RunOutcome kind instant s command (s.time.run instant command).1
        { s with clock := (s.time.run instant command).2.clock, engine := o }

theorem EngineAsked.eq_none {call : Call} {o o' : Option ε} (h : EngineAsked kind call o o') :
    kind = none → o = none → o' = none := by
  rintro rfl ho
  exact Eq.trans h ho

theorem RunOutcome.of_time {c : Clock} {o : Option ε} (hcommand : command.transports = true)
    (htime : s.time.run instant command = (r, ⟨c, s.lastOptions.isSome⟩))
    (ho : kind = none → s.engine = none → o = none) :
    RunOutcome kind instant s command r { s with clock := c, engine := o } := by
  have hmoved : RunOutcome kind instant s command _ _ := .moved hcommand o ho
  rwa [htime] at hmoved

/-- An operation that only asks the engine leaves the time as it is. -/
theorem ask_outcome {call : Call} (hcommand : command.transports = true)
    (htime : s.time.run instant command = (.ok (), s.time)) :
    (ask kind call).Leaves s fun r t => RunOutcome kind instant s command r t := by
  refine (ask_leaves kind call s).mono ?_
  rintro _ _ ⟨rfl, o, ho, rfl⟩
  exact .of_time hcommand htime ho.eq_none

theorem reset_leaves (hcommand : command.resets = true) (hoptions : s.lastOptions = some options)
    (kind : Option (EngineKind ε)) (instant : Double) :
    (run kind instant command).Leaves s fun r t => RunOutcome kind instant s command r t := by
  have hreset := reset_outcome kind instant hoptions
  cases command with
  | reset => exact hreset.mono fun _ _ h => .reset rfl hoptions h
  | reload script l =>
    refine .bind hreset ?_ fun _ _ h => .reset rfl hoptions h
    intro _ u hu
    refine (ask_leaves kind _ u).mono ?_
    rintro _ _ ⟨rfl, o, ho, rfl⟩
    exact .reloaded rfl hoptions hu o ho.eq_none
  | _ => cases hcommand

theorem reset_skips (hcommand : command.resets = true) (hoptions : s.lastOptions = none)
    (kind : Option (EngineKind ε)) (instant : Double) :
    (run kind instant command).Leaves s fun r t => RunOutcome kind instant s command r t := by
  have hreset : (reset kind instant).Leaves s fun r t => r = .ok () ∧ t = s := by
    unfold reset
    refine .bind_get ?_
    rw [hoptions]
    exact .of_note ⟨rfl, rfl⟩
  cases command with
  | reset =>
    refine hreset.mono ?_
    rintro _ t ⟨rfl, rfl⟩
    exact .skipped rfl hoptions t.engine fun _ h => h
  | reload script l =>
    refine .bind hreset ?_ fun _ _ h => nomatch h.1
    rintro _ t ⟨-, rfl⟩
    refine (ask_leaves kind _ t).mono ?_
    rintro _ _ ⟨rfl, o, ho, rfl⟩
    exact .skipped rfl hoptions o ho.eq_none
  | _ => cases hcommand

theorem run_outcome (kind : Option (EngineKind ε)) (instant : Double) (command : Command)
    (s : Session ε) :
    (run kind instant command).Leaves s fun r t => RunOutcome kind instant s command r t := by
  have hresets : command.resets = true →
      (run kind instant command).Leaves s fun r t => RunOutcome kind instant s command r t := by
    intro hcommand
    cases hoptions : s.lastOptions with
    | none => exact reset_skips hcommand hoptions kind instant
    | some options => exact reset_leaves hcommand hoptions kind instant
  cases command with
  | init options => exact (init_outcome kind instant options s).mono fun _ _ h => .init rfl h
  | reset => exact hresets rfl
  | reload script l => exact hresets rfl
  | play =>
    refine (play_leaves kind instant s).mono ?_
    rintro _ _ ⟨rfl, o, ho, rfl⟩
    exact .of_time rfl rfl ho.eq_none
  | pause =>
    refine (pause_leaves kind instant s).mono ?_
    rintro _ _ ⟨rfl, o, ho, rfl⟩
    exact .of_time rfl rfl ho.eq_none
  | toggle =>
    refine .bind_get ?_
    split
    · next hrunning =>
      refine (pause_leaves kind instant s).mono ?_
      rintro _ _ ⟨rfl, o, ho, rfl⟩
      refine .of_time rfl ?_ ho.eq_none
      simp [Time.run, time, hrunning]
    · next hstopped =>
      refine (play_leaves kind instant s).mono ?_
      rintro _ _ ⟨rfl, o, ho, rfl⟩
      refine .of_time rfl ?_ ho.eq_none
      simp [Time.run, time, hstopped]
  | seek seconds refresh =>
    refine .bind_ofResult (fun x hx => ?_) fun fault hfault => ?_
    · refine .bind_modify ((ask_leaves kind _ _).mono ?_)
      rintro _ _ ⟨rfl, o, ho, rfl⟩
      refine .of_time rfl ?_ ho.eq_none
      simp [Time.run, time, position, hx]
    · refine .of_time (o := s.engine) rfl ?_ fun _ h => h
      simp [Time.run, time, position, hfault]
  | clear => exact ask_outcome rfl rfl
  | visible shown => exact ask_outcome rfl rfl
  | resize width height => exact ask_outcome rfl rfl
  | remove id => exact ask_outcome rfl rfl
  | addParsed entry test l => exact ask_outcome rfl rfl
  | addScript script test l => exact ask_outcome rfl rfl
  | dropEngine => exact .of_modify (.of_time rfl rfl fun _ _ => rfl)

/-! ## Section 5: What operations keep -/

/-- The options that a session remembers fill in the default ones. -/
def Remembers (s : Session ε) : Prop :=
  ∀ options, s.lastOptions = some options → ∃ given, options = Fields.merge defaultOptions given

theorem remembers_merge (given : Fields) (h : t.lastOptions = some (Fields.merge defaultOptions given)) :
    t.Remembers := by
  intro options ho
  rw [h] at ho
  exact ⟨given, (Option.some.inj ho).symm⟩

theorem InitOutcome.remembers {options : Value} (h : InitOutcome kind instant options s r t)
    (hs : s.Remembers) : t.Remembers := by
  cases h with
  | refused => exact hs
  | _ => exact remembers_merge _ rfl

theorem RebuildOutcome.remembers (h : RebuildOutcome kind instant options s r t) : t.Remembers := by
  cases h with
  | _ => exact remembers_merge options rfl

theorem ResetOutcome.remembers (h : ResetOutcome kind instant options s r t)
    (hoptions : s.lastOptions = some options) (hs : s.Remembers) : t.Remembers := by
  cases h with
  | cleared => exact fun o ho => hs o (hoptions.trans ho)
  | rebuilt o ho h => exact h.remembers

/-- Every operation keeps the options of a session such. -/
theorem RunOutcome.remembers (h : RunOutcome kind instant s command r t) (hs : s.Remembers) :
    t.Remembers := by
  cases h with
  | init hcommand h => exact h.remembers hs
  | skipped => exact hs
  | reset hcommand hoptions h => exact h.remembers hoptions hs
  | reloaded hcommand hoptions h => exact h.remembers hoptions hs
  | moved => exact hs

theorem Reached.remembers (h : Reached kind s) : s.Remembers := by
  induction h with
  | start clock => exact fun _ ho => nomatch ho
  | step h instant command w ih => exact (run_outcome kind instant command _ w).remembers ih
  | shared h clock f ih => exact ih

/-- A session that was set up once stays so, whatever is done with it. -/
theorem RunOutcome.isSome_lastOptions (h : RunOutcome kind instant s command r t)
    (hs : s.lastOptions.isSome = true) : t.lastOptions.isSome = true := by
  have hreset : ∀ {options r t}, s.lastOptions = some options →
      ResetOutcome kind instant options s r t → t.lastOptions.isSome = true := by
    intro options r t hoptions h
    cases h with
    | cleared => rfl
    | rebuilt o ho h => cases h with | _ => rfl
  cases h with
  | init hcommand h =>
    cases h with
    | refused => exact hs
    | _ => rfl
  | skipped => exact hs
  | reset hcommand hoptions h => exact hreset hoptions h
  | reloaded hcommand hoptions h =>
    have hset := hreset hoptions h
    exact hset
  | moved => exact hs

theorem run_leaves_setUp (kind : Option (EngineKind ε)) (instant : Double) (command : Command)
    (hs : s.lastOptions.isSome = true) :
    (run kind instant command).Leaves s fun _ t => t.lastOptions.isSome = true :=
  (run_outcome kind instant command s).mono fun _ _ h => h.isSome_lastOptions hs

/-- The default options are not filled in twice. -/
theorem Remembers.merge_eq (h : s.Remembers) (hoptions : s.lastOptions = some options) :
    Fields.merge defaultOptions options = options := by
  obtain ⟨given, rfl⟩ := h options hoptions
  apply Fields.merge_merge
  · unfold Fields.Distinct
    decide
  · decide

theorem ResetOutcome.engine_eq_none (h : ResetOutcome none instant options s r t)
    (hs : s.engine = none) : t.engine = none := by
  cases h with
  | cleared hkind => cases hkind
  | rebuilt o ho h =>
    cases h with
    | absent => exact (ho rfl).trans hs
    | failed hkind => cases hkind
    | built hkind => cases hkind

/-- Nothing gives an engine to a session that has no way to build one. -/
theorem RunOutcome.engine_eq_none (h : RunOutcome none instant s command r t) (hs : s.engine = none) :
    t.engine = none := by
  cases h with
  | init hcommand h =>
    cases h with
    | refused => exact hs
    | absent => exact hs
    | failed _ hkind => cases hkind
    | built _ hkind => cases hkind
  | skipped _ _ o ho => exact ho rfl hs
  | reset hcommand hoptions h => exact h.engine_eq_none hs
  | reloaded hcommand hoptions h o ho => exact ho rfl (h.engine_eq_none hs)
  | moved hcommand o ho => exact ho rfl hs

theorem Reached.engine_eq_none (h : Reached none s) : s.engine = none := by
  induction h with
  | start clock => rfl
  | step h instant command w ih => exact (run_outcome none instant command _ w).engine_eq_none ih
  | shared h clock f ih => exact congrArg (Option.map f) ih

end Overlay.Session
