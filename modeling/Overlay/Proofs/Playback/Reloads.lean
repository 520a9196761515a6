import Overlay.Proofs.Playback.EditorTime
import Overlay.Proofs.Preview.Loading
import Overlay.Proofs.Script.Complaints

/-!
# Reloads

A reload leaves nothing of what a preview engine held before.  The reset at its beginning empties both
shelves, whether the engine is emptied or a new one is built, and answers nobody; what is answered and
what lies on the shelves afterwards therefore comes from the new script alone.

## Main definitions
- `Session.Discreet`: engines that answer only those who ask for an entry to be loaded
- `Session.ReloadOutcome`: what a script has come to, and who was answered

## Main statements
- `Session.silent_reset`: a reset answers nobody
- `Session.reset_empties`: a reset empties both shelves of a preview engine
- `Session.reload_replaces`: what is loaded after a reload
-/

namespace Overlay.Session

open Act

variable {ε : Type} {k : EngineKind ε} {call : Call}

/-! ## Section 1: Who is answered -/

/-- Engines of a kind answer only those who ask for an entry to be loaded. -/
def Discreet (k : EngineKind ε) : Prop :=
  ∀ call : Call, call.method ≠ .add → Silent (k.perform call)

theorem discreet_preview : Discreet PreviewEngine.kind :=
  fun _ h => PreviewEngine.silent_perform h

theorem silent_drive (h : Silent (k.perform call)) (number : Nat) (e : ε) :
    Silent (drive k number call e) := by
  intro s w
  rw [perform_drive]
  refine (h e _).trans ?_
  rw [answers_append]
  rfl

theorem silent_ask (h : Silent (k.perform call)) : Silent (ask (some k) call) := by
  unfold ask
  refine .bind .of_get fun s => ?_
  cases s.engine with
  | none => exact .of_pure ()
  | some e =>
    dsimp only
    split
    · refine .bind (silent_drive h s.builds e) fun ends => .bind (.of_modify _) fun _ => ?_
      cases ends.1 with
      | ok => exact .of_pure ()
      -- a failure is noted, and a note is no answer
      | error fault => exact .of_note _ _
    · exact .of_pure ()

theorem silent_pause (hk : Discreet k) (instant : Double) : Silent (pause (some k) instant) :=
  .bind (silent_ask (hk .pause (by simp [Call.method]))) fun _ => .of_modify _

theorem silent_rewind : Silent (rewind : Act (Session ε) Unit) :=
  .bind .of_get fun _ => .bind (.of_ofResult _) fun _ => .of_set _

theorem silent_buildEngine (hk : Discreet k) (number : Nat) (options : Fields) :
    Silent (buildEngine k number options) := by
  unfold buildEngine
  refine .bind (.of_emit rfl) fun _ => ?_
  split
  · exact .of_pure _
  · next e _ =>
    split
    · exact .bind (silent_drive (hk .init (by simp [Call.method])) number e) fun _ => .of_pure _
    · exact .of_pure _

theorem silent_init (hk : Discreet k) (instant : Double) (options : Value) :
    Silent (init (some k) instant options) := by
  unfold init
  refine .bind (.of_ofResult _) fun given => .bind (.of_modify _) fun _ => ?_
  refine .bind (.of_modify _) fun _ => .bind silent_rewind fun _ => .bind (.of_modify _) fun _ => ?_
  refine .bind (.of_modify _) fun _ => .bind .of_get fun s => ?_
  refine .bind (silent_buildEngine hk _ _) fun built => ?_
  cases built with
  | ok e => exact .of_modify _
  | error fault => exact .bind (.of_modify _) fun _ => .of_stop _

theorem silent_softClear (hk : Discreet k) (number : Nat) (e : ε) :
    Silent (softClear k number e) := by
  unfold softClear
  extract_lets next
  have hnext : ∀ ends, Silent (next ends) := by
    rintro ⟨outcome, e'⟩
    cases outcome with
    | ok => exact .of_pure _
    | error fault => exact .of_pure _
  split
  · exact .bind (silent_drive (hk .clear (by simp [Call.method])) number e) hnext
  · exact .bind (.of_pure _) hnext

theorem silent_rebuild (hk : Discreet k) (instant : Double) (options : Fields) :
    Silent (rebuild (some k) instant options) :=
  .bind (silent_init hk instant _) fun _ => .bind (silent_pause hk instant) fun _ => silent_rewind

/-- A reset answers nobody. -/
theorem silent_reset (hk : Discreet k) (instant : Double) : Silent (reset (some k) instant) := by
  unfold reset
  refine .bind .of_get fun s => ?_
  split
  · exact .of_note _ _
  · next options _ =>
    refine .bind (silent_pause hk instant) fun _ => .bind .of_get fun s => ?_
    split
    · next e hsome _ =>
      cases hsome
      refine .bind (silent_softClear hk s.builds e) fun ends => ?_
      obtain ⟨outcome, e'⟩ := ends
      cases outcome with
      | ok => exact .bind (.of_modify _) fun _ => silent_rewind
      | error fault =>
        refine .bind (.of_note _ _) fun _ => .bind (.of_modify _) fun _ => ?_
        exact silent_rebuild hk instant options
    · exact silent_rebuild hk instant options

/-! ## Section 2: Empty shelves -/

/-- A reset leaves a preview engine that holds nothing: it was emptied, or it is new. -/
theorem reset_empties {s : PreviewSession} {options : Fields} (hoptions : s.lastOptions = some options)
    (instant : Double) :
    (reset (some PreviewEngine.kind) instant).Leaves s fun r t => r = .ok () ∧ t.clock = .start
      ∧ ∃ e, t.engine = some e ∧ e.entries = [] ∧ e.testEntries = [] := by
  refine (reset_outcome _ instant hoptions).mono ?_
  intro r t h
  cases h with
  | cleared hkind =>
    cases hkind
    exact ⟨rfl, rfl, _, rfl, rfl, rfl⟩
  | rebuilt o ho h =>
    cases h with
    | absent hkind => cases hkind
    | failed hkind hfails =>
      cases hkind
      exact absurd hfails (not_buildFails_preview _ _ _)
    | built hkind hbuild hinit hpause =>
      cases hkind
      obtain rfl := Except.ok.inj hbuild
      -- neither setting an engine up nor pausing it loads anything
      cases hinit with
      | missing h => cases h
      | offered =>
        cases hpause with
        | missing h => cases h
        | offered => exact ⟨rfl, rfl, _, rfl, rfl, rfl⟩

/-! ## Section 3: The new script -/

/-- The description of a script as a mapping. -/
def scriptFields (script : String) : Fields :=
  [(.text "text", .text script), (.text "stime", .int 0)]

/-- The request to load a script. -/
def scriptRequest (script : String) (l : Listeners) : AddRequest :=
  ⟨scriptEntry (.text script), .bool false, .bool false, l.accepted, l.rejected⟩

/-- The entry with a number that a script becomes; it starts at zero. -/
def scriptLoaded (script : String) (parsed : Script) (number : Nat) : Entry :=
  ⟨PreviewEngine.numberedId number, Double.zero, .text script, parsed.defsValue, parsed.setsValue⟩

theorem contents_script (script : String) (l : Listeners) :
    PreviewEngine.contents (scriptRequest script l) (scriptFields script)
      = Script.parse script.toList >>= fun p => .ok (p.defsValue, p.setsValue) :=
  rfl

theorem start_script (script : String) :
    (PreviewEngine.orElse (Fields.get (scriptFields script) "stime") (.int 0)).toDouble
      = .ok Double.zero := by
  have hzero : (Number.int 0).toDouble? = some Double.zero := by decide +kernel
  show orFault .wrongKind (Value.number? (.int 0)) >>= _ = _
  simp [Value.number?, hzero]

variable {s : PreviewSession} {e : PreviewEngine} {script : String}

/-- The surroundings when a session has asked its engine to load a script. -/
def scriptAsked (s : PreviewSession) (script : String) (l : Listeners) (w : Surroundings) :
    Surroundings :=
  { w with signals := w.signals ++ [.asked s.builds (.add (scriptRequest script l))] }

theorem answers_scriptAsked (s : PreviewSession) (script : String) (l : Listeners)
    (w : Surroundings) : (scriptAsked s script l w).answers = w.answers :=
  answers_append _ _

theorem perform_addScript_loaded {parsed : Script} (hengine : s.engine = some e)
    (hparse : Script.parse script.toList = .ok parsed) (l : Listeners) (w : Surroundings) :
    let entry := scriptLoaded script parsed (e.loaded + 1)
    (addScript (some PreviewEngine.kind) (.text script) (.bool false) l).perform s w
      = (.ok (), { s with engine := some { e with
            loaded := e.loaded + 1, entries := e.entries ++ [entry] } },
        PreviewEngine.answered l.accepted (.accepted entry) (scriptAsked s script l w)) := by
  refine perform_ask_of_ok (k := PreviewEngine.kind) hengine rfl ?_
  have hcontents := contents_script script l
  rw [hparse, ok_bind] at hcontents
  exact PreviewEngine.perform_add_loaded rfl hcontents (start_script script) e _

theorem perform_addScript_refused {cause : Cause} (hengine : s.engine = some e)
    (hparse : Script.parse script.toList = .error (.refused cause)) (l : Listeners)
    (w : Surroundings) :
    (addScript (some PreviewEngine.kind) (.text script) (.bool false) l).perform s w
      = (.ok (), { s with engine := some e },
        PreviewEngine.answered l.rejected (.rejected cause.message) (scriptAsked s script l w)) := by
  refine perform_ask_of_ok (k := PreviewEngine.kind) hengine rfl ?_
  have hcontents := contents_script script l
  rw [hparse, error_bind] at hcontents
  exact PreviewEngine.perform_add_refused rfl hcontents e _

theorem perform_addScript_raised {fault : Fault} (hengine : s.engine = some e)
    (hparse : Script.parse script.toList = .error fault) (hfault : ∀ cause, fault ≠ .refused cause)
    (l : Listeners) (w : Surroundings) :
    (addScript (some PreviewEngine.kind) (.text script) (.bool false) l).perform s w
      = (.ok (), { s with engine := some e }, { scriptAsked s script l w with
          signals := (scriptAsked s script l w).signals
            ++ [.note .warning ("engine add failed: " ++ fault.report)] }) := by
  refine perform_ask_of_error (k := PreviewEngine.kind) hengine rfl ?_
  have hcontents := contents_script script l
  rw [hparse, error_bind] at hcontents
  exact PreviewEngine.perform_add_raised rfl hcontents hfault e _

/-- What has become of a script that was given to an empty engine, and what was heard of it: it is the one
entry of the engine, it breaks a rule, or it holds a whole number of so many digits that they are not
read.  Nobody is answered in the last case; a warning is noted. -/
inductive ReloadOutcome (script : String) (l : Listeners) (w : Surroundings) :
    Result Script → List Entry → Surroundings → Prop where
  | loaded {parsed : Script} {entry : Entry} {w' : Surroundings} (htext : entry.text = .text script)
      (hstart : entry.start = Double.zero) (hdefs : entry.defs = parsed.defsValue)
      (hsets : entry.sets = parsed.setsValue)
      (hanswers : w'.answers = w.answers ++ (if l.accepted then [.accepted entry] else [])) :
      ReloadOutcome script l w (.ok parsed) [entry] w'
  | refused {cause : Cause} {w' : Surroundings}
      (hanswers : w'.answers = w.answers ++ (if l.rejected then [.rejected cause.message] else [])) :
      ReloadOutcome script l w (.error (.refused cause)) [] w'
  | unread {digits : Nat} {w' : Surroundings} (hdigits : Number.maxIntDigits < digits)
      (hanswers : w'.answers = w.answers)
      (hnote : .note .warning ("engine add failed: " ++ tooLongToReadText digits) ∈ w'.signals) :
      ReloadOutcome script l w (.error (.tooLongToRead digits)) [] w'

/-- Whatever a session was used for before: once it was set up, a reload leaves it at rest, with
nothing loaded but the new script.  Of those who wait, one is answered, and once, with the entry that
the script has become or with what is wrong with the script, unless a whole number in it has more digits
than are read. -/
theorem reload_replaces (hset : s.lastOptions.isSome = true) (instant : Double) (script : String)
    (l : Listeners) (w : Surroundings) :
    let r := (reload (some PreviewEngine.kind) instant (.text script) l).perform s w
    r.1 = .ok () ∧ r.2.1.clock = .start ∧ ∃ e, r.2.1.engine = some e ∧ e.testEntries = []
      ∧ ReloadOutcome script l w (Script.parse script.toList) e.entries r.2.2 := by
  obtain ⟨options, hoptions⟩ := Option.isSome_iff_exists.mp hset
  have hreset := reset_empties hoptions instant w
  have hsilent := silent_reset discreet_preview instant s w
  unfold reload
  rw [perform_bind]
  generalize (reset (some PreviewEngine.kind) instant).perform s w = ends at hreset hsilent
  obtain ⟨r, t, v⟩ := ends
  obtain ⟨rfl, hclock, e, hengine, hentries, htests⟩ := hreset
  -- from here on only the script counts: the engine is empty and nobody has been answered
  dsimp only
  cases hparse : Script.parse script.toList with
  | ok parsed =>
    rw [perform_addScript_loaded hengine hparse]
    refine ⟨rfl, hclock, _, rfl, htests, ?_⟩
    rw [hentries, List.nil_append]
    refine .loaded rfl rfl rfl rfl ?_
    rw [PreviewEngine.answers_answered rfl, answers_scriptAsked, hsilent]
  | error fault =>
    rcases Script.parse_error_cases hparse with ⟨cause, rfl⟩ | ⟨digits, hdigits, rfl⟩
    · rw [perform_addScript_refused hengine hparse]
      refine ⟨rfl, hclock, e, rfl, htests, ?_⟩
      rw [hentries]
      refine .refused ?_
      rw [PreviewEngine.answers_answered rfl, answers_scriptAsked, hsilent]
    · rw [perform_addScript_raised hengine hparse fun _ h => nomatch h]
      refine ⟨rfl, hclock, e, rfl, htests, ?_⟩
      rw [hentries]
      refine .unread hdigits ?_ (List.mem_append_right _ (List.mem_singleton_self _))
      rw [answers_append, answers_scriptAsked, hsilent]
      rfl

/-- A running session with an entry on each shelf. -/
def sampleShelves : PreviewSession :=
  let script := Value.text "def text a \x7b\n\x7d\n"
  [Command.init .none, .addScript script (.bool true) default, .addScript script (.bool false) default,
    .play].foldl (fun s command => ((run (some PreviewEngine.kind) .zero command).perform s default).2.1)
    fresh

/-- A button takes the place of two texts. -/
theorem reload_replaces_sample :
    let s := sampleShelves
    let r := (reload (some PreviewEngine.kind) (.ofNat 1000) (.text "def button b \x7b\n\x7d\n")
      ⟨true, true⟩).perform s default
    s.engine.map (fun e => (e.entries.length, e.testEntries.length)) = some (1, 1)
      ∧ s.clock.isRunning = true ∧ s.lastOptions.isSome = true ∧ r.2.1.clock = .start
      ∧ ∃ e entry, r.2.1.engine = some e ∧ e.entries = [entry] ∧ e.testEntries = []
        ∧ entry.defs = Script.defsValue ⟨[⟨.button, "b", []⟩], []⟩
        ∧ r.2.2.answers = [.accepted entry] := by
  intro s r
  have hset : s.lastOptions.isSome = true := by decide +kernel
  have hparse : Script.parse "def button b \x7b\n\x7d\n".toList
      = .ok ⟨[⟨.button, "b", []⟩], []⟩ := rfl
  obtain ⟨-, hclock, e, hengine, htests, houtcome⟩ :=
    reload_replaces hset (.ofNat 1000) "def button b \x7b\n\x7d\n" ⟨true, true⟩ default
  rw [hparse] at houtcome
  generalize hentries : e.entries = entries at houtcome
  cases houtcome with
  | @loaded _ entry _ _ _ hdefs _ hanswers =>
    exact ⟨by decide +kernel, by decide +kernel, hset, hclock, e, entry, hengine, hentries, htests, hdefs,
      hanswers⟩

end Overlay.Session
