import Overlay.Monitor.Panel
import Overlay.Proofs.Playback.Reloads

/-!
# Recompiling on the panel

A panel shows the session that the last load with success has started, through all that happens to the
file in between.  A recompilation hands that session over to the project of the repaired file and loads
its script there.  It does not start a session: where no load has succeeded so far, the script is shown,
the trouble is over, and yet nothing plays.

## Main definitions
- `Session.Plays`: sessions with nothing loaded but one script
- `Studio.RecompileOutcome`: what loading the script into the preview can come to
- `Panel.Wired`: which session a panel shows, and what is true of it
- `Panel.Reached`: panels that are reached by operations
- `Panel.Previews`: panels that play the script that they show

## Main statements
- `Studio.recompile_outcome`, `Studio.startPreview_leaves`: the preview of a project
- `Panel.Wired.load`, `Panel.Wired.recompile`: what the two ways to load a project leave
- `Panel.Wired.run`: all operations
- `Panel.previews_after_recompile_iff`: when a recompilation brings the preview up
-/

namespace Overlay

open Act

/-! ## Section 1: The preview of a project -/

/-- Nothing is loaded in a session but one script. -/
def Session.Plays (s : PreviewSession) (script : List Char) : Prop :=
  ∃ e entry, s.engine = some e ∧ e.entries = [entry] ∧ entry.text = .text (String.ofList script)

/-- A session that is there was set up. -/
def Prepared (preview : Option PreviewSession) : Prop :=
  ∀ s, preview = some s → s.lastOptions.isSome = true

theorem prepared_none : Prepared none :=
  fun _ h => nomatch h

theorem prepared_some {s : PreviewSession} (h : s.lastOptions.isSome = true) : Prepared (some s) := by
  rintro _ ⟨⟩
  exact h

/-- A session that was set up plays the script that is loaded into it, if this can be read. -/
theorem Session.reload_plays {s : PreviewSession} (hset : s.lastOptions.isSome = true)
    (instant : Double) (script : List Char) (l : Listeners) :
    (Session.reload (some PreviewEngine.kind) instant (.text (String.ofList script)) l).Leaves s
      fun r t => r = .ok () ∧ t.lastOptions.isSome = true
        ∧ ∀ parsed, Script.parse script = .ok parsed → t.Plays script := by
  have hkeeps := run_leaves_setUp (some PreviewEngine.kind) instant
    (.reload (.text (String.ofList script)) l) hset
  obtain ⟨options, hoptions⟩ := Option.isSome_iff_exists.mp hset
  have hloads : (Session.reload (some PreviewEngine.kind) instant (.text (String.ofList script)) l).Leaves
      s fun r t => r = .ok () ∧ ∀ parsed, Script.parse script = .ok parsed → t.Plays script := by
    refine .bind (reset_empties hoptions instant) ?_ fun _ _ h => nomatch h.1
    rintro _ t ⟨-, -, e, hengine, hentries, -⟩ w
    refine ⟨(ask_leaves _ _ t w).1, fun parsed hparse => ?_⟩
    rw [perform_addScript_loaded hengine (by rwa [String.toList_ofList])]
    exact ⟨_, _, rfl, congrArg (· ++ _) hentries, rfl⟩
  exact fun w => ⟨(hloads w).1, hkeeps w, (hloads w).2⟩

namespace Studio

variable {st : Studio}

/-- What loading the script of the project into its preview can come to. -/
inductive RecompileOutcome (st : Studio) : Result (List Char) → Studio → Prop where
  /-- The script cannot be made. -/
  | failed {fault : Fault} (h : st.project.compile = .error fault) :
      RecompileOutcome st (.error fault) st
  /-- There is no preview. -/
  | unseen {script : List Char} (h : st.project.compile = .ok script) (hsession : st.session = none) :
      RecompileOutcome st (.ok script) st
  | loaded {script : List Char} {s t : PreviewSession} (h : st.project.compile = .ok script)
      (hsession : st.session = some s) (hset : t.lastOptions.isSome = true)
      (hplays : ∀ parsed, Script.parse script = .ok parsed → t.Plays script) :
      RecompileOutcome st (.ok script) { st with session := some t }

theorem recompile_outcome (hset : Prepared st.session) (instant : Double) :
    (recompile instant).Leaves st (RecompileOutcome st) := by
  unfold recompile
  refine .bind_get (.bind_ofResult (fun script hscript => ?_) fun fault hfault => .failed hfault)
  unfold onSession
  refine .bind (q := fun r t => r = .ok () ∧ RecompileOutcome st (.ok script) t) ?_ ?_ ?_
  · refine .bind_get ?_
    cases hsession : st.session with
    | none => exact .of_pure ⟨rfl, .unseen hscript hsession⟩
    | some s =>
      have hreload := Session.reload_plays (hset s hsession) instant script ⟨false, true⟩
      refine .of_on ?_
      rw [hsession]
      refine .of_mapSignals _ (hreload.mono ?_)
      rintro _ t ⟨rfl, ht, hplays⟩
      exact ⟨rfl, .loaded hscript hsession ht hplays⟩
  · rintro _ t ⟨-, h⟩
    exact .of_pure h
  · rintro fault t ⟨h, -⟩
    cases h

/-- Setting a session up as the preview of a project remembers the options, also where it fails. -/
theorem onSession_init_leaves (project : Project) (s : PreviewSession) (instant : Double)
    (options : Fields) :
    (onSession (Session.init (some PreviewEngine.kind) instant (.dict options))).Leaves
      ⟨project, some s⟩ fun _ t => ∃ u, t = ⟨project, some u⟩ ∧ u.lastOptions.isSome = true := by
  unfold onSession
  refine .bind_get (.of_on ((Session.init_outcome _ instant _ s).mono ?_))
  intro r t h
  cases h with
  | refused h => cases (Session.requested_dict options).symm.trans h
  | _ => exact ⟨_, rfl, rfl⟩

/-- A project is given a session that has been set up, also where its script cannot be made. -/
theorem startPreview_leaves (project : Project) (instant : Double) (container : Value) :
    (startPreview instant container).Leaves ⟨project, none⟩ fun r t =>
      Prepared t.session
        ∧ (r = .ok () → t.session.isSome = true ∧ ∃ script, project.compile = .ok script) := by
  unfold startPreview
  refine .bind_get ?_
  extract_lets next options
  rw [if_pos (by rfl)]
  refine .bind_set (.bind (onSession_init_leaves project .fresh instant options) ?_ ?_)
  · rintro _ _ ⟨s, rfl, hs⟩
    refine .bind (recompile_outcome (prepared_some hs) instant) ?_ ?_
    · intro script t h
      cases h with
      | unseen h hsession => cases hsession
      | loaded h hsession ht hplays =>
        exact .of_pure ⟨prepared_some ht, fun _ => ⟨rfl, script, h⟩⟩
    · intro fault t h
      cases h with
      | failed h => exact ⟨prepared_some hs, fun hr => nomatch hr⟩
  · rintro fault _ ⟨s, rfl, hs⟩
    exact ⟨prepared_some hs, fun hr => nomatch hr⟩

end Studio

namespace Panel

variable {α : Type} {scene : Scene} {p q : Panel} {loaded : Bool}

/-! ## Section 2: What is noted -/

/-- What comes in as a signal goes to the log and to the journal alone. -/
theorem hear_eq (stamp : String) (p : Panel) (signal : Signal) :
    ∃ log journal, hear stamp p signal = { p with log := log, journal := journal } := by
  cases signal with
  | note level message =>
    rw [hear]
    split
    · rw [showLine]
      split
      · exact ⟨_, _, rfl⟩
      · exact ⟨p.log, _, rfl⟩
    · exact ⟨p.log, p.journal, rfl⟩
  | _ => exact ⟨p.log, p.journal, rfl⟩

theorem foldl_hear (stamp : String) (heard : List Signal) (p : Panel) :
    ∃ log journal, heard.foldl (hear stamp) p = { p with log := log, journal := journal } := by
  induction heard generalizing p with
  | nil => exact ⟨p.log, p.journal, rfl⟩
  | cons signal heard ih =>
    obtain ⟨log, journal, h⟩ := hear_eq stamp p signal
    obtain ⟨log', journal', h'⟩ := ih { p with log := log, journal := journal }
    exact ⟨log', journal', by rw [List.foldl_cons, h, h']⟩

theorem perform_listening (stamp : String) (act : Act Panel α) (p : Panel) (w : Surroundings) :
    (listening stamp act).perform p w
      = let r := act.perform p { w with signals := [] }
        (r.1, r.2.2.signals.foldl (hear stamp) r.2.1, { r.2.2 with signals := w.signals }) :=
  rfl

theorem listening_leaves {act : Act Panel α} {r : Result α → Panel → Prop} (stamp : String)
    (h : act.Leaves p fun a t => ∀ log journal, r a { t with log := log, journal := journal }) :
    (listening stamp act).Leaves p r := by
  intro w
  have hact := h { w with signals := [] }
  rw [perform_listening]
  obtain ⟨log, journal, heq⟩ := foldl_hear stamp
    (act.perform p { w with signals := [] }).2.2.signals (act.perform p { w with signals := [] }).2.1
  dsimp only
  rw [heq]
  exact hact log journal

theorem tell_eq (trouble : String) (p : Panel) :
    ∃ log, tell trouble p = { p with trouble := some trouble, log := log } := by
  unfold tell showLine
  split
  · exact ⟨_, rfl⟩
  · exact ⟨p.log, rfl⟩

@[simp] theorem trouble_tell (trouble : String) (p : Panel) :
    (tell trouble p).trouble = some trouble := by
  obtain ⟨log, htell⟩ := tell_eq trouble p
  rw [htell]

theorem present_eq (script : List Char) (p : Panel) :
    ∃ log, present script p = { p with script := script, trouble := none, log := log } := by
  unfold present showScript
  split
  · exact ⟨_, rfl⟩
  · exact ⟨p.log, rfl⟩

/-- Reading the file changes nothing but what is noted. -/
theorem openProject_leaves (scene : Scene) (p : Panel) :
    (openProject scene).Leaves p fun _ t =>
      ∃ log journal, t = { p with log := log, journal := journal } := by
  unfold openProject
  refine .bind_get (listening_leaves _ ?_)
  have hleft : (Project.ofFile scene.folder p.path .none : Act Panel Project).Leaves p
      fun _ t => t = p :=
    .bind_ofResult (fun _ _ _ => rfl) fun _ _ => rfl
  refine hleft.mono ?_
  rintro _ _ rfl log journal
  exact ⟨log, journal, rfl⟩

theorem onStudio_leaves {act : Act Studio α} {r : Result (Option α) → Panel → Prop}
    (hnone : p.studio = none → r (.ok none) p)
    (hsome : ∀ st, p.studio = some st → act.Leaves st fun a t => ∀ log journal,
      r (a.map some) { p with studio := some t, log := log, journal := journal }) :
    (onStudio scene act).Leaves p r := by
  unfold onStudio
  refine .bind_get ?_
  cases hstudio : p.studio with
  | none => exact .of_pure (hnone hstudio)
  | some st =>
    refine listening_leaves _ (.of_on ?_)
    rw [hstudio]
    refine .bind (hsome st hstudio) ?_ ?_
    · intro a t h
      exact .of_pure h
    · intro fault t h
      exact h

/-! ## Section 3: The session that is shown -/

/-- The session of the project. -/
def preview (p : Panel) : Option PreviewSession :=
  p.studio.bind Studio.session

/-- What can be shown once a project was loaded with success, and what before. -/
inductive Shows (preview : Option PreviewSession) : Bool → Watched → Prop where
  | nothing : Shows preview false .nothing
  | studio (h : preview.isSome = true) : Shows preview true .studio
  | former {s : PreviewSession} (h : s.lastOptions.isSome = true) : Shows preview true (.former s)

/-- A panel on which projects were loaded with success, or none was.  All its sessions were set up. -/
structure Wired (loaded : Bool) (p : Panel) : Prop where
  prepared : Prepared p.preview
  shows : Shows p.preview loaded p.watched

namespace Wired

variable {s : PreviewSession}

theorem of_eq (h : Wired loaded p) (hstudio : q.studio = p.studio) (hwatched : q.watched = p.watched) :
    Wired loaded q := by
  have hpreview : q.preview = p.preview := congrArg (Option.bind · Studio.session) hstudio
  refine ⟨?_, ?_⟩
  · rw [hpreview]
    exact h.prepared
  · rw [hpreview, hwatched]
    exact h.shows

theorem start (path : String) (attached mounted keepsJournal : Bool) :
    Wired false (Panel.start path attached mounted keepsJournal) :=
  ⟨prepared_none, .nothing⟩

theorem isSome_session? (h : Wired loaded p) : p.session?.isSome = loaded := by
  have hshows := h.shows
  unfold session?
  generalize p.watched = watched at hshows
  cases hshows with
  | nothing => rfl
  | studio hpreview => exact hpreview
  | former hset => rfl

theorem isSome_lastOptions (h : Wired loaded p) (hs : p.session? = some s) :
    s.lastOptions.isSome = true := by
  have hshows := h.shows
  unfold session? at hs
  generalize p.watched = watched at hshows hs
  cases hshows with
  | nothing => cases hs
  | studio hpreview => exact h.prepared s hs
  | former hset =>
    obtain rfl := Option.some.inj hs
    exact hset

/-- The project keeps its session, or is given one, and what is shown stays the same. -/
theorem withStudio (h : Wired loaded p) {st : Studio} (hset : Prepared st.session)
    (hkeeps : p.watched = .studio → st.session.isSome = true) :
    Wired loaded { p with studio := some st } := by
  have hshows := h.shows
  refine ⟨hset, ?_⟩
  show Shows st.session loaded p.watched
  generalize p.watched = watched at hshows hkeeps
  cases hshows with
  | nothing => exact .nothing
  | studio => exact .studio (hkeeps rfl)
  | former hs => exact .former hs

theorem putSession (h : Wired loaded p) (hs : s.lastOptions.isSome = true) :
    Wired loaded (p.putSession s) := by
  have hshows := h.shows
  unfold Panel.putSession
  generalize hwatched : p.watched = watched at hshows
  cases hshows with
  | nothing => exact h
  | studio hsome =>
    obtain ⟨u, hu⟩ := Option.isSome_iff_exists.mp hsome
    obtain ⟨st, hst, -⟩ := Option.bind_eq_some_iff.mp hu
    rw [hst]
    have hput : Prepared ({ st with session := some s } : Studio).session := prepared_some hs
    exact (h.withStudio hput fun _ => rfl).of_eq rfl hwatched.symm
  | former => exact ⟨h.prepared, .former hs⟩

/-- What is done with the session that is shown keeps the panel wired, if it does not undo its setup. -/
theorem onSession (h : Wired loaded p) {act : Act PreviewSession Unit}
    (hact : ∀ s, s.lastOptions.isSome = true →
      act.Leaves s fun _ t => t.lastOptions.isSome = true) (scene : Scene) :
    (onSession scene act).Leaves p fun _ t => Wired loaded t := by
  unfold Panel.onSession
  refine .bind_get ?_
  cases hsession : p.session? with
  | none => exact .of_pure h
  | some s =>
    refine listening_leaves _ (.of_on ?_)
    rw [hsession]
    refine (hact s (h.isSome_lastOptions hsession)).mono fun _ t ht _ _ => ?_
    exact (h.putSession ht).of_eq rfl rfl

/-- The script of the project is loaded into the session of the project, if there is one. -/
theorem recompileStudio (h : Wired loaded p) (scene : Scene) :
    (onStudio scene (Studio.recompile scene.instant)).Leaves p fun r t =>
      Wired loaded t ∧ t.watched = p.watched ∧ (r = .ok none → p.studio = none)
        ∧ ∀ script, r = .ok (some script) → ∀ parsed, Script.parse script = .ok parsed →
          ∀ s, t.preview = some s → s.Plays script := by
  refine onStudio_leaves (fun hstudio => ⟨h, rfl, fun _ => hstudio, fun _ hr => nomatch hr⟩) ?_
  intro st hstudio
  have hpreview : p.preview = st.session := by
    unfold preview
    rw [hstudio]
    rfl
  have hset : Prepared st.session := hpreview ▸ h.prepared
  have hsame : p.watched = .studio → st.session.isSome = true := by
    intro hwatched
    have hshows := h.shows
    rw [hwatched, hpreview] at hshows
    cases hshows with
    | studio hsome => exact hsome
  refine (Studio.recompile_outcome hset scene.instant).mono ?_
  intro r t houtcome log journal
  have hunset : Wired loaded { p with studio := some st, log := log, journal := journal } :=
    (h.withStudio hset hsame).of_eq rfl rfl
  cases houtcome with
  -- where the script cannot be made, or nothing plays, the project is left as it was
  | failed hfault => exact ⟨hunset, rfl, (fun hr => nomatch hr), fun _ hr => nomatch hr⟩
  | unseen hscript hnone =>
    refine ⟨hunset, rfl, (fun hr => nomatch hr), ?_⟩
    intro _ _ _ _ s hs
    cases hnone.symm.trans hs
  | loaded hscript hsome ht hplays =>
    refine ⟨?_, rfl, (fun hr => nomatch hr), ?_⟩
    · exact (h.withStudio (prepared_some ht) fun _ => rfl).of_eq rfl rfl
    · rintro _ ⟨⟩ parsed hparse _ ⟨⟩
      exact hplays parsed hparse

/-- Another project takes the place of the one that is there, and its session is not shown yet. -/
theorem replaceStudio (h : Wired loaded p) (project : Project) :
    Wired loaded (p.replaceStudio ⟨project, none⟩)
      ∧ (p.replaceStudio ⟨project, none⟩).watched ≠ .studio := by
  have hshows := h.shows
  unfold Panel.replaceStudio
  generalize hwatched : p.watched = watched at hshows
  cases hshows with
  | nothing => exact ⟨⟨prepared_none, .nothing⟩, fun hw => nomatch hw⟩
  | studio hsome =>
    -- the session of the project that goes is shown on
    obtain ⟨s, hs⟩ := Option.isSome_iff_exists.mp hsome
    have hsession : p.session? = some s := by
      rw [session?, hwatched]
      exact hs
    rw [hsession]
    exact ⟨⟨prepared_none, .former (h.prepared s hs)⟩, fun hw => nomatch hw⟩
  | former hset => exact ⟨⟨prepared_none, .former hset⟩, fun hw => nomatch hw⟩

/-- A new project is given a session, which may be shown if all went well. -/
theorem startPreview (h : Wired loaded p) {project : Project} (hstudio : p.studio = some ⟨project, none⟩)
    (hnew : p.watched ≠ .studio) (scene : Scene) :
    (onStudio scene (Studio.startPreview scene.instant .none)).Leaves p fun r t => match r with
      | .ok _ => Wired true { t with watched := .studio } ∧ ∃ script, project.compile = .ok script
      | .error _ => Wired loaded t := by
  refine onStudio_leaves (fun hnone => ?_) fun st hst => ?_
  · cases hstudio.symm.trans hnone
  · obtain rfl := Option.some.inj (hstudio.symm.trans hst)
    refine (Studio.startPreview_leaves project scene.instant .none).mono ?_
    rintro r t ⟨hset, hstarted⟩ log journal
    cases r with
    | ok _ =>
      obtain ⟨hsome, hcompiles⟩ := hstarted rfl
      exact ⟨⟨hset, .studio hsome⟩, hcompiles⟩
    | error fault => exact (h.withStudio hset fun hw => absurd hw hnew).of_eq rfl rfl

/-- A load that succeeds shows the session that it has started, and one that fails shows what was shown
before. -/
theorem loadProject (h : Wired loaded p) (scene : Scene) :
    (loadProject scene).Leaves p fun r t => match r with
      | .ok _ => Wired true t ∧ t.trouble = none
      | .error _ => Wired loaded t := by
  unfold Panel.loadProject
  refine .bind (openProject_leaves scene p) ?_ fun _ _ ⟨_, _, heq⟩ => by
    rw [heq]
    exact h.of_eq rfl rfl
  rintro project _ ⟨log, journal, rfl⟩
  have hopened : Wired loaded { p with log := log, journal := journal } := h.of_eq rfl rfl
  obtain ⟨hreplaced, hnew⟩ := hopened.replaceStudio project
  refine .bind_modify (.bind (hreplaced.startPreview rfl hnew scene) ?_ fun _ _ ht => ht)
  -- the preview has made the script, so it can be made once more: nothing fails from here on
  rintro _ t ⟨ht, script, hscript⟩
  refine .bind_modify (.bind_known hscript (.of_modify ?_))
  obtain ⟨log, hpresent⟩ := present_eq script { t with watched := .studio }
  rw [hpresent]
  exact ⟨ht.of_eq rfl rfl, rfl⟩

theorem tell (h : Wired loaded p) (trouble : String) : Wired loaded (p.tell trouble) := by
  obtain ⟨log, htell⟩ := tell_eq trouble p
  rw [htell]
  exact h.of_eq rfl rfl

theorem load (h : Wired loaded p) (scene : Scene) :
    (load scene).Leaves p fun _ t => Wired (loaded || t.trouble.isNone) t := by
  unfold Panel.load
  refine .bind_attempt (h.loadProject scene) ?_
  intro a t ht
  cases a with
  | ok _ =>
    obtain ⟨ht, hcalm⟩ := ht
    refine .of_pure ?_
    rw [hcalm]
    simpa using ht
  | error fault =>
    have htold := ht.tell fault.report
    exact .of_modify (by simpa using htold)

/-- The session that is shown, if there is one, becomes that of another project. -/
theorem handOver (h : Wired loaded p) (project : Project) :
    Wired loaded { p with
      studio := some ⟨project, p.session?⟩
      watched := if p.session?.isSome then .studio else .nothing } := by
  refine ⟨fun s hs => h.isSome_lastOptions hs, ?_⟩
  show Shows p.session? loaded (if p.session?.isSome then .studio else .nothing)
  have hsome := h.isSome_session?
  rw [hsome]
  cases loaded with
  | false => exact .nothing
  | true => exact .studio hsome

end Wired

/-- The session of the project is shown, and it plays the script that the panel shows. -/
def Previews (p : Panel) : Prop :=
  p.watched = .studio ∧ ∃ s, p.preview = some s ∧ s.Plays p.script

theorem Wired.exists_preview (h : Wired true p) (hwatched : p.watched = .studio) :
    ∃ s, p.preview = some s := by
  have hshows := h.shows
  rw [hwatched] at hshows
  cases hshows with
  | studio hsome => exact Option.isSome_iff_exists.mp hsome

theorem Wired.session?_eq_none (h : Wired false p) : p.session? = none := by
  simpa using h.isSome_session?

/-- The session that is shown moves over to the project of the file; none is started. -/
theorem Wired.recompile (h : Wired loaded p) (scene : Scene) :
    (recompile scene).Leaves p fun r t => Wired loaded t
      ∧ (r = .ok () → t.trouble = none → loaded = true → ∀ parsed,
        Script.parse t.script = .ok parsed → t.Previews) := by
  unfold Panel.recompile
  refine .bind_attempt (openProject_leaves scene p) ?_
  rintro a _ ⟨log, journal, rfl⟩
  have hopened : Wired loaded { p with log := log, journal := journal } := h.of_eq rfl rfl
  cases a with
  | error fault =>
    refine .of_modify ⟨hopened.tell fault.report, fun _ hcalm => ?_⟩
    rw [trouble_tell] at hcalm
    cases hcalm
  | ok project =>
    have hmoved := hopened.handOver project
    have hsome := hopened.isSome_session?
    refine .bind_modify (.bind (hmoved.recompileStudio scene) ?_ ?_)
    · rintro answer t ⟨ht, hwatched, hnone, hplays⟩
      refine .bind_modify (.of_modify ?_)
      obtain ⟨log', hpresent⟩ := present_eq (answer.getD []) t
      rw [hpresent]
      refine ⟨ht.of_eq rfl rfl, ?_⟩
      rintro - - rfl parsed hparse
      cases answer with
      -- there is a project, so there is a script
      | none => cases hnone rfl
      | some script =>
        have hstudio : t.watched = .studio := by
          rw [hwatched, hsome]
          rfl
        obtain ⟨s, hs⟩ := ht.exists_preview hstudio
        exact ⟨hstudio, s, hs, hplays script rfl parsed hparse s hs⟩
    · rintro fault t ⟨ht, -⟩
      exact ⟨ht, fun hr => nomatch hr⟩

/-! ## Section 4: All operations -/

/-- The operations that load the project. -/
def Command.loads : Command → Bool
  | .mount => true
  | .load => true
  | _ => false

/-- Whether a project was loaded with success by an operation that left a panel. -/
def Command.brings (command : Command) (after : Panel) : Bool :=
  command.loads && after.trouble.isNone

theorem Wired.seekBy (h : Wired loaded p) (scene : Scene) (offset : Double) :
    (seekBy scene offset).Leaves p fun _ t => Wired loaded t := by
  refine h.onSession (fun s hs => .bind_get ?_) scene
  extract_lets seconds target
  exact Session.run_leaves_setUp _ scene.instant (.seek (.float target) (.bool false)) hs

theorem Wired.refreshClock (h : Wired loaded p) (scene : Scene) :
    (refreshClock scene).Leaves p fun _ t => Wired loaded t := by
  unfold Panel.refreshClock
  refine .bind_get ?_
  split
  · split
    · exact .of_set (h.of_eq rfl rfl)
    · exact .bind_ofResult (fun text _ => .of_set (h.of_eq rfl rfl)) fun _ _ => h
  · exact .of_pure h

theorem Wired.refreshObjects (h : Wired loaded p) (scene : Scene) :
    (refreshObjects scene).Leaves p fun _ t => Wired loaded t := by
  unfold Panel.refreshObjects
  refine .bind_get ?_
  split
  · split
    · split
      · refine .bind_ofResult (fun states _ => ?_) fun _ _ => h
        exact .bind_ofResult (fun text _ => .of_set (h.of_eq rfl rfl)) fun _ _ => h
      · exact .of_pure h
    · exact .of_pure h
  · exact .of_pure h

theorem Wired.refresh (h : Wired loaded p) (scene : Scene) :
    (refresh scene).Leaves p fun _ t => Wired loaded t :=
  .bind (h.refreshClock scene) (fun _ _ ht => ht.refreshObjects scene) fun _ _ ht => ht

/-- Only a load decides whether there is a session to show. -/
theorem Wired.run (h : Wired loaded p) (scene : Scene) (command : Command) :
    (run scene command).Leaves p fun _ t => Wired (loaded || command.brings t) t := by
  have hkeeps : ∀ {act : Act Panel Unit}, command.loads = false →
      act.Leaves p (fun _ t => Wired loaded t) →
      act.Leaves p fun _ t => Wired (loaded || command.brings t) t := by
    intro act hcommand hact
    refine hact.mono fun _ t ht => ?_
    rw [Command.brings, hcommand]
    simpa using ht
  cases command with
  | mount =>
    have hset : Wired loaded { p with attached := true, quiet := true, reporting := true } :=
      h.of_eq rfl rfl
    refine .bind_modify (.bind (hset.load scene) ?_ ?_)
    · intro _ t ht
      exact .of_modify (ht.of_eq rfl rfl)
    · intro _ t ht
      exact ht
  | load => exact h.load scene
  | unmount => exact hkeeps rfl (.of_modify (h.of_eq rfl rfl))
  | refresh => exact hkeeps rfl (h.refresh scene)
  | toggle =>
    refine hkeeps rfl (h.onSession (fun s hs => ?_) scene)
    exact Session.run_leaves_setUp _ scene.instant .toggle hs
  | seekBack => exact hkeeps rfl (h.seekBy scene _)
  | seekForward => exact hkeeps rfl (h.seekBy scene _)
  | reset =>
    refine hkeeps rfl (.bind (h.recompileStudio scene) ?_ ?_)
    · intro _ t ht
      exact .of_pure ht.1
    · intro _ t ht
      exact ht.1
  | recompile => exact hkeeps rfl ((h.recompile scene).mono fun _ t ht => ht.1)

/-- What an operation leaves, whether it succeeds or not. -/
def after (scene : Scene) (command : Command) (w : Surroundings) (p : Panel) : Panel :=
  ((run scene command).perform p w).2.1

/-- Panels that are reached by operations, whatever they come to and whatever happens to the files in
between.  It is told whether a project was loaded with success on the way. -/
inductive Reached : Bool → Panel → Prop where
  | start (path : String) (attached mounted keepsJournal : Bool) :
      Reached false (Panel.start path attached mounted keepsJournal)
  | step {loaded : Bool} {p : Panel} (h : Reached loaded p) (scene : Scene) (command : Command)
      (w : Surroundings) :
      Reached (loaded || command.brings (p.after scene command w)) (p.after scene command w)

theorem Reached.wired (h : Reached loaded p) : Wired loaded p := by
  induction h with
  | start path attached mounted keepsJournal => exact .start path attached mounted keepsJournal
  | step h scene command w ih => exact ih.run scene command w

theorem Previews.session?_ne_none (h : p.Previews) : p.session? ≠ none := by
  obtain ⟨hwatched, s, hs, -⟩ := h
  have hsession : p.session? = some s := by
    rw [session?, hwatched]
    exact hs
  rw [hsession]
  exact Option.some_ne_none s

/-- A recompilation that ends without trouble, and whose script can be read, brings the preview up where a
load has succeeded before.  Where none has, it brings nothing up: no session is shown at all. -/
theorem previews_after_recompile_iff (h : Reached loaded p) (scene : Scene) (w : Surroundings)
    (hok : ((run scene .recompile).perform p w).1.isOk = true)
    (hcalm : (p.after scene .recompile w).trouble = none)
    (hreads : (Script.parse (p.after scene .recompile w).script).isOk = true) :
    ((p.after scene .recompile w).Previews ↔ loaded = true)
      ∧ (loaded = false → (p.after scene .recompile w).session? = none) := by
  obtain ⟨hwired, hpreviews⟩ := h.wired.recompile scene w
  have hdone : ((Panel.recompile scene).perform p w).1 = .ok () := by
    cases hr : ((Panel.recompile scene).perform p w).1 with
    | ok _ => rfl
    | error fault =>
      rw [run, hr] at hok
      cases hok
  cases loaded with
  | false =>
    have hdark : (p.after scene .recompile w).session? = none := hwired.session?_eq_none
    refine ⟨⟨fun hshown => absurd hdark hshown.session?_ne_none, fun hloaded => ?_⟩, fun _ => hdark⟩
    cases hloaded
  | true =>
    refine ⟨⟨fun _ => rfl, fun _ => ?_⟩, fun hloaded => ?_⟩
    · cases hparse : Script.parse (p.after scene .recompile w).script with
      | ok parsed => exact hpreviews hdone hcalm rfl parsed hparse
      | error fault =>
        rw [hparse] at hreads
        cases hreads
    · cases hloaded

/-- A scene with a single file. -/
def sampleScene (text : String) : Scene :=
  { (default : Scene) with folder := Folder.ofTexts [("p.yaml", text)] }

/-- The description of a project with a single clip. -/
def sampleText : String :=
  "danmu: 1\nresources:\n- id: r\n  type: text\ntimeline:\n  tracks:\n  - clips:\n"
    ++ "    - resource: r\n      id: c\n"

/-- The description of a project without clips. -/
def emptyText : String :=
  "\x7bdanmu: 1, resources: [], timeline: \x7b\x7d\x7d"

/-- A file that was written after the panel had looked for it is not played when it is recompiled, and one
that was there before is. -/
theorem previews_after_recompile_iff_sample :
    let start := Panel.start "p.yaml" true true true
    let missed := start.after default .load default
    let found := start.after (sampleScene emptyText) .load default
    missed.trouble.isSome = true ∧ found.trouble = none
      ∧ (missed.after (sampleScene sampleText) .recompile default).session? = none
      ∧ ¬(missed.after (sampleScene sampleText) .recompile default).Previews
      ∧ (found.after (sampleScene emptyText) .recompile default).Previews := by
  intro start missed found
  have hmissed : missed.trouble.isSome = true := by decide +kernel
  have hfound : found.trouble = none := by decide +kernel
  have hdark : Reached (false || Command.brings .load missed) missed :=
    (Reached.start "p.yaml" true true true).step default .load default
  have hlit : Reached (false || Command.brings .load found) found :=
    (Reached.start "p.yaml" true true true).step (sampleScene emptyText) .load default
  have hlate : Command.brings .load missed = false := by simp [Command.brings, hmissed]
  have hearly : Command.brings .load found = true := by simp [Command.brings, Command.loads, hfound]
  rw [hlate] at hdark
  rw [hearly] at hlit
  -- the three are looked at in one go, as each of them needs the whole run
  have hquiet : (((run (sampleScene sampleText) .recompile).perform missed default).1.isOk
      && (missed.after (sampleScene sampleText) .recompile default).trouble.isNone
      && (Script.parse (missed.after (sampleScene sampleText) .recompile default).script).isOk) = true := by
    decide +kernel
  simp only [Bool.and_eq_true, Option.isNone_iff_eq_none] at hquiet
  obtain ⟨⟨hok, hcalm⟩, hreads⟩ := hquiet
  obtain ⟨hshown, hnothing⟩ :=
    previews_after_recompile_iff hdark (sampleScene sampleText) default hok hcalm hreads
  obtain ⟨hplays, -⟩ := previews_after_recompile_iff hlit (sampleScene emptyText) default
    (by decide +kernel) (by decide +kernel) (by decide +kernel)
  exact ⟨hmissed, hfound, hnothing rfl, fun h => (nomatch hshown.mp h), hplays.mpr rfl⟩

end Panel

end Overlay
