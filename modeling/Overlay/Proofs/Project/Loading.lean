import Overlay.Proofs.Project.LoadedClips

/-!
# What loading comes to

A description is loaded from the outside in: the resources, then the tracks with their clips.  What has
been loaded so far is the project of the entries so far, so that the whole project is the one of the
whole description.  The loader stops with a report, as long as all values of the description are
guarded.

## Main definitions
- `Timeline.Grows`: what clips do to the length of a timeline
- `Project.filled`: a project with other tracks

## Main statements
- `Project.loadClips_ends`, `Project.loadTracks_ends`: entries that are loaded one after the other
- `Project.load_ends`: a whole description
- `Project.loadedFrom_of_ofData`: a loaded project is the one of its description
- `Project.isReport_of_ofData`: what else loading a guarded description leads to
-/

namespace Overlay

/-! ## Section 1: Growing timelines -/

namespace Timeline

variable {tl : Timeline} {entries more : List Value} {a b c : Value} {g : Bool}

theorem Grows.nil : Grows [] a a :=
  ⟨fun _ => rfl, fun h => absurd rfl h⟩

theorem Grows.append (hfirst : Grows entries a b) (hnext : Grows more b c) :
    Grows (entries ++ more) a c := by
  refine ⟨fun h => ?_, fun h => ?_⟩
  · obtain ⟨hentries, hmore⟩ := List.append_eq_nil_iff.mp h
    rw [hnext.same hmore, hfirst.same hentries]
  · by_cases hmore : more = []
    · rw [hnext.same hmore]
      refine hfirst.nonneg fun hentries => h ?_
      rw [hentries, hmore, List.append_nil]
    · exact hnext.nonneg hmore

theorem Grows.measured (h : Grows entries tl.duration b) (htl : tl.Measured) (tracks : List Track) :
    Measured { tl with tracks := tracks, duration := b } := by
  by_cases hentries : entries = []
  · unfold Measured
    rw [h.same hentries]
    exact htl
  · exact Or.inr (h.nonneg hentries)

/-- A track comes below the others, or a rule refuses it. -/
theorem addTrack_ends (name visible locked : Value) (id : String) (tl : Timeline) :
    (addTrack name (.text id) visible locked).Ends tl (Fault.IsReportIf g) fun _ tl' =>
      ∃ t, (∀ u ∈ tl.tracks, isTrack (.text id) u = false) ∧ t.id = .text id
        ∧ t.clips = [] ∧ (name ≠ .none → t.name = name)
        ∧ tl' = { tl with tracks := tl.tracks ++ [t] } := by
  unfold addTrack
  refine .bind_pure (.bind_get ?_)
  extract_lets shown t
  split
  · exact .bind_stop fun _ => rfl
  · next hfree =>
    have hothers : ∀ u ∈ tl.tracks, isTrack (.text id) u = false := by
      simpa [findTrack?] using hfree
    refine .bind_set (.of_pure ⟨t, hothers, rfl, rfl, fun hname => ?_, rfl⟩)
    exact if_neg (mt (Value.isNone_iff name).mp hname)

end Timeline

namespace Project

variable {p : Project} {track : String} {above : List Track} {t : Track} {entries : List Value}
  {g : Bool}

/-! ## Section 2: Tracks -/

/-- A project with other tracks, and with a timeline of a length. -/
def filled (p : Project) (tracks : List Track) (length : Value) : Project :=
  { p with timeline := { p.timeline with tracks := tracks, duration := length } }

/-- A clip is sorted in on the last track. -/
theorem withClip_filled (hothers : ∀ u ∈ above, Timeline.isTrack (.text track) u = false)
    (htrack : Timeline.isTrack (.text track) t = true) (c : Clip) (length longer : Value) :
    (p.filled (above ++ [t]) length).withClip track c longer
      = p.filled (above ++ [{ t with clips := t.clips ++ [c] }.sorted]) longer := by
  simp only [withClip, filled, Timeline.place, Timeline.changeTrack,
    updateFirst_append hothers htrack]

/-- The starts of loaded clips are whole numbers. -/
theorem whole_of_loadedFrom {store : Store} {trackId entry : Value} {c : Clip}
    (h : Clip.LoadedFrom store trackId entry c) : c.start.whole? = some c.startTime := by
  obtain ⟨ms, -, hstart⟩ := h.start
  rw [Clip.startTime, hstart]
  rfl

/-- The ids of loaded clips can be shown. -/
theorem hasText_of_loadedFrom {store : Store} {trackId : Value} {row clips : List Clip}
    (hrow : List.Forall₂ (Clip.LoadedFrom store trackId) entries row)
    (hsorts : Track.SortsRow row clips) : ∀ c ∈ clips, c.id.hasText = true := by
  intro c hc
  obtain ⟨_, -, hloaded⟩ := exists_mem_of_forall₂ hrow c (hsorts.perm.subset hc)
  obtain ⟨id, hid⟩ := hloaded.text
  rw [hid]
  rfl

/-- The clips of a track are sorted in one after the other. -/
theorem loadClips_ends (hstore : List.Forall₂ Resource.LoadedFrom entries p.store.resources)
    (hmeasured : p.timeline.Measured) (htracks : p.timeline.tracks = above ++ [t])
    (hshown : ∀ u ∈ above, ∀ c ∈ u.clips, c.id.hasText = true)
    (hothers : ∀ u ∈ above, Timeline.isTrack (.text track) u = false)
    (hid : t.id = .text track) (hempty : t.clips = []) (items : List Value)
    (hguard : g = true → items.all Clip.isGuarded = true) :
    (forEach (fun _ => loadClip track) 1 items).Ends p (Fault.IsReportIf g)
      fun _ p' => ∃ row clips length, List.Forall₂ (Clip.LoadedFrom p.store (.text track)) items row
        ∧ Track.SortsRow row clips ∧ Timeline.Grows items p.timeline.duration length
        ∧ p' = p.filled (above ++ [{ t with clips := clips }]) length := by
  have htrack : ∀ clips, Timeline.isTrack (.text track) { t with clips := clips } = true := by
    intro clips
    rw [Timeline.isTrack, hid]
    exact Value.same_text_self track
  -- the clips on the track are those of the entries so far, sorted
  refine forEach_ends (q := fun loaded p' => ∃ row clips length,
    List.Forall₂ (Clip.LoadedFrom p.store (.text track)) loaded row ∧ Track.SortsRow row clips
      ∧ Timeline.Grows loaded p.timeline.duration length
      ∧ p' = p.filled (above ++ [{ t with clips := clips }]) length) ?_ ?_
  · rintro loaded entry _ hentry ⟨row, clips, length, hrow, hsorts, hgrows, rfl⟩
    have hshown' : (p.filled (above ++ [{ t with clips := clips }]) length).timeline.IdsShown := by
      intro c hc
      obtain ⟨u, hu, hc⟩ := List.mem_flatMap.mp hc
      rcases List.mem_append.mp hu with hu | hu
      · exact hshown u hu c hc
      · obtain rfl := List.mem_singleton.mp hu
        exact hasText_of_loadedFrom hrow hsorts c hc
    have hclip := loadClip_ends (p := p.filled (above ++ [{ t with clips := clips }]) length) hstore
      (hgrows.measured hmeasured _) hshown' rfl hothers (htrack clips) entry
      fun hg => List.all_eq_true.mp (hguard hg) entry hentry
    refine hclip.mono ?_
    rintro _ _ ⟨c, longer, hloaded, hlonger, rfl⟩
    have hrow' := List.rel_append hrow (.cons hloaded .nil)
    refine ⟨row ++ [c], _, longer, hrow', hsorts.sorted (t := { t with clips := clips ++ [c] }) rfl
      fun d hd => ?_, ⟨fun h => ?_, fun _ => hlonger⟩, ?_⟩
    · obtain ⟨_, -, hloaded⟩ := exists_mem_of_forall₂ hrow' d hd
      exact whole_of_loadedFrom hloaded
    · cases (List.append_eq_nil_iff.mp h).2
    · exact withClip_filled hothers (htrack clips) c length longer
  · refine ⟨[], [], p.timeline.duration, .nil, .nil, .nil, ?_⟩
    rw [← hempty, filled, ← htracks]

theorem addTrack_ends (name visible locked : Value) (id : String) (p : Project) :
    (onTimeline (Timeline.addTrack name (.text id) visible locked)).Ends p (Fault.IsReportIf g)
      fun _ p' => ∃ t, (∀ u ∈ p.timeline.tracks, Timeline.isTrack (.text id) u = false)
        ∧ t.id = .text id ∧ t.clips = [] ∧ (name ≠ .none → t.name = name)
        ∧ p' = p.filled (p.timeline.tracks ++ [t]) p.timeline.duration := by
  refine .of_on ((Timeline.addTrack_ends name visible locked id p.timeline).mono ?_)
  rintro _ _ ⟨t, hothers, hid, hempty, hname, rfl⟩
  exact ⟨t, hothers, hid, hempty, hname, rfl⟩

/-- The track of an entry comes below the others. -/
theorem loadTrack_ends (hstore : List.Forall₂ Resource.LoadedFrom entries p.store.resources)
    (hmeasured : p.timeline.Measured)
    (hshown : ∀ u ∈ p.timeline.tracks, ∀ c ∈ u.clips, c.id.hasText = true) (index : Nat)
    (entry : Value) (hguard : g = true → Track.isGuarded entry = true) :
    (loadTrack index entry).Ends p (Fault.IsReportIf g) fun _ p' =>
      ∃ t length, Track.LoadedFrom p.store index entry t
        ∧ Timeline.Grows (entry.get "clips").entries p.timeline.duration length
        ∧ p' = p.filled (p.timeline.tracks ++ [t]) length := by
  unfold loadTrack
  split
  · next es =>
    have hguarded : g = true → (Fields.get es "id").hasText = true
        ∧ ((Value.dict es).get "clips").entries.all Clip.isGuarded = true := by
      intro hg
      have h := hguard hg
      rwa [Track.isGuarded, Bool.and_eq_true] at h
    extract_lets given named
    have hnamed : ∀ id, id = (if given.isNone then numberedTrack index else given.shown) →
        (named id).Ends p (Fault.IsReportIf g) fun _ p' =>
          ∃ t length, Track.LoadedFrom p.store index (.dict es) t
            ∧ Timeline.Grows ((Value.dict es).get "clips").entries p.timeline.duration length
            ∧ p' = p.filled (p.timeline.tracks ++ [t]) length := by
      intro id hown
      refine (addTrack_ends _ _ _ id p).bind ?_
      rintro _ _ ⟨t, hothers, hid, hempty, hname, rfl⟩
      split
      · next items hitems =>
        have hentries := Value.entries_get hitems
        have hclips := loadClips_ends (p := p.filled (p.timeline.tracks ++ [t]) p.timeline.duration)
          hstore hmeasured rfl hshown hothers hid hempty items fun hg => hentries ▸ (hguarded hg).2
        refine hclips.mono ?_
        rintro _ _ ⟨row, clips, length, hrow, hsorts, hgrows, rfl⟩
        refine ⟨{ t with clips := clips }, length,
          ⟨⟨es, rfl⟩, hid.trans (congrArg Value.text hown), hname, row, ?_, hsorts⟩, hentries ▸ hgrows,
          rfl⟩
        rw [hentries]
        exact hid ▸ hrow
      · exact .of_stop fun _ => rfl
    split
    · next hnone => exact .bind_pure (hnamed _ (if_pos hnone).symm)
    · next hnone =>
      refine .bind_ofResult (fun shown hshows => ?_) (Reports.of_toText fun hg => (hguarded hg).1)
      refine hnamed shown ?_
      rw [if_neg hnone]
      exact Value.eq_shown_of_toText hshows
  · exact .of_stop fun _ => rfl

/-- The clips of loaded tracks have ids that can be shown. -/
theorem hasText_of_tracks {store : Store} {numbered : List (Value × Nat)} {tracks : List Track}
    (h : List.Forall₂ (fun e t => Track.LoadedFrom store e.2 e.1 t) numbered tracks) :
    ∀ u ∈ tracks, ∀ c ∈ u.clips, c.id.hasText = true := by
  intro u hu
  obtain ⟨_, -, hloaded⟩ := exists_mem_of_forall₂ h u hu
  obtain ⟨row, hrow, hsorts⟩ := hloaded.clips
  exact hasText_of_loadedFrom hrow hsorts

/-- There is a track for each entry, in their order. -/
theorem loadTracks_ends (hstore : List.Forall₂ Resource.LoadedFrom entries p.store.resources)
    (hmeasured : p.timeline.Measured) (hempty : p.timeline.tracks = []) (items : List Value)
    (hguard : g = true → items.all Track.isGuarded = true) :
    (forEach loadTrack 1 items).Ends p (Fault.IsReportIf g) fun _ p' => ∃ tracks length,
      List.Forall₂ (fun e t => Track.LoadedFrom p.store e.2 e.1 t) (items.zipIdx 1) tracks
        ∧ Timeline.Grows (items.flatMap fun track => (track.get "clips").entries)
          p.timeline.duration length
        ∧ p' = p.filled tracks length := by
  -- the tracks are those of the entries so far, and the numbers of the entries go on behind them
  refine forEach_ends (q := fun loaded p' => ∃ tracks length,
    List.Forall₂ (fun e t => Track.LoadedFrom p.store e.2 e.1 t) (loaded.zipIdx 1) tracks
      ∧ Timeline.Grows (loaded.flatMap fun track => (track.get "clips").entries)
        p.timeline.duration length
      ∧ p' = p.filled tracks length) ?_ ?_
  · rintro loaded entry _ hentry ⟨tracks, length, htracks, hgrows, rfl⟩
    have htrack := loadTrack_ends (p := p.filled tracks length) hstore (hgrows.measured hmeasured tracks)
      (hasText_of_tracks htracks) (1 + loaded.length) entry
      fun hg => List.all_eq_true.mp (hguard hg) entry hentry
    refine htrack.mono ?_
    rintro _ _ ⟨t, longer, hloaded, hlonger, rfl⟩
    refine ⟨tracks ++ [t], longer, ?_, ?_, rfl⟩
    · rw [List.zipIdx_append]
      exact List.rel_append htracks (.cons hloaded .nil)
    · rw [List.flatMap_append, List.flatMap_singleton]
      exact hgrows.append hlonger
  · refine ⟨[], p.timeline.duration, .nil, .nil, ?_⟩
    rw [filled, ← hempty]

/-! ## Section 3: Timelines and projects -/

theorem filled_empty (h : p.timeline = .empty) : p.filled [] (.int Timeline.defaultDuration) = p := by
  obtain ⟨store, timeline, playback, outputFile⟩ := p
  obtain rfl : timeline = .empty := h
  rfl

/-- The length of a timeline without tracks is set. -/
theorem onLength_ends {e : Fault → Prop} (hempty : p.timeline = .empty) (ms : Int) :
    (onTimeline (modify fun tl => { tl with duration := .int ms })).Ends p e
      fun _ p' => p' = p.filled [] (.int ms) := by
  refine .of_on (.of_modify ?_)
  show _ = p.filled [] (.int ms)
  rw [filled, hempty]
  rfl

/-- The timeline gets its length before its tracks. -/
theorem loadTimeline_ends (hstore : List.Forall₂ Resource.LoadedFrom entries p.store.resources)
    (hempty : p.timeline = .empty) (v : Value) (hguard : g = true → Timeline.isGuarded v = true) :
    (loadTimeline v).Ends p (Fault.IsReportIf g) fun _ p' =>
      ∃ tl, Timeline.LoadedFrom p.store v tl ∧ p' = { p with timeline := tl } := by
  unfold loadTimeline
  split
  · next es =>
    extract_lets rest
    have hguarded : g = true → Timecode.inRange (Fields.get es "duration") = true
        ∧ ((Value.dict es).get "tracks").entries.all Track.isGuarded = true := by
      intro hg
      have h := hguard hg
      rwa [Timeline.isGuarded, Bool.and_eq_true] at h
    have hrest : ∀ ms, Timeline.givenLength? (.dict es) = some ms →
        (rest ()).Ends (p.filled [] (.int ms)) (Fault.IsReportIf g) fun _ p' =>
          ∃ tl, Timeline.LoadedFrom p.store (.dict es) tl ∧ p' = { p with timeline := tl } := by
      intro ms hms
      unfold rest
      split
      · next items hitems =>
        have hentries := Value.entries_get hitems
        have htracks := loadTracks_ends (p := p.filled [] (.int ms)) hstore (Or.inl ⟨ms, rfl⟩) rfl items
          fun hg => hentries ▸ (hguarded hg).2
        refine htracks.mono ?_
        rintro _ _ ⟨tracks, length, hloaded, hgrows, rfl⟩
        refine ⟨_, ⟨hentries ▸ hloaded, ⟨ms, hms, ?_⟩, ?_⟩, rfl⟩
        · rw [Timeline.clipEntries, hentries]
          exact hgrows
        · show p.timeline.currentTime = .int 0
          rw [hempty]
          rfl
      · exact .of_stop fun _ => rfl
    -- without a length of its own the timeline keeps the one that it starts from
    split
    · next hnone =>
      refine .bind_pure ?_
      rw [← filled_empty hempty]
      exact hrest _ (by rw [Timeline.givenLength?, Value.get_dict, hnone])
    · next hgiven =>
      refine .bind_ofResult (fun ms hms => ?_) (Timecode.reports_readMs fun hg => (hguarded hg).1)
      refine (onLength_ends hempty ms).bind ?_
      rintro _ _ rfl
      refine hrest ms ?_
      rw [Timeline.givenLength?, Value.get_dict]
      split
      · next hnone => exact absurd hnone hgiven
      · exact Timecode.ms?_of_readMs hms
  · exact .of_stop fun _ => rfl

theorem eq_of_checkData {data : Value} {fs : Fields} (h : checkData data = .ok fs) :
    data = .dict fs := by
  unfold checkData at h
  split at h
  · dsimp only at h
    split at h
    · cases h
    · split at h
      · cases h
      · rw [Except.ok.inj h]
  · cases h

theorem reports_checkData (data : Value) : Reports g (checkData data) := by
  unfold checkData
  split
  · dsimp only
    split
    · exact .of_refuse rfl
    · split
      · exact .of_refuse rfl
      · exact .of_ok _
  · exact .of_refuse rfl

theorem reports_readPlayback (v : Value) : Reports g (readPlayback v) := by
  unfold readPlayback
  split
  · exact .of_ok _
  · exact .of_ok _
  · exact .of_refuse rfl

theorem reports_readOutput (v override : Value) : Reports g (readOutput v override) := by
  unfold readOutput
  split
  all_goals
    split
    · exact .of_ok _
    · exact .of_ok _
    · exact .of_refuse rfl

/-- A description is loaded as the project that it stands for. -/
theorem load_ends (data override : Value) :
    (load data override).Ends empty (Fault.IsReportIf (isGuarded data)) fun _ p =>
      LoadedFrom data p := by
  unfold load
  refine .bind_ofResult (fun fs hfs => ?_) (reports_checkData data)
  obtain rfl := eq_of_checkData hfs
  have hguarded : isGuarded (.dict fs) = true →
      (Fields.get fs "resources").entries.all Resource.isGuarded = true
        ∧ Timeline.isGuarded (Fields.get fs "timeline") = true := by
    rw [isGuarded, Bool.and_eq_true]
    exact id
  refine (loadResources_ends (Fields.get fs "resources") empty rfl fun hg => (hguarded hg).1).bind ?_
  rintro _ _ ⟨resources, hresources, rfl⟩
  refine (loadTimeline_ends (p := { empty with store := ⟨resources⟩ }) hresources rfl
    (Fields.get fs "timeline") fun hg => (hguarded hg).2).bind ?_
  rintro _ _ ⟨tl, htl, rfl⟩
  refine .bind_ofResult (fun playback _ => ?_) (reports_readPlayback _)
  refine .bind_ofResult (fun output _ => ?_) (reports_readOutput _ _)
  exact .of_modify ⟨hresources, htl⟩

variable {σ : Type} {data override : Value} {s : σ} {w : Surroundings}

/-- What is true of a loaded description is true of it wherever it is loaded. -/
theorem ofData_of_load {e : Fault → Prop} {q : Project → Prop}
    (h : (load data override).Ends empty e fun _ p => q p) (s : σ) :
    (ofData data override : Act σ Project).Ends s e fun p t => t = s ∧ q p := by
  intro w
  have hload := h w
  have hperform : (ofData data override : Act σ Project).perform s w
      = (((load data override).perform empty w).1.map fun _ => ((load data override).perform empty w).2.1,
        s, ((load data override).perform empty w).2.2) :=
    rfl
  rw [hperform]
  cases hend : ((load data override).perform empty w).1 with
  | error fault =>
    rw [hend] at hload
    exact hload
  | ok _ =>
    rw [hend] at hload
    exact ⟨rfl, hload⟩

/-- A project comes out of its description. -/
theorem ofData_ends (data override : Value) (s : σ) :
    (ofData data override : Act σ Project).Ends s (Fault.IsReportIf (isGuarded data)) fun p t =>
      t = s ∧ LoadedFrom data p :=
  ofData_of_load (load_ends data override) s

/-- Loading neither loses nor doubles nor reorders anything: there is a resource for each entry and a
track for each entry, and the clips of a track are those of its entries in the order of their starts, each
with the segments of its entries. -/
theorem loadedFrom_of_ofData (h : ((ofData data override : Act σ Project).perform s w).1 = .ok p) :
    LoadedFrom data p :=
  ((ofData_ends data override s).answer h).2

/-- Two tracks, the first one with two clips: the one that starts earlier is given behind the other one,
and shows a resource that is not there. -/
def sampleDescription : Value :=
  .mapping [("danmu", .int 1),
    ("resources", .list [
      .mapping [("id", .int 7), ("type", .text "text"), ("duration", .text "0:01.5")]]),
    ("timeline", .mapping [("tracks", .list [
      .mapping [("id", .text "main"), ("clips", .list [
        .mapping [("resource", .int 7), ("start", .text "0:02"), ("name", .text "late"),
          ("animations", .list [
            .mapping [("type", .text "set"), ("duration", .int 300), ("delay", .int 200),
              ("properties", .mapping [("x", .int 3), ("color", .text "#ff0000")])]])],
        .mapping [("resource", .text "gone"), ("start", .int (-5)), ("id", .int 1)]])],
      .mapping []])])]

theorem loadedFrom_of_ofData_sample :
    ∃ p, ((ofData sampleDescription .none : Act Unit Project).perform () default).1 = .ok p
      ∧ LoadedFrom sampleDescription p := by
  have hloads : ((ofData sampleDescription .none : Act Unit Project).perform
      () default).1.toOption.isSome = true := by
    decide +kernel
  obtain ⟨p, hp⟩ := Option.isSome_iff_exists.mp hloads
  exact ⟨p, toOption_eq_some.mp hp, loadedFrom_of_ofData (toOption_eq_some.mp hp)⟩

/-- Loading a description whose values are all guarded leads to a project or to the report of a broken
rule, and to no other fault. -/
theorem isReport_of_ofData (hguard : isGuarded data = true) {fault : Fault}
    (h : ((ofData data override : Act σ Project).perform s w).1 = .error fault) :
    fault.isReport = true :=
  (ofData_ends data override s).fault h hguard

/-- A single text with a color. -/
def descriptionOfColor (color : String) : Value :=
  .mapping [("danmu", .int 1),
    ("resources", .list [
      .mapping [("id", .text "r"), ("type", .text "text"), ("color", .text color)]]),
    ("timeline", .mapping [])]

theorem exists_fault {α : Type} {r : Result α} {report : Bool}
    (h : (match r with | .ok _ => none | .error fault => some fault.isReport) = some report) :
    ∃ fault, r = .error fault ∧ fault.isReport = report := by
  split at h
  · cases h
  · next fault => exact ⟨fault, rfl, Option.some.inj h⟩

/-- An unknown name of a color is reported.  Behind the mark of a hexadecimal number anything is read as
digits, and no rule speaks of what is none. -/
theorem isReport_of_ofData_colors :
    (∃ fault, ((ofData (descriptionOfColor "reddish") .none : Act Unit Project).perform
        () default).1 = .error fault ∧ fault.isReport = true)
      ∧ isGuarded (descriptionOfColor "0xzz") = false
      ∧ ∃ fault, ((ofData (descriptionOfColor "0xzz") .none : Act Unit Project).perform
        () default).1 = .error fault ∧ fault.isReport = false := by
  refine ⟨?_, by decide +kernel, exists_fault (by decide +kernel)⟩
  obtain ⟨fault, hfault, -⟩ : ∃ fault,
      ((ofData (descriptionOfColor "reddish") .none : Act Unit Project).perform () default).1
        = .error fault ∧ fault.isReport = true :=
    exists_fault (by decide +kernel)
  exact ⟨fault, hfault, isReport_of_ofData (by decide +kernel) hfault⟩

end Project

end Overlay
