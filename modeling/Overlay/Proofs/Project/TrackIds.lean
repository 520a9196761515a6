import Overlay.Proofs.Project.TrackFaults

/-!
# The ids of loaded tracks

An entry of a track may leave its id out.  The track then gets an id that is made from the number of the
entry, `track_1` and so on.  These ids and those that are given share one namespace, and the loader takes
no care to keep them apart: where an entry is given an id that the number of another entry leads to, it
stops.  That is the only way in which given ids that differ come to be refused.

## Main definitions
- `Project.trackId?`, `Project.trackIdOf`: the id that an entry gives, and the id of its track
- `Project.givenTrackIds`, `Project.trackIds`: the same for all entries
- `Project.Clashes`: a number that leads to an id which is given

## Main statements
- `Project.numberedTrack_injective`: different numbers lead to different ids
- `Project.clashes_of_mem`, `Project.not_clashes_of_nodup`: repeated ids come from a clash
- `Project.loadTrack_takes`, `Project.loadTracks_takes`: when an id is taken
- `Project.trackIds_of_ofData`: which tracks are refused, and which ids the others have
-/

namespace Overlay.Project

open Overlay.Number

variable {entries loaded left : List Value} {entry : Value} {p : Project}

/-! ## Section 1: Ids of entries -/

theorem numberedTrack_injective {m n : Nat} (h : numberedTrack m = numberedTrack n) : m = n := by
  have hdigits : numeral m = numeral n := by
    simpa [numberedTrack, intText, intChars] using congrArg String.toList h
  -- the number is read back from its digits
  rw [← ofNumeral_numeral m, hdigits, ofNumeral_numeral]

/-- The id that an entry gives to its track, as a text. -/
def trackId? (entry : Value) : Option String :=
  if (entry.get "id").isNone then none else some (entry.get "id").shown

/-- The id of the track of an entry with a number. -/
def trackIdOf (number : Nat) (entry : Value) : String :=
  (trackId? entry).getD (numberedTrack number)

/-- The ids that are given. -/
def givenTrackIds (entries : List Value) : List String :=
  entries.filterMap trackId?

/-- The ids of all tracks; the entries are numbered from one. -/
def trackIds (entries : List Value) : List String :=
  (entries.zipIdx 1).map fun e => trackIdOf e.2 e.1

/-- An entry that leaves its id out has a number that leads to the id of another entry. -/
structure Clashes (entries : List Value) (number : Nat) : Prop where
  omitted : ∃ entry, (entry, number) ∈ entries.zipIdx 1 ∧ trackId? entry = none
  given : numberedTrack number ∈ givenTrackIds entries

theorem trackIds_append_singleton (loaded : List Value) (entry : Value) :
    trackIds (loaded ++ [entry]) = trackIds loaded ++ [trackIdOf (1 + loaded.length) entry] := by
  simp [trackIds, List.zipIdx_append]

/-- An id that is given stands among those that are given. -/
theorem mem_givenTrackIds {id : String} (hid : trackId? entry = some id) (h : entry ∈ entries) :
    id ∈ givenTrackIds entries :=
  List.mem_filterMap.mpr ⟨entry, h, hid⟩

/-- Where given ids differ, an entry repeats the id of an earlier track only if one of both leaves its id
out and clashes with the other one. -/
theorem clashes_of_mem (hentries : loaded ++ entry :: left = entries)
    (hgiven : (givenTrackIds entries).Nodup)
    (hmem : trackIdOf (1 + loaded.length) entry ∈ trackIds loaded) :
    ∃ n, Clashes entries n ∧ trackIdOf (1 + loaded.length) entry = numberedTrack n := by
  obtain ⟨⟨earlier, m⟩, hm, heq⟩ := List.mem_map.mp hmem
  have hbefore : m < 1 + loaded.length := by
    have := List.snd_lt_of_mem_zipIdx hm
    omega
  have hsplit : entries.zipIdx 1
      = loaded.zipIdx 1 ++ (entry, 1 + loaded.length) :: left.zipIdx (1 + loaded.length + 1) := by
    rw [← hentries, List.zipIdx_append]
    rfl
  have hearlier : (earlier, m) ∈ entries.zipIdx 1 := by
    rw [hsplit]
    exact List.mem_append_left _ hm
  have hentry : (entry, 1 + loaded.length) ∈ entries.zipIdx 1 := by
    rw [hsplit]
    exact List.mem_append_right _ List.mem_cons_self
  simp only [trackIdOf] at heq ⊢
  cases hfirst : trackId? earlier with
  | none =>
    cases hsecond : trackId? entry with
    | none =>
      -- numbers are used once
      rw [hfirst, hsecond] at heq
      have := numberedTrack_injective heq
      omega
    | some id =>
      rw [hfirst, hsecond] at heq
      have hid : numberedTrack m = id := heq
      refine ⟨m, ⟨⟨earlier, hearlier, hfirst⟩, ?_⟩, hid.symm⟩
      rw [hid]
      exact mem_givenTrackIds hsecond (List.fst_mem_of_mem_zipIdx hentry)
  | some id =>
    cases hsecond : trackId? entry with
    | none =>
      rw [hfirst, hsecond] at heq
      have hid : id = numberedTrack (1 + loaded.length) := heq
      refine ⟨_, ⟨⟨entry, hentry, hsecond⟩, ?_⟩, rfl⟩
      rw [← hid]
      exact mem_givenTrackIds hfirst (List.fst_mem_of_mem_zipIdx hearlier)
    | some id' =>
      -- both are given, but given ids differ
      rw [hfirst, hsecond] at heq
      have hid : id = id' := heq
      rw [← hentries, givenTrackIds, List.filterMap_append, List.filterMap_cons_some hsecond,
        List.nodup_append] at hgiven
      have hmem' : id ∈ loaded.filterMap trackId? :=
        mem_givenTrackIds hfirst (List.fst_mem_of_mem_zipIdx hm)
      exact absurd hid (hgiven.2.2 id hmem' id' List.mem_cons_self)

/-- Where all ids differ, nothing clashes. -/
theorem not_clashes_of_nodup (h : (trackIds entries).Nodup) (n : Nat) : ¬ Clashes entries n := by
  rintro ⟨⟨entry, hentry, homitted⟩, hgiven⟩
  obtain ⟨other, hother, hid⟩ := List.mem_filterMap.mp hgiven
  obtain ⟨i, hi, rfl⟩ := List.getElem_of_mem hother
  have hpair : (entries[i], 1 + i) ∈ entries.zipIdx 1 := by
    simp [List.mk_mem_zipIdx_iff_le_and_getElem?_sub, hi]
  -- both entries have the same id, so they are one and the same
  have heq : (entries[i], 1 + i) = (entry, n) := by
    apply List.inj_on_of_nodup_map h hpair hentry
    simp [trackIdOf, hid, homitted]
  rw [(Prod.mk.inj heq).1, homitted] at hid
  cases hid

/-! ## Section 2: Tracks -/

/-- A fault is another one, or says that the id is taken, which stands among those of the tracks. -/
def TakenAmong (ids : List String) (id : String) (fault : Fault) : Prop :=
  ∀ v, fault = .refused (.trackIdTaken v) → v = .text id ∧ id ∈ ids

theorem takenAmong_of_isOther {ids : List String} {id : String} {fault : Fault}
    (h : fault.isOther = true) : TakenAmong ids id fault := by
  rintro v rfl
  cases h

theorem isSome_findTrack?_iff {tl : Timeline} {ids : List String} {id : String}
    (htracks : tl.tracks.map Track.id = ids.map Value.text) :
    (tl.findTrack? (.text id)).isSome ↔ id ∈ ids := by
  have hmem : Value.text id ∈ tl.tracks.map Track.id ↔ id ∈ ids := by
    rw [htracks]
    simp
  simp only [Timeline.findTrack?, List.find?_isSome, ← hmem, List.mem_map, Timeline.isTrack,
    Value.same_text]

/-- A track is refused only because its id is taken, and is not added then. -/
theorem addTrack_takes {ids : List String} (name visible locked : Value) (id : String)
    (htracks : p.timeline.tracks.map Track.id = ids.map Value.text) :
    (onTimeline (Timeline.addTrack name (.text id) visible locked)).Ends p (TakenAmong ids id)
      fun _ _ => id ∉ ids := by
  have htaken : (p.timeline.findTrack? (.text id)).isSome ↔ id ∈ ids :=
    isSome_findTrack?_iff htracks
  apply Act.Ends.of_on
  unfold Timeline.addTrack
  apply Act.Leaves.bind_pure
  apply Act.Leaves.bind_get
  extract_lets added shown track
  split
  · next hsome =>
    apply Act.Ends.bind_stop
    rintro v ⟨⟩
    exact ⟨rfl, htaken.mp hsome⟩
  · next hnone =>
    apply Act.Leaves.bind_set
    exact .of_pure fun hmem => hnone (htaken.mpr hmem)

/-- The entry of a track is refused with a taken id only where one of the tracks has this id. -/
theorem loadTrack_takes {ids : List String} (index : Nat) (entry : Value)
    (htracks : p.timeline.tracks.map Track.id = ids.map Value.text) :
    (loadTrack index entry).Ends p (TakenAmong ids (trackIdOf index entry))
      fun _ _ => trackIdOf index entry ∉ ids := by
  unfold loadTrack
  split
  · next es =>
    extract_lets given named
    have hown : trackIdOf index (.dict es)
        = if given.isNone then numberedTrack index else given.shown := by
      cases hnone : (Fields.get es "id").isNone <;> simp [trackIdOf, trackId?, given, hnone]
    have hnamed : ∀ id, trackIdOf index (.dict es) = id →
        (named id).Ends p (TakenAmong ids (trackIdOf index (.dict es)))
          fun _ _ => trackIdOf index (.dict es) ∉ ids := by
      rintro id rfl
      refine (addTrack_takes _ _ _ _ htracks).bind fun _ p' hnew => ?_
      split
      · -- the clips of the track are refused for other reasons
        have hclips := forEach_spares (fun _ => loadClip_spares (trackIdOf index (.dict es))) 1
        exact ((hclips _ p').imp_fault fun _ => takenAmong_of_isOther).mono fun _ _ _ => hnew
      · exact .of_stop (takenAmong_of_isOther rfl)
    split
    · next hnone =>
      rw [if_pos hnone] at hown
      exact .bind_pure (hnamed _ hown)
    · next hnone =>
      rw [if_neg hnone] at hown
      refine .bind_ofResult (fun shown hshown => hnamed shown ?_)
        fun fault hfault => takenAmong_of_isOther (Value.spares_toText given fault hfault)
      rw [hown, Value.eq_shown_of_toText hshown]
  · exact .of_stop (takenAmong_of_isOther rfl)

/-- Loaded tracks have the ids of their entries. -/
theorem map_id_of_loadedFrom {store : Store} {start : Nat} {tracks : List Track}
    (h : List.Forall₂ (fun e t => Track.LoadedFrom store e.2 e.1 t) (entries.zipIdx start) tracks) :
    tracks.map Track.id
      = ((entries.zipIdx start).map fun e => trackIdOf e.2 e.1).map Value.text := by
  generalize entries.zipIdx start = numbered at h
  induction h with
  | nil => rfl
  | @cons e t numbered tracks hloaded _ ih =>
    have hid : t.id = .text (trackIdOf e.2 e.1) := by
      rw [hloaded.id, trackIdOf, trackId?]
      split <;> rfl
    rw [List.map_cons, List.map_cons, List.map_cons, ih, hid]

/-- A fault is another one, or names the id that a clashing number leads to. -/
def ClashAmong (entries : List Value) (fault : Fault) : Prop :=
  ∀ v, fault = .refused (.trackIdTaken v) → ∃ n, Clashes entries n ∧ v = .text (numberedTrack n)

theorem clashAmong_of_isOther {fault : Fault} (h : fault.isOther = true) : ClashAmong entries fault := by
  rintro v rfl
  cases h

/-- Where given ids differ, the tracks of a description are refused with a taken id only in a clash, and
all ids differ once they are loaded. -/
theorem loadTracks_takes {resources : List Value}
    (hstore : List.Forall₂ Resource.LoadedFrom resources p.store.resources)
    (hmeasured : p.timeline.Measured) (hempty : p.timeline.tracks = [])
    (hgiven : (givenTrackIds entries).Nodup) :
    (forEach loadTrack 1 entries).Ends p (ClashAmong entries) fun _ _ => (trackIds entries).Nodup := by
  -- the tracks are those of the entries so far, and their ids differ
  have hrun : (forEach loadTrack 1 entries).Ends p (ClashAmong entries) fun _ p' =>
      (trackIds entries).Nodup ∧ ∃ tracks length,
        List.Forall₂ (fun e t => Track.LoadedFrom p.store e.2 e.1 t) (entries.zipIdx 1) tracks
          ∧ Timeline.Grows (entries.flatMap fun track => (track.get "clips").entries)
            p.timeline.duration length
          ∧ p' = p.filled tracks length := by
    refine forEach_ends_split (q := fun loaded p' => (trackIds loaded).Nodup ∧ ∃ tracks length,
      List.Forall₂ (fun e t => Track.LoadedFrom p.store e.2 e.1 t) (loaded.zipIdx 1) tracks
        ∧ Timeline.Grows (loaded.flatMap fun track => (track.get "clips").entries)
          p.timeline.duration length
        ∧ p' = p.filled tracks length) ?_ ?_
    · rintro loaded entry left _ hentries ⟨hnodup, tracks, length, htracks, hgrows, rfl⟩
      have hids : (p.filled tracks length).timeline.tracks.map Track.id
          = (trackIds loaded).map Value.text := map_id_of_loadedFrom htracks
      have htrack := (loadTrack_takes (1 + loaded.length) entry hids).and
        (loadTrack_ends (p := p.filled tracks length) (g := false) hstore
          (hgrows.measured hmeasured tracks) (hasText_of_tracks htracks) (1 + loaded.length) entry
          nofun)
      refine (htrack.imp_fault ?_).mono ?_
      · rintro fault ⟨htaken, -⟩ v hv
        obtain ⟨rfl, hmem⟩ := htaken v hv
        obtain ⟨n, hclash, hid⟩ := clashes_of_mem hentries hgiven hmem
        exact ⟨n, hclash, congrArg Value.text hid⟩
      · rintro _ _ ⟨hnew, t, longer, hloaded, hlonger, rfl⟩
        refine ⟨?_, tracks ++ [t], longer, ?_, ?_, rfl⟩
        · rw [trackIds_append_singleton]
          apply List.Nodup.append hnodup (List.nodup_singleton _)
          simpa using hnew
        · rw [List.zipIdx_append]
          exact List.rel_append htracks (.cons hloaded .nil)
        · rw [List.flatMap_append, List.flatMap_singleton]
          exact hgrows.append hlonger
    · refine ⟨List.nodup_nil, [], p.timeline.duration, .nil, .nil, ?_⟩
      rw [filled, ← hempty]
  exact hrun.mono fun _ _ h => h.1

/-! ## Section 3: Projects -/

theorem loadTimeline_takes {resources : List Value}
    (hstore : List.Forall₂ Resource.LoadedFrom resources p.store.resources)
    (hempty : p.timeline = .empty) (v : Value)
    (hgiven : (givenTrackIds (v.get "tracks").entries).Nodup) :
    (loadTimeline v).Ends p (ClashAmong (v.get "tracks").entries)
      fun _ _ => (trackIds (v.get "tracks").entries).Nodup := by
  unfold loadTimeline
  split
  · next es =>
    extract_lets rest
    have hrest : ∀ ms, (rest ()).Ends (p.filled [] (.int ms))
        (ClashAmong ((Value.dict es).get "tracks").entries)
        fun _ _ => (trackIds ((Value.dict es).get "tracks").entries).Nodup := by
      intro ms
      unfold rest
      split
      · next items hitems =>
        rw [Value.entries_get hitems] at hgiven ⊢
        exact loadTracks_takes hstore (Or.inl ⟨ms, rfl⟩) rfl hgiven
      · exact .of_stop (clashAmong_of_isOther rfl)
    split
    · apply Act.Leaves.bind_pure
      rw [← filled_empty hempty]
      exact hrest _
    · refine .bind_ofResult (fun ms _ => ?_)
        fun fault hfault => clashAmong_of_isOther (Timecode.spares_readMs _ _ fault hfault)
      refine (onLength_ends hempty ms).bind ?_
      rintro _ _ rfl
      exact hrest ms
  · exact .of_stop (clashAmong_of_isOther rfl)

/-- The entries of the tracks of a description. -/
def trackEntries (data : Value) : List Value :=
  ((data.get "timeline").get "tracks").entries

/-- A description is refused with a taken id of a track only in a clash. -/
theorem load_takes (data override : Value) (hgiven : (givenTrackIds (trackEntries data)).Nodup) :
    (load data override).Ends empty (ClashAmong (trackEntries data))
      fun _ _ => (trackIds (trackEntries data)).Nodup := by
  have hother : ∀ fault : Fault, fault.isOther = true → ClashAmong (trackEntries data) fault :=
    fun _ => clashAmong_of_isOther
  unfold load
  refine .bind_ofResult (fun fs hfs => ?_) fun fault h => hother _ (spares_checkData data fault h)
  obtain rfl := eq_of_checkData hfs
  -- the resources come first; what they are made of only matters for the clips
  have hresources := ((loadResources_spares (Fields.get fs "resources") empty).imp_fault hother).and
    (loadResources_ends (g := false) (Fields.get fs "resources") empty rfl nofun)
  refine Act.Ends.bind (hresources.imp_fault fun _ h => h.1) ?_
  rintro _ _ ⟨-, resources, hstore, rfl⟩
  refine (loadTimeline_takes (p := { empty with store := ⟨resources⟩ }) hstore rfl
    (Fields.get fs "timeline") hgiven).bind fun _ p hnodup => ?_
  refine .bind_ofResult (fun playback _ => ?_) fun fault h =>
    hother _ (spares_readPlayback _ fault h)
  refine .bind_ofResult (fun output _ => ?_) fun fault h => hother _ (spares_readOutput _ _ fault h)
  exact .of_modify hnodup

/-- Where the given ids of tracks differ, a description is refused with a taken id only if the number of
an entry without an id leads to one that is given.  Such a description is never loaded.  In a project that
is loaded, the tracks have the ids that are given or made from the numbers, and all of them differ. -/
theorem trackIds_of_ofData {σ : Type} {data override : Value} {s : σ} {w : Surroundings}
    (hgiven : (givenTrackIds (trackEntries data)).Nodup) :
    (∀ id, ((ofData data override : Act σ Project).perform s w).1
        = .error (.refused (.trackIdTaken id)) →
      ∃ n, Clashes (trackEntries data) n ∧ id = .text (numberedTrack n))
    ∧ ∀ p, ((ofData data override : Act σ Project).perform s w).1 = .ok p →
      (∀ n, ¬ Clashes (trackEntries data) n)
        ∧ p.timeline.tracks.map Track.id = (trackIds (trackEntries data)).map Value.text
        ∧ (p.timeline.tracks.map Track.id).Nodup := by
  have hends := ofData_of_load (q := fun _ => (trackIds (trackEntries data)).Nodup)
    (load_takes data override hgiven) s
  refine ⟨fun id hid => hends.fault hid id rfl, fun p hp => ?_⟩
  have hnodup : (trackIds (trackEntries data)).Nodup := (hends.answer hp).2
  have hloaded : LoadedFrom data p := ((ofData_ends data override s).answer hp).2
  have hids : p.timeline.tracks.map Track.id = (trackIds (trackEntries data)).map Value.text :=
    map_id_of_loadedFrom hloaded.timeline.tracks
  refine ⟨not_clashes_of_nodup hnodup, hids, ?_⟩
  rw [hids]
  exact hnodup.map fun _ _ h => Value.text.inj h

/-- Two tracks, the second one without an id; its number leads to the id of the first one. -/
def clashingDescription : Value :=
  .mapping [("danmu", .int 1), ("resources", .list []),
    ("timeline", .mapping [("tracks", .list [.mapping [("id", .text "track_2")], .mapping []])])]

/-- The id of a track that is reported as taken. -/
def takenId? : Result Project → Option String
  | .error (.refused (.trackIdTaken (.text id))) => some id
  | _ => none

theorem eq_of_takenId? {r : Result Project} {id : String} (h : takenId? r = some id) :
    r = .error (.refused (.trackIdTaken (.text id))) := by
  unfold takenId? at h
  split at h
  · rw [Option.some.inj h]
  · cases h

/-- It is refused as the theorem says. -/
theorem trackIds_of_ofData_clashing :
    ((ofData clashingDescription .none : Act Unit Project).perform () default).1
        = .error (.refused (.trackIdTaken (.text "track_2")))
      ∧ ∃ n, Clashes (trackEntries clashingDescription) n
        ∧ Value.text "track_2" = .text (numberedTrack n) := by
  have hrefused : ((ofData clashingDescription .none : Act Unit Project).perform () default).1
      = .error (.refused (.trackIdTaken (.text "track_2"))) :=
    eq_of_takenId? (by decide +kernel)
  exact ⟨hrefused, (trackIds_of_ofData (by decide +kernel)).1 _ hrefused⟩

end Overlay.Project
