import Overlay.Proofs.Timeline.Effects
import Overlay.Proofs.Timeline.Updates
import Mathlib.Data.List.Nodup

/-!
# Identity and ownership

Tracks and clips are told apart by their ids.  As long as these are texts, no two tracks share one, no
two clips lead to the same identifier in scripts, and each clip names the track that holds it.

## Main definitions
- `Track.Owns`: a track whose clips name it
- `Timeline.Identified`: tracks and clips that can be told apart
- `Timeline.Command.Named`: operations that are given texts as ids

## Main statements
- `find?_same_eq_some_iff`: looking for what has an id
- `Timeline.Outcome.identified`: one operation
- `Timeline.identified_of_steps`: rows of operations
-/

namespace Overlay

/-! ## Section 1: Ids -/

/-- Where ids are texts that differ, a look-up finds the only item with an id. -/
theorem find?_same_eq_some_iff {α : Type} {key : α → Value} {l : List α}
    (htext : ∀ a ∈ l, ∃ s, key a = .text s) (hdiffer : (l.map key).Nodup) {v : Value} {a : α} :
    l.find? (fun b => (key b).same v) = some a ↔ a ∈ l ∧ key a = v := by
  have hsame : ∀ b ∈ l, (key b).same v = true ↔ key b = v := by
    intro b hb
    obtain ⟨s, hs⟩ := htext b hb
    rw [hs, Value.text_same, eq_comm]
  have hfound : ∀ b, l.find? (fun b => (key b).same v) = some b → b ∈ l ∧ key b = v := by
    intro b hb
    have hmem := List.mem_of_find?_eq_some hb
    exact ⟨hmem, (hsame b hmem).mp (by simpa using List.find?_some hb)⟩
  refine ⟨hfound a, ?_⟩
  rintro ⟨ha, hkey⟩
  -- something is found, and nothing else has the id
  have hsome : (l.find? fun b => (key b).same v).isSome :=
    List.find?_isSome.mpr ⟨a, ha, (hsame a ha).mpr hkey⟩
  obtain ⟨b, hb⟩ := Option.isSome_iff_exists.mp hsome
  obtain ⟨hmem, hkeyb⟩ := hfound b hb
  rw [hb, List.inj_on_of_nodup_map hdiffer hmem ha (hkeyb.trans hkey.symm)]

/-! ## Section 2: Tracks and their clips -/

/-- A clip with a text as its id that names a track. -/
structure Clip.OwnedBy (trackId : Value) (c : Clip) : Prop where
  id : ∃ s, c.id = .text s
  trackId_eq : c.trackId = trackId

/-- A track with a text as its id that is named by its clips. -/
structure Track.Owns (t : Track) : Prop where
  id : ∃ s, t.id = .text s
  clips : ∀ c ∈ t.clips, c.OwnedBy t.id

theorem Track.Owns.of_subset {t u : Track} (h : t.Owns) (hid : u.id = t.id)
    (hsub : u.clips ⊆ t.clips) : u.Owns :=
  ⟨hid ▸ h.id, fun c hc => hid ▸ h.clips c (hsub hc)⟩

theorem Track.Owns.sorted {t : Track} (h : t.Owns) : t.sorted.Owns :=
  h.of_subset rfl (Timeline.sorted_perm t).subset

namespace Timeline

/-- Tracks with different ids that are named by their clips. -/
structure Owned (tracks : List Track) : Prop where
  owns : ∀ t ∈ tracks, t.Owns
  ids : (tracks.map Track.id).Nodup

variable {tl tl' : Timeline} {command : Command} {id : Value} {c : Clip} {t : Track}

namespace Owned

theorem of_sublist {tracks tracks' : List Track} (h : Owned tracks) (hsub : tracks'.Sublist tracks) :
    Owned tracks' :=
  ⟨fun t ht => h.owns t (hsub.subset ht), h.ids.sublist (hsub.map _)⟩

/-- A track may take the place of one with the same id. -/
theorem of_replace {above below : List Track} {u : Track} (h : Owned (above ++ t :: below))
    (hid : u.id = t.id) (hu : u.Owns) : Owned (above ++ u :: below) := by
  refine ⟨forall_mem_replace h.owns hu, ?_⟩
  have hids := h.ids
  simpa [hid] using hids

theorem changeTrack (h : Owned tl.tracks) (hfind : tl.findTrack? id = some t) {f : Track → Track}
    (hid : (f t).id = t.id) (hf : (f t).Owns) : Owned (tl.changeTrack id f).tracks := by
  obtain ⟨above, below, htracks, hchanged⟩ := exists_changeTrack hfind f
  rw [hchanged]
  exact of_replace (htracks ▸ h) hid hf

theorem changeTrackOf (h : Owned tl.tracks) (s : Place tl id c) {f : Track → Track}
    (hid : (f s.track).id = s.track.id) (hf : (f s.track).Owns) :
    Owned (tl.changeTrackOf id f).tracks := by
  rw [s.changeTrackOf]
  exact of_replace (s.tracks_eq ▸ h) hid hf

/-- A clip is changed that still names its track. -/
theorem changeClips (h : Owned tl.tracks) (s : Place tl id c) {f : Clip → Clip}
    (hf : (f c).OwnedBy c.trackId) :
    Track.Owns { s.track with clips := Overlay.updateFirst (isClip id) f s.track.clips } := by
  obtain ⟨hid, hclips⟩ := h.owns s.track s.track_mem
  refine ⟨hid, ?_⟩
  rw [s.updateClips]
  rw [(hclips c s.mem).trackId_eq] at hf
  exact forall_mem_replace (s.clips_eq ▸ hclips) hf

theorem changeClip (h : Owned tl.tracks) (hfind : tl.findClip? id = some c) {f : Clip → Clip}
    (hf : (f c).OwnedBy c.trackId) : Owned (tl.changeClip id f).tracks := by
  obtain ⟨s⟩ := exists_place hfind
  exact h.changeTrackOf s rfl (h.changeClips s hf)

theorem resort (h : Owned tl.tracks) (hfind : tl.findClip? id = some c) {d : Clip}
    (hd : d.OwnedBy c.trackId) : Owned (tl.resort id d).tracks := by
  obtain ⟨s⟩ := exists_place hfind
  exact h.changeTrackOf s rfl (h.changeClips s hd).sorted

theorem dropClip (h : Owned tl.tracks) (hfind : tl.findClip? id = some c) :
    Owned (tl.dropClip id).tracks := by
  obtain ⟨s⟩ := exists_place hfind
  refine h.changeTrackOf s rfl ((h.owns s.track s.track_mem).of_subset rfl ?_)
  exact (eraseFirst_sublist _ _).subset

theorem dropShowing (h : Owned tl.tracks) (resourceId : Value) :
    Owned (tl.dropShowing resourceId).tracks := by
  refine ⟨fun t ht => ?_, ?_⟩
  · obtain ⟨u, hu, rfl⟩ := List.mem_map.mp ht
    exact (h.owns u hu).of_subset rfl List.filter_sublist.subset
  · have hids := h.ids
    simpa [Timeline.dropShowing, Function.comp_def] using hids

theorem place (h : Owned tl.tracks) {trackId : Value} (hfind : tl.findTrack? trackId = some t)
    (hc : c.OwnedBy t.id) : Owned (tl.place trackId c).tracks := by
  obtain ⟨hid, hclips⟩ := h.owns t (List.mem_of_find?_eq_some hfind)
  refine h.changeTrack hfind rfl (Track.Owns.sorted ⟨hid, ?_⟩)
  simp only [List.forall_mem_append, List.forall_mem_singleton]
  exact ⟨hclips, hc⟩

theorem findTrack?_eq_some_iff (h : Owned tl.tracks) :
    tl.findTrack? id = some t ↔ t ∈ tl.tracks ∧ t.id = id :=
  find?_same_eq_some_iff (fun t ht => (h.owns t ht).id) h.ids

/-- A track with an id of its own joins the others. -/
theorem concat (h : Owned tl.tracks) (hid : ∃ s, t.id = .text s) (hfree : tl.findTrack? t.id = none)
    (hclips : t.clips = []) : Owned (tl.tracks ++ [t]) := by
  constructor
  · simp only [List.forall_mem_append, List.forall_mem_singleton]
    exact ⟨h.owns, hid, by simp [hclips]⟩
  · rw [List.map_append, List.map_singleton, List.nodup_append]
    refine ⟨h.ids, List.nodup_singleton _, ?_⟩
    -- a track with the same id would have been found
    rintro v hv w hw rfl
    obtain ⟨u, hu, hsame⟩ := List.mem_map.mp hv
    have hfind := h.findTrack?_eq_some_iff.mpr ⟨hu, hsame⟩
    rw [List.mem_singleton.mp hw, hfree] at hfind
    cases hfind

end Owned

/-! ## Section 3: Timelines -/

/-- Tracks and clips that can be told apart, where each clip names the track that holds it. -/
structure Identified (tl : Timeline) : Prop where
  tracks : Owned tl.tracks
  labels : (tl.clips.map Clip.label).Nodup

theorem identified_ofDuration (duration : Value) : (ofDuration duration).Identified :=
  ⟨⟨fun _ h => (nomatch h), List.nodup_nil⟩, List.nodup_nil⟩

namespace Identified

theorem exists_ownedBy (h : tl.Identified) (hc : c ∈ tl.clips) : ∃ t ∈ tl.tracks, c.OwnedBy t.id := by
  obtain ⟨t, ht, hc⟩ := List.mem_flatMap.mp hc
  exact ⟨t, ht, (h.tracks.owns t ht).clips c hc⟩

theorem exists_id (h : tl.Identified) (hc : c ∈ tl.clips) : ∃ s, c.id = .text s := by
  obtain ⟨t, -, howned⟩ := h.exists_ownedBy hc
  exact howned.id

/-- Clips that are called differently have different ids. -/
theorem clipIds (h : tl.Identified) : (tl.clips.map Clip.id).Nodup := by
  refine List.Nodup.of_map identifier ?_
  rw [List.map_map]
  exact h.labels

theorem findClip?_eq_some_iff (h : tl.Identified) :
    tl.findClip? id = some c ↔ c ∈ tl.clips ∧ c.id = id :=
  find?_same_eq_some_iff (fun _ hc => h.exists_id hc) h.clipIds

end Identified

/-! ## Section 4: Operations -/

/-- An operation that is given texts as ids of what is new, and a mapping as an update. -/
def Command.Named : Command → Prop
  | .addTrack _ id _ _ => id = .none ∨ ∃ s, id = .text s
  | .addClip _ _ _ id _ => id = .none ∨ ∃ s, id = .text s
  | .updateClip _ updates => ∃ fs, updates = .dict fs ∧ Fields.Distinct fs
  | _ => True

/-- A clip that is changed keeps its id and its track. -/
theorem Revision.ids_eq {updates : Value} {values : Fields} {old : Clip}
    (h : Revision tl id updates old values) (hc : Command.Named (.updateClip id updates))
    (hid : ∃ s, old.id = .text s) (htrack : ∃ s, old.trackId = .text s) :
    (old.merge values).id = old.id ∧ (old.merge values).trackId = old.trackId := by
  obtain ⟨fs, rfl, hdistinct⟩ := hc
  obtain ⟨asked, hasked, hadjusted⟩ := exists_adjusted h.values
  obtain rfl := Except.ok.inj hasked
  have hvalues := hadjusted.distinct hdistinct
  -- a given id has been compared with the one that the clip has
  rw [Clip.id_merge hvalues, Clip.trackId_merge hvalues, hadjusted.get?_eq _ (by decide),
    hadjusted.get?_eq _ (by decide)]
  constructor
  · obtain ⟨s, hs⟩ := hid
    have hfield : old.toValue.field "id" = .ok (.text s) := by rw [← hs]; rfl
    cases hget : Fields.get? fs "id" with
    | none => rfl
    | some v => rw [eq_text_of_checkFixed h.fixed (by decide) hfield hget, Option.getD_some, hs]
  · obtain ⟨s, hs⟩ := htrack
    have hfield : old.toValue.field "track_id" = .ok (.text s) := by rw [← hs]; rfl
    cases hget : Fields.get? fs "track_id" with
    | none => rfl
    | some v => rw [eq_text_of_checkFixed h.fixed (by decide) hfield hget, Option.getD_some, hs]

theorem Revision.ids_eq_of_identified {updates : Value} {values : Fields} {old : Clip}
    (h : Revision tl id updates old values) (hc : Command.Named (.updateClip id updates))
    (htl : tl.Identified) :
    (old.merge values).label = old.label ∧ (old.merge values).OwnedBy old.trackId := by
  obtain ⟨t, ht, howned⟩ := htl.exists_ownedBy (List.mem_of_find?_eq_some h.found)
  obtain ⟨hid, htrack⟩ := h.ids_eq hc howned.id
    (howned.trackId_eq ▸ (htl.tracks.owns t ht).id)
  exact ⟨congrArg identifier hid, hid ▸ howned.id, htrack⟩

theorem NewClip.exists_track {resource trackId time duration : Value}
    (h : NewClip tl resource trackId time id duration c)
    (hc : Command.Named (.addClip resource trackId time id duration)) (htl : tl.Identified) :
    ∃ t, tl.findTrack? trackId = some t ∧ c.OwnedBy t.id := by
  obtain ⟨t, hfind⟩ := Option.isSome_iff_exists.mp h.track_isSome
  have ht := (htl.tracks.findTrack?_eq_some_iff.mp hfind).2
  exact ⟨t, hfind, h.taken.exists_text hc, h.trackId_eq.trans ht.symm⟩

/-- Other animations leave a clip on its track. -/
theorem Identified.animate (h : tl.Identified) {clipId : Value} (hfind : tl.findClip? clipId = some c)
    (animations : Value) : Owned (tl.animate clipId animations).tracks := by
  have hid := h.exists_id (List.mem_of_find?_eq_some hfind)
  exact h.tracks.changeClip hfind ⟨hid, rfl⟩

theorem HalfDone.owned {fault : Fault} (h : HalfDone tl command fault tl') (hc : command.Named)
    (htl : tl.Identified) : Owned tl'.tracks := by
  cases h with
  | addClip h =>
    obtain ⟨t, hfind, howned⟩ := h.exists_track hc htl
    exact htl.tracks.place hfind howned
  | updateClip h => exact htl.tracks.resort h.found (h.ids_eq_of_identified hc htl).2
  | moveAnimation hfind => exact htl.animate hfind _

theorem Outcome.owned {r : Result Value} (h : Outcome tl command r tl') (hc : command.Named)
    (htl : tl.Identified) : Owned tl'.tracks := by
  cases h with
  | refused => exact htl.tracks
  | halfDone h => exact h.owned hc htl
  | idle => exact htl.tracks
  | addTrack hid hfree => exact htl.tracks.concat (hid.exists_text hc) hfree rfl
  | removeTrack => exact htl.tracks.of_sublist (eraseFirst_sublist _ _)
  | editTrack hedit hfind =>
    obtain ⟨t, ht⟩ := Option.isSome_iff_exists.mp hfind
    have howns := htl.tracks.owns t (List.mem_of_find?_eq_some ht)
    refine htl.tracks.changeTrack ht (id_of_trackEdit? hedit t) ?_
    exact howns.of_subset (id_of_trackEdit? hedit t) (clips_of_trackEdit? hedit t ▸ List.Subset.refl _)
  | addClip h =>
    obtain ⟨t, hfind, howned⟩ := h.exists_track hc htl
    exact htl.tracks.place hfind howned
  | removeClip hfind =>
    split
    · exact htl.tracks.dropClip hfind
    · exact htl.tracks.dropClip hfind
  | removeClipsOf resourceId =>
    have htracks : Owned (tl.deselect (tl.clips.filter (shows resourceId))).tracks := by
      rw [tracks_deselect]
      exact htl.tracks
    exact htracks.dropShowing resourceId
  | updateClip h => exact htl.tracks.changeClip h.found (h.ids_eq_of_identified hc htl).2
  | moveClip h => exact htl.tracks.resort h.found (h.ids_eq_of_identified hc htl).2
  | setCurrentTime => exact htl.tracks
  | setSelectedClip => exact htl.tracks
  | setSelectedAnimation => exact htl.tracks
  | addAnimation hfind => exact htl.animate hfind _
  | insertAnimation hfind => exact htl.animate hfind _
  | removeAnimation hfind =>
    rw [tracks_deselectAnimation]
    exact htl.animate hfind _
  | updateAnimation hfind => exact htl.animate hfind _
  | moveAnimation hfind => exact htl.animate hfind _

/-- Whatever an operation comes to, tracks and clips can still be told apart. -/
theorem Outcome.identified {r : Result Value} (h : Outcome tl command r tl') (hc : command.Named)
    (htl : tl.Identified) : tl'.Identified := by
  -- only an update could give a clip another label
  refine ⟨h.owned hc htl, h.rowChange.nodup_labels ?_ htl.labels⟩
  rintro id updates old values rfl hrevision
  exact (hrevision.ids_eq_of_identified hc htl).1

/-- After any row of operations, with success or without, tracks and clips can be told apart by their
ids, clips also by their identifiers in scripts, and the clips name the tracks that hold them. -/
theorem identified_of_steps {duration : Value}
    (h : Relation.ReflTransGen (Step Command.Named) (ofDuration duration) tl) :
    ((∀ t ∈ tl.tracks, ∃ s, t.id = .text s) ∧ ∀ c ∈ tl.clips, ∃ s, c.id = .text s)
      ∧ (tl.tracks.map Track.id).Nodup ∧ (tl.clips.map fun c => identifier c.id).Nodup
      ∧ (tl.clips.map Clip.id).Nodup ∧ (∀ t ∈ tl.tracks, ∀ c ∈ t.clips, c.trackId = t.id)
      ∧ (∀ id t, tl.findTrack? id = some t ↔ t ∈ tl.tracks ∧ t.id = id)
      ∧ ∀ id c, tl.findClip? id = some c ↔ c ∈ tl.clips ∧ c.id = id := by
  have htl : tl.Identified := steps_preserve
    (fun _ _ _ _ hc houtcome hidentified => houtcome.identified hc hidentified) h
    (identified_ofDuration duration)
  refine ⟨⟨fun t ht => (htl.tracks.owns t ht).id, fun c hc => htl.exists_id hc⟩,
    htl.tracks.ids, htl.labels, htl.clipIds, fun t ht c hc => ?_, fun id t => ?_, fun id c => ?_⟩
  · exact ((htl.tracks.owns t ht).clips c hc).trackId_eq
  · exact htl.tracks.findTrack?_eq_some_iff
  · exact htl.findClip?_eq_some_iff

/-- Two tracks, one of them with a drawn id; a clip, another one whose id is refused because it leads to
the same identifier, and one with a drawn id. -/
def sampleNames : List Command :=
  let resource := Value.dict [(.text "id", .text "r"), (.text "type", .text "text")]
  [.addTrack .none (.text "t") (.bool true) (.bool false),
    .addTrack .none .none (.bool true) (.bool false),
    .addClip resource (.text "t") (.int 0) (.text "c-1") .none,
    .addClip resource (.text "t") (.int 0) (.text "c1") .none,
    .addClip resource (.text "track_abcdefg") (.int 0) .none .none]

def sampleNamed : Timeline :=
  sampleNames.foldl (after · default) empty

/-- The two clips of the sample can be told apart. -/
theorem identified_of_steps_sample :
    sampleNamed.clips.map (fun c => identifier c.id) = ["obj_c1", "obj_clipabcdefg"]
      ∧ ((∀ t ∈ sampleNamed.tracks, ∃ s, t.id = .text s)
        ∧ ∀ c ∈ sampleNamed.clips, ∃ s, c.id = .text s)
      ∧ (sampleNamed.tracks.map Track.id).Nodup
      ∧ (sampleNamed.clips.map fun c => identifier c.id).Nodup
      ∧ (sampleNamed.clips.map Clip.id).Nodup
      ∧ (∀ t ∈ sampleNamed.tracks, ∀ c ∈ t.clips, c.trackId = t.id)
      ∧ (∀ id t, sampleNamed.findTrack? id = some t ↔ t ∈ sampleNamed.tracks ∧ t.id = id)
      ∧ ∀ id c, sampleNamed.findClip? id = some c ↔ c ∈ sampleNamed.clips ∧ c.id = id := by
  refine ⟨by decide +kernel, identified_of_steps (steps_foldl ?_ default)⟩
  simp [sampleNames, Command.Named]

end Timeline

end Overlay
