import Overlay.Proofs.Timeline.Extent
import Overlay.Proofs.Timeline.Ownership

/-!
# Clips that are sorted in

A clip that is placed on a track is sorted in behind those that start no later.  Clips that are placed
one after the other end up as if the whole row had been sorted at once, without a change of the order
of clips that start together.  A clip that is changed after it was placed ends up as if the changed
clip had been placed.

## Main definitions
- `Track.SortsRow`: a row of clips in the order of their starts
- `Timeline.Room`: a timeline with room for a clip on a track

## Main statements
- `Track.SortsRow.of_sorted`, `Track.SortsRow.unique`: a row is sorted, and in one way only
- `Track.SortsRow.sorted`: one more clip is sorted in
- `Timeline.Room.changeClip_place`: a placed clip is changed
-/

namespace Overlay

/-! ## Section 1: Rows -/

/-- The clips are those of a row in the order of their starts; clips that start at the same time stand
as they do in the row. -/
structure Track.SortsRow (row clips : List Clip) : Prop where
  perm : clips.Perm row
  ordered : clips.Pairwise fun c d => c.startTime ≤ d.startTime
  stable : ∀ time : Int, (clips.filter fun c => c.startTime = time)
    = row.filter fun c => c.startTime = time

namespace Track.SortsRow

variable {row clips : List Clip} {c : Clip}

theorem nil : SortsRow [] [] :=
  ⟨.nil, .nil, fun _ => rfl⟩

/-- Whether a clip starts no later than another one, as far as starts are whole numbers. -/
private def before (c d : Clip) : Bool :=
  decide (c.startTime ≤ d.startTime)

private theorem before_trans (a b c : Clip) (hab : before a b = true) (hbc : before b c = true) :
    before a c = true := by
  rw [before, decide_eq_true_eq] at hab hbc ⊢
  exact hab.trans hbc

private theorem before_total (a b : Clip) : (before a b || before b a) = true := by
  rw [Bool.or_eq_true, before, before, decide_eq_true_eq, decide_eq_true_eq]
  exact le_total a.startTime b.startTime

/-- On whole numbers sorting goes by a total order. -/
private theorem mergeSort_eq (h : ∀ c ∈ clips, c.start.whole? = some c.startTime) :
    clips.mergeSort Clip.startsNoLater = clips.mergeSort before := by
  have hagree : ∀ c ∈ clips, ∀ d ∈ clips, Clip.startsNoLater c d = before c d :=
    fun c hc d hd => Clip.startsNoLater_of_whole (h c hc) (h d hd)
  simpa using List.map_mergeSort (f := fun c => c) hagree

/-- Sorting does not touch the order of clips that start together. -/
private theorem filter_mergeSort (clips : List Clip) (time : Int) :
    ((clips.mergeSort before).filter fun c => c.startTime = time)
      = clips.filter fun c => c.startTime = time := by
  have htogether : (clips.filter fun c => c.startTime = time).Pairwise fun c d => before c d = true := by
    refine List.Pairwise.imp_of_mem ?_ (List.pairwise_of_forall (R := fun _ _ => True) fun _ _ => trivial)
    intro c d hc hd _
    have hc := of_decide_eq_true (List.mem_filter.mp hc).2
    have hd := of_decide_eq_true (List.mem_filter.mp hd).2
    rw [before, decide_eq_true_eq, hc, hd]
  -- the clips that start together are ordered as they stand, so sorting keeps them as a sublist
  have hsub := (List.sublist_mergeSort before_trans before_total htogether List.filter_sublist).filter
    fun c => decide (c.startTime = time)
  rw [List.filter_filter] at hsub
  simp only [Bool.and_self] at hsub
  refine (hsub.eq_of_length ?_).symm
  exact ((List.mergeSort_perm clips before).filter _).length_eq.symm

/-- The clips of a track are sorted as they stand. -/
theorem of_sorted {t : Track} (hwhole : ∀ d ∈ t.clips, d.start.whole? = some d.startTime) :
    SortsRow t.clips t.sorted.clips := by
  have hsorted : t.sorted.clips = t.clips.mergeSort before := mergeSort_eq hwhole
  refine ⟨Timeline.sorted_perm t, ?_, fun time => ?_⟩
  · rw [hsorted]
    refine (List.pairwise_mergeSort before_trans before_total t.clips).imp fun hle => ?_
    exact of_decide_eq_true hle
  · rw [hsorted, filter_mergeSort]

/-- One more clip is sorted in behind the others. -/
theorem sorted (h : SortsRow row clips) {t : Track} (ht : t.clips = clips ++ [c])
    (hwhole : ∀ d ∈ row ++ [c], d.start.whole? = some d.startTime) :
    SortsRow (row ++ [c]) t.sorted.clips := by
  have hperm : t.clips.Perm (row ++ [c]) := ht ▸ h.perm.append_right [c]
  obtain ⟨hclips, hordered, hstable⟩ := of_sorted fun d hd => hwhole d (hperm.subset hd)
  refine ⟨hclips.trans hperm, hordered, fun time => ?_⟩
  rw [hstable, ht, List.filter_append, List.filter_append, h.stable]

/-- A row is sorted in one way only. -/
theorem unique {clips' : List Clip} (h : SortsRow row clips) (h' : SortsRow row clips') :
    clips = clips' := by
  have hperm := h.perm.trans h'.perm.symm
  have hstable : ∀ time : Int, (clips.filter fun c => c.startTime = time)
      = clips'.filter fun c => c.startTime = time :=
    fun time => (h.stable time).trans (h'.stable time).symm
  have hordered := h.ordered
  have hordered' := h'.ordered
  clear h h'
  induction clips generalizing clips' with
  | nil => exact hperm.nil_eq
  | cons c r ih =>
    cases clips' with
    | nil => exact absurd hperm.symm.nil_eq (List.cons_ne_nil c r).symm
    | cons c' r' =>
      obtain ⟨hfirst, hrest⟩ := List.pairwise_cons.mp hordered
      obtain ⟨hfirst', hrest'⟩ := List.pairwise_cons.mp hordered'
      -- both rows begin with a clip of the earliest start, and the clips of that start agree
      have hle : c.startTime ≤ c'.startTime := by
        rcases List.mem_cons.mp (hperm.mem_iff.mpr List.mem_cons_self) with heq | hmem
        · exact heq ▸ le_rfl
        · exact hfirst c' hmem
      have hle' : c'.startTime ≤ c.startTime := by
        rcases List.mem_cons.mp (hperm.mem_iff.mp List.mem_cons_self) with heq | hmem
        · exact heq ▸ le_rfl
        · exact hfirst' c hmem
      have hstart := hstable c.startTime
      rw [List.filter_cons_of_pos (by simp),
        List.filter_cons_of_pos (by simpa using le_antisymm hle' hle)] at hstart
      obtain ⟨rfl, -⟩ := List.cons.inj hstart
      rw [ih hperm.cons_inv (fun time => ?_) hrest hrest']
      have htime := hstable time
      rw [List.filter_cons, List.filter_cons] at htime
      split at htime
      · exact (List.cons.inj htime).2
      · exact htime

end Track.SortsRow

/-! ## Section 2: Changes of a single match -/

/-- Where all matches are changed in the same way, it is enough to change the first one if there is no
other. -/
theorem updateFirst_eq_map {α : Type} {p : α → Bool} {l : List α} (h : l.countP p ≤ 1) (f : α → α) :
    updateFirst p f l = l.map fun a => if p a then f a else a := by
  induction l with
  | nil => rfl
  | cons b r ih =>
    rw [updateFirst, List.map_cons]
    by_cases hb : p b = true
    · have hrest : ∀ a ∈ r, ¬p a = true := by
        rw [List.countP_cons_of_pos hb] at h
        exact List.countP_eq_zero.mp (by omega)
      have hsame : r.map (fun a => if p a then f a else a) = r :=
        (List.map_congr_left fun a ha => if_neg (hrest a ha)).trans (List.map_id' r)
      rw [if_pos hb, if_pos hb, hsame]
    · rw [List.countP_cons_of_neg hb] at h
      rw [if_neg hb, if_neg hb, ih h]

/-- Sorting looks at the starts of clips alone. -/
theorem updateFirst_mergeSort {p : Clip → Bool} {l : List Clip} (h : l.countP p ≤ 1) {f : Clip → Clip}
    (hstart : ∀ c, (f c).start = c.start) :
    updateFirst p f (l.mergeSort Clip.startsNoLater)
      = (updateFirst p f l).mergeSort Clip.startsNoLater := by
  -- a change of all matches can be moved through the sort, a change of the first one only as such
  have hkeeps : ∀ c, (if p c then f c else c).start = c.start := by
    intro c
    split
    · exact hstart c
    · rfl
  have hlater : ∀ c ∈ l, ∀ d ∈ l, Clip.startsNoLater c d
      = Clip.startsNoLater (if p c then f c else c) (if p d then f d else d) := by
    intro c _ d _
    rw [Clip.startsNoLater, Clip.startsNoLater, hkeeps, hkeeps]
  rw [updateFirst_eq_map h, ← List.map_mergeSort hlater, updateFirst_eq_map]
  rwa [(List.mergeSort_perm l _).countP_eq]

namespace Timeline

/-! ## Section 3: Placed clips -/

/-- A track where a clip may be placed, with the tracks around it: no clip has the id of the new one. -/
structure Room (tl : Timeline) (trackId : Value) (c : Clip) (above below : List Track) (t : Track) :
    Prop where
  tracks : tl.tracks = above ++ t :: below
  others : ∀ u ∈ above, isTrack trackId u = false
  track : isTrack trackId t = true
  id : ∃ s, c.id = .text s
  free : tl.findClip? c.id = none

namespace Room

variable {tl : Timeline} {trackId : Value} {c : Clip} {above below : List Track} {t : Track}

/-- The clip joins the others of its track. -/
theorem place_eq (h : tl.Room trackId c above below t) :
    tl.place trackId c
      = { tl with tracks := above ++ { t with clips := t.clips ++ [c] }.sorted :: below } := by
  rw [place, changeTrack, h.tracks, updateFirst_append h.others h.track]

/-- Another clip with the same id finds the same room. -/
theorem of_id_eq (h : tl.Room trackId c above below t) {d : Clip} (hid : d.id = c.id) :
    tl.Room trackId d above below t :=
  ⟨h.tracks, h.others, h.track, hid ▸ h.id, hid ▸ h.free⟩

theorem mem (h : tl.Room trackId c above below t) : t ∈ tl.tracks := by
  rw [h.tracks]
  simp

theorem isClip_self (h : tl.Room trackId c above below t) : isClip c.id c = true := by
  obtain ⟨s, hs⟩ := h.id
  rw [isClip, hs]
  exact Value.same_text_self s

/-- No clip of the timeline has the id of the new one. -/
theorem not_isClip (h : tl.Room trackId c above below t) {u : Track} (hu : u ∈ tl.tracks) {d : Clip}
    (hd : d ∈ u.clips) : isClip c.id d = false := by
  have hfree := List.find?_eq_none.mp h.free d (List.mem_flatMap.mpr ⟨u, hu, hd⟩)
  simpa using hfree

theorem not_holdsClip (h : tl.Room trackId c above below t) {u : Track} (hu : u ∈ tl.tracks) :
    holdsClip c.id u = false := by
  rw [holdsClip, List.any_eq_false]
  intro d hd
  simp [h.not_isClip hu hd]

/-- The new clip is the only one with its id. -/
theorem countP_eq_one (h : tl.Room trackId c above below t) :
    (t.clips ++ [c]).countP (isClip c.id) = 1 := by
  have hnone : t.clips.countP (isClip c.id) = 0 := by
    rw [List.countP_eq_zero]
    intro d hd
    simp [h.not_isClip h.mem hd]
  rw [List.countP_append, hnone, List.countP_singleton, if_pos h.isClip_self]

/-- A placed clip is changed: as long as it keeps its id and its start, it might as well have been
changed before. -/
theorem changeClip_place (h : tl.Room trackId c above below t) {f : Clip → Clip}
    (hstart : ∀ d, (f d).start = d.start) :
    (tl.place trackId c).changeClip c.id f = tl.place trackId (f c) := by
  have habove : ∀ u ∈ above, holdsClip c.id u = false :=
    fun u hu => h.not_holdsClip (by simp [h.tracks, hu])
  have hclips : ∀ d ∈ t.clips, isClip c.id d = false := fun d hd => h.not_isClip h.mem hd
  have hholds : holdsClip c.id { t with clips := t.clips ++ [c] }.sorted = true := by
    rw [holdsClip, List.any_eq_true]
    exact ⟨c, List.mem_mergeSort.mpr (by simp), h.isClip_self⟩
  have hsorted : updateFirst (isClip c.id) f ((t.clips ++ [c]).mergeSort Clip.startsNoLater)
      = (t.clips ++ [f c]).mergeSort Clip.startsNoLater := by
    rw [updateFirst_mergeSort h.countP_eq_one.le hstart, updateFirst_append hclips h.isClip_self]
  rw [h.place_eq, changeClip, changeTrackOf, updateFirst_append habove hholds]
  rw [place, changeTrack, h.tracks, updateFirst_append h.others h.track]
  simp only [Track.sorted, hsorted]

/-- A placed clip is found by its id. -/
theorem findClip?_place (h : tl.Room trackId c above below t) :
    (tl.place trackId c).findClip? c.id = some c := by
  have hfound : (tl.findTrack? trackId).isSome := by
    rw [findTrack?, h.tracks, List.find?_isSome]
    exact ⟨t, by simp, h.track⟩
  have hperm := clips_place_perm hfound c
  have hsome : ((tl.place trackId c).findClip? c.id).isSome :=
    List.find?_isSome.mpr ⟨c, hperm.mem_iff.mpr List.mem_cons_self, h.isClip_self⟩
  obtain ⟨d, hd⟩ := Option.isSome_iff_exists.mp hsome
  rw [hd]
  -- whatever is found has the id, and none of the other clips does
  rcases List.mem_cons.mp (hperm.mem_iff.mp (List.mem_of_find?_eq_some hd)) with rfl | hmem
  · rfl
  · obtain ⟨u, hu, hd'⟩ := List.mem_flatMap.mp hmem
    cases (h.not_isClip hu hd').symm.trans (List.find?_some hd)

end Room

end Timeline

end Overlay
