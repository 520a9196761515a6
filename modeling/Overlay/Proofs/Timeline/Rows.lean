import Overlay.Timeline.Basic
import Mathlib.Data.List.Perm.Basic
import Mathlib.Data.List.Perm.Subperm

/-!
# Tracks and clips in a row

The operations of a timeline look for the first track or clip with an id and change it where it
stands.  Each change is one of the row of all clips, where no two clips may be called the same.

## Main definitions
- `Timeline.Place`: where the first clip with an id stands
- `Clip.label`: what a clip is called in scripts

## Main statements
- `updateFirst_append`, `updateFirst_updateFirst`, `map_updateFirst`: changes of a first match
- `Timeline.exists_place`: a clip that is found stands somewhere
- `Timeline.Place.changeClip`: a change of the clip leaves everything around it as it is
- `nodup_labels_of_subperm`, `nodup_labels_of_insert`, `nodup_labels_of_replace`: changes of the row
  that keep the names different
-/

namespace Overlay

/-! ## Section 1: First matches -/

section Matches

variable {α : Type} (p : α → Bool)

theorem updateFirst_cases (f : α → α) (l : List α) :
    updateFirst p f l = l
      ∨ ∃ front a back, l = front ++ a :: back ∧ p a = true
        ∧ updateFirst p f l = front ++ f a :: back := by
  induction l with
  | nil => exact Or.inl rfl
  | cons b r ih =>
    rw [updateFirst]
    split
    · next hb => exact Or.inr ⟨[], b, r, rfl, hb, rfl⟩
    · rcases ih with heq | ⟨front, a, back, hr, ha, heq⟩
      · rw [heq]
        exact Or.inl rfl
      · refine Or.inr ⟨b :: front, a, back, ?_, ha, ?_⟩
        · rw [hr, List.cons_append]
        · rw [heq, List.cons_append]

theorem mem_updateFirst {p : α → Bool} {f : α → α} {l : List α} {b : α}
    (h : b ∈ updateFirst p f l) : b ∈ l ∨ ∃ a ∈ l, p a = true ∧ b = f a := by
  rcases updateFirst_cases p f l with heq | ⟨front, a, back, rfl, ha, heq⟩
  · rw [heq] at h
    exact Or.inl h
  · rw [heq] at h
    simp only [List.mem_append, List.mem_cons] at h ⊢
    rcases h with h | rfl | h
    · exact Or.inl (Or.inl h)
    · exact Or.inr ⟨a, Or.inr (Or.inl rfl), ha, rfl⟩
    · exact Or.inl (Or.inr (Or.inr h))

theorem updateFirst_append {p : α → Bool} {front : List α} {a : α} (hfront : ∀ b ∈ front, p b = false)
    (ha : p a = true) (f : α → α) (back : List α) :
    updateFirst p f (front ++ a :: back) = front ++ f a :: back := by
  induction front with
  | nil => simp [updateFirst, ha]
  | cons b r ih =>
    obtain ⟨hb, hr⟩ := List.forall_mem_cons.mp hfront
    simp [updateFirst, hb, ih hr]

/-- The first match is changed twice, if the first change leaves it a match. -/
theorem updateFirst_updateFirst {p : α → Bool} {f : α → α} (hf : ∀ a, p a = true → p (f a) = true)
    (g : α → α) (l : List α) :
    updateFirst p g (updateFirst p f l) = updateFirst p (fun a => g (f a)) l := by
  induction l with
  | nil => rfl
  | cons b r ih =>
    by_cases hb : p b = true
    · simp [updateFirst, hb, hf b hb]
    · simp [updateFirst, hb, ih]

/-- What the change of a match keeps, the change of the first match keeps. -/
theorem map_updateFirst {β : Type} {p : α → Bool} {f : α → α} {g : α → β} {l : List α}
    (h : ∀ a ∈ l, p a = true → g (f a) = g a) : (updateFirst p f l).map g = l.map g := by
  rcases updateFirst_cases p f l with heq | ⟨front, a, back, rfl, ha, heq⟩
  · rw [heq]
  · rw [heq, List.map_append, List.map_append, List.map_cons, List.map_cons, h a (by simp) ha]

theorem any_updateFirst {p : α → Bool} {f : α → α} (hf : ∀ a, p a = true → p (f a) = true)
    (l : List α) : (updateFirst p f l).any p = l.any p := by
  induction l with
  | nil => rfl
  | cons b r ih =>
    by_cases hb : p b = true
    · simp [updateFirst, hb, hf b hb]
    · simp [updateFirst, hb, ih]

/-- Another item takes the place of one. -/
theorem forall_mem_replace {q : α → Prop} {front back : List α} {a b : α}
    (h : ∀ d ∈ front ++ a :: back, q d) (hb : q b) : ∀ d ∈ front ++ b :: back, q d := by
  simp only [List.forall_mem_append, List.forall_mem_cons] at h ⊢
  exact ⟨h.1, hb, h.2.2⟩

theorem eraseFirst_sublist (l : List α) : (eraseFirst p l).Sublist l := by
  induction l with
  | nil => exact List.Sublist.slnil
  | cons b r ih =>
    rw [eraseFirst]
    split
    · exact List.sublist_cons_self b r
    · exact ih.cons_cons b

end Matches

namespace Timeline

/-! ## Section 2: Places -/

/-- The first clip with an id, with what stands around it. -/
structure Place (tl : Timeline) (id : Value) (c : Clip) where
  /-- The tracks above. -/
  above : List Track
  /-- The track of the clip. -/
  track : Track
  /-- The tracks below. -/
  below : List Track
  /-- The clips in front. -/
  before : List Clip
  /-- The clips behind. -/
  after : List Clip
  tracks_eq : tl.tracks = above ++ track :: below
  clips_eq : track.clips = before ++ c :: after
  above_other : ∀ t ∈ above, holdsClip id t = false
  before_other : ∀ d ∈ before, isClip id d = false
  isClip : isClip id c = true

variable {tl : Timeline} {id : Value} {c : Clip}

theorem holdsClip_eq_false {t : Track} (h : t.clips.find? (isClip id) = none) :
    holdsClip id t = false := by
  rw [holdsClip, List.any_eq_false]
  intro d hd
  exact List.find?_eq_none.mp h d hd

theorem exists_place (h : tl.findClip? id = some c) : Nonempty (Place tl id c) := by
  rw [findClip?, clips, List.find?_flatMap, List.findSome?_eq_some_iff] at h
  obtain ⟨above, t, below, htracks, hfind, habove⟩ := h
  obtain ⟨hc, before, after, hclips, hbefore⟩ := List.find?_eq_some_iff_append.mp hfind
  exact ⟨{
    above, track := t, below, before, after
    tracks_eq := htracks
    clips_eq := hclips
    above_other := fun u hu => holdsClip_eq_false (habove u hu)
    before_other := fun d hd => by simpa using hbefore d hd
    isClip := hc }⟩

namespace Place

theorem holdsClip (s : Place tl id c) : holdsClip id s.track = true := by
  rw [Timeline.holdsClip, s.clips_eq, List.any_eq_true]
  exact ⟨c, by simp, s.isClip⟩

theorem track_mem (s : Place tl id c) : s.track ∈ tl.tracks := by
  rw [s.tracks_eq]
  simp

theorem mem (s : Place tl id c) : c ∈ s.track.clips := by
  rw [s.clips_eq]
  simp

/-- The track is changed where it stands. -/
theorem changeTrackOf (s : Place tl id c) (f : Track → Track) :
    tl.changeTrackOf id f = { tl with tracks := s.above ++ f s.track :: s.below } := by
  rw [Timeline.changeTrackOf, s.tracks_eq, updateFirst_append s.above_other s.holdsClip]

/-- What is true of all tracks and of the changed one is true of all tracks after the change. -/
theorem forall_changeTrackOf (s : Place tl id c) {q : Track → Prop} {f : Track → Track}
    (h : ∀ t ∈ tl.tracks, q t) (hf : q (f s.track)) : ∀ t ∈ (tl.changeTrackOf id f).tracks, q t := by
  rw [s.changeTrackOf]
  exact forall_mem_replace (s.tracks_eq ▸ h) hf

/-- The clip is changed where it stands. -/
theorem updateClips (s : Place tl id c) (f : Clip → Clip) :
    updateFirst (Timeline.isClip id) f s.track.clips = s.before ++ f c :: s.after := by
  rw [s.clips_eq, updateFirst_append s.before_other s.isClip]

theorem changeClip (s : Place tl id c) (f : Clip → Clip) :
    tl.changeClip id f = { tl with
      tracks := s.above ++ { s.track with clips := s.before ++ f c :: s.after } :: s.below } := by
  rw [Timeline.changeClip, s.changeTrackOf, s.updateClips]

/-- The clips in front, on all tracks. -/
def front (s : Place tl id c) : List Clip :=
  s.above.flatMap Track.clips ++ s.before

/-- The clips behind, on all tracks. -/
def back (s : Place tl id c) : List Clip :=
  s.after ++ s.below.flatMap Track.clips

theorem timeline_clips (s : Place tl id c) : tl.clips = s.front ++ c :: s.back := by
  rw [Timeline.clips, s.tracks_eq, List.flatMap_append, List.flatMap_cons, s.clips_eq]
  simp [front, back]

theorem clips_changeClip (s : Place tl id c) (f : Clip → Clip) :
    (tl.changeClip id f).clips = s.front ++ f c :: s.back := by
  rw [s.changeClip, Timeline.clips, List.flatMap_append, List.flatMap_cons]
  simp [front, back]

end Place

/-- A track that is found is changed where it stands. -/
theorem exists_changeTrack {t : Track} (h : tl.findTrack? id = some t) (f : Track → Track) :
    ∃ above below, tl.tracks = above ++ t :: below
      ∧ tl.changeTrack id f = { tl with tracks := above ++ f t :: below } := by
  obtain ⟨ht, above, below, htracks, habove⟩ := List.find?_eq_some_iff_append.mp h
  refine ⟨above, below, htracks, ?_⟩
  rw [changeTrack, htracks, updateFirst_append (fun u hu => by simpa using habove u hu) ht]

/-- A clip that keeps its id is changed twice. -/
theorem changeClip_changeClip {f : Clip → Clip} (hf : ∀ c, (f c).id = c.id) (g : Clip → Clip)
    (tl : Timeline) (id : Value) :
    (tl.changeClip id f).changeClip id g = tl.changeClip id fun c => g (f c) := by
  have hclip : ∀ c, isClip id c = true → isClip id (f c) = true := by
    intro c hc
    rwa [isClip, hf]
  have htrack : ∀ t, holdsClip id t = true →
      holdsClip id { t with clips := updateFirst (isClip id) f t.clips } = true := by
    intro t ht
    rwa [holdsClip, any_updateFirst hclip]
  simp only [changeClip, changeTrackOf, updateFirst_updateFirst htrack,
    updateFirst_updateFirst hclip]

/-- A change of one track is one of the row of all clips. -/
theorem clips_updateFirst (p : Track → Bool) (f : Track → Track) (tracks : List Track) :
    (updateFirst p f tracks).flatMap Track.clips = tracks.flatMap Track.clips
      ∨ ∃ front t back, p t = true ∧ tracks.flatMap Track.clips = front ++ t.clips ++ back
        ∧ (updateFirst p f tracks).flatMap Track.clips = front ++ (f t).clips ++ back := by
  rcases updateFirst_cases p f tracks with heq | ⟨front, t, back, rfl, ht, heq⟩
  · exact Or.inl (by rw [heq])
  · refine Or.inr ⟨front.flatMap Track.clips, t, back.flatMap Track.clips, ht, ?_, ?_⟩
    · rw [List.flatMap_append, List.flatMap_cons, List.append_assoc]
    · rw [heq, List.flatMap_append, List.flatMap_cons, List.append_assoc]

end Timeline

/-! ## Section 3: Names in scripts -/

/-- What a clip is called in scripts. -/
def Clip.label (c : Clip) : String :=
  identifier c.id

section Labels

variable {l l' : List Clip}

/-- Clips may be put into another order and be left out. -/
theorem nodup_labels_of_subperm (h : (l.map Clip.label).Nodup) (hsub : l'.Subperm l) :
    (l'.map Clip.label).Nodup := by
  obtain ⟨m, hperm, hm⟩ := hsub
  exact (hperm.map Clip.label).nodup_iff.mp (h.sublist (hm.map Clip.label))

/-- A clip that is called differently from all others may be put among them. -/
theorem nodup_labels_of_insert (h : (l.map Clip.label).Nodup) {c : Clip}
    (hnew : ∀ d ∈ l, d.label ≠ c.label) (hperm : l'.Perm (c :: l)) :
    (l'.map Clip.label).Nodup := by
  rw [(hperm.map Clip.label).nodup_iff, List.map_cons, List.nodup_cons]
  refine ⟨fun hmem => ?_, h⟩
  obtain ⟨d, hd, hlabel⟩ := List.mem_map.mp hmem
  exact hnew d hd hlabel

/-- A clip may take the place of one that is called the same. -/
theorem nodup_labels_of_replace (h : (l.map Clip.label).Nodup) {front back : List Clip} {c d : Clip}
    (hl : l = front ++ c :: back) (hlabel : d.label = c.label) (hl' : l' = front ++ d :: back) :
    (l'.map Clip.label).Nodup := by
  rw [hl, List.map_append, List.map_cons] at h
  rwa [hl', List.map_append, List.map_cons, hlabel]

end Labels

end Overlay
