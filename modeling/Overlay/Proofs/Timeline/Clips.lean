import Overlay.Proofs.Timeline.Rows
import Overlay.Proofs.Timeline.Segments

/-!
# Sound timelines

A timeline is sound where its clips have texts as ids, moderate times and sound segments, and where
no two of them, on any tracks, share an identifier.  All of this can be seen from the row of all
clips.

## Main definitions
- `Segment.AreSound`: lists of sound segments
- `Clip.Sound`, `Timeline.Sound`: sound clips and timelines

## Main statements
- `Clip.Sound.merge`: changed clips stay sound
- `Timeline.Sound.of_subperm`, `Timeline.Sound.of_insert`, `Timeline.Sound.of_replace`: changes of the
  row that keep a timeline sound
-/

namespace Overlay

open Overlay.Number Overlay.Literal

attribute [local irreducible] twoTo tenTo Double.unitsInOne

/-! ## Section 1: Clips -/

/-- A list of segments that a script can be written from. -/
def Segment.AreSound (v : Value) : Prop :=
  ∃ items, v = .list items ∧ ∀ a ∈ items, Sound a

namespace Clip

/-- A clip that a script can be written from. -/
structure Sound (c : Clip) : Prop where
  id : ∃ s, c.id = .text s
  start : IsLength c.start
  duration : IsLength c.duration
  animations : Segment.AreSound c.animations

/-- A field that a clip may be given. -/
structure Admits (c : Clip) (key v : Value) : Prop where
  id : key = .text "id" → v = c.id
  start : key = .text "start_time" → IsLength v
  duration : key = .text "duration" → IsLength v
  animations : key = .text "animations" → Segment.AreSound v

/-- A changed clip stays sound and keeps its id. -/
theorem Sound.put {c : Clip} (h : c.Sound) {key v : Value} (hv : c.Admits key v) :
    (c.put key v).Sound ∧ (c.put key v).id = c.id := by
  unfold Clip.put
  split
  · have hid := hv.id rfl
    exact ⟨⟨hid ▸ h.id, h.start, h.duration, h.animations⟩, hid⟩
  · exact ⟨⟨h.id, h.start, h.duration, h.animations⟩, rfl⟩
  · exact ⟨⟨h.id, h.start, h.duration, h.animations⟩, rfl⟩
  · exact ⟨⟨h.id, hv.start rfl, h.duration, h.animations⟩, rfl⟩
  · exact ⟨⟨h.id, h.start, hv.duration rfl, h.animations⟩, rfl⟩
  · exact ⟨⟨h.id, h.start, h.duration, h.animations⟩, rfl⟩
  · exact ⟨⟨h.id, h.start, h.duration, hv.animations rfl⟩, rfl⟩
  · exact ⟨⟨h.id, h.start, h.duration, h.animations⟩, rfl⟩

theorem Sound.merge {c : Clip} (h : c.Sound) {updates : Fields}
    (hupdates : ∀ e ∈ updates, c.Admits e.1 e.2) :
    (c.merge updates).Sound ∧ (c.merge updates).id = c.id := by
  unfold Clip.merge
  induction updates generalizing c with
  | nil => exact ⟨h, rfl⟩
  | cons e r ih =>
    obtain ⟨hhead, htail⟩ := List.forall_mem_cons.mp hupdates
    obtain ⟨hput, hid⟩ := h.put hhead
    have hadmits : ∀ e' ∈ r, (c.put e.1 e.2).Admits e'.1 e'.2 := by
      intro e' he'
      have h' := htail e' he'
      exact ⟨fun hkey => (h'.id hkey).trans hid.symm, h'.start, h'.duration, h'.animations⟩
    obtain ⟨hsound, hsame⟩ := ih hput hadmits
    exact ⟨hsound, hsame.trans hid⟩

end Clip

/-! ## Section 2: Timelines -/

namespace Timeline

/-- Clips that a script can be written from, no two of which are called the same. -/
structure Sound (tl : Timeline) : Prop where
  clips : ∀ c ∈ tl.clips, c.Sound
  labels : (tl.clips.map Clip.label).Nodup

theorem Sound.ofDuration (duration : Value) : Sound (.ofDuration duration) :=
  ⟨fun _ h => (nomatch h), List.nodup_nil⟩

variable {tl tl' : Timeline}

/-- Clips may be put into another order and be left out. -/
theorem Sound.of_subperm (h : tl.Sound) (hsub : tl'.clips.Subperm tl.clips) : tl'.Sound :=
  ⟨fun c hc => h.clips c (hsub.subset hc), nodup_labels_of_subperm h.labels hsub⟩

theorem Sound.of_clips_eq (h : tl.Sound) (heq : tl'.clips = tl.clips) : tl'.Sound :=
  ⟨heq ▸ h.clips, heq ▸ h.labels⟩

/-- A clip that is called differently from all others may be put among them. -/
theorem Sound.of_insert (h : tl.Sound) {c : Clip} (hc : c.Sound)
    (hnew : ∀ d ∈ tl.clips, d.label ≠ c.label) (hperm : tl'.clips.Perm (c :: tl.clips)) :
    tl'.Sound := by
  refine ⟨fun d hd => ?_, nodup_labels_of_insert h.labels hnew hperm⟩
  rcases List.mem_cons.mp (hperm.subset hd) with rfl | hd
  · exact hc
  · exact h.clips d hd

/-- A clip may take the place of one that is called the same. -/
theorem Sound.of_replace (h : tl.Sound) {front back : List Clip} {c d : Clip}
    (hclips : tl.clips = front ++ c :: back) (hd : d.Sound) (hlabel : d.label = c.label)
    (hchanged : tl'.clips = front ++ d :: back) : tl'.Sound := by
  refine ⟨?_, nodup_labels_of_replace h.labels hclips hlabel hchanged⟩
  rw [hchanged]
  exact forall_mem_replace (hclips ▸ h.clips) hd

/-- A clip that is found may be changed as long as it stays sound and is called the same. -/
theorem Sound.changeClip (h : tl.Sound) {id : Value} {c : Clip} (hfind : tl.findClip? id = some c)
    {f : Clip → Clip} (hf : (f c).Sound) (hlabel : (f c).label = c.label) :
    (tl.changeClip id f).Sound := by
  obtain ⟨s⟩ := exists_place hfind
  exact h.of_replace s.timeline_clips hf hlabel (s.clips_changeClip f)

end Timeline

end Overlay
