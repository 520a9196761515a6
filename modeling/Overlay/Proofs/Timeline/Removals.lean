import Overlay.Proofs.Timeline.Outcomes

/-!
# Taking clips out

Clips go with their track, one by one, or with the resource that they show.  Each time the clips are
divided into those that go and those that stay, and if the selected clip seems to be one of those that
go, nothing is selected any more.

## Main definitions
- `Timeline.Command.removes`: the operations that take clips out
- `Timeline.Removal`: which clips go, and whether the selection goes with them

## Main statements
- `Timeline.Removal.perm`: each clip either goes or stays
- `Timeline.Removal.after_leaves`: what is left
- `Timeline.after_eq_or_removal`: an operation that takes clips out finds some, or changes nothing
-/

namespace Overlay

theorem eraseFirst_append {α : Type} {p : α → Bool} {front : List α} {a : α}
    (hfront : ∀ b ∈ front, p b = false) (ha : p a = true) (back : List α) :
    eraseFirst p (front ++ a :: back) = front ++ back := by
  induction front with
  | nil => simp [eraseFirst, ha]
  | cons b r ih =>
    obtain ⟨hb, hr⟩ := List.forall_mem_cons.mp hfront
    simp [eraseFirst, hb, ih hr]

namespace Timeline

variable {tl : Timeline} {command : Command} {id : Value} {c : Clip} {t : Track}

/-! ## Section 1: Operations -/

/-- The operations that take clips out. -/
def Command.removes : Command → Bool
  | .removeTrack _ => true
  | .removeClip _ => true
  | .removeClipsOf _ => true
  | _ => false

theorem after_removeTrack (hfind : tl.findTrack? id = some t) (w : Surroundings) :
    tl.after w (.removeTrack id)
      = { tl.deselect t.clips with tracks := eraseFirst (isTrack id) tl.tracks } := by
  rw [← tracks_deselect tl t.clips]
  simp [after, run, silent, removeTrack, Act.perform_bind, hfind, deselect]

theorem after_removeClip (hfind : tl.findClip? id = some c) (w : Surroundings) :
    tl.after w (.removeClip id)
      = (if tl.selectedClip.same id then tl.select .none else tl).dropClip id := by
  simp [after, run, silent, removeClip, Act.perform_bind, hfind, dropClip]

theorem after_removeClipsOf (resourceId : Value) (w : Surroundings) :
    tl.after w (.removeClipsOf resourceId)
      = (tl.deselect (tl.clips.filter (shows resourceId))).dropShowing resourceId := by
  rw [dropShowing, tracks_deselect]
  simp [after, run, removeClipsOf, Act.perform_bind, deselect]

/-! ## Section 2: What goes and what stays -/

/-- An operation that takes clips out: whether the selection goes, the clips that go and those that
stay. -/
inductive Removal (tl : Timeline) : Command → Bool → List Clip → List Clip → Prop where
  | track {id : Value} {t : Track} (hfind : tl.findTrack? id = some t) :
      Removal tl (.removeTrack id) (t.clips.any fun c => tl.selectedClip.same c.id) t.clips
        ((eraseFirst (isTrack id) tl.tracks).flatMap Track.clips)
  | clip {id : Value} {c : Clip} (hfind : tl.findClip? id = some c) (s : Place tl id c) :
      Removal tl (.removeClip id) (tl.selectedClip.same id) [c] (s.front ++ s.back)
  | showing (resourceId : Value) :
      Removal tl (.removeClipsOf resourceId)
        ((tl.clips.filter (shows resourceId)).any fun c => tl.selectedClip.same c.id)
        (tl.clips.filter (shows resourceId)) (tl.clips.filter fun c => !shows resourceId c)

namespace Removal

variable {cleared : Bool} {gone kept : List Clip}

theorem removes (h : Removal tl command cleared gone kept) : command.removes = true := by
  cases h <;> rfl

/-- Each clip either goes or stays. -/
theorem perm (h : Removal tl command cleared gone kept) : tl.clips.Perm (gone ++ kept) := by
  cases h with
  | track hfind =>
    obtain ⟨ht, above, below, htracks, habove⟩ := List.find?_eq_some_iff_append.mp hfind
    rw [clips, htracks, eraseFirst_append (fun u hu => by simpa using habove u hu) ht]
    simp only [List.flatMap_append, List.flatMap_cons]
    rw [← List.append_assoc, ← List.append_assoc]
    exact List.perm_append_comm.append_right _
  | clip _ s =>
    rw [s.timeline_clips]
    exact List.perm_middle
  | showing resourceId => exact (List.filter_append_perm _ _).symm

/-- The clips that stay are left, and either the selection or none. -/
theorem after_leaves (h : Removal tl command cleared gone kept) (w : Surroundings) :
    (tl.after w command).clips = kept
      ∧ (tl.after w command).selectedClip = (if cleared then .none else tl.selectedClip)
      ∧ (tl.after w command).selectedAnimation
        = if cleared then .none else tl.selectedAnimation := by
  cases h with
  | track hfind =>
    rw [after_removeTrack hfind]
    refine ⟨rfl, ?_⟩
    unfold deselect
    split <;> exact ⟨rfl, rfl⟩
  | @clip id _ hfind s =>
    rw [after_removeClip hfind]
    have hclips : (tl.dropClip id).clips = s.front ++ s.back := by
      rw [dropClip, s.changeTrackOf, s.clips_eq, eraseFirst_append s.before_other s.isClip, clips,
        List.flatMap_append, List.flatMap_cons]
      simp [Place.front, Place.back]
    split
    · exact ⟨hclips, rfl, rfl⟩
    · exact ⟨hclips, rfl, rfl⟩
  | showing resourceId =>
    rw [after_removeClipsOf]
    refine ⟨?_, ?_⟩
    · rw [dropShowing, tracks_deselect, clips, clips, List.flatMap_map, List.filter_flatMap]
    · unfold deselect
      split <;> exact ⟨rfl, rfl⟩

end Removal

/-- An operation that takes clips out finds some, or it changes nothing. -/
theorem after_eq_or_removal (h : command.removes = true) (w : Surroundings) :
    tl.after w command = tl ∨ ∃ cleared gone kept, Removal tl command cleared gone kept := by
  cases command with
  | removeTrack id =>
    cases hfind : tl.findTrack? id with
    | none =>
      refine Or.inl ?_
      simp [after, run, silent, removeTrack, Act.perform_bind, hfind]
    | some t => exact Or.inr ⟨_, _, _, .track hfind⟩
  | removeClip id =>
    cases hfind : tl.findClip? id with
    | none =>
      refine Or.inl ?_
      simp [after, run, silent, removeClip, Act.perform_bind, hfind]
    | some c =>
      obtain ⟨s⟩ := exists_place hfind
      exact Or.inr ⟨_, _, _, .clip hfind s⟩
  | removeClipsOf resourceId => exact Or.inr ⟨_, _, _, .showing resourceId⟩
  | _ => cases h

end Timeline

end Overlay
