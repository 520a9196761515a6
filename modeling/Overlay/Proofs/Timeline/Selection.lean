import Overlay.Proofs.Timeline.Ownership
import Overlay.Proofs.Timeline.Refusals
import Overlay.Proofs.Timeline.Removals

/-!
# The selected clip

As long as only clips are selected that are there, the selected clip is one of the timeline.  This
rests on the ids of clips: where they are texts that differ, a removal tells by them whether the
selected clip is among those that go.

## Main definitions
- `Timeline.HoldsSelected`: nothing is selected, or a clip of the timeline
- `Timeline.Command.ChoosesClip`: only clips are selected that are there

## Main statements
- `Timeline.Removal.cleared_iff`: the selection goes with the selected clip
- `Timeline.Outcome.exists_id_eq`: clips keep their ids
- `Timeline.selectedClip_of_steps`: rows of operations
-/

namespace Overlay.Timeline

variable {tl tl' : Timeline} {command : Command} {r : Result Value} {c : Clip}

/-- Nothing is selected, or a clip of the timeline. -/
def HoldsSelected (tl : Timeline) : Prop :=
  tl.selectedClip = .none ∨ ∃ c ∈ tl.clips, c.id = tl.selectedClip

/-! ## Section 1: Clips that are taken out -/

theorem same_id_iff (htl : tl.Identified) (hc : c ∈ tl.clips) {v : Value} :
    v.same c.id = true ↔ c.id = v := by
  obtain ⟨s, hs⟩ := htl.exists_id hc
  rw [hs, Value.same_text, eq_comm]

theorem any_same_id_iff (htl : tl.Identified) {l : List Clip} (hsub : ∀ c ∈ l, c ∈ tl.clips)
    {v : Value} : (l.any fun c => v.same c.id) = true ↔ ∃ c ∈ l, c.id = v := by
  rw [List.any_eq_true]
  exact exists_congr fun c => and_congr_right fun hc => same_id_iff htl (hsub c hc)

namespace Removal

variable {cleared : Bool} {gone kept : List Clip}

/-- The selection goes with the selected clip. -/
theorem cleared_iff (h : Removal tl command cleared gone kept) (htl : tl.Identified) :
    cleared = true ↔ ∃ c ∈ gone, c.id = tl.selectedClip := by
  have hgone : ∀ c ∈ gone, c ∈ tl.clips := fun c hc =>
    h.perm.mem_iff.mpr (List.mem_append_left kept hc)
  cases h with
  | track => exact any_same_id_iff htl hgone
  | @clip id c hfind s =>
    have hid : c.id = id := (htl.findClip?_eq_some_iff.mp hfind).2
    rw [← hid, same_id_iff htl (hgone c List.mem_cons_self)]
    simp
  | showing => exact any_same_id_iff htl hgone

/-- No clip that stays has the id of one that goes. -/
theorem id_ne (h : Removal tl command cleared gone kept) (htl : tl.Identified) {d : Clip}
    (hc : c ∈ gone) (hd : d ∈ kept) : d.id ≠ c.id := by
  have hids : ((gone ++ kept).map Clip.id).Nodup := (h.perm.map Clip.id).nodup_iff.mp htl.clipIds
  rw [List.map_append, List.nodup_append] at hids
  exact fun heq => hids.2.2 c.id (List.mem_map_of_mem hc) d.id (List.mem_map_of_mem hd) heq.symm

end Removal

/-! ## Section 2: Clips that stay -/

/-- Clips are still there under their ids when one of them is changed that keeps its id. -/
theorem exists_id_eq_changeClip {id : Value} {d : Clip} (hfind : tl.findClip? id = some d)
    {f : Clip → Clip} (hf : (f d).id = d.id) (hmem : c ∈ tl.clips) :
    ∃ e ∈ (tl.changeClip id f).clips, e.id = c.id := by
  obtain ⟨s⟩ := exists_place hfind
  rw [s.clips_changeClip]
  rw [s.timeline_clips, List.mem_append, List.mem_cons] at hmem
  rcases hmem with hmem | rfl | hmem
  · exact ⟨c, List.mem_append_left _ hmem, rfl⟩
  · exact ⟨_, List.mem_append_right _ List.mem_cons_self, hf⟩
  · exact ⟨c, List.mem_append_right _ (List.mem_cons_of_mem _ hmem), rfl⟩

theorem Revision.exists_id_eq {id updates : Value} {values : Fields} {old : Clip}
    (h : Revision tl id updates old values) (hc : Command.Named (.updateClip id updates))
    (htl : tl.Identified) (hmem : c ∈ tl.clips) :
    ∃ d ∈ (tl.changeClip id fun _ => old.merge values).clips, d.id = c.id := by
  obtain ⟨t, ht, howned⟩ := htl.exists_ownedBy (List.mem_of_find?_eq_some h.found)
  exact exists_id_eq_changeClip h.found
    (h.ids_eq hc howned.id (howned.trackId_eq ▸ (htl.tracks.owns t ht).id)).1 hmem

theorem Revision.exists_id_eq_resort {id updates : Value} {values : Fields} {old : Clip}
    (h : Revision tl id updates old values) (hc : Command.Named (.updateClip id updates))
    (htl : tl.Identified) (hmem : c ∈ tl.clips) :
    ∃ d ∈ (tl.resort id (old.merge values)).clips, d.id = c.id := by
  obtain ⟨d, hd, hid⟩ := h.exists_id_eq hc htl hmem
  exact ⟨d, (clips_resort_perm h.found _).mem_iff.mpr hd, hid⟩

theorem mem_place {resource trackId time id duration : Value} {d : Clip}
    (h : NewClip tl resource trackId time id duration d) (hmem : c ∈ tl.clips) :
    c ∈ (tl.place trackId d).clips :=
  (clips_place_perm h.track_isSome d).mem_iff.mpr (List.mem_cons_of_mem d hmem)

theorem exists_id_eq_animate {clipId : Value} {d : Clip} (hfind : tl.findClip? clipId = some d)
    (animations : Value) (hmem : c ∈ tl.clips) :
    ∃ e ∈ (tl.animate clipId animations).clips, e.id = c.id :=
  exists_id_eq_changeClip hfind rfl hmem

/-- An operation that takes no clips out leaves each of them there under its id. -/
theorem Outcome.exists_id_eq (h : Outcome tl command r tl') (hremoves : command.removes = false)
    (hc : command.Named) (htl : tl.Identified) (hmem : c ∈ tl.clips) :
    ∃ d ∈ tl'.clips, d.id = c.id := by
  cases h with
  | refused | idle | setCurrentTime | setSelectedClip | setSelectedAnimation => exact ⟨c, hmem, rfl⟩
  | halfDone h =>
    cases h with
    | addClip h => exact ⟨c, mem_place h hmem, rfl⟩
    | updateClip h => exact h.exists_id_eq_resort hc htl hmem
    | moveAnimation hfind => exact exists_id_eq_animate hfind _ hmem
  | addTrack => exact ⟨c, by simpa [clips] using hmem, rfl⟩
  | editTrack hedit =>
    exact ⟨c, clips_changeTrack_eq (clips_of_trackEdit? hedit) tl _ ▸ hmem, rfl⟩
  | addClip h => exact ⟨c, mem_place h hmem, rfl⟩
  | updateClip h => exact h.exists_id_eq hc htl hmem
  | moveClip h => exact h.exists_id_eq_resort hc htl hmem
  | removeAnimation hfind =>
    rw [clips_deselectAnimation]
    exact exists_id_eq_animate hfind _ hmem
  | addAnimation hfind | insertAnimation hfind | updateAnimation hfind | moveAnimation hfind =>
    exact exists_id_eq_animate hfind _ hmem
  | removeTrack | removeClip | removeClipsOf => cases hremoves

/-- An operation that takes no clips out leaves the selected clip as it is, or selects one. -/
theorem Outcome.selectedClip_eq (h : Outcome tl command r tl') (hremoves : command.removes = false)
    (hselects : ∀ id, command ≠ .setSelectedClip id) : tl'.selectedClip = tl.selectedClip := by
  cases h with
  | halfDone h => rw [h.eq_with_tracks]
  | setSelectedClip id => exact absurd rfl (hselects id)
  | removeAnimation =>
    unfold deselectAnimation
    split <;> rfl
  | removeTrack | removeClip | removeClipsOf => cases hremoves
  | _ => rfl

/-! ## Section 3: Rows of operations -/

/-- Only clips are selected that are there. -/
def Command.ChoosesClip (tl : Timeline) : Command → Prop
  | .setSelectedClip id => id = .none ∨ (tl.findClip? id).isSome
  | _ => True

/-- What an operation does to the selection: it changes the selected clip if and only if that goes,
and then nothing is selected any more. -/
structure KeepsSelected (tl tl' : Timeline) : Prop where
  ne_iff : tl'.selectedClip ≠ tl.selectedClip
    ↔ (∃ c ∈ tl.clips, c.id = tl.selectedClip) ∧ ∀ c ∈ tl'.clips, c.id ≠ tl.selectedClip
  cleared : tl'.selectedClip ≠ tl.selectedClip →
    tl'.selectedClip = .none ∧ tl'.selectedAnimation = .none

theorem Removal.keepsSelected {cleared : Bool} {gone kept : List Clip}
    (h : Removal tl command cleared gone kept) (htl : tl.Identified) (w : Surroundings) :
    KeepsSelected tl (tl.after w command) := by
  obtain ⟨hclips, hclip, hanimation⟩ := h.after_leaves w
  cases cleared with
  | true =>
    obtain ⟨c, hc, hid⟩ := (h.cleared_iff htl).mp rfl
    have hmem : c ∈ tl.clips := h.perm.mem_iff.mpr (List.mem_append_left kept hc)
    obtain ⟨s, hs⟩ := htl.exists_id hmem
    refine ⟨iff_of_true ?_ ⟨⟨c, hmem, hid⟩, fun d hd => ?_⟩, fun _ => ⟨hclip, hanimation⟩⟩
    · rw [hclip, ← hid, hs]
      exact nofun
    · rw [hclips] at hd
      exact hid ▸ h.id_ne htl hc hd
  | false =>
    refine ⟨iff_of_false (not_not.mpr hclip) ?_, fun hne => absurd hclip hne⟩
    rintro ⟨⟨c, hc, hid⟩, hgone⟩
    rcases List.mem_append.mp (h.perm.mem_iff.mp hc) with hc | hc
    · cases (h.cleared_iff htl).mpr ⟨c, hc, hid⟩
    · exact hgone c (hclips ▸ hc) hid

/-- Every operation but a selection changes the selected clip only if that goes. -/
theorem keepsSelected_after (hc : command.Named) (hselects : ∀ id, command ≠ .setSelectedClip id)
    (htl : tl.Identified) (w : Surroundings) : KeepsSelected tl (tl.after w command) := by
  have hself : ∀ {tl' : Timeline}, tl'.selectedClip = tl.selectedClip →
      (∀ c ∈ tl.clips, ∃ d ∈ tl'.clips, d.id = c.id) → KeepsSelected tl tl' := by
    intro tl' heq hkept
    refine ⟨iff_of_false (not_not.mpr heq) ?_, fun hne => absurd heq hne⟩
    rintro ⟨⟨c, hmem, hid⟩, hgone⟩
    obtain ⟨d, hd, hsame⟩ := hkept c hmem
    exact hgone d hd (hsame.trans hid)
  cases hremoves : command.removes with
  | true =>
    rcases after_eq_or_removal hremoves w with heq | ⟨cleared, gone, kept, h⟩
    · rw [heq]
      exact hself rfl fun c hmem => ⟨c, hmem, rfl⟩
    · exact h.keepsSelected htl w
  | false =>
    have h := run_outcome tl command w
    exact hself (h.selectedClip_eq hremoves hselects) fun c hmem =>
      h.exists_id_eq hremoves hc htl hmem

theorem holdsSelected_after (hc : command.Named) (hchooses : command.ChoosesClip tl)
    (htl : tl.Identified) (hholds : tl.HoldsSelected) (w : Surroundings) :
    (tl.after w command).HoldsSelected := by
  by_cases hselects : ∃ id, command = .setSelectedClip id
  · obtain ⟨id, rfl⟩ := hselects
    rcases hchooses with rfl | hsome
    · exact Or.inl rfl
    · obtain ⟨c, hfind⟩ := Option.isSome_iff_exists.mp hsome
      exact Or.inr ⟨c, htl.findClip?_eq_some_iff.mp hfind⟩
  · have h := keepsSelected_after hc (fun id heq => hselects ⟨id, heq⟩) htl w
    by_cases heq : (tl.after w command).selectedClip = tl.selectedClip
    · refine hholds.imp heq.trans fun hmem => ?_
      by_contra hgone
      exact h.ne_iff.mpr ⟨hmem, fun c hc hid => hgone ⟨c, hc, hid.trans heq.symm⟩⟩ heq
    · exact Or.inl (h.cleared heq).1

/-- Exactly one clip has the id of a clip that is there. -/
theorem countP_isClip_eq_one (htl : tl.Identified) (hc : c ∈ tl.clips) :
    tl.clips.countP (isClip c.id) = 1 := by
  obtain ⟨front, back, hclips⟩ := List.append_of_mem hc
  have hids := htl.clipIds
  rw [hclips, List.map_append, List.map_cons] at hids
  have hother : ∀ d ∈ front ++ back, isClip c.id d = false := by
    intro d hd
    have hne : d.id ≠ c.id := by
      have hmem : d.id ∈ front.map Clip.id ++ back.map Clip.id := by
        rw [← List.map_append]
        exact List.mem_map_of_mem hd
      exact fun heq => (List.nodup_middle.mp hids).notMem (heq ▸ hmem)
    obtain ⟨s, hs⟩ := htl.exists_id hc
    rw [isClip, Bool.eq_false_iff, hs, Ne, Value.same_text, ← hs]
    exact hne
  have hself : isClip c.id c = true := (same_id_iff htl hc).mpr rfl
  have hzero : ∀ l : List Clip, (∀ d ∈ l, d ∈ front ++ back) → l.countP (isClip c.id) = 0 :=
    fun l hl => List.countP_eq_zero.mpr fun d hd => by simp [hother d (hl d hd)]
  rw [hclips, List.countP_append, List.countP_cons_of_pos hself,
    hzero front fun d hd => List.mem_append_left back hd,
    hzero back fun d hd => List.mem_append_right front hd]

/-- After any row of operations in which only clips are selected that are there, with success or
without, nothing is selected or exactly one clip of the timeline; and apart from selections, an
operation changes the selected clip if and only if it takes this out, and nothing is selected then. -/
theorem selectedClip_of_steps {duration : Value}
    (h : Relation.ReflTransGen (StepBy fun tl command => command.Named ∧ command.ChoosesClip tl)
      (ofDuration duration) tl) :
    (tl.selectedClip = .none ∨ tl.clips.countP (isClip tl.selectedClip) = 1)
      ∧ ∀ command w, command.Named → (∀ id, command ≠ .setSelectedClip id) →
        KeepsSelected tl (tl.after w command) := by
  have hinvariant : tl.Identified ∧ tl.HoldsSelected :=
    @stepsBy_preserve _ _ _ (fun tl => tl.Identified ∧ tl.HoldsSelected) (fun tl command w hc htl =>
      ⟨(run_outcome tl command w).identified hc.1 htl.1, holdsSelected_after hc.1 hc.2 htl.1 htl.2 w⟩)
      h ⟨identified_ofDuration duration, Or.inl rfl⟩
  obtain ⟨hidentified, hholds⟩ := hinvariant
  refine ⟨hholds.imp_right ?_, fun command w hc hselects =>
    keepsSelected_after hc hselects hidentified w⟩
  rintro ⟨c, hc, hid⟩
  exact hid ▸ countP_isClip_eq_one hidentified hc

/-- Two tracks with a clip on each; the first clip is selected while the second one goes and comes
again, which then is selected. -/
def sampleSelections : List Command :=
  let resource := Value.dict [(.text "id", .text "r"), (.text "type", .text "text")]
  [.addTrack .none (.text "t") (.bool true) (.bool false),
    .addTrack .none (.text "u") (.bool true) (.bool false),
    .addClip resource (.text "t") (.int 0) (.text "a") .none,
    .addClip resource (.text "u") (.int 0) (.text "b") .none,
    .setSelectedClip (.text "a"), .removeClip (.text "b"),
    .addClip resource (.text "u") (.int 0) (.text "b") .none, .setSelectedClip (.text "b")]

def sampleSelected : Timeline :=
  sampleSelections.foldl (after · default) empty

/-- The selected clip of the sample is its second clip, and the selection goes with the track. -/
theorem selectedClip_of_steps_sample :
    sampleSelected.clips.map (fun c => c.id.shown) = ["a", "b"]
      ∧ sampleSelected.selectedClip.shown = "b"
      ∧ (sampleSelected.after default (.removeTrack (.text "t"))).selectedClip.shown = "b"
      ∧ (sampleSelected.after default (.removeTrack (.text "u"))).selectedClip.shown = "None"
      ∧ (sampleSelected.selectedClip = .none
        ∨ sampleSelected.clips.countP (isClip sampleSelected.selectedClip) = 1)
      ∧ ∀ command w, command.Named → (∀ id, command ≠ .setSelectedClip id) →
        KeepsSelected sampleSelected (sampleSelected.after w command) := by
  refine ⟨by decide +kernel, by decide +kernel, by decide +kernel, by decide +kernel,
    selectedClip_of_steps (stepsBy_foldl ?_)⟩
  simp [sampleSelections, Allowed, Command.Named, Command.ChoosesClip]
  -- both clips are there when they are selected
  exact ⟨by decide +kernel, by decide +kernel⟩

end Overlay.Timeline
