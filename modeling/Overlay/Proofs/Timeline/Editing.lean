import Overlay.Proofs.Timeline.Clips
import Overlay.Proofs.Timeline.Effects
import Overlay.Proofs.Timeline.Updates

/-!
# Editing keeps timelines sound

Every operation on a timeline leaves a sound timeline sound, also where it stops with a fault, as
long as it is given texts as ids, times as times and sound segments.

## Main definitions
- `Timeline.Command.Admissible`: operations that are given such data

## Main statements
- `Timeline.NewClip.sound`, `Timeline.Revision.sound`: new and changed clips
- `Timeline.Outcome.sound`, `Timeline.run_keeps`: all operations
-/

namespace Overlay.Timeline

open Overlay.Number Overlay.Literal

attribute [local irreducible] twoTo tenTo Double.unitsInOne

variable {tl tl' : Timeline}

/-! ## Section 1: New clips -/

/-- The length of a new clip. -/
theorem isTime_of_clipDuration {resource duration v : Value} (hduration : isTime duration = true)
    (hown : duration = .none → ∀ own, resource.look "durationMs" .none = .ok own → isTime own = true)
    (h : clipDuration resource duration = .ok v) : isTime v = true := by
  unfold clipDuration at h
  split at h
  · obtain ⟨own, hlook, h⟩ := bind_eq_ok.mp h
    rw [← Except.ok.inj h]
    split
    · exact hown rfl own hlook
    · decide +kernel
  · rw [← Except.ok.inj h]
    exact hduration

theorem NewClip.sound {resource trackId time id duration : Value} {c : Clip}
    (h : NewClip tl resource trackId time id duration c) (hid : id = .none ∨ ∃ s, id = .text s)
    (htime : isTime time = true) (hduration : isTime duration = true)
    (hown : duration = .none → ∀ own, resource.look "durationMs" .none = .ok own →
      isTime own = true) : c.Sound where
  id := h.taken.exists_text hid
  start := isLength_of_atLeastZero htime h.start
  duration := isLength_of_requireNonNegative (isTime_of_clipDuration hduration hown h.length) h.nonneg
  animations := ⟨[], h.animations, by simp⟩

/-! ## Section 2: Changed clips -/

/-- Changes to a clip whose times are times and whose animations, if there are any, are sound. -/
structure Update (updates : Fields) : Prop where
  distinct : Fields.Distinct updates
  start : isTime (Fields.get updates "start_time") = true
  duration : isTime (Fields.get updates "duration") = true
  animations : ∀ items, Fields.get? updates "animations" = some (.list items) →
    ∀ a ∈ items, Segment.Sound a

/-- Changes that pass the rules are fields that the clip may be given. -/
theorem Revision.admits {id : Value} {updates values : Fields} {old : Clip}
    (h : Revision tl id (.dict updates) old values) (hu : Update updates) (hold : old.Sound)
    {e : Value × Value} (he : e ∈ values) : old.Admits e.1 e.2 := by
  obtain ⟨key, v⟩ := e
  obtain ⟨asked, hasked, hadjusted⟩ := exists_adjusted h.values
  obtain rfl := Except.ok.inj hasked
  have hget : ∀ name, key = .text name → Fields.get? values name = some v := by
    rintro name rfl
    exact Fields.get?_of_mem (hadjusted.distinct hu.distinct) he
  refine ⟨fun hkey => ?_, fun hkey => ?_, fun hkey => ?_, fun hkey => ?_⟩
  · obtain ⟨s, hs⟩ := hold.id
    have hv := hget _ hkey
    rw [hadjusted.get?_eq _ (by decide)] at hv
    have hfield : old.toValue.field "id" = .ok old.id := rfl
    rw [hs] at hfield ⊢
    exact eq_text_of_checkFixed h.fixed (by decide) hfield hv
  · obtain ⟨t, ht, hv⟩ := hadjusted.start v (hget _ hkey)
    have htime := hu.start
    rw [Fields.get_of_get? ht] at htime
    exact isLength_of_atLeastZero htime hv
  · have hv := hget _ hkey
    have htime := hu.duration
    rw [Fields.get, ← hadjusted.get?_eq _ (by decide), hv] at htime
    exact isLength_of_requireNonNegative htime (hadjusted.duration v hv)
  · -- what is the same as a list is one
    have hv := hget _ hkey
    rw [hadjusted.get?_eq _ (by decide)] at hv
    obtain ⟨given, hgiven, hsame⟩ := same_of_checkFixed h.fixed (by decide) hv
    obtain ⟨items, hlist, -⟩ := hold.animations
    obtain rfl := Except.ok.inj ((rfl : old.toValue.field "animations" = .ok _).symm.trans hgiven)
    rw [hlist] at hsame
    obtain ⟨items', rfl⟩ := Value.exists_list_of_same hsame
    exact ⟨items', rfl, hu.animations items' hv⟩

theorem Revision.sound {id : Value} {updates values : Fields} {old : Clip}
    (h : Revision tl id (.dict updates) old values) (hu : Update updates) (hold : old.Sound) :
    (old.merge values).Sound ∧ (old.merge values).label = old.label := by
  obtain ⟨hsound, hsame⟩ := hold.merge fun e he => h.admits hu hold he
  exact ⟨hsound, congrArg identifier hsame⟩

theorem Sound.of_findClip? (h : tl.Sound) {id : Value} {c : Clip} (hfind : tl.findClip? id = some c) :
    c.Sound :=
  h.clips c (List.mem_of_find?_eq_some hfind)

theorem Revision.sound_changeClip {id : Value} {updates values : Fields} {old : Clip}
    (h : Revision tl id (.dict updates) old values) (hu : Update updates) (htl : tl.Sound) :
    (tl.changeClip id fun _ => old.merge values).Sound := by
  obtain ⟨hsound, hlabel⟩ := h.sound hu (htl.of_findClip? h.found)
  exact htl.changeClip h.found hsound hlabel

/-! ## Section 3: Animations -/

/-- A clip may be given sound animations. -/
theorem Sound.animate (h : tl.Sound) {clipId animations : Value} {c : Clip}
    (hfind : tl.findClip? clipId = some c) (hsound : Segment.AreSound animations) :
    (tl.animate clipId animations).Sound := by
  have hc := h.of_findClip? hfind
  refine h.changeClip hfind ?_ rfl
  exact ⟨hc.id, hc.start, hc.duration, hsound⟩

/-! ## Section 4: All operations -/

/-- An operation that is given texts as ids of new clips, times as times, and sound segments. -/
def Command.Admissible : Command → Prop
  | .addClip resource _ time id duration =>
    (id = .none ∨ ∃ s, id = .text s) ∧ isTime time = true ∧ isTime duration = true
      ∧ (duration = .none → ∀ own, resource.look "durationMs" .none = .ok own → isTime own = true)
  | .updateClip _ updates => ∃ fs, updates = .dict fs ∧ Update fs
  | .addAnimation _ animation => Segment.Sound animation
  | .insertAnimation _ _ animation => Segment.Sound animation
  | .updateAnimation _ _ updates => ∃ fs, updates = .dict fs ∧ Segment.Update fs
  | _ => True

/-- What an admissible operation makes of sound animations is sound. -/
theorem Animated.sound {command : Command} {c : Clip} {animations : Value}
    (h : Animated command c animations) (hc : command.Admissible)
    (hsound : Segment.AreSound c.animations) : Segment.AreSound animations := by
  obtain ⟨items, hlist, hall⟩ := hsound
  refine h.exists_forall hlist hall ?given ?changed
  case given =>
    intro a ha
    cases command <;> cases ha <;> exact hc
  case changed =>
    rintro clipId id updates i old new rfl hplace hcheck hold hnew
    obtain ⟨fs, rfl, hu⟩ := hc
    obtain rfl := Except.ok.inj hnew
    -- what was changed is one of the animations, and so a sound mapping
    obtain ⟨gs, hgs, hsound⟩ := hall _ (getD_mem (animationPlace_lt hplace) .none)
    rw [hgs] at hold
    obtain rfl := Except.ok.inj hold
    exact ⟨_, rfl, hsound.merge hu hcheck⟩

/-- Whatever an admissible operation comes to, a sound timeline stays sound. -/
theorem Outcome.sound {command : Command} {r : Result Value} (h : Outcome tl command r tl')
    (hc : command.Admissible) (htl : tl.Sound) : tl'.Sound := by
  cases h.rowChange with
  | drop hsub => exact htl.of_subperm hsub
  | insert hnew hperm =>
    obtain ⟨hid, htime, hduration, hown⟩ := hc
    exact htl.of_insert (hnew.sound hid htime hduration hown) (label_ne_of_checkClipId hnew.free) hperm
  | revise hrevision hperm =>
    obtain ⟨fs, rfl, hu⟩ := hc
    exact (hrevision.sound_changeClip hu htl).of_subperm hperm.subperm
  | animate hfind hanimated hclips =>
    have hsound := hanimated.sound hc (htl.of_findClip? hfind).animations
    exact (htl.animate hfind hsound).of_clips_eq hclips

/-- Every operation keeps timelines sound, also where it stops with a fault. -/
theorem run_keeps {command : Command} (h : command.Admissible) : Act.Keeps Sound (run command) :=
  fun tl htl => (run_outcome tl command).mono fun _ _ ho => ho.sound h htl

theorem addAnimation_keeps (clipId : Value) {animation : Value} (ha : Segment.Sound animation) :
    Act.Keeps Sound (addAnimation clipId animation) :=
  fun tl htl => (addAnimation_outcome tl clipId animation).mono fun _ _ ho => ho.sound ha htl

theorem insertAnimation_keeps (clipId index : Value) {animation : Value}
    (ha : Segment.Sound animation) : Act.Keeps Sound (insertAnimation clipId index animation) :=
  fun tl htl => (insertAnimation_outcome tl clipId index animation).mono fun _ _ ho => ho.sound ha htl

theorem removeClipsOf_keeps (resourceId : Value) : Act.Keeps Sound (removeClipsOf resourceId) :=
  fun tl htl => (removeClipsOf_outcome tl resourceId).mono fun _ _ ho => ho.sound trivial htl

end Overlay.Timeline
