import Overlay.Proofs.Project.Loading

/-!
# Lengths of loaded projects

Times and lengths come into a project in five ways.  Those of clips and segments are checked, so that
none of them lies below zero.  The length of a timeline is not checked: it lies below zero if the
description says so, as long as there are no clips.  Nor is the length of a resource.

## Main definitions
- `Resource.isBelowZero`: lengths that are taken for a resource and lie below zero
- `Project.HasLengths`: projects in which no length lies below zero
- `Project.GivesLengths`: descriptions that give no such length

## Main statements
- `Resource.isNonNegative_of_duration`: the length that a resource is given
- `Timeline.LoadedFrom.isNonNegative_duration_iff`: the length of a timeline
- `Project.hasLengths_of_ofData`: exactly those descriptions lead to those projects
-/

namespace Overlay

/-! ## Section 1: Resources -/

namespace Resource

/-- Whether a length that is given for a resource is taken and lies below zero. -/
def isBelowZero (given : Value) : Bool :=
  match given.toDouble with
  | .ok x => x.isFinite && !x.isNonNegative
  | .error _ => false

/-- A resource has a length that does not lie below zero, unless the given one does. -/
theorem isNonNegative_of_duration {given length : Value} {fallback : Int} (hfallback : 0 ≤ fallback)
    (h : duration given fallback = .ok length) : length.isNonNegative = !isBelowZero given := by
  have hdefault : (Value.int fallback).isNonNegative = true := by
    rwa [Value.isNonNegative_int, decide_eq_true_eq]
  unfold duration at h
  unfold isBelowZero
  split at h
  · rw [← Except.ok.inj h, hdefault]
    rfl
  · split at h
    · cases h
    · next hfault =>
      rw [← Except.ok.inj h, hdefault, hfault]
      rfl
    · next x hx =>
      rw [← Except.ok.inj h, hx]
      dsimp only
      by_cases hfinite : x.isFinite = true
      · rw [hfinite, Bool.true_and, Bool.not_not, Bool.not_true, if_neg Bool.false_ne_true]
        split
        · next hwhole =>
          rw [Value.isNonNegative_int, Bool.eq_iff_iff, decide_eq_true_eq]
          exact Double.truncate_nonneg_iff hwhole
        · exact Value.isNonNegative_float x
      · rw [Bool.eq_false_iff.mpr hfinite, Bool.not_false, if_pos rfl]
        exact hdefault

theorem LoadedFrom.isNonNegative_durationMs_iff {entry : Value} {fs : Fields} (h : LoadedFrom entry fs) :
    (Fields.get fs "durationMs").isNonNegative = true
      ↔ ∀ given, givenLength? entry = some given → isBelowZero given = false := by
  obtain ⟨given, hgiven, hduration⟩ := h.length
  rw [isNonNegative_of_duration (by decide) hduration, Bool.not_eq_true', hgiven]
  exact ⟨fun hlength _ heq => Option.some.inj heq ▸ hlength, fun hall => hall given rfl⟩

end Resource

/-! ## Section 2: Clips -/

/-- No length of a segment lies below zero. -/
structure Segment.HasLengths (segment : Value) : Prop where
  length : (segment.get "duration").isNonNegative = true
  delay : segment.get "delay" ≠ .none → (segment.get "delay").isNonNegative = true

theorem Segment.LoadedFrom.hasLengths {entry segment : Value} (h : LoadedFrom entry segment) :
    HasLengths segment := by
  obtain ⟨ms, -, hpos, hlength⟩ := h.length
  refine ⟨?_, fun hne => ?_⟩
  · rwa [hlength, Value.isNonNegative_int, decide_eq_true_eq]
  · rcases h.delay with ⟨-, hnone⟩ | ⟨i, -, hpos, hdelay⟩
    · exact absurd hnone hne
    · rwa [hdelay, Value.isNonNegative_int, decide_eq_true_eq]

/-- No length of a clip or of a segment of it lies below zero. -/
structure Clip.HasLengths (c : Clip) : Prop where
  length : c.duration.isNonNegative = true
  segments : ∃ segments, c.animations = .list segments ∧ ∀ s ∈ segments, Segment.HasLengths s

theorem Clip.LoadedFrom.hasLengths {store : Store} {trackId entry : Value} {c : Clip}
    (h : LoadedFrom store trackId entry c) : c.HasLengths := by
  obtain ⟨segments, hlist, hsegments⟩ := h.animations
  refine ⟨h.length, segments, hlist, fun s hs => ?_⟩
  obtain ⟨_, -, hloaded⟩ := exists_mem_of_forall₂ hsegments s hs
  exact hloaded.hasLengths

/-! ## Section 3: Timelines -/

namespace Timeline

/-- A timeline is given a length that does not lie below zero, or it has clips. -/
def GivesLength (description : Value) : Prop :=
  (∀ ms, givenLength? description = some ms → 0 ≤ ms) ∨ clipEntries description ≠ []

theorem LoadedFrom.isNonNegative_duration_iff {store : Store} {description : Value} {tl : Timeline}
    (h : LoadedFrom store description tl) :
    tl.duration.isNonNegative = true ↔ GivesLength description := by
  obtain ⟨ms, hms, hgrows⟩ := h.length
  by_cases hentries : clipEntries description = []
  · rw [hgrows.same hentries, Value.isNonNegative_int, decide_eq_true_eq]
    refine ⟨fun hpos => Or.inl fun i hi => Option.some.inj (hms.symm.trans hi) ▸ hpos, fun hgives => ?_⟩
    rcases hgives with hall | hclips
    · exact hall ms hms
    · exact absurd hentries hclips
  · exact ⟨fun _ => Or.inr hentries, fun _ => hgrows.nonneg hentries⟩

theorem LoadedFrom.clip_hasLengths {store : Store} {description : Value} {tl : Timeline}
    (h : LoadedFrom store description tl) {t : Track} (ht : t ∈ tl.tracks) {c : Clip}
    (hc : c ∈ t.clips) : c.HasLengths := by
  obtain ⟨_, -, hloaded⟩ := exists_mem_of_forall₂ h.tracks t ht
  obtain ⟨row, hrow, hsorts⟩ := hloaded.clips
  obtain ⟨_, -, hclip⟩ := exists_mem_of_forall₂ hrow c (hsorts.perm.subset hc)
  exact hclip.hasLengths

/-- Where the length does not lie below zero, the position at the start lies inside. -/
theorem LoadedFrom.lessThan_time {store : Store} {description : Value} {tl : Timeline}
    (h : LoadedFrom store description tl) (hlength : tl.duration.isNonNegative = true) :
    tl.duration.lessThan tl.currentTime = .ok false := by
  obtain ⟨n, hn, hpos⟩ := Value.exists_plainNumber? hlength
  rw [h.time, Value.lessThan, Value.toNumber_of_plainNumber? hn, ok_bind]
  exact congrArg Except.ok (Number.not_lt_zero hpos)

end Timeline

/-! ## Section 4: Projects -/

namespace Project

/-- No length of a project lies below zero, and its position lies between zero and the end. -/
structure HasLengths (p : Project) : Prop where
  timeline : p.timeline.duration.isNonNegative = true
  resources : ∀ fs ∈ p.store.resources, (Fields.get fs "durationMs").isNonNegative = true
  clips : ∀ t ∈ p.timeline.tracks, ∀ c ∈ t.clips, c.HasLengths
  start_le : p.timeline.currentTime.isNonNegative = true
  le_end : p.timeline.duration.lessThan p.timeline.currentTime = .ok false

/-- Neither the timeline nor a resource is given a length below zero; a timeline with clips has a length
anyway. -/
structure GivesLengths (data : Value) : Prop where
  timeline : Timeline.GivesLength (data.get "timeline")
  resources : ∀ entry ∈ (data.get "resources").entries, ∀ given,
    Resource.givenLength? entry = some given → Resource.isBelowZero given = false

theorem LoadedFrom.resources_iff {data : Value} {p : Project} (h : LoadedFrom data p) :
    (∀ fs ∈ p.store.resources, (Fields.get fs "durationMs").isNonNegative = true)
      ↔ ∀ entry ∈ (data.get "resources").entries, ∀ given,
        Resource.givenLength? entry = some given → Resource.isBelowZero given = false := by
  constructor
  · intro hall entry hentry
    obtain ⟨fs, hfs, hloaded⟩ := exists_mem_of_forall₂ h.resources.flip entry hentry
    exact hloaded.isNonNegative_durationMs_iff.mp (hall fs hfs)
  · intro hall fs hfs
    obtain ⟨entry, hentry, hloaded⟩ := exists_mem_of_forall₂ h.resources fs hfs
    exact hloaded.isNonNegative_durationMs_iff.mpr (hall entry hentry)

theorem LoadedFrom.hasLengths_iff {data : Value} {p : Project} (h : LoadedFrom data p) :
    p.HasLengths ↔ GivesLengths data := by
  constructor
  · intro hp
    exact ⟨h.timeline.isNonNegative_duration_iff.mp hp.timeline, h.resources_iff.mp hp.resources⟩
  · intro hdata
    have hlength := h.timeline.isNonNegative_duration_iff.mpr hdata.timeline
    refine ⟨hlength, h.resources_iff.mpr hdata.resources, fun t ht c hc => ?_, ?_, ?_⟩
    · exact h.timeline.clip_hasLengths ht hc
    · rw [h.timeline.time, Value.isNonNegative_int]
      rfl
    · exact h.timeline.lessThan_time hlength

variable {σ : Type} {data override : Value} {s : σ} {w : Surroundings} {p : Project}

/-- No length of a clip or a segment of a loaded project lies below zero, and its position is the start.
No length at all does exactly if none of those that are given to the timeline and the resources does. -/
theorem hasLengths_of_ofData (h : ((ofData data override : Act σ Project).perform s w).1 = .ok p) :
    (∀ t ∈ p.timeline.tracks, ∀ c ∈ t.clips, c.HasLengths) ∧ p.timeline.currentTime = .int 0
      ∧ (p.HasLengths ↔ GivesLengths data) := by
  obtain ⟨-, hloaded⟩ := (ofData_ends data override s).answer h
  exact ⟨fun t ht c hc => hloaded.timeline.clip_hasLengths ht hc, hloaded.timeline.time,
    hloaded.hasLengths_iff⟩

/-- A timeline without tracks that is to last five milliseconds less than nothing. -/
def descriptionBelowZero : Value :=
  .mapping [("danmu", .int 1), ("resources", .list []),
    ("timeline", .mapping [("duration", .int (-5))])]

/-- It is loaded. -/
theorem hasLengths_of_ofData_belowZero :
    ∃ p, ((ofData descriptionBelowZero .none : Act Unit Project).perform () default).1 = .ok p
      ∧ p.timeline.duration.whole? = some (-5) ∧ ¬p.HasLengths ∧ ¬GivesLengths descriptionBelowZero := by
  have hlength : (((ofData descriptionBelowZero .none : Act Unit Project).perform
      () default).1.toOption.bind fun p => p.timeline.duration.whole?) = some (-5) := by
    decide +kernel
  obtain ⟨p, hp, hlength⟩ := Option.bind_eq_some_iff.mp hlength
  have hp := toOption_eq_some.mp hp
  have hnot : ¬GivesLengths descriptionBelowZero := by
    intro h
    rcases h.timeline with hall | hclips
    · exact absurd (hall (-5) (by decide +kernel)) (by decide)
    · exact hclips rfl
  exact ⟨p, hp, hlength, mt (hasLengths_of_ofData hp).2.2.mp hnot, hnot⟩

end Project

end Overlay
