import Overlay.Proofs.Timeline.Outcomes
import Overlay.Proofs.Timeline.Times
import Overlay.Proofs.Timeline.Updates
import Mathlib.Data.List.Sort

/-!
# Order and extent

As long as all times are whole numbers, the clips of each track stay in the order of their starts,
the timeline reaches to the end of each clip, and the current position stays inside of it.  The
timeline never becomes shorter.

## Main definitions
- `Timeline.Within`: a timeline of a length whose clips are ordered and lie inside of it
- `Timeline.Command.Whole`: operations that are given whole numbers as times

## Main statements
- `Timeline.Within.exists_extent`: how long a timeline becomes that has to reach the end of a clip
- `Timeline.Outcome.within`: one operation
- `Timeline.exists_within_of_steps`: rows of operations
-/

namespace Overlay

/-! ## Section 1: Clips -/

/-- A whole number that is not negative. -/
def Value.IsSpan (v : Value) : Prop :=
  ∃ i, v.whole? = some i ∧ 0 ≤ i

namespace Clip

/-- The start of a clip as a whole number. -/
def startTime (c : Clip) : Int :=
  c.start.whole?.getD 0

/-- The length of a clip as a whole number. -/
def span (c : Clip) : Int :=
  c.duration.whole?.getD 0

/-- A clip that lies inside of a length: its times are whole numbers, and it starts and ends there. -/
structure Within (length : Int) (c : Clip) : Prop where
  start : c.start.whole? = some c.startTime
  duration : c.duration.whole? = some c.span
  start_nonneg : 0 ≤ c.startTime
  span_nonneg : 0 ≤ c.span
  end_le : c.startTime + c.span ≤ length

variable {c d : Clip} {length length' : Int}

theorem Within.mono (h : c.Within length) (hle : length ≤ length') : c.Within length' :=
  { h with end_le := h.end_le.trans hle }

theorem within_of_isSpan (hstart : c.start.IsSpan) (hduration : c.duration.IsSpan)
    (hend : c.startTime + c.span ≤ length) : c.Within length := by
  obtain ⟨i, hi, hpos⟩ := hstart
  obtain ⟨j, hj, hpos'⟩ := hduration
  have hs : c.startTime = i := by rw [startTime, hi, Option.getD_some]
  have hd : c.span = j := by rw [span, hj, Option.getD_some]
  exact ⟨hs ▸ hi, hd ▸ hj, hs ▸ hpos, hd ▸ hpos', hend⟩

theorem Within.isSpan_start (h : c.Within length) : c.start.IsSpan :=
  ⟨_, h.start, h.start_nonneg⟩

theorem Within.isSpan_duration (h : c.Within length) : c.duration.IsSpan :=
  ⟨_, h.duration, h.span_nonneg⟩

theorem startsNoLater_of_whole (hc : c.start.whole? = some c.startTime)
    (hd : d.start.whole? = some d.startTime) :
    startsNoLater c d = decide (c.startTime ≤ d.startTime) := by
  simp [startsNoLater, Value.number?_of_whole? hc, Value.number?_of_whole? hd, Number.lt_int,
    ← decide_not]

end Clip

/-! ## Section 2: Tracks -/

namespace Track

/-- A track whose clips are ordered by their starts and lie inside of a length. -/
structure Within (length : Int) (t : Track) : Prop where
  ordered : (t.clips.map Clip.startTime).Pairwise (· ≤ ·)
  clips : ∀ c ∈ t.clips, c.Within length

variable {t u : Track} {length length' : Int}

theorem Within.mono (h : t.Within length) (hle : length ≤ length') : t.Within length' :=
  ⟨h.ordered, fun c hc => (h.clips c hc).mono hle⟩

theorem Within.of_sublist (h : t.Within length) (hsub : u.clips.Sublist t.clips) : u.Within length :=
  ⟨h.ordered.sublist (hsub.map _), fun c hc => h.clips c (hsub.subset hc)⟩

/-- Sorting puts clips into the order of their starts. -/
theorem within_sorted (h : ∀ c ∈ t.clips, c.Within length) : t.sorted.Within length := by
  refine ⟨?_, fun c hc => h c ((Timeline.sorted_perm t).subset hc)⟩
  -- on whole numbers the starts are compared as integers are, which makes the order a total one
  have hagree : ∀ c ∈ t.clips, ∀ d ∈ t.clips,
      Clip.startsNoLater c d = decide (c.startTime ≤ d.startTime) :=
    fun c hc d hd => Clip.startsNoLater_of_whole (h c hc).start (h d hd).start
  rw [sorted, List.map_mergeSort (s := fun i j => decide (i ≤ j)) hagree]
  exact List.pairwise_mergeSort' (· ≤ ·) _

end Track

/-! ## Section 3: Timelines -/

namespace Timeline

/-- A timeline of a length: its clips are ordered on their tracks, and they and the current position
lie inside of the length. -/
structure Within (length : Int) (tl : Timeline) : Prop where
  duration : tl.duration.whole? = some length
  position : ∃ i, tl.currentTime.whole? = some i ∧ 0 ≤ i ∧ i ≤ length
  tracks : ∀ t ∈ tl.tracks, t.Within length

variable {tl tl' : Timeline} {length length' : Int} {c : Clip} {id : Value}

theorem within_ofDuration (h : 0 ≤ length) : (ofDuration (.int length)).Within length :=
  ⟨rfl, ⟨0, rfl, le_rfl, h⟩, fun _ ht => nomatch ht⟩

theorem Within.nonneg (h : tl.Within length) : 0 ≤ length := by
  obtain ⟨i, -, hpos, hle⟩ := h.position
  omega

theorem Within.of_findClip? (h : tl.Within length) (hfind : tl.findClip? id = some c) :
    c.Within length := by
  obtain ⟨s⟩ := exists_place hfind
  exact (h.tracks s.track s.track_mem).clips c s.mem

/-- Only the tracks are changed, and they stay as they should be. -/
theorem Within.of_tracks (h : tl.Within length) (hduration : tl'.duration = tl.duration)
    (hposition : tl'.currentTime = tl.currentTime) (htracks : ∀ t ∈ tl'.tracks, t.Within length) :
    tl'.Within length :=
  ⟨hduration ▸ h.duration, hposition ▸ h.position, htracks⟩

/-- One track is changed. -/
theorem Within.updateFirst (h : tl.Within length) {p : Track → Bool} {f : Track → Track}
    (hf : ∀ t ∈ tl.tracks, p t = true → (f t).Within length) :
    ∀ t ∈ updateFirst p f tl.tracks, t.Within length := by
  intro t ht
  rcases mem_updateFirst ht with ht | ⟨u, hu, hp, rfl⟩
  · exact h.tracks t ht
  · exact hf u hu hp

theorem Within.select (h : tl.Within length) (id : Value) : (tl.select id).Within length :=
  h.of_tracks rfl rfl h.tracks

theorem Within.deselect (h : tl.Within length) (gone : List Clip) : (tl.deselect gone).Within length := by
  rcases tl.deselect_cases gone with heq | heq <;> rw [heq]
  · exact h
  · exact h.select .none

theorem Within.deselectAnimation (h : tl.Within length) (id : Value) :
    (tl.deselectAnimation id).Within length := by
  rcases tl.deselectAnimation_cases id with heq | heq <;> rw [heq]
  · exact h
  · exact h.of_tracks rfl rfl h.tracks

theorem Within.dropClip (h : tl.Within length) (id : Value) : (tl.dropClip id).Within length := by
  refine h.of_tracks rfl rfl (h.updateFirst fun t ht _ => ?_)
  exact (h.tracks t ht).of_sublist (eraseFirst_sublist _ _)

theorem Within.dropShowing (h : tl.Within length) (resourceId : Value) :
    (tl.dropShowing resourceId).Within length := by
  refine h.of_tracks rfl rfl fun t ht => ?_
  obtain ⟨u, hu, rfl⟩ := List.mem_map.mp ht
  exact (h.tracks u hu).of_sublist List.filter_sublist

/-- The position is moved to the nearer end where it would lie outside. -/
theorem Within.setCurrentTime (h : tl.Within length) {time inside position : Value}
    (htime : time.isFloat = false) (hinside : time.smaller tl.duration = .ok inside)
    (hposition : inside.atLeastZero = .ok position) :
    Within length { tl with currentTime := position } := by
  obtain ⟨i, hi, hle⟩ := Value.exists_whole?_of_smaller htime h.duration hinside
  rw [Value.atLeastZero_of_whole? hi] at hposition
  rw [← Except.ok.inj hposition]
  exact ⟨h.duration, ⟨_, Value.whole?_ite_pos hi, le_max_left 0 i, max_le h.nonneg hle⟩, h.tracks⟩

/-- A clip is changed without being moved. -/
theorem Within.changeClip (h : tl.Within length) (hfind : tl.findClip? id = some c) {f : Clip → Clip}
    (hstart : (f c).start = c.start) (hduration : (f c).duration = c.duration) :
    (tl.changeClip id f).Within length := by
  obtain ⟨s⟩ := exists_place hfind
  obtain ⟨hordered, hclips⟩ := h.tracks s.track s.track_mem
  have hclip := hclips c s.mem
  have hfirst : (f c).startTime = c.startTime := by simp [Clip.startTime, hstart]
  have hspan : (f c).span = c.span := by simp [Clip.span, hduration]
  refine h.of_tracks rfl rfl (s.forall_changeTrackOf h.tracks ⟨?_, ?_⟩)
  · -- the row of starts is the same as before
    rw [s.updateClips]
    rw [s.clips_eq] at hordered
    simpa [hfirst] using hordered
  · rw [s.updateClips]
    refine forall_mem_replace (s.clips_eq ▸ hclips) ?_
    apply Clip.within_of_isSpan
    · exact hstart ▸ hclip.isSpan_start
    · exact hduration ▸ hclip.isSpan_duration
    · rw [hfirst, hspan]
      exact hclip.end_le

/-- The timeline reaches the end of a clip, and it does not become shorter. -/
theorem Within.exists_extent (h : tl.Within length) (hstart : c.start.IsSpan)
    (hduration : c.duration.IsSpan) :
    ∃ v longer, tl.extent c = .ok v ∧ v.whole? = some longer ∧ length ≤ longer ∧ c.Within longer := by
  obtain ⟨i, hi, -⟩ := id hstart
  obtain ⟨j, hj, -⟩ := id hduration
  have hend : c.startTime + c.span = i + j := by simp [Clip.startTime, Clip.span, hi, hj]
  have hstop : Value.whole? (.int (i + j)) = some (i + j) := rfl
  have hrest : Value.whole? (.int extension) = some extension := rfl
  by_cases hlonger : length < i + j
  · refine ⟨.int (i + j + extension), i + j + extension, ?_, rfl, ?_,
      Clip.within_of_isSpan hstart hduration ?_⟩
    · simp [extent, Value.plus_of_whole? hi hj, Value.lessThan_of_whole? h.duration hstop, hlonger,
        Value.plus_of_whole? hstop hrest]
    · rw [extension]
      omega
    · rw [hend, extension]
      omega
  · refine ⟨tl.duration, length, ?_, h.duration, le_rfl, Clip.within_of_isSpan hstart hduration ?_⟩
    · simp [extent, Value.plus_of_whole? hi hj, Value.lessThan_of_whole? h.duration hstop, hlonger]
    · omega

/-- A timeline becomes longer, and its tracks lie inside of the new length. -/
theorem Within.lengthen (h : tl.Within length) {v : Value} (hv : v.whole? = some length')
    (hle : length ≤ length') (hposition : tl'.currentTime = tl.currentTime)
    (htracks : ∀ t ∈ tl'.tracks, t.Within length') : Within length' { tl' with duration := v } := by
  obtain ⟨i, hi, hpos, hinside⟩ := h.position
  exact ⟨hv, ⟨i, hposition ▸ hi, hpos, hinside.trans hle⟩, htracks⟩

/-- A clip joins the others of a track. -/
theorem Within.place (h : tl.Within length) (hle : length ≤ length') (hc : c.Within length')
    (trackId : Value) : ∀ t ∈ (tl.place trackId c).tracks, t.Within length' := by
  intro t ht
  rcases mem_updateFirst ht with ht | ⟨u, hu, -, rfl⟩
  · exact (h.tracks t ht).mono hle
  · apply Track.within_sorted
    intro d hd
    rcases List.mem_append.mp hd with hd | hd
    · exact ((h.tracks u hu).clips d hd).mono hle
    · rw [List.mem_singleton.mp hd]
      exact hc

/-- A clip is moved on its track. -/
theorem Within.resort (h : tl.Within length) (hle : length ≤ length')
    (hfind : tl.findClip? id = some c) {d : Clip} (hd : d.Within length') :
    ∀ t ∈ (tl.resort id d).tracks, t.Within length' := by
  obtain ⟨s⟩ := exists_place hfind
  have hall : ∀ t ∈ tl.tracks, t.Within length' := fun t ht => (h.tracks t ht).mono hle
  refine s.forall_changeTrackOf hall (Track.within_sorted ?_)
  rw [s.updateClips]
  exact forall_mem_replace (s.clips_eq ▸ (hall s.track s.track_mem).clips) hd

/-! ## Section 4: Operations -/

/-- An operation that is given whole numbers as times, or what is no number at all. -/
def Command.Whole : Command → Prop
  | .addClip resource _ time _ duration =>
    time.isFloat = false ∧ duration.isFloat = false
      ∧ (duration = .none → ∀ own, resource.look "durationMs" .none = .ok own → own.isFloat = false)
  | .updateClip _ updates => (∀ fs, updates = .dict fs → Fields.Distinct fs)
    ∧ ∀ asked, updates.toFields = .ok asked → (Fields.get asked "start_time").isFloat = false
      ∧ (Fields.get asked "duration").isFloat = false
  | .setCurrentTime time => time.isFloat = false
  | _ => True

theorem NewClip.isSpan {resource trackId time duration : Value}
    (h : NewClip tl resource trackId time id duration c)
    (hc : Command.Whole (.addClip resource trackId time id duration)) :
    c.start.IsSpan ∧ c.duration.IsSpan := by
  obtain ⟨htime, hduration, hown⟩ := hc
  refine ⟨Value.exists_whole?_of_atLeastZero htime h.start, ?_⟩
  have hfloat : c.duration.isFloat = false := by
    have hlength := h.length
    unfold clipDuration at hlength
    split at hlength
    · obtain ⟨own, hlook, hlength⟩ := bind_eq_ok.mp hlength
      rw [← Except.ok.inj hlength]
      split
      · exact hown rfl own hlook
      · rfl
    · rw [← Except.ok.inj hlength]
      exact hduration
  obtain ⟨i, hi, hpos⟩ := exists_int_of_requireNonNegative hfloat h.nonneg
  exact ⟨i, by rw [hi]; rfl, hpos⟩

theorem Revision.isSpan {updates : Value} {values : Fields} {old : Clip}
    (h : Revision tl id updates old values) (hc : Command.Whole (.updateClip id updates))
    (hold : old.Within length) :
    (old.merge values).start.IsSpan ∧ (old.merge values).duration.IsSpan := by
  obtain ⟨asked, hasked, hadjusted⟩ := exists_adjusted h.values
  have hdistinct := hadjusted.distinct (Fields.distinct_of_toFields hc.1 hasked)
  -- a time that is given has been checked, and one that is not given stays as it was
  obtain ⟨hstart, hduration⟩ := hc.2 asked hasked
  rw [Clip.start_merge hdistinct, Clip.duration_merge hdistinct]
  constructor
  · cases hget : Fields.get? values "start_time" with
    | none => exact hold.isSpan_start
    | some v =>
      obtain ⟨t, ht, hv⟩ := hadjusted.start v hget
      rw [Fields.get_of_get? ht] at hstart
      exact Value.exists_whole?_of_atLeastZero hstart hv
  · cases hget : Fields.get? values "duration" with
    | none => exact hold.isSpan_duration
    | some v =>
      rw [Fields.get, ← hadjusted.get?_eq _ (by decide), hget] at hduration
      obtain ⟨i, rfl, hpos⟩ := exists_int_of_requireNonNegative hduration (hadjusted.duration v hget)
      exact ⟨i, rfl, hpos⟩

/-- A change that does not move the clip leaves its times as they are. -/
theorem Revision.times_eq {updates : Value} {values : Fields} {old : Clip}
    (h : Revision tl id updates old values) (hc : Command.Whole (.updateClip id updates))
    (hmoves : moves values = false) :
    (old.merge values).start = old.start ∧ (old.merge values).duration = old.duration := by
  obtain ⟨asked, hasked, hadjusted⟩ := exists_adjusted h.values
  have hdistinct := hadjusted.distinct (Fields.distinct_of_toFields hc.1 hasked)
  simp only [moves, Fields.has, Bool.or_eq_false_iff, Option.isSome_eq_false_iff,
    Option.isNone_iff_eq_none] at hmoves
  rw [Clip.start_merge hdistinct, Clip.duration_merge hdistinct, hmoves.1, hmoves.2]
  exact ⟨rfl, rfl⟩

/-- On whole numbers it can always be told where a clip ends; only an animation may be lost. -/
theorem HalfDone.exists_animate {command : Command} {fault : Fault} (h : HalfDone tl command fault tl')
    (hc : command.Whole) (htl : tl.Within length) :
    ∃ clipId id index c items i, command = .moveAnimation clipId id index
      ∧ tl.findClip? clipId = some c ∧ placeIn index (List.eraseIdx items i).length = .error fault
      ∧ tl' = tl.animate clipId (.list (items.eraseIdx i)) := by
  cases h with
  | addClip h hend =>
    obtain ⟨hstart, hduration⟩ := h.isSpan hc
    obtain ⟨v, longer, hlength, -⟩ := htl.exists_extent hstart hduration
    simp [hlength] at hend
  | updateClip h _ hend =>
    obtain ⟨hstart, hduration⟩ := h.isSpan hc (htl.of_findClip? h.found)
    obtain ⟨v, longer, hlength, -⟩ := htl.exists_extent hstart hduration
    simp [hlength] at hend
  | moveAnimation hfind _ _ hindex => exact ⟨_, _, _, _, _, _, rfl, hfind, hindex, rfl⟩

/-- Whatever an operation on whole numbers comes to, the clips stay ordered and inside. -/
theorem Outcome.within {command : Command} {r : Result Value} (h : Outcome tl command r tl')
    (hc : command.Whole) (htl : tl.Within length) :
    ∃ longer, length ≤ longer ∧ tl'.Within longer := by
  -- the changes that leave the length as it is
  have hkept : ∀ {tl₁ : Timeline}, tl₁.Within length →
      ∃ longer, length ≤ longer ∧ tl₁.Within longer :=
    fun hwithin => ⟨length, le_rfl, hwithin⟩
  have hanimate : ∀ {clipId : Value} {c : Clip} (animations : Value),
      tl.findClip? clipId = some c → (tl.animate clipId animations).Within length :=
    fun animations hfind => htl.changeClip hfind rfl rfl
  cases h with
  | refused => exact hkept htl
  | halfDone h =>
    obtain ⟨clipId, id, index, c, items, i, -, hfind, -, rfl⟩ := h.exists_animate hc htl
    exact hkept (hanimate _ hfind)
  | idle => exact hkept htl
  | addTrack =>
    refine hkept (htl.of_tracks rfl rfl ?_)
    simp only [List.forall_mem_append, List.forall_mem_singleton]
    exact ⟨htl.tracks, List.Pairwise.nil, fun _ h => nomatch h⟩
  | removeTrack =>
    refine hkept ((htl.deselect _).of_tracks rfl rfl fun t ht => ?_)
    exact htl.tracks t ((eraseFirst_sublist _ _).subset ht)
  | editTrack hedit =>
    refine hkept (htl.of_tracks rfl rfl (htl.updateFirst fun t ht _ => ?_))
    exact (htl.tracks t ht).of_sublist (by rw [clips_of_trackEdit? hedit])
  | addClip h hend =>
    obtain ⟨hstart, hduration⟩ := h.isSpan hc
    obtain ⟨v, longer, hlength, hv, hle, hinside⟩ := htl.exists_extent hstart hduration
    obtain rfl := Except.ok.inj (hlength.symm.trans hend)
    exact ⟨longer, hle, htl.lengthen hv hle rfl (htl.place hle hinside _)⟩
  | removeClip =>
    split
    · exact hkept ((htl.select .none).dropClip _)
    · exact hkept (htl.dropClip _)
  | removeClipsOf resourceId => exact hkept ((htl.deselect _).dropShowing resourceId)
  | updateClip h hmoves =>
    obtain ⟨hstart, hduration⟩ := h.times_eq hc hmoves
    exact hkept (htl.changeClip h.found hstart hduration)
  | moveClip h _ hend =>
    obtain ⟨hstart, hduration⟩ := h.isSpan hc (htl.of_findClip? h.found)
    obtain ⟨v, longer, hlength, hv, hle, hinside⟩ := htl.exists_extent hstart hduration
    obtain rfl := Except.ok.inj (hlength.symm.trans hend)
    exact ⟨longer, hle, htl.lengthen hv hle rfl (htl.resort hle h.found hinside)⟩
  | setCurrentTime hinside hposition => exact hkept (htl.setCurrentTime hc hinside hposition)
  | setSelectedClip => exact hkept (htl.of_tracks rfl rfl htl.tracks)
  | setSelectedAnimation => exact hkept (htl.of_tracks rfl rfl htl.tracks)
  | addAnimation hfind => exact hkept (hanimate _ hfind)
  | insertAnimation hfind => exact hkept (hanimate _ hfind)
  | removeAnimation hfind => exact hkept ((hanimate _ hfind).deselectAnimation _)
  | updateAnimation hfind => exact hkept (hanimate _ hfind)
  | moveAnimation hfind => exact hkept (hanimate _ hfind)

/-- A row of operations on whole numbers, with success or without, keeps the clips ordered and inside,
and the timeline never becomes shorter. -/
theorem within_of_steps (h : Relation.ReflTransGen (Step Command.Whole) tl tl')
    (htl : tl.Within length) : ∃ longer, length ≤ longer ∧ tl'.Within longer := by
  refine steps_preserve (i := fun t => ∃ longer, length ≤ longer ∧ t.Within longer) ?_ h
    ⟨length, le_rfl, htl⟩
  rintro tl₁ command r tl₂ hc houtcome ⟨longer, hle, hwithin⟩
  obtain ⟨longest, hle', hwithin'⟩ := houtcome.within hc hwithin
  exact ⟨longest, hle.trans hle', hwithin'⟩

/-- Timelines that are reached from one without tracks are ordered and reach as far as their clips,
and the one that is reached later is not shorter. -/
theorem exists_within_of_steps {n : Int} (hn : 0 ≤ n)
    (hbefore : Relation.ReflTransGen (Step Command.Whole) (ofDuration (.int n)) tl)
    (hafter : Relation.ReflTransGen (Step Command.Whole) tl tl') :
    ∃ length length', tl.Within length ∧ tl'.Within length' ∧ n ≤ length ∧ length ≤ length' := by
  obtain ⟨length, hle, hwithin⟩ := within_of_steps hbefore (within_ofDuration hn)
  obtain ⟨length', hle', hwithin'⟩ := within_of_steps hafter hwithin
  exact ⟨length, length', hwithin, hwithin', hle, hle'⟩

/-- Two tracks with a clip on each, the first of which makes the timeline longer. -/
def sampleStart : List Command :=
  [.addTrack .none (.text "t") (.bool true) (.bool false),
    .addTrack .none (.text "u") (.bool true) (.bool false),
    .addClip (.dict [(.text "id", .text "r"), (.text "type", .text "text")]) (.text "t")
      (.int 2000) (.text "a") (.int 4000),
    .addClip (.dict [(.text "id", .text "r"), (.text "type", .text "text")]) (.text "u")
      (.int (-1000)) (.text "b") (.int 9000)]

/-- A clip is moved beyond the end, then the position is. -/
def sampleMoves : List Command :=
  [.updateClip (.text "b") (.dict [(.text "start_time", .int 80000)]), .setCurrentTime (.int 900000)]

def sampleBefore : Timeline :=
  sampleStart.foldl (after · default) (ofDuration (.int 5000))

def sampleAfter : Timeline :=
  sampleMoves.foldl (after · default) sampleBefore

/-- The sample becomes longer twice. -/
theorem exists_within_of_steps_sample :
    sampleBefore.clips.map Clip.startTime = [2000, 0]
      ∧ sampleBefore.duration.whole? = some 66000
      ∧ sampleAfter.clips.map Clip.startTime = [2000, 80000]
      ∧ sampleAfter.duration.whole? = some 149000
      ∧ sampleAfter.currentTime.whole? = some 149000
      ∧ ∃ length length', sampleBefore.Within length ∧ sampleAfter.Within length'
        ∧ 5000 ≤ length ∧ length ≤ length' := by
  refine ⟨by decide +kernel, by decide +kernel, by decide +kernel, by decide +kernel,
    by decide +kernel, exists_within_of_steps (by decide) (steps_foldl ?_ default)
      (steps_foldl ?_ default)⟩
  · simp [sampleStart, Command.Whole, Value.isFloat]
  · simp only [sampleMoves, List.forall_mem_cons, Command.Whole]
    refine ⟨⟨fun fs hfs => ?_, fun asked hasked => ?_⟩, rfl, by simp⟩
    · rw [← Value.dict.inj hfs]
      exact List.pairwise_singleton _ _
    · rw [← Except.ok.inj hasked]
      decide

end Timeline

end Overlay
