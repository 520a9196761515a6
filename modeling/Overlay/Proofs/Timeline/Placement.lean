import Overlay.Proofs.Timeline.Sorting

/-!
# Placing and moving clips

A clip that is added or changed is sorted in on its track, and nothing else changes.  The other clips of
the track keep their order, which has been that of their starts all along, so the new place of the clip
is a gap among them: behind those that start earlier, in front of those that start later, and among
those that start together with it where it stood before, or at their end if it is new.

## Main definitions
- `Track.Gap`: a place for a clip in an ordered row
- `Track.KeepsSide`: a gap on the same side of the clips that start together
- `Timeline.Covers`: a timeline whose clips are ordered and lie inside of its length
- `Timeline.reach`: how long a timeline is once it reaches beyond the end of a clip
- `Timeline.Added`, `Timeline.Changed`: what adding and changing a clip do

## Main statements
- `Track.exists_gap`: there is a gap on either side of the clips that start together
- `Track.sorted_eq`: sorting moves a clip of an ordered row into its gap
- `Timeline.exists_covers_of_steps`: timelines of any length, a negative one included
- `Timeline.NewClip.added`, `Timeline.Revision.exists_changed`: one operation
- `Timeline.clip_placed_of_steps`: all timelines that are reached
-/

namespace Overlay

/-! ## Section 1: Gaps -/

/-- Where what comes later in a list passes a test only if what comes earlier does, the list is cut into
what passes it and what does not. -/
theorem filter_append_filter_not {α : Type} {p : α → Bool} {l : List α}
    (h : l.Pairwise fun a b => p b = true → p a = true) :
    l.filter p ++ l.filter (fun a => !p a) = l := by
  induction l with
  | nil => rfl
  | cons a r ih =>
    obtain ⟨hhead, htail⟩ := List.pairwise_cons.mp h
    cases ha : p a with
    | true =>
      have hrest := ih htail
      simp [ha, hrest]
    | false =>
      have hnone : ∀ b ∈ r, p b = false := by
        intro b hb
        cases hpb : p b with
        | false => rfl
        | true => rw [hhead b hb hpb] at ha; cases ha
      have hempty : r.filter p = [] := by
        simpa using hnone
      have hall : (r.filter fun a => !p a) = r := by
        simpa using hnone
      simp [ha, hempty, hall]

namespace Track

/-- The clips in front of a clip and behind it, where it joins some others: those in front start no
later, and those behind start no earlier. -/
structure Gap (others : List Clip) (c : Clip) (early late : List Clip) : Prop where
  others_eq : early ++ late = others
  early_le : ∀ d ∈ early, d.startTime ≤ c.startTime
  le_late : ∀ d ∈ late, c.startTime ≤ d.startTime

/-- The clips that start together with a clip. -/
def together (c : Clip) (clips : List Clip) : List Clip :=
  clips.filter fun d => d.startTime = c.startTime

/-- Among the clips that start together with a clip, it stands where it stood before. -/
structure KeepsSide (before after : List Clip) (c : Clip) (early late : List Clip) : Prop where
  front : together c early = together c before
  back : together c late = together c after

variable {before after early late : List Clip} {c : Clip} {t : Track}

theorem together_append (c : Clip) (l m : List Clip) :
    together c (l ++ m) = together c l ++ together c m :=
  List.filter_append l m

theorem together_eq_nil {l : List Clip} (h : ∀ d ∈ l, d.startTime ≠ c.startTime) :
    together c l = [] := by
  simpa [together] using h

/-- Clips that start together with a clip are not taken out by a test that all of them pass. -/
theorem together_filter {p : Clip → Bool} (h : ∀ d : Clip, d.startTime = c.startTime → p d = true)
    (l : List Clip) : together c (l.filter p) = together c l := by
  rw [together, List.filter_filter]
  apply List.filter_congr
  intro d _
  by_cases hd : d.startTime = c.startTime
  · simp [hd, h d hd]
  · simp [hd]

/-- In an ordered row, there is a gap for every clip on either side of those that start together with
it. -/
theorem exists_gap (hordered : (before ++ after).Pairwise fun d e => d.startTime ≤ e.startTime)
    (c : Clip) : ∃ early late, Gap (before ++ after) c early late
      ∧ KeepsSide before after c early late := by
  obtain ⟨hbefore, hafter, hacross⟩ := List.pairwise_append.mp hordered
  by_cases hlater : ∃ b ∈ before, c.startTime < b.startTime
  · -- the gap lies in front, as all clips behind start later than the clip
    obtain ⟨b, hb, hlt⟩ := hlater
    have hcut := filter_append_filter_not (p := fun d : Clip => decide (d.startTime ≤ c.startTime))
      (hbefore.imp fun hle hd => by simp at hd ⊢; omega)
    refine ⟨before.filter fun d => decide (d.startTime ≤ c.startTime),
      (before.filter fun d => !decide (d.startTime ≤ c.startTime)) ++ after, ⟨?_, ?_, ?_⟩, ⟨?_, ?_⟩⟩
    · rw [← List.append_assoc, hcut]
    · intro d hd
      simpa using (List.mem_filter.mp hd).2
    · intro d hd
      rcases List.mem_append.mp hd with hd | hd
      · have hnot := (List.mem_filter.mp hd).2
        simp at hnot
        omega
      · have hle := hacross b hb d hd
        omega
    · exact together_filter (fun d hd => by simp [hd]) before
    · rw [together_append, together_eq_nil, List.nil_append]
      intro d hd heq
      simpa [heq] using (List.mem_filter.mp hd).2
  · -- all clips in front start no later than the clip, so the gap lies behind
    have hfront : ∀ b ∈ before, b.startTime ≤ c.startTime := by
      intro b hb
      by_contra hlt
      exact hlater ⟨b, hb, by omega⟩
    have hcut := filter_append_filter_not (p := fun d : Clip => decide (d.startTime < c.startTime))
      (hafter.imp fun hle hd => by simp at hd ⊢; omega)
    refine ⟨before ++ after.filter fun d => decide (d.startTime < c.startTime),
      after.filter fun d => !decide (d.startTime < c.startTime), ⟨?_, ?_, ?_⟩, ⟨?_, ?_⟩⟩
    · rw [List.append_assoc, hcut]
    · intro d hd
      rcases List.mem_append.mp hd with hd | hd
      · exact hfront d hd
      · have hlt := (List.mem_filter.mp hd).2
        simp at hlt
        omega
    · intro d hd
      simpa using (List.mem_filter.mp hd).2
    · rw [together_append, together_eq_nil (l := List.filter _ _), List.append_nil]
      intro d hd heq
      simpa [heq] using (List.mem_filter.mp hd).2
    · exact together_filter (fun d hd => by simp [hd]) after

/-- A row with a clip in its gap is the row with the clip where it stood, sorted. -/
theorem Gap.sortsRow (h : Gap (before ++ after) c early late)
    (hside : KeepsSide before after c early late)
    (hordered : (before ++ after).Pairwise fun d e => d.startTime ≤ e.startTime) :
    SortsRow (before ++ c :: after) (early ++ c :: late) := by
  rw [← h.others_eq] at hordered
  obtain ⟨hearly, hlate, hacross⟩ := List.pairwise_append.mp hordered
  refine ⟨?_, ?_, fun time => ?_⟩
  · -- both rows are the others and the clip
    apply List.perm_middle.trans
    rw [h.others_eq]
    exact List.perm_middle.symm
  · apply List.pairwise_append.mpr
    refine ⟨hearly, List.pairwise_cons.mpr ⟨h.le_late, hlate⟩, fun d hd e he => ?_⟩
    rcases List.mem_cons.mp he with rfl | he
    · exact h.early_le d hd
    · exact hacross d hd e he
  · by_cases htime : c.startTime = time
    · have hfront := hside.front
      have hback := hside.back
      simp only [together, htime] at hfront hback
      simp [htime, hfront, hback]
    · have hothers := congrArg (List.filter fun d => decide (d.startTime = time)) h.others_eq
      simpa [htime] using hothers

/-- Sorting moves a clip of an ordered row into its gap. -/
theorem sorted_eq (h : Gap (before ++ after) c early late)
    (hside : KeepsSide before after c early late)
    (hordered : (before ++ after).Pairwise fun d e => d.startTime ≤ e.startTime)
    (hwhole : ∀ d ∈ before ++ c :: after, d.start.whole? = some d.startTime) :
    { t with clips := before ++ c :: after }.sorted = { t with clips := early ++ c :: late } := by
  have hclips : ({ t with clips := before ++ c :: after }.sorted).clips = early ++ c :: late :=
    (SortsRow.of_sorted (t := { t with clips := before ++ c :: after }) hwhole).unique
      (h.sortsRow hside hordered)
  rw [← hclips]
  rfl

end Track

/-- All fields of a clip can be read off the clip as a value. -/
theorem Clip.toValue_injective {c d : Clip} (h : c.toValue = d.toValue) : c = d := by
  simp only [Clip.toValue, Clip.toFields, Value.dict.injEq, List.cons_append, List.nil_append,
    List.cons.injEq, Prod.mk.injEq, true_and] at h
  cases c
  cases d
  simp_all

namespace Timeline

variable {tl tl' : Timeline} {length : Int} {c : Clip} {id : Value}

/-! ## Section 2: Timelines of any length -/

/-- A timeline whose clips are ordered on their tracks and lie inside of its length. -/
structure Covers (length : Int) (tl : Timeline) : Prop where
  duration : tl.duration.whole? = some length
  tracks : ∀ t ∈ tl.tracks, t.Within length

theorem Within.covers (h : tl.Within length) : tl.Covers length :=
  ⟨h.duration, h.tracks⟩

/-- A timeline without clips, as it starts, whatever its length is. -/
structure Blank (length : Int) (tl : Timeline) : Prop where
  duration : tl.duration = .int length
  position : tl.currentTime = .int 0
  clips : ∀ t ∈ tl.tracks, t.clips = []

/-- How long a timeline is once it reaches beyond the end of a clip: an end that it does not reach yet
makes it longer than that. -/
def reach (tl : Timeline) (c : Clip) : Value :=
  if tl.duration.whole?.getD 0 < c.startTime + c.span then .int (c.startTime + c.span + extension)
  else tl.duration

theorem extent_eq (h : tl.duration.whole? = some length) (hstart : c.start.IsSpan)
    (hduration : c.duration.IsSpan) : tl.extent c = .ok (tl.reach c) := by
  obtain ⟨i, hi, -⟩ := hstart
  obtain ⟨j, hj, -⟩ := hduration
  have hstop : Value.whole? (.int (i + j)) = some (i + j) := rfl
  have hrest : Value.whole? (.int extension) = some extension := rfl
  have hends : c.startTime + c.span = i + j := by
    simp [Clip.startTime, Clip.span, hi, hj]
  rw [extent, Value.plus_of_whole? hi hj, ok_bind, Value.lessThan_of_whole? h hstop, ok_bind,
    reach, hends, h]
  by_cases hlonger : length < i + j
  · simp [hlonger, Value.plus_of_whole? hstop hrest]
  · simp [hlonger]

namespace Blank

theorem ofDuration (length : Int) : Blank length (ofDuration (.int length)) :=
  ⟨rfl, rfl, fun _ ht => nomatch ht⟩

theorem of_tracks (h : tl.Blank length) (hduration : tl'.duration = tl.duration)
    (hposition : tl'.currentTime = tl.currentTime) (hclips : ∀ t ∈ tl'.tracks, t.clips = []) :
    tl'.Blank length :=
  ⟨hduration ▸ h.duration, hposition ▸ h.position, hclips⟩

theorem deselect (h : tl.Blank length) (gone : List Clip) : (tl.deselect gone).Blank length := by
  rcases tl.deselect_cases gone with heq | heq <;> rw [heq]
  · exact h
  · exact h.of_tracks rfl rfl h.clips

/-- There is no clip to be found. -/
theorem not_found (h : tl.Blank length) (hfind : tl.findClip? id = some c) : False := by
  obtain ⟨s⟩ := exists_place hfind
  have hmem := s.mem
  rw [h.clips s.track s.track_mem] at hmem
  cases hmem

theorem covers (h : tl.Blank length) : tl.Covers length := by
  refine ⟨by rw [h.duration]; rfl, fun t ht => ⟨?_, ?_⟩⟩
  · simp [h.clips t ht]
  · simp [h.clips t ht]

/-- A position behind the end of a timeline that ends before it starts is moved to the start. -/
theorem setCurrentTime (h : tl.Blank length) (hneg : length < 0) {time inside position : Value}
    (htime : time.isFloat = false) (hinside : time.smaller tl.duration = .ok inside)
    (hposition : inside.atLeastZero = .ok position) :
    Blank length { tl with currentTime := position } := by
  obtain ⟨i, hi, hle⟩ := Value.exists_whole?_of_smaller htime h.covers.duration hinside
  rw [Value.atLeastZero_of_whole? hi, if_neg (by omega)] at hposition
  exact ⟨h.duration, (Except.ok.inj hposition).symm, h.clips⟩

/-- The first clip makes a timeline that ends before it starts reach its end. -/
theorem place (h : tl.Blank length) (hneg : length < 0) (hstart : c.start.IsSpan)
    (hduration : c.duration.IsSpan) (trackId : Value) :
    Within (c.startTime + c.span + extension)
      { tl.place trackId c with duration := tl.reach c } := by
  have hinside : c.Within (c.startTime + c.span + extension) := by
    apply Clip.within_of_isSpan hstart hduration
    rw [extension]
    omega
  have hend := hinside.end_le
  have hfirst := hinside.start_nonneg
  have hspan := hinside.span_nonneg
  refine ⟨?_, ⟨0, ?_, le_rfl, ?_⟩, fun t ht => ?_⟩
  · rw [reach, h.covers.duration, Option.getD_some, if_pos (by omega)]
    rfl
  · exact congrArg Value.whole? h.position
  · omega
  · rcases mem_updateFirst ht with ht | ⟨u, hu, -, rfl⟩
    · exact ⟨by simp [h.clips t ht], by simp [h.clips t ht]⟩
    · apply Track.within_sorted
      simp [h.clips u hu, hinside]

end Blank

/-- As long as there are no clips, only the first one changes what a timeline that ends before it starts
is like. -/
theorem Outcome.blank_or_within {command : Command} {r : Result Value} (h : Outcome tl command r tl')
    (hc : command.Whole) (hneg : length < 0) (htl : tl.Blank length) :
    tl'.Blank length ∨ ∃ longer, tl'.Within longer := by
  cases h with
  | refused => exact Or.inl htl
  | idle => exact Or.inl htl
  | halfDone h =>
    cases h with
    | addClip h hend =>
      obtain ⟨hstart, hduration⟩ := h.isSpan hc
      rw [extent_eq htl.covers.duration hstart hduration] at hend
      cases hend
    | updateClip h => exact (htl.not_found h.found).elim
    | moveAnimation hfind => exact (htl.not_found hfind).elim
  | addTrack =>
    refine Or.inl (htl.of_tracks rfl rfl ?_)
    simp only [List.forall_mem_append, List.forall_mem_singleton]
    exact ⟨htl.clips, trivial⟩
  | removeTrack =>
    refine Or.inl ((htl.deselect _).of_tracks rfl rfl fun t ht => ?_)
    exact htl.clips t ((eraseFirst_sublist _ _).subset ht)
  | editTrack hedit =>
    refine Or.inl (htl.of_tracks rfl rfl fun t ht => ?_)
    rcases mem_updateFirst ht with ht | ⟨u, hu, -, rfl⟩
    · exact htl.clips t ht
    · rw [clips_of_trackEdit? hedit]
      exact htl.clips u hu
  | addClip h hend =>
    obtain ⟨hstart, hduration⟩ := h.isSpan hc
    rw [extent_eq htl.covers.duration hstart hduration] at hend
    obtain rfl := Except.ok.inj hend
    exact Or.inr ⟨_, htl.place hneg hstart hduration _⟩
  | removeClip hfind => exact (htl.not_found hfind).elim
  | removeClipsOf resourceId =>
    refine Or.inl ((htl.deselect _).of_tracks rfl rfl fun t ht => ?_)
    obtain ⟨u, hu, rfl⟩ := List.mem_map.mp ht
    rw [tracks_deselect] at hu
    simp [htl.clips u hu]
  | updateClip h => exact (htl.not_found h.found).elim
  | moveClip h => exact (htl.not_found h.found).elim
  | setCurrentTime hinside hposition => exact Or.inl (htl.setCurrentTime hneg hc hinside hposition)
  | setSelectedClip => exact Or.inl (htl.of_tracks rfl rfl htl.clips)
  | setSelectedAnimation => exact Or.inl (htl.of_tracks rfl rfl htl.clips)
  | addAnimation hfind => exact (htl.not_found hfind).elim
  | insertAnimation hfind => exact (htl.not_found hfind).elim
  | removeAnimation hfind => exact (htl.not_found hfind).elim
  | updateAnimation hfind => exact (htl.not_found hfind).elim
  | moveAnimation hfind => exact (htl.not_found hfind).elim

/-- Timelines that are reached from one without tracks have their clips ordered and inside, whatever
length that one was given. -/
theorem exists_covers_of_steps {n : Int}
    (h : Relation.ReflTransGen (Step Command.Whole) (ofDuration (.int n)) tl) :
    ∃ length, tl.Covers length := by
  by_cases hn : 0 ≤ n
  · obtain ⟨length, -, hwithin⟩ := within_of_steps h (within_ofDuration hn)
    exact ⟨length, hwithin.covers⟩
  · have hkept : tl.Blank n ∨ ∃ length, tl.Within length := by
      refine steps_preserve (i := fun t => t.Blank n ∨ ∃ length, t.Within length) ?_ h
        (Or.inl (.ofDuration n))
      intro tl₁ command r tl₂ hc houtcome hbefore
      rcases hbefore with hblank | ⟨length, hwithin⟩
      · exact houtcome.blank_or_within hc (by omega) hblank
      · obtain ⟨longer, -, hlonger⟩ := houtcome.within hc hwithin
        exact Or.inr ⟨longer, hlonger⟩
    rcases hkept with hblank | ⟨length, hwithin⟩
    · exact ⟨n, hblank.covers⟩
    · exact ⟨length, hwithin.covers⟩

/-! ## Section 3: One operation -/

/-- What adding a clip does: the clip stands on its track behind the clips that start no later and in
front of those that start later, and the timeline reaches its end. -/
structure Added (tl : Timeline) (trackId : Value) (c : Clip) (above : List Track) (t : Track)
    (below : List Track) (early late : List Clip) (tl' : Timeline) : Prop where
  tracks : tl.tracks = above ++ t :: below
  track : tl.findTrack? trackId = some t
  start : c.start.IsSpan
  duration : c.duration.IsSpan
  gap : Track.Gap t.clips c early late
  late_lt : ∀ d ∈ late, c.startTime < d.startTime
  after : tl' = { tl with
    tracks := above ++ { t with clips := early ++ c :: late } :: below
    duration := tl.reach c }

/-- What changing a clip does: the clip stands in a gap among the other clips of its track, on the same
side as before of those that start together with it, and the timeline reaches its end. -/
structure Changed {tl : Timeline} {id : Value} {old : Clip} (s : Place tl id old) (c : Clip)
    (early late : List Clip) (tl' : Timeline) : Prop where
  start : c.start.IsSpan
  duration : c.duration.IsSpan
  gap : Track.Gap (s.before ++ s.after) c early late
  side : Track.KeepsSide s.before s.after c early late
  after : tl' = { tl with
    tracks := s.above ++ { s.track with clips := early ++ c :: late } :: s.below
    duration := tl.reach c }

namespace Covers

/-- The clips of a track are ordered. -/
theorem ordered (h : tl.Covers length) {t : Track} (ht : t ∈ tl.tracks) :
    t.clips.Pairwise fun c d => c.startTime ≤ d.startTime :=
  List.pairwise_map.mp (h.tracks t ht).ordered

theorem ordered_others (h : tl.Covers length) (s : Place tl id c) :
    (s.before ++ s.after).Pairwise fun d e => d.startTime ≤ e.startTime := by
  have hrow := h.ordered s.track_mem
  rw [s.clips_eq] at hrow
  exact hrow.sublist ((List.sublist_cons_self c s.after).append_left s.before)

theorem within (h : tl.Covers length) (s : Place tl id c) : c.Within length :=
  (h.tracks s.track s.track_mem).clips c s.mem

/-- The timeline stays as long as it is for a clip that lies inside of it. -/
theorem reach_eq (h : tl.Covers length) (hc : c.Within length) : tl.reach c = tl.duration := by
  have hend := hc.end_le
  rw [reach, h.duration, Option.getD_some, if_neg (by omega)]

end Covers

/-- A new clip is sorted in on its track. -/
theorem NewClip.added {resource trackId time duration length' : Value}
    (h : NewClip tl resource trackId time id duration c)
    (hc : Command.Whole (.addClip resource trackId time id duration)) (htl : tl.Covers length)
    (hend : tl.extent c = .ok length') :
    ∃ above t below early late,
      Added tl trackId c above t below early late { tl.place trackId c with duration := length' } := by
  obtain ⟨t, ht⟩ := Option.isSome_iff_exists.mp h.track_isSome
  obtain ⟨above, below, htracks, hplace⟩ :=
    exists_changeTrack ht fun t => { t with clips := t.clips ++ [c] }.sorted
  obtain ⟨hstart, hduration⟩ := h.isSpan hc
  have hmem : t ∈ tl.tracks := by
    rw [htracks]
    simp
  have hordered : (t.clips ++ []).Pairwise fun (d : Clip) (e : Clip) => d.startTime ≤ e.startTime := by
    rw [List.append_nil]
    exact htl.ordered hmem
  have hwhole : ∀ d ∈ t.clips ++ [c], d.start.whole? = some d.startTime := by
    simp only [List.forall_mem_append, List.forall_mem_singleton]
    exact ⟨fun d hd => ((htl.tracks t hmem).clips d hd).start,
      (Clip.within_of_isSpan hstart hduration le_rfl).start⟩
  -- the clip comes from behind all others, so it stays behind those that start together with it
  obtain ⟨early, late, hgap, hside⟩ := Track.exists_gap hordered c
  have hsorted := Track.sorted_eq (t := t) hgap hside hordered hwhole
  rw [List.append_nil] at hgap
  refine ⟨above, t, below, early, late, htracks, ht, hstart, hduration, hgap, fun d hd => ?_, ?_⟩
  · have hnone : Track.together c late = [] := hside.back
    have hother : d.startTime ≠ c.startTime := by
      simpa using List.filter_eq_nil_iff.mp hnone d hd
    exact lt_of_le_of_ne (hgap.le_late d hd) hother.symm
  · rw [extent_eq htl.duration hstart hduration] at hend
    obtain rfl := Except.ok.inj hend
    rw [place, hplace, hsorted]

namespace Revision

variable {updates : Value} {values : Fields} {old : Clip}

/-- A clip that is not moved stays in its gap. -/
theorem changed (h : Revision tl id updates old values)
    (hc : Command.Whole (.updateClip id updates)) (htl : tl.Covers length)
    (hmoves : moves values = false) (s : Place tl id old) :
    Changed s (old.merge values) s.before s.after (tl.changeClip id fun _ => old.merge values) := by
  have hold := htl.within s
  obtain ⟨hstart, hduration⟩ := h.isSpan hc hold
  obtain ⟨hsame, hspan⟩ := h.times_eq hc hmoves
  have hfirst : (old.merge values).startTime = old.startTime := by
    rw [Clip.startTime, hsame, Clip.startTime]
  have hend : (old.merge values).startTime + (old.merge values).span ≤ length := by
    rw [hfirst, Clip.span, hspan]
    exact hold.end_le
  have hrow := htl.ordered s.track_mem
  rw [s.clips_eq] at hrow
  obtain ⟨-, hbehind, hacross⟩ := List.pairwise_append.mp hrow
  refine ⟨hstart, hduration, ⟨rfl, fun d hd => ?_, fun d hd => ?_⟩, ⟨rfl, rfl⟩, ?_⟩
  · rw [hfirst]
    exact hacross d hd old List.mem_cons_self
  · rw [hfirst]
    exact List.rel_of_pairwise_cons hbehind hd
  · rw [s.changeClip, htl.reach_eq (Clip.within_of_isSpan hstart hduration hend)]

/-- A clip that is moved is sorted in on its track. -/
theorem exists_changed {length' : Value} (h : Revision tl id updates old values)
    (hc : Command.Whole (.updateClip id updates)) (htl : tl.Covers length)
    (hend : tl.extent (old.merge values) = .ok length') (s : Place tl id old) :
    ∃ early late, Changed s (old.merge values) early late
      { tl.resort id (old.merge values) with duration := length' } := by
  obtain ⟨hstart, hduration⟩ := h.isSpan hc (htl.within s)
  have hordered := htl.ordered_others s
  have hwhole : ∀ d ∈ s.before ++ old.merge values :: s.after, d.start.whole? = some d.startTime := by
    have hclips : ∀ d ∈ s.before ++ old :: s.after, d.start.whole? = some d.startTime := by
      rw [← s.clips_eq]
      exact fun d hd => ((htl.tracks s.track s.track_mem).clips d hd).start
    exact forall_mem_replace hclips (Clip.within_of_isSpan hstart hduration le_rfl).start
  obtain ⟨early, late, hgap, hside⟩ := Track.exists_gap hordered (old.merge values)
  refine ⟨early, late, hstart, hduration, hgap, hside, ?_⟩
  rw [extent_eq htl.duration hstart hduration] at hend
  obtain rfl := Except.ok.inj hend
  rw [resort, s.changeTrackOf, s.updateClips, Track.sorted_eq hgap hside hordered hwhole]

/-- A clip that is changed by a mapping keeps its id, as far as ids can be told apart. -/
theorem id_same {fs : Fields} (h : Revision tl id (.dict fs) old values)
    (hdistinct : Fields.Distinct fs) :
    (old.merge values).id = old.id ∨ (old.merge values).id.same old.id = true := by
  obtain ⟨asked, hasked, hadjusted⟩ := exists_adjusted h.values
  obtain rfl := Except.ok.inj hasked
  rw [Clip.id_merge (hadjusted.distinct hdistinct), hadjusted.get?_eq _ (by decide)]
  cases hget : Fields.get? fs "id" with
  | none => exact Or.inl rfl
  | some v =>
    -- a given id has been compared with the one that the clip has
    obtain ⟨_, hfield, hsame⟩ := same_of_checkFixed h.fixed (by decide) hget
    obtain rfl := Except.ok.inj hfield
    exact Or.inr hsame

end Revision

/-- A changed clip that keeps its id leaves the ids on its track as they are, up to their order. -/
theorem Changed.ids_perm {old : Clip} {s : Place tl id old} {early late : List Clip}
    (h : Changed s c early late tl') (hid : c.id = old.id) :
    ((early ++ c :: late).map Clip.id).Perm (s.track.clips.map Clip.id) := by
  have hothers := congrArg (List.map Clip.id) h.gap.others_eq
  rw [List.map_append, List.map_append] at hothers
  rw [s.clips_eq, List.map_append, List.map_append, List.map_cons, List.map_cons, hid]
  apply List.perm_middle.trans
  rw [hothers]
  exact List.perm_middle.symm

/-! ## Section 4: Runs -/

theorem Outcome.exists_newClip {resource trackId time duration v : Value}
    (h : Outcome tl (.addClip resource trackId time id duration) (.ok v) tl') :
    ∃ c length, NewClip tl resource trackId time id duration c ∧ tl.extent c = .ok length
      ∧ v = c.toValue ∧ tl' = { tl.place trackId c with duration := length } := by
  cases h with
  | idle h => cases h
  | editTrack hedit => cases hedit
  | addClip h hend => exact ⟨_, _, h, hend, rfl, rfl⟩

theorem Outcome.exists_revision {updates v : Value}
    (h : Outcome tl (.updateClip id updates) (.ok v) tl') (hc : Command.Whole (.updateClip id updates))
    (htl : tl.Covers length) :
    ∃ old values, ∃ s : Place tl id old, Revision tl id updates old values
      ∧ v = (old.merge values).toValue ∧ ∃ early late, Changed s (old.merge values) early late tl' := by
  cases h with
  | idle h => cases h
  | editTrack hedit => cases hedit
  | updateClip h hmoves =>
    obtain ⟨s⟩ := exists_place h.found
    exact ⟨_, _, s, h, rfl, _, _, h.changed hc htl hmoves s⟩
  | moveClip h _ hend =>
    obtain ⟨s⟩ := exists_place h.found
    exact ⟨_, _, s, h, rfl, h.exists_changed hc htl hend s⟩

/-- On any timeline that operations on whole numbers lead to, a clip that is added stands behind those
that start no later, a clip that is changed by a mapping keeps its id and its side of those that start
together with it, and nothing around it changes but the length, where the clip ends behind it. -/
theorem clip_placed_of_steps {n : Int}
    (h : Relation.ReflTransGen (Step Command.Whole) (ofDuration (.int n)) tl) :
    (∃ length, tl.Covers length)
      ∧ (∀ resource trackId time id duration w c tl' w',
        Command.Whole (.addClip resource trackId time id duration) →
        (addClip resource trackId time id duration).perform tl w = (.ok c, tl', w') →
        ∃ above t below early late, Added tl trackId c above t below early late tl')
      ∧ ∀ id updates w c tl' w', Command.Whole (.updateClip id updates) →
        (updateClip id updates).perform tl w = (.ok c, tl', w') →
        ∃ old, ∃ s : Place tl id old, ∃ early late, Changed s c early late tl'
          ∧ ∀ fs, updates = .dict fs → (c.id = old.id ∨ c.id.same old.id = true)
            ∧ ((∃ name, old.id = .text name) →
              ((early ++ c :: late).map Clip.id).Perm (s.track.clips.map Clip.id)) := by
  obtain ⟨length, htl⟩ := exists_covers_of_steps h
  refine ⟨⟨length, htl⟩, ?_, ?_⟩
  · intro resource trackId time id duration w c tl' w' hc hrun
    have houtcome := addClip_outcome tl resource trackId time id duration w
    rw [hrun] at houtcome
    obtain ⟨d, length', hnew, hend, hvalue, rfl⟩ := houtcome.exists_newClip
    obtain rfl := Clip.toValue_injective hvalue
    exact hnew.added hc htl hend
  · intro id updates w c tl' w' hc hrun
    have houtcome := updateClip_outcome tl id updates w
    rw [hrun] at houtcome
    obtain ⟨old, values, s, hrevision, hvalue, early, late, hchanged⟩ :=
      houtcome.exists_revision hc htl
    obtain rfl := Clip.toValue_injective hvalue
    refine ⟨old, s, early, late, hchanged, fun fs hfs => ?_⟩
    subst hfs
    have hid := hrevision.id_same (hc.1 fs rfl)
    refine ⟨hid, fun hname => hchanged.ids_perm ?_⟩
    obtain ⟨name, hname⟩ := hname
    rcases hid with heq | hsame
    · exact heq
    · rw [hname] at hsame ⊢
      exact Value.same_text.mp hsame

/-- What an action that succeeds answers and leaves. -/
theorem exists_perform_eq {α : Type} {act : Act Timeline α} {w : Surroundings}
    (h : (act.perform tl w).1.isOk = true) : ∃ a tl' w', act.perform tl w = (.ok a, tl', w') := by
  rcases hrun : act.perform tl w with ⟨fault | a, tl', w'⟩
  · rw [hrun] at h
    cases h
  · exact ⟨a, tl', w', rfl⟩

/-- A clip that joins the one on the first track of the sample, which starts when it does. -/
def sampleJoining : Act Timeline Clip :=
  addClip (.dict [(.text "id", .text "r"), (.text "type", .text "text")]) (.text "t") (.int 2000)
    (.text "c") (.int 1000)

/-- The clip on the second track of the sample is moved beyond the end, under the id that it has. -/
def sampleMoving : Act Timeline Clip :=
  updateClip (.text "b") (.dict [(.text "id", .text "b"), (.text "start_time", .int 80000)])

/-- Both succeed on the sample, the first one within its length. -/
theorem clip_placed_of_steps_sample :
    sampleBefore.duration.whole? = some 66000
      ∧ (∃ c tl' w', sampleJoining.perform sampleBefore default = (.ok c, tl', w')
        ∧ tl'.duration.whole? = some 66000
        ∧ ∃ above t below early late, Added sampleBefore (.text "t") c above t below early late tl')
      ∧ ∃ c tl' w', sampleMoving.perform sampleBefore default = (.ok c, tl', w')
        ∧ tl'.duration.whole? = some 149000
        ∧ ∃ old, ∃ s : Place sampleBefore (.text "b") old, ∃ early late,
          Changed s c early late tl' := by
  have hreached : Relation.ReflTransGen (Step Command.Whole) (ofDuration (.int 5000)) sampleBefore :=
    steps_foldl (by simp [sampleStart, Command.Whole, Value.isFloat]) default
  obtain ⟨-, hadds, hchanges⟩ := clip_placed_of_steps hreached
  refine ⟨by decide +kernel, ?_, ?_⟩
  · have hok : (sampleJoining.perform sampleBefore default).1.isOk = true := by decide +kernel
    have hlength : (sampleJoining.perform sampleBefore default).2.1.duration.whole? = some 66000 := by
      decide +kernel
    obtain ⟨c, tl', w', hrun⟩ := exists_perform_eq hok
    rw [hrun] at hlength
    refine ⟨c, tl', w', hrun, hlength, hadds _ _ _ _ _ _ _ _ _ ?_ hrun⟩
    simp [Command.Whole, Value.isFloat]
  · have hok : (sampleMoving.perform sampleBefore default).1.isOk = true := by decide +kernel
    have hlength : (sampleMoving.perform sampleBefore default).2.1.duration.whole? = some 149000 := by
      decide +kernel
    obtain ⟨c, tl', w', hrun⟩ := exists_perform_eq hok
    rw [hrun] at hlength
    have hwhole : Command.Whole (.updateClip (.text "b")
        (.dict [(.text "id", .text "b"), (.text "start_time", .int 80000)])) := by
      refine ⟨fun fs hfs => ?_, fun asked hasked => ?_⟩
      · rw [← Value.dict.inj hfs]
        exact List.pairwise_pair.mpr (by decide)
      · rw [← Except.ok.inj hasked]
        decide
    obtain ⟨old, s, early, late, hchanged, -⟩ := hchanges _ _ _ _ _ _ hwhole hrun
    exact ⟨c, tl', w', hrun, hlength, old, s, early, late, hchanged⟩

end Timeline

end Overlay
