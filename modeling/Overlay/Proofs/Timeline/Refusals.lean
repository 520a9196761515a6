import Overlay.Proofs.Timeline.Extent

/-!
# Operations that fail

An operation that stops with a fault leaves the timeline as it was, apart from three operations that
may stop behind their first change.  Where all times and places are whole numbers, none of the three
does.

## Main definitions
- `Timeline.Command.Placed`: operations that are given whole numbers as places

## Main statements
- `Timeline.HalfDone.exists_surroundings`: the three operations do stop half done
- `Timeline.changed_of_error_iff`: when an operation that fails changes something
- `Timeline.after_eq_of_error`: on whole numbers, an operation that fails changes nothing
-/

namespace Overlay.Timeline

open Act

variable {tl tl' : Timeline} {command : Command} {fault : Fault} {α : Type}

/-! ## Section 1: Operations that stop half done -/

theorem perform_requireTrack {id : Value} {t : Track} (h : tl.findTrack? id = some t)
    (w : Surroundings) : (requireTrack id).perform tl w = (.ok t, tl, w) := by
  simp [requireTrack, perform_bind, h]

theorem perform_requireClip {id : Value} {c : Clip} (h : tl.findClip? id = some c)
    (w : Surroundings) : (requireClip id).perform tl w = (.ok c, tl, w) := by
  simp [requireClip, perform_bind, h]

theorem perform_extendTo {c : Clip} (h : tl.extent c = .error fault) (w : Surroundings) :
    (extendTo c).perform tl w = (.error fault, tl, w) := by
  rw [extent] at h
  cases hstop : c.start.plus c.duration with
  | error => simp_all [extendTo, perform_bind]
  | ok stop =>
    cases hless : tl.duration.lessThan stop with
    | error => simp_all [extendTo, perform_bind]
    | ok less => cases less <;> simp_all [extendTo, perform_bind]

theorem Revision.perform_updateClip {id updates : Value} {old : Clip} {values : Fields}
    (h : Revision tl id updates old values) (hmoves : moves values = true)
    (hend : tl.extent (old.merge values) = .error fault) (w : Surroundings) :
    (updateClip id updates).perform tl w = (.error fault, tl.resort id (old.merge values), w) := by
  -- the length of the timeline is the same before and behind the move
  have hresort : (tl.resort id (old.merge values)).extent (old.merge values) = .error fault := hend
  have hextend := perform_extendTo hresort w
  simp only [moves, Bool.or_eq_true] at hmoves
  simp [updateClip, perform_bind, perform_requireClip h.found, h.fixed, h.values, hmoves, hextend]

theorem perform_moveAnimation {clipId id index : Value} {c : Clip} {items : List Value} {i : Nat}
    (hfind : tl.findClip? clipId = some c) (hlist : c.animations = .list items)
    (hplace : animationPlace id items = .ok (some i))
    (hindex : placeIn index (items.eraseIdx i).length = .error fault) (w : Surroundings) :
    (moveAnimation clipId id index).perform tl w
      = (.error fault, tl.animate clipId (.list (items.eraseIdx i)), w) := by
  simp [moveAnimation, perform_bind, perform_requireClip hfind, hlist, Value.items, Value.listed, hplace,
    hindex, setAnimations, animate]

theorem NewClip.eq_mk {resource trackId time id duration : Value} {c : Clip}
    (h : NewClip tl resource trackId time id duration c) :
    ⟨c.id, c.resourceId, c.name, c.start, c.duration, trackId, .list [], []⟩ = c := by
  rw [← h.trackId_eq, ← h.animations, ← h.extra]

theorem NewClip.exists_perform {resource trackId time id duration : Value} {c : Clip}
    (h : NewClip tl resource trackId time id duration c) (hend : tl.extent c = .error fault) :
    ∃ w v, (addClip resource trackId time id duration).perform tl w
      = (.error fault, tl.place trackId c, v) := by
  obtain ⟨t, ht⟩ := Option.isSome_iff_exists.mp h.track_isSome
  have hnumber := Option.isSome_iff_ne_none.mp h.number
  have hplace : (tl.place trackId c).extent c = .error fault := hend
  have hextend := perform_extendTo hplace
  unfold addClip
  extract_lets next
  obtain ⟨w, v, hperform⟩ := h.taken.exists_perform next tl
  refine ⟨w, v, ?_⟩
  simp only [perform_bind, perform_requireTrack ht]
  refine hperform.trans ?_
  unfold place at hextend ⊢
  simp [next, perform_bind, h.free, h.length, h.nonneg, hnumber, h.start, h.resourceId, h.name, h.eq_mk,
    hextend]

/-- What is left half done is left so in some surroundings. -/
theorem HalfDone.exists_surroundings (h : HalfDone tl command fault tl') :
    ∃ w, ((run command).perform tl w).1 = .error fault ∧ tl.after w command = tl' := by
  cases h with
  | addClip h hend =>
    obtain ⟨w, v, hperform⟩ := h.exists_perform hend
    refine ⟨w, ?_⟩
    simp [run, hperform, after]
  | updateClip h hmoves hend =>
    refine ⟨default, ?_⟩
    simp [run, h.perform_updateClip hmoves hend, after]
  | moveAnimation hfind hlist hplace hindex =>
    refine ⟨default, ?_⟩
    simp [run, silent, perform_moveAnimation hfind hlist hplace hindex, after]

theorem Outcome.eq_or_halfDone (h : Outcome tl command (.error fault) tl') :
    tl' = tl ∨ HalfDone tl command fault tl' := by
  cases h with
  | refused => exact Or.inl rfl
  | halfDone h => exact Or.inr h

/-- An operation that fails leaves another timeline behind in three ways only: a clip was added or
moved whose end cannot be told, or an animation was taken out that cannot be put to its place. -/
theorem changed_of_error_iff :
    (∃ w, ((run command).perform tl w).1 = .error fault ∧ tl.after w command = tl') ∧ tl' ≠ tl
      ↔ HalfDone tl command fault tl' ∧ tl' ≠ tl := by
  constructor
  · rintro ⟨⟨w, herror, rfl⟩, hne⟩
    have houtcome := run_outcome tl command w
    rw [herror] at houtcome
    exact ⟨houtcome.eq_or_halfDone.resolve_left hne, hne⟩
  · rintro ⟨h, hne⟩
    exact ⟨h.exists_surroundings, hne⟩

/-- A timeline with one track. -/
def sampleTrack : Timeline :=
  empty.after default (.addTrack .none (.text "t") (.bool true) (.bool false))

/-- A clip whose start is no finite double is to last one and a half milliseconds. -/
def sampleOverflow : Command :=
  .addClip (.dict [(.text "id", .text "r"), (.text "type", .text "text")]) (.text "t")
    (.int (10 ^ 309)) (.text "c") (.float (Double.ofQuotient 3 2))

theorem eq_tooLarge {r : Result α} (h : (match r with | .error .tooLarge => true | _ => false) = true) :
    r = .error .tooLarge := by
  split at h
  · rfl
  · cases h

/-- The clip is refused and stays on the track. -/
theorem changed_of_error_sample :
    ((run sampleOverflow).perform sampleTrack default).1 = .error .tooLarge
      ∧ sampleTrack.clips.length = 0 ∧ (sampleTrack.after default sampleOverflow).clips.length = 1
      ∧ HalfDone sampleTrack sampleOverflow .tooLarge (sampleTrack.after default sampleOverflow) := by
  have herror : ((run sampleOverflow).perform sampleTrack default).1 = .error .tooLarge :=
    eq_tooLarge (by decide +kernel)
  have hbefore : sampleTrack.clips.length = 0 := by decide +kernel
  have hafter : (sampleTrack.after default sampleOverflow).clips.length = 1 := by decide +kernel
  refine ⟨herror, hbefore, hafter, (changed_of_error_iff.mp ⟨⟨default, herror, rfl⟩, ?_⟩).1⟩
  intro heq
  rw [heq, hbefore] at hafter
  cases hafter

/-- Also what is left half done differs in its tracks alone. -/
theorem HalfDone.eq_with_tracks (h : HalfDone tl command fault tl') :
    tl' = { tl with tracks := tl'.tracks } := by
  cases h <;> rfl

/-! ## Section 2: Whole numbers -/

theorem exists_placeIn {index : Value} {i : Int} (h : index.whole? = some i) (length : Nat) :
    ∃ n, placeIn index length = .ok n := by
  have hlength : Value.whole? (.int length) = some (length : Int) := rfl
  obtain ⟨inside, j, hsmaller, hj⟩ : ∃ inside j, index.smaller (.int length) = .ok inside
      ∧ inside.whole? = some j := by
    rw [Value.smaller_of_whole? h hlength]
    split
    · exact ⟨_, _, rfl, hlength⟩
    · exact ⟨_, _, rfl, h⟩
  have hplace := Value.whole?_ite_pos hj
  rw [placeIn, clampedIn, hsmaller, ok_bind, Value.atLeastZero_of_whole? hj, ok_bind]
  generalize (if 0 < j then inside else Value.int 0) = place at hplace
  cases place with
  | int k => exact ⟨_, rfl⟩
  | bool b => exact ⟨_, rfl⟩
  | _ => cases hplace

/-- An operation whose place for an animation, if it has one, is a whole number. -/
def Command.Placed : Command → Prop
  | .moveAnimation _ _ index => ∃ i, index.whole? = some i
  | _ => True

/-- On whole numbers, an operation that fails changes nothing. -/
theorem Outcome.eq_of_error {length : Int} (h : Outcome tl command (.error fault) tl')
    (hc : command.Whole) (hplaced : command.Placed) (htl : tl.Within length) : tl' = tl := by
  rcases h.eq_or_halfDone with heq | hhalf
  · exact heq
  · obtain ⟨clipId, id, index, c, items, i, rfl, -, hindex, -⟩ := hhalf.exists_animate hc htl
    obtain ⟨j, hj⟩ := hplaced
    obtain ⟨n, hn⟩ := exists_placeIn hj (items.eraseIdx i).length
    rw [hn] at hindex
    cases hindex

theorem after_eq_of_error {n : Int} (hn : 0 ≤ n)
    (hsteps : Relation.ReflTransGen (Step Command.Whole) (ofDuration (.int n)) tl)
    (hc : command.Whole) (hplaced : command.Placed) {w : Surroundings}
    (herror : ((run command).perform tl w).1 = .error fault) : tl.after w command = tl := by
  obtain ⟨length, -, hwithin⟩ := within_of_steps hsteps (within_ofDuration hn)
  have houtcome := run_outcome tl command w
  rw [herror] at houtcome
  exact houtcome.eq_of_error hc hplaced hwithin

end Overlay.Timeline
