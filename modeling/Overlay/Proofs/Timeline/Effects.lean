import Overlay.Proofs.Timeline.Outcomes

/-!
# Effects on the row of all clips

An operation leaves clips out, puts one clip among the others, or changes one of them where it stands.
What only depends on the row of all clips is read from these few effects.

## Main definitions
- `Timeline.Animated`: the animations that an operation gives to a clip
- `Timeline.RowChange`: what an operation does to the row of all clips

## Main statements
- `Timeline.Animated.exists_forall`: what holds of all animations of a clip goes on to hold
- `Timeline.Outcome.rowChange`: every outcome is one of these effects
- `Timeline.RowChange.nodup_labels`: clips stay called differently
-/

namespace Overlay.Timeline

variable {tl tl' : Timeline} {command : Command} {α : Type}

/-! ## Section 1: Animations of a clip -/

/-- The animations that an operation gives to a clip. -/
inductive Animated : Command → Clip → Value → Prop where
  | add {clipId animation : Value} {c : Clip} {items : List Value} (hlist : c.animations = .list items) :
      Animated (.addAnimation clipId animation) c (.list (items ++ [animation]))
  | insert {clipId index animation : Value} {c : Clip} {items : List Value} (n : Nat)
      (hlist : c.animations = .list items) :
      Animated (.insertAnimation clipId index animation) c (.list (insertAt items n animation))
  /-- One is taken out, for good or to be put elsewhere. -/
  | remove (command : Command) {c : Clip} {items : List Value} (i : Nat)
      (hlist : c.animations = .list items) : Animated command c (.list (items.eraseIdx i))
  | update {clipId id updates : Value} {c : Clip} {items : List Value} {i : Nat} {old new : Fields}
      (hitems : c.animations.items = .ok items) (hplace : animationPlace id items = .ok (some i))
      (hcheck : Segment.checkUpdate updates = .ok ())
      (hold : (items.getD i .none).toFields = .ok old) (hnew : updates.toFields = .ok new) :
      Animated (.updateAnimation clipId id updates) c
        (c.animations.setItem i (.dict (Fields.merge old new)))
  | move {clipId id index : Value} {c : Clip} {items : List Value} {i : Nat} (n : Nat)
      (hlist : c.animations = .list items) (hplace : animationPlace id items = .ok (some i)) :
      Animated (.moveAnimation clipId id index) c
        (.list (insertAt (items.eraseIdx i) n (items.getD i .none)))

/-- The animation that an operation brings in. -/
def Command.newAnimation? : Command → Option Value
  | .addAnimation _ animation => some animation
  | .insertAnimation _ _ animation => some animation
  | _ => none

theorem mem_insertAt_iff {items : List α} {place : Nat} {item a : α} :
    a ∈ insertAt items place item ↔ a = item ∨ a ∈ items := by
  rw [insertAt, List.mem_append, List.mem_cons, or_left_comm, ← List.mem_append,
    List.take_append_drop]

theorem getD_mem {items : List α} {i : Nat} (h : i < items.length) (default : α) :
    items.getD i default ∈ items := by
  rw [← List.getElem_eq_getD (h := h)]
  exact List.getElem_mem h

/-- Where there is a place for an animation, it stands there. -/
theorem animationPlace_lt {id : Value} {items : List Value} {i : Nat}
    (h : animationPlace id items = .ok (some i)) : i < items.length := by
  induction items generalizing i with
  | nil => cases h
  | cons a r ih =>
    rw [animationPlace] at h
    obtain ⟨v, -, h⟩ := bind_eq_ok.mp h
    split at h
    · rw [← Option.some.inj (Except.ok.inj h)]
      exact Nat.zero_lt_succ _
    · obtain ⟨o, ho, h⟩ := bind_eq_ok.mp h
      cases o with
      | none => cases h
      | some j =>
        rw [← Option.some.inj (Except.ok.inj h), List.length_cons]
        exact Nat.succ_lt_succ (ih ho)

/-- What holds of all animations of a clip, of one that is brought in, and of one that is changed, holds
of all that an operation gives to the clip. -/
theorem Animated.exists_forall {P : Value → Prop} {c : Clip} {animations : Value} {items : List Value}
    (h : Animated command c animations) (hc : c.animations = .list items) (hall : ∀ a ∈ items, P a)
    (hgiven : ∀ a, command.newAnimation? = some a → P a)
    (hchanged : ∀ clipId id updates i old new, command = .updateAnimation clipId id updates →
      animationPlace id items = .ok (some i) → Segment.checkUpdate updates = .ok () →
      (items.getD i .none).toFields = .ok old → updates.toFields = .ok new →
      P (.dict (Fields.merge old new))) :
    ∃ items', animations = .list items' ∧ ∀ a ∈ items', P a := by
  have hitems : ∀ {l : List Value}, c.animations = .list l → l = items :=
    fun hl => Value.list.inj (hl.symm.trans hc)
  cases h with
  | add hlist =>
    obtain rfl := hitems hlist
    refine ⟨_, rfl, ?_⟩
    rw [List.forall_mem_append, List.forall_mem_singleton]
    exact ⟨hall, hgiven _ rfl⟩
  | insert n hlist =>
    obtain rfl := hitems hlist
    exact ⟨_, rfl, fun a ha => (mem_insertAt_iff.mp ha).elim (fun heq => heq ▸ hgiven _ rfl) (hall a)⟩
  | remove _ i hlist =>
    obtain rfl := hitems hlist
    exact ⟨_, rfl, fun a ha => hall a (List.mem_of_mem_eraseIdx ha)⟩
  | update hwalked hplace hcheck hold hnew =>
    -- what was walked through is the list itself
    obtain rfl := Value.eq_of_items hc hwalked
    rw [hc]
    refine ⟨_, rfl, fun a ha => ?_⟩
    rcases List.mem_or_eq_of_mem_set ha with ha | rfl
    · exact hall a ha
    · exact hchanged _ _ _ _ _ _ rfl hplace hcheck hold hnew
  | move n hlist hplace =>
    -- the one that is put back was one of them
    obtain rfl := hitems hlist
    refine ⟨_, rfl, fun a ha => ?_⟩
    rcases mem_insertAt_iff.mp ha with rfl | ha
    · exact hall _ (getD_mem (animationPlace_lt hplace) _)
    · exact hall a (List.mem_of_mem_eraseIdx ha)

/-! ## Section 2: Effects -/

/-- What an operation does to the row of all clips. -/
inductive RowChange (tl : Timeline) : Command → List Clip → Prop where
  /-- Clips are left out or change places. -/
  | drop {command : Command} {l : List Clip} (h : l.Subperm tl.clips) : RowChange tl command l
  | insert {resource trackId time id duration : Value} {c : Clip} {l : List Clip}
      (h : NewClip tl resource trackId time id duration c) (hperm : l.Perm (c :: tl.clips)) :
      RowChange tl (.addClip resource trackId time id duration) l
  | revise {id updates : Value} {old : Clip} {values : Fields} {l : List Clip}
      (h : Revision tl id updates old values)
      (hperm : l.Perm (tl.changeClip id fun _ => old.merge values).clips) :
      RowChange tl (.updateClip id updates) l
  | animate {command : Command} {clipId animations : Value} {c : Clip} {l : List Clip}
      (hfind : tl.findClip? clipId = some c) (h : Animated command c animations)
      (hclips : l = (tl.animate clipId animations).clips) : RowChange tl command l

theorem RowChange.of_eq {l : List Clip} (h : l = tl.clips) : RowChange tl command l :=
  .drop (h ▸ List.Subperm.refl _)

theorem HalfDone.rowChange {fault : Fault} (h : HalfDone tl command fault tl') :
    RowChange tl command tl'.clips := by
  cases h with
  | addClip h => exact .insert h (clips_place_perm h.track_isSome _)
  | updateClip h => exact .revise h (clips_resort_perm h.found _)
  | moveAnimation hfind hlist => exact .animate hfind (.remove _ _ hlist) rfl

/-- Every outcome is one of these effects. -/
theorem Outcome.rowChange {r : Result Value} (h : Outcome tl command r tl') :
    RowChange tl command tl'.clips := by
  cases h with
  | refused => exact .of_eq rfl
  | halfDone h => exact h.rowChange
  | idle => exact .of_eq rfl
  | addTrack => exact .of_eq (by simp [clips])
  | removeTrack => exact .drop ((eraseFirst_sublist _ _).flatMap _).subperm
  | editTrack hedit => exact .of_eq (clips_changeTrack_eq (clips_of_trackEdit? hedit) tl _)
  | addClip h => exact .insert h (clips_place_perm h.track_isSome _)
  | removeClip =>
    refine .drop (List.Sublist.subperm ?_)
    split
    · exact clips_dropClip_sublist (tl.select .none) _
    · exact clips_dropClip_sublist tl _
  | removeClipsOf resourceId =>
    have hsub := clips_dropShowing_sublist (tl.deselect (tl.clips.filter (shows resourceId))) resourceId
    rw [clips_deselect] at hsub
    exact .drop hsub.subperm
  | updateClip h => exact .revise h (List.Perm.refl _)
  | moveClip h => exact .revise h (clips_resort_perm h.found _)
  | setCurrentTime => exact .of_eq rfl
  | setSelectedClip => exact .of_eq rfl
  | setSelectedAnimation => exact .of_eq rfl
  | addAnimation hfind hlist => exact .animate hfind (.add hlist) rfl
  | insertAnimation hfind hlist => exact .animate hfind (.insert _ hlist) rfl
  | removeAnimation hfind hlist =>
    exact .animate hfind (.remove _ _ hlist) (clips_deselectAnimation _ _)
  | updateAnimation hfind hitems hplace hcheck hold hnew =>
    exact .animate hfind (.update hitems hplace hcheck hold hnew) rfl
  | moveAnimation hfind hlist hplace => exact .animate hfind (.move _ hlist hplace) rfl

/-! ## Section 3: Names in scripts -/

/-- Where no clip is called by a name, all clips are called otherwise. -/
theorem label_ne_of_clipCalled {name : String} {clips : List Clip}
    (h : clipCalled name clips = .ok none) : ∀ c ∈ clips, c.label ≠ name := by
  induction clips with
  | nil => exact fun c hc => nomatch hc
  | cons c r ih =>
    rw [clipCalled] at h
    obtain ⟨own, hown, h⟩ := bind_eq_ok.mp h
    split at h
    · cases h
    · next hdiffers =>
      obtain rfl := eq_identifier_of_identifierOf hown
      exact List.forall_mem_cons.mpr ⟨fun heq => hdiffers (beq_iff_eq.mpr heq), ih h⟩

/-- An id that may be taken leads to a new identifier. -/
theorem label_ne_of_checkClipId {id : Value} (h : checkClipId tl id = .ok ()) :
    ∀ c ∈ tl.clips, c.label ≠ identifier id := by
  unfold checkClipId at h
  split at h
  · cases h
  · obtain ⟨name, hname, h⟩ := bind_eq_ok.mp h
    obtain ⟨found, hfound, h⟩ := bind_eq_ok.mp h
    obtain rfl := eq_identifier_of_identifierOf hname
    cases found with
    | none => exact label_ne_of_clipCalled hfound
    | some other => cases h

/-- Clips stay called differently, if changed clips are called as they were. -/
theorem RowChange.nodup_labels {l : List Clip} (h : RowChange tl command l)
    (hkeep : ∀ {id updates old values}, command = .updateClip id updates →
      Revision tl id updates old values → (old.merge values).label = old.label)
    (htl : (tl.clips.map Clip.label).Nodup) : (l.map Clip.label).Nodup := by
  cases h with
  | drop h => exact nodup_labels_of_subperm htl h
  | insert h hperm => exact nodup_labels_of_insert htl (label_ne_of_checkClipId h.free) hperm
  | revise h hperm =>
    obtain ⟨s⟩ := exists_place h.found
    refine nodup_labels_of_subperm ?_ hperm.subperm
    exact nodup_labels_of_replace htl s.timeline_clips (hkeep rfl h) (s.clips_changeClip _)
  | animate hfind _ hclips =>
    obtain ⟨s⟩ := exists_place hfind
    rw [hclips, Timeline.animate, s.clips_changeClip]
    exact nodup_labels_of_replace htl s.timeline_clips (by simp [Clip.label]) rfl

end Overlay.Timeline
