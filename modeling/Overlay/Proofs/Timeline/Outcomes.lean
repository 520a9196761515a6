import Overlay.Proofs.Acts
import Overlay.Proofs.Fields
import Overlay.Proofs.Timeline.Rows
import Overlay.Timeline.Editing
import Mathlib.Data.List.Flatten
import Mathlib.Logic.Relation

/-!
# What operations come to

Each operation on a timeline is refused, or succeeds with a change that is known, or stops half done.
`Outcome` lists all of this, one rule for each way an operation can end; whatever is true of every
outcome is true of the operations.

## Main definitions
- `Timeline.NewClip`, `Timeline.Revision`: what is checked before a clip is placed or changed
- `Timeline.extent`: how long a timeline is that has to reach the end of a clip
- `Timeline.HalfDone`: operations that stop behind their first change
- `Timeline.Outcome`: all that an operation can come to
- `Timeline.Step`: one operation leads from one timeline to another
- `Timeline.StepBy`: the same for operations that are allowed on some timelines only

## Main statements
- `Timeline.run_outcome`: every operation comes to one of its outcomes
- `Timeline.steps_preserve`: what every outcome preserves, rows of operations preserve
- `Timeline.stepsBy_preserve`: the same for operations that are allowed
-/

namespace Overlay.Timeline

variable {tl : Timeline} {α : Type}

/-! ## Section 1: Changes -/

/-- How long the timeline is once it reaches the end of a clip. -/
def extent (tl : Timeline) (clip : Clip) : Result Value := do
  let stop ← clip.start.plus clip.duration
  if ← tl.duration.lessThan stop then stop.plus (.int extension) else return tl.duration

/-- The timeline with a clip behind the others of a track, which is then sorted in. -/
def place (tl : Timeline) (trackId : Value) (clip : Clip) : Timeline :=
  tl.changeTrack trackId fun t => { t with clips := t.clips ++ [clip] }.sorted

/-- The timeline without the first clip of an id. -/
def dropClip (tl : Timeline) (id : Value) : Timeline :=
  tl.changeTrackOf id fun t => { t with clips := eraseFirst (isClip id) t.clips }

/-- The timeline without the clips of a resource. -/
def dropShowing (tl : Timeline) (resourceId : Value) : Timeline :=
  { tl with
    tracks := tl.tracks.map fun t => { t with clips := t.clips.filter fun c => !shows resourceId c } }

/-- The timeline with other animations for the first clip of an id. -/
def animate (tl : Timeline) (clipId animations : Value) : Timeline :=
  tl.changeClip clipId fun c => { c with animations := animations }

/-- The timeline without a selection, if what is selected is among some clips. -/
def deselect (tl : Timeline) (gone : List Clip) : Timeline :=
  if gone.any fun c => tl.selectedClip.same c.id then tl.select .none else tl

/-- The timeline without a selected animation, if that has an id. -/
def deselectAnimation (tl : Timeline) (id : Value) : Timeline :=
  if tl.selectedAnimation.same id then { tl with selectedAnimation := .none } else tl

theorem deselect_cases (tl : Timeline) (gone : List Clip) :
    tl.deselect gone = tl ∨ tl.deselect gone = tl.select .none := by
  unfold deselect
  split
  · exact Or.inr rfl
  · exact Or.inl rfl

theorem deselectAnimation_cases (tl : Timeline) (id : Value) :
    tl.deselectAnimation id = tl
      ∨ tl.deselectAnimation id = { tl with selectedAnimation := .none } := by
  unfold deselectAnimation
  split
  · exact Or.inr rfl
  · exact Or.inl rfl

@[simp] theorem tracks_deselect (tl : Timeline) (gone : List Clip) :
    (tl.deselect gone).tracks = tl.tracks := by
  rcases tl.deselect_cases gone with h | h <;> rw [h]
  rfl

@[simp] theorem clips_deselect (tl : Timeline) (gone : List Clip) :
    (tl.deselect gone).clips = tl.clips := by
  rw [clips, tracks_deselect, clips]

@[simp] theorem tracks_deselectAnimation (tl : Timeline) (id : Value) :
    (tl.deselectAnimation id).tracks = tl.tracks := by
  rcases tl.deselectAnimation_cases id with h | h <;> rw [h]

@[simp] theorem clips_deselectAnimation (tl : Timeline) (id : Value) :
    (tl.deselectAnimation id).clips = tl.clips := by
  rw [clips, tracks_deselectAnimation, clips]

/-! ## Section 2: The row of all clips -/

theorem sorted_perm (t : Track) : t.sorted.clips.Perm t.clips :=
  List.mergeSort_perm t.clips _

/-- A placed clip joins the others. -/
theorem clips_place_perm {trackId : Value} (h : (tl.findTrack? trackId).isSome) (c : Clip) :
    (tl.place trackId c).clips.Perm (c :: tl.clips) := by
  obtain ⟨t, ht⟩ := Option.isSome_iff_exists.mp h
  obtain ⟨above, below, htracks, hplace⟩ :=
    exists_changeTrack ht fun t => { t with clips := t.clips ++ [c] }.sorted
  have hsorted : ({ t with clips := t.clips ++ [c] }.sorted).clips.Perm (c :: t.clips) :=
    (sorted_perm _).trans List.perm_append_comm
  rw [place, hplace, clips, clips, htracks]
  simp only [List.flatMap_append, List.flatMap_cons]
  exact ((hsorted.append_right _).append_left _).trans List.perm_middle

/-- A clip that is sorted in has taken the place of the one it was. -/
theorem clips_resort_perm {id : Value} {old : Clip} (h : tl.findClip? id = some old) (c : Clip) :
    (tl.resort id c).clips.Perm (tl.changeClip id fun _ => c).clips := by
  obtain ⟨s⟩ := exists_place h
  rw [resort, s.changeTrackOf, s.clips_changeClip, clips, s.updateClips]
  simp only [List.flatMap_append, List.flatMap_cons, Place.front, Place.back, List.append_assoc]
  refine List.Perm.append_left _ (((sorted_perm _).append_right _).trans (List.Perm.of_eq ?_))
  simp

theorem clips_dropClip_sublist (tl : Timeline) (id : Value) :
    (tl.dropClip id).clips.Sublist tl.clips := by
  rcases clips_updateFirst (holdsClip id)
    (fun t => { t with clips := eraseFirst (isClip id) t.clips }) tl.tracks with
    heq | ⟨front, t, back, -, hclips, hchanged⟩
  · rw [dropClip, changeTrackOf, clips, heq, clips]
  · rw [dropClip, changeTrackOf, clips, hchanged, clips, hclips]
    exact ((eraseFirst_sublist (isClip id) t.clips).append_left front).append_right back

theorem clips_dropShowing_sublist (tl : Timeline) (resourceId : Value) :
    (tl.dropShowing resourceId).clips.Sublist tl.clips := by
  rw [dropShowing, clips, List.flatMap_map]
  exact List.Sublist.flatMap_right _ fun t _ => List.filter_sublist

theorem clips_changeTrack_eq {f : Track → Track} (hf : ∀ t, (f t).clips = t.clips) (tl : Timeline)
    (id : Value) : (tl.changeTrack id f).clips = tl.clips := by
  rw [changeTrack, clips, clips, List.flatMap_def, List.flatMap_def,
    map_updateFirst fun t _ _ => hf t]

/-! ## Section 3: Checks -/

/-- A clip that may be placed: its track is there, its id is free, and its times are times. -/
structure NewClip (tl : Timeline) (resource trackId time id duration : Value) (c : Clip) : Prop where
  track_isSome : (tl.findTrack? trackId).isSome
  taken : Act.Taken "clip" id c.id
  free : checkClipId tl c.id = .ok ()
  length : clipDuration resource duration = .ok c.duration
  nonneg : requireNonNegative c.duration "clip duration" = .ok ()
  number : time.plainNumber?.isSome
  start : time.atLeastZero = .ok c.start
  resourceId : resource.field "id" = .ok c.resourceId
  name : Resource.itemName resource = .ok c.name
  trackId_eq : c.trackId = trackId
  animations : c.animations = .list []
  extra : c.extra = []

/-- A change of a clip that may be made: the clip is there, and the fields are those of the update. -/
structure Revision (tl : Timeline) (id updates : Value) (old : Clip) (values : Fields) : Prop where
  found : tl.findClip? id = some old
  fixed : checkFixed old updates fixedFields = .ok ()
  values : clipUpdates updates = .ok values

/-- Whether an update is about the place of a clip in time. -/
def moves (values : Fields) : Bool :=
  Fields.has values "start_time" || Fields.has values "duration"

/-! ## Section 4: Outcomes -/

/-- Operations that stop with a fault behind their first change, with what they leave. -/
inductive HalfDone (tl : Timeline) : Command → Fault → Timeline → Prop where
  /-- A clip stands on its track, but where it ends cannot be told. -/
  | addClip {resource trackId time id duration : Value} {c : Clip} {fault : Fault}
      (h : NewClip tl resource trackId time id duration c) (hend : tl.extent c = .error fault) :
      HalfDone tl (.addClip resource trackId time id duration) fault (tl.place trackId c)
  /-- A clip was moved, but where it ends now cannot be told. -/
  | updateClip {id updates : Value} {old : Clip} {values : Fields} {fault : Fault}
      (h : Revision tl id updates old values) (hmoves : moves values = true)
      (hend : tl.extent (old.merge values) = .error fault) :
      HalfDone tl (.updateClip id updates) fault (tl.resort id (old.merge values))
  /-- An animation was taken out, but there is no such place to put it. -/
  | moveAnimation {clipId id index : Value} {c : Clip} {items : List Value} {i : Nat} {fault : Fault}
      (hfind : tl.findClip? clipId = some c) (hlist : c.animations = .list items)
      (hplace : animationPlace id items = .ok (some i))
      (hindex : placeIn index (items.eraseIdx i).length = .error fault) :
      HalfDone tl (.moveAnimation clipId id index) fault
        (tl.animate clipId (.list (items.eraseIdx i)))

/-- Operations that succeed without a change, with their answers: those that only look, and those
that find nothing to change. -/
def Idle (tl : Timeline) : Command → Value → Prop
  | .findTrack id, v => v = ((tl.findTrack? id).map Track.toValue).getD .none
  | .findClip id, v => v = ((tl.findClip? id).map Clip.toValue).getD .none
  | .clips, v => v = .list (tl.clips.map Clip.toValue)
  | .removeTrack id, v => tl.findTrack? id = none ∧ v = .none
  | .removeClip id, v => tl.findClip? id = none ∧ v = .none
  | .removeAnimation clipId id, v =>
    (∃ c items, tl.findClip? clipId = some c ∧ c.animations.items = .ok items
      ∧ animationPlace id items = .ok none) ∧ v = .none
  | .updateAnimation clipId id _, v =>
    (∃ c items, tl.findClip? clipId = some c ∧ c.animations.items = .ok items
      ∧ animationPlace id items = .ok none) ∧ v = .none
  | _, _ => False

/-- The track that an operation on how tracks are shown is about, and what it does to it. -/
def Command.trackEdit? : Command → Option (Value × (Track → Track))
  | .toggleTrack id => some (id, fun t => { t with expanded := !t.expanded })
  | .setTrackVisible id v => some (id, fun t => { t with visible := v.holds })
  | .setTrackLocked id v => some (id, fun t => { t with locked := v.holds })
  | _ => none

theorem clips_of_trackEdit? {command : Command} {id : Value} {f : Track → Track}
    (h : command.trackEdit? = some (id, f)) (t : Track) : (f t).clips = t.clips := by
  unfold Command.trackEdit? at h
  split at h <;> cases h <;> rfl

theorem id_of_trackEdit? {command : Command} {id : Value} {f : Track → Track}
    (h : command.trackEdit? = some (id, f)) (t : Track) : (f t).id = t.id := by
  unfold Command.trackEdit? at h
  split at h <;> cases h <;> rfl

/-- What an operation can come to: its answer or fault, and the timeline that it leaves. -/
inductive Outcome (tl : Timeline) : Command → Result Value → Timeline → Prop where
  | refused (command : Command) (fault : Fault) : Outcome tl command (.error fault) tl
  | halfDone {command : Command} {fault : Fault} {tl' : Timeline}
      (h : HalfDone tl command fault tl') : Outcome tl command (.error fault) tl'
  | idle {command : Command} {v : Value} (h : Idle tl command v) : Outcome tl command (.ok v) tl
  | addTrack {name id visible locked v : Value} (hid : Act.Taken "track" id v)
      (hfree : tl.findTrack? v = none) :
      Outcome tl (.addTrack name id visible locked) (.ok v)
        { tl with tracks := tl.tracks ++
            [⟨v, if name.isNone then tl.trackName else name, [], visible.holds, locked.holds, false⟩] }
  | removeTrack {id : Value} {t : Track} (hfind : tl.findTrack? id = some t) :
      Outcome tl (.removeTrack id) (.ok .none)
        { tl.deselect t.clips with tracks := eraseFirst (isTrack id) tl.tracks }
  | editTrack {command : Command} {id : Value} {f : Track → Track}
      (hedit : command.trackEdit? = some (id, f)) (hfind : (tl.findTrack? id).isSome) :
      Outcome tl command (.ok .none) (tl.changeTrack id f)
  | addClip {resource trackId time id duration length : Value} {c : Clip}
      (h : NewClip tl resource trackId time id duration c) (hend : tl.extent c = .ok length) :
      Outcome tl (.addClip resource trackId time id duration) (.ok c.toValue)
        { tl.place trackId c with duration := length }
  | removeClip {id : Value} {c : Clip} (hfind : tl.findClip? id = some c) :
      Outcome tl (.removeClip id) (.ok .none)
        ((if tl.selectedClip.same id then tl.select .none else tl).dropClip id)
  | removeClipsOf (resourceId : Value) :
      Outcome tl (.removeClipsOf resourceId) (.ok (.int (tl.clips.filter (shows resourceId)).length))
        ((tl.deselect (tl.clips.filter (shows resourceId))).dropShowing resourceId)
  | updateClip {id updates : Value} {old : Clip} {values : Fields}
      (h : Revision tl id updates old values) (hmoves : moves values = false) :
      Outcome tl (.updateClip id updates) (.ok (old.merge values).toValue)
        (tl.changeClip id fun _ => old.merge values)
  | moveClip {id updates length : Value} {old : Clip} {values : Fields}
      (h : Revision tl id updates old values) (hmoves : moves values = true)
      (hend : tl.extent (old.merge values) = .ok length) :
      Outcome tl (.updateClip id updates) (.ok (old.merge values).toValue)
        { tl.resort id (old.merge values) with duration := length }
  | setCurrentTime {time inside position : Value} (hinside : time.smaller tl.duration = .ok inside)
      (hposition : inside.atLeastZero = .ok position) :
      Outcome tl (.setCurrentTime time) (.ok .none) { tl with currentTime := position }
  | setSelectedClip (id : Value) :
      Outcome tl (.setSelectedClip id) (.ok .none) (tl.select id)
  | setSelectedAnimation (id : Value) :
      Outcome tl (.setSelectedAnimation id) (.ok .none) { tl with selectedAnimation := id }
  | addAnimation {clipId animation : Value} {c : Clip} {items : List Value}
      (hfind : tl.findClip? clipId = some c) (hlist : c.animations = .list items) :
      Outcome tl (.addAnimation clipId animation) (.ok .none)
        (tl.animate clipId (.list (items ++ [animation])))
  | insertAnimation {clipId index animation : Value} {c : Clip} {items : List Value} {n : Nat}
      (hfind : tl.findClip? clipId = some c) (hlist : c.animations = .list items)
      (hindex : placeIn index items.length = .ok n) :
      Outcome tl (.insertAnimation clipId index animation) (.ok .none)
        (tl.animate clipId (.list (insertAt items n animation)))
  | removeAnimation {clipId id : Value} {c : Clip} {items : List Value} {i : Nat}
      (hfind : tl.findClip? clipId = some c) (hlist : c.animations = .list items)
      (hplace : animationPlace id items = .ok (some i)) :
      Outcome tl (.removeAnimation clipId id) (.ok .none)
        ((tl.animate clipId (.list (items.eraseIdx i))).deselectAnimation id)
  | updateAnimation {clipId id updates : Value} {c : Clip} {items : List Value} {i : Nat}
      {old new : Fields} (hfind : tl.findClip? clipId = some c)
      (hitems : c.animations.items = .ok items) (hplace : animationPlace id items = .ok (some i))
      (hcheck : Segment.checkUpdate updates = .ok ())
      (hold : (items.getD i .none).toFields = .ok old) (hnew : updates.toFields = .ok new) :
      Outcome tl (.updateAnimation clipId id updates) (.ok .none)
        (tl.animate clipId (c.animations.setItem i (.dict (Fields.merge old new))))
  | moveAnimation {clipId id index : Value} {c : Clip} {items : List Value} {i n : Nat}
      (hfind : tl.findClip? clipId = some c) (hlist : c.animations = .list items)
      (hplace : animationPlace id items = .ok (some i))
      (hindex : placeIn index (items.eraseIdx i).length = .ok n) :
      Outcome tl (.moveAnimation clipId id index) (.ok .none)
        (tl.animate clipId (.list (insertAt (items.eraseIdx i) n (items.getD i .none))))

/-! ## Section 5: Tracks -/

theorem addTrack_outcome (tl : Timeline) (name id visible locked : Value) :
    (addTrack name id visible locked).Leaves tl fun r tl' =>
      Outcome tl (.addTrack name id visible locked) r tl' := by
  unfold addTrack
  extract_lets next
  refine .of_taken (f := next) fun v hid => .bind_get ?_
  dsimp only
  split
  · exact .bind_stop (.refused _ _)
  · next hfree => exact .bind_set (.of_pure (.addTrack hid (by simpa using hfree)))

theorem removeTrack_outcome (tl : Timeline) (id : Value) :
    (removeTrack id).Leaves tl fun r tl' =>
      Outcome tl (.removeTrack id) (r.map fun _ => .none) tl' := by
  unfold removeTrack
  refine .bind_get ?_
  split
  · next hnone => exact .of_pure (.idle ⟨hnone, rfl⟩)
  · next t hfind =>
    have h := Outcome.removeTrack hfind
    refine .of_set ?_
    rw [← tracks_deselect tl t.clips] at h
    exact h

theorem requireTrack_leaves (tl : Timeline) (id : Value) :
    (requireTrack id).Leaves tl fun r tl' =>
      tl' = tl ∧ ∀ t, r = .ok t → tl.findTrack? id = some t := by
  unfold requireTrack
  refine .bind_get ?_
  split
  · next t hfind => exact .of_pure ⟨rfl, fun u hu => Except.ok.inj hu ▸ hfind⟩
  · exact .of_stop ⟨rfl, fun _ h => nomatch h⟩

/-- An operation on a required track. -/
theorem requireTrack_bind {id : Value} {f : Track → Act Timeline α}
    {q : Result α → Timeline → Prop}
    (hf : ∀ t, tl.findTrack? id = some t → (f t).Leaves tl q) (hfault : ∀ fault, q (.error fault) tl) :
    (requireTrack id >>= f).Leaves tl q := by
  refine .bind (requireTrack_leaves tl id) ?_ fun fault tl' h => h.1 ▸ hfault fault
  rintro t tl' ⟨rfl, ht⟩
  exact hf t (ht t rfl)

theorem editTrack_outcome (tl : Timeline) {command : Command} {id : Value} {f : Track → Track}
    (hedit : command.trackEdit? = some (id, f)) :
    (editTrack id f).Leaves tl fun r tl' => Outcome tl command (r.map fun _ => .none) tl' := by
  unfold editTrack
  refine requireTrack_bind (fun t ht => ?_) fun fault => .refused _ _
  exact .of_modify (.editTrack hedit (by rw [ht]; rfl))

/-! ## Section 6: Clips -/

theorem requireClip_leaves (tl : Timeline) (id : Value) :
    (requireClip id).Leaves tl fun r tl' =>
      tl' = tl ∧ ∀ c, r = .ok c → tl.findClip? id = some c := by
  unfold requireClip
  refine .bind_get ?_
  split
  · next c hfind => exact .of_pure ⟨rfl, fun d hd => Except.ok.inj hd ▸ hfind⟩
  · exact .of_stop ⟨rfl, fun _ h => nomatch h⟩

/-- An operation on a required clip. -/
theorem requireClip_bind {id : Value} {f : Clip → Act Timeline α} {q : Result α → Timeline → Prop}
    (hf : ∀ c, tl.findClip? id = some c → (f c).Leaves tl q) (hfault : ∀ fault, q (.error fault) tl) :
    (requireClip id >>= f).Leaves tl q := by
  refine .bind (requireClip_leaves tl id) ?_ fun fault tl' h => h.1 ▸ hfault fault
  rintro c tl' ⟨rfl, hc⟩
  exact hf c (hc c rfl)

/-- Only the length of a timeline changes where it is to reach the end of a clip. -/
theorem extendTo_leaves (tl : Timeline) (c : Clip) :
    (extendTo c).Leaves tl fun r tl' =>
      (∃ fault, tl.extent c = .error fault ∧ r = .error fault ∧ tl' = tl)
        ∨ ∃ length, tl.extent c = .ok length ∧ r = .ok () ∧ tl' = { tl with duration := length } := by
  unfold extendTo extent
  refine .bind_ofResult (fun stop hstop => ?_) fun fault hfault => ?_
  · rw [hstop]
    simp only [ok_bind]
    refine .bind_get (.bind_ofResult (fun longer hlonger => ?_) fun fault hfault => ?_)
    · rw [hlonger]
      simp only [ok_bind]
      split
      · refine .bind_ofResult (fun length hlength => ?_) fun fault hfault => ?_
        · exact .of_set (Or.inr ⟨length, hlength, rfl, rfl⟩)
        · exact Or.inl ⟨fault, hfault, rfl, rfl⟩
      · exact .of_pure (Or.inr ⟨tl.duration, rfl, rfl, rfl⟩)
    · exact Or.inl ⟨fault, by rw [hfault, error_bind], rfl, rfl⟩
  · exact Or.inl ⟨fault, by rw [hfault, error_bind], rfl, rfl⟩

/-- A change behind which the timeline is to reach the end of a clip. -/
theorem extendTo_bind {c : Clip} {answer : α} {tl : Timeline} {q : Result α → Timeline → Prop}
    (hfault : ∀ fault, tl.extent c = .error fault → q (.error fault) tl)
    (hok : ∀ length, tl.extent c = .ok length → q (.ok answer) { tl with duration := length }) :
    (extendTo c >>= fun _ => pure answer).Leaves tl q := by
  refine .bind (extendTo_leaves tl c) ?_ ?_
  · rintro _ tl' (⟨fault, -, h, -⟩ | ⟨length, hlength, -, rfl⟩)
    · cases h
    · exact .of_pure (hok length hlength)
  · rintro fault tl' (⟨fault', hend, h, rfl⟩ | ⟨length, -, h, -⟩)
    · cases h
      exact hfault fault hend
    · cases h

theorem addClip_outcome (tl : Timeline) (resource trackId time id duration : Value) :
    (addClip resource trackId time id duration).Leaves tl fun r tl' =>
      Outcome tl (.addClip resource trackId time id duration) (r.map Clip.toValue) tl' := by
  unfold addClip
  refine requireTrack_bind (fun t ht => ?_) fun fault => .refused _ _
  extract_lets next
  refine .of_taken (f := next) fun v hid => .bind_get ?_
  refine .bind_ofResult (fun _ hfree => ?_) fun fault _ => .refused _ _
  refine .bind_ofResult (fun length hlength => ?_) fun fault _ => .refused _ _
  refine .bind_ofResult (fun _ hnonneg => ?_) fun fault _ => .refused _ _
  extract_lets put
  split
  · exact .bind_stop (.refused _ _)
  next hnumber =>
  refine .bind_ofResult (fun start hstart => ?_) fun fault _ => .refused _ _
  refine .bind_ofResult (fun resourceId hresource => ?_) fun fault _ => .refused _ _
  refine .bind_ofResult (fun name hname => ?_) fun fault _ => .refused _ _
  extract_lets c
  have hnew : NewClip tl resource trackId time id duration c :=
    ⟨by rw [ht]; rfl, hid, hfree, hlength, hnonneg,
      by simpa [Option.isSome_iff_ne_none] using hnumber, hstart, hresource, hname, rfl, rfl, rfl⟩
  refine .bind_modify (extendTo_bind ?_ ?_)
  · intro fault hend
    exact .halfDone (.addClip hnew hend)
  · intro length hend
    exact .addClip hnew hend

theorem removeClip_outcome (tl : Timeline) (id : Value) :
    (removeClip id).Leaves tl fun r tl' =>
      Outcome tl (.removeClip id) (r.map fun _ => .none) tl' := by
  unfold removeClip
  refine .bind_get ?_
  split
  · next hsome =>
    obtain ⟨c, hfind⟩ := Option.isSome_iff_exists.mp hsome
    exact .of_set (.removeClip hfind)
  · next hnone => exact .of_pure (.idle ⟨by simpa using hnone, rfl⟩)

theorem removeClipsOf_outcome (tl : Timeline) (resourceId : Value) :
    (removeClipsOf resourceId).Leaves tl fun r tl' =>
      Outcome tl (.removeClipsOf resourceId) (r.map fun n => .int (n : Nat)) tl' := by
  unfold removeClipsOf
  refine .bind_get (.bind_set (.of_pure ?_))
  have h : Outcome tl _ _ _ := .removeClipsOf resourceId
  rw [dropShowing, tracks_deselect] at h
  exact h

theorem updateClip_outcome (tl : Timeline) (id updates : Value) :
    (updateClip id updates).Leaves tl fun r tl' =>
      Outcome tl (.updateClip id updates) (r.map Clip.toValue) tl' := by
  unfold updateClip
  refine requireClip_bind (fun old hfind => ?_) fun fault => .refused _ _
  refine .bind_ofResult (fun _ hfixed => ?_) fun fault _ => .refused _ _
  refine .bind_ofResult (fun values hvalues => ?_) fun fault _ => .refused _ _
  have hrevision : Revision tl id updates old values := ⟨hfind, hfixed, hvalues⟩
  dsimp only
  split
  · next hmoves =>
    refine .bind_modify (extendTo_bind ?_ ?_)
    · intro fault hend
      exact .halfDone (.updateClip hrevision hmoves hend)
    · intro length hend
      exact .moveClip hrevision hmoves hend
  · next hmoves =>
    exact .bind_modify (.of_pure (.updateClip hrevision (by simpa [moves] using hmoves)))

/-! ## Section 7: Position and animations -/

theorem setCurrentTime_outcome (tl : Timeline) (time : Value) :
    (setCurrentTime time).Leaves tl fun r tl' =>
      Outcome tl (.setCurrentTime time) (r.map fun _ => .none) tl' := by
  unfold setCurrentTime
  refine .bind_get (.bind_ofResult (fun inside hinside => ?_) fun fault _ => .refused _ _)
  refine .bind_ofResult (fun position hposition => ?_) fun fault _ => .refused _ _
  exact .of_set (.setCurrentTime hinside hposition)

theorem addAnimation_outcome (tl : Timeline) (clipId animation : Value) :
    (addAnimation clipId animation).Leaves tl fun r tl' =>
      Outcome tl (.addAnimation clipId animation) (r.map fun _ => .none) tl' := by
  unfold addAnimation
  refine requireClip_bind (fun c hfind => ?_) fun fault => .refused _ _
  refine .bind_ofResult (fun items hlist => ?_) fun fault _ => .refused _ _
  exact .of_modify (.addAnimation hfind (Value.listed_eq_ok.mp hlist))

theorem insertAnimation_outcome (tl : Timeline) (clipId index animation : Value) :
    (insertAnimation clipId index animation).Leaves tl fun r tl' =>
      Outcome tl (.insertAnimation clipId index animation) (r.map fun _ => .none) tl' := by
  unfold insertAnimation
  refine requireClip_bind (fun c hfind => ?_) fun fault => .refused _ _
  refine .bind_ofResult (fun length hlength => ?_) fun fault _ => .refused _ _
  refine .bind_ofResult (fun place hclamped => ?_) fun fault _ => .refused _ _
  refine .bind_ofResult (fun items hlisted => ?_) fun fault _ => .refused _ _
  refine .bind_ofResult (fun n hn => ?_) fun fault _ => .refused _ _
  have hlist := Value.listed_eq_ok.mp hlisted
  obtain rfl : items.length = length := by
    rw [hlist] at hlength
    exact Except.ok.inj hlength
  have hindex : placeIn index items.length = .ok n := by
    rw [placeIn, hclamped, ok_bind, hn]
  exact .of_modify (.insertAnimation hfind hlist hindex)

theorem removeAnimation_outcome (tl : Timeline) (clipId id : Value) :
    (removeAnimation clipId id).Leaves tl fun r tl' =>
      Outcome tl (.removeAnimation clipId id) (r.map fun _ => .none) tl' := by
  unfold removeAnimation
  refine requireClip_bind (fun c hfind => ?_) fun fault => .refused _ _
  refine .bind_ofResult (fun items hitems => ?_) fun fault _ => .refused _ _
  refine .bind_ofResult (fun i hplace => ?_) fun fault _ => .refused _ _
  split
  · exact .of_pure (.idle ⟨⟨c, items, hfind, hitems, hplace⟩, rfl⟩)
  · refine .bind_ofResult (fun items' hlisted => ?_) fun fault _ => .refused _ _
    have hlist := Value.listed_eq_ok.mp hlisted
    obtain rfl := Value.eq_of_items hlist hitems
    exact .bind_modify (.of_modify (.removeAnimation hfind hlist hplace))

theorem updateAnimation_outcome (tl : Timeline) (clipId id updates : Value) :
    (updateAnimation clipId id updates).Leaves tl fun r tl' =>
      Outcome tl (.updateAnimation clipId id updates) (r.map fun _ => .none) tl' := by
  unfold updateAnimation
  refine requireClip_bind (fun c hfind => ?_) fun fault => .refused _ _
  refine .bind_ofResult (fun items hitems => ?_) fun fault _ => .refused _ _
  refine .bind_ofResult (fun i hplace => ?_) fun fault _ => .refused _ _
  split
  · exact .of_pure (.idle ⟨⟨c, items, hfind, hitems, hplace⟩, rfl⟩)
  · refine .bind_ofResult (fun _ hcheck => ?_) fun fault _ => .refused _ _
    refine .bind_ofResult (fun old hold => ?_) fun fault _ => .refused _ _
    refine .bind_ofResult (fun new hnew => ?_) fun fault _ => .refused _ _
    exact .of_modify (.updateAnimation hfind hitems hplace hcheck hold hnew)

/-- The animations of a clip are changed twice. -/
theorem animate_animate (tl : Timeline) (clipId items items' : Value) :
    (tl.animate clipId items).animate clipId items' = tl.animate clipId items' := by
  have hkeep : ∀ c : Clip, { c with animations := items }.id = c.id := fun _ => rfl
  exact changeClip_changeClip hkeep (fun c => { c with animations := items' }) tl clipId

theorem moveAnimation_outcome (tl : Timeline) (clipId id index : Value) :
    (moveAnimation clipId id index).Leaves tl fun r tl' =>
      Outcome tl (.moveAnimation clipId id index) (r.map fun _ => .none) tl' := by
  unfold moveAnimation
  refine requireClip_bind (fun c hfind => ?_) fun fault => .refused _ _
  refine .bind_ofResult (fun items hitems => ?_) fun fault _ => .refused _ _
  refine .bind_ofResult (fun i hplace => ?_) fun fault _ => .refused _ _
  split
  · exact .of_stop (.refused _ _)
  · refine .bind_ofResult (fun items' hlisted => ?_) fun fault _ => .refused _ _
    have hlist := Value.listed_eq_ok.mp hlisted
    obtain rfl := Value.eq_of_items hlist hitems
    refine .bind_modify (.bind_ofResult (fun n hindex => ?_) fun fault hindex => ?_)
    · have h := Outcome.moveAnimation hfind hlist hplace hindex
      rw [← animate_animate] at h
      exact .of_modify h
    · exact .halfDone (.moveAnimation hfind hlist hplace hindex)

/-! ## Section 8: All operations -/

theorem silent_outcome {act : Act Timeline Unit} {command : Command}
    (h : act.Leaves tl fun r tl' => Outcome tl command (r.map fun _ => .none) tl') :
    (silent act).Leaves tl fun r tl' => Outcome tl command r tl' :=
  .bind h (fun _ _ ho => .of_pure ho) fun _ _ ho => ho

theorem answer_outcome {act : Act Timeline α} {f : α → Value} {command : Command}
    (h : act.Leaves tl fun r tl' => Outcome tl command (r.map f) tl') :
    (act >>= fun a => pure (f a)).Leaves tl fun r tl' => Outcome tl command r tl' :=
  .bind h (fun _ _ ho => .of_pure ho) fun _ _ ho => ho

/-- Every operation comes to one of its outcomes. -/
theorem run_outcome (tl : Timeline) (command : Command) :
    (run command).Leaves tl fun r tl' => Outcome tl command r tl' := by
  cases command with
  | addTrack name id visible locked => exact addTrack_outcome tl name id visible locked
  | removeTrack id => exact silent_outcome (removeTrack_outcome tl id)
  | findTrack id => exact .bind_get (.of_pure (.idle rfl))
  | toggleTrack id => exact silent_outcome (editTrack_outcome tl rfl)
  | setTrackVisible id visible => exact silent_outcome (editTrack_outcome tl rfl)
  | setTrackLocked id locked => exact silent_outcome (editTrack_outcome tl rfl)
  | addClip resource trackId time id duration =>
    exact answer_outcome (addClip_outcome tl resource trackId time id duration)
  | findClip id => exact .bind_get (.of_pure (.idle rfl))
  | removeClip id => exact silent_outcome (removeClip_outcome tl id)
  | removeClipsOf resourceId => exact answer_outcome (removeClipsOf_outcome tl resourceId)
  | updateClip id updates => exact answer_outcome (updateClip_outcome tl id updates)
  | setCurrentTime time => exact silent_outcome (setCurrentTime_outcome tl time)
  | setSelectedClip id => exact silent_outcome (.of_modify (.setSelectedClip id))
  | setSelectedAnimation id => exact silent_outcome (.of_modify (.setSelectedAnimation id))
  | addAnimation clipId animation => exact silent_outcome (addAnimation_outcome tl clipId animation)
  | insertAnimation clipId index animation =>
    exact silent_outcome (insertAnimation_outcome tl clipId index animation)
  | removeAnimation clipId id => exact silent_outcome (removeAnimation_outcome tl clipId id)
  | updateAnimation clipId id updates =>
    exact silent_outcome (updateAnimation_outcome tl clipId id updates)
  | moveAnimation clipId id index => exact silent_outcome (moveAnimation_outcome tl clipId id index)
  | clips => exact .bind_get (.of_pure (.idle rfl))

/-! ## Section 9: Steps -/

/-- The timeline that an operation leaves. -/
def after (tl : Timeline) (w : Surroundings) (command : Command) : Timeline :=
  ((run command).perform tl w).2.1

/-- An operation of some kind leads from one timeline to another, with success or without. -/
def Step (p : Command → Prop) (tl tl' : Timeline) : Prop :=
  ∃ command w, p command ∧ tl.after w command = tl'

variable {p : Command → Prop} {tl' : Timeline}

theorem Step.exists_outcome (h : Step p tl tl') :
    ∃ command r, p command ∧ Outcome tl command r tl' := by
  obtain ⟨command, w, hcommand, rfl⟩ := h
  exact ⟨command, _, hcommand, run_outcome tl command w⟩

/-- What every outcome preserves, rows of operations preserve. -/
theorem steps_preserve {i : Timeline → Prop}
    (hstep : ∀ tl command r tl', p command → Outcome tl command r tl' → i tl → i tl')
    (h : Relation.ReflTransGen (Step p) tl tl') (hi : i tl) : i tl' := by
  induction h with
  | refl => exact hi
  | tail _ hlast ih =>
    obtain ⟨command, r, hcommand, houtcome⟩ := hlast.exists_outcome
    exact hstep _ command r _ hcommand houtcome ih

theorem steps_foldl {commands : List Command} (h : ∀ c ∈ commands, p c) (w : Surroundings) :
    Relation.ReflTransGen (Step p) tl (commands.foldl (after · w) tl) := by
  induction commands generalizing tl with
  | nil => exact Relation.ReflTransGen.refl
  | cons command r ih =>
    obtain ⟨hcommand, hr⟩ := List.forall_mem_cons.mp h
    exact (ih hr).head ⟨command, w, hcommand, rfl⟩

/-- An operation that is allowed on the timeline that it meets leads from this one to another, with
success or without. -/
def StepBy (q : Timeline → Command → Prop) (tl tl' : Timeline) : Prop :=
  ∃ command w, q tl command ∧ tl.after w command = tl'

variable {q : Timeline → Command → Prop}

/-- What every allowed operation preserves, rows of allowed operations preserve. -/
theorem stepsBy_preserve {i : Timeline → Prop}
    (hstep : ∀ tl command w, q tl command → i tl → i (tl.after w command))
    (h : Relation.ReflTransGen (StepBy q) tl tl') (hi : i tl) : i tl' := by
  induction h with
  | refl => exact hi
  | tail _ hlast ih =>
    obtain ⟨command, w, hcommand, rfl⟩ := hlast
    exact hstep _ command w hcommand ih

/-- Operations each of which is allowed on the timeline that the ones before it leave. -/
def Allowed (q : Timeline → Command → Prop) (w : Surroundings) : Timeline → List Command → Prop
  | _, [] => True
  | tl, command :: r => q tl command ∧ Allowed q w (tl.after w command) r

/-- What is true of each operation on every timeline is allowed as well. -/
theorem Allowed.and {q' : Timeline → Command → Prop} {commands : List Command} {w : Surroundings}
    (h : Allowed q w tl commands) (h' : ∀ command ∈ commands, ∀ tl, q' tl command) :
    Allowed (fun tl command => q tl command ∧ q' tl command) w tl commands := by
  induction commands generalizing tl with
  | nil => trivial
  | cons command r ih =>
    obtain ⟨hcommand, hr⟩ := List.forall_mem_cons.mp h'
    exact ⟨⟨h.1, hcommand tl⟩, ih h.2 hr⟩

theorem stepsBy_foldl {commands : List Command} {w : Surroundings} (h : Allowed q w tl commands) :
    Relation.ReflTransGen (StepBy q) tl (commands.foldl (after · w) tl) := by
  induction commands generalizing tl with
  | nil => exact Relation.ReflTransGen.refl
  | cons command r ih => exact (ih h.2).head ⟨command, w, h.1, rfl⟩

end Overlay.Timeline
