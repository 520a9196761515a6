import Overlay.Project.Basic
import Overlay.Proofs.Resource.Store
import Overlay.Proofs.Script.Sequences
import Overlay.Proofs.Script.Timelines
import Overlay.Proofs.Timeline.Clips

/-!
# The shots of a project

Each clip of a sound timeline that shows a sound resource has a shot, and its block is made of tidy
lines that are read as this shot.  The id of a resource may be any text, as it never reaches the
script.

## Main definitions
- `Project.shown`: the clips of visible tracks with the resources that they show

## Main statements
- `Emission.clipLines_without_id`: the id of a resource does not reach the script
- `Clip.Sound.exists_shot`: a sound clip with a sound resource has a shot
- `Clip.Sound.exists_block`: its block is read as the shot
- `Project.shownClips_eq`: the shown clips as the writer finds them
-/

namespace Overlay

open Overlay.Text Overlay.Number Overlay.Literal

attribute [local irreducible] twoTo tenTo Double.unitsInOne

/-! ## Section 1: Ids of resources -/

namespace Emission

theorem kindOf_without_id (fs : Fields) :
    kindOf (.dict (Fields.without fs "id")) = kindOf (.dict fs) := by
  unfold kindOf
  rw [Fields.look_dict, Fields.look_dict, Fields.get_without fs (by decide)]

theorem payloadLine_without_id (kind : ResourceKind) (fs : Fields) :
    payloadLine kind (Fields.without fs "id") = payloadLine kind fs := by
  have hpayload : kind.payload ≠ "id" := by
    cases kind <;> decide
  unfold payloadLine
  rw [Fields.get_without fs hpayload]

theorem attributeLines_without_id (delayed : Bool) (fs : Fields) :
    attributeLines delayed (Fields.without fs "id") = attributeLines delayed fs := by
  induction fs with
  | nil => rfl
  | cons e r ih =>
    obtain ⟨key, v⟩ := e
    unfold Fields.without at ih ⊢
    rw [List.filter_cons]
    split
    · rw [attributeLines, attributeLines, ih]
    · next hout =>
      -- the id is one of the attributes that are left out
      have hkey : key = .text "id" := Value.same_text.mp (by simpa using hout)
      rw [attributeLines, hkey, if_pos (by decide), ih]

theorem declaration_without_id (name : List Char) (clip start : Value) (fs : Fields)
    (delayed : Bool) (kind : ResourceKind) :
    declaration name clip (.dict (Fields.without fs "id")) start delayed kind
      = declaration name clip (.dict fs) start delayed kind := by
  unfold declaration
  rw [Value.toFields, Value.toFields, ok_bind, ok_bind, payloadLine_without_id,
    attributeLines_without_id]

theorem reveal_without_id (name : List Char) (start : Value) (fs : Fields) :
    reveal name start (Fields.without fs "id") = reveal name start fs := by
  unfold reveal
  rw [Fields.get_without fs (by decide)]

/-- The id of a resource does not reach the script. -/
theorem clipLines_without_id (clip : Value) (fs : Fields) :
    clipLines clip (.dict (Fields.without fs "id")) = clipLines clip (.dict fs) := by
  unfold clipLines
  simp only [kindOf_without_id, declaration_without_id, Value.toFields, ok_bind, reveal_without_id]

end Emission

/-! ## Section 2: Shots -/

/-- What can be chosen for each item of a list can be chosen for all of them. -/
theorem exists_forall₂ {α β : Type} {r : β → α → Prop} {q : β → Prop} {l : List α}
    (h : ∀ a ∈ l, ∃ b, r b a ∧ q b) : ∃ m, List.Forall₂ r m l ∧ ∀ b ∈ m, q b := by
  induction l with
  | nil => exact ⟨[], List.Forall₂.nil, fun _ hb => (nomatch hb)⟩
  | cons a t ih =>
    obtain ⟨hhead, htail⟩ := List.forall_mem_cons.mp h
    obtain ⟨b, hb, hqb⟩ := hhead
    obtain ⟨m, hm, hqm⟩ := ih htail
    exact ⟨b :: m, List.Forall₂.cons hb hm, List.forall_mem_cons.mpr ⟨hqb, hqm⟩⟩

/-- A sound segment as one of a shot. -/
theorem Segment.Sound.exists_move {segment : Value} (h : Segment.Sound segment) :
    ∃ m : Move, m.Given segment ∧ m.Writable ∧ PlainFields m.properties := by
  obtain ⟨fs, rfl, hfs⟩ := h
  obtain ⟨k, hkind⟩ := hfs.kind
  obtain ⟨n, hduration, hn⟩ := hfs.duration
  obtain ⟨d, hdelay, hd⟩ : ∃ d, (Fields.get fs "delay" = .int (d : Nat)
      ∨ Fields.get fs "delay" = .none ∧ d = 0) ∧ d < twoTo 53 := by
    rcases hfs.delay with h | ⟨d, h, hd⟩
    · exact ⟨0, Or.inr ⟨h, rfl⟩, twoTo_pos 53⟩
    · exact ⟨d, Or.inl h, hd⟩
  obtain ⟨ps, hproperties, hplain⟩ : ∃ ps, (Fields.get fs "properties" = .dict ps
      ∨ Fields.get fs "properties" = .none ∧ ps = []) ∧ PlainFields ps := by
    rcases hfs.properties with h | ⟨ps, h, hplain⟩
    · exact ⟨[], Or.inr ⟨h, rfl⟩, fun _ he => (nomatch he)⟩
    · exact ⟨ps, Or.inl h, hplain⟩
  have hlook : ∀ name v, Fields.get fs name = v → (Value.dict fs).look name .none = .ok v :=
    fun name v h => by rw [Fields.look_dict, h]
  refine ⟨⟨k, n, d, ps⟩, ⟨hlook _ _ hkind, hlook _ _ hduration, ?_, ?_⟩,
    ⟨hn, hd, hplain.areWritable⟩, hplain⟩
  · rcases hdelay with h | ⟨h, hzero⟩
    · exact Or.inl (hlook _ _ h)
    · exact Or.inr ⟨hlook _ _ h, hzero⟩
  · rcases hproperties with h | ⟨h, hnil⟩
    · exact Or.inl (hlook _ _ h)
    · exact Or.inr ⟨hlook _ _ h, hnil⟩

/-- Without its id, a sound resource is plain. -/
theorem Resource.Sound.plain {fs : Fields} (h : Resource.Sound fs) :
    PlainFields (Fields.without fs "id") := by
  intro e he
  obtain ⟨hmem, hout⟩ := List.mem_filter.mp he
  obtain ⟨hkey, hplain | ⟨hid, -⟩⟩ := h.fields e hmem
  · exact ⟨hkey, hplain⟩
  · rw [hid, Value.same_text_self] at hout
    cases hout

/-- A sound clip with a sound resource has a shot. -/
theorem Clip.Sound.exists_shot {c : Clip} (hc : c.Sound) {r : Fields} (hr : Resource.Sound r) :
    ∃ s : Shot, s.id = c.id ∧ Fields.get r "type" = .text s.kind.word
      ∧ s.Given c.toValue (.dict (Fields.without r "id")) ∧ s.Writable ∧ PlainFields s.resource
      ∧ ∀ m ∈ s.moves, PlainFields m.properties := by
  obtain ⟨n, hstart, hn⟩ := hc.start
  obtain ⟨d, hduration, hd⟩ := hc.duration
  obtain ⟨k, hkind⟩ := hr.kind
  obtain ⟨items, hlist, hsound⟩ := hc.animations
  obtain ⟨moves, hgiven, hwritable⟩ := exists_forall₂ fun a ha => (hsound a ha).exists_move
  refine ⟨⟨c.id, n, d, k, Fields.without r "id", moves⟩, rfl, hkind, ?_, ?_, hr.plain,
    fun m hm => (hwritable m hm).2⟩
  · refine ⟨rfl, ?_, ?_, rfl, ?_, Or.inl ⟨items, ?_, hgiven⟩⟩
    · rw [← hstart]
      rfl
    · rw [← hduration]
      rfl
    · rw [Fields.get_without r (by decide)]
      exact hkind
    · rw [← hlist]
      rfl
  · have hnamed : identifierOf c.id = .ok (identifier c.id) := by
      obtain ⟨name, hid⟩ := hc.id
      rw [hid]
      rfl
    exact ⟨hnamed, hn, hd, hr.plain.areWritable, fun m hm => (hwritable m hm).1⟩

/-- The block of a sound clip with a sound resource is made of tidy lines, and is read as a shot
that is called as the clip and has the kind of the resource. -/
theorem Clip.Sound.exists_block {c : Clip} (hc : c.Sound) {r : Fields} (hr : Resource.Sound r) :
    ∃ b : Shot × List (List Char),
      (b.1.name = c.label ∧ Fields.get r "type" = .text b.1.kind.word
        ∧ Emission.clip c.toValue (.dict r) = .ok (Emission.endLines b.2))
      ∧ IsBlock b.1 b.2 ∧ Emission.Tidy isLineBreak b.2 := by
  obtain ⟨s, hid, hkind, hgiven, hwritable, hresource, hmoves⟩ := hc.exists_shot hr
  obtain ⟨ls, hls, hblock⟩ := clipLines_reads hgiven hwritable
  have hplain : ∀ fs, PlainFields fs → NamedFields fs ∧ EscapableFields isLineBreak fs :=
    fun fs h => ⟨namedFields_of_areWritable h.areWritable, h.escapable⟩
  have hcarries : Emission.Carries (fun fs => NamedFields fs ∧ EscapableFields isLineBreak fs)
      c.toValue (.dict (Fields.without r "id")) :=
    hgiven.carries (hplain _ hresource) fun m hm => hplain _ (hmoves m hm)
  have htidy := Emission.clipLines_tidy (fun _ h => h) hcarries ls hls
  rw [Emission.clipLines_without_id] at hls
  refine ⟨(s, ls), ⟨?_, hkind, ?_⟩, hblock, htidy⟩
  · rw [Shot.name, hid, Clip.label]
  · rw [Emission.clip, hls, ok_map]

/-! ## Section 3: Shown clips -/

/-- The resource that a clip shows, if it is there. -/
def Store.shown (store : Store) (c : Clip) : Option (Clip × Fields) :=
  (store.find? c.resourceId).map fun r => (c, r)

/-- The clips of visible tracks with the resources that they show, in the order of the tracks and of
the clips in them; clips without a resource are left out. -/
def Project.shown (p : Project) : List (Clip × Fields) :=
  ((p.timeline.tracks.filter Track.visible).flatMap Track.clips).filterMap p.store.shown

/-- A clip with its resource as values. -/
def asValues (e : Clip × Fields) : Value × Value :=
  (e.1.toValue, .dict e.2)

theorem Emission.shownOfTrack_eq (store : Store) (clips : List Clip) :
    shownOfTrack (.store store) (clips.map Clip.toValue)
      = .ok ((clips.filterMap store.shown).map asValues) := by
  induction clips with
  | nil => rfl
  | cons c r ih =>
    have hid : c.toValue.look "resource_id" .none = .ok c.resourceId := rfl
    have hfind : Source.find (.store store) c.resourceId
        = .ok (((store.find? c.resourceId).map Value.dict).getD .none) := rfl
    rw [List.map_cons, shownOfTrack, hid, ok_bind, hfind, ok_bind, ih, ok_bind, List.filterMap_cons,
      Store.shown]
    cases store.find? c.resourceId with
    | none => rfl
    | some fs => rfl

theorem Emission.shownClips_tracks (store : Store) (tracks : List Track) :
    shownClips (.store store) (tracks.map Track.toValue)
      = .ok ((((tracks.filter Track.visible).flatMap Track.clips).filterMap store.shown).map
        asValues) := by
  induction tracks with
  | nil => rfl
  | cons t r ih =>
    have hvisible : t.toValue.look "visible" (.bool true) = .ok (.bool t.visible) := rfl
    have hclips : t.toValue.look "clips" (.list []) = .ok (.list (t.clips.map Clip.toValue)) := rfl
    rw [List.map_cons, shownClips, hvisible, ok_bind, hclips, ih]
    cases hv : t.visible with
    | false => rw [List.filter_cons_of_neg (by simp [hv])]; rfl
    | true =>
      rw [List.filter_cons_of_pos hv, List.flatMap_cons, List.filterMap_append, List.map_append]
      simp only [ok_bind, Value.items, shownOfTrack_eq]
      rfl

/-- The shown clips of a project are those that the writer finds. -/
theorem Project.shownClips_eq (p : Project) :
    Emission.shownClips (.store p.store) p.timeline.trackValues = .ok (p.shown.map asValues) :=
  Emission.shownClips_tracks p.store p.timeline.tracks

end Overlay
