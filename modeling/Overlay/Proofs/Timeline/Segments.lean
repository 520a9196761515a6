import Overlay.Proofs.Acts
import Overlay.Proofs.Script.PlainValues
import Overlay.Proofs.Timeline.Times
import Overlay.Timeline.Segment

/-!
# Sound animation segments

A segment is sound where it has a known kind, moderate times and plain properties.  Segments are
made sound and stay so, whatever is changed in them, as long as the times that are given are times.

## Main definitions
- `Segment.Sound`, `Segment.SoundFields`: segments that a script can be written from
- `Segment.Update`: changes to a segment

## Main statements
- `Segment.create_leaves`: new segments are sound
- `Segment.SoundFields.merge`: changed segments stay sound
-/

namespace Overlay

open Overlay.Number Overlay.Literal

attribute [local irreducible] twoTo tenTo Double.unitsInOne

namespace Segment

/-! ## Section 1: Segments -/

/-- A delay is absent or a length. -/
def IsDelay (v : Value) : Prop :=
  v = .none ∨ IsLength v

/-- Properties are absent or a plain mapping. -/
def IsProperties (v : Value) : Prop :=
  v = .none ∨ ∃ ps, v = .dict ps ∧ PlainFields ps

/-- A segment that a script can be written from. -/
structure SoundFields (fs : Fields) : Prop where
  kind : ∃ k : SegmentKind, Fields.get fs "type" = .text k.word
  duration : IsLength (Fields.get fs "duration")
  delay : IsDelay (Fields.get fs "delay")
  properties : IsProperties (Fields.get fs "properties")

/-- The same for a segment as a value. -/
def Sound (segment : Value) : Prop :=
  ∃ fs, segment = .dict fs ∧ SoundFields fs

theorem exists_word_of_checkKind {v : Value} (h : checkKind v = .ok ()) :
    ∃ k : SegmentKind, v = .text k.word := by
  unfold checkKind SegmentKind.ofValue? at h
  split at h
  · exact ⟨.set, rfl⟩
  · exact ⟨.chained, rfl⟩
  · cases h

theorem isDelay_of_checkDelay {v : Value} (htime : isTime v = true) (h : checkDelay v = .ok ()) :
    IsDelay v := by
  unfold checkDelay at h
  split at h
  · exact Or.inl rfl
  · exact Or.inr (isLength_of_requireNonNegative htime h)

/-- The fields that a new segment is made of. -/
theorem soundFields_fields {kind duration delay : Value} {props : Fields} (id : Value)
    (hkind : ∃ k : SegmentKind, kind = .text k.word) (hduration : IsLength duration)
    (hdelay : IsDelay delay) (hprops : PlainFields props) :
    SoundFields (fields kind duration props delay id) where
  kind := hkind
  duration := hduration
  delay := by
    cases delay with
    | none => exact Or.inl rfl
    | _ => exact hdelay
  properties := Or.inr ⟨props, rfl, hprops⟩

/-- New segments are sound, and making them changes nothing else. -/
theorem create_leaves {σ : Type} {kind duration props delay id : Value}
    (hduration : isTime duration = true) (hdelay : isTime delay = true)
    (hprops : ∀ ps, props = .dict ps → PlainFields ps) (s : σ) :
    (create kind duration props delay id : Act σ Value).Leaves s fun r t =>
      t = s ∧ ∀ segment, r = .ok segment → Sound segment := by
  have hfault : ∀ fault, s = s ∧ ∀ segment, (Except.error fault : Result Value) = .ok segment →
      Sound segment :=
    fun _ => ⟨rfl, fun _ h => nomatch h⟩
  unfold create
  refine .bind_ofResult (fun _ hkind => ?_) fun fault _ => hfault fault
  refine .bind_ofResult (fun _ hlength => ?_) fun fault _ => hfault fault
  refine .bind_ofResult (fun _ hwait => ?_) fun fault _ => hfault fault
  refine .bind_ofResult (fun ps hps => ?_) fun fault _ => hfault fault
  have hplain : PlainFields ps := by
    unfold properties at hps
    split at hps
    · rw [← Except.ok.inj hps]
      simp [PlainFields]
    · rw [← Except.ok.inj hps]
      exact hprops _ rfl
    · cases hps
  have hsound := fun id => soundFields_fields id (exists_word_of_checkKind hkind)
    (isLength_of_requireNonNegative hduration hlength) (isDelay_of_checkDelay hdelay hwait) hplain
  have hmade : ∀ id, (pure (.dict (fields kind duration ps delay id)) : Act σ Value).Leaves s
      fun r t => t = s ∧ ∀ segment, r = .ok segment → Sound segment :=
    fun id => .of_pure ⟨rfl, fun segment hsegment => ⟨_, (Except.ok.inj hsegment).symm, hsound id⟩⟩
  exact .of_taken (f := fun id => pure (Value.dict (fields kind duration ps delay id)))
    fun v _ => hmade v

/-! ## Section 2: Changes -/

/-- A field that a segment may be given. -/
structure Admits (key v : Value) : Prop where
  kind : key = .text "type" → ∃ k : SegmentKind, v = .text k.word
  duration : key = .text "duration" → IsLength v
  delay : key = .text "delay" → IsDelay v
  properties : key = .text "properties" → IsProperties v

theorem SoundFields.insert {fs : Fields} (h : SoundFields fs) {key v : Value}
    (hv : Admits key v) : SoundFields (Fields.insert fs key v) := by
  refine ⟨?_, ?_, ?_, ?_⟩ <;> rw [Fields.get_insert] <;> split
  · next hkey => exact hv.kind (Value.same_text.mp hkey)
  · exact h.kind
  · next hkey => exact hv.duration (Value.same_text.mp hkey)
  · exact h.duration
  · next hkey => exact hv.delay (Value.same_text.mp hkey)
  · exact h.delay
  · next hkey => exact hv.properties (Value.same_text.mp hkey)
  · exact h.properties

/-- Changes whose times are times and whose properties are plain. -/
structure Update (updates : Fields) : Prop where
  distinct : Fields.Distinct updates
  duration : isTime (Fields.get updates "duration") = true
  delay : isTime (Fields.get updates "delay") = true
  properties : IsProperties (Fields.get updates "properties")

/-- Changes that pass the rules are fields that a segment may be given. -/
theorem Update.admits {updates : Fields} (hu : Update updates)
    (hcheck : checkUpdate (.dict updates) = .ok ()) {e : Value × Value} (he : e ∈ updates) :
    Admits e.1 e.2 := by
  obtain ⟨key, v⟩ := e
  have hget : ∀ name, key = .text name → Fields.get? updates name = some v := by
    rintro name rfl
    exact Fields.get?_of_mem hu.distinct he
  obtain ⟨hkind, hcheck⟩ := Fields.check_present hcheck
  obtain ⟨hduration, hcheck⟩ := Fields.check_present hcheck
  rw [Fields.look_dict, ok_bind] at hcheck
  refine ⟨fun hkey => ?_, fun hkey => ?_, fun hkey => ?_, fun hkey => ?_⟩
  · exact exists_word_of_checkKind (hkind v (hget _ hkey))
  · have htime := hu.duration
    rw [Fields.get_of_get? (hget _ hkey)] at htime
    exact isLength_of_requireNonNegative htime (hduration v (hget _ hkey))
  · have htime := hu.delay
    rw [Fields.get_of_get? (hget _ hkey)] at htime hcheck
    exact isDelay_of_checkDelay htime hcheck
  · have hprops := hu.properties
    rwa [Fields.get_of_get? (hget _ hkey)] at hprops

/-- Changed segments stay sound. -/
theorem SoundFields.merge {fs : Fields} (h : SoundFields fs) {updates : Fields}
    (hu : Update updates) (hcheck : checkUpdate (.dict updates) = .ok ()) :
    SoundFields (Fields.merge fs updates) :=
  Fields.merge_induction (fun _ he _ hfs => hfs.insert (hu.admits hcheck he)) h

end Segment

end Overlay
