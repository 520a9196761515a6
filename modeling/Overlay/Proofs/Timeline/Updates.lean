import Overlay.Proofs.Fields
import Overlay.Timeline.Editing

/-!
# Updates of clips

An update of a clip is checked, adjusted, and then set field by field.  A changed clip, looked at as
a mapping, holds what the update gives and otherwise what was there.

## Main definitions
- `Timeline.Adjusted`: the fields that are set where some are asked for

## Main statements
- `Timeline.same_of_checkFixed`: the fields that may not change
- `Timeline.exists_adjusted`: what an update that passes its checks sets
- `Clip.get?_merge`: what is looked up in a changed clip
-/

namespace Overlay

namespace Timeline

/-! ## Section 1: Checks -/

/-- A field that may not change keeps its value. -/
theorem same_of_checkFixed {c : Clip} {updates : Fields} {names : List String} {name : String}
    {v : Value} (h : checkFixed c (.dict updates) names = .ok ()) (hname : name ∈ names)
    (hv : Fields.get? updates name = some v) :
    ∃ old, c.toValue.field name = .ok old ∧ v.same old = true := by
  induction names with
  | nil => cases hname
  | cons n r ih =>
    rw [checkFixed] at h
    obtain ⟨present, hpresent, h⟩ := bind_eq_ok.mp h
    rw [Value.contains, Fields.has] at hpresent
    obtain rfl := Except.ok.inj hpresent
    rcases List.mem_cons.mp hname with rfl | hr
    · rw [hv, Option.isSome_some, if_pos rfl, Fields.field_dict hv, ok_bind] at h
      obtain ⟨old, hold, h⟩ := bind_eq_ok.mp h
      refine ⟨old, hold, ?_⟩
      cases hsame : v.same old with
      | true => rfl
      | false => simp [hsame, refuse] at h
    · cases hn : Fields.get? updates n with
      | none => exact ih (by simpa [hn] using h) hr
      | some w =>
        rw [hn, Option.isSome_some, if_pos rfl, Fields.field_dict hn, ok_bind] at h
        obtain ⟨old, -, h⟩ := bind_eq_ok.mp h
        cases hsame : w.same old with
        | true => exact ih (by simpa [hsame] using h) hr
        | false => simp [hsame, refuse] at h

/-- A text that may not change stays the same text. -/
theorem eq_text_of_checkFixed {c : Clip} {updates : Fields} {names : List String} {name s : String}
    {v : Value} (h : checkFixed c (.dict updates) names = .ok ()) (hname : name ∈ names)
    (hold : c.toValue.field name = .ok (.text s)) (hv : Fields.get? updates name = some v) :
    v = .text s := by
  obtain ⟨old, hfield, hsame⟩ := same_of_checkFixed h hname hv
  rw [hold] at hfield
  obtain rfl := Except.ok.inj hfield
  exact Value.same_text.mp hsame

/-- The fields that are set where some are asked for: a start below zero is moved to zero, and a
duration has passed its check. -/
structure Adjusted (asked values : Fields) : Prop where
  distinct : Fields.Distinct asked → Fields.Distinct values
  get?_eq : ∀ name, name ≠ "start_time" → Fields.get? values name = Fields.get? asked name
  start : ∀ v, Fields.get? values "start_time" = some v →
    ∃ t, Fields.get? asked "start_time" = some t ∧ t.atLeastZero = .ok v
  duration : ∀ v, Fields.get? values "duration" = some v →
    requireNonNegative v "clip duration" = .ok ()

theorem exists_adjusted {updates : Value} {values : Fields} (h : clipUpdates updates = .ok values) :
    ∃ asked, updates.toFields = .ok asked ∧ Adjusted asked values := by
  unfold clipUpdates at h
  obtain ⟨asked, hasked, h⟩ := bind_eq_ok.mp h
  refine ⟨asked, hasked, ?_⟩
  extract_lets check at h
  have hcheck : ∀ fs, check fs = .ok values → values = fs
      ∧ ∀ d, Fields.get? values "duration" = some d → requireNonNegative d "clip duration" = .ok () := by
    intro fs hfs
    cases hget : Fields.get? fs "duration" with
    | none =>
      simp only [check, hget] at hfs
      obtain rfl := Except.ok.inj hfs
      refine ⟨rfl, fun d hd => ?_⟩
      rw [hget] at hd
      cases hd
    | some d =>
      simp only [check, hget] at hfs
      obtain ⟨_, hlength, hfs⟩ := bind_eq_ok.mp hfs
      obtain rfl := Except.ok.inj hfs
      refine ⟨rfl, fun e he => ?_⟩
      rw [hget] at he
      exact Option.some.inj he ▸ hlength
  cases hget : Fields.get? asked "start_time" with
  | none =>
    rw [hget] at h
    obtain ⟨rfl, hlength⟩ := hcheck asked h
    refine ⟨id, fun _ _ => rfl, fun v hv => ?_, hlength⟩
    rw [hget] at hv
    cases hv
  | some t =>
    rw [hget] at h
    obtain ⟨v, hv, h⟩ := bind_eq_ok.mp h
    obtain ⟨rfl, hlength⟩ := hcheck _ h
    refine ⟨fun hd => hd.insert _ _, fun name hname => ?_, fun w hw => ⟨t, hget, ?_⟩, hlength⟩
    · rw [Fields.put, Fields.get?_insert, if_neg]
      rw [Value.same_text, Value.text.injEq]
      exact hname.symm
    · rw [Fields.put, Fields.get?_insert, if_pos (Value.same_text_self _)] at hw
      exact Option.some.inj hw ▸ hv

end Timeline

/-! ## Section 2: Changed clips -/

namespace Clip

theorem get?_toFields (c : Clip) (name : String) :
    Fields.get? c.toFields name
      = if name = "id" then some c.id else if name = "resource_id" then some c.resourceId
        else if name = "name" then some c.name else if name = "start_time" then some c.start
        else if name = "duration" then some c.duration else if name = "track_id" then some c.trackId
        else if name = "animations" then some c.animations
        else Fields.get? c.extra name := by
  simp only [toFields, List.cons_append, List.nil_append, Fields.get?_cons, Value.same_text,
    Value.text.injEq, eq_comm (b := name)]

/-- Setting a field of a clip is seen under its key alone. -/
theorem get?_put (c : Clip) (key v : Value) (name : String) :
    Fields.get? (c.put key v).toFields name
      = if key.same (.text name) then some v else Fields.get? c.toFields name := by
  unfold put
  split
  case h_8 =>
    by_cases hkey : key.same (.text name) = true
    · obtain rfl := Value.same_text.mp hkey
      simp_all [get?_toFields, Fields.get?_insert]
    · simp only [get?_toFields, Fields.get?_insert, if_neg hkey]
  -- a key of a field of its own
  all_goals
    simp only [get?_toFields, Value.same_text, Value.text.injEq]
    grind

/-- A changed clip holds what the update gives, and otherwise what was there. -/
theorem get?_merge {updates : Fields} (hd : Fields.Distinct updates) (c : Clip) (name : String) :
    Fields.get? (c.merge updates).toFields name
      = (Fields.get? updates name).or (Fields.get? c.toFields name) := by
  unfold merge
  induction updates generalizing c with
  | nil => rfl
  | cons e r ih =>
    obtain ⟨hhead, htail⟩ := List.pairwise_cons.mp hd
    rw [List.foldl_cons, ih htail, get?_put c e.1 e.2 name, Fields.get?_cons]
    by_cases hkey : e.1.same (.text name) = true
    · have hrest : Fields.get? r name = none := by
        refine Option.eq_none_iff_forall_ne_some.mpr fun v hv => ?_
        have hdiffers := hhead _ (Fields.mem_of_get? hv)
        rw [hkey] at hdiffers
        cases hdiffers
      simp [hkey, hrest]
    · simp [hkey]

section Merge

variable {updates : Fields} (hd : Fields.Distinct updates) (c : Clip)

include hd

theorem id_merge : (c.merge updates).id = (Fields.get? updates "id").getD c.id := by
  have h := get?_merge hd c "id"
  cases hget : Fields.get? updates "id" <;> simpa [get?_toFields, hget] using h

theorem start_merge : (c.merge updates).start = (Fields.get? updates "start_time").getD c.start := by
  have h := get?_merge hd c "start_time"
  cases hget : Fields.get? updates "start_time" <;> simpa [get?_toFields, hget] using h

theorem duration_merge :
    (c.merge updates).duration = (Fields.get? updates "duration").getD c.duration := by
  have h := get?_merge hd c "duration"
  cases hget : Fields.get? updates "duration" <;> simpa [get?_toFields, hget] using h

theorem trackId_merge :
    (c.merge updates).trackId = (Fields.get? updates "track_id").getD c.trackId := by
  have h := get?_merge hd c "track_id"
  cases hget : Fields.get? updates "track_id" <;> simpa [get?_toFields, hget] using h

theorem animations_merge :
    (c.merge updates).animations = (Fields.get? updates "animations").getD c.animations := by
  have h := get?_merge hd c "animations"
  cases hget : Fields.get? updates "animations" <;> simpa [get?_toFields, hget] using h

end Merge

end Clip

end Overlay
