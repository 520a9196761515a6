import Overlay.Proofs.Acts
import Overlay.Proofs.Resource.Colors
import Overlay.Proofs.Script.PlainValues
import Overlay.Resource.Store

/-!
# Sound resources

A resource is sound where it has a known kind, identifiers as keys and plain values; only its id may
be any text.  A store that is given such values holds sound resources at all times.

## Main definitions
- `Resource.Sound`, `Store.Sound`: sound resources and stores
- `Resource.Made`, `Store.Updated`: what a new or a changed resource is

## Main statements
- `Resource.normalizeColors_yields`: colors are plain once they are read
- `Resource.Made.sound`, `Store.Updated.sound`: new and changed resources are sound
- `Store.add_keeps`, `Store.create_keeps`, `Store.update_keeps`, `Store.remove_keeps`: the operations
  keep a store sound
-/

namespace Overlay

open Overlay.Number Overlay.Literal

attribute [local irreducible] twoTo tenTo Double.unitsInOne

namespace Resource

/-! ## Section 1: Fields -/

/-- A field of a resource: an identifier with a plain value, where the id may be any text. -/
def SoundField (key v : Value) : Prop :=
  isNameKey key = true ∧ (Plain key v ∨ key = .text "id" ∧ ∃ s, v = .text s)

/-- Fields of a resource. -/
def SoundFields (fs : Fields) : Prop :=
  ∀ e ∈ fs, SoundField e.1 e.2

/-- A resource that a script can be written from. -/
structure Sound (fs : Fields) : Prop where
  kind : ∃ k : ResourceKind, Fields.get fs "type" = .text k.word
  fields : SoundFields fs

theorem SoundField.text_of_same {key v d : Value} (h : SoundField key v) (hsame : d.same key = true) :
    d = key := by
  cases key with
  | text s => exact Value.same_text.mp hsame
  | _ => cases h.1

theorem SoundFields.cons {key v : Value} {fs : Fields} (hv : SoundField key v)
    (h : SoundFields fs) : SoundFields ((key, v) :: fs) :=
  List.forall_mem_cons.mpr ⟨hv, h⟩

theorem SoundFields.insert {fs : Fields} (h : SoundFields fs) {key v : Value}
    (hv : SoundField key v) : SoundFields (Fields.insert fs key v) := by
  intro e he
  rcases Fields.mem_insert he with hmem | rfl | ⟨heq, hsame, -⟩
  · exact h e hmem
  · exact hv
  · rw [heq, hv.text_of_same hsame]
    exact hv

theorem SoundFields.merge {fs updates : Fields} (h : SoundFields fs) (hu : SoundFields updates) :
    SoundFields (Fields.merge fs updates) :=
  Fields.merge_induction (fun e he _ hfs => hfs.insert (hu e he)) h

theorem SoundFields.of_plain {fs : Fields} (h : PlainFields fs) : SoundFields fs :=
  fun e he => ⟨(h e he).1, Or.inl (h e he).2⟩

/-- What is given for an attribute, or else its default. -/
theorem SoundFields.given {o : Fields} (h : SoundFields o) {name : String} {default : Value}
    (hdefault : SoundField (.text name) default) :
    SoundField (Resource.given o name default).1 (Resource.given o name default).2 := by
  unfold Resource.given
  cases hget : Fields.get? o name with
  | none => exact hdefault
  | some v => exact h _ (Fields.mem_of_get? hget)

theorem mem_fillIn {fs extra : Fields} {e : Value × Value} (h : e ∈ fillIn fs extra) :
    e ∈ fs ∨ e ∈ extra := by
  unfold fillIn at h
  induction extra generalizing fs with
  | nil => exact Or.inl h
  | cons d r ih =>
    rcases ih h with hmem | hmem
    · dsimp only at hmem
      split at hmem
      · exact Or.inl hmem
      · rcases List.mem_append.mp hmem with hmem | hmem
        · exact Or.inl hmem
        · rw [List.mem_singleton.mp hmem]
          exact Or.inr List.mem_cons_self
    · exact Or.inr (List.mem_cons_of_mem d hmem)

/-- What is there is not filled in. -/
theorem get?_fillIn {fs : Fields} {name : String} {v : Value} (h : Fields.get? fs name = some v)
    (extra : Fields) : Fields.get? (fillIn fs extra) name = some v := by
  unfold fillIn
  induction extra generalizing fs with
  | nil => exact h
  | cons d r ih =>
    refine ih ?_
    dsimp only
    split
    · exact h
    · unfold Fields.get? Fields.find? at h ⊢
      obtain ⟨e, he, rfl⟩ := Option.map_eq_some_iff.mp h
      rw [List.find?_append, he]
      rfl

/-! ## Section 2: Colors -/

/-- A color is absent or an integer. -/
theorem read_cases {v w : Value} (h : Color.read v = .ok w) : w = .none ∨ ∃ i, w = .int i := by
  have hitems : ∀ r g b, Color.ofItems r g b = .ok w → ∃ i, w = .int i := by
    intro r g b hrgb
    obtain ⟨_, -, hrgb⟩ := bind_eq_ok.mp hrgb
    obtain ⟨_, -, hrgb⟩ := bind_eq_ok.mp hrgb
    obtain ⟨_, -, hrgb⟩ := bind_eq_ok.mp hrgb
    exact ⟨_, (Except.ok.inj hrgb).symm⟩
  unfold Color.read at h
  split at h
  · exact Or.inl (Except.ok.inj h).symm
  · cases h
  · exact Or.inr ⟨_, (Except.ok.inj h).symm⟩
  · exact Or.inr (hitems _ _ _ h)
  · exact Or.inr (hitems _ _ _ h)
  · dsimp only at h
    split at h
    · obtain ⟨i, -, hi⟩ := Option.map_eq_some_iff.mp (orFault_eq_ok.mp h)
      exact Or.inr ⟨i, hi.symm⟩
    · obtain ⟨i, -, hi⟩ := Option.map_eq_some_iff.mp (orFault_eq_ok.mp h)
      exact Or.inr ⟨i, hi.symm⟩
  · cases h

/-- The rules for colors read field by field. -/
theorem normalizeColors_cons {key v : Value} {r fs : Fields}
    (h : normalizeColors ((key, v) :: r) = .ok fs) :
    ∃ name w rest, key = .text name ∧ normalizeColors r = .ok rest ∧ fs = (key, w) :: rest
      ∧ (w = v ∨ isColorName name = true ∧ Color.read v = .ok w) := by
  cases key with
  | text name =>
    rw [normalizeColors, ok_bind] at h
    dsimp only at h
    split at h
    · next hcolor =>
      obtain ⟨w, hw, h⟩ := bind_eq_ok.mp h
      obtain ⟨rest, hrest, h⟩ := bind_eq_ok.mp h
      rw [Bool.and_eq_true] at hcolor
      exact ⟨name, w, rest, rfl, hrest, (Except.ok.inj h).symm, Or.inr ⟨hcolor.1, hw⟩⟩
    · rw [ok_bind] at h
      obtain ⟨rest, hrest, h⟩ := bind_eq_ok.mp h
      exact ⟨name, v, rest, rfl, hrest, (Except.ok.inj h).symm, Or.inl rfl⟩
  | _ => cases h

/-- A color that is read from a plain value is plain. -/
theorem plain_read {name : String} (hname : isColorName name = true) {v w : Value}
    (hv : Plain (.text name) v) (h : Color.read v = .ok w) : Plain (.text name) w := by
  cases v with
  | none =>
    rw [← Except.ok.inj h]
    exact hv
  | int i =>
    rw [← Except.ok.inj h]
    exact hv
  | text s =>
    obtain ⟨i, rfl, hpos | hshort⟩ := Color.read_text_cases h
    · exact Plain.color (by simp [isColor, Value.shown, hname, Number.le_int, hpos])
    · exact Plain.int _ hshort
  | list items => cases hv.1
  | tuple items => cases hv.1
  | _ => cases h

theorem normalizeColors_yields {fs : Fields} (h : SoundFields fs) :
    Yields SoundFields (normalizeColors fs) := by
  induction fs with
  | nil => exact Yields.ok h
  | cons e r ih =>
    obtain ⟨key, v⟩ := e
    obtain ⟨hhead, htail⟩ := List.forall_mem_cons.mp h
    intro fs' hfs
    obtain ⟨name, w, rest, rfl, hrest, rfl, hw⟩ := normalizeColors_cons hfs
    refine List.forall_mem_cons.mpr ⟨?_, ih htail rest hrest⟩
    rcases hw with rfl | ⟨hcolor, hread⟩
    · exact hhead
    · refine ⟨hhead.1, Or.inl ?_⟩
      rcases hhead.2 with hplain | ⟨hid, -⟩
      · exact plain_read hcolor hplain hread
      · obtain rfl := Value.text.inj hid
        exact absurd hcolor (by decide)

/-- What is no color stays as it is. -/
theorem get?_normalizeColors {fs fs' : Fields} (h : normalizeColors fs = .ok fs') {name : String}
    (hname : isColorName name = false) : Fields.get? fs' name = Fields.get? fs name := by
  induction fs generalizing fs' with
  | nil =>
    rw [← Except.ok.inj h]
  | cons e r ih =>
    obtain ⟨key, v⟩ := e
    obtain ⟨other, w, rest, rfl, hrest, rfl, hw⟩ := normalizeColors_cons h
    rw [Fields.get?_cons, Fields.get?_cons, ih hrest]
    rcases hw with rfl | ⟨hcolor, -⟩
    · rfl
    · have hdiffers : ¬(Value.text other).same (.text name) = true := by
        rw [Value.same_text, Value.text.injEq]
        rintro rfl
        rw [hcolor] at hname
        cases hname
      rw [if_neg hdiffers, if_neg hdiffers]

/-! ## Section 3: New resources -/

/-- The whole part of a double, or the double itself, or the fallback. -/
theorem plain_duration (key : Value) {v w : Value} {fallback : Int}
    (hfallback : hasText fallback = true) (h : duration v fallback = .ok w) : Plain key w := by
  unfold duration at h
  split at h
  · rw [← Except.ok.inj h]
    exact Plain.int _ hfallback
  · split at h
    · cases h
    · rw [← Except.ok.inj h]
      exact Plain.int _ hfallback
    · rw [← Except.ok.inj h]
      split
      · exact Plain.int _ hfallback
      · next hfinite =>
        split
        · exact Plain.int _ (hasText_of_lt (by decide) (Double.natAbs_truncate_lt _))
        · exact ⟨by simpa [isWritable] using hfinite, by simp [textsOf]⟩

/-- An attribute with a plain default. -/
theorem SoundFields.given_or {o : Fields} (h : SoundFields o) {name : String} {default : Value}
    (hname : isNameKey (.text name) = true) (hdefault : Plain (.text name) default) {r : Fields}
    (hr : SoundFields r) : SoundFields (Resource.given o name default :: r) :=
  .cons (h.given ⟨hname, Or.inl hdefault⟩) hr

theorem baseFields_sound (kind : ResourceKind) {o : Fields} (h : SoundFields o) (id : String)
    {length : Value} (hlength : Plain (.text "durationMs") length) :
    SoundFields (baseFields kind o (.text id) length) := by
  have hnil : SoundFields [] := fun _ he => (nomatch he)
  have hword : Plain (.text "type") (.text kind.word) := by
    cases kind <;> decide
  unfold baseFields
  refine .cons ⟨by decide, Or.inr ⟨rfl, id, rfl⟩⟩ (.cons ⟨by decide, Or.inl hword⟩ ?_)
  iterate 4 refine h.given_or (by decide) (by decide +kernel) ?_
  refine .cons ⟨by decide, Or.inl hlength⟩ ?_
  repeat' refine h.given_or (by decide) (by decide +kernel) ?_
  exact hnil

theorem kindFields_sound (kind : ResourceKind) {o : Fields} (h : SoundFields o) :
    SoundFields (kindFields kind o) := by
  have hnil : SoundFields [] := fun _ he => (nomatch he)
  unfold kindFields
  cases kind
  all_goals
    repeat' refine h.given_or (by decide) (by decide +kernel) ?_
    exact hnil

theorem preset_sound (kind : ResourceKind) : SoundFields (preset kind) := by
  refine SoundFields.of_plain ?_
  cases kind <;> decide +kernel

/-- A new resource: its id is a text, what is missing is filled in, and colors are numbers. -/
structure Made (kind : ResourceKind) (o fs : Fields) (id : String) (length : Value) : Prop where
  duration_eq : duration (Fields.get o "durationMs") 2000 = .ok length
  fields : normalizeColors (fillIn
    (baseFields kind o (.text id) length ++ kindFields kind o) o) = .ok fs

/-- Making a resource changes nothing else. -/
theorem createOf_leaves {σ : Type} (kind : ResourceKind) (o : Fields) (s : σ) :
    (createOf kind o : Act σ Fields).Leaves s fun r t =>
      t = s ∧ ∀ fs, r = .ok fs → ∃ id length, Made kind o fs id length := by
  have hfault : ∀ (fault : Fault) (fs : Fields), Except.error fault = Except.ok fs →
      ∃ id length, Made kind o fs id length := fun _ _ h => nomatch h
  unfold createOf
  extract_lets next
  have hnext : ∀ id, (next id).Leaves s fun r t =>
      t = s ∧ ∀ fs, r = .ok fs → ∃ id length, Made kind o fs id length := by
    intro id
    refine .bind_ofResult (fun length hlength => ?_) fun fault _ => ⟨rfl, hfault fault⟩
    refine .bind_ofResult (fun fs hfs => ?_) fun fault _ => ⟨rfl, hfault fault⟩
    refine .bind_ofResult (fun _ _ => .of_pure ⟨rfl, fun fs' hfs' => ?_⟩) fun fault _ =>
      ⟨rfl, hfault fault⟩
    obtain rfl := Except.ok.inj hfs'
    exact ⟨id, length, hlength, hfs⟩
  split
  · intro w
    rw [Act.perform_bind, Act.perform_freshId]
    exact hnext _ _
  · exact .bind_ofResult (fun id _ => hnext id) fun fault _ => ⟨rfl, hfault fault⟩

theorem create_leaves {σ : Type} (kind : Value) (o : Fields) (s : σ) :
    (create kind o : Act σ Fields).Leaves s fun r t =>
      t = s ∧ ∀ fs, r = .ok fs → ∃ k id length, Made k o fs id length := by
  unfold create
  refine .bind_ofResult (fun _ _ => ?_) fun _ _ => ⟨rfl, fun _ h => nomatch h⟩
  split
  · next k _ => exact (createOf_leaves k o s).mono fun _ _ h => ⟨h.1, fun fs hfs => ⟨k, h.2 fs hfs⟩⟩
  · exact .of_stop ⟨rfl, fun _ h => nomatch h⟩

theorem createPreset_leaves {σ : Type} (kind : Value) (o : Fields) (s : σ) :
    (createPreset kind o : Act σ Fields).Leaves s fun r t =>
      t = s ∧ ∀ fs, r = .ok fs → ∃ p k id length,
        Made k (Fields.merge (preset p) o) fs id length := by
  unfold createPreset
  refine .bind_ofResult (fun _ _ => ?_) fun _ _ => ⟨rfl, fun _ h => nomatch h⟩
  split
  · next k _ => exact (create_leaves kind _ s).mono fun _ _ h => ⟨h.1, fun fs hfs => ⟨k, h.2 fs hfs⟩⟩
  · exact .of_stop ⟨rfl, fun _ h => nomatch h⟩

namespace Made

variable {kind : ResourceKind} {o fs : Fields} {id : String} {length : Value}

/-- What every resource has is not replaced by what is filled in. -/
theorem get_eq (h : Made kind o fs id length) {name : String} {v : Value}
    (hname : isColorName name = false)
    (hv : Fields.get? (baseFields kind o (.text id) length ++ kindFields kind o) name = some v) :
    Fields.get fs name = v := by
  rw [Fields.get, get?_normalizeColors h.fields hname, get?_fillIn hv, Option.getD_some]

/-- New resources are sound. -/
theorem sound (h : Made kind o fs id length) (ho : SoundFields o) : Sound fs := by
  have hfull : SoundFields (fillIn
      (baseFields kind o (.text id) length ++ kindFields kind o) o) := by
    intro e he
    rcases mem_fillIn he with hmem | hmem
    · rcases List.mem_append.mp hmem with hmem | hmem
      · exact baseFields_sound kind ho id (plain_duration _ (by decide) h.duration_eq) e hmem
      · exact kindFields_sound kind ho e hmem
    · exact ho e hmem
  exact ⟨⟨kind, h.get_eq (by decide) rfl⟩, normalizeColors_yields hfull fs h.fields⟩

end Made

end Resource

theorem ResourceKind.word_of_ofValue? {v : Value} (h : (ofValue? v).isSome = true) :
    ∃ k : ResourceKind, v = .text k.word := by
  obtain ⟨k, hk⟩ := Option.isSome_iff_exists.mp h
  cases v with
  | text w =>
    have hword := List.find?_some (show all.find? (fun k => k.word == w) = some k from hk)
    exact ⟨k, by rw [eq_of_beq hword]⟩
  | _ => cases hk

namespace Store

/-! ## Section 4: Stores -/

/-- A store of sound resources. -/
def Sound (store : Store) : Prop :=
  ∀ fs ∈ store.resources, Resource.Sound fs

theorem Sound.empty : Sound Store.empty :=
  fun _ h => (nomatch h)

/-- A resource that may be added has a known kind, and its id is free. -/
theorem of_checkNew {store : Store} {fs : Fields} (h : checkNew store fs = .ok ()) :
    (ResourceKind.ofValue? (Fields.get fs "type")).isSome = true
      ∧ store.find? (Fields.get fs "id") = none := by
  unfold checkNew at h
  cases hkind : ResourceKind.ofValue? (Fields.get fs "type") with
  | none =>
    simp only [hkind, refuse, error_bind] at h
    cases h
  | some k =>
    cases hfind : store.find? (Fields.get fs "id") with
    | none => exact ⟨rfl, rfl⟩
    | some other =>
      cases hnone : (Fields.get fs "id").isNone <;>
        simp [hkind, hnone, hfind, refuse] at h

theorem add_keeps {resource : Value}
    (h : ∀ fs, resource = .dict fs → Resource.SoundFields fs) : Act.Keeps Sound (add resource) := by
  intro store hstore
  unfold add
  split
  · next fs =>
    refine .bind_get (.bind_ofResult (fun _ hcheck => .bind_modify (.of_pure ?_)) fun _ _ => hstore)
    refine List.forall_mem_append.mpr ⟨hstore, fun fs' hfs' => ?_⟩
    rw [List.mem_singleton.mp hfs']
    exact ⟨ResourceKind.word_of_ofValue? (of_checkNew hcheck).1, h fs rfl⟩
  · exact .of_throw hstore

theorem create_keeps (kind : Value) {o : Fields} (h : Resource.SoundFields o) :
    Act.Keeps Sound (create kind o) := by
  intro store hstore
  unfold create
  refine .bind_ofResult (fun _ _ => ?_) fun _ _ => hstore
  refine .bind (Resource.createPreset_leaves kind o store) ?_ fun _ _ heq => heq.1 ▸ hstore
  rintro fs store ⟨rfl, hfs⟩
  refine add_keeps (fun fs' heq => ?_) store hstore
  obtain ⟨k, _, id, length, hmade⟩ := hfs fs rfl
  rw [← Value.dict.inj heq]
  exact (hmade.sound ((Resource.preset_sound k).merge h)).fields

theorem mem_replaceFirst {id : Value} {new fs : Fields} {l : List Fields}
    (h : fs ∈ replaceFirst id new l) : fs = new ∨ fs ∈ l := by
  induction l with
  | nil => cases h
  | cons d r ih =>
    rw [replaceFirst] at h
    split at h
    · rcases List.mem_cons.mp h with h | h
      · exact Or.inl h
      · exact Or.inr (List.mem_cons_of_mem d h)
    · rcases List.mem_cons.mp h with rfl | h
      · exact Or.inr List.mem_cons_self
      · rcases ih h with h | h
        · exact Or.inl h
        · exact Or.inr (List.mem_cons_of_mem d h)

theorem mem_of_mem_eraseFirst {id : Value} {fs : Fields} {l : List Fields}
    (h : fs ∈ eraseFirst id l) : fs ∈ l := by
  induction l with
  | nil => cases h
  | cons d r ih =>
    rw [eraseFirst] at h
    split at h
    · exact List.mem_cons_of_mem d h
    · rcases List.mem_cons.mp h with rfl | h
      · exact List.mem_cons_self
      · exact List.mem_cons_of_mem d (ih h)

/-- Changes of a resource: different keys with values that a resource may have. -/
structure Update (updates : Fields) : Prop where
  distinct : Fields.Distinct updates
  fields : Resource.SoundFields updates

/-- A field that stays is only given a value that is the same. -/
theorem same_of_changes {fs updates : Fields} {name : String} {v : Value}
    (h : changes fs (.dict updates) name = .ok false) (hv : Fields.get? updates name = some v) :
    v.same (Fields.get fs name) = true := by
  have hcontains : (Value.dict updates).contains name = .ok true := by
    rw [Value.contains, Fields.has, hv]
    rfl
  rw [changes, hcontains, ok_bind, if_pos rfl, Fields.field_dict hv, ok_bind] at h
  obtain ⟨old, hold, h⟩ := bind_eq_ok.mp h
  rw [Fields.get_of_get? (orFault_eq_ok.mp hold)]
  simpa using Except.ok.inj h

/-- An update that is made: kind and id stay, and the colors among all fields become numbers. -/
structure Updated (fs updates new : Fields) : Prop where
  kind : changes fs (.dict updates) "type" = .ok false
  id : changes fs (.dict updates) "id" = .ok false
  fields : Resource.normalizeColors (Fields.merge fs updates) = .ok new

theorem updated_yields {fs updates : Fields} :
    Yields (Updated fs updates) (updated fs (.dict updates)) := by
  have hrefused : ∀ (cause : Cause) (f : Unit → Result Fields),
      Yields (Updated fs updates) (refuse cause >>= f) := fun _ _ _ h => nomatch h
  unfold updated
  refine Yields.bind_any fun retyped hretyped => ?_
  extract_lets next check
  cases retyped with
  | true => exact hrefused _ _
  | false =>
    refine Yields.bind_any fun renamed hrenamed => ?_
    cases renamed with
    | true => exact hrefused _ _
    | false =>
      refine Yields.bind_any fun us hus => ?_
      obtain rfl := Except.ok.inj hus
      exact Yields.bind_any fun new hnew => Yields.bind_any fun _ _ =>
        Yields.ok ⟨hretyped, hrenamed, hnew⟩

namespace Updated

variable {fs updates new : Fields}

/-- A field that stays keeps its value, or is given one that is the same. -/
theorem get_cases (h : Updated fs updates new) (hu : Fields.Distinct updates) {name : String}
    (hname : Resource.isColorName name = false)
    (hchanges : changes fs (.dict updates) name = .ok false) :
    Fields.get new name = Fields.get fs name
      ∨ Fields.get? updates name = some (Fields.get new name)
        ∧ (Fields.get new name).same (Fields.get fs name) = true := by
  have hmerged : Fields.get new name = Fields.get (Fields.merge fs updates) name := by
    rw [Fields.get, Resource.get?_normalizeColors h.fields hname, Fields.get]
  rw [hmerged]
  refine Fields.merge_induction (q := fun m => Fields.get m name = Fields.get fs name
    ∨ Fields.get? updates name = some (Fields.get m name)
      ∧ (Fields.get m name).same (Fields.get fs name) = true) ?_ (Or.inl rfl)
  intro e he m hm
  rw [Fields.get_insert]
  split
  · next hkey =>
    obtain ⟨key, v⟩ := e
    obtain rfl := Value.same_text.mp hkey
    have hv := Fields.get?_of_mem hu he
    exact Or.inr ⟨hv, same_of_changes hchanges hv⟩
  · exact hm

/-- A resource stays sound, as its kind does not change. -/
theorem sound (h : Updated fs updates new) (hfs : Resource.Sound fs) (hu : Update updates) :
    Resource.Sound new := by
  obtain ⟨k, hk⟩ := hfs.kind
  refine ⟨⟨k, ?_⟩, Resource.normalizeColors_yields (hfs.fields.merge hu.fields) new h.fields⟩
  rcases h.get_cases hu.distinct (by decide) h.kind with hkept | ⟨-, hsame⟩
  · rw [hkept, hk]
  · rw [hk] at hsame
    exact Value.same_text.mp hsame

end Updated

theorem update_keeps (id : Value) {updates : Fields} (hu : Update updates) :
    Act.Keeps Sound (update id (.dict updates)) := by
  intro store hstore
  unfold update
  refine .bind_get ?_
  split
  · exact .of_stop hstore
  · next old hfind =>
    refine .bind_ofResult (fun new hnew => .bind_modify (.of_pure fun fs hfs => ?_)) fun _ _ => hstore
    rcases mem_replaceFirst hfs with rfl | hmem
    · exact (updated_yields fs hnew).sound (hstore old (List.mem_of_find?_eq_some hfind)) hu
    · exact hstore fs hmem

theorem remove_keeps (id : Value) : Act.Keeps Sound (remove id) := by
  intro store hstore
  unfold remove
  exact .bind_get (.bind_set (.of_pure fun fs hfs => hstore fs (mem_of_mem_eraseFirst hfs)))

end Store

end Overlay
