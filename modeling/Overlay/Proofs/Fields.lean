import Overlay.Proofs.Results
import Overlay.Value.Access

/-!
# Mappings

How look-ups see the changes of a mapping.  A mapping has pairwise different keys; two mappings that
are merged are walked through field by field.

## Main definitions
- `Fields.Distinct`: pairwise different keys

## Main statements
- `Fields.check_present`: checks that are made where a key is present
- `Fields.get?_insert`: what is looked up after a key has been set
- `Fields.distinct_of_toFields`: what is read as a mapping has different keys
- `Fields.merge_induction`: what each field of an update preserves, the whole update preserves
-/

namespace Overlay

/-! ## Section 1: Texts, lists and absent values -/

theorem Value.isNone_iff (v : Value) : v.isNone = true ↔ v = .none := by
  cases v <;> simp [isNone]

/-- Only a text is equal to a text. -/
theorem Value.same_text {v : Value} {s : String} : v.same (.text s) = true ↔ v = .text s := by
  cases v <;> simp [Value.same, Value.sameScalar, Value.number?]

theorem Value.text_same {v : Value} {s : String} : (Value.text s).same v = true ↔ v = .text s := by
  cases v with
  | text t =>
    have hiff : (Value.text s).same (.text t) = true ↔ s = t := by
      simp [Value.same, Value.sameScalar]
    rw [hiff, Value.text.injEq, eq_comm]
  | _ => simp [Value.same, Value.sameScalar, Value.number?]

theorem Value.same_text_self (s : String) : (Value.text s).same (.text s) = true :=
  Value.same_text.mpr rfl

/-- Only a list is equal to a list. -/
theorem Value.exists_list_of_same {v : Value} {items : List Value}
    (h : v.same (.list items) = true) : ∃ items', v = .list items' := by
  cases v <;> simp [Value.same, Value.sameScalar, Value.number?] at h ⊢

theorem Value.listed_eq_ok {v : Value} {items : List Value} :
    v.listed = .ok items ↔ v = .list items := by
  cases v <;> simp [Value.listed]

/-- A list has the items that it is walked through. -/
theorem Value.eq_of_items {v : Value} {items items' : List Value} (hlist : v = .list items')
    (hitems : v.items = .ok items) : items = items' := by
  rw [hlist] at hitems
  exact (Except.ok.inj hitems).symm

namespace Fields

/-! ## Section 2: Looking -/

/-- What is looked up in a mapping is absent or stands in it under its key. -/
theorem get_cases (fs : Fields) (name : String) :
    get fs name = .none ∨ (.text name, get fs name) ∈ fs := by
  unfold get get? find?
  cases hfind : List.find? (fun e => e.1.same (.text name)) fs with
  | none => exact Or.inl rfl
  | some e =>
    have hkey : e.1.same (.text name) = true := by
      simpa using List.find?_some hfind
    rw [← Value.same_text.mp hkey]
    exact Or.inr (List.mem_of_find?_eq_some hfind)

theorem get?_cons (e : Value × Value) (fs : Fields) (name : String) :
    get? (e :: fs) name = if e.1.same (.text name) then some e.2 else get? fs name := by
  unfold get? find?
  rw [List.find?_cons]
  split <;> simp [*]

theorem get_cons_text (key : String) (v : Value) (fs : Fields) (name : String) :
    get ((.text key, v) :: fs) name = if key = name then v else get fs name := by
  simp only [get, get?_cons, Value.same_text, Value.text.injEq]
  split <;> rfl

/-- What is looked up stands under its key. -/
theorem mem_of_get? {fs : Fields} {name : String} {v : Value} (h : get? fs name = some v) :
    (.text name, v) ∈ fs := by
  induction fs with
  | nil => cases h
  | cons e r ih =>
    rw [get?_cons] at h
    split at h
    · next hkey =>
      rw [← Option.some.inj h, ← Value.same_text.mp hkey]
      exact List.mem_cons_self
    · exact List.mem_cons_of_mem e (ih h)

theorem get_of_get? {fs : Fields} {name : String} {v : Value} (h : get? fs name = some v) :
    get fs name = v := by
  rw [get, h, Option.getD_some]

theorem get?_of_get {fs : Fields} {name : String} {v : Value} (h : get fs name = v)
    (hv : v ≠ .none) : get? fs name = some v := by
  rw [get] at h
  cases hget : get? fs name with
  | none =>
    rw [hget] at h
    exact absurd h.symm hv
  | some w =>
    rw [hget, Option.getD_some] at h
    rw [h]

/-- A key that is present is looked up as `field` does. -/
theorem field_dict {fs : Fields} {name : String} {v : Value} (h : get? fs name = some v) :
    (Value.dict fs).field name = .ok v := by
  rw [Value.field, h]
  rfl

/-- A look-up with the absent value as its default. -/
theorem look_dict (fs : Fields) (name : String) :
    (Value.dict fs).look name .none = .ok (get fs name) :=
  rfl

/-- Pairwise different keys. -/
def Distinct (fs : Fields) : Prop :=
  fs.Pairwise fun d e => d.1.same e.1 = false

instance decidableDistinct (fs : Fields) : Decidable (Distinct fs) :=
  inferInstanceAs (Decidable (List.Pairwise _ fs))

/-- In a mapping with different keys, each field is the one that is looked up. -/
theorem get?_of_mem {fs : Fields} (hd : Distinct fs) {name : String} {v : Value}
    (h : (.text name, v) ∈ fs) : get? fs name = some v := by
  induction fs with
  | nil => cases h
  | cons e r ih =>
    obtain ⟨hhead, htail⟩ := List.pairwise_cons.mp hd
    rw [get?_cons]
    rcases List.mem_cons.mp h with rfl | hmem
    · rw [if_pos (Value.same_text_self name)]
    · rw [if_neg (by rw [hhead _ hmem]; exact Bool.false_ne_true)]
      exact ih htail hmem

theorem find?_eq_none_iff {fs : Fields} {key : Value} :
    find? fs key = none ↔ ∀ e ∈ fs, e.1.same key = false := by
  simp [find?]

/-- The order of the entries does not matter where the keys are different. -/
theorem get?_perm {fs gs : Fields} (hd : Distinct fs) (hperm : gs.Perm fs) (name : String) :
    get? gs name = get? fs name := by
  cases hget : get? gs name with
  | some v => exact (get?_of_mem hd (hperm.mem_iff.mp (mem_of_get? hget))).symm
  | none =>
    cases hother : get? fs name with
    | none => rfl
    | some v =>
      have hdiffers := find?_eq_none_iff.mp hget _ (hperm.mem_iff.mpr (mem_of_get? hother))
      cases hdiffers.symm.trans (Value.same_text_self name)

/-- A chain of checks goes on behind a check of a key, which is only made where the key is
present. -/
theorem check_present {β : Type} {fs : Fields} {name : String} {check : Value → Result Unit}
    {next : Unit → Result β} {b : β}
    (h : ((Value.dict fs).contains name >>= fun present =>
      if present then (Value.dict fs).field name >>= fun v => check v >>= fun u => next u
      else next ()) = .ok b) :
    (∀ v, get? fs name = some v → check v = .ok ()) ∧ next () = .ok b := by
  rw [Value.contains, ok_bind, has] at h
  cases hget : get? fs name with
  | none =>
    rw [hget] at h
    exact ⟨fun v hv => (nomatch hv), h⟩
  | some v =>
    rw [hget, field_dict hget, Option.isSome_some, if_pos rfl, ok_bind] at h
    obtain ⟨_, hcheck, hnext⟩ := bind_eq_ok.mp h
    refine ⟨fun w hw => ?_, hnext⟩
    rw [← Option.some.inj hw]
    exact hcheck

/-! ## Section 3: Changing -/

/-- Setting a key is seen under this key alone. -/
theorem get?_insert (fs : Fields) (key v : Value) (name : String) :
    get? (insert fs key v) name = if key.same (.text name) then some v else get? fs name := by
  induction fs with
  | nil => rw [insert, get?_cons]
  | cons e r ih =>
    rw [insert]
    split
    · next hsame =>
      -- the field keeps its own key, which is the same text if one of the two is a text
      rw [get?_cons, get?_cons]
      by_cases hname : e.1.same (.text name) = true
      · rw [Value.same_text.mp hname] at hsame ⊢
        rw [Value.text_same.mp hsame, if_pos (Value.same_text_self name),
          if_pos (Value.same_text_self name)]
      · have hkey : ¬key.same (.text name) = true := by
          intro h
          rw [Value.same_text.mp h] at hsame
          exact hname hsame
        rw [if_neg hname, if_neg hkey, if_neg hname]
    · next hdiffers =>
      rw [get?_cons, get?_cons, ih]
      by_cases hname : e.1.same (.text name) = true
      · have hkey : ¬key.same (.text name) = true := by
          intro h
          rw [Value.same_text.mp h] at hdiffers
          exact hdiffers hname
        rw [if_pos hname, if_neg hkey, if_pos hname]
      · rw [if_neg hname, if_neg hname]

theorem get_insert (fs : Fields) (key v : Value) (name : String) :
    get (insert fs key v) name = if key.same (.text name) then v else get fs name := by
  rw [get, get?_insert]
  split
  · rfl
  · rfl

theorem get?_put (fs : Fields) (key : String) (v : Value) (name : String) :
    get? (put fs key v) name = if key = name then some v else get? fs name := by
  simp only [put, get?_insert, Value.same_text, Value.text.injEq]

/-- A field of a changed mapping is one of it before, or holds the new value under its key. -/
theorem mem_insert {fs : Fields} {key v : Value} {e : Value × Value} (h : e ∈ insert fs key v) :
    e ∈ fs ∨ e = (key, v) ∨ e.2 = v ∧ e.1.same key = true ∧ ∃ w, (e.1, w) ∈ fs := by
  induction fs with
  | nil => exact Or.inr (Or.inl (List.mem_singleton.mp h))
  | cons d r ih =>
    rw [insert] at h
    split at h
    · next hsame =>
      rcases List.mem_cons.mp h with rfl | hmem
      · exact Or.inr (Or.inr ⟨rfl, hsame, d.2, List.mem_cons_self⟩)
      · exact Or.inl (List.mem_cons_of_mem d hmem)
    · rcases List.mem_cons.mp h with rfl | hmem
      · exact Or.inl List.mem_cons_self
      · rcases ih hmem with hr | hnew | ⟨hv, hsame, w, hw⟩
        · exact Or.inl (List.mem_cons_of_mem d hr)
        · exact Or.inr (Or.inl hnew)
        · exact Or.inr (Or.inr ⟨hv, hsame, w, List.mem_cons_of_mem d hw⟩)

/-- A field of a mapping with a key set has that key, or it is one of before. -/
theorem mem_put {fs : Fields} {name : String} {v : Value} {e : Value × Value}
    (h : e ∈ put fs name v) : e ∈ fs ∨ e.1 = .text name := by
  rcases mem_insert h with hmem | rfl | ⟨-, hsame, -⟩
  · exact Or.inl hmem
  · exact Or.inr rfl
  · exact Or.inr (Value.same_text.mp hsame)

/-- Setting a key keeps the keys different. -/
theorem Distinct.insert {fs : Fields} (h : Distinct fs) (key v : Value) :
    Distinct (Fields.insert fs key v) := by
  induction fs with
  | nil => exact List.pairwise_singleton _ _
  | cons e r ih =>
    obtain ⟨hhead, htail⟩ := List.pairwise_cons.mp h
    rw [Fields.insert]
    split
    · exact List.pairwise_cons.mpr ⟨hhead, htail⟩
    · next hdiffers =>
      refine List.pairwise_cons.mpr ⟨fun d hd => ?_, ih htail⟩
      rcases mem_insert hd with hr | rfl | ⟨-, -, w, hw⟩
      · exact hhead d hr
      · exact Bool.eq_false_iff.mpr hdiffers
      · exact hhead (d.1, w) hw

theorem Distinct.fieldsOfPairs {acc fs : Fields} (h : Distinct acc) {items : List Value}
    (hfs : Value.fieldsOfPairs acc items = .ok fs) : Distinct fs := by
  induction items generalizing acc with
  | nil => exact Except.ok.inj hfs ▸ h
  | cons v r ih =>
    rw [Value.fieldsOfPairs] at hfs
    split at hfs
    · exact ih (h.insert _ _) hfs
    · cases hfs

/-- What is read as a mapping has different keys. -/
theorem distinct_of_toFields {v : Value} {fs : Fields} (hv : ∀ gs, v = .dict gs → Distinct gs)
    (h : v.toFields = .ok fs) : Distinct fs := by
  unfold Value.toFields at h
  split at h
  · rw [← Except.ok.inj h]
    exact hv _ rfl
  · obtain ⟨items, -, h⟩ := bind_eq_ok.mp h
    exact Distinct.fieldsOfPairs List.Pairwise.nil h

/-- A key that is taken out is not missed under other keys. -/
theorem get?_without (fs : Fields) {name other : String} (h : name ≠ other) :
    get? (without fs other) name = get? fs name := by
  induction fs with
  | nil => rfl
  | cons e r ih =>
    unfold without at ih ⊢
    rw [List.filter_cons, get?_cons]
    split
    · rw [get?_cons, ih]
    · next hout =>
      have hother : e.1.same (.text other) = true := by simpa using hout
      have hname : ¬e.1.same (.text name) = true := by
        rw [Value.same_text.mp hother, Value.same_text, Value.text.injEq]
        exact fun heq => h heq.symm
      rw [if_neg hname, ih]

theorem mem_of_mem_without {fs : Fields} {name : String} {e : Value × Value}
    (h : e ∈ without fs name) : e ∈ fs :=
  (List.mem_filter.mp h).1

theorem get_without (fs : Fields) {name other : String} (h : name ≠ other) :
    get (without fs other) name = get fs name := by
  rw [get, get?_without fs h, get]

/-- What each field of an update preserves, the whole update preserves. -/
theorem merge_induction {q : Fields → Prop} {updates : Fields}
    (hstep : ∀ e ∈ updates, ∀ fs, q fs → q (insert fs e.1 e.2)) {fs : Fields} (h : q fs) :
    q (merge fs updates) := by
  unfold merge
  induction updates generalizing fs with
  | nil => exact h
  | cons e r ih =>
    rw [List.forall_mem_cons] at hstep
    exact ih hstep.2 (hstep.1 fs h)

theorem Distinct.merge {fs : Fields} (h : Distinct fs) (updates : Fields) :
    Distinct (Fields.merge fs updates) :=
  merge_induction (fun e _ _ hfs => hfs.insert e.1 e.2) h

/-- A changed mapping holds what the update gives, and otherwise what was there. -/
theorem get?_merge {updates : Fields} (hd : Distinct updates) (fs : Fields) (name : String) :
    get? (merge fs updates) name = (get? updates name).or (get? fs name) := by
  unfold merge
  induction updates generalizing fs with
  | nil => rfl
  | cons e r ih =>
    obtain ⟨hhead, htail⟩ := List.pairwise_cons.mp hd
    rw [List.foldl_cons, ih htail, get?_insert, get?_cons]
    by_cases hkey : e.1.same (.text name) = true
    · have hrest : get? r name = none := by
        refine Option.eq_none_iff_forall_ne_some.mpr fun v hv => ?_
        have hdiffers := hhead _ (mem_of_get? hv)
        rw [hkey] at hdiffers
        cases hdiffers
      simp [hkey, hrest]
    · simp [hkey]

/-- Keys that are texts. -/
def TextKeyed (fs : Fields) : Prop :=
  ∀ e ∈ fs, ∃ name, e.1 = .text name

theorem TextKeyed.nil : TextKeyed [] :=
  fun _ h => (nomatch h)

theorem TextKeyed.insert {fs : Fields} (h : TextKeyed fs) (key : String) (v : Value) :
    TextKeyed (Fields.insert fs (.text key) v) := by
  intro e he
  rcases mem_insert he with hmem | rfl | ⟨-, -, w, hw⟩
  · exact h e hmem
  · exact ⟨key, rfl⟩
  · exact h (e.1, w) hw

/-- A key is looked for behind fields with other keys. -/
theorem insert_append {front : Fields} {key : Value} (h : ∀ e ∈ front, e.1.same key = false)
    (rest : Fields) (v : Value) : insert (front ++ rest) key v = front ++ insert rest key v := by
  induction front with
  | nil => rfl
  | cons e r ih =>
    obtain ⟨he, hr⟩ := List.forall_mem_cons.mp h
    simp [insert, he, ih hr]

theorem keys_prefix_insert (fs : Fields) (key v : Value) :
    fs.map Prod.fst <+: (insert fs key v).map Prod.fst := by
  induction fs with
  | nil => exact List.nil_prefix
  | cons e r ih =>
    rw [insert]
    split
    · exact List.prefix_rfl
    · exact (List.prefix_cons_inj _).mpr ih

theorem keys_prefix_merge (fs updates : Fields) :
    fs.map Prod.fst <+: (merge fs updates).map Prod.fst :=
  merge_induction (q := fun m : Fields => fs.map Prod.fst <+: m.map Prod.fst)
    (fun e _ m h => h.trans (keys_prefix_insert m e.1 e.2)) List.prefix_rfl

/-- An update that begins with all keys of a mapping replaces it. -/
theorem merge_append_of_keys {front fs updates : Fields} (hd : Distinct (front ++ updates))
    (hkeys : fs.map Prod.fst <+: updates.map Prod.fst) (hself : ∀ e ∈ fs, e.1.same e.1 = true) :
    merge (front ++ fs) updates = front ++ updates := by
  -- the fields that have been walked through move to the front
  induction updates generalizing front fs with
  | nil =>
    have hfs : fs = [] := by simpa using hkeys
    simp [merge, hfs]
  | cons e r ih =>
    have hother : ∀ d ∈ front, d.1.same e.1 = false := by
      intro d hd'
      exact (List.pairwise_append.mp hd).2.2 d hd' e List.mem_cons_self
    have hstep : insert (front ++ fs) e.1 e.2 = (front ++ [e]) ++ fs.tail := by
      rw [insert_append hother]
      cases fs with
      | nil => simp [insert]
      | cons d t =>
        have hkey : d.1 = e.1 := (List.cons_prefix_cons.mp hkeys).1
        have hsame := hself d List.mem_cons_self
        rw [hkey] at hsame
        simp [insert, hkey, hsame]
    rw [merge, List.foldl_cons, hstep, ← merge, ih, List.append_assoc]
    · rfl
    · rwa [List.append_assoc]
    · cases fs with
      | nil => exact List.nil_prefix
      | cons d t => exact (List.cons_prefix_cons.mp hkeys).2
    · exact fun d hd' => hself d (List.mem_of_mem_tail hd')

/-- Fields with different keys are set one behind the other. -/
theorem merge_nil {fs : Fields} (h : Distinct fs) : merge [] fs = fs :=
  @merge_append_of_keys [] [] fs h List.nil_prefix fun _ h => nomatch h

/-- What has been filled in is not changed by being filled in again. -/
theorem merge_merge {fs : Fields} (hd : Distinct fs) (hself : ∀ e ∈ fs, e.1.same e.1 = true)
    (updates : Fields) : merge fs (merge fs updates) = merge fs updates :=
  @merge_append_of_keys [] fs _ (hd.merge updates) (keys_prefix_merge fs updates) hself

end Fields

end Overlay
