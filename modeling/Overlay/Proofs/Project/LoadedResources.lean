import Overlay.Proofs.Project.Descriptions
import Overlay.Proofs.Resource.Identity

/-!
# Loading resources

The loader walks through a description entry by entry.  An entry of a resource becomes a resource with
the id, the kind and the length that the entry gives, or the loader stops with a fault.  The fault is a
report, as long as the values of the entry are guarded.

## Main definitions
- `Resource.named`: the fields of an entry with the id of its resource

## Main statements
- `Resource.of_resourceFields`: what the attributes of a resource are made of
- `Resource.create_ends`: a new resource
- `Project.forEach_ends`: entries that are loaded one after the other
- `Project.loadResource_ends`, `Project.loadResources_ends`: the resources of a description
-/

namespace Overlay

/-! ## Section 1: Attributes -/

theorem ResourceKind.eq_word_of_ofValue? {v : Value} {k : ResourceKind} (h : ofValue? v = some k) :
    v = .text k.word := by
  cases v with
  | text w =>
    have hword := List.find?_some (show all.find? (fun k => k.word == w) = some k from h)
    rw [eq_of_beq hword]
  | _ => cases h

namespace Resource

variable {es o fs : Fields} {id : String} {g : Bool}

/-- The fields of an entry without its kind, with the id as a text. -/
def named (es : Fields) (id : String) : Fields :=
  Fields.put (Fields.without es "type") "id" (.text id)

theorem get?_named {name : String} (hid : name ≠ "id") (hkind : name ≠ "type") :
    Fields.get? (named es id) name = Fields.get? es name := by
  rw [named, Fields.get?_put, if_neg hid.symm, Fields.get?_without es hkind]

theorem get_named {name : String} (hid : name ≠ "id") (hkind : name ≠ "type") :
    Fields.get (named es id) name = Fields.get es name := by
  rw [Fields.get, get?_named hid hkind, Fields.get]

theorem get_named_id : Fields.get (named es id) "id" = .text id := by
  rw [named, Fields.get, Fields.get?_put, if_pos rfl, Option.getD_some]

theorem mem_named {e : Value × Value} (h : e ∈ named es id) : e ∈ es ∨ e.1 = .text "id" := by
  rcases Fields.mem_put h with hmem | hkey
  · exact Or.inl (Fields.mem_of_mem_without hmem)
  · exact Or.inr hkey

/-- What the attributes of a resource are made of: a length that is there is taken, otherwise a time
under the other name. -/
theorem resourceFields_eq (es : Fields) (id : String) :
    Project.resourceFields es id
      = if Fields.has es "durationMs" then .ok (named es id)
        else match Fields.get? es "duration" with
          | some time => (Timecode.readMs time ("resource " ++ id ++ " duration")).map fun ms =>
              Fields.put (Fields.without (named es id) "duration") "durationMs" (.int ms)
          | none => .ok (named es id) := by
  have hhas : Fields.has (named es id) "durationMs" = Fields.has es "durationMs" :=
    congrArg Option.isSome (get?_named (by decide) (by decide))
  unfold Project.resourceFields
  dsimp only
  rw [← named, hhas, get?_named (by decide) (by decide)]
  cases Fields.get? es "duration" with
  | none => simp
  | some time =>
    dsimp only
    split
    · rfl
    · cases Timecode.readMs time ("resource " ++ id ++ " duration") <;> rfl

/-- The id and the length that an entry gives come under their own names; all other fields are those of
the entry. -/
theorem of_resourceFields (h : Project.resourceFields es id = .ok o) :
    Fields.get o "id" = .text id ∧ givenLength? (.dict es) = some (Fields.get o "durationMs")
      ∧ ∀ e ∈ o, e ∈ es ∨ e.1 = .text "id" ∨ e.1 = .text "durationMs" := by
  have hlength : Fields.get (named es id) "durationMs" = Fields.get es "durationMs" :=
    get_named (by decide) (by decide)
  have hfields : ∀ e ∈ named es id, e ∈ es ∨ e.1 = .text "id" ∨ e.1 = .text "durationMs" :=
    fun e he => (mem_named he).imp_right Or.inl
  rw [resourceFields_eq] at h
  rw [givenLength?_dict]
  split at h
  · next hhas =>
    obtain rfl := Except.ok.inj h
    exact ⟨get_named_id, by rw [if_pos hhas, hlength], hfields⟩
  · next hhas =>
    rw [if_neg hhas]
    cases hduration : Fields.get? es "duration" with
    | none =>
      rw [hduration] at h
      obtain rfl := Except.ok.inj h
      have hnone : Fields.get es "durationMs" = .none := by
        rw [Fields.get, Option.not_isSome_iff_eq_none.mp hhas, Option.getD_none]
      exact ⟨get_named_id, by rw [hlength, hnone], hfields⟩
    | some time =>
      rw [hduration] at h
      obtain ⟨ms, hread, rfl⟩ := map_eq_ok.mp h
      refine ⟨?_, ?_, fun e he => ?_⟩
      · rw [Fields.get, Fields.get?_put, if_neg (by decide), Fields.get?_without _ (by decide)]
        exact get_named_id
      · rw [Fields.get, Fields.get?_put, if_pos rfl]
        simp [Timecode.ms?_of_readMs hread]
      · rcases Fields.mem_put he with hmem | hkey
        · exact hfields e (Fields.mem_of_mem_without hmem)
        · exact Or.inr (Or.inr hkey)

/-- A length under the other name is refused by a rule, if it stays in range. -/
theorem reports_resourceFields (hguard : g = true → isGuarded (.dict es) = true) :
    Reports g (Project.resourceFields es id) := by
  rw [resourceFields_eq]
  split
  · exact .of_ok _
  · next hhas =>
    cases hduration : Fields.get? es "duration" with
    | none => exact .of_ok _
    | some time =>
      refine .map (Timecode.reports_readMs fun hg => ?_) _
      have htime : (Value.dict es).get "duration" = time := Fields.get_of_get? hduration
      have hguard := hguard hg
      simp only [isGuarded, Bool.and_eq_true, Bool.or_eq_true, Value.fields_dict, htime] at hguard
      exact hguard.1.2.resolve_left hhas

/-! ## Section 2: New resources -/

theorem isGuardedField_of_not_color {name : String} (hname : isColorName name = false)
    (hkind : (name != kindWord) = true) (v : Value) : isGuardedField (.text name, v) = true := by
  simp [isGuardedField, hname, hkind]

/-- An attribute with a default that does not have to be refused. -/
theorem isGuardedField_given (ho : ∀ e ∈ o, isGuardedField e = true) {name : String} {default : Value}
    (hdefault : isGuardedField (.text name, default) = true) {r : Fields}
    (hr : ∀ e ∈ r, isGuardedField e = true) :
    ∀ e ∈ given o name default :: r, isGuardedField e = true := by
  refine List.forall_mem_cons.mpr ⟨?_, hr⟩
  unfold given
  cases hget : Fields.get? o name with
  | none => exact hdefault
  | some v => exact ho _ (Fields.mem_of_get? hget)

theorem isGuardedField_baseFields (kind : ResourceKind) (ho : ∀ e ∈ o, isGuardedField e = true)
    (length : Value) : ∀ e ∈ baseFields kind o (.text id) length, isGuardedField e = true := by
  have hnil : ∀ e ∈ ([] : Fields), isGuardedField e = true := fun _ he => (nomatch he)
  unfold baseFields
  refine List.forall_mem_cons.mpr ⟨isGuardedField_of_not_color (by decide) (by decide) _, ?_⟩
  refine List.forall_mem_cons.mpr ⟨isGuardedField_of_not_color (by decide) (by decide) _, ?_⟩
  iterate 4 refine isGuardedField_given ho (by decide +kernel) ?_
  refine List.forall_mem_cons.mpr ⟨isGuardedField_of_not_color (by decide) (by decide) _, ?_⟩
  repeat' refine isGuardedField_given ho (by decide +kernel) ?_
  exact hnil

theorem isGuardedField_kindFields (kind : ResourceKind) (ho : ∀ e ∈ o, isGuardedField e = true) :
    ∀ e ∈ kindFields kind o, isGuardedField e = true := by
  have hnil : ∀ e ∈ ([] : Fields), isGuardedField e = true := fun _ he => (nomatch he)
  unfold kindFields
  cases kind
  all_goals
    repeat' refine isGuardedField_given ho (by decide +kernel) ?_
    exact hnil

/-- What is filled in does not have to be refused. -/
theorem isGuardedField_fillIn (kind : ResourceKind) (ho : ∀ e ∈ o, isGuardedField e = true)
    (length : Value) : ∀ e ∈ fillIn (baseFields kind o (.text id) length ++ kindFields kind o) o,
      isGuardedField e = true := by
  intro e he
  rcases mem_fillIn he with hmem | hmem
  · rcases List.mem_append.mp hmem with hmem | hmem
    · exact isGuardedField_baseFields kind ho length e hmem
    · exact isGuardedField_kindFields kind ho e hmem
  · exact ho e hmem

/-- Guarded colors become numbers or are refused by a rule. -/
theorem reports_normalizeColors (hguard : g = true → ∀ e ∈ fs, isGuardedField e = true) :
    Reports g (normalizeColors fs) := by
  induction fs with
  | nil => exact .of_ok []
  | cons e r ih =>
    obtain ⟨key, v⟩ := e
    have hhead : g = true → isGuardedField (key, v) = true :=
      fun hg => hguard hg _ List.mem_cons_self
    have htail : g = true → ∀ e ∈ r, isGuardedField e = true :=
      fun hg e he => hguard hg e (List.mem_cons_of_mem _ he)
    cases key with
    | text name =>
      have hrest : ∀ w, Reports g
          (normalizeColors r >>= fun rest => pure ((Value.text name, w) :: rest)) :=
        fun w => (ih htail).bind fun _ _ => .of_ok _
      rw [normalizeColors, ok_bind]
      dsimp only
      split
      · next hcolor =>
        rw [Bool.and_eq_true, Bool.not_eq_true'] at hcolor
        refine .bind (Color.reports_read fun hg => ?_) fun w _ => hrest w
        have hfield := hhead hg
        simp only [isGuardedField, hcolor.1, hcolor.2, Bool.and_eq_true] at hfield
        exact hfield.2
      · exact hrest v
    | _ =>
      intro _ _ hg
      cases hhead hg

theorem reports_checkOpacity (v : Value) : Reports g (checkOpacity v) := by
  unfold checkOpacity
  split
  · exact .of_ok ()
  · split
    · exact .of_refuse rfl
    · split
      · exact .of_refuse rfl
      · exact .of_ok ()

/-- A length that has a double is one of a resource. -/
theorem reports_duration {v : Value} (h : g = true → v.hasDouble = true) (fallback : Int) :
    Reports g (duration v fallback) := by
  unfold duration
  split
  · exact .of_ok _
  · split
    · next hlarge =>
      intro _ _ hg
      rw [Value.hasDouble_of_toDouble hlarge] at h
      cases h hg
    · exact .of_ok _
    · exact .of_ok _

theorem checkNames_of_isGuardedField (ho : ∀ e ∈ o, isGuardedField e = true) :
    checkNames [kindWord] o = .ok () := by
  unfold checkNames
  refine if_pos (List.all_eq_true.mpr fun e he => ?_)
  have hguard := ho e he
  obtain ⟨key, v⟩ := e
  cases key with
  | text name =>
    rw [isGuardedField, Bool.and_eq_true, bne_iff_ne] at hguard
    simpa using hguard.1
  | _ => cases hguard

theorem createOf_ends {σ : Type} (kind : ResourceKind) (hid : Fields.get o "id" = .text id) (s : σ)
    (ho : g = true → ∀ e ∈ o, isGuardedField e = true)
    (hdouble : g = true → (Fields.get o "durationMs").hasDouble = true) :
    (createOf kind o : Act σ Fields).Ends s (Fault.IsReportIf g) fun fs t =>
      t = s ∧ ∃ length, Made kind o fs id length := by
  unfold createOf
  rw [hid]
  refine .bind_known (show Value.toText (.text id) = .ok id from rfl) ?_
  refine .bind_ofResult (fun length hlength => ?_) (reports_duration hdouble 2000)
  refine .bind_ofResult (fun fs hfs => ?_)
    (reports_normalizeColors fun hg => isGuardedField_fillIn kind (ho hg) length)
  exact .bind_ofResult (fun _ _ => .of_pure ⟨rfl, length, hlength, hfs⟩) (reports_checkOpacity _)

/-- A new resource is made of guarded fields, or a rule refuses them. -/
theorem create_ends {σ : Type} {kind : Value} (hid : Fields.get o "id" = .text id) (s : σ)
    (hkind : g = true → kind.hasText = true) (ho : g = true → ∀ e ∈ o, isGuardedField e = true)
    (hdouble : g = true → (Fields.get o "durationMs").hasDouble = true) :
    (create kind o : Act σ Fields).Ends s (Fault.IsReportIf g) fun fs t =>
      t = s ∧ ∃ k length, kind = .text (ResourceKind.word k) ∧ Made k o fs id length := by
  unfold create
  refine .bind_ofResult (fun _ _ => ?_) fun fault hfault hg => ?_
  · split
    · next k hk =>
      exact (createOf_ends k hid s ho hdouble).mono fun fs t h =>
        ⟨h.1, k, h.2.imp fun length hmade => ⟨ResourceKind.eq_word_of_ofValue? hk, hmade⟩⟩
    · exact .of_stop fun hg => Cause.isReport_fault rfl rfl (hkind hg)
  · rw [checkNames_of_isGuardedField (ho hg)] at hfault
    cases hfault

end Resource

/-! ## Section 3: The store -/

namespace Store

variable {g : Bool}

theorem reports_checkNew (store : Store) {fs : Fields} (hkind : (Fields.get fs "type").hasText = true)
    (hid : (Fields.get fs "id").hasText = true) : Reports g (checkNew store fs) := by
  unfold checkNew
  dsimp only
  split
  · exact .of_refuse (Cause.isReport_fault rfl rfl hkind)
  · split
    · exact .of_refuse rfl
    · split
      · exact .of_refuse (Cause.isReport_fault rfl rfl hid)
      · exact Resource.reports_checkOpacity _

/-- A resource comes behind the others, or a rule refuses it. -/
theorem add_ends {fs : Fields} (hkind : (Fields.get fs "type").hasText = true)
    (hid : (Fields.get fs "id").hasText = true) (store : Store) :
    (add (.dict fs)).Ends store (Fault.IsReportIf g) fun _ store' =>
      store' = ⟨store.resources ++ [fs]⟩ := by
  unfold add
  exact .bind_get (.bind_ofResult (fun _ _ => .bind_modify (.of_pure rfl))
    (reports_checkNew store hkind hid))

end Store

namespace Project

variable {g : Bool}

/-! ## Section 4: Entries one after the other -/

/-- What is true of the entries that have been loaded, with each one that follows, is true of all of
them at the end.  An entry comes behind those that have been loaded and in front of those that are left. -/
theorem forEach_ends_split {f : Nat → Value → Act Project Unit} {start : Nat} {items : List Value}
    {e : Fault → Prop} {q : List Value → Project → Prop}
    (hf : ∀ loaded v left p, loaded ++ v :: left = items → q loaded p →
      (f (start + loaded.length) v).Ends p e fun _ p' => q (loaded ++ [v]) p')
    {p : Project} (h : q [] p) : (forEach f start items).Ends p e fun _ p' => q items p' := by
  -- the entries are split into those that have been loaded and those that are left
  suffices hrest : ∀ rest loaded p, loaded ++ rest = items → q loaded p →
      (forEach f (start + loaded.length) rest).Ends p e fun _ p' => q items p' from
    hrest items [] p rfl h
  intro rest
  induction rest with
  | nil =>
    intro loaded p hitems hq
    rw [List.append_nil] at hitems
    exact .of_pure (hitems ▸ hq)
  | cons v r ih =>
    intro loaded p hitems hq
    refine (hf loaded v r p hitems hq).bind fun _ p' hq' => ?_
    have hnext := ih (loaded ++ [v]) p' (by rw [← hitems, List.append_assoc]; rfl) hq'
    rwa [List.length_append, List.length_singleton, ← Nat.add_assoc] at hnext

/-- The same where nothing else has to be known of an entry than that it is one. -/
theorem forEach_ends {f : Nat → Value → Act Project Unit} {start : Nat} {items : List Value}
    {e : Fault → Prop} {q : List Value → Project → Prop}
    (hf : ∀ loaded v p, v ∈ items → q loaded p →
      (f (start + loaded.length) v).Ends p e fun _ p' => q (loaded ++ [v]) p')
    {p : Project} (h : q [] p) : (forEach f start items).Ends p e fun _ p' => q items p' := by
  refine forEach_ends_split (fun loaded v left p hitems => hf loaded v p ?_) h
  rw [← hitems]
  exact List.mem_append_right _ List.mem_cons_self

/-! ## Section 5: The resources of a description -/

/-- The resource of an entry comes behind the others. -/
theorem loadResource_ends (index : Nat) (entry : Value) (p : Project)
    (hguard : g = true → Resource.isGuarded entry = true) :
    (loadResource index entry).Ends p (Fault.IsReportIf g) fun _ p' =>
      ∃ fs, Resource.LoadedFrom entry fs ∧ p' = { p with store := ⟨p.store.resources ++ [fs]⟩ } := by
  unfold loadResource
  split
  · next es =>
    have hshows : g = true → (Fields.get es "id").hasText = true
        ∧ (Fields.get es "type").hasText = true := by
      intro hg
      have h := hguard hg
      simp only [Resource.isGuarded, Bool.and_eq_true] at h
      exact h.1.1.1
    dsimp only
    split
    · exact .bind_stop fun _ => rfl
    split
    · exact .bind_stop fun _ => rfl
    refine .bind_ofResult (fun shown hshown => ?_) (Reports.of_toText fun hg => (hshows hg).1)
    obtain rfl := Value.eq_shown_of_toText hshown
    refine .bind_ofResult (fun o ho => ?_) (Resource.reports_resourceFields hguard)
    obtain ⟨hid, hlength, hfields⟩ := Resource.of_resourceFields ho
    have hguarded : g = true → (∀ e ∈ o, Resource.isGuardedField e = true)
        ∧ (Fields.get o "durationMs").hasDouble = true := by
      intro hg
      have h := hguard hg
      simp only [Resource.isGuarded, Bool.and_eq_true, hlength, Option.all_some, List.all_eq_true,
        Value.fields_dict] at h
      refine ⟨fun e he => ?_, h.2⟩
      obtain ⟨key, v⟩ := e
      rcases hfields _ he with hmem | hkey | hkey
      · exact h.1.1.2 _ hmem
      · obtain rfl : key = _ := hkey
        exact Resource.isGuardedField_of_not_color (by decide) (by decide) v
      · obtain rfl : key = _ := hkey
        exact Resource.isGuardedField_of_not_color (by decide) (by decide) v
    refine (Resource.create_ends hid p (fun hg => (hshows hg).2) (fun hg => (hguarded hg).1)
      fun hg => (hguarded hg).2).bind ?_
    rintro fs p ⟨rfl, k, length, hkind, hmade⟩
    have hms : Fields.get fs "durationMs" = length := hmade.get_eq (by decide) rfl
    have hownId : Fields.get fs "id" = .text (Fields.get es "id").shown := hmade.get_eq (by decide) rfl
    have hownKind : Fields.get fs "type" = .text k.word := hmade.get_eq (by decide) rfl
    have hloaded : Resource.LoadedFrom (.dict es) fs := by
      refine ⟨⟨es, rfl⟩, hownId, hownKind.trans hkind.symm, ⟨k, hkind⟩, _, hlength, ?_⟩
      rw [hms]
      exact hmade.duration_eq
    refine (Act.Ends.of_on ((Store.add_ends (hownKind ▸ rfl) (hownId ▸ rfl) _).mono ?_)).bind
      (q := fun _ p' => p' = { p with store := ⟨p.store.resources ++ [fs]⟩ }) ?_
    · rintro _ store rfl
      rfl
    · rintro _ p' rfl
      exact .of_pure ⟨fs, hloaded, rfl⟩
  · exact .of_stop fun _ => rfl

/-- There is a resource for each entry, in their order. -/
theorem loadResources_ends (v : Value) (p : Project) (hp : p.store.resources = [])
    (hguard : g = true → v.entries.all Resource.isGuarded = true) :
    (loadResources v).Ends p (Fault.IsReportIf g) fun _ p' =>
      ∃ resources, List.Forall₂ Resource.LoadedFrom v.entries resources
        ∧ p' = { p with store := ⟨resources⟩ } := by
  unfold loadResources
  split
  · refine .of_pure ⟨[], .nil, ?_⟩
    rw [← hp]
  · next items =>
    refine forEach_ends (q := fun loaded p' => ∃ resources,
      List.Forall₂ Resource.LoadedFrom loaded resources ∧ p' = { p with store := ⟨resources⟩ })
      ?_ ⟨[], .nil, by rw [← hp]⟩
    rintro loaded entry _ hentry ⟨resources, hloaded, rfl⟩
    refine (loadResource_ends _ entry _ fun hg => ?_).mono ?_
    · exact List.all_eq_true.mp (hguard hg) entry hentry
    · rintro _ _ ⟨fs, hfs, rfl⟩
      exact ⟨resources ++ [fs], List.rel_append hloaded (.cons hfs .nil), rfl⟩
  · exact .of_stop fun _ => rfl

end Project

end Overlay
