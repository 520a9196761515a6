import Overlay.Proofs.Resource.Identity
import Mathlib.Logic.Relation

/-!
# Histories of stores

A store is made from a list and then goes through any row of operations.  At each moment its
resources have ids that differ, known kinds and opacities that are opacities, and a look-up finds the
only resource with an id.  An operation that fails leaves the store as it was.

The kind and the id of a resource are guarded by a look into the changes as they are given.  A list
of pairs has no keys to be found, so the guard sees changes of kind and id only in a mapping.

## Main definitions
- `Resource.Lawful`, `Store.Lawful`: the laws for resources and for stores
- `Store.Command`, `Store.run`: the operations
- `Store.Outcome`: all that an operation can come to
- `Store.KeepsIdentity`: changes that cannot get around the guard

## Main statements
- `Store.run_outcome`: every operation comes to one of its outcomes
- `Store.Outcome.lawful`: what an operation keeps
- `Store.lawful_of_steps`: a store keeps the laws, and each operation does only what it is for
-/

namespace Overlay

namespace Resource

/-! ## Section 1: Laws for resources -/

/-- No opacity, or a number that lies neither below zero nor above one. -/
def IsOpacity (v : Value) : Prop :=
  v = .none ∨ ∃ n, v.plainNumber? = some n ∧ n.lt (.int 0) = false ∧ (Number.int 1).lt n = false

/-- A resource with an id, a known kind and an opacity. -/
structure Lawful (fs : Fields) : Prop where
  id : idOf fs ≠ .none
  kind : ∃ k : ResourceKind, Fields.get fs "type" = .text k.word
  opacity : IsOpacity (Fields.get fs "opacity")

/-- A field with a name, which holds nothing or an integer if it is named after a color. -/
def IsColored (e : Value × Value) : Prop :=
  ∃ name, e.1 = .text name ∧ (isColorName name = true → e.2 = .none ∨ ∃ i, e.2 = .int i)

theorem isOpacity_of_checkOpacity {v : Value} (h : checkOpacity v = .ok ()) : IsOpacity v := by
  unfold checkOpacity at h
  split at h
  · exact Or.inl rfl
  · split at h
    · cases h
    · next n hn =>
      split at h
      · cases h
      · next hrange => exact Or.inr ⟨n, hn, by simpa using hrange⟩

theorem isColored_of_normalizeColors {fs fs' : Fields} (h : normalizeColors fs = .ok fs') :
    ∀ e ∈ fs', IsColored e := by
  induction fs generalizing fs' with
  | nil =>
    rw [← Except.ok.inj h]
    exact fun _ he => (nomatch he)
  | cons e r ih =>
    obtain ⟨key, v⟩ := e
    cases key with
    | text name =>
      rw [normalizeColors, ok_bind] at h
      dsimp only at h
      split at h
      · obtain ⟨w, hw, h⟩ := bind_eq_ok.mp h
        obtain ⟨rest, hrest, h⟩ := bind_eq_ok.mp h
        rw [← Except.ok.inj h]
        exact List.forall_mem_cons.mpr ⟨⟨name, rfl, fun _ => read_cases hw⟩, ih hrest⟩
      · next hnone =>
        rw [ok_bind] at h
        obtain ⟨rest, hrest, h⟩ := bind_eq_ok.mp h
        rw [← Except.ok.inj h]
        refine List.forall_mem_cons.mpr ⟨⟨name, rfl, fun hcolor => Or.inl ?_⟩, ih hrest⟩
        exact (Value.isNone_iff v).mp (by simpa [hcolor] using hnone)
    | _ => cases h

end Resource

namespace Store

variable {store store' : Store} {fs new : Fields} {id updates : Value}

/-! ## Section 2: What is checked -/

/-- A resource that may be added obeys the laws. -/
theorem lawful_of_checkNew (h : checkNew store fs = .ok ()) : Resource.Lawful fs := by
  have hkind := ResourceKind.word_of_ofValue? (of_checkNew h).1
  have hrefused : ∀ (cause : Cause) (f : Unit → Result Unit), ¬(refuse cause >>= f) = .ok () :=
    fun _ _ h => nomatch h
  unfold checkNew at h
  dsimp only at h
  split at h
  · exact absurd h (hrefused _ _)
  · split at h
    · exact absurd h (hrefused _ _)
    · next hid =>
      split at h
      · exact absurd h (hrefused _ _)
      · exact ⟨mt (Value.isNone_iff _).mpr hid, hkind, Resource.isOpacity_of_checkOpacity h⟩

/-- Changes that cannot get around the guard of kind and id: a mapping, or pairs that give neither. -/
def KeepsIdentity : Value → Prop
  | .dict us => (Value.dict us).isProper = true
  | updates => ∀ us, updates.toFields = .ok us →
    Fields.get? us "type" = none ∧ Fields.get? us "id" = none

theorem keepsIdentity_dict {us : Fields} :
    KeepsIdentity (.dict us) ↔ (Value.dict us).isProper = true :=
  Iff.rfl

/-- The colors and the opacity of an update that is made, whatever it is given as. -/
theorem exists_of_updated (h : updated fs updates = .ok new) :
    ∃ us, updates.toFields = .ok us ∧ changes fs updates "type" = .ok false
      ∧ changes fs updates "id" = .ok false
      ∧ Resource.normalizeColors (Fields.merge fs us) = .ok new
      ∧ Resource.checkOpacity (Fields.get new "opacity") = .ok () := by
  have hrefused : ∀ (cause : Cause) (f : Unit → Result Fields), ¬(refuse cause >>= f) = .ok new :=
    fun _ _ h => nomatch h
  unfold updated at h
  obtain ⟨retyped, hretyped, h⟩ := bind_eq_ok.mp h
  extract_lets next check at h
  cases retyped with
  | true => exact absurd h (hrefused _ _)
  | false =>
    obtain ⟨renamed, hrenamed, h⟩ := bind_eq_ok.mp h
    cases renamed with
    | true => exact absurd h (hrefused _ _)
    | false =>
      obtain ⟨us, hus, h⟩ := bind_eq_ok.mp h
      obtain ⟨colored, hcolored, h⟩ := bind_eq_ok.mp h
      obtain ⟨⟨⟩, hopacity, h⟩ := bind_eq_ok.mp h
      rw [← Except.ok.inj h]
      exact ⟨us, hus, hretyped, hrenamed, hcolored, hopacity⟩

theorem changes_of_get?_eq_none {us : Fields} {name : String} (h : Fields.get? us name = none) :
    changes fs (.dict us) name = .ok false := by
  have hcontains : (Value.dict us).contains name = .ok false := by
    rw [Value.contains, Fields.has, h]
    rfl
  rw [changes, hcontains]
  rfl

/-- An update that cannot get around the guard is one by a mapping. -/
theorem exists_updated (hkeeps : KeepsIdentity updates) (h : updated fs updates = .ok new) :
    ∃ us, Updated fs us new ∧ Fields.Distinct us
      ∧ ∀ id, Fields.get? us "id" = some id → id.isProper = true := by
  obtain ⟨us, hus, hretyped, hrenamed, hcolored, -⟩ := exists_of_updated h
  cases updates with
  | dict us' =>
    obtain rfl := Except.ok.inj hus
    exact ⟨us', ⟨hretyped, hrenamed, hcolored⟩, (Value.isProper_dict.mp hkeeps).1,
      fun id hid => Value.proper_of_get? hkeeps hid⟩
  | _ =>
    obtain ⟨hkind, hid⟩ := hkeeps us hus
    refine ⟨us, ⟨changes_of_get?_eq_none hkind, changes_of_get?_eq_none hid, hcolored⟩,
      Fields.distinct_of_toFields (fun gs hgs => by cases hgs) hus, fun id hget => ?_⟩
    cases hid.symm.trans hget

/-- What an updated resource has in common with the one that it was. -/
structure Succeeds (fs new : Fields) : Prop where
  lawful : Resource.Lawful new
  kind_eq : Fields.get new "type" = Fields.get fs "type"
  proper : (Resource.idOf new).isProper = true
  id_cases : Resource.idOf new = Resource.idOf fs
    ∨ (Resource.idOf new).same (Resource.idOf fs) = true

/-- An update that cannot get around the guard keeps kind and id. -/
theorem succeeds_of_updated (hkeeps : KeepsIdentity updates) (h : updated fs updates = .ok new)
    (hfs : Resource.Lawful fs) (hproper : (Resource.idOf fs).isProper = true) : Succeeds fs new := by
  obtain ⟨us, hupdated, hdistinct, hgiven⟩ := exists_updated hkeeps h
  obtain ⟨-, -, -, -, -, hopacity⟩ := exists_of_updated h
  obtain ⟨k, hk⟩ := hfs.kind
  have hkind : Fields.get new "type" = Fields.get fs "type" := by
    rcases hupdated.get_cases hdistinct (by decide) hupdated.kind with hkept | ⟨-, hsame⟩
    · exact hkept
    · rw [hk] at hsame ⊢
      exact Value.same_text.mp hsame
  have hid : Resource.idOf new = Resource.idOf fs ∨ Fields.get? us "id" = some (Resource.idOf new)
      ∧ (Resource.idOf new).same (Resource.idOf fs) = true :=
    hupdated.get_cases hdistinct (by decide) hupdated.id
  refine ⟨⟨fun hnone => ?_, ⟨k, hkind.trans hk⟩, Resource.isOpacity_of_checkOpacity hopacity⟩, hkind,
    ?_, hid.imp_right And.right⟩
  · rw [hnone] at hid
    exact hid.elim (fun heq => hfs.id heq.symm) fun hsame => hfs.id (Value.none_same.mp hsame.2)
  · exact hid.elim (fun heq => by rwa [heq]) fun hsame => hgiven _ hsame.1

/-! ## Section 3: Operations -/

/-- An operation on a store. -/
inductive Command where
  | add (resource : Value)
  | create (kind : Value) (options : Fields)
  | update (id updates : Value)
  | remove (id : Value)

/-- What an operation does, with its answer. -/
def run : Command → Act Store Value
  | .add resource => return .dict (← add resource)
  | .create kind options => return .dict (← create kind options)
  | .update id updates => return .dict (← update id updates)
  | .remove id => return .bool (← remove id)

/-- The store that an operation leaves. -/
def after (store : Store) (w : Surroundings) (command : Command) : Store :=
  ((run command).perform store w).2.1

/-- What an operation can come to: its answer or fault, and the store that it leaves. -/
inductive Outcome (store : Store) : Command → Result Value → Store → Prop where
  | refused (command : Command) (fault : Fault) : Outcome store command (.error fault) store
  | add {fs : Fields} (h : checkNew store fs = .ok ()) :
      Outcome store (.add (.dict fs)) (.ok (.dict fs)) ⟨store.resources ++ [fs]⟩
  | create {kind : Value} {options fs : Fields} (hid : Resource.HasProperId (.dict fs))
      (h : checkNew store fs = .ok ()) :
      Outcome store (.create kind options) (.ok (.dict fs)) ⟨store.resources ++ [fs]⟩
  | update {id updates : Value} {old new : Fields} (hfind : store.find? id = some old)
      (hnew : updated old updates = .ok new) :
      Outcome store (.update id updates) (.ok (.dict new)) ⟨replaceFirst id new store.resources⟩
  | remove (id : Value) :
      Outcome store (.remove id) (.ok (.bool (store.find? id).isSome))
        ⟨eraseFirst id store.resources⟩

theorem add_outcome (store : Store) (resource : Value) :
    (add resource).Leaves store fun r store' =>
      Outcome store (.add resource) (r.map Value.dict) store' := by
  unfold add
  split
  · exact .bind_get (.bind_ofResult
      (fun _ hcheck => .bind_modify (.of_pure (.add hcheck))) fun fault _ => .refused _ fault)
  · exact .of_throw (.refused _ _)

/-- A new resource is added as a given one would be. -/
theorem Outcome.create_of_add {kind : Value} {options : Fields} {r : Result Value}
    (h : Outcome store (.add (.dict fs)) r store') (hid : Resource.HasProperId (.dict fs)) :
    Outcome store (.create kind options) r store' := by
  cases h with
  | refused _ fault => exact .refused _ fault
  | add hcheck => exact .create hid hcheck

theorem create_outcome (store : Store) (kind : Value) (options : Fields) :
    (create kind options).Leaves store fun r store' =>
      Outcome store (.create kind options) (r.map Value.dict) store' := by
  unfold create
  refine .bind_ofResult (fun _ _ => ?_) fun fault _ => .refused _ fault
  refine .bind (Resource.createPreset_leaves kind options store) ?_ ?_
  · rintro fs store ⟨rfl, hfs⟩
    obtain ⟨_, k, id, length, hmade⟩ := hfs fs rfl
    exact (add_outcome store (.dict fs)).mono fun _ _ h => h.create_of_add hmade.hasProperId
  · rintro fault store ⟨rfl, -⟩
    exact .refused _ fault

theorem update_outcome (store : Store) (id updates : Value) :
    (update id updates).Leaves store fun r store' =>
      Outcome store (.update id updates) (r.map Value.dict) store' := by
  unfold update
  refine .bind_get ?_
  split
  · exact .of_stop (.refused _ _)
  · next old hfind =>
    exact .bind_ofResult (fun new hnew => .bind_modify (.of_pure (.update hfind hnew)))
      fun fault _ => .refused _ fault

theorem remove_outcome (store : Store) (id : Value) :
    (remove id).Leaves store fun r store' =>
      Outcome store (.remove id) (r.map Value.bool) store' := by
  unfold remove
  exact .bind_get (.bind_set (.of_pure (.remove id)))

theorem answer_outcome {α : Type} {act : Act Store α} {f : α → Value} {command : Command}
    (h : act.Leaves store fun r store' => Outcome store command (r.map f) store') :
    (act >>= fun a => pure (f a)).Leaves store fun r store' => Outcome store command r store' :=
  .bind h (fun _ _ ho => .of_pure ho) fun _ _ ho => ho

/-- Every operation comes to one of its outcomes. -/
theorem run_outcome (store : Store) (command : Command) :
    (run command).Leaves store fun r store' => Outcome store command r store' := by
  cases command with
  | add resource => exact answer_outcome (add_outcome store resource)
  | create kind options => exact answer_outcome (create_outcome store kind options)
  | update id updates => exact answer_outcome (update_outcome store id updates)
  | remove id => exact answer_outcome (remove_outcome store id)

/-! ## Section 4: Laws for stores -/

/-- A store whose resources can be told apart and obey the laws. -/
structure Lawful (store : Store) : Prop where
  keyed : Keyed store.resources
  resources : ∀ fs ∈ store.resources, Resource.Lawful fs

/-- An operation that is given proper ids, and changes that cannot get around the guard. -/
def Command.Proper : Command → Prop
  | .add resource => Resource.HasProperId resource
  | .update _ updates => KeepsIdentity updates
  | _ => True

theorem Lawful.empty : Lawful Store.empty :=
  ⟨Keyed.nil, fun _ h => (nomatch h)⟩

theorem Lawful.concat (hstore : Lawful store) (hid : Resource.HasProperId (.dict fs))
    (h : checkNew store fs = .ok ()) : Lawful ⟨store.resources ++ [fs]⟩ := by
  constructor
  · refine hstore.keyed.concat hid.idOf fun other hother => ?_
    simpa [hasId, Resource.idOf] using List.find?_eq_none.mp (of_checkNew h).2 other hother
  · refine List.forall_mem_append.mpr ⟨hstore.resources, ?_⟩
    exact List.forall_mem_singleton.mpr (lawful_of_checkNew h)

/-- The resource that is found and updated succeeds the one that it was. -/
theorem Lawful.succeeds (hstore : Lawful store) {old : Fields} (hfind : store.find? id = some old)
    (hkeeps : KeepsIdentity updates) (hnew : updated old updates = .ok new) : Succeeds old new :=
  have hold := List.mem_of_find?_eq_some hfind
  succeeds_of_updated hkeeps hnew (hstore.resources old hold) (hstore.keyed.proper old hold)

/-- Whatever an operation comes to, the store obeys the laws. -/
theorem Outcome.lawful {command : Command} {r : Result Value} (h : Outcome store command r store')
    (hc : command.Proper) (hstore : Lawful store) : Lawful store' := by
  cases h with
  | refused => exact hstore
  | add hcheck => exact hstore.concat hc hcheck
  | create hid hcheck => exact hstore.concat hid hcheck
  | update hfind hnew =>
    have hsucceeds := hstore.succeeds hfind hc hnew
    refine ⟨hstore.keyed.replaceFirst hfind hsucceeds.proper hsucceeds.id_cases, fun fs hfs => ?_⟩
    rcases mem_replaceFirst hfs with rfl | hmem
    · exact hsucceeds.lawful
    · exact hstore.resources fs hmem
  | remove id =>
    have hsub := eraseFirst_sublist id store.resources
    exact ⟨hstore.keyed.of_sublist hsub, fun fs hfs => hstore.resources fs (hsub.subset hfs)⟩

/-! ## Section 5: What operations change -/

/-- No operation changes the kind of a resource that is there before and after it. -/
theorem Outcome.kind_eq {command : Command} {r : Result Value} (h : Outcome store command r store')
    (hc : command.Proper) (hstore : Lawful store) {old : Fields} (hold : old ∈ store.resources)
    (hmem : new ∈ store'.resources)
    (hsame : (Resource.idOf old).same (Resource.idOf new) = true) :
    Fields.get new "type" = Fields.get old "type" := by
  have hkept : new ∈ store.resources → Fields.get new "type" = Fields.get old "type" := fun hnew => by
    rw [hstore.keyed.eq_of_same hold hnew hsame]
  have hadded : ∀ fs, checkNew store fs = .ok () → new ∈ store.resources ++ [fs] →
      Fields.get new "type" = Fields.get old "type" := by
    intro fs hcheck hmem
    refine (List.mem_append.mp hmem).elim hkept fun hnew => ?_
    obtain rfl := List.mem_singleton.mp hnew
    exact absurd hsame (List.find?_eq_none.mp (of_checkNew hcheck).2 old hold)
  cases h with
  | refused => exact hkept hmem
  | add hcheck => exact hadded _ hcheck hmem
  | create hid hcheck => exact hadded _ hcheck hmem
  | update hfind hnew =>
    rcases mem_replaceFirst hmem with rfl | hmem
    · -- the resource that was updated is the only one with its id
      have hsucceeds := hstore.succeeds hfind hc hnew
      have hfound := List.mem_of_find?_eq_some hfind
      have hid := hsucceeds.id_cases.elim (fun heq => heq ▸ hsame) fun hsame' =>
        Value.same_trans (hstore.keyed.proper old hold) hsucceeds.proper
          (hstore.keyed.proper _ hfound) hsame hsame'
      rw [hstore.keyed.eq_of_same hold hfound hid]
      exact hsucceeds.kind_eq
    · exact hkept hmem
  | remove id => exact hkept ((eraseFirst_sublist id store.resources).subset hmem)

/-- What is replaced stands between resources that stay. -/
theorem exists_replaceFirst {l : List Fields} {old : Fields} (h : l.find? (hasId id) = some old)
    (new : Fields) :
    ∃ front back, l = front ++ old :: back ∧ replaceFirst id new l = front ++ new :: back := by
  induction l with
  | nil => cases h
  | cons fs r ih =>
    rw [replaceFirst]
    cases hfs : hasId id fs with
    | true =>
      rw [List.find?_cons_of_pos hfs] at h
      obtain rfl := Option.some.inj h
      exact ⟨[], r, rfl, rfl⟩
    | false =>
      rw [List.find?_cons_of_neg (by simp [hfs])] at h
      obtain ⟨front, back, hr, hreplaced⟩ := ih h
      exact ⟨fs :: front, back, by rw [hr]; rfl, by rw [hreplaced]; rfl⟩

/-- What an operation on a store may do: it fails without a trace, it changes no kind, and an update
changes the one resource that is found, whose colors are integers then. -/
structure Accounted (store : Store) (command : Command) (r : Result Value) (store' : Store) :
    Prop where
  failure : ∀ fault, r = .error fault → store' = store
  kinds : command.Proper → ∀ old ∈ store.resources, ∀ new ∈ store'.resources,
    (Resource.idOf old).same (Resource.idOf new) = true →
      Fields.get new "type" = Fields.get old "type"
  update : ∀ id updates v, command = .update id updates → r = .ok v →
    ∃ front old new back, store.find? id = some old ∧ v = .dict new
      ∧ store.resources = front ++ old :: back ∧ store'.resources = front ++ new :: back
      ∧ ∀ e ∈ new, Resource.IsColored e

theorem Outcome.accounted {command : Command} {r : Result Value}
    (h : Outcome store command r store') (hstore : Lawful store) :
    Accounted store command r store' := by
  refine ⟨fun fault hfault => ?_, fun hc old hold new hnew => h.kind_eq hc hstore hold hnew, ?_⟩
  · cases h with
    | refused => rfl
    | _ => cases hfault
  · rintro id updates v rfl hok
    cases h with
    | refused => cases hok
    | update hfind hnew =>
      obtain ⟨us, -, -, -, hcolored, -⟩ := exists_of_updated hnew
      obtain ⟨front, back, hold, hreplaced⟩ := exists_replaceFirst hfind _
      exact ⟨front, _, _, back, hfind, (Except.ok.inj hok).symm, hold, hreplaced,
        Resource.isColored_of_normalizeColors hcolored⟩

/-! ## Section 6: Histories -/

/-- An operation that is given proper ids, and changes that cannot get around the guard, leads from
one store to another, with success or without. -/
def Step (store store' : Store) : Prop :=
  ∃ command w, command.Proper ∧ store.after w command = store'

theorem addAll_keeps {items : List Value} (h : ∀ v ∈ items, Resource.HasProperId v) :
    Act.Keeps Lawful (addAll items) := by
  induction items with
  | nil => exact .of_pure ()
  | cons v r ih =>
    obtain ⟨hv, hr⟩ := List.forall_mem_cons.mp h
    refine Act.Keeps.bind (fun store hstore => ?_) fun _ => ih hr
    exact (add_outcome store v).mono fun _ _ ho => ho.lawful hv hstore

theorem ofValue_keeps {v : Value}
    (hv : ∀ items, v.items = .ok items → ∀ resource ∈ items, Resource.HasProperId resource) :
    Act.Keeps Lawful (ofValue v) := by
  intro store hstore
  unfold ofValue
  split
  · exact .bind_ofResult (fun items hitems => addAll_keeps (hv items hitems) store hstore)
      fun _ _ => hstore
  · exact .of_pure hstore

/-- A store that is made from a list obeys the laws through every row of operations; a look-up finds
the only resource with an id, and each operation does only what it is for. -/
theorem lawful_of_steps {v : Value}
    (hv : ∀ items, v.items = .ok items → ∀ resource ∈ items, Resource.HasProperId resource)
    {start : Store} {w w' : Surroundings}
    (hstart : (ofValue v).perform empty w = (.ok (), start, w'))
    (hsteps : Relation.ReflTransGen Step start store) :
    Lawful store
      ∧ (∀ id, id.isProper = true →
          store.resources.filter (hasId id) = (store.find? id).toList)
      ∧ ∀ command, (run command).Leaves store (Accounted store command) := by
  have hlawful : Lawful store := by
    induction hsteps with
    | refl =>
      have h := ofValue_keeps hv empty Lawful.empty w
      rwa [hstart] at h
    | tail _ hlast ih =>
      obtain ⟨command, w, hc, rfl⟩ := hlast
      exact (run_outcome _ command w).lawful hc ih
  exact ⟨hlawful, fun id hid => hlawful.keyed.filter_eq hid,
    fun command => (run_outcome store command).mono fun _ _ h => h.accounted hlawful⟩

theorem steps_foldl {commands : List Command} (h : ∀ c ∈ commands, c.Proper) (w : Surroundings) :
    Relation.ReflTransGen Step store (commands.foldl (after · w) store) := by
  induction commands generalizing store with
  | nil => exact Relation.ReflTransGen.refl
  | cons command r ih =>
    obtain ⟨hcommand, hr⟩ := List.forall_mem_cons.mp h
    exact (ih hr).head ⟨command, w, hcommand, rfl⟩

/-- A text with nothing but an id. -/
def sampleText : Fields := [(.text "id", .text "r"), (.text "type", .text "text")]

/-- The store of one text. -/
def sampleStore : Store := ⟨[sampleText]⟩

/-- A button is made; its opacity becomes too large, which is refused, and it gets a color from a list
of pairs. -/
def sampleRow : List Command :=
  [.create (.text "button") [(.text "id", .text "b")],
    .update (.text "b") (.dict [(.text "opacity", .int 2)]),
    .update (.text "b") (.list [.list [.text "fillColor", .text "#ff0000"]])]

def sampleLast : Store :=
  sampleRow.foldl (after · default) sampleStore

theorem perform_ofValue_sample :
    (ofValue (.list [.dict sampleText])).perform empty default = (.ok (), sampleStore, default) :=
  rfl

/-- The sample keeps its text and its button, with the first opacity and the color of the last
update. -/
theorem lawful_of_steps_sample :
    (sampleLast.resources.map fun fs => (Resource.idOf fs).shown) = ["r", "b"]
      ∧ (sampleLast.resources.map fun fs => (Fields.get fs "opacity").shown) = ["None", "1"]
      ∧ (sampleLast.resources.map fun fs => (Fields.get fs "fillColor").shown) = ["None", "16711680"]
      ∧ Lawful sampleLast
      ∧ (∀ id, id.isProper = true →
          sampleLast.resources.filter (hasId id) = (sampleLast.find? id).toList)
      ∧ ∀ command, (run command).Leaves sampleLast (Accounted sampleLast command) := by
  refine ⟨by decide +kernel, by decide +kernel, by decide +kernel,
    lawful_of_steps ?_ perform_ofValue_sample (steps_foldl ?_ default)⟩
  · intro items hitems
    obtain rfl := Except.ok.inj hitems
    exact List.forall_mem_singleton.mpr (Resource.hasProperId_dict rfl)
  · simp only [sampleRow, List.forall_mem_cons, Command.Proper]
    refine ⟨trivial, keepsIdentity_dict.mpr (by decide), fun us hus => ?_, by simp⟩
    rw [← Except.ok.inj hus]
    exact ⟨rfl, rfl⟩

/-- A list of pairs gets around the guard: the text becomes a button. -/
theorem kind_changed_by_pairs :
    (ofValue (.list [.dict sampleText])).perform empty default = (.ok (), sampleStore, default)
      ∧ sampleStore.resources = [sampleText]
      ∧ (sampleStore.after default
          (.update (.text "r") (.list [.list [.text "type", .text "button"]]))).resources
        = [[(.text "id", .text "r"), (.text "type", .text "button")]] :=
  ⟨rfl, rfl, rfl⟩

end Store

end Overlay
