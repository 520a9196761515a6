import Overlay.Proofs.Resource.Identity
import Overlay.Script.Emission

/-!
# Where resources are looked up

A script is compiled from tracks and from resources, which are given as a list, as a store or as a
mapping from ids.  A list may hold several resources with one id, and then only the first of them is
found; a store refuses such a list.  So a list that a store takes compiles like the store, and like
the mapping from the ids to the resources, whatever its order.

## Main definitions
- `Emission.byId`: the mapping from ids to resources
- `Emission.NamesTexts`: tracks whose clips name their resources by texts, or name none

## Main statements
- `Store.taken_of_addAll`: a store keeps the resources that it takes as they are
- `Emission.tableOf_byId`: a list of resources with different ids is read as their mapping
- `Emission.trackBlocks_congr`: sources that find the same resources give the same blocks
-/

namespace Overlay

/-! ## Section 1: Stores from lists -/

namespace Store

variable {store store' : Store} {w w' : Surroundings}

/-- What a store takes is a mapping whose id was free. -/
theorem taken_of_add {v : Value} {fs : Fields}
    (h : (add v).perform store w = (.ok fs, store', w')) :
    v = .dict fs ∧ store.find? (Resource.idOf fs) = none ∧ store' = ⟨store.resources ++ [fs]⟩ := by
  cases v with
  | dict gs =>
    cases hcheck : checkNew store gs with
    | error fault => simp [add, Act.perform_bind, hcheck] at h
    | ok u =>
      obtain ⟨rfl, rfl, -⟩ : gs = fs ∧ ⟨store.resources ++ [gs]⟩ = store' ∧ w = w' := by
        simpa [add, Act.perform_bind, hcheck] using h
      exact ⟨rfl, (of_checkNew hcheck).2, rfl⟩
  | _ => cases congrArg Prod.fst h

/-- The resources that a store takes follow the ones it had; if the ids before were different, they
still are. -/
theorem taken_of_addAll {items : List Value}
    (h : (addAll items).perform store w = (.ok (), store', w')) :
    ∃ resources, items = resources.map Value.dict
      ∧ store'.resources = store.resources ++ resources
      ∧ ((∀ fs ∈ resources, (Resource.idOf fs).isProper = true) → Keyed store.resources →
        Keyed store'.resources) := by
  induction items generalizing store w with
  | nil =>
    obtain rfl : store = store' := congrArg (fun r => r.2.1) h
    exact ⟨[], rfl, (List.append_nil _).symm, fun _ hkeyed => hkeyed⟩
  | cons v r ih =>
    rw [addAll, Act.perform_bind] at h
    generalize hadd : (add v).perform store w = added at h
    obtain ⟨fault | fs, next, w₁⟩ := added
    · cases congrArg Prod.fst h
    · obtain ⟨rfl, hfree, rfl⟩ := taken_of_add hadd
      obtain ⟨resources, rfl, hresources, hkeyed⟩ := ih h
      rw [List.append_assoc, List.singleton_append] at hresources
      refine ⟨fs :: resources, rfl, hresources, fun hproper hstore => ?_⟩
      obtain ⟨hfs, hrest⟩ := List.forall_mem_cons.mp hproper
      refine hkeyed hrest (hstore.concat hfs fun other hother => ?_)
      simpa [hasId, Resource.idOf] using List.find?_eq_none.mp hfree other hother

end Store

namespace Emission

/-! ## Section 2: Lists as mappings -/

/-- The mapping from ids to resources. -/
def byId (resources : List Fields) : Fields :=
  resources.map fun fs => (Resource.idOf fs, .dict fs)

/-- A mapping from ids finds what a store finds. -/
theorem find?_byId (store : Store) (id : Value) :
    Fields.find? (byId store.resources) id = (store.find? id).map Value.dict := by
  rw [Fields.find?, byId, List.find?_map, Option.map_map, Store.find?]
  rfl

theorem distinct_byId {resources : List Fields} (h : Store.Keyed resources) :
    Fields.Distinct (byId resources) :=
  List.pairwise_map.mpr h.differ

/-- No resource of a list hides another one, if the ids are different. -/
theorem tableOf_byId {front rest : List Fields} (hkeyed : Store.Keyed (front ++ rest))
    (hkeys : ∀ fs ∈ rest, (Resource.idOf fs).isKey = true) :
    tableOf (byId front) (rest.map Value.dict) = .ok (byId (front ++ rest)) := by
  induction rest generalizing front with
  | nil => rw [List.append_nil]; rfl
  | cons fs r ih =>
    obtain ⟨hfs, hr⟩ := List.forall_mem_cons.mp hkeys
    have hlook : (Value.dict fs).look "id" .none = .ok (Resource.idOf fs) := rfl
    -- the id is not among those of the resources in front
    have hfree : Fields.find? (byId front) (Resource.idOf fs) = none := by
      rw [Fields.find?_eq_none_iff, byId, List.forall_mem_map]
      intro other hother
      exact (List.pairwise_append.mp hkeyed.differ).2.2 other hother fs List.mem_cons_self
    have hnext : byId front ++ [(Resource.idOf fs, .dict fs)] = byId (front ++ [fs]) := by
      simp [byId]
    rw [List.append_cons] at hkeyed ⊢
    rw [List.map_cons, tableOf, hlook, ok_bind, hfs, hfree]
    exact (congrArg (tableOf · (r.map Value.dict)) hnext).trans (ih hkeyed hr)

/-! ## Section 3: Sources that find the same -/

variable {a b : Source}

/-- Sources that find the same resources for clips give the same blocks, or the same fault. -/
theorem clipBlocks_congr {clips : List Value}
    (h : ∀ c ∈ clips, ∀ id, c.look "resource_id" .none = .ok id → a.find id = b.find id) :
    clipBlocks a clips = clipBlocks b clips := by
  induction clips with
  | nil => rfl
  | cons c r ih =>
    obtain ⟨hc, hr⟩ := List.forall_mem_cons.mp h
    rw [clipBlocks, clipBlocks, ih hr]
    cases hlook : c.look "resource_id" .none with
    | error fault => rfl
    | ok id => rw [ok_bind, ok_bind, hc id hlook]

/-- A track whose clips name their resources by texts, or name none. -/
def NamesTexts (track : Value) : Prop :=
  ∀ v clips, track.look "clips" (.list []) = .ok v → v.items = .ok clips →
    ∀ c ∈ clips, ∀ id, c.look "resource_id" .none = .ok id → id = .none ∨ ∃ s, id = .text s

theorem trackBlocks_congr (hnone : a.find .none = b.find .none)
    (htext : ∀ s, a.find (.text s) = b.find (.text s)) {tracks : List Value}
    (h : ∀ t ∈ tracks, NamesTexts t) : trackBlocks a tracks = trackBlocks b tracks := by
  induction tracks with
  | nil => rfl
  | cons t r ih =>
    obtain ⟨ht, hr⟩ := List.forall_mem_cons.mp h
    have hclips : ∀ v clips, t.look "clips" (.list []) = .ok v → v.items = .ok clips →
        clipBlocks a clips = clipBlocks b clips := by
      intro v clips hlook hitems
      refine clipBlocks_congr fun c hc id hid => ?_
      rcases ht v clips hlook hitems c hc id hid with rfl | ⟨s, rfl⟩
      · exact hnone
      · exact htext s
    rw [trackBlocks, trackBlocks, ih hr]
    cases hlook : t.look "clips" (.list []) with
    | error fault => rfl
    | ok v =>
      cases hitems : v.items with
      | error fault => simp only [ok_bind, hitems, error_bind]
      | ok clips => simp only [ok_bind, hitems, hclips v clips hlook hitems]

/-! ## Section 4: Scripts -/

/-- Resources whose ids are texts. -/
def HaveTextIds (resources : List Fields) : Prop :=
  ∀ fs ∈ resources, ∃ s, Resource.idOf fs = .text s

/-- The script of tracks whose clips name texts is the same for a store and for every mapping from
ids with the same entries. -/
theorem trackBlocks_table {store : Store} {m : Fields} {tracks : List Value}
    (hkeyed : Store.Keyed store.resources) (hids : HaveTextIds store.resources)
    (hm : m.Perm (byId store.resources)) (htracks : ∀ t ∈ tracks, NamesTexts t) :
    trackBlocks (.table m) tracks = trackBlocks (.store store) tracks := by
  refine trackBlocks_congr ?_ (fun s => ?_) htracks
  · -- nothing is found under the absent value, which is no text
    have hm_none : Fields.find? m .none = none := by
      rw [Fields.find?_eq_none_iff]
      intro e he
      obtain ⟨fs, hfs, rfl⟩ := List.mem_map.mp (hm.mem_iff.mp he)
      obtain ⟨s, hs⟩ := hids fs hfs
      rw [hs]
      rfl
    have hstore_none : store.find? .none = none := by
      rw [Store.find?, List.find?_eq_none]
      intro fs hfs
      obtain ⟨s, hs⟩ := hids fs hfs
      rw [Store.hasId, ← Resource.idOf, hs]
      exact Bool.false_ne_true
    simp [Source.find, hm_none, hstore_none, Value.isKey]
  · have hget := (Fields.get?_perm (distinct_byId hkeyed) hm s).trans
      (find?_byId store (.text s))
    rw [Fields.get?] at hget
    simp [Source.find, hget, Value.isKey]

/-- A list of resources with texts as ids that a store takes is kept as it is, and scripts are the
same, or fail in the same way, whether the resources are looked up in the list, in the store or in a
mapping from the ids. -/
theorem timeline_of_sources {items : List Value} {store : Store} {w w' : Surroundings}
    (hstore : (Store.ofValue (.list items)).perform Store.empty w = (.ok (), store, w'))
    (hids : ∀ fs, .dict fs ∈ items → ∃ s, Resource.idOf fs = .text s) {tracks : List Value}
    (htracks : ∀ t ∈ tracks, NamesTexts t) {m : Fields} (hm : m.Perm (byId store.resources)) :
    store.toValues = items
      ∧ timeline (.list tracks) (Source.ofValue (.list items))
        = timeline (.list tracks) (.ok (.store store))
      ∧ timeline (.list tracks) (Source.ofValue (.dict m))
        = timeline (.list tracks) (.ok (.store store)) := by
  have hadd : (Store.addAll items).perform Store.empty w = (.ok (), store, w') := by
    cases items with
    | nil => exact hstore
    | cons v r => exact hstore
  obtain ⟨resources, rfl, hresources, hkeyed⟩ := Store.taken_of_addAll hadd
  obtain rfl : store.resources = resources := hresources
  have htexts : HaveTextIds store.resources := fun fs hfs => hids fs (List.mem_map_of_mem hfs)
  have hkeys : ∀ fs ∈ store.resources,
      (Resource.idOf fs).isProper = true ∧ (Resource.idOf fs).isKey = true := by
    intro fs hfs
    obtain ⟨s, hs⟩ := htexts fs hfs
    rw [hs]
    exact ⟨rfl, rfl⟩
  have hdifferent : Store.Keyed store.resources :=
    hkeyed (fun fs hfs => (hkeys fs hfs).1) Store.Keyed.nil
  have hlist : Source.ofValue (.list (store.resources.map Value.dict))
      = .ok (.table (byId store.resources)) := by
    have htable := @tableOf_byId [] _ hdifferent fun fs hfs => (hkeys fs hfs).2
    exact congrArg (Except.map Source.table) htable
  have hscript : ∀ m' : Fields, m'.Perm (byId store.resources) →
      timeline (.list tracks) (.ok (.table m')) = timeline (.list tracks) (.ok (.store store)) := by
    intro m' hm'
    simp only [timeline, ok_bind, ofTracks, trackBlocks_table hdifferent htexts hm' htracks]
  rw [hlist]
  exact ⟨rfl, hscript _ (List.Perm.refl _), hscript m hm⟩

/-- A track with a clip for each of some ids. -/
def trackOf (ids : List Value) : Value :=
  .dict [(.text "clips", .list (ids.map fun id => .dict [(.text "id", .text "c"),
    (.text "resource_id", id), (.text "start_time", .int 0), (.text "duration", .int 1000)]))]

theorem namesTexts_trackOf {ids : List Value} (h : ∀ id ∈ ids, id = .none ∨ ∃ s, id = .text s) :
    NamesTexts (trackOf ids) := by
  intro v clips hlook hitems c hc id hid
  obtain rfl := Except.ok.inj hlook
  obtain rfl := Except.ok.inj hitems
  obtain ⟨id', hid', rfl⟩ := List.mem_map.mp hc
  obtain rfl : id' = id := Except.ok.inj hid
  exact h id' hid'

/-- A text and a path. -/
def twoResources : List Fields :=
  [[(.text "id", .text "t"), (.text "type", .text "text"), (.text "content", .text "Hi")],
    [(.text "id", .text "p"), (.text "type", .text "path"), (.text "d", .text "M 0 0")]]

/-- Clips of both resources, of one that is not there and of none; the mapping lists the resources
the other way round. -/
theorem timeline_of_sources_sample :
    timeline (.list [trackOf [.text "p", .text "t", .text "gone", .none]])
        (Source.ofValue (.list (twoResources.map Value.dict)))
      = timeline (.list [trackOf [.text "p", .text "t", .text "gone", .none]])
        (.ok (.store ⟨twoResources⟩))
    ∧ timeline (.list [trackOf [.text "p", .text "t", .text "gone", .none]])
        (Source.ofValue (.dict (byId twoResources.reverse)))
      = timeline (.list [trackOf [.text "p", .text "t", .text "gone", .none]])
        (.ok (.store ⟨twoResources⟩)) := by
  refine (@timeline_of_sources (twoResources.map Value.dict) ⟨twoResources⟩ default default
    rfl ?_ _ ?_ _ (List.Perm.swap _ _ _)).2
  · intro fs hfs
    obtain ⟨gs, hgs, heq⟩ := List.mem_map.mp hfs
    obtain rfl := Value.dict.inj heq
    rcases List.mem_pair.mp hgs with rfl | rfl
    · exact ⟨"t", rfl⟩
    · exact ⟨"p", rfl⟩
  · rw [List.forall_mem_singleton]
    refine namesTexts_trackOf ?_
    simp

end Emission

end Overlay
