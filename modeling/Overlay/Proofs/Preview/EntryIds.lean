import Mathlib.Data.List.Perm.Basic
import Overlay.Proofs.Fields
import Overlay.Proofs.Preview.Additions

/-!
# The ids of entries

An entry that is loaded without an id gets one from its number, `dm_0001` and so on.  Numbers are used
once, so these ids differ, and so do those that callers give, if they take care of that.  But nobody
looks whether an id is held already, and callers may give an id that a number has led to or is going to
lead to.  Then two entries are held with one id, and both go when one is to be removed.

## Main definitions
- `PreviewEngine.ids`: the ids of all entries
- `PreviewEngine.Takes`: requests whose entry is loaded
- `PreviewEngine.givenIds`, `PreviewEngine.GivenApart`: the ids that callers give
- `PreviewEngine.Played`: engines with the calls that led to them
- `PreviewEngine.Repeats`: calls that load an entry with an id that is held already

## Main statements
- `PreviewEngine.numberedId_injective`: different numbers lead to different ids
- `PreviewEngine.after_cases`: what a call does to the ids
- `PreviewEngine.Played.known`: where the ids come from
- `PreviewEngine.ids_of_played`: when all ids differ, and when they stop to
-/

namespace Overlay.PreviewEngine

open Overlay.Number

variable {options : Fields} {synced : Bool} {calls : List Call} {call : Call} {e : PreviewEngine}
  {request : AddRequest} {dm : Fields} {id : Value}

/-! ## Section 1: Numbers -/

theorem numberedId_injective {m n : Nat} (h : numberedId m = numberedId n) : m = n := by
  have htext : "dm_" ++ String.ofList (padded 4 m) = "dm_" ++ String.ofList (padded 4 n) :=
    Value.text.inj h
  have hdigits : padded 4 m = padded 4 n := by
    simpa using congrArg String.toList htext
  -- the zeros in front do not count
  rw [← ofNumeral_padded 4 m, hdigits, ofNumeral_padded]

/-! ## Section 2: What a call does to the ids -/

/-- The ids of all entries, those for tests included. -/
def ids (e : PreviewEngine) : List Value :=
  (e.entries ++ e.testEntries).map Entry.id

/-- The engine that a call leaves, with success or without. -/
def after (e : PreviewEngine) (w : Surroundings) (call : Call) : PreviewEngine :=
  ((perform call).perform e w).2.1

/-- A request whose entry is loaded: its script is accepted and its start can be read. -/
structure Takes (request : AddRequest) (dm : Fields) : Prop where
  description : (orElse request.entry (.dict [])).toFields = .ok dm
  contents : ∃ parts, contents request dm = .ok parts
  start : ∃ x, (orElse (Fields.get dm "stime") (.int 0)).toDouble = .ok x

/-- The id of the next entry. -/
def nextId (e : PreviewEngine) (dm : Fields) : Value :=
  orElse (Fields.get dm "dmid") (numberedId (e.loaded + 1))

/-- One more entry is held, on the shelf of the request. -/
theorem Takes.after (h : Takes request dm) (e : PreviewEngine) (w : Surroundings) :
    (e.after w (.add request)).ids.Perm (e.nextId dm :: e.ids)
      ∧ (e.after w (.add request)).loaded = e.loaded + 1 := by
  obtain ⟨⟨defs, sets⟩, hcontents⟩ := h.contents
  obtain ⟨start, hstart⟩ := h.start
  have hafter : e.after w (.add request) = shelve request
      (entryOf dm start defs sets (e.loaded + 1)) { e with loaded := e.loaded + 1 } := by
    rw [PreviewEngine.after, perform, perform_add_loaded h.description hcontents hstart]
  rw [hafter]
  unfold shelve ids
  split
  · refine ⟨?_, rfl⟩
    rw [← List.append_assoc, List.map_append]
    exact List.perm_append_singleton _ _
  · refine ⟨?_, rfl⟩
    rw [List.append_assoc, List.map_append, List.map_append, List.map_append]
    exact List.perm_middle

/-- A request whose entry is not loaded leaves the entries as they are. -/
theorem entries_after_add (h : ∀ dm, ¬ Takes request dm) (e : PreviewEngine) (w : Surroundings) :
    (e.after w (.add request)).ids = e.ids ∧ e.loaded ≤ (e.after w (.add request)).loaded := by
  unfold PreviewEngine.after perform
  cases hdm : (orElse request.entry (.dict [])).toFields with
  | error fault =>
    have hleft : ((add request).perform e w).2.1 = e := by
      simp only [add, Act.perform_bind, Act.perform_ofResult, hdm]
    rw [hleft]
    exact ⟨rfl, le_rfl⟩
  | ok dm =>
    cases hcontents : contents request dm with
    | error fault =>
      have hleft : ((add request).perform e w).2.1 = e := by
        simp only [add, Act.perform_bind, Act.perform_ofResult, hdm, hcontents]
        split
        · split
          · rfl
          · rfl
        · rfl
        · next heq => cases heq
      rw [hleft]
      exact ⟨rfl, le_rfl⟩
    | ok parts =>
      cases hstart : (orElse (Fields.get dm "stime") (.int 0)).toDouble with
      | error fault =>
        rw [perform_add_unread hdm hcontents hstart]
        exact ⟨rfl, Nat.le_succ _⟩
      | ok x => exact absurd ⟨hdm, ⟨parts, hcontents⟩, x, hstart⟩ (h dm)

/-- Where the engine is moved to leaves it as it is. -/
theorem left_seek (seconds refresh : Value) (e : PreviewEngine) (w : Surroundings) :
    ((seek seconds refresh).perform e w).2.1 = e := by
  have hleaves : (seek seconds refresh).Leaves e fun _ t => t = e := by
    unfold seek
    split
    · refine .bind_ofResult (fun n _ => ?_) fun _ _ => rfl
      refine .bind_ofResult (fun ms _ => ?_) fun _ _ => rfl
      exact .bind_ofResult (fun shown _ => .of_note rfl) fun _ _ => rfl
    · exact .of_pure rfl
  exact hleaves w

/-- A call loads an entry, which is held from then on, or no id is new. -/
theorem after_cases (e : PreviewEngine) (w : Surroundings) (call : Call) :
    (∃ request dm, call = .add request ∧ Takes request dm)
      ∨ (∀ request dm, call = .add request → ¬ Takes request dm)
        ∧ (e.after w call).ids.Sublist e.ids ∧ e.loaded ≤ (e.after w call).loaded := by
  cases call with
  | add request =>
    by_cases htakes : ∃ dm, Takes request dm
    · obtain ⟨dm, htakes⟩ := htakes
      exact Or.inl ⟨request, dm, rfl, htakes⟩
    · rw [not_exists] at htakes
      obtain ⟨hids, hloaded⟩ := entries_after_add htakes e w
      refine Or.inr ⟨?_, hids ▸ List.Sublist.refl _, hloaded⟩
      rintro _ dm ⟨⟩
      exact htakes dm
  | clear => exact Or.inr ⟨fun _ _ h => (nomatch h), List.nil_sublist _, le_rfl⟩
  | remove id =>
    refine Or.inr ⟨fun _ _ h => (nomatch h), ?_, le_rfl⟩
    exact (List.filter_sublist.append (List.Sublist.refl _)).map _
  | seek seconds refresh =>
    have hleft : e.after w (.seek seconds refresh) = e := left_seek seconds refresh e w
    rw [hleft]
    exact Or.inr ⟨fun _ _ h => (nomatch h), List.Sublist.refl _, le_rfl⟩
  | _ => exact Or.inr ⟨fun _ _ h => (nomatch h), List.Sublist.refl _, le_rfl⟩

/-! ## Section 3: Ids that are given -/

/-- The id that a caller gives with a call, if any. -/
def givenIds : Call → List Value
  | .add request => match (orElse request.entry (.dict [])).toFields with
    | .ok dm => match Fields.get dm "dmid" with
      | .none => []
      | id => [id]
    | .error _ => []
  | _ => []

/-- The ids that callers give are texts, none of which is empty, and they differ. -/
structure GivenApart (calls : List Call) : Prop where
  texts : ∀ id ∈ calls.flatMap givenIds, ∃ s, s ≠ "" ∧ id = .text s
  nodup : (calls.flatMap givenIds).Nodup

theorem GivenApart.of_append (h : GivenApart (calls ++ [call])) : GivenApart calls := by
  have hsub : (calls.flatMap givenIds).Sublist ((calls ++ [call]).flatMap givenIds) := by
    rw [List.flatMap_append]
    exact List.sublist_append_left _ _
  exact ⟨fun id hid => h.texts id (hsub.mem hid), h.nodup.sublist hsub⟩

/-- Without an id of its own, an entry gets the one of its number. -/
theorem nextId_of_none (h : Fields.get dm "dmid" = .none) (e : PreviewEngine) :
    e.nextId dm = numberedId (e.loaded + 1) := by
  rw [nextId, h]
  rfl

/-- An id that is given is taken as it is. -/
theorem Takes.given (h : Takes request dm) (hgiven : GivenApart (calls ++ [.add request]))
    (hid : Fields.get dm "dmid" ≠ .none) (e : PreviewEngine) :
    e.nextId dm = Fields.get dm "dmid" ∧ Fields.get dm "dmid" ∈ givenIds (.add request)
      ∧ Fields.get dm "dmid" ∉ calls.flatMap givenIds := by
  have hmem : givenIds (.add request) = [Fields.get dm "dmid"] := by
    unfold givenIds
    dsimp only
    rw [h.description]
    dsimp only
    split
    · next hnone => exact absurd hnone hid
    · rfl
  have hall : (calls ++ [Call.add request]).flatMap givenIds
      = calls.flatMap givenIds ++ [Fields.get dm "dmid"] := by
    rw [List.flatMap_append, List.flatMap_singleton, hmem]
  obtain ⟨s, hs, htext⟩ := hgiven.texts (Fields.get dm "dmid") (by rw [hall]; simp)
  have hnew : Fields.get dm "dmid" ∉ calls.flatMap givenIds := by
    have hnodup := hgiven.nodup
    rw [hall, List.nodup_append] at hnodup
    exact fun h => hnodup.2.2 _ h _ (List.mem_singleton_self _) rfl
  refine ⟨?_, by rw [hmem]; exact List.mem_singleton_self _, hnew⟩
  rw [nextId, htext, orElse, if_pos (by simpa [Value.holds] using hs)]

/-- A new engine, and what calls make of it one after the other, with success or without. -/
inductive Played (options : Fields) (synced : Bool) : List Call → PreviewEngine → Prop where
  | start : Played options synced [] (ofOptions options synced)
  | call {calls : List Call} {e : PreviewEngine} (h : Played options synced calls e) (call : Call)
      (w : Surroundings) : Played options synced (calls ++ [call]) (e.after w call)

/-- Each id that is held was given by a caller, or a number has led to it. -/
theorem Played.known (h : Played options synced calls e) (hgiven : GivenApart calls) :
    ∀ id ∈ e.ids, id ∈ calls.flatMap givenIds ∨ ∃ n, 1 ≤ n ∧ n ≤ e.loaded ∧ id = numberedId n := by
  induction h with
  | start => exact fun _ hid => nomatch hid
  | @call calls e _ call w ih =>
    have hbefore := ih hgiven.of_append
    -- what was known stays known
    have hkept : e.loaded ≤ (e.after w call).loaded → ∀ id ∈ e.ids,
        id ∈ (calls ++ [call]).flatMap givenIds
          ∨ ∃ n, 1 ≤ n ∧ n ≤ (e.after w call).loaded ∧ id = numberedId n := by
      intro hloaded id hid
      rcases hbefore id hid with hmem | ⟨n, hpos, hn, rfl⟩
      · rw [List.flatMap_append]
        exact Or.inl (List.mem_append_left _ hmem)
      · exact Or.inr ⟨n, hpos, hn.trans hloaded, rfl⟩
    rcases after_cases e w call with ⟨request, dm, rfl, htakes⟩ | ⟨-, hsub, hloaded⟩
    · obtain ⟨hperm, hloaded⟩ := htakes.after e w
      intro id hid
      rcases List.mem_cons.mp (hperm.mem_iff.mp hid) with rfl | hold
      · by_cases hnone : Fields.get dm "dmid" = .none
        · exact Or.inr ⟨e.loaded + 1, Nat.le_add_left 1 _, hloaded.ge, nextId_of_none hnone e⟩
        · obtain ⟨heq, hmem, -⟩ := htakes.given hgiven hnone e
          rw [List.flatMap_append, List.flatMap_singleton, heq]
          exact Or.inl (List.mem_append_right _ hmem)
      · exact hkept (by omega) id hold
    · exact fun id hid => hkept hloaded id (hsub.mem hid)

/-! ## Section 4: Ids that are held twice -/

/-- A call that loads an entry with an id that is held already: the caller gives one that a number has
led to, or the next number leads to one that was given. -/
inductive Repeats (e : PreviewEngine) (calls : List Call) : Call → Prop where
  | given {request : AddRequest} {dm : Fields} {n : Nat} (htakes : Takes request dm)
      (hid : Fields.get dm "dmid" = numberedId n) (hpos : 1 ≤ n) (hn : n ≤ e.loaded)
      (hheld : numberedId n ∈ e.ids) : Repeats e calls (.add request)
  | numbered {request : AddRequest} {dm : Fields} (htakes : Takes request dm)
      (hid : Fields.get dm "dmid" = .none)
      (hgiven : numberedId (e.loaded + 1) ∈ calls.flatMap givenIds)
      (hheld : numberedId (e.loaded + 1) ∈ e.ids) : Repeats e calls (.add request)

/-- The next id is held already exactly if the call repeats it. -/
theorem Played.nextId_mem_iff (h : Played options synced calls e) (htakes : Takes request dm)
    (hgiven : GivenApart (calls ++ [.add request])) :
    e.nextId dm ∈ e.ids ↔ e.Repeats calls (.add request) := by
  constructor
  · intro hheld
    have hknown := h.known hgiven.of_append _ hheld
    by_cases hnone : Fields.get dm "dmid" = .none
    · -- numbers are used once, so a caller has given the id
      rw [nextId_of_none hnone] at hheld hknown
      rcases hknown with hmem | ⟨n, -, hn, heq⟩
      · exact .numbered htakes hnone hmem hheld
      · have := numberedId_injective heq
        omega
    · -- callers do not give an id twice, so a number has led to it
      obtain ⟨heq, -, hnew⟩ := htakes.given hgiven hnone e
      rw [heq] at hheld hknown
      obtain ⟨n, hpos, hn, hid⟩ := hknown.resolve_left hnew
      exact .given htakes hid hpos hn (hid ▸ hheld)
  · intro hrepeats
    cases hrepeats with
    | @given _ dm' n htakes' hid hpos hn hheld =>
      obtain rfl := Except.ok.inj (htakes.description.symm.trans htakes'.description)
      have hsome : Fields.get dm "dmid" ≠ .none := by
        rw [hid]
        exact fun h => nomatch h
      rw [(htakes.given hgiven hsome e).1, hid]
      exact hheld
    | @numbered _ dm' htakes' hid hmem hheld =>
      obtain rfl := Except.ok.inj (htakes.description.symm.trans htakes'.description)
      rw [nextId_of_none hid]
      exact hheld

/-- As long as the ids differ, they stop to exactly at a call that repeats one. -/
theorem Played.not_nodup_after_iff (h : Played options synced calls e) (hnodup : e.ids.Nodup)
    (hgiven : GivenApart (calls ++ [call])) (w : Surroundings) :
    ¬ (e.after w call).ids.Nodup ↔ e.Repeats calls call := by
  rcases after_cases e w call with ⟨request, dm, rfl, htakes⟩ | ⟨hnone, hsub, -⟩
  · rw [(htakes.after e w).1.nodup_iff, List.nodup_cons, ← h.nextId_mem_iff htakes hgiven]
    simp [hnodup]
  · refine iff_of_false (not_not_intro (hnodup.sublist hsub)) fun hrepeats => ?_
    cases hrepeats with
    | given htakes => exact hnone _ _ rfl htakes
    | numbered htakes => exact hnone _ _ rfl htakes

/-- The ids differ if none that is given is one that a number has led to or could have led to. -/
theorem Played.nodup (h : Played options synced calls e) (hgiven : GivenApart calls)
    (hapart : ∀ n, 1 ≤ n → n ≤ e.loaded → numberedId n ∉ calls.flatMap givenIds) :
    e.ids.Nodup := by
  induction h with
  | start => exact List.nodup_nil
  | @call calls e hplayed call w ih =>
    have hloaded : e.loaded ≤ (e.after w call).loaded := by
      rcases after_cases e w call with ⟨request, dm, rfl, htakes⟩ | ⟨-, -, hloaded⟩
      · have := (htakes.after e w).2
        omega
      · exact hloaded
    have hbefore : e.ids.Nodup := by
      refine ih hgiven.of_append fun n hpos hn hmem => hapart n hpos (hn.trans hloaded) ?_
      rw [List.flatMap_append]
      exact List.mem_append_left _ hmem
    by_contra hrepeated
    -- each way to repeat an id needs one that is given and is a number's
    cases (hplayed.not_nodup_after_iff hbefore hgiven w).mp hrepeated with
    | @given request dm n htakes hid hpos hn hheld =>
      have hsome : Fields.get dm "dmid" ≠ .none := by
        rw [hid]
        exact fun h => nomatch h
      refine hapart n hpos (hn.trans hloaded) ?_
      rw [List.flatMap_append, List.flatMap_singleton, ← hid]
      exact List.mem_append_right _ (htakes.given hgiven hsome e).2.1
    | @numbered request dm htakes hid hmem hheld =>
      refine hapart (e.loaded + 1) (Nat.le_add_left 1 _) (htakes.after e w).2.ge ?_
      rw [List.flatMap_append]
      exact List.mem_append_left _ hmem

/-- All ids are texts. -/
theorem Played.exists_text (h : Played options synced calls e) (hgiven : GivenApart calls) :
    ∀ id ∈ e.ids, ∃ s, id = .text s := by
  intro id hid
  rcases h.known hgiven id hid with hmem | ⟨n, -, -, rfl⟩
  · obtain ⟨s, -, hs⟩ := hgiven.texts id hmem
    exact ⟨s, hs⟩
  · exact ⟨_, rfl⟩

/-- Of entries whose ids differ, at most one has an id. -/
theorem length_filter_same_le_one {entries : List Entry} (htexts : ∀ x ∈ entries, ∃ s, x.id = .text s)
    (hnodup : (entries.map Entry.id).Nodup) (id : Value) :
    (entries.filter fun x => x.id.same id).length ≤ 1 := by
  rw [← List.length_map (f := Entry.id)]
  have hsub : ((entries.filter fun x => x.id.same id).map Entry.id).Nodup :=
    hnodup.sublist (List.filter_sublist.map _)
  have hall : ∀ v ∈ (entries.filter fun x => x.id.same id).map Entry.id, v = id := by
    intro v hv
    obtain ⟨x, hx, rfl⟩ := List.mem_map.mp hv
    obtain ⟨hmem, hsame⟩ := List.mem_filter.mp hx
    obtain ⟨s, hs⟩ := htexts x hmem
    rw [hs, Value.text_same] at hsame
    rw [hs, hsame]
  generalize (entries.filter fun x => x.id.same id).map Entry.id = held at hsub hall
  match held with
  | [] => exact Nat.zero_le 1
  | [_] => exact le_rfl
  | a :: b :: r =>
    refine absurd ?_ (List.nodup_cons.mp hsub).1
    rw [hall a List.mem_cons_self, ← hall b (by simp)]
    exact List.mem_cons_self

/-- As long as the ids differ, at most one entry goes when one is to be removed. -/
theorem Played.length_after_remove (h : Played options synced calls e) (hgiven : GivenApart calls)
    (hnodup : e.ids.Nodup) (id : Value) (w : Surroundings) :
    e.entries.length ≤ (e.after w (.remove id)).entries.length + 1 := by
  rw [ids, List.map_append] at hnodup
  have htexts : ∀ x ∈ e.entries, ∃ s, x.id = .text s := by
    intro x hx
    refine h.exists_text hgiven _ ?_
    rw [ids, List.map_append]
    exact List.mem_append_left _ (List.mem_map_of_mem hx)
  have hone := length_filter_same_le_one htexts (List.nodup_append.mp hnodup).1 id
  have hsplit := List.length_eq_length_filter_add (l := e.entries) fun x => x.id.same id
  have hafter : (e.after w (.remove id)).entries = e.entries.filter fun x => !x.id.same id := rfl
  rw [hafter]
  omega

/-- On an engine whose callers give different ids or none, the ids of all entries differ if no number
has led to an id that is given, and at most one entry goes with an id then.  While the ids differ, they
stop to if and only if a call repeats one. -/
theorem ids_of_played (h : Played options synced calls e) (hgiven : GivenApart calls) :
    ((∀ n, 1 ≤ n → n ≤ e.loaded → numberedId n ∉ calls.flatMap givenIds) → e.ids.Nodup)
      ∧ (e.ids.Nodup → ∀ id w, e.entries.length ≤ (e.after w (.remove id)).entries.length + 1)
      ∧ (e.ids.Nodup → ∀ call w, GivenApart (calls ++ [call]) →
        (¬ (e.after w call).ids.Nodup ↔ e.Repeats calls call)) :=
  ⟨h.nodup hgiven, h.length_after_remove hgiven,
    fun hnodup _ w hcall => h.not_nodup_after_iff hnodup hcall w⟩

/-- An empty script, which is loaded with an id or without one. -/
def emptyRequest (id : Value) : AddRequest where
  entry := .dict [(.text "text", .text ""), (.text "dmid", id)]
  parsed := .bool false
  test := .bool false
  tellsAccepted := false
  tellsRejected := false

theorem takes_emptyRequest (id : Value) :
    Takes (emptyRequest id) [(.text "text", .text ""), (.text "dmid", id)] where
  description := rfl
  contents := ⟨_, rfl⟩
  start := (toDouble_orElse_iff .none).mpr rfl

/-- A new engine that has loaded one entry, with the id that the next number leads to. -/
def aheadEngine : PreviewEngine :=
  (ofOptions [] false).after default (.add (emptyRequest (numberedId 2)))

/-- The call that has led to it. -/
def aheadCalls : List Call :=
  [.add (emptyRequest (numberedId 2))]

theorem played_aheadEngine : Played [] false aheadCalls aheadEngine :=
  .call .start _ default

/-- Ids are given apart where only one is given. -/
theorem GivenApart.of_singleton {n : Nat} (h : calls.flatMap givenIds = [numberedId n]) :
    GivenApart calls := by
  refine ⟨fun id hid => ?_, by rw [h]; exact List.nodup_cons.mpr ⟨List.not_mem_nil, List.nodup_nil⟩⟩
  rw [h, List.mem_singleton] at hid
  exact ⟨_, by simp, hid⟩

/-- The next entry gets the id that is held. -/
theorem ids_of_played_ahead :
    aheadEngine.ids.Nodup
      ∧ ¬ (aheadEngine.after default (.add (emptyRequest .none))).ids.Nodup := by
  have h := ids_of_played played_aheadEngine (.of_singleton (n := 2) rfl)
  obtain ⟨hids, hloaded⟩ :=
    (takes_emptyRequest (numberedId 2)).after (ofOptions [] false) default
  have hnodup : aheadEngine.ids.Nodup := by
    refine h.1 fun n _ hn hmem => ?_
    have hone : n ≤ 1 := hn.trans hloaded.le
    have htwo := numberedId_injective (List.mem_singleton.mp hmem)
    omega
  have hnext : aheadEngine.loaded + 1 = 2 := congrArg (· + 1) hloaded
  have hrepeats : aheadEngine.Repeats aheadCalls (.add (emptyRequest .none)) := by
    refine .numbered (takes_emptyRequest .none) rfl ?_ ?_
    · rw [hnext]
      exact List.mem_singleton_self _
    · rw [hnext]
      exact hids.mem_iff.mpr List.mem_cons_self
  exact ⟨hnodup, (h.2.2 hnodup _ default (.of_singleton (n := 2) rfl)).mpr hrepeats⟩

end Overlay.PreviewEngine
