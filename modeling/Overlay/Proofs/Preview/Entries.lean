import Overlay.Proofs.Fields
import Overlay.Proofs.Number.Thousandths
import Overlay.Proofs.Preview.Loading
import Overlay.Script.Emission

/-!
# Looking at loaded scripts

What an engine shows of a script that it has loaded.  Entries and objects are looked at one after the
other, and each object with its own statements only; those that can be seen are the objects whose
opacity lies above zero.

## Main definitions
- `AddRequest.Carries`: a request to load a script
- `PreviewEngine.entered`: an engine with one more entry
- `PreviewEngine.opacityOf`: the opacity of an object, which is one where none is set

## Main statements
- `PreviewEngine.perform_add_script`: loading a script
- `PreviewEngine.statesOf_cons`: the objects of a script, one after the other
- `PreviewEngine.visibleOf_eq_ok_iff`: when the visible ones can be told, and which they are
- `PreviewEngine.objectStates_entered`, `PreviewEngine.visibleObjects_entered`: what one more entry
  adds
-/

namespace Overlay

open Overlay.Number

attribute [local irreducible] twoTo tenTo Double.unitsInOne

/-! ## Section 1: Loading scripts -/

/-- A request to load a script as a text, onto the shelf that is looked at, with a time at which the
script starts. -/
structure AddRequest.Carries (request : AddRequest) (script : String) (start : Double) : Prop where
  exists_fields : ∃ dm, (PreviewEngine.orElse request.entry (.dict [])).toFields = .ok dm
    ∧ (Fields.get? dm "text").getD (.text "") = .text script
    ∧ (PreviewEngine.orElse (Fields.get dm "stime") (.int 0)).toDouble = .ok start
  parsed_eq : request.parsed.holds = false
  test_eq : request.test.holds = false

/-- The request to load a script at time zero, of which nobody wants to hear. -/
def AddRequest.ofScript (script : String) : AddRequest :=
  ⟨.dict [(.text "text", .text script), (.text "stime", .int 0)], .none, .none, false, false⟩

theorem AddRequest.carries_ofScript (script : String) :
    (AddRequest.ofScript script).Carries script Double.zero := by
  have hzero : (Number.int 0).toDouble? = some Double.zero := by decide +kernel
  refine ⟨⟨_, rfl, rfl, ?_⟩, rfl, rfl⟩
  show orFault .wrongKind (Value.number? (.int 0)) >>= _ = _
  simp [Value.number?, hzero]

/-- What a script has become in an engine. -/
structure Entry.Holds (entry : Entry) (script : Script) (start : Double) : Prop where
  start_eq : entry.start = start
  defs_eq : entry.defs = script.defsValue
  sets_eq : entry.sets = script.setsValue

namespace PreviewEngine

/-- The engine when an entry has been loaded. -/
def entered (e : PreviewEngine) (entry : Entry) : PreviewEngine :=
  { e with loaded := e.loaded + 1, entries := e.entries ++ [entry] }

/-- A script that breaks no rule is loaded. -/
theorem perform_add_script {request : AddRequest} {text : String} {start : Double}
    (h : request.Carries text start) {script : Script}
    (hparse : Script.parse text.toList = .ok script) (e : PreviewEngine) (w : Surroundings) :
    ∃ entry w', entry.Holds script start ∧ (add request).perform e w = (.ok (), e.entered entry, w') := by
  obtain ⟨dm, hdm, htext, hstart⟩ := h.exists_fields
  have hcontents : contents request dm = .ok (script.defsValue, script.setsValue) := by
    rw [contents, h.parsed_eq, if_neg Bool.false_ne_true, htext, Script.ofValue, hparse, ok_bind,
      pure_eq_ok]
  have hperform := perform_add_loaded hdm hcontents hstart e w
  dsimp only at hperform
  rw [shelve, h.test_eq, if_neg Bool.false_ne_true] at hperform
  exact ⟨_, _, ⟨rfl, rfl, rfl⟩, hperform⟩

/-! ## Section 2: Objects -/

/-- The statements of a script that speak of an object. -/
theorem statementsOf_script (d : Definition) (sets : List Statement) :
    statementsOf d.toValue (sets.map Statement.toValue)
      = .ok ((sets.filter fun s => s.name = d.name).map Statement.toValue) := by
  have hname : d.toValue.field "name" = .ok (.text d.name) := rfl
  induction sets with
  | nil => rfl
  | cons s r ih =>
    have hown : s.toValue.field "name" = .ok (.text s.name) := rfl
    have hsame : (Value.text s.name).same (.text d.name) = decide (s.name = d.name) := by
      rw [Bool.eq_iff_iff, Value.same_text, Value.text.injEq, decide_eq_true_eq]
    rw [List.map_cons, statementsOf, hown, ok_bind, hname, ok_bind, ih, ok_bind, hsame,
      List.filter_cons]
    split
    · rfl
    · rfl

/-- The objects of a script, one after the other: one whose life is over is left out. -/
theorem statesOf_cons {entry : Entry} {sets : List Statement}
    (hsets : entry.sets = .list (sets.map Statement.toValue)) (time : Double) (d : Definition)
    (r : List Value) :
    statesOf entry time (d.toValue :: r)
      = isOver time (Fields.get d.attrs "duration") >>= fun gone =>
          if gone then statesOf entry time r
          else Evaluation.object d.toValue
              ((sets.filter fun s => s.name = d.name).map Statement.toValue) (.float time) >>=
            fun attrs => statesOf entry time r >>= fun rest =>
              .ok (⟨entry.id, .text d.name, .text d.kind.word, attrs⟩ :: rest) := by
  have hattrs : d.toValue.field "attrs" = .ok (.dict d.attrs) := rfl
  have hname : d.toValue.field "name" = .ok (.text d.name) := rfl
  have hkind : d.toValue.field "kind" = .ok (.text d.kind.word) := rfl
  have hlook : (Value.dict d.attrs).look "duration" .none = .ok (Fields.get d.attrs "duration") := rfl
  rw [statesOf, hattrs, ok_bind, hlook, ok_bind, hsets, Value.items, ok_bind, statementsOf_script,
    ok_bind, hname, hkind]
  simp only [ok_bind, pure_eq_ok]

/-- The objects of an entry, as soon as its script has begun. -/
theorem statesIn_singleton {entry : Entry} {t : Int} {x : Double} (hx : doubleOfInt? t = some x) :
    statesIn (.int t) [entry]
      = if (x.sub (entry.start.mul Evaluation.thousand)).lt Double.zero then .ok []
        else entry.defs.items >>= statesOf entry (x.sub (entry.start.mul Evaluation.thousand)) := by
  rw [statesIn, Value.toNumber, Value.number?, orFault_some, ok_bind, toDouble?, hx, orFault_some,
    ok_bind]
  dsimp only
  split
  · rfl
  · cases entry.defs.items with
    | error fault => rw [error_bind, error_bind]
    | ok defs =>
      rw [ok_bind, ok_bind]
      cases statesOf entry (x.sub (entry.start.mul Evaluation.thousand)) defs with
      | error fault => rfl
      | ok states => rw [ok_bind, statesIn, ok_bind, List.append_nil, pure_eq_ok]

/-- The objects of a script that begins at time zero. -/
theorem statesIn_script {entry : Entry} {script : Script} (hentry : entry.Holds script Double.zero)
    {t : Int} {x : Double} (hx : doubleOfInt? t = some x) :
    statesIn (.int t) [entry] = if x.lt Double.zero then .ok []
      else statesOf entry x (script.defs.map Definition.toValue) := by
  have hmul : Double.zero.mul Evaluation.thousand = Double.zero := by
    rw [Double.zero_eq_ofNat, Evaluation.thousand, Double.mul_ofNat (twoTo_pos 53) thousand_lt,
      Nat.zero_mul]
  rw [statesIn_singleton hx, hentry.start_eq, hmul,
    Double.sub_zero_of_isFinite (Double.doubleOfInt?_eq_some.mp hx).2, hentry.defs_eq, Script.defsValue,
    Value.items, ok_bind]

theorem statesIn_append (time : Value) (a b : List Entry) :
    statesIn time (a ++ b) = statesIn time a >>= fun states =>
      (statesIn time b).map (states ++ ·) := by
  induction a with
  | nil =>
    rw [List.nil_append, statesIn, ok_bind]
    cases statesIn time b <;> rfl
  | cons entry r ih =>
    rw [List.cons_append, statesIn, statesIn, ih]
    cases time.toNumber with
    | error fault => simp only [error_bind]
    | ok t =>
      rw [ok_bind, ok_bind]
      cases orFault .tooLarge t.toDouble? with
      | error fault => simp only [error_bind]
      | ok x =>
        rw [ok_bind, ok_bind]
        dsimp only
        split
        · rfl
        · cases entry.defs.items with
          | error fault => simp only [error_bind]
          | ok defs =>
            rw [ok_bind, ok_bind]
            cases statesOf entry _ defs with
            | error fault => simp only [error_bind]
            | ok own =>
              rw [ok_bind, ok_bind]
              cases statesIn time r with
              | error fault => simp only [error_bind]
              | ok states =>
                rw [ok_bind, ok_bind, pure_eq_ok, ok_bind]
                cases statesIn time b with
                | error fault => rw [error_map, error_map, error_bind]
                | ok more => rw [ok_map, ok_map, ok_bind, List.append_assoc, pure_eq_ok]

/-- A time for which there is no double is too large, if anything is loaded. -/
theorem statesIn_tooLarge {t : Int} (ht : doubleOfInt? t = none) (entry : Entry) (r : List Entry) :
    statesIn (.int t) (entry :: r) = .error .tooLarge := by
  rw [statesIn, Value.toNumber, Value.number?, orFault_some, ok_bind, toDouble?, ht, orFault,
    error_bind]

/-! ## Section 3: Visible objects -/

/-- The opacity of an object, which is one where none is set. -/
def opacityOf (s : ObjectState) : Value :=
  (Fields.get? s.attrs Emission.alphaKey).getD (.int 1)

/-- Whether an object can be seen: whether its opacity is a number above zero. -/
def isSeen (s : ObjectState) : Bool :=
  match (opacityOf s).number? with
  | some n => (Number.int 0).lt n
  | none => false

theorem lessThan_opacity (s : ObjectState) :
    Value.lessThan (.int 0) (opacityOf s)
      = if (opacityOf s).number?.isSome then .ok (isSeen s) else .error .wrongKind := by
  unfold isSeen
  rw [Value.lessThan, Value.toNumber, Value.number?, orFault_some, ok_bind, Value.toNumber]
  cases (opacityOf s).number? with
  | none => rfl
  | some n => rw [orFault_some, ok_bind, pure_eq_ok]; rfl

theorem visibleOf_cons (s : ObjectState) (r : List ObjectState) :
    visibleOf (s :: r) = (if (opacityOf s).number?.isSome then .ok (isSeen s) else .error .wrongKind)
      >>= fun seen => (visibleOf r).map fun rest => if seen then s :: rest else rest := by
  have halpha : (Fields.get? s.attrs "alpha").getD (.int 1) = opacityOf s := rfl
  rw [← lessThan_opacity, visibleOf, halpha]
  cases Value.lessThan (.int 0) (opacityOf s) with
  | error fault => rw [error_bind, error_bind]
  | ok seen =>
    rw [ok_bind, ok_bind]
    cases visibleOf r with
    | error fault => rfl
    | ok rest => rw [ok_bind, ok_map, pure_eq_ok]

/-- The visible ones of some objects can be told exactly if each opacity is a number.  They are those
whose opacity lies above zero, in the order of the objects. -/
theorem visibleOf_eq_ok_iff {states shown : List ObjectState} :
    visibleOf states = .ok shown
      ↔ (∀ s ∈ states, (opacityOf s).number?.isSome = true) ∧ shown = states.filter isSeen := by
  induction states generalizing shown with
  | nil =>
    rw [visibleOf, Except.ok.injEq, List.filter_nil, eq_comm]
    simp
  | cons s r ih =>
    rw [visibleOf_cons, List.forall_mem_cons]
    cases hnumber : (opacityOf s).number?.isSome with
    | false => simp
    | true =>
      rw [if_pos rfl, ok_bind, map_eq_ok, List.filter_cons]
      constructor
      · rintro ⟨rest, hrest, rfl⟩
        obtain ⟨hall, rfl⟩ := ih.mp hrest
        exact ⟨⟨rfl, hall⟩, rfl⟩
      · rintro ⟨⟨-, hall⟩, rfl⟩
        exact ⟨_, ih.mpr ⟨hall, rfl⟩, rfl⟩

theorem visibleOf_singleton {s : ObjectState} {n : Number} (h : (opacityOf s).number? = some n) :
    visibleOf [s] = .ok (if (Number.int 0).lt n then [s] else []) := by
  refine visibleOf_eq_ok_iff.mpr ⟨?_, ?_⟩
  · intro state hstate
    rw [List.mem_singleton.mp hstate, h]
    rfl
  · have hseen : isSeen s = (Number.int 0).lt n := by
      rw [isSeen, h]
    rw [List.filter_cons, hseen, List.filter_nil]

theorem visibleOf_append (a b : List ObjectState) :
    visibleOf (a ++ b) = visibleOf a >>= fun shown => (visibleOf b).map (shown ++ ·) := by
  induction a with
  | nil =>
    rw [List.nil_append, visibleOf, ok_bind]
    cases visibleOf b <;> rfl
  | cons s r ih =>
    rw [List.cons_append, visibleOf_cons, visibleOf_cons, ih]
    split
    · rw [ok_bind, ok_bind]
      cases visibleOf r with
      | error fault => rfl
      | ok rest =>
        rw [ok_bind, ok_map, ok_bind]
        cases visibleOf b with
        | error fault => rfl
        | ok more =>
          rw [ok_map, ok_map, ok_map]
          split
          · rw [List.cons_append]
          · rfl
    · rfl

/-- One more entry adds its objects at the end. -/
theorem objectStates_entered (e : PreviewEngine) (entry : Entry) (time : Value) :
    (e.entered entry).objectStates time = e.objectStates time >>= fun states =>
      (statesIn time [entry]).map (states ++ ·) :=
  statesIn_append time e.entries [entry]

/-- One more entry adds those of its objects that can be seen. -/
theorem visibleObjects_entered {e : PreviewEngine} {time : Value} {shown : List ObjectState}
    (h : e.visibleObjects time = .ok shown) (entry : Entry) :
    (e.entered entry).visibleObjects time
      = (statesIn time [entry] >>= visibleOf).map (shown ++ ·) := by
  obtain ⟨states, hstates, hshown⟩ := bind_eq_ok.mp h
  rw [visibleObjects, objectStates_entered, hstates, ok_bind]
  cases statesIn time [entry] with
  | error fault => rfl
  | ok more => rw [ok_map, ok_bind, ok_bind, visibleOf_append, hshown, ok_bind]

/-- Where something is loaded, a time for which there is no double is too large. -/
theorem objectStates_tooLarge {t : Int} (ht : doubleOfInt? t = none) (e : PreviewEngine)
    (entry : Entry) : (e.entered entry).objectStates (.int t) = .error .tooLarge := by
  unfold objectStates entered
  cases e.entries with
  | nil => exact statesIn_tooLarge ht entry []
  | cons first r => exact statesIn_tooLarge ht first (r ++ [entry])

end PreviewEngine

end Overlay
