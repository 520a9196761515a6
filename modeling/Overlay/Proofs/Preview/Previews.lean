import Overlay.Monitor.Summary
import Overlay.Proofs.Preview.Blending
import Overlay.Proofs.Preview.Entries
import Overlay.Proofs.Preview.ShotStates

/-!
# Previews of loaded scripts

A script may give any value to any attribute, and its statements change the values while time passes.
A preview compares each opacity with zero, cuts each label to a length and writes the place and the opacity
beside it.  So it shows an object exactly if its opacity is a number, and if what can be seen of it has a
label and holds no integer of too many digits.  Scripts that keep to this in their definitions and
statements keep to it at any time.

## Main definitions
- `PreviewEngine.Previews`: everything that a preview shows at a time can be told
- `Summary.isLabel`, `Summary.isDescribable`, `PreviewEngine.Shows`: objects that can be shown
- `Script.Runs`: an invariant of the attributes of a script
- `Script.isPresentable`: scripts that can always be shown

## Main statements
- `Script.Runs.step`, `Script.Runs.steps`: statements keep the invariant
- `Script.Runs.statesOf`: so does what is shown of the script
- `PreviewEngine.previews_iff`: when a preview can be told
- `PreviewEngine.preview_loaded`: loading a script and looking at it
-/

namespace Overlay

open Overlay.Text Overlay.Number

attribute [local irreducible] twoTo tenTo Double.unitsInOne

/-! ## Section 1: Labels -/

namespace Summary

/-- Whether a value can be the label of an object: only a text is cut short, and what is not cut short
is written. -/
def isLabel : Value → Bool
  | .text _ => true
  | .list items => decide (items.length ≤ labelWidth) && (Value.list items).hasText
  | .tuple items => decide (items.length ≤ labelWidth) && (Value.tuple items).hasText
  | .dict fs => decide (fs.length ≤ labelWidth) && (Value.dict fs).hasText
  | _ => false

theorem toText_ok_iff (v : Value) : (∃ text, v.toText = .ok text) ↔ v.hasText = true := by
  unfold Value.toText
  cases v.hasText <;> simp

theorem label_ok_iff (v : Value) : (∃ text, label v = .ok text) ↔ isLabel v = true := by
  have hcut : ∀ n : Nat, (∃ text, (if labelWidth < n then
      (throw .wrongKind : Result String) else v.toText) = .ok text)
      ↔ (decide (n ≤ labelWidth) && v.hasText) = true := by
    intro n
    rw [Bool.and_eq_true, decide_eq_true_eq, ← toText_ok_iff]
    split
    · next h =>
      constructor
      · rintro ⟨_, htext⟩
        cases htext
      · intro hle
        omega
    · next h =>
      have hle : n ≤ labelWidth := by omega
      simp [hle]
  cases v with
  | text s =>
    refine ⟨fun _ => rfl, fun _ => ?_⟩
    show ∃ text, (if labelWidth < _ then _ else _) = Except.ok text
    split
    · exact ⟨_, rfl⟩
    · exact ⟨_, rfl⟩
  | list items => exact hcut _
  | tuple items => exact hcut _
  | dict fs => exact hcut _
  | _ =>
    refine ⟨?_, fun h => nomatch h⟩
    rintro ⟨_, htext⟩
    cases htext

theorem isLabel_firstOf {vs : List Value} (h : ∀ v ∈ vs, v.holds = true → isLabel v = true) :
    isLabel (firstOf vs) = true := by
  induction vs with
  | nil => rfl
  | cons v r ih =>
    rw [List.forall_mem_cons] at h
    rw [firstOf]
    split
    · next hholds => exact h.1 hholds
    · exact ih h.2

/-- What the label of an object is made from. -/
def labelled (attrs : Fields) : Value :=
  firstOf [Fields.get attrs "content", Fields.get attrs "text", Fields.get attrs "d"]

/-- The attributes that stand beside the label. -/
def writtenKeys : List String :=
  ["x", "y", "alpha"]

/-- Whether an object can be described: it has a label, and what stands beside it can be written. -/
def isDescribable (attrs : Fields) : Bool :=
  isLabel (labelled attrs) && writtenKeys.all fun name => (Fields.get attrs name).hasText

theorem attributeText_ok_iff (attrs : Fields) (name : String) :
    (∃ texts, attributeText attrs name = .ok texts) ↔ (Fields.get attrs name).hasText = true := by
  unfold attributeText Fields.get
  cases Fields.get? attrs name with
  | none => exact iff_of_true ⟨_, rfl⟩ rfl
  | some v =>
    cases v with
    | float x => exact iff_of_true ⟨_, rfl⟩ rfl
    | _ =>
      rw [Option.getD_some, ← toText_ok_iff]
      simp only [pure_eq_ok]
      exact exists_bind_ok_iff

/-- An object can be told exactly if it can be described. -/
theorem object_ok_iff (attrs : Fields) :
    (∃ text, object (.dict attrs) = .ok text) ↔ isDescribable attrs = true := by
  have hobject : object (.dict attrs) = label (labelled attrs) >>= fun text =>
      writtenKeys.mapM (attributeText attrs) >>= fun numbers =>
        .ok (" ".intercalate ((if (labelled attrs).holds then ["\"" ++ text ++ "\""] else [])
          ++ numbers.flatten)) := rfl
  rw [hobject, isDescribable, Bool.and_eq_true, ← label_ok_iff, List.all_eq_true]
  simp only [← attributeText_ok_iff, ← exists_mapM_ok_iff]
  cases label (labelled attrs) with
  | error fault => simp
  | ok text => simp [exists_bind_ok_iff]

end Summary

/-! ## Section 2: Previews -/

namespace PreviewEngine

/-- Whether a preview can show an object: its opacity is a number, and if the object can be seen, it can
be described. -/
def Shows (s : ObjectState) : Prop :=
  (opacityOf s).number?.isSome = true
    ∧ (isSeen s = true → Summary.isDescribable s.attrs = true)

instance decidableShows (s : ObjectState) : Decidable (Shows s) := by
  unfold Shows
  infer_instance

/-- Everything that a preview shows at a time can be told: the objects, those of them that can be seen,
in their order, and a description of each of these. -/
def Previews (e : PreviewEngine) (t : Int) : Prop :=
  ∃ states shown, e.objectStates (.int t) = .ok states ∧ e.visibleObjects (.int t) = .ok shown
    ∧ shown.Sublist states ∧ ∀ s ∈ shown, ∃ text, Summary.object (.dict s.attrs) = .ok text

/-- A preview can be told exactly if it can show each object. -/
theorem previews_iff {e : PreviewEngine} {t : Int} :
    e.Previews t ↔ ∃ states, e.objectStates (.int t) = .ok states ∧ ∀ s ∈ states, Shows s := by
  constructor
  · rintro ⟨states, shown, hstates, hshown, -, hlabels⟩
    rw [visibleObjects, hstates, ok_bind] at hshown
    obtain ⟨hnumbers, rfl⟩ := visibleOf_eq_ok_iff.mp hshown
    refine ⟨states, hstates, fun s hs => ⟨hnumbers s hs, fun hseen => ?_⟩⟩
    exact (Summary.object_ok_iff s.attrs).mp (hlabels s (List.mem_filter.mpr ⟨hs, hseen⟩))
  · rintro ⟨states, hstates, hshows⟩
    have hshown := visibleOf_eq_ok_iff.mpr ⟨fun s hs => (hshows s hs).1, rfl⟩
    refine ⟨states, states.filter isSeen, hstates, ?_, List.filter_sublist, fun s hs => ?_⟩
    · rw [visibleObjects, hstates, ok_bind, hshown]
    · obtain ⟨hmem, hseen⟩ := List.mem_filter.mp hs
      exact (Summary.object_ok_iff s.attrs).mpr ((hshows s hmem).2 hseen)

end PreviewEngine

/-! ## Section 3: Scripts that run -/

/-- An invariant of the attributes of a script: its definitions have it, its statements keep it, and
numbers become too large only where that may happen. -/
structure Script.Runs (overflows : Prop) (q : Fields → Prop) (script : Script) : Prop where
  attrs : ∀ d ∈ script.defs, q d.attrs
  lifetime : ∀ d ∈ script.defs, ∀ time,
    Delivers overflows (fun _ => True) (PreviewEngine.isOver time (Fields.get d.attrs "duration"))
  merge : ∀ s ∈ script.sets, ∀ attrs, q attrs → q (Fields.merge attrs s.properties)
  blend : ∀ s ∈ script.sets, ∀ ratio attrs, q attrs →
    Delivers overflows q (Evaluation.blend ratio attrs s.properties)

namespace Script.Runs

variable {overflows : Prop} {q : Fields → Prop} {script : Script}

/-- One statement keeps the invariant, wherever it begins. -/
theorem step (h : script.Runs overflows q) {s : Statement} (hs : s ∈ script.sets) {attrs : Fields}
    (hattrs : q attrs) (time chainEnd : Double) :
    Delivers overflows (fun r => q r.1) (Evaluation.step (.float time) attrs chainEnd s.toValue) := by
  have hlength : Evaluation.toMs (.float s.duration) = .ok (s.duration.mul Evaluation.thousand) := rfl
  have htime : (Value.float time).number? = some (.float time) := rfl
  obtain ⟨begin, hbegin⟩ : ∃ begin, begin = if s.chained then chainEnd else Double.zero := ⟨_, rfl⟩
  rw [step_statement hbegin hlength htime]
  split
  · exact .ok hattrs
  · split
    · exact .ok (h.merge s hs attrs hattrs)
    · rw [toDouble?, orFault_some, ok_bind]
      exact (h.blend s hs _ attrs hattrs).bind fun blended hblended => .ok hblended

/-- Statements keep the invariant, one after the other. -/
theorem steps (h : script.Runs overflows q) {sets : List Statement} (hsets : sets ⊆ script.sets)
    {attrs : Fields} (hattrs : q attrs) (time chainEnd : Double) :
    Delivers overflows q
      (Evaluation.steps (.float time) attrs chainEnd (sets.map Statement.toValue)) := by
  induction sets generalizing attrs chainEnd with
  | nil => exact .ok hattrs
  | cons s r ih =>
    obtain ⟨hs, hr⟩ := List.cons_subset.mp hsets
    rw [List.map_cons, Evaluation.steps]
    exact (h.step hs hattrs time chainEnd).bind fun r' hr' => ih hr hr' r'.2

/-- An object of the script has the invariant at any time. -/
theorem object (h : script.Runs overflows q) {d : Definition} (hd : d ∈ script.defs) (time : Double) :
    Delivers overflows q (Evaluation.object d.toValue
      ((script.sets.filter fun s => s.name = d.name).map Statement.toValue) (.float time)) := by
  have hinitial : Evaluation.initial d.toValue = .ok d.attrs := rfl
  rw [Evaluation.object, hinitial, ok_bind]
  exact h.steps (fun _ hs => List.mem_of_mem_filter hs) (h.attrs d hd) time Double.zero

/-- So have all of its objects that are alive. -/
theorem statesOf (h : script.Runs overflows q) {entry : Entry} {start : Double}
    (hentry : entry.Holds script start) (time : Double) {defs : List Definition}
    (hdefs : defs ⊆ script.defs) :
    Delivers overflows (fun states => ∀ s ∈ states, q s.attrs)
      (PreviewEngine.statesOf entry time (defs.map Definition.toValue)) := by
  induction defs with
  | nil => exact .ok fun _ hs => nomatch hs
  | cons d r ih =>
    obtain ⟨hd, hr⟩ := List.cons_subset.mp hdefs
    rw [List.map_cons, PreviewEngine.statesOf_cons hentry.sets_eq]
    refine (h.lifetime d hd time).bind fun gone _ => ?_
    split
    · exact ih hr
    · refine (h.object hd time).bind fun attrs hattrs => (ih hr).bind fun states hstates => .ok ?_
      exact List.forall_mem_cons.mpr ⟨hattrs, hstates⟩

end Script.Runs

/-! ## Section 4: Any script -/

theorem isOver_delivers {overflows : Prop} {lifetime : Value}
    (h : ∀ n, lifetime.number? = some n → n.toDouble? = none → overflows) (time : Double) :
    Delivers overflows (fun _ => True) (PreviewEngine.isOver time lifetime) := by
  unfold PreviewEngine.isOver
  split
  · exact .ok trivial
  · next n hnumber =>
    rw [Evaluation.toMs, Value.toNumber, hnumber, orFault_some, ok_bind]
    cases hx : n.toDouble? with
    | none => exact .tooLarge (h n hnumber hx)
    | some x => exact .ok trivial

/-- Whatever a value is, on its way to another one only a number can become too large. -/
theorem mix_delivers (a b : Value) (ratio : Double) :
    Delivers True (fun _ => True) (Evaluation.mix a b ratio) := by
  rcases mix_cases a b ratio with h | ⟨m, n, -, -, h⟩ | ⟨-, h | ⟨_, h⟩⟩
  · rw [h]
    exact .ok trivial
  · rw [h]
    rcases mixNumbers_cases m n ratio with ⟨x, hx⟩ | hx
    · rw [hx]
      exact .ok trivial
    · rw [hx]
      exact .tooLarge trivial
  · rw [h]
    exact .ok trivial
  · rw [h]
    exact .ok trivial

/-- Whatever the values of a script are, only a number can become too large. -/
theorem Script.runs_any (script : Script) : script.Runs True fun _ => True where
  attrs _ _ := trivial
  lifetime _ _ time := isOver_delivers (fun _ _ _ => trivial) time
  merge _ _ _ _ := trivial
  blend s _ ratio attrs _ := by
    induction s.properties generalizing attrs with
    | nil => exact .ok trivial
    | cons e r ih =>
      obtain ⟨key, v⟩ := e
      rw [Evaluation.blend]
      exact (mix_delivers _ v ratio).bind fun w _ => ih _

/-! ## Section 5: Presentable scripts -/

/-- The attributes that labels are made from. -/
def Summary.labelKeys : List String :=
  ["content", "text", "d"]

/-- Whether a value can stand for an attribute in a preview at any time: an opacity is a number, what
labels are made from can be a label, what stands beside a label can be written, and no number is
enormous. -/
def Value.isPresentable (name : String) (v : Value) : Bool :=
  v.number?.all Number.isModerate
    && (decide (name ≠ Emission.alphaKey) || v.plainNumber?.isSome)
    && (decide (name ∉ Summary.labelKeys) || Summary.isLabel v)
    && (decide (name ∉ Summary.writtenKeys) || v.hasText)

/-- Whether all values of a mapping can. -/
def Fields.arePresentable (fs : Fields) : Bool :=
  fs.all fun e => match e.1 with
    | .text name => e.2.isPresentable name
    | _ => false

/-- Whether all values in the definitions and statements of a script can. -/
def Script.isPresentable (script : Script) : Bool :=
  script.defs.all (fun d => Fields.arePresentable d.attrs)
    && script.sets.all fun s => Fields.arePresentable s.properties

namespace Value

theorem isPresentable_iff {name : String} {v : Value} :
    v.isPresentable name = true ↔ (∀ n, v.number? = some n → n.isModerate = true)
      ∧ (name = Emission.alphaKey → v.plainNumber?.isSome = true)
      ∧ (name ∈ Summary.labelKeys → Summary.isLabel v = true)
      ∧ (name ∈ Summary.writtenKeys → v.hasText = true) := by
  rw [isPresentable, Bool.and_eq_true, Bool.and_eq_true, Bool.and_eq_true, Option.all_eq_true, and_assoc,
    and_assoc]
  simp only [Bool.or_eq_true, decide_eq_true_eq, Decidable.imp_iff_not_or]

theorem number?_of_plainNumber? {v : Value} {n : Number} (h : v.plainNumber? = some n) :
    v.number? = some n := by
  cases v with
  | int i => exact h
  | float x => exact h
  | _ => cases h

/-- On the way from one presentable value to another one, each value is presentable. -/
theorem isPresentable_mix {name : String} {a b : Value} (ha : a.isPresentable name = true)
    (hb : b.isPresentable name = true) (ratio : Double) :
    ∃ w, Evaluation.mix a b ratio = .ok w ∧ w.isPresentable name = true := by
  obtain ⟨hma, haa, hla, -⟩ := isPresentable_iff.mp ha
  obtain ⟨hmb, hab, -, -⟩ := isPresentable_iff.mp hb
  rcases mix_cases a b ratio with h | ⟨m, n, hm, hn, h⟩ | ⟨hnone, h | ⟨t, h⟩⟩
  · exact ⟨b, h, hb⟩
  · -- between two numbers there is a double, and none of the two was a label
    obtain ⟨x, hx⟩ := mixNumbers_of_moderate (hma m (number?_of_plainNumber? hm))
      (hmb n (number?_of_plainNumber? hn)) ratio
    refine ⟨.float x, by rw [h, hx]; rfl, isPresentable_iff.mpr
      ⟨?_, fun _ => rfl, fun hlabel => ?_, fun _ => rfl⟩⟩
    · intro k hk
      rw [← Option.some.inj hk]
      rfl
    · have hno := hla hlabel
      cases a with
      | int i => cases hno
      | float y => cases hno
      | _ => cases hm
  · exact ⟨a, h, ha⟩
  · -- a text is no opacity: that is a number in both
    refine ⟨.text t, h, isPresentable_iff.mpr ⟨fun _ hk => (nomatch hk), fun hname => ?_,
      fun _ => rfl, fun _ => rfl⟩⟩
    have hsa := haa hname
    have hsb := hab hname
    rcases hnone with hnone | hnone
    · rw [hnone] at hsa
      cases hsa
    · rw [hnone] at hsb
      cases hsb

end Value

namespace Fields

/-- All attributes of a mapping can be presented. -/
def Presentable (attrs : Fields) : Prop :=
  ∀ name v, get? attrs name = some v → v.isPresentable name = true

theorem exists_name {fs : Fields} (h : arePresentable fs = true) {e : Value × Value} (he : e ∈ fs) :
    ∃ name, e.1 = .text name ∧ e.2.isPresentable name = true := by
  have hall := List.all_eq_true.mp h e he
  split at hall
  · next name hname => exact ⟨name, hname, hall⟩
  · cases hall

theorem presentable_of_arePresentable {fs : Fields} (h : arePresentable fs = true) :
    Presentable fs := by
  intro name v hv
  obtain ⟨name', hname, hpresentable⟩ := exists_name h (mem_of_get? hv)
  rwa [Value.text.inj hname]

theorem Presentable.insert {attrs : Fields} (h : Presentable attrs) {name : String} {v : Value}
    (hv : v.isPresentable name = true) : Presentable (insert attrs (.text name) v) := by
  intro name' w hw
  rw [get?_insert] at hw
  split at hw
  · next hsame =>
    rw [← Option.some.inj hw, ← Value.text.inj (Value.same_text.mp hsame)]
    exact hv
  · exact h name' w hw

theorem Presentable.merge {attrs ps : Fields} (h : Presentable attrs)
    (hps : arePresentable ps = true) : Presentable (merge attrs ps) := by
  refine merge_induction (fun e he fs hfs => ?_) h
  obtain ⟨name, hname, hv⟩ := exists_name hps he
  rw [hname]
  exact hfs.insert hv

/-- Blending presentable properties in leaves all attributes presentable. -/
theorem Presentable.blend {attrs ps : Fields} (h : Presentable attrs)
    (hps : arePresentable ps = true) (ratio : Double) :
    Delivers False Presentable (Evaluation.blend ratio attrs ps) := by
  induction ps generalizing attrs with
  | nil => exact .ok h
  | cons e r ih =>
    obtain ⟨name, hname, hv⟩ := exists_name hps List.mem_cons_self
    obtain ⟨key, v⟩ := e
    obtain rfl := hname
    have hrest : arePresentable r = true :=
      List.all_eq_true.mpr fun d hd => List.all_eq_true.mp hps d (List.mem_cons_of_mem _ hd)
    have hbefore : ((find? attrs (.text name)).getD v).isPresentable name = true := by
      cases hfound : find? attrs (.text name) with
      | none => exact hv
      | some a => exact h name a hfound
    obtain ⟨w, hw, hpresentable⟩ := Value.isPresentable_mix hbefore hv ratio
    rw [Evaluation.blend, hw, ok_bind]
    exact ih (h.insert hpresentable) hrest

end Fields

/-- A presentable script stays presentable at any time, and no number in it becomes too large. -/
theorem Script.runs_of_isPresentable {script : Script} (h : script.isPresentable = true) :
    script.Runs False Fields.Presentable := by
  rw [isPresentable, Bool.and_eq_true, List.all_eq_true, List.all_eq_true] at h
  refine ⟨fun d hd => Fields.presentable_of_arePresentable (h.1 d hd), fun d hd time => ?_,
    fun s hs attrs hattrs => hattrs.merge (h.2 s hs),
    fun s hs ratio attrs hattrs => hattrs.blend (h.2 s hs) ratio⟩
  refine isOver_delivers (fun n hn hnone => ?_) time
  cases hget : Fields.get? d.attrs "duration" with
  | none =>
    rw [Fields.get, hget] at hn
    cases hn
  | some v =>
    rw [Fields.get, hget] at hn
    have hpresentable := Fields.presentable_of_arePresentable (h.1 d hd) _ _ hget
    obtain ⟨x, hx⟩ := toDouble?_of_moderate ((Value.isPresentable_iff.mp hpresentable).1 n hn)
    rw [hx] at hnone
    cases hnone

/-- An object with presentable attributes can be shown. -/
theorem PreviewEngine.shows_of_presentable {s : ObjectState} (h : Fields.Presentable s.attrs) :
    Shows s := by
  constructor
  · unfold opacityOf
    cases hget : Fields.get? s.attrs Emission.alphaKey with
    | none => rfl
    | some v =>
      have hnumber := (Value.isPresentable_iff.mp (h _ v hget)).2.1 rfl
      obtain ⟨n, hn⟩ := Option.isSome_iff_exists.mp hnumber
      rw [Option.getD_some, Value.number?_of_plainNumber? hn]
      rfl
  · intro _
    rw [Summary.isDescribable, Bool.and_eq_true, List.all_eq_true]
    refine ⟨Summary.isLabel_firstOf fun v hv hholds => ?_, fun name hname => ?_⟩
    · have hmem : v ∈ Summary.labelKeys.map (Fields.get s.attrs) := hv
      obtain ⟨name, hname, rfl⟩ := List.mem_map.mp hmem
      unfold Fields.get at hholds ⊢
      cases hget : Fields.get? s.attrs name with
      | none => rw [hget] at hholds; cases hholds
      | some v => exact (Value.isPresentable_iff.mp (h name v hget)).2.2.1 hname
    · unfold Fields.get
      cases hget : Fields.get? s.attrs name with
      | none => rfl
      | some v => exact (Value.isPresentable_iff.mp (h name v hget)).2.2.2 hname

/-! ## Section 6: Loading and looking -/

namespace PreviewEngine

/-- Whether scripts of some kind were loaded into an engine, and nothing else. -/
def Plays (q : Script → Prop) (e : PreviewEngine) : Prop :=
  ∀ entry ∈ e.entries, ∃ script start, entry.Holds script start ∧ q script

theorem Plays.entered {q : Script → Prop} {e : PreviewEngine} (h : e.Plays q) {entry : Entry}
    {script : Script} {start : Double} (hentry : entry.Holds script start) (hq : q script) :
    (e.entered entry).Plays q := by
  intro other hother
  rcases List.mem_append.mp hother with hmem | hmem
  · exact h other hmem
  · rw [List.mem_singleton.mp hmem]
    exact ⟨script, start, hentry, hq⟩

/-- The objects of entries have the invariant of their scripts. -/
theorem statesIn_delivers {overflows : Prop} {q : Fields → Prop} {entries : List Entry}
    (h : ∀ entry ∈ entries, ∃ script start, entry.Holds script start ∧ script.Runs overflows q)
    {t : Int} {x : Double} (hx : doubleOfInt? t = some x) :
    Delivers overflows (fun states => ∀ s ∈ states, q s.attrs) (statesIn (.int t) entries) := by
  induction entries with
  | nil => exact .ok fun _ hs => nomatch hs
  | cons entry r ih =>
    obtain ⟨⟨script, start, hentry, hruns⟩, hr⟩ := List.forall_mem_cons.mp h
    have hown : Delivers overflows (fun states => ∀ s ∈ states, q s.attrs)
        (statesIn (.int t) [entry]) := by
      rw [statesIn_singleton hx]
      split
      · exact .ok fun _ hs => nomatch hs
      · rw [hentry.defs_eq, Script.defsValue, Value.items, ok_bind]
        exact hruns.statesOf hentry _ (List.Subset.refl _)
    rw [← List.singleton_append, statesIn_append]
    refine hown.bind fun own hown => ?_
    rcases ih hr with ⟨rest, hrest, hq⟩ | ⟨hoverflows, hrest⟩
    · rw [hrest]
      exact .ok (List.forall_mem_append.mpr ⟨hown, hq⟩)
    · rw [hrest]
      exact .tooLarge hoverflows

/-- Presentable scripts can be previewed at any time for which there is a double. -/
theorem previews_of_isPresentable {e : PreviewEngine} (h : e.Plays (·.isPresentable = true)) {t : Int}
    {x : Double} (hx : doubleOfInt? t = some x) : e.Previews t := by
  have hruns : ∀ entry ∈ e.entries, ∃ script start, entry.Holds script start
      ∧ script.Runs False Fields.Presentable := by
    intro entry hentry
    obtain ⟨script, start, hholds, hpresentable⟩ := h entry hentry
    exact ⟨script, start, hholds, Script.runs_of_isPresentable hpresentable⟩
  obtain ⟨states, hstates, hpresentable⟩ := (statesIn_delivers hruns hx).exists_ok
  exact previews_iff.mpr ⟨states, hstates, fun s hs => shows_of_presentable (hpresentable s hs)⟩

/-- Where scripts were loaded, the objects can be told unless a number is too large. -/
theorem objectStates_delivers {e : PreviewEngine} (h : e.Plays fun _ => True) (t : Int) :
    Delivers True (fun _ => True) (e.objectStates (.int t)) := by
  have hruns : ∀ entry ∈ e.entries, ∃ script start, entry.Holds script start
      ∧ script.Runs True fun _ => True := by
    intro entry hentry
    obtain ⟨script, start, hholds, -⟩ := h entry hentry
    exact ⟨script, start, hholds, script.runs_any⟩
  cases hx : doubleOfInt? t with
  | some x =>
    obtain ⟨states, hstates, -⟩ | ⟨-, hfails⟩ := statesIn_delivers hruns hx
    · exact Or.inl ⟨states, hstates, trivial⟩
    · exact Or.inr ⟨trivial, hfails⟩
  | none =>
    unfold objectStates
    cases e.entries with
    | nil => exact .ok trivial
    | cons entry r =>
      rw [statesIn_tooLarge hx]
      exact .tooLarge trivial

/-- The visible objects are some of the objects, in their order. -/
theorem sublist_of_visibleObjects {e : PreviewEngine} {time : Value} {states shown : List ObjectState}
    (hstates : e.objectStates time = .ok states) (h : e.visibleObjects time = .ok shown) :
    shown.Sublist states := by
  rw [visibleObjects, hstates, ok_bind] at h
  obtain ⟨-, rfl⟩ := visibleOf_eq_ok_iff.mp h
  exact List.filter_sublist

/-- A script that breaks no rule, loaded into an engine beside other scripts.  At any time the engine
tells its objects, or a number is too large.  Those that can be seen, if they can be told, are some of
them, in their order.  They can be told and described exactly if each opacity is a number, and each
object that can be seen has a label, beside which its place and its opacity can be written; and if all
scripts keep to this in their definitions and statements, everything can be told at any time for which
there is a double. -/
theorem preview_loaded {request : AddRequest} {text : String} {start : Double}
    (h : request.Carries text start) {script : Script} (hparse : Script.parse text.toList = .ok script)
    {e : PreviewEngine} (he : e.Plays fun _ => True) (w : Surroundings) :
    ∃ entry w', entry.Holds script start ∧ (add request).perform e w = (.ok (), e.entered entry, w')
      ∧ (e.entered entry).Plays (fun _ => True)
      ∧ ∀ t : Int,
        ((e.entered entry).objectStates (.int t) = .error .tooLarge
          ∨ ∃ states, (e.entered entry).objectStates (.int t) = .ok states
            ∧ (∀ shown, (e.entered entry).visibleObjects (.int t) = .ok shown → shown.Sublist states)
            ∧ ((e.entered entry).Previews t ↔ ∀ s ∈ states, Shows s))
        ∧ (doubleOfInt? t = none → (e.entered entry).objectStates (.int t) = .error .tooLarge)
        ∧ (script.isPresentable = true → e.Plays (·.isPresentable = true) →
          (doubleOfInt? t).isSome = true → (e.entered entry).Previews t) := by
  obtain ⟨entry, w', hentry, hperform⟩ := perform_add_script h hparse e w
  have hplays : (e.entered entry).Plays fun _ => True := he.entered hentry trivial
  refine ⟨entry, w', hentry, hperform, hplays, fun t => ⟨?_, ?_, ?_⟩⟩
  · rcases objectStates_delivers hplays t with ⟨states, hstates, -⟩ | ⟨-, hfails⟩
    · refine Or.inr ⟨states, hstates, fun shown => sublist_of_visibleObjects hstates, ?_⟩
      rw [previews_iff, hstates]
      exact ⟨fun ⟨_, heq, hshows⟩ => by rwa [Except.ok.inj heq], fun hshows => ⟨states, rfl, hshows⟩⟩
    · exact Or.inl hfails
  · exact fun hx => objectStates_tooLarge hx e entry
  · intro hpresentable hothers hx
    obtain ⟨x, hx⟩ := Option.isSome_iff_exists.mp hx
    exact previews_of_isPresentable (hothers.entered hentry hpresentable) hx

/-- Whether nothing ever happens to the objects of a script: there are no statements, and no lives that
end. -/
def isEternal (script : Script) : Bool :=
  script.sets.isEmpty && script.defs.all fun d => (Fields.get d.attrs "duration").number?.isNone

/-- Objects that nothing happens to are shown as they are defined. -/
theorem statesOf_eternal {script : Script} (h : isEternal script = true) {entry : Entry}
    {start : Double} (hentry : entry.Holds script start) (time : Double) {defs : List Definition}
    (hdefs : defs ⊆ script.defs) :
    statesOf entry time (defs.map Definition.toValue)
      = .ok (defs.map fun d => ⟨entry.id, .text d.name, .text d.kind.word, d.attrs⟩) := by
  rw [isEternal, Bool.and_eq_true, List.isEmpty_iff, List.all_eq_true] at h
  induction defs with
  | nil => rfl
  | cons d r ih =>
    obtain ⟨hd, hr⟩ := List.cons_subset.mp hdefs
    have hover : isOver time (Fields.get d.attrs "duration") = .ok false := by
      rw [isOver, Option.isNone_iff_eq_none.mp (h.2 d hd)]
    have hobject : Evaluation.object d.toValue [] (.float time) = .ok d.attrs := rfl
    rw [List.map_cons, statesOf_cons hentry.sets_eq, hover, ok_bind, if_neg Bool.false_ne_true, h.1,
      List.filter_nil, List.map_nil, hobject, ok_bind, ih hr, ok_bind, List.map_cons]

/-- A script that declares one text with one attribute. -/
def declaring (line : String) : String :=
  "def text obj_c \x7b\n" ++ line ++ "\n\x7d\n"

/-- An engine without options that has loaded it. -/
def showing (line : String) : PreviewEngine :=
  ((add (.ofScript (declaring line))).perform (.ofOptions [] false) default).2.1

/-- A percentage as an opacity cannot be compared with zero, and a number as a content cannot be cut
short. -/
theorem preview_loaded_one :
    ¬(showing "alpha = 50%").Previews 0 ∧ ¬(showing "content = 2024").Previews 0
      ∧ (showing "content = \"2024\"").Previews 0 := by
  have hplays : (PreviewEngine.ofOptions [] false).Plays fun _ => True := fun _ h => nomatch h
  have hdouble : doubleOfInt? 0 = some Double.zero := by
    rw [Double.zero_eq_ofNat]
    exact doubleOfInt?_natCast (twoTo_pos 53)
  have hread : ∀ (line : String) (p : Script → Bool),
      (Script.parse (declaring line).toList).toOption.any p = true →
      ∃ script, Script.parse (declaring line).toList = .ok script ∧ p script = true := by
    intro line p hp
    cases hparse : Script.parse (declaring line).toList with
    | error fault => rw [hparse] at hp; cases hp
    | ok script =>
      rw [hparse] at hp
      exact ⟨script, rfl, hp⟩
  -- without statements and lengths, the objects are those that are declared
  have hrefused : ∀ (line : String),
      (Script.parse (declaring line).toList).toOption.any (fun script => isEternal script
        && script.defs.any fun d => decide ¬Shows ⟨.none, .none, .none, d.attrs⟩) = true →
      ¬(showing line).Previews 0 := by
    intro line hline
    obtain ⟨script, hparse, hscript⟩ := hread line _ hline
    rw [Bool.and_eq_true, List.any_eq_true] at hscript
    obtain ⟨heternal, d, hd, hfails⟩ := hscript
    obtain ⟨entry, w', hentry, hperform, -, hshown⟩ :=
      preview_loaded (AddRequest.carries_ofScript (declaring line)) hparse hplays default
    have hstates : ((PreviewEngine.ofOptions [] false).entered entry).objectStates (.int 0)
        = .ok (script.defs.map fun d => ⟨entry.id, .text d.name, .text d.kind.word, d.attrs⟩) := by
      show statesIn (.int 0) ([] ++ [entry]) = _
      rw [List.nil_append, statesIn_script hentry hdouble,
        Double.lt_of_isFinite Double.isFinite_zero Double.isFinite_zero,
        decide_eq_false (Int.lt_irrefl _), if_neg Bool.false_ne_true,
        statesOf_eternal heternal hentry _ (List.Subset.refl _)]
    rw [showing, hperform]
    rcases (hshown 0).1 with hfault | ⟨states, hok, -, hiff⟩
    · rw [hstates] at hfault
      cases hfault
    · rw [hstates] at hok
      obtain rfl := Except.ok.inj hok
      intro hpreviews
      have hshows := hiff.mp hpreviews _ (List.mem_map_of_mem hd)
      exact of_decide_eq_true hfails hshows
  refine ⟨hrefused _ (by decide +kernel), hrefused _ (by decide +kernel), ?_⟩
  obtain ⟨script, hparse, hpresentable⟩ := hread "content = \"2024\"" Script.isPresentable
    (by decide +kernel)
  obtain ⟨entry, w', -, hperform, -, hshown⟩ :=
    preview_loaded (AddRequest.carries_ofScript _) hparse hplays default
  rw [showing, hperform]
  exact (hshown 0).2.2 hpresentable (fun _ h => nomatch h) (by rw [hdouble]; rfl)

end PreviewEngine

end Overlay
