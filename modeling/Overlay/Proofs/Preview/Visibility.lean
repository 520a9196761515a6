import Overlay.Proofs.Preview.Entries
import Overlay.Proofs.Preview.Objects
import Overlay.Proofs.Preview.ShotStates
import Overlay.Proofs.Script.Sequences

/-!
# When a clip is seen

A clip without segments is seen from its start to its end, up to one millisecond.  Its two times are
written as seconds and are milliseconds again when they are compared with the time that is looked at,
so each of them has been rounded twice.  A time that has become larger on the way is passed one whole
millisecond later.

## Main definitions
- `Shot.passedAt`: the first whole time that is not before a time of a clip
- `Shot.Perceptible`: an opacity above zero, up to one

## Main statements
- `Shot.object_still`: the object of a clip without segments at a time
- `Shot.visible_iff`: when the object is seen
-/

namespace Overlay

open Overlay.Text Overlay.Number Overlay.Literal

attribute [local irreducible] twoTo tenTo Double.unitsInOne

namespace Shot

/-! ## Section 1: Times -/

/-- The first whole time that is not before a time of a clip, once that time has been written. -/
def passedAt (n : Nat) : Nat :=
  n + if Double.isLate n then 1 else 0

theorem thereAndBack_le_iff {n : Nat} (hn : n < twoTo 52) {t : Int} {x : Double}
    (hx : doubleOfInt? t = some x) : (Double.thereAndBack n).le x = true ↔ (passedAt n : Int) ≤ t := by
  rw [Double.thereAndBack_le_iff hn hx, passedAt]
  split <;> simp

/-- Whole seconds are passed when they are there. -/
theorem passedAt_of_dvd {n : Nat} (hdvd : 1000 ∣ n) (hn : n < twoTo 53) : passedAt n = n := by
  obtain ⟨m, p, h, hx, -⟩ := Double.ofNat_eq_finite hn
  have hlate : Double.isLate n = false := by
    rw [Double.isLate, Double.thereAndBack_of_dvd hdvd hn, hx, Double.lt_of_isFinite rfl rfl]
    exact decide_eq_false (Int.lt_irrefl _)
  rw [passedAt, hlate]
  rfl

/-- From the two thousand and seventh millisecond on, some times are passed one millisecond later. -/
example : passedAt 2006 = 2006 ∧ passedAt 2007 = 2008 ∧ passedAt 2008 = 2008 := by
  decide +kernel

/-! ## Section 2: Opacity -/

/-- An opacity above zero, up to one. -/
def Perceptible (s : Shot) : Prop :=
  ∃ n, s.opacity.plainNumber? = some n ∧ (Number.int 0).lt n = true ∧ n.le (.int 1) = true

/-- A double above zero is one that has units, or is infinite. -/
theorem finite_of_perceptible {x : Double} (hpos : (Number.int 0).lt (.float x) = true)
    (hle : (Number.float x).le (.int 1) = true) : x.isFinite = true ∧ 0 < x.units := by
  cases x with
  | nan => cases hpos
  | infinite s =>
    cases s with
    | false =>
      simp [Number.le, Number.place?, Double.place?, Double.Place.ofInt, Double.Place.before] at hle
    | true =>
      simp [Number.lt, Number.place?, Double.place?, Double.Place.ofInt, Double.Place.before] at hpos
  | finite s m p h =>
    have hplace : (Number.float (.finite s m p h)).place? = some ⟨0, (Double.finite s m p h).units⟩ :=
      rfl
    rw [Number.lt_eq (place?_int 0) hplace, Double.Place.ofInt, Int.zero_mul,
      Double.before_units] at hpos
    exact ⟨rfl, of_decide_eq_true hpos⟩

/-- What is read of an opacity above zero lies above zero. -/
theorem positive_alpha {s : Shot} (h : s.Perceptible) :
    ∃ n, s.alpha.number? = some n ∧ (Number.int 0).lt n = true := by
  obtain ⟨n, hn, hpos, hle⟩ := h
  have hcolor : ∀ n, isColor (.text Emission.alphaKey) n = false := by
    intro n
    have hname : Resource.isColorName (Value.text Emission.alphaKey).shown = false := by decide
    rw [isColor, hname, Bool.false_and]
  have hpercent : isPercentKey (.text Emission.alphaKey) = false := by decide
  unfold alpha
  cases hopacity : s.opacity with
  | int i =>
    rw [hopacity] at hn
    obtain rfl := Option.some.inj hn
    rw [Number.lt_int, decide_eq_true_eq] at hpos
    rw [Number.le_int, decide_eq_true_eq] at hle
    obtain rfl : i = 1 := by omega
    rw [readBack, readBackNumber, hcolor, hpercent]
    refine ⟨.int 1, congrArg Value.number? (Scanner.bare_int (by decide +kernel)), ?_⟩
    rw [Number.lt_int]
    rfl
  | float x =>
    rw [hopacity] at hn
    obtain rfl := Option.some.inj hn
    obtain ⟨hfinite, hunits⟩ := finite_of_perceptible hpos hle
    rw [readBack, readBackNumber, hcolor, hpercent]
    show ∃ n, (Scanner.bare (.float x)).number? = some n ∧ _
    rw [Scanner.bare]
    split
    · next hwhole =>
      -- a whole opacity is read as an integer, which lies above zero too
      have hone : (0 : Int) < Double.unitsInOne := Int.natCast_pos.mpr Double.unitsInOne_pos
      refine ⟨.int x.truncate, rfl, ?_⟩
      rw [Number.lt_int, decide_eq_true_eq]
      rw [Double.units_of_isWhole hwhole] at hunits
      by_contra hle
      have := Int.mul_le_mul_of_nonneg_right (Int.not_lt.mp hle) (Int.le_of_lt hone)
      omega
    · exact ⟨.float x, rfl, hpos⟩
  | _ => rw [hopacity] at hn; cases hn

/-! ## Section 3: Objects -/

/-- Waiting takes its time from the beginning on and changes nothing. -/
theorem step_wait {x : Double} (ms : Nat) (name : String) (line : Nat) (attrs : Fields)
    (chainEnd : Double) :
    Evaluation.step (.float x) attrs chainEnd ((Beat.wait ms).at name line).toValue
      = .ok (attrs, Double.zero.add (Double.thereAndBack ms)) := by
  have hbegin : Double.zero = if ((Beat.wait ms).at name line).chained then chainEnd else Double.zero :=
    rfl
  have htime : (Value.float x).number? = some (.float x) := rfl
  rw [step_statement hbegin (toMs_seconds ms) htime]
  split
  · rfl
  · split
    · rfl
    · rw [toDouble?, orFault_some, ok_bind]
      rfl

/-- A change at one moment. -/
theorem step_moment {x begin : Double} (hx : x.isFinite = true) (hbegin : begin.isFinite = true)
    (hadd : begin.add Double.zero = begin) (properties : Fields) (name : String) (line : Nat)
    (attrs : Fields) :
    Evaluation.step (.float x) attrs begin ((Beat.next properties 0 true).at name line).toValue
      = .ok (if begin.le x then Fields.merge attrs properties else attrs, begin) := by
  have hchain : begin
      = if ((Beat.next properties 0 true).at name line).chained then begin else Double.zero := rfl
  have hlength : Evaluation.toMs (.float ((Beat.next properties 0 true).at name line).duration)
      = .ok Double.zero := by
    rw [Double.zero_eq_ofNat]
    exact toMs_secondsOfMs (Nat.dvd_zero 1000) (twoTo_pos 53)
  have htime : (Value.float x).number? = some (.float x) := rfl
  have hbefore : (Number.float x).lt (.float begin) = !(begin.le x) := by
    rw [Number.lt_eq (place?_float x ▸ Double.place?_of_isFinite hx)
        (place?_float begin ▸ Double.place?_of_isFinite hbegin), Double.before_units,
      Double.le_of_isFinite hbegin hx, ← decide_not]
    exact decide_eq_decide.mpr Int.not_le.symm
  have hdone : Double.zero.le Double.zero = true := by
    rw [Double.le_of_isFinite Double.isFinite_zero Double.isFinite_zero]
    exact decide_eq_true (Int.le_refl _)
  rw [step_statement hchain hlength htime, hbefore, hdone, hadd, Bool.true_or]
  cases begin.le x <;> rfl

/-- The object of a clip without segments at a time: once the clip has started, it has its opacity. -/
theorem object_still {s : Shot} (hmoves : s.moves = []) (hstart : s.start < twoTo 52) {x : Double}
    (hx : x.isFinite = true) :
    Evaluation.object s.definition.toValue ((s.statements 1).map Statement.toValue) (.float x)
      = .ok (if s.isDelayed && (Double.thereAndBack s.start).le x then
          Fields.put s.definition.attrs Emission.alphaKey s.alpha else s.definition.attrs) := by
  have hinitial : Evaluation.initial s.definition.toValue = .ok s.definition.attrs := rfl
  rw [Evaluation.object, hinitial, ok_bind, statements, beats, hmoves, Move.allBeats, List.append_nil,
    revealBeats]
  cases hdelayed : s.isDelayed with
  | false => rfl
  | true =>
    obtain ⟨m, p, h, hback, -⟩ := Double.exists_thereAndBack hstart
    obtain ⟨hadd, hzero⟩ := Double.add_zero_of_positive h
    rw [← hback] at hadd hzero
    have hmoment := step_moment hx (Double.isFinite_thereAndBack hstart) hadd
    rw [if_pos rfl, Bool.true_and]
    simp only [numbered, List.map_cons, List.map_nil]
    rw [Evaluation.steps, step_wait, ok_bind, hzero]
    dsimp only
    rw [Evaluation.steps, hmoment, ok_bind]
    rfl

/-! ## Section 4: Looking at the clip -/

/-- The attributes of the object while its clip lasts. -/
def shownAttrs (s : Shot) : Fields :=
  if s.isDelayed then Fields.put s.definition.attrs Emission.alphaKey s.alpha else s.definition.attrs

theorem get_duration (s : Shot) :
    Fields.get s.definition.attrs "duration" = .float (secondsOfMs (s.start + s.duration)) := by
  have hname : ¬Emission.alphaKey = "duration" := by decide
  unfold Fields.get
  cases hdelayed : s.isDelayed with
  | false => rw [s.attrs_of_immediate hdelayed, Fields.get?_put, if_pos rfl]; rfl
  | true =>
    rw [s.attrs_of_delayed hdelayed, Fields.get?_put, if_neg hname, Fields.get?_put, if_pos rfl]
    rfl

/-- While its clip lasts, the object has the opacity of its resource, or is seen as it is. -/
theorem getD_shownAttrs {s : Shot} (hkeys : Fields.TextKeyed s.resource)
    (hd : Fields.Distinct s.resource) (halpha : ∀ v, (.text Emission.alphaKey, v) ∉ s.resource) :
    (Fields.get? s.shownAttrs Emission.alphaKey).getD (.int 1) = s.alpha := by
  have hname : ¬"duration" = Emission.alphaKey := by decide
  unfold shownAttrs
  cases hdelayed : s.isDelayed with
  | true => rw [if_pos rfl, Fields.get?_put, if_pos rfl]; rfl
  | false =>
    rw [if_neg Bool.false_ne_true, s.attrs_of_immediate hdelayed, Fields.get?_put, if_neg hname,
      s.get?_attributes hdelayed hkeys hd halpha]
    cases hopacity : s.hasOpacity with
    | true => rfl
    | false => rw [alpha_eq, hopacity]; rfl

/-- Until its clip starts, the object is hidden. -/
theorem getD_attrs_of_delayed {s : Shot} (hdelayed : s.isDelayed = true) :
    (Fields.get? s.definition.attrs Emission.alphaKey).getD (.int 1) = .int 0 := by
  rw [s.attrs_of_delayed hdelayed, Fields.get?_put, if_pos rfl]
  rfl

theorem filter_statements (s : Shot) (line : Nat) :
    (s.statements line).filter (fun statement => statement.name = s.definition.name)
      = s.statements line :=
  List.filter_eq_self.mpr fun _ h => decide_eq_true (name_of_mem_numbered h)

/-- The object of an entry at a time, while its life lasts. -/
theorem statesOf_still {s : Shot} (hmoves : s.moves = []) (hend : s.start + s.duration < twoTo 52)
    {entry : Entry} {start : Double} (hentry : entry.Holds s.script start) {x : Double}
    (hx : x.isFinite = true) :
    PreviewEngine.statesOf entry x (s.script.defs.map Definition.toValue)
      = .ok (if (Double.thereAndBack (s.start + s.duration)).le x then [] else
          [⟨entry.id, .text s.name, .text s.kind.word,
            if s.isDelayed && (Double.thereAndBack s.start).le x then
              Fields.put s.definition.attrs Emission.alphaKey s.alpha else s.definition.attrs⟩]) := by
  have hdefs : s.script.defs.map Definition.toValue = [s.definition.toValue] := rfl
  have hsets : s.script.sets = s.statements 1 := rfl
  have hover : PreviewEngine.isOver x (.float (secondsOfMs (s.start + s.duration)))
      = .ok ((Double.thereAndBack (s.start + s.duration)).le x) := by
    rw [PreviewEngine.isOver, toMs_seconds]
    rfl
  have hnone : PreviewEngine.statesOf entry x [] = .ok [] := rfl
  rw [hdefs, PreviewEngine.statesOf_cons hentry.sets_eq, get_duration, hover, ok_bind, hsets,
    filter_statements, object_still hmoves (by omega) hx, ok_bind, hnone, ok_bind]
  split
  · rfl
  · rfl

/-- Times before zero are doubles before zero. -/
theorem lt_zero_iff {t : Int} {x : Double} (hx : doubleOfInt? t = some x) :
    x.lt Double.zero = true ↔ t < 0 := by
  have hfinite := (Double.doubleOfInt?_eq_some.mp hx).2
  have hpos : (0 : Int) < Double.unitsInOne := Int.natCast_pos.mpr Double.unitsInOne_pos
  have hle := Double.le_units_ofInt hx (Nat.zero_le _)
  have hmul : 0 * (Double.unitsInOne : Int) ≤ t * Double.unitsInOne ↔ 0 ≤ t :=
    Int.mul_le_mul_right hpos
  rw [Int.zero_mul] at hmul
  rw [Double.lt_of_isFinite hfinite Double.isFinite_zero, Double.units_zero, decide_eq_true_eq,
    ← Int.not_le, ← Int.not_le]
  exact not_congr (hle.trans hmul)

/-- What can be seen of the entry at a time. -/
theorem visible_entry {s : Shot} (hmoves : s.moves = []) (hend : s.start + s.duration < twoTo 52)
    (hperceptible : s.Perceptible) (hkeys : Fields.TextKeyed s.resource)
    (hd : Fields.Distinct s.resource) (halpha : ∀ v, (.text Emission.alphaKey, v) ∉ s.resource)
    {entry : Entry}
    (hentry : entry.Holds s.script Double.zero) {t : Int} {x : Double}
    (hx : doubleOfInt? t = some x) :
    (PreviewEngine.statesIn (.int t) [entry] >>= PreviewEngine.visibleOf)
      = .ok (if passedAt s.start ≤ t ∧ t < passedAt (s.start + s.duration) then
          [⟨entry.id, .text s.name, .text s.kind.word, s.shownAttrs⟩] else []) := by
  have hfinite := (Double.doubleOfInt?_eq_some.mp hx).2
  rw [PreviewEngine.statesIn_script hentry hx, statesOf_still hmoves hend hentry hfinite]
  have hstart := thereAndBack_le_iff (n := s.start) (by omega) hx
  have hstop := thereAndBack_le_iff hend hx
  by_cases hneg : t < 0
  · -- before the script begins
    rw [if_pos ((lt_zero_iff hx).mpr hneg), if_neg (by omega)]
    rfl
  rw [if_neg fun h => hneg ((lt_zero_iff hx).mp h)]
  by_cases hover : (passedAt (s.start + s.duration) : Int) ≤ t
  · rw [if_pos (hstop.mpr hover), if_neg (by omega)]
    rfl
  rw [if_neg fun h => hover (hstop.mp h)]
  by_cases hbegun : (passedAt s.start : Int) ≤ t
  · -- the clip has started: what is shown is the opacity of the resource
    have hattrs : (if s.isDelayed && (Double.thereAndBack s.start).le x then
        Fields.put s.definition.attrs Emission.alphaKey s.alpha else s.definition.attrs)
        = s.shownAttrs := by
      rw [hstart.mpr hbegun, Bool.and_true, shownAttrs]
    obtain ⟨n, hnumber, hpositive⟩ := positive_alpha hperceptible
    rw [← getD_shownAttrs hkeys hd halpha] at hnumber
    rw [hattrs, if_pos (by omega), ok_bind, PreviewEngine.visibleOf_singleton (n := n), hpositive,
      if_pos rfl]
    exact hnumber
  · -- the clip starts later: a hidden object is not seen
    have hdelayed : s.isDelayed = true := by
      refine decide_eq_true (Nat.pos_of_ne_zero fun hzero => hbegun ?_)
      rw [hzero, passedAt_of_dvd (Nat.dvd_zero 1000) (twoTo_pos 53)]
      omega
    have hback : (Double.thereAndBack s.start).le x = false :=
      Bool.eq_false_iff.mpr fun h => hbegun (hstart.mp h)
    have hnumber := congrArg Value.number? (getD_attrs_of_delayed hdelayed)
    rw [hback, Bool.and_false, if_neg Bool.false_ne_true, if_neg (by omega), ok_bind,
      PreviewEngine.visibleOf_singleton (n := .int 0), Number.lt_int, if_neg (by decide)]
    exact hnumber

/-- A clip without segments, written and loaded into an engine at time zero.  Of all times for which
there is a double, its object is seen from the first one on that is not before the start of the clip,
up to the first one that is not before its end, each of them written as seconds and read back. -/
theorem visible_iff {s : Shot} {clip resource : Value} (hg : s.Given clip resource) (hw : s.Writable)
    (hmoves : s.moves = []) (hend : s.start + s.duration < twoTo 52) (hperceptible : s.Perceptible)
    (hd : Fields.Distinct s.resource) (halpha : ∀ v, (.text Emission.alphaKey, v) ∉ s.resource) :
    ∃ text, Emission.clip clip resource = .ok text
      ∧ ∀ (request : AddRequest) (e : PreviewEngine) (w : Surroundings),
        request.Carries (String.ofList text) Double.zero →
        ∃ id e' w', (PreviewEngine.add request).perform e w = (.ok (), e', w')
          ∧ ∀ (t : Int) (seen : List PreviewEngine.ObjectState), e.visibleObjects (.int t) = .ok seen →
            match doubleOfInt? t with
            | none => e'.visibleObjects (.int t) = .error .tooLarge
            | some _ => e'.visibleObjects (.int t)
              = .ok (seen ++ if passedAt s.start ≤ t ∧ t < passedAt (s.start + s.duration) then
                  [⟨id, .text s.name, .text s.kind.word, s.shownAttrs⟩] else []) := by
  have hkeys : Fields.TextKeyed s.resource := textKeyed_of_areWritable hw.resource_writable
  obtain ⟨ls, hclip, hblock, hlines⟩ := hg.exists_block hw
  refine ⟨_, hclip, fun request e w hrequest => ?_⟩
  have hparse : Script.parse (String.ofList (Emission.endLines ls)).toList = .ok s.script := by
    rw [String.toList_ofList]
    exact hblock.parse_eq hlines
  obtain ⟨entry, w', hentry, hperform⟩ := PreviewEngine.perform_add_script hrequest hparse e w
  refine ⟨entry.id, _, w', hperform, fun t seen hseen => ?_⟩
  cases hx : doubleOfInt? t with
  | none =>
    show _ = _
    rw [PreviewEngine.visibleObjects, PreviewEngine.objectStates_tooLarge hx, error_bind]
  | some x =>
    show _ = _
    rw [PreviewEngine.visibleObjects_entered hseen,
      visible_entry hmoves hend hperceptible hkeys hd halpha hentry hx, ok_map]

/-- A text that is to be seen for two seconds and seven milliseconds. -/
def brief : Shot where
  id := .text "c"
  start := 0
  duration := 2007
  kind := .text
  resource := [(.text "type", .text "text"), (.text "content", .text "hi"), (.text "opacity", .int 1)]
  moves := []

/-- Its clip. -/
def briefClip : Value :=
  .dict [(.text "id", .text "c"), (.text "start_time", .int 0), (.text "duration", .int 2007)]

/-- What an engine without options shows of the text at a time. -/
def briefly (text : List Char) (t : Int) : Result (List PreviewEngine.ObjectState) :=
  ((PreviewEngine.add (.ofScript (String.ofList text))).perform (.ofOptions [] false) default).2.1
    |>.visibleObjects (.int t)

/-- The text is still seen when its two seconds and seven milliseconds are over. -/
theorem visible_iff_brief :
    ∃ text, Emission.clip briefClip (.dict brief.resource) = .ok text
      ∧ (∃ state, briefly text 2006 = .ok [state]) ∧ (∃ state, briefly text 2007 = .ok [state])
      ∧ briefly text 2008 = .ok [] := by
  have hw : brief.Writable :=
    ⟨rfl, by decide +kernel, by decide +kernel, by decide +kernel, fun m hm => nomatch hm⟩
  have hperceptible : brief.Perceptible := ⟨.int 1, rfl, by decide +kernel, by decide +kernel⟩
  have hgiven : brief.Given briefClip (.dict brief.resource) :=
    ⟨rfl, rfl, rfl, rfl, rfl, Or.inr ⟨rfl, rfl⟩⟩
  obtain ⟨text, hclip, hshown⟩ := visible_iff hgiven hw rfl (by decide +kernel) hperceptible
    (by decide +kernel) (by simp [brief, Emission.alphaKey])
  obtain ⟨id, e', w', hperform, hvisible⟩ :=
    hshown _ (.ofOptions [] false) default (AddRequest.carries_ofScript _)
  have hbriefly : ∀ t : Nat, t < 2010 → briefly text t
      = .ok (if passedAt 0 ≤ t ∧ t < passedAt 2007 then
          [⟨id, .text brief.name, .text brief.kind.word, brief.shownAttrs⟩] else []) := by
    intro t ht
    have hdouble := doubleOfInt?_natCast (Nat.lt_trans ht (by decide +kernel : 2010 < twoTo 53))
    have h := hvisible t [] rfl
    rw [hdouble] at h
    rw [briefly, hperform]
    simpa [brief] using h
  have hstop : passedAt 0 = 0 ∧ passedAt 2007 = 2008 := by decide +kernel
  rw [hstop.1, hstop.2] at hbriefly
  exact ⟨text, hclip, ⟨_, hbriefly 2006 (by decide)⟩, ⟨_, hbriefly 2007 (by decide)⟩,
    hbriefly 2008 (by decide)⟩

end Shot

end Overlay
