import Overlay.Proofs.Preview.Blending
import Overlay.Proofs.Preview.Objects
import Overlay.Proofs.Preview.ShotStates

/-!
# Clips that are moved in time

A clip that starts later shows the same, later.  Its object is hidden first and is then brought into
view by statements of its own, so its opacity is always set; the opacity of a clip that starts at zero
is only set where its resource has one.  A change of the opacity that runs blends from what is set, and
a missing opacity is taken for the target itself.  Apart from that the two show the same.

## Main definitions
- `Fields.Related`: two mappings, attribute by attribute
- `Move.findsOpacity`: no change of the opacity runs that finds it missing
- `Shot.Shown`: what is shown of attributes, where a missing opacity counts as one

## Main statements
- `statesAt_shift`: segments that start later do the same, later
- `changeAt_agree`: a change of related attributes
- `Shot.moved_agrees`: a clip and the same clip moved
-/

namespace Overlay

open Overlay.Text Overlay.Number Overlay.Literal

attribute [local irreducible] twoTo tenTo Double.unitsInOne

/-! ## Section 1: Two mappings -/

namespace Fields

variable {P : String → Option Value → Option Value → Prop} {a b : Fields}

/-- Two mappings whose attributes are related, name by name. -/
def Related (P : String → Option Value → Option Value → Prop) (a b : Fields) : Prop :=
  ∀ name, P name (get? a name) (get? b name)

/-- Setting an attribute in both of two mappings. -/
theorem Related.insert (h : Related P a b) {key : String} {v w : Value}
    (hvw : P key (some v) (some w)) :
    Related P (insert a (.text key) v) (insert b (.text key) w) := by
  intro name
  rw [get?_insert, get?_insert]
  by_cases hname : (Value.text key).same (.text name) = true
  · rw [if_pos hname, if_pos hname]
    have heq : key = name := by simpa [Value.same_text] using hname
    rwa [← heq]
  · rw [if_neg hname, if_neg hname]
    exact h name

end Fields

/-! ## Section 2: Changes of two mappings -/

section Changes

variable {faults : Prop} {P Q : String → Option Value → Option Value → Prop} {a b : Fields}

/-- Whether related values of an attribute stay related when they are blended towards the same one. -/
def MixAgree (faults : Prop) (P : String → Option Value → Option Value → Prop) (name : String)
    (v : Value) : Prop :=
  ∀ o o' ratio, P name o o' → Agree faults (fun w w' => P name (some w) (some w'))
    (Evaluation.mix (o.getD v) v ratio) (Evaluation.mix (o'.getD v) v ratio)

theorem blend_agree {ps : Fields} (hps : Fields.TextKeyed ps) (h : Fields.Related P a b)
    (hmix : ∀ name v, (.text name, v) ∈ ps → MixAgree faults P name v) (ratio : Double) :
    Agree faults (Fields.Related P) (Evaluation.blend ratio a ps) (Evaluation.blend ratio b ps) := by
  induction ps generalizing a b with
  | nil => exact Agree.ok h
  | cons e r ih =>
    obtain ⟨he, hr⟩ := List.forall_mem_cons.mp hps
    obtain ⟨key, v⟩ := e
    obtain ⟨name, rfl⟩ := he
    have hrest : ∀ name v, (.text name, v) ∈ r → MixAgree faults P name v :=
      fun name' w hw => hmix name' w (List.mem_cons_of_mem _ hw)
    rw [Evaluation.blend, Evaluation.blend]
    apply Agree.bind (hmix name v List.mem_cons_self _ _ ratio (h name))
    intro w w' hw
    exact ih hr (h.insert hw) hrest

/-- A change does the same to related attributes: it has not begun, or it is over, or it blends them
alike. -/
theorem changeAt_agree {ps : Fields} (hps : Fields.TextKeyed ps) (hd : Fields.Distinct ps)
    (h : Fields.Related P a b) {time begin length : Nat}
    (hbefore : time < begin → ∀ name o o', P name o o' → Q name o o')
    (hover : begin ≤ time → ∀ name o o', P name o o' →
      Q name ((Fields.get? ps name).or o) ((Fields.get? ps name).or o'))
    (hruns : begin ≤ time → time < begin + length →
      (∀ name v, (.text name, v) ∈ ps → MixAgree faults P name v)
        ∧ ∀ name o o', P name o o' → Q name o o') :
    Agree faults (Fields.Related Q) (changeAt time begin length a ps)
      (changeAt time begin length b ps) := by
  unfold changeAt
  split
  · next hearly => exact Agree.ok fun name => hbefore hearly name _ _ (h name)
  · next hbegun =>
    split
    · apply Agree.ok
      intro name
      rw [Fields.get?_merge hd, Fields.get?_merge hd]
      exact hover (by omega) name _ _ (h name)
    · next hrunning =>
      obtain ⟨hmix, hkeep⟩ := hruns (by omega) (by omega)
      apply (blend_agree hps h hmix _).mono
      intro x y hxy name
      exact hkeep name _ _ (hxy name)

end Changes

/-! ## Section 3: Changes that begin later -/

theorem changeAt_shift (shift time begin length : Nat) (attrs properties : Fields) :
    changeAt (shift + time) (shift + begin) length attrs properties
      = changeAt time begin length attrs properties := by
  simp only [changeAt, Nat.add_lt_add_iff_left, Nat.add_assoc, Nat.add_le_add_iff_left,
    Nat.add_sub_add_left]

/-- Segments that start later do the same, later. -/
theorem Move.statesAt_shift (shift start time before : Nat) (attrs : Fields) (moves : List Move) :
    Move.statesAt (shift + start) (shift + time) (shift + before) attrs moves
      = Move.statesAt start time before attrs moves := by
  induction moves generalizing before attrs with
  | nil => rfl
  | cons m r ih =>
    have hbegin : m.beginOf (shift + start) (shift + before) = shift + m.beginOf start before := by
      unfold Move.beginOf
      cases m.kind with
      | set => exact Nat.add_assoc shift start m.delay
      | chained => rfl
    rw [Move.statesAt, Move.statesAt, hbegin, changeAt_shift]
    simp only [Nat.add_assoc, ih]

/-! ## Section 4: What is compared -/

/-- How an attribute of a clip compares with that of the same clip moved: the lengths of the two objects
differ, and an opacity that is missing in the first one is one in the other. -/
def Shot.Compares (found : Bool) (name : String) (o o' : Option Value) : Prop :=
  if name = "duration" then o = o' ∨ ∃ x y, o = some (.float x) ∧ o' = some (.float y)
  else if name = Emission.alphaKey ∧ found = false then o = none ∧ o' = some (.int 1)
  else o = o'

theorem mixAgree_duration (v : Value) (found : Bool) :
    MixAgree True (Shot.Compares found) "duration" v := by
  intro o o' ratio h
  simp only [Shot.Compares, if_true] at h ⊢
  rcases h with rfl | ⟨x, y, rfl, rfl⟩
  · exact Agree.same fun _ _ => Or.inl rfl
  · rw [Option.getD_some, Option.getD_some, mix_float, mix_float]
    split
    · exact Agree.ok (Or.inl rfl)
    · cases v.plainNumber? with
      | none => exact Agree.ok (Or.inr ⟨x, y, rfl, rfl⟩)
      | some n =>
        cases hn : n.toDouble? with
        | none =>
          simp only [hn, orFault, error_map]
          exact Agree.error _
        | some z =>
          simp only [hn, orFault, ok_map]
          exact Agree.ok (Or.inr ⟨_, _, rfl, rfl⟩)

/-- What is compared is blended alike, unless it is an opacity that is missing. -/
theorem mixAgree_compares {name : String} {found : Bool}
    (hname : name = Emission.alphaKey → found = true) (v : Value) :
    MixAgree True (Shot.Compares found) name v := by
  by_cases hduration : name = "duration"
  · rw [hduration]
    exact mixAgree_duration v found
  · intro o o' ratio h
    have hmissing : ¬(name = Emission.alphaKey ∧ found = false) := by
      rintro ⟨halpha, hfound⟩
      rw [hname halpha] at hfound
      cases hfound
    simp only [Shot.Compares, if_neg hduration, if_neg hmissing] at h ⊢
    rw [h]
    exact Agree.same fun _ _ => rfl

/-- What is shown of an attribute: an opacity that is missing counts as one. -/
def Shot.Shown (name : String) (o o' : Option Value) : Prop :=
  name ≠ "duration" → if name = Emission.alphaKey then o.getD (.int 1) = o'.getD (.int 1) else o = o'

theorem Shot.Compares.of_eq {found : Bool} {name : String} (h : name = Emission.alphaKey → found = true)
    (o : Option Value) : Shot.Compares found name o o := by
  unfold Shot.Compares
  split
  · exact Or.inl rfl
  · split
    · next hmissing =>
      rw [h hmissing.1] at hmissing
      cases hmissing.2
    · rfl

theorem Shot.Compares.congr {found found' : Bool} {name : String} {o o' : Option Value}
    (ho : Shot.Compares found name o o') (h : name = Emission.alphaKey → found = found') :
    Shot.Compares found' name o o' := by
  by_cases hname : name = Emission.alphaKey
  · rwa [← h hname]
  · simpa [Shot.Compares, hname] using ho

theorem Shot.Compares.shown {found : Bool} {name : String} {o o' : Option Value}
    (h : Shot.Compares found name o o') : Shot.Shown name o o' := by
  intro hduration
  simp only [Shot.Compares, if_neg hduration] at h
  split at h
  · next hmissing =>
    rw [if_pos hmissing.1, h.1, h.2]
    rfl
  · rw [h]
    split <;> rfl

/-- An attribute that is neither the length of the object nor its opacity. -/
def Shot.Other (name : String) (o o' : Option Value) : Prop :=
  name ≠ "duration" → name ≠ Emission.alphaKey → o = o'

theorem mixAgree_other (name : String) (v : Value) : MixAgree False Shot.Other name v := by
  intro o o' ratio h
  refine ⟨fun w w' hw hw' hduration halpha => ?_, False.elim⟩
  rw [h hduration halpha, hw'] at hw
  exact congrArg some (Except.ok.inj hw).symm

/-! ## Section 5: Segments -/

namespace Move

theorem textKeyed_targets (m : Move) : Fields.TextKeyed m.targets :=
  Fields.textKeyed_assign .nil _

theorem distinct_targets (m : Move) : Fields.Distinct m.targets :=
  Fields.distinct_assign List.Pairwise.nil _

/-- Whether a segment sets the opacity. -/
def setsOpacity (m : Move) : Bool :=
  Fields.has m.targets Emission.alphaKey

/-- Whether no change of the opacity runs that finds it missing, given whether it is set when the first
of the segments is looked at. -/
def findsOpacity (start time before : Nat) (found : Bool) : List Move → Bool
  | [] => true
  | m :: r =>
    let begin := m.beginOf start before
    let runs := decide (begin ≤ time ∧ time < begin + m.duration)
    (found || !(m.setsOpacity && runs))
      && findsOpacity start time (begin + m.duration)
        (found || m.setsOpacity && decide (begin ≤ time)) r

/-- One segment at a time: where it has begun and sets the opacity, this is no longer missing. -/
theorem changeAt_compares (m : Move) {time begin : Nat} {found : Bool} {a b : Fields}
    (h : Fields.Related (Shot.Compares found) a b)
    (hfinds : found = true ∨ ¬(m.setsOpacity = true ∧ begin ≤ time ∧ time < begin + m.duration)) :
    Agree True
      (Fields.Related (Shot.Compares (found || m.setsOpacity && decide (begin ≤ time))))
      (changeAt time begin m.duration a m.targets) (changeAt time begin m.duration b m.targets) := by
  apply changeAt_agree m.textKeyed_targets m.distinct_targets h
  · intro hearly name o o' ho
    rwa [decide_eq_false (by omega), Bool.and_false, Bool.or_false]
  · intro hbegun name o o' ho
    rw [decide_eq_true hbegun, Bool.and_true]
    cases hget : Fields.get? m.targets name with
    | some v =>
      -- what is set is set to the same
      apply Shot.Compares.of_eq
      rintro rfl
      rw [setsOpacity, Fields.has, hget, Option.isSome_some, Bool.or_true]
    | none =>
      rw [Option.none_or, Option.none_or]
      apply ho.congr
      rintro rfl
      rw [setsOpacity, Fields.has, hget, Option.isSome_none, Bool.or_false]
  · intro hbegun hruns
    have hset : m.setsOpacity = true → found = true :=
      fun hsets => hfinds.resolve_right fun h => h ⟨hsets, hbegun, hruns⟩
    constructor
    · intro name v hv
      apply mixAgree_compares
      rintro rfl
      apply hset
      rw [setsOpacity, Fields.has, Fields.get?_of_mem m.distinct_targets hv, Option.isSome_some]
    · intro name o o' ho
      apply ho.congr
      intro _
      cases hsets : m.setsOpacity with
      | true => rw [hset hsets, Bool.true_or]
      | false => rw [Bool.false_and, Bool.or_false]

theorem statesAt_compares {start time before : Nat} {found : Bool} {a b : Fields} {moves : List Move}
    (h : Fields.Related (Shot.Compares found) a b)
    (hfinds : findsOpacity start time before found moves = true) :
    Agree True (Fields.Related Shot.Shown) (statesAt start time before a moves)
      (statesAt start time before b moves) := by
  induction moves generalizing before found a b with
  | nil => exact Agree.ok fun name => (h name).shown
  | cons m r ih =>
    rw [findsOpacity, Bool.and_eq_true] at hfinds
    rw [statesAt, statesAt]
    refine (changeAt_compares m h ?_).bind fun x y hxy => ih hxy hfinds.2
    cases found with
    | true => exact Or.inl rfl
    | false =>
      right
      rintro ⟨hsets, hruns⟩
      simp [hsets, hruns] at hfinds

theorem statesAt_other {start time before : Nat} {a b : Fields} {moves : List Move}
    (h : Fields.Related Shot.Other a b) :
    Agree False (Fields.Related Shot.Other) (statesAt start time before a moves)
      (statesAt start time before b moves) := by
  induction moves generalizing before a b with
  | nil => exact Agree.ok h
  | cons m r ih =>
    rw [statesAt, statesAt]
    refine (changeAt_agree m.textKeyed_targets m.distinct_targets h ?_ ?_ ?_).bind fun x y hxy => ih hxy
    · exact fun _ _ _ _ ho => ho
    · intro _ name o o' ho hduration halpha
      rw [ho hduration halpha]
    · exact fun _ _ => ⟨fun name v _ => mixAgree_other name v, fun _ _ _ ho => ho⟩

end Move

/-! ## Section 6: Objects -/

namespace Shot

variable (s : Shot)

/-- The same shot from time zero on. -/
def atZero : Shot :=
  { s with start := 0 }

theorem isDelayed_atZero : s.atZero.isDelayed = false :=
  rfl

/-- Apart from the opacity, the attributes of a resource are read back alike. -/
theorem assign_kept_related {fs : Fields} (hfs : Fields.TextKeyed fs) {a b : Fields}
    (h : Fields.Related (fun name o o' => name ≠ Emission.alphaKey → o = o') a b) :
    Fields.Related (fun name o o' => name ≠ Emission.alphaKey → o = o')
      (Fields.assign a (s.atZero.kept fs)) (Fields.assign b (s.kept fs)) := by
  induction fs generalizing a b with
  | nil => exact h
  | cons e r ih =>
    obtain ⟨⟨key, hkey⟩, hr⟩ := List.forall_mem_cons.mp hfs
    obtain ⟨_, v⟩ := e
    obtain rfl := hkey
    rw [assign_kept_cons, assign_kept_cons]
    apply ih hr
    intro name halpha
    have hname := h name halpha
    have hkeeps : scriptName key ≠ Emission.alphaKey →
        s.atZero.keeps (.text key) = s.keeps (.text key) := by
      intro hother
      have hsame : (Emission.scriptKey (.text key)).same (.text Emission.alphaKey) = false := by
        rw [Bool.eq_false_iff, scriptKey_text, Ne, Value.same_text, Value.text.injEq]
        exact hother
      rw [keeps, keeps, hsame, Bool.and_false, Bool.and_false]
    by_cases hrenamed : scriptName key = Emission.alphaKey
    · -- only the opacity can be kept in one of the two alone
      have hdiffers : ¬Emission.alphaKey = name := fun heq => halpha heq.symm
      have hput : ∀ (c : Bool) (fs : Fields), Fields.get? (if c then
          Fields.put fs (scriptName key) (readBack (.text key) v) else fs) name
            = Fields.get? fs name := by
        intro c fs
        cases c with
        | false => rfl
        | true => rw [if_pos rfl, hrenamed, Fields.get?_put, if_neg hdiffers]
      rw [hput, hput, hname]
    · rw [hkeeps hrenamed]
      split
      · rw [Fields.get?_put, Fields.get?_put, hname]
      · exact hname

/-- An object from time zero on and the same one later, once it is brought into view. -/
theorem related_initial (hw : areWritable s.resource = true) (hd : Fields.Distinct s.resource)
    (halpha : ∀ v, (.text Emission.alphaKey, v) ∉ s.resource) (hdelayed : s.isDelayed = true) :
    Fields.Related (Compares s.hasOpacity) s.atZero.definition.attrs
      (Fields.put s.definition.attrs Emission.alphaKey s.alpha) := by
  have hkeys : Fields.TextKeyed s.resource := textKeyed_of_areWritable hw
  have hothers : Fields.Related (fun name o o' => name ≠ Emission.alphaKey → o = o')
      s.atZero.attributes s.attributes :=
    s.assign_kept_related hkeys fun _ _ => rfl
  intro name
  rw [s.atZero.attrs_of_immediate s.isDelayed_atZero, s.attrs_of_delayed hdelayed]
  simp only [Fields.get?_put]
  by_cases hduration : name = "duration"
  · subst hduration
    rw [Compares, if_pos rfl, if_pos rfl, if_neg (by decide), if_neg (by decide), if_pos rfl]
    exact Or.inr ⟨_, _, rfl, rfl⟩
  · have hlength : ¬"duration" = name := fun h => hduration h.symm
    rw [Compares, if_neg hduration, if_neg hlength, if_neg hlength]
    by_cases hname : name = Emission.alphaKey
    · subst hname
      have hfirst : Fields.get? s.atZero.attributes Emission.alphaKey
          = if s.hasOpacity then some s.alpha else none :=
        s.atZero.get?_attributes s.isDelayed_atZero hkeys hd halpha
      rw [if_pos rfl, hfirst]
      cases hfound : s.hasOpacity with
      | true => rw [if_neg (by simp), if_pos rfl]
      | false =>
        rw [if_pos (by simp), alpha_eq, hfound]
        exact ⟨rfl, rfl⟩
    · have hkey : ¬Emission.alphaKey = name := fun h => hname h.symm
      rw [if_neg fun h => hname h.1, if_neg hkey, if_neg hkey]
      exact hothers name hname

/-- Whether no change of the opacity runs at a time that finds it missing, where the clip starts at time
zero. -/
def findsOpacity (time : Nat) : Bool :=
  Move.findsOpacity 0 time 0 s.hasOpacity s.moves

variable {s} {clip moved resource : Value}

theorem Writable.atZero (hw : s.Writable) : s.atZero.Writable :=
  ⟨hw.named, twoTo_pos 53, hw.duration_lt, hw.resource_writable, hw.moves_writable⟩

theorem WholeSeconds.atZero (he : s.WholeSeconds) : s.atZero.WholeSeconds := by
  refine ⟨Nat.dvd_zero 1000, he.moves_dvd, ?_⟩
  have hsum := he.sum_lt
  simp only [Shot.atZero]
  omega

/-- The states of a clip from time zero on and those of the same clip later. -/
theorem stateAt_agree (hw : s.Writable) (hpos : 0 < s.start) (hd : Fields.Distinct s.resource)
    (halpha : ∀ v, (.text Emission.alphaKey, v) ∉ s.resource) (time : Nat) :
    (s.findsOpacity time = true → Agree True (Fields.Related Shown)
        (s.atZero.stateAt time s.atZero.definition.attrs)
        (s.stateAt (s.start + time) s.definition.attrs))
      ∧ Agree False (Fields.Related Other) (s.atZero.stateAt time s.atZero.definition.attrs)
          (s.stateAt (s.start + time) s.definition.attrs) := by
  have hinitial := s.related_initial hw.resource_writable hd halpha (decide_eq_true hpos)
  have hzero : s.atZero.stateAt time s.atZero.definition.attrs
      = Move.statesAt 0 time 0 s.atZero.definition.attrs s.moves := by
    rw [stateAt, if_neg fun h => Nat.lt_irrefl 0 h.1]
    rfl
  have hlater : s.stateAt (s.start + time) s.definition.attrs
      = Move.statesAt 0 time 0 (Fields.put s.definition.attrs Emission.alphaKey s.alpha) s.moves := by
    rw [stateAt, if_pos ⟨hpos, Nat.le_add_right _ _⟩]
    exact Move.statesAt_shift s.start 0 time 0 _ _
  rw [hzero, hlater]
  refine ⟨fun hfinds => Move.statesAt_compares hinitial hfinds, Move.statesAt_other ?_⟩
  intro name hduration hname
  have hsame := hinitial name
  rwa [Compares, if_neg hduration, if_neg fun h => hname h.1] at hsame

/-- A clip that starts at zero and the same clip moved, both written and read back.  At the same time
since their starts they show the same, unless a change of the opacity runs that finds it missing; and
even then only the opacity differs. -/
theorem moved_agrees (hg : s.atZero.Given clip resource) (hm : s.Given moved resource)
    (hw : s.Writable) (he : s.WholeSeconds) (hpos : 0 < s.start) (hd : Fields.Distinct s.resource)
    (halpha : ∀ v, (.text Emission.alphaKey, v) ∉ s.resource) :
    ∃ text d sets text' d' sets',
      (Emission.clip clip resource = .ok text ∧ Script.parse text = .ok ⟨[d], sets⟩)
      ∧ (Emission.clip moved resource = .ok text' ∧ Script.parse text' = .ok ⟨[d'], sets'⟩)
      ∧ ∀ time : Nat,
        (s.findsOpacity time = true → Agree True (Fields.Related Shown)
          (Evaluation.object d.toValue (sets.map Statement.toValue) (.int time))
          (Evaluation.object d'.toValue (sets'.map Statement.toValue) (.int (s.start + time : Nat))))
        ∧ Agree False (Fields.Related Other)
          (Evaluation.object d.toValue (sets.map Statement.toValue) (.int time))
          (Evaluation.object d'.toValue (sets'.map Statement.toValue) (.int (s.start + time : Nat))) := by
  obtain ⟨ls, hclip, hblock, hlines⟩ := hg.exists_block hw.atZero
  obtain ⟨ls', hmoved, hblock', hlines'⟩ := hm.exists_block hw
  refine ⟨_, _, _, _, _, _, ⟨hclip, hblock.parse_eq hlines⟩, ⟨hmoved, hblock'.parse_eq hlines'⟩, ?_⟩
  intro time
  rw [object_definition hw.atZero he.atZero, object_definition hw he]
  exact stateAt_agree hw hpos hd halpha time

/-- A text without an opacity that fades out for two seconds from its start on. -/
def fading : Shot where
  id := .text "c"
  start := 1000
  duration := 4000
  kind := .text
  resource := [(.text "type", .text "text"), (.text "content", .text "hi")]
  moves := [⟨.chained, 2000, 0, [(.text "opacity", .int 0)]⟩]

/-- Its clip, from a start on. -/
def fadingClip (start : Int) : Value :=
  .dict [(.text "id", .text "c"), (.text "start_time", .int start), (.text "duration", .int 4000),
    (.text "animations", .list [.dict [(.text "type", .text "then"), (.text "duration", .int 2000),
      (.text "properties", .dict [(.text "opacity", .int 0)])]])]

theorem fading_given : fading.Given (fadingClip 1000) (.dict fading.resource) :=
  ⟨rfl, rfl, rfl, rfl, rfl, Or.inl ⟨_, rfl,
    List.Forall₂.cons ⟨rfl, rfl, Or.inr ⟨rfl, rfl⟩, Or.inl rfl⟩ List.Forall₂.nil⟩⟩

theorem fading_writable : fading.Writable := by
  refine ⟨rfl, by decide +kernel, by decide +kernel, by decide +kernel, fun m hm => ?_⟩
  rw [List.mem_singleton.mp hm]
  exact ⟨by decide +kernel, by decide +kernel, by decide +kernel⟩

theorem fading_wholeSeconds : fading.WholeSeconds := by
  refine ⟨by decide, fun m hm => ?_, by decide +kernel⟩
  rw [List.mem_singleton.mp hm]
  exact ⟨by decide, by decide⟩

/-- The opacity that a clip shows at a time, as a text. -/
def opacityAt (clip resource : Value) (time : Int) : Result String := do
  let script ← Emission.clip clip resource >>= Script.parse
  let attrs ← Evaluation.object ((script.defs.map Definition.toValue).headD .none)
    (script.sets.map Statement.toValue) (.int time)
  return ((Fields.get? attrs Emission.alphaKey).getD (.int 1)).shown

/-- A second after it has started, the text is gone where its clip starts at zero, and half faded where
it starts later.  When the fading is over, the two show the same. -/
theorem moved_agrees_fading :
    (opacityAt (fadingClip 0) (.dict fading.resource) 1000).toOption = some "0.0"
      ∧ (opacityAt (fadingClip 1000) (.dict fading.resource) 2000).toOption = some "0.5"
      ∧ fading.findsOpacity 1000 = false ∧ fading.findsOpacity 2000 = true
      ∧ ∃ text d sets text' d' sets',
        (Emission.clip (fadingClip 0) (.dict fading.resource) = .ok text
          ∧ Script.parse text = .ok ⟨[d], sets⟩)
        ∧ (Emission.clip (fadingClip 1000) (.dict fading.resource) = .ok text'
          ∧ Script.parse text' = .ok ⟨[d'], sets'⟩)
        ∧ ∀ time : Nat,
          (fading.findsOpacity time = true → Agree True (Fields.Related Shown)
            (Evaluation.object d.toValue (sets.map Statement.toValue) (.int time))
            (Evaluation.object d'.toValue (sets'.map Statement.toValue) (.int (1000 + time : Nat))))
          ∧ Agree False (Fields.Related Other)
            (Evaluation.object d.toValue (sets.map Statement.toValue) (.int time))
            (Evaluation.object d'.toValue (sets'.map Statement.toValue)
              (.int (1000 + time : Nat))) := by
  have hgiven : fading.atZero.Given (fadingClip 0) (.dict fading.resource) :=
    ⟨rfl, rfl, rfl, rfl, rfl, fading_given.animations_eq⟩
  refine ⟨by decide +kernel, by decide +kernel, by decide +kernel, by decide +kernel, ?_⟩
  refine moved_agrees hgiven fading_given fading_writable fading_wholeSeconds (by decide)
    (by decide +kernel) ?_
  intro v hv
  simp [fading, Emission.alphaKey] at hv

end Shot

end Overlay
