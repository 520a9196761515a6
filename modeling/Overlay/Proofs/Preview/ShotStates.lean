import Overlay.Proofs.Preview.Chains
import Overlay.Proofs.Script.RoundTrip

/-!
# Shots over time

What an object shows at a time can be read off its clip directly: each segment begins after its
delay or at the end of the segment before it, sets its properties when it is over, and blends them
while it runs.  Evaluating the statements of the clip's block comes to the same.

## Main definitions
- `changeAt`: a change over a stretch of time, as it shows at a time
- `Shot.stateAt`: the attributes of the object at a time
- `Shot.WholeSeconds`: times that doubles hold exactly

## Main statements
- `step_statement`: what one statement does
- `steps_allBeats`: what the statements of segments do
- `Shot.object_eq_stateAt`: the block of a clip evaluates to the states of its shot
-/

namespace Overlay

open Overlay.Text Overlay.Number Overlay.Literal

attribute [local irreducible] twoTo tenTo Double.unitsInOne

/-! ## Section 1: States -/

/-- A change of attributes that takes a length of time from its begin on, as it shows at a time. -/
def changeAt (time begin length : Nat) (attrs properties : Fields) : Result Fields :=
  if time < begin then .ok attrs
  else if length = 0 ∨ begin + length ≤ time then .ok (Fields.merge attrs properties)
  else Evaluation.blend (Double.ofQuotient (time - begin : Nat) length) attrs properties

/-- When a segment begins, given the end of the one before it. -/
def Move.beginOf (start before : Nat) (m : Move) : Nat :=
  match m.kind with
  | .set => start + m.delay
  | .chained => before

/-- Segments at a time, one after the other, given the end of the one before them. -/
def Move.statesAt (start time before : Nat) (attrs : Fields) : List Move → Result Fields
  | [] => .ok attrs
  | m :: r => do
    let attrs ← changeAt time (m.beginOf start before) m.duration attrs m.targets
    Move.statesAt start time (m.beginOf start before + m.duration) attrs r

/-- The attributes of the object of a shot at a time, given those it is defined with. -/
def Shot.stateAt (s : Shot) (time : Nat) (attrs : Fields) : Result Fields :=
  let shown := if 0 < s.start ∧ s.start ≤ time then Fields.put attrs Emission.alphaKey s.alpha else attrs
  Move.statesAt s.start time s.start shown s.moves

/-- Times that are whole seconds and stay moderate in sum. -/
structure Shot.WholeSeconds (s : Shot) : Prop where
  start_dvd : 1000 ∣ s.start
  moves_dvd : ∀ m ∈ s.moves, 1000 ∣ m.delay ∧ 1000 ∣ m.duration
  sum_lt : s.start + s.duration + (s.moves.map fun m => m.delay + m.duration).sum < twoTo 50

/-! ## Section 2: Times as doubles -/

/-- The seconds of a time are milliseconds again after two roundings. -/
theorem toMs_seconds (ms : Nat) :
    Evaluation.toMs (.float (secondsOfMs ms)) = .ok (Double.thereAndBack ms) := by
  rw [Evaluation.toMs, Value.toNumber, Value.number?, orFault_some, ok_bind, toDouble?,
    orFault_some, ok_bind, pure_eq_ok]
  rfl

/-- Whole seconds come back as milliseconds. -/
theorem toMs_secondsOfMs {ms : Nat} (hdvd : 1000 ∣ ms) (hms : ms < twoTo 53) :
    Evaluation.toMs (.float (secondsOfMs ms)) = .ok (Double.ofNat ms) := by
  rw [toMs_seconds, Double.thereAndBack_of_dvd hdvd hms]

theorem doubleOfInt?_natCast {n : Nat} (hn : n < twoTo 53) :
    Number.doubleOfInt? n = some (Double.ofNat n) := by
  obtain ⟨m, p, h, hx, -⟩ := Double.ofNat_eq_finite hn
  unfold Number.doubleOfInt?
  dsimp only
  rw [Double.ofInt_natCast, hx, if_pos]
  rfl

/-! ## Section 3: Statements -/

/-- The value of a statement, field by field. -/
theorem field_statement (s : Statement) :
    s.toValue.field "chained" = .ok (.bool s.chained)
      ∧ s.toValue.field "duration" = .ok (.float s.duration)
      ∧ s.toValue.field "properties" = .ok (.dict s.properties) :=
  ⟨rfl, rfl, rfl⟩

/-- What a statement does, given where it begins and how long it takes. -/
theorem step_statement {s : Statement} {chainEnd begin length : Double}
    (hbegin : begin = if s.chained then chainEnd else Double.zero)
    (hlength : Evaluation.toMs (.float s.duration) = .ok length) {time : Value} {n : Number}
    (htime : time.number? = some n) (attrs : Fields) :
    Evaluation.step time attrs chainEnd s.toValue
      = if n.lt (.float begin) then .ok (attrs, begin.add length)
        else if length.le Double.zero || (Number.float (begin.add length)).le n then
          .ok (Fields.merge attrs s.properties, begin.add length)
        else do
          let x ← orFault .tooLarge n.toDouble?
          let a ← Evaluation.blend ((x.sub begin).div length) attrs s.properties
          return (a, begin.add length) := by
  obtain ⟨hchained, hduration, hproperties⟩ := field_statement s
  exact step_value hchained hduration hproperties hbegin hlength htime attrs

/-- What a statement does that begins at a whole time and takes whole seconds: it changes the
attributes, and its chain goes on when it ends. -/
theorem step_change {s : Statement} {chainEnd : Double} {begin ms : Nat}
    (hbegin : Double.ofNat begin = if s.chained then chainEnd else Double.zero)
    (hduration : s.duration = secondsOfMs ms) (hdvd : 1000 ∣ ms) (hroom : begin + ms < twoTo 53)
    (time : Nat) (attrs : Fields) :
    Evaluation.step (.int time) attrs chainEnd s.toValue
      = (changeAt time begin ms attrs s.properties).map
          fun attrs => (attrs, Double.ofNat (begin + ms)) := by
  have hbeginRoom : begin < twoTo 53 := by omega
  have hmsRoom : ms < twoTo 53 := by omega
  have hlength : Evaluation.toMs (.float s.duration) = .ok (Double.ofNat ms) := by
    rw [hduration, toMs_secondsOfMs hdvd hmsRoom]
  have hdone : (Double.ofNat ms).le Double.zero = decide (ms ≤ 0) := by
    rw [Double.zero_eq_ofNat, Double.ofNat_le_ofNat hmsRoom (twoTo_pos 53)]
  have htime : (Value.int time).number? = some (.int time) := rfl
  rw [step_statement hbegin hlength htime, Double.add_ofNat hbeginRoom hmsRoom,
    Number.int_lt_ofNat time hbeginRoom, hdone, Number.ofNat_le_int time hroom, changeAt]
  by_cases hbefore : time < begin
  · rw [if_pos (decide_eq_true hbefore), if_pos hbefore, ok_map]
  rw [if_neg (by simpa using hbefore), if_neg hbefore]
  by_cases hover : ms = 0 ∨ begin + ms ≤ time
  · rw [if_pos (by simpa using hover), if_pos hover, ok_map]
  -- the statement runs: all times involved are exact
  have hratio : ((Double.ofNat time).sub (Double.ofNat begin)).div (Double.ofNat ms)
      = Double.ofQuotient (time - begin : Nat) ms := by
    rw [Double.sub_ofNat (by omega) (by omega), Double.div_ofNat (by omega) hmsRoom (by omega)]
  rw [if_neg (by simpa using hover), if_neg hover, toDouble?, doubleOfInt?_natCast (by omega),
    orFault_some, ok_bind, hratio]
  cases Evaluation.blend (Double.ofQuotient (time - begin : Nat) ms) attrs s.properties with
  | error fault => rw [error_bind, error_map]
  | ok blended => rw [ok_bind, ok_map, pure_eq_ok]

/-! ## Section 4: Shots -/

/-- Waiting changes nothing. -/
theorem changeAt_nil (time begin length : Nat) (attrs : Fields) :
    changeAt time begin length attrs [] = .ok attrs := by
  unfold changeAt
  split
  · rfl
  · split <;> rfl

/-- A change at one moment. -/
theorem changeAt_zero (time begin : Nat) (attrs properties : Fields) :
    changeAt time begin 0 attrs properties
      = .ok (if begin ≤ time then Fields.merge attrs properties else attrs) := by
  unfold changeAt
  split
  · next h => rw [if_neg (by omega)]
  · next h => rw [if_pos (Or.inl rfl), if_pos (by omega)]

/-- A statement that hands on its attributes and the end of its chain. -/
theorem steps_cons {time s : Value} {attrs : Fields} {chainEnd stop : Double}
    {changed : Result Fields}
    (h : Evaluation.step time attrs chainEnd s = changed.map fun attrs => (attrs, stop))
    (r : List Value) :
    Evaluation.steps time attrs chainEnd (s :: r)
      = changed >>= fun attrs => Evaluation.steps time attrs stop r := by
  rw [Evaluation.steps, h]
  cases changed with
  | error fault => rw [error_map, error_bind, error_bind]
  | ok attrs => rw [ok_map, ok_bind, ok_bind]

/-- Waiting moves the end of the chain. -/
theorem steps_wait {ms : Nat} (hdvd : 1000 ∣ ms) (hroom : ms < twoTo 53) (name : String)
    (line time : Nat) (attrs : Fields) (chainEnd : Double) (r : List Value) :
    Evaluation.steps (.int time) attrs chainEnd (((Beat.wait ms).at name line).toValue :: r)
      = Evaluation.steps (.int time) attrs (Double.ofNat ms) r := by
  have hbegin : Double.ofNat 0 = if false then chainEnd else Double.zero := by
    rw [if_neg Bool.false_ne_true, Double.zero_eq_ofNat]
  have hstep := step_change (s := (Beat.wait ms).at name line) hbegin rfl hdvd (by omega) time attrs
  rw [steps_cons hstep, Beat.wait, Beat.at, changeAt_nil, ok_bind, Nat.zero_add]

/-- A statement that goes on with a chain or opens one. -/
theorem steps_next {chainEnd : Double} {begin ms : Nat} {chained : Bool}
    (hbegin : Double.ofNat begin = if chained then chainEnd else Double.zero)
    (hdvd : 1000 ∣ ms) (hroom : begin + ms < twoTo 53) (properties : Fields) (name : String)
    (line time : Nat) (attrs : Fields) (r : List Value) :
    Evaluation.steps (.int time) attrs chainEnd
        (((Beat.next properties ms chained).at name line).toValue :: r)
      = changeAt time begin ms attrs properties >>= fun attrs =>
          Evaluation.steps (.int time) attrs (Double.ofNat (begin + ms)) r :=
  steps_cons (step_change (s := (Beat.next properties ms chained).at name line) hbegin rfl hdvd
    hroom time attrs) r

/-- What the statements of segments do.  Where no chain is open yet, the first segment begins at
time zero. -/
theorem steps_allBeats {start : Nat} {moves : List Move} (hstart : 1000 ∣ start)
    (hmoves : ∀ m ∈ moves, 1000 ∣ m.delay ∧ 1000 ∣ m.duration) (name : String) (time : Nat)
    {before : Nat} {opened : Bool} (hopen : opened = true ∨ before = 0) (hle : start ≤ before)
    (hroom : before + start + (moves.map fun m => m.delay + m.duration).sum < twoTo 53)
    (line : Nat) (attrs : Fields) :
    Evaluation.steps (.int time) attrs (Double.ofNat before)
        ((numbered name line (Move.allBeats start opened moves)).map Statement.toValue)
      = Move.statesAt start time before attrs moves := by
  induction moves generalizing before opened line attrs with
  | nil => rfl
  | cons m r ih =>
    obtain ⟨⟨hdelay, hduration⟩, hrest⟩ := List.forall_mem_cons.mp hmoves
    rw [List.map_cons, List.sum_cons] at hroom
    have hnext := fun before hle hroom => ih hrest (Or.inl rfl : true = true ∨ before = 0) hle hroom
    rw [Move.allBeats, Move.statesAt, Move.beats, Move.beginOf]
    cases m.kind with
    | chained =>
      -- the segment goes on where the one before it ended
      have hbegin : Double.ofNat before
          = if opened then Double.ofNat before else Double.zero := by
        rcases hopen with rfl | rfl
        · rw [if_pos rfl]
        · rw [Double.zero_eq_ofNat, ite_self]
      simp only [List.cons_append, List.nil_append, numbered, List.map_cons,
        steps_next hbegin hduration (by omega),
        hnext (before + m.duration) (by omega) (by omega)]
    | set =>
      have hafter := hnext (start + m.delay + m.duration) (by omega) (by omega)
      by_cases hbegin : start + m.delay = 0
      · -- the statement of the segment opens a chain at time zero
        have hzero : Double.ofNat (start + m.delay)
            = if false then Double.ofNat before else Double.zero := by
          rw [hbegin, if_neg Bool.false_ne_true, Double.zero_eq_ofNat]
        simp only [if_pos hbegin, List.cons_append, List.nil_append, numbered, List.map_cons,
          steps_next hzero hduration (by omega), hafter]
      · -- it goes on with the chain that waits until the segment begins
        have hwait := steps_wait (Nat.dvd_add hstart hdelay) (by omega)
        have hchain : Double.ofNat (start + m.delay)
            = if true then Double.ofNat (start + m.delay) else Double.zero := (if_pos rfl).symm
        have hnext := steps_next hchain hduration (by omega)
        simp only [if_neg hbegin, List.cons_append, List.nil_append, numbered, List.map_cons,
          hwait, hnext, hafter]

/-- What brings a hidden object into view. -/
theorem Shot.steps_revealBeats {s : Shot} (hdvd : 1000 ∣ s.start) (hroom : s.start < twoTo 53)
    (name : String) (line time : Nat) (attrs : Fields) (r : List Value) :
    Evaluation.steps (.int time) attrs Double.zero
        ((numbered name line s.revealBeats).map Statement.toValue ++ r)
      = Evaluation.steps (.int time)
          (if 0 < s.start ∧ s.start ≤ time then Fields.put attrs Emission.alphaKey s.alpha
            else attrs) (Double.ofNat s.start) r := by
  rw [Shot.revealBeats, Shot.isDelayed]
  by_cases hpos : 0 < s.start
  · have hchain : Double.ofNat s.start
        = if true then Double.ofNat s.start else Double.zero := (if_pos rfl).symm
    have hnext := steps_next hchain (Nat.dvd_zero 1000) hroom
    have hmerge : Fields.merge attrs (Fields.put [] Emission.alphaKey s.alpha)
        = Fields.put attrs Emission.alphaKey s.alpha := rfl
    rw [decide_eq_true hpos, if_pos rfl]
    simp only [numbered, List.map_cons, List.map_nil, List.cons_append, List.nil_append,
      steps_wait hdvd hroom, hnext, changeAt_zero, hmerge, ok_bind, hpos, true_and, Nat.add_zero]
  · rw [decide_eq_false hpos, if_neg Bool.false_ne_true, if_neg fun h => hpos h.1,
      show s.start = 0 by omega, ← Double.zero_eq_ofNat]
    rfl

/-- The object of a shot evaluates to the states of the shot. -/
theorem Shot.object_definition {s : Shot} (hw : s.Writable) (he : s.WholeSeconds) (time : Nat) :
    Evaluation.object s.definition.toValue ((s.statements 1).map Statement.toValue) (.int time)
      = s.stateAt time s.definition.attrs := by
  have hinitial : Evaluation.initial s.definition.toValue = .ok s.definition.attrs := rfl
  have htotal : twoTo 50 * 8 = twoTo 53 := by decide +kernel
  have hsum := he.sum_lt
  have hopen : s.isDelayed = true ∨ s.start = 0 := by
    rcases Nat.eq_zero_or_pos s.start with h | h
    · exact Or.inr h
    · exact Or.inl (decide_eq_true h)
  rw [Evaluation.object, hinitial, ok_bind, Shot.statements, Shot.beats, numbered_append,
    List.map_append, Shot.steps_revealBeats he.start_dvd hw.start_lt,
    steps_allBeats he.start_dvd he.moves_dvd _ time hopen (Nat.le_refl _) (by omega), Shot.stateAt]

/-- The block of a clip evaluates to the states of its shot: nothing is lost between the segments
of the clip and the picture at a time. -/
theorem Shot.object_eq_stateAt {s : Shot} {clip resource : Value} (hg : s.Given clip resource)
    (hw : s.Writable) (he : s.WholeSeconds) :
    ∃ text d sets, Emission.clip clip resource = .ok text ∧ Script.parse text = .ok ⟨[d], sets⟩
      ∧ ∀ time : Nat, Evaluation.object d.toValue (sets.map Statement.toValue) (.int time)
          = s.stateAt time d.attrs := by
  obtain ⟨ls, hclip, hblock, hlines⟩ := hg.exists_block hw
  exact ⟨Emission.endLines ls, s.definition, s.statements 1, hclip, hblock.parse_eq hlines,
    Shot.object_definition hw he⟩

theorem Shot.sample_wholeSeconds : Shot.sample.WholeSeconds where
  start_dvd := by decide
  moves_dvd := by
    intro m hm
    rcases List.mem_cons.mp hm with rfl | hm
    · exact ⟨by decide, by decide⟩
    · rw [List.mem_singleton.mp hm]
      exact ⟨by decide, by decide⟩
  sum_lt := by decide +kernel

/-- The sample evaluates to its states. -/
theorem Shot.object_eq_stateAt_sample :
    ∃ text d sets, Emission.clip Shot.sampleClip (.dict Shot.sample.resource) = .ok text
      ∧ Script.parse text = .ok ⟨[d], sets⟩
      ∧ ∀ time : Nat, Evaluation.object d.toValue (sets.map Statement.toValue) (.int time)
          = Shot.sample.stateAt time d.attrs :=
  Shot.object_eq_stateAt Shot.sample_given Shot.sample_writable Shot.sample_wholeSeconds

end Overlay
