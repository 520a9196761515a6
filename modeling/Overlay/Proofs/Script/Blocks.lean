import Overlay.Proofs.Script.Reading
import Mathlib.Data.List.Forall2

/-!
# Blocks of shots

The block of every shot that is given as data consists of lines that are read: the opening, the
attributes, the closing brace and the statements of the shot, in this order.

## Main definitions
- `IsBlock`: lines that are read as a shot
- `Progress.after`: what has been read after the block of a shot

## Main statements
- `declaration_reads`, `reveal_reads`, `segments_reads`: the parts of a block
- `clipLines_reads`: the lines of a clip are the block of its shot
- `IsBlock.readLines_eq`: a block is read wherever its name is new
-/

namespace Overlay

open Overlay.Text Overlay.Number Overlay.Scanner Overlay.Literal Overlay.Script

attribute [local irreducible] twoTo tenTo Double.unitsInOne

/-! ## Section 1: Attributes -/

/-- Lines that are read as assignments. -/
def ReadsAttributes (ls : List (List Char)) (assignments : List (String × Value)) : Prop :=
  ∃ parts : List Assigned, ls = parts.map attributeLine ∧ (∀ a ∈ parts, a.Sound)
    ∧ parts.map Assigned.field = assignments

theorem ReadsAttributes.nil : ReadsAttributes [] [] :=
  ⟨[], rfl, by simp, rfl⟩

theorem ReadsAttributes.append {ls ms : List (List Char)} {as bs : List (String × Value)}
    (hl : ReadsAttributes ls as) (hm : ReadsAttributes ms bs) :
    ReadsAttributes (ls ++ ms) (as ++ bs) := by
  obtain ⟨parts, rfl, hparts, rfl⟩ := hl
  obtain ⟨more, rfl, hmore, rfl⟩ := hm
  refine ⟨parts ++ more, by rw [List.map_append], ?_, by rw [List.map_append]⟩
  intro a ha
  rcases List.mem_append.mp ha with h | h
  · exact hparts a h
  · exact hmore a h

/-- One line with a key that is a name and a text that is read. -/
theorem ReadsAttributes.single {key : String} (hkey : isName key.toList = true) {text : List Char}
    {v : Value} (h : Reads text v) :
    ReadsAttributes [Emission.attributeLine (.text key) text] [(key, v)] :=
  ⟨[⟨key, text, v⟩], rfl, by simpa using ⟨hkey, h⟩, rfl⟩

/-- Attributes that are looked up can be read if all of them can. -/
theorem isWritable_get {fs : Fields} (h : areWritable fs = true) (name : String) :
    isWritable (.text name) (Fields.get fs name) = true := by
  rcases Fields.get_cases fs name with heq | he
  · rw [heq]
    rfl
  · exact (areWritable_iff.mp h _ he).2

/-- What a resource shows is written so that it is read back. -/
theorem payloadLine_reads (s : Shot) (h : areWritable s.resource = true) :
    ∃ ls, Emission.payloadLine s.kind s.resource = .ok ls ∧ ReadsAttributes ls s.payload := by
  have hwritable := isWritable_get h s.kind.payload
  unfold Emission.payloadLine Shot.payload
  dsimp only
  cases hgiven : Emission.isGiven (Fields.get s.resource s.kind.payload) with
  | false => exact ⟨[], rfl, ReadsAttributes.nil⟩
  | true =>
    have hsome : (Fields.get s.resource s.kind.payload).isNone = false := by
      cases hv : Fields.get s.resource s.kind.payload with
      | none => rw [hv] at hgiven; cases hgiven
      | _ => rfl
    obtain ⟨text, htext, hreads⟩ := value_reads rfl hwritable hsome
    have hkey : isName s.kind.payload.toList = true := by
      cases s.kind <;> decide
    refine ⟨_, ?_, ReadsAttributes.single hkey hreads⟩
    simp only [if_true, htext, ok_bind, pure_eq_ok]

/-- The other attributes are written so that those that are kept are read back. -/
theorem attributeLines_reads (s : Shot) {fs : Fields} (h : areWritable fs = true) :
    ∃ ls, Emission.attributeLines s.isDelayed fs = .ok ls
      ∧ ReadsAttributes ls (readBackProperties (fs.filter fun e => s.keeps e.1)) := by
  induction fs with
  | nil => exact ⟨[], rfl, ReadsAttributes.nil⟩
  | cons e r ih =>
    obtain ⟨k, v⟩ := e
    simp only [areWritable, Bool.and_eq_true] at h
    obtain ⟨⟨hkey, hvalue⟩, hrest⟩ := h
    obtain ⟨ls, hls, hreads⟩ := ih hrest
    obtain ⟨name, rfl⟩ : ∃ name, k = .text name := by
      cases k with
      | text s => exact ⟨s, rfl⟩
      | _ => cases hkey
    rw [Emission.attributeLines]
    cases hkeeps : s.keeps (.text name) with
    | false =>
      rw [List.filter_cons_of_neg (by simp [hkeeps])]
      refine ⟨ls, ?_, hreads⟩
      cases hexcluded : Emission.isExcluded (.text name) with
      | true => exact hls
      | false =>
        simp only [Shot.keeps, hexcluded, Bool.not_false, Bool.true_and, Bool.not_eq_false'] at hkeeps
        simp only [Bool.false_eq_true, if_false, hkeeps, if_true]
        exact hls
    | true =>
      rw [List.filter_cons_of_pos (by simp [hkeeps])]
      simp only [Shot.keeps, Bool.and_eq_true, Bool.not_eq_true'] at hkeeps
      simp only [hkeeps.1, hkeeps.2, Bool.false_eq_true, if_false]
      cases hv : v.isNone with
      | true =>
        refine ⟨ls, ?_, ?_⟩
        · rw [value_of_isNone _ hv, ok_bind, hls]
          rfl
        · rw [readBackProperties, readBackFields, if_pos hv]
          exact hreads
      | false =>
        obtain ⟨text, htext, hread⟩ := value_reads rfl hvalue hv
        have hnil : text.isEmpty = false := List.isEmpty_eq_false_iff.mpr hread.ne_nil
        refine ⟨Emission.attributeLine (.text (scriptName name)) text :: ls, ?_, ?_⟩
        · rw [htext, ok_bind, hls, ok_bind, hnil, scriptKey_text]
          rfl
        · rw [readBackProperties, readBackFields, if_neg (by simp [hv])]
          exact (ReadsAttributes.single (isName_scriptName hkey) hread).append hreads

/-! ## Section 2: Objects -/

theorem plus_nat (a b : Nat) : (Value.int a).plus (.int b) = .ok (.int (a + b : Nat)) := by
  rw [Int.natCast_add]
  rfl

/-- The lines of the object of a shot. -/
theorem declaration_reads {s : Shot} {clip resource : Value} (hg : s.Given clip resource)
    (hw : s.Writable) :
    ∃ ls, Emission.declaration (identifier s.id).toList clip resource (.int s.start) s.isDelayed s.kind
        = .ok (openingLine s.kind (identifier s.id) :: ls ++ [['}']])
      ∧ ReadsAttributes ls s.assignments := by
  obtain ⟨payload, hpayload, hpayloadReads⟩ := payloadLine_reads s hw.resource_writable
  obtain ⟨attributes, hattributes, hattributesReads⟩ := attributeLines_reads s hw.resource_writable
  have htotal : s.start + s.duration < twoTo 54 := by
    have := hw.start_lt
    have := hw.duration_lt
    have : twoTo 54 = twoTo 53 * 2 := twoTo_succ 53
    omega
  obtain ⟨w, hseconds, hshort, hwread⟩ := exists_spelling_seconds htotal
  have hduration : ReadsAttributes [Emission.attributeLine (.text "duration") (w.chars ++ ['s'])]
      [("duration", .float (secondsOfMs (s.start + s.duration)))] := by
    rw [secondsOfMs, ← hwread]
    exact ReadsAttributes.single (by decide) (reads_seconds hshort)
  have hhidden : ReadsAttributes
      (if s.isDelayed then [Emission.attributeLine (.text Emission.alphaKey) ['0']] else [])
      (if s.isDelayed then [(Emission.alphaKey, .int 0)] else []) := by
    cases s.isDelayed with
    | false => exact ReadsAttributes.nil
    | true => exact ReadsAttributes.single (by decide) (bool_reads false)
  refine ⟨_, ?_, (hpayloadReads.append hattributesReads).append (hduration.append hhidden)⟩
  have hfields : resource.toFields = .ok s.resource := by
    rw [hg.resource_eq]
    rfl
  rw [Emission.declaration, hfields, ok_bind, hg.duration_eq]
  simp only [hpayload, hattributes, ok_bind, plus_nat, hseconds, pure_eq_ok]
  simp [openingLine_eq]

/-! ## Section 3: Statements -/

/-- Lines that are read as the statements of an object. -/
def ReadsStatements (name : String) (ls : List (List Char)) (bs : List Beat) : Prop :=
  List.Forall₂ (Says name) ls bs

theorem ReadsStatements.append {name : String} {ls ms : List (List Char)} {bs cs : List Beat}
    (hl : ReadsStatements name ls bs) (hm : ReadsStatements name ms cs) :
    ReadsStatements name (ls ++ ms) (bs ++ cs) :=
  List.rel_append hl hm

theorem readsMapping_braced {parts : List Assigned} (hparts : ∀ a ∈ parts, a.Sound) :
    ReadsMapping (braced (parts.map Assigned.chars))
      (Fields.assign [] (parts.map Assigned.field)) :=
  fun rest => mapping_braced hparts rest

/-- The statement that waits. -/
theorem says_wait {name : String} (hname : isName name.toList = true) {ms : Nat}
    {seconds : List Char} (hseconds : Literal.seconds (.int ms) = .ok seconds)
    (hms : ms < twoTo 54) : Says name (Emission.wait name.toList seconds) (.wait ms) := by
  obtain ⟨w, hw, hshort, hread⟩ := exists_spelling_seconds hms
  obtain rfl : w.chars = seconds := Except.ok.inj (hw.symm.trans hseconds)
  have hnone : ∀ a ∈ ([] : List Assigned), a.Sound := by simp
  have hline := says_statement hname (readsMapping_braced hnone) hshort false
  rw [hread] at hline
  exact hline

/-- The statement that goes on with a chain, or opens one. -/
theorem says_next {name : String} (hname : isName name.toList = true) {properties : List Char}
    {fs : Fields} (hproperties : ReadsMapping properties fs) {ms : Nat} {seconds : List Char}
    (hseconds : Literal.seconds (.int ms) = .ok seconds) (hms : ms < twoTo 54) (chained : Bool) :
    Says name
      (Emission.statement (if chained then Emission.thenSetWord else Emission.setWord) name.toList
        properties seconds)
      (.next fs ms chained) := by
  obtain ⟨w, hw, hshort, hread⟩ := exists_spelling_seconds hms
  obtain rfl : w.chars = seconds := Except.ok.inj (hw.symm.trans hseconds)
  have hline := says_statement hname hproperties hshort chained
  rw [hread] at hline
  exact hline

theorem seconds_zero : Literal.seconds (.int 0) = .ok ['0'] := by
  have hzero : Number.thousandth? (.int 0) = some Double.zero := by decide +kernel
  have hdigits : Literal.double Double.zero = ['0'] := by decide +kernel
  rw [Literal.seconds, Value.toNumber, Value.number?, orFault_some, ok_bind, hzero, orFault_some,
    ok_bind, hdigits, pure_eq_ok]

/-- A value can be read under any key that names no color if it can be read under one. -/
theorem isWritable_of_not_isColorName {key other : Value}
    (hkey : Resource.isColorName key.shown = false) (hother : Resource.isColorName other.shown = false)
    (v : Value) : isWritable key v = isWritable other v := by
  cases v <;> simp [isWritable, isColor, hkey, hother]

/-- There is always an opacity to bring an object into view with. -/
theorem opacity_writable {s : Shot} (h : areWritable s.resource = true) :
    isWritable (.text Emission.alphaKey) s.opacity = true ∧ s.opacity.isNone = false := by
  have hget := isWritable_get h Emission.opacityKey
  unfold Shot.opacity
  split
  · exact ⟨rfl, rfl⟩
  · next hsome =>
    refine ⟨?_, ?_⟩
    · rw [← hget]
      exact isWritable_of_not_isColorName (by decide) (by decide) _
    cases hv : Fields.get s.resource Emission.opacityKey with
    | none => exact absurd hv hsome
    | _ => rfl

/-- The statements that bring a hidden object into view. -/
theorem reveal_reads {s : Shot} (hw : s.Writable) :
    ∃ ls, Emission.reveal (identifier s.id).toList (.int s.start) s.resource = .ok ls
      ∧ ReadsStatements (identifier s.id) ls
        [.wait s.start, .next (Fields.put [] Emission.alphaKey s.alpha) 0 true] := by
  have hname := isName_identifier s.id
  have hstart : s.start < twoTo 54 := Nat.lt_of_lt_of_le hw.start_lt (twoTo_le (by decide))
  obtain ⟨w, hseconds, -⟩ := exists_spelling_seconds hstart
  obtain ⟨hopacity, hsome⟩ := opacity_writable hw.resource_writable
  obtain ⟨text, htext, hreads⟩ := value_reads rfl hopacity hsome
  have hkey : isName Emission.alphaKey.toList = true := by decide
  let a : Assigned := ⟨Emission.alphaKey, text, s.alpha⟩
  have ha : a.Sound := ⟨hkey, hreads⟩
  have hparts : ∀ b ∈ [a], b.Sound := by simpa using ha
  have hproperties := readsMapping_braced hparts
  refine ⟨_, ?_, List.Forall₂.cons (says_wait hname hseconds hstart)
    (List.Forall₂.cons (says_next hname hproperties seconds_zero (by decide +kernel) true)
      List.Forall₂.nil)⟩
  show (Literal.seconds (.int s.start) >>= fun seconds =>
    Literal.value (.text Emission.alphaKey) s.opacity >>= fun alpha => pure _) = _
  rw [hseconds, ok_bind, htext, ok_bind]
  rfl

theorem orElse_int (n : Nat) : Emission.orElse (.int n) (.int 0) = .int n := by
  cases n with
  | zero => rfl
  | succ k => rfl

theorem orElse_dict (fs : Fields) : Emission.orElse (.dict fs) (.dict []) = .dict fs := by
  cases fs with
  | nil => rfl
  | cons e r => rfl

theorem orElse_list (items : List Value) :
    Emission.orElse (.list items) (.list []) = .list items := by
  cases items with
  | nil => rfl
  | cons v r => rfl

/-- The statements of a segment. -/
theorem segment_reads {m : Move} {segment : Value} (hg : m.Given segment) (hw : m.Writable)
    {name : String} (hname : isName name.toList = true) {start : Nat} (hstart : start < twoTo 53)
    (opened : Bool) :
    ∃ ls, Emission.segment name.toList (.int start) segment opened = .ok ls
      ∧ ReadsStatements name ls (m.beats start opened) := by
  obtain ⟨properties, hproperties, hread⟩ := mapping_reads hw.properties_writable
  have hduration : m.duration < twoTo 54 := Nat.lt_of_lt_of_le hw.duration_lt (twoTo_le (by decide))
  obtain ⟨w, hseconds, -⟩ := exists_spelling_seconds hduration
  have hbegin : start + m.delay < twoTo 54 := by
    have := hw.delay_lt
    have : twoTo 54 = twoTo 53 * 2 := twoTo_succ 53
    omega
  obtain ⟨v, hwait, -⟩ := exists_spelling_seconds hbegin
  have hnext : ∀ chained, Says name
      (Emission.statement (if chained then Emission.thenSetWord else Emission.setWord) name.toList
        properties w.chars) (.next m.targets m.duration chained) :=
    fun chained => says_next hname hread hseconds hduration chained
  have hmapping : ∃ v, segment.look "properties" .none = .ok v
      ∧ Emission.orElse v (.dict []) = .dict m.properties := by
    rcases hg.properties_eq with h | ⟨h, hnil⟩
    · exact ⟨_, h, orElse_dict m.properties⟩
    · exact ⟨_, h, by rw [hnil]; rfl⟩
  have hdelay : ∃ v, segment.look "delay" .none = .ok v
      ∧ Emission.orElse v (.int 0) = .int m.delay := by
    rcases hg.delay_eq with h | ⟨h, hzero⟩
    · exact ⟨_, h, orElse_int m.delay⟩
    · exact ⟨_, h, by rw [hzero]; rfl⟩
  obtain ⟨vp, hvp, hvp'⟩ := hmapping
  obtain ⟨vd, hvd, hvd'⟩ := hdelay
  unfold Emission.segment Move.beats
  rw [hg.kind_eq, hg.duration_eq, hvp, hvd]
  simp only [ok_bind, hvp', orElse_int, hproperties, hseconds, SegmentKind.ofValue?_word]
  cases m.kind with
  | chained => exact ⟨_, rfl, List.Forall₂.cons (hnext opened) List.Forall₂.nil⟩
  | set =>
    simp only [hvd', plus_nat, ok_bind, Value.toNumber, Value.number?, orFault_some, Number.le_int]
    by_cases hzero : start + m.delay = 0
    · rw [if_pos hzero, if_pos (by rw [hzero]; rfl)]
      exact ⟨_, rfl, List.Forall₂.cons (hnext false) List.Forall₂.nil⟩
    · have hpos : ¬(decide ((↑(start + m.delay) : Int) ≤ 0) = true) := by
        rw [decide_eq_true_eq]
        omega
      rw [if_neg hzero, if_neg hpos, hwait, ok_bind]
      exact ⟨_, rfl, List.Forall₂.cons (says_wait hname hwait hbegin)
        (List.Forall₂.cons (hnext true) List.Forall₂.nil)⟩

/-- The statements of segments, one after the other. -/
theorem segments_reads {moves : List Move} {items : List Value}
    (hg : List.Forall₂ Move.Given moves items) (hw : ∀ m ∈ moves, m.Writable) {name : String}
    (hname : isName name.toList = true) {start : Nat} (hstart : start < twoTo 53) (opened : Bool) :
    ∃ ls, Emission.segments name.toList (.int start) opened items = .ok ls
      ∧ ReadsStatements name ls (Move.allBeats start opened moves) := by
  induction hg generalizing opened with
  | nil => exact ⟨[], rfl, List.Forall₂.nil⟩
  | @cons m segment moves items hm _ ih =>
    obtain ⟨ls, hls, hread⟩ := segment_reads hm (hw m List.mem_cons_self) hname hstart opened
    obtain ⟨ms, hms, hrest⟩ := ih (fun n hn => hw n (List.mem_cons_of_mem m hn)) true
    refine ⟨ls ++ ms, ?_, hread.append hrest⟩
    rw [Emission.segments, hls, ok_bind, hms, ok_bind, pure_eq_ok]

/-! ## Section 4: Blocks -/

/-- Lines that are read as a shot. -/
structure IsBlock (s : Shot) (ls : List (List Char)) : Prop where
  exists_parts : ∃ attributes statements,
    ls = openingLine s.kind (identifier s.id) :: attributes ++ [['}']] ++ statements
      ∧ ReadsAttributes attributes s.assignments ∧ ReadsStatements (identifier s.id) statements s.beats

/-- The lines of a clip are the block of its shot. -/
theorem clipLines_reads {s : Shot} {clip resource : Value} (hg : s.Given clip resource)
    (hw : s.Writable) :
    ∃ ls, Emission.clipLines clip resource = .ok ls ∧ IsBlock s ls := by
  obtain ⟨attributes, hdeclaration, hattributes⟩ := declaration_reads hg hw
  obtain ⟨revealed, hreveal, hrevealed⟩ := reveal_reads hw
  have hanimations : ∃ v items, clip.look "animations" .none = .ok v
      ∧ Emission.orElse v (.list []) = .list items ∧ List.Forall₂ Move.Given s.moves items := by
    rcases hg.animations_eq with ⟨items, h, hitems⟩ | ⟨h, hnil⟩
    · exact ⟨_, items, h, orElse_list items, hitems⟩
    · exact ⟨_, [], h, rfl, by rw [hnil]; exact List.Forall₂.nil⟩
  obtain ⟨v, items, hv, hv', hitems⟩ := hanimations
  obtain ⟨moves, hmoves, hmovesRead⟩ := segments_reads hitems hw.moves_writable
    (isName_identifier s.id) hw.start_lt s.isDelayed
  have hlook : resource.look "type" .none = .ok (.text s.kind.word) := by
    rw [hg.resource_eq, ← hg.kind_eq]
    rfl
  have hkind : Emission.kindOf resource = .ok s.kind := by
    have hword : ResourceKind.ofValue? (.text s.kind.word) = some s.kind := s.kind.ofWord?_word
    rw [Emission.kindOf, hlook, ok_bind, hword]
    rfl
  have hdelayed : Value.lessThan (.int 0) (.int s.start) = .ok s.isDelayed := by
    simp only [Value.lessThan, Value.toNumber, Value.number?, orFault_some, ok_bind, Number.lt_int,
      pure_eq_ok, Shot.isDelayed, Int.natCast_pos]
  have hfields : resource.toFields = .ok s.resource := by
    rw [hg.resource_eq]
    rfl
  rw [Emission.clipLines, hg.id_eq, ok_bind, hw.named, hg.start_eq]
  simp only [ok_bind, hkind, hdelayed, hdeclaration, hfields, hreveal, hv, hv', Value.items, hmoves,
    pure_eq_ok]
  have hbeats : ReadsStatements (identifier s.id) ((if s.isDelayed then revealed else []) ++ moves)
      s.beats := by
    rw [Shot.beats, Shot.revealBeats]
    by_cases hstart : s.isDelayed = true
    · rw [if_pos hstart, if_pos hstart]
      exact hrevealed.append hmovesRead
    · rw [if_neg hstart, if_neg hstart]
      exact hmovesRead
  refine ⟨_, ?_, ⟨attributes, _, rfl, hattributes, hbeats⟩⟩
  cases s.isDelayed with
  | false => simp
  | true => simp

/-- What has been read after the block of a shot. -/
def Script.Progress.after (p : Progress) (s : Shot) (line : Nat) : Progress :=
  { p with
    defs := p.defs ++ [s.definition]
    sets := p.sets ++ s.statements line
    declared := identifier s.id :: p.declared }

/-- A block is read wherever its name is new. -/
theorem IsBlock.readLines_eq {s : Shot} {ls : List (List Char)} (h : IsBlock s ls) {p : Progress}
    (hp : p.current = none) (hnew : p.declared.contains (identifier s.id) = false) (line : Nat) :
    readLines p line ls = .ok (p.after s line) := by
  obtain ⟨attributes, statements, rfl, ⟨parts, rfl, hsound, hparts⟩, hstatements⟩ := h.exists_parts
  let opened : Progress :=
    { p with
      declared := identifier s.id :: p.declared
      current := some ⟨s.kind, identifier s.id, []⟩ }
  let filled : Progress := { opened with current := some s.definition }
  let closed : Progress := { opened with defs := p.defs ++ [s.definition], current := none }
  have hopening := readLine_opening hp s.kind (isName_identifier s.id) hnew line
  have hattributes : readLines opened (line + 1) (parts.map attributeLine) = .ok filled := by
    rw [readLines_attributes hsound (p := opened) rfl, hparts]
    rfl
  have hclosing : ∀ l, readLine filled l ['}'] = .ok closed := fun l => readLine_closing rfl l
  have hdeclared : closed.declared.contains (identifier s.id) = true := by
    simp [closed, opened]
  have hlength : parts.length = s.assignments.length := by
    rw [← hparts, List.length_map]
  rw [List.append_assoc, List.cons_append, readLines_cons hopening, readLines_append, hattributes,
    ok_bind, List.singleton_append, readLines_cons (hclosing _),
    readLines_statements hstatements (p := closed) rfl hdeclared, List.length_map, hlength,
    show line + 1 + s.assignments.length + 1 = line + s.firstStatement by
      rw [Shot.firstStatement]; omega]
  rw [Script.Progress.after, hp]
  rfl

/-- A block has a line for each attribute and each statement, and two more for the braces. -/
theorem IsBlock.length_eq {s : Shot} {ls : List (List Char)} (h : IsBlock s ls) :
    ls.length = s.lineCount := by
  obtain ⟨attributes, statements, rfl, ⟨parts, rfl, -, hparts⟩, hstatements⟩ := h.exists_parts
  have hlength := hstatements.length_eq
  have hcount : parts.length = s.assignments.length := by
    rw [← hparts, List.length_map]
  simp only [List.length_append, List.length_cons, List.length_map, List.length_nil, hlength,
    Shot.lineCount, Shot.firstStatement]
  omega

end Overlay
