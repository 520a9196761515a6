import Overlay.Proofs.Script.Lengths
import Overlay.Proofs.Script.Remainders

/-!
# The texts that the scanner reads

The scanner reads texts between quotes wherever it reads values, also deep inside of mappings.  Here it
keeps a record of them: each text that is read is noted, with the place where its opening quote stands and
the place behind its closing quote.  Apart from its record, the scanner reads what it always reads.

## Main definitions
- `Literal`: a text between quotes and its place in a line
- `Traced`: reading with a record of the texts
- `Scanner.tracedValueFrom`, `Scanner.tracedMapping`: the scanner with its record
- `Script.tracedLine`, `Script.tracedParse`: the reader with the texts of each line

## Main statements
- `Traces.bind`: a chain reads what the chain without a record reads
- `Scanner.traces_values`, `Script.traces_line`: so do the scanner and the reader of lines
- `Script.exists_tracedParse`: a script that is read is read with a record
-/

namespace Overlay

/-! ## Section 1: Records -/

/-- A text between quotes, by its place in a line. -/
structure Literal where
  /-- The line from the opening quote on. -/
  opening : List Char
  /-- The line behind the closing quote. -/
  rest : List Char

/-- Reading with a record of the texts that have been read. -/
abbrev Traced := StateT (List Literal) (Except Complaint)

variable {α β : Type}

/-- Reading with a record comes to the same as reading without, whatever was noted before. -/
def Traces (x : Traced α) (y : Except Complaint α) : Prop :=
  ∀ noted, (x.run noted).map Prod.fst = y

namespace Traces

theorem of_pure (a : α) : Traces (pure a) (pure a) :=
  fun _ => rfl

theorem of_throw (complaint : Complaint) :
    Traces (throw complaint : Traced α) (throw complaint) :=
  fun _ => rfl

/-- What holds no texts is read as it is. -/
theorem of_lift (y : Except Complaint α) : Traces (liftM y) y := by
  intro noted
  cases y with
  | error complaint => rfl
  | ok a => rfl

theorem bind {x : Traced α} {y : Except Complaint α} {f : α → Traced β} {g : α → Except Complaint β}
    (hx : Traces x y) (hf : ∀ a, Traces (f a) (g a)) : Traces (x >>= f) (y >>= g) := by
  intro noted
  have hfirst := hx noted
  rw [StateT.run_bind]
  cases hrun : x.run noted with
  | error complaint =>
    rw [hrun] at hfirst
    rw [← hfirst]
    rfl
  | ok e =>
    rw [hrun] at hfirst
    rw [← hfirst]
    exact hf e.1 e.2

theorem of_if (c : Prop) [Decidable c] {x x' : Traced α} {y y' : Except Complaint α} (h : Traces x y)
    (h' : Traces x' y') : Traces (if c then x else x') (if c then y else y') := by
  split
  · exact h
  · exact h'

/-- With a record as without, a reading answers or does not. -/
theorem exists_run {x : Traced α} {y : Except Complaint α} {a : α} (h : Traces x y) (hy : y = .ok a)
    (noted : List Literal) : ∃ literals, x.run noted = .ok (a, literals) := by
  have hrun := h noted
  rw [hy] at hrun
  obtain ⟨⟨a', literals⟩, he, rfl⟩ := map_eq_ok.mp hrun
  exact ⟨literals, he⟩

end Traces

namespace Scanner

/-! ## Section 2: The scanner -/

/-- The text behind its opening quote, which is noted. -/
def tracedText (s : List Char) : Traced (String × List Char) := do
  let (t, r) ← text s
  modify fun noted => noted ++ [⟨'"' :: s, r⟩]
  return (t, r)

mutual

/-- The value that has to come next, with a record. -/
def tracedValueFrom : Nat → List Char → Traced (Value × List Char)
  | 0, _ => throw .expectedValue
  | fuel + 1, s =>
    match skipSpaces s with
    | '"' :: r => do
      let (t, r) ← tracedText r
      return (.text t, r)
    | '{' :: r => do
      let (fs, r) ← tracedFieldsFrom fuel r
      return (.dict fs, r)
    | r => numeric r

/-- The fields up to the closing brace, with a record. -/
def tracedFieldsFrom : Nat → List Char → Traced (Fields × List Char)
  | 0, _ => throw .expectedCommaOrBrace
  | fuel + 1, s =>
    match skipSpaces s with
    | '}' :: r => return ([], r)
    | r => tracedAssignmentsFrom fuel [] r

/-- The assignments up to the closing brace, with a record. -/
def tracedAssignmentsFrom : Nat → Fields → List Char → Traced (Fields × List Char)
  | 0, _, _ => throw .expectedCommaOrBrace
  | fuel + 1, acc, s => do
    let (key, r) ← identifier s
    let r ← expect '=' r
    let (v, r) ← tracedValueFrom fuel r
    let acc := Fields.put acc key v
    match skipSpaces r with
    | ',' :: r => tracedAssignmentsFrom fuel acc r
    | '}' :: r => return (acc, r)
    | _ => throw .expectedCommaOrBrace

end

/-- The value that has to come next, with a record. -/
def tracedValue (s : List Char) : Traced (Value × List Char) :=
  tracedValueFrom (fuelFor s) s

/-- The mapping that has to come next, with a record. -/
def tracedMapping (s : List Char) : Traced (Fields × List Char) := do
  let r ← expect '{' s
  tracedFieldsFrom (fuelFor r) r

theorem traces_text (s : List Char) : Traces (tracedText s) (text s) := by
  have hnote : ∀ e : String × List Char, Traces (do
      modify fun noted : List Literal => noted ++ [⟨'"' :: s, e.2⟩]
      return e : Traced (String × List Char)) (pure e) := fun _ _ => rfl
  have hbind := (Traces.of_lift (text s)).bind hnote
  rwa [bind_pure] at hbind

/-- The scanner reads the same with a record as without. -/
theorem traces_values (n : Nat) :
    (∀ s, Traces (tracedValueFrom n s) (valueFrom n s))
      ∧ (∀ s, Traces (tracedFieldsFrom n s) (fieldsFrom n s))
      ∧ ∀ acc s, Traces (tracedAssignmentsFrom n acc s) (assignmentsFrom n acc s) := by
  -- the two make the same calls with the same fuel, so they only part in what is noted
  induction n with
  | zero => exact ⟨fun _ => .of_throw _, fun _ => .of_throw _, fun _ _ => .of_throw _⟩
  | succ n ih =>
    obtain ⟨ihValue, ihFields, ihAssignments⟩ := ih
    refine ⟨fun s => ?value, fun s => ?fields, fun acc s => ?assignments⟩
    case value =>
      rw [tracedValueFrom, valueFrom]
      cases skipSpaces s with
      | nil => exact .of_lift _
      | cons c r =>
        by_cases hquote : c = '"'
        · rw [hquote]
          exact (traces_text r).bind fun _ => .of_pure _
        · by_cases hbrace : c = '{'
          · rw [hbrace]
            exact (ihFields r).bind fun _ => .of_pure _
          · simpa [hquote, hbrace] using Traces.of_lift (numeric (c :: r))
    case fields =>
      rw [tracedFieldsFrom, fieldsFrom]
      cases skipSpaces s with
      | nil => exact ihAssignments [] []
      | cons c r =>
        by_cases hbrace : c = '}'
        · rw [hbrace]
          exact .of_pure _
        · simpa [hbrace] using ihAssignments [] (c :: r)
    case assignments =>
      rw [tracedAssignmentsFrom, assignmentsFrom]
      refine (Traces.of_lift _).bind fun key => (Traces.of_lift _).bind fun behindSign => ?_
      apply (ihValue behindSign).bind
      rintro ⟨v, behindValue⟩
      dsimp only
      cases skipSpaces behindValue with
      | nil => exact .of_throw _
      | cons c r =>
        by_cases hcomma : c = ','
        · rw [hcomma]
          exact ihAssignments _ r
        · by_cases hbrace : c = '}'
          · rw [hbrace]
            exact .of_pure _
          · simpa [hcomma, hbrace] using Traces.of_throw (α := Fields × List Char) .expectedCommaOrBrace

theorem traces_value (s : List Char) : Traces (tracedValue s) (value s) :=
  (traces_values _).1 s

theorem traces_mapping (s : List Char) : Traces (tracedMapping s) (mapping s) :=
  (Traces.of_lift _).bind fun r => (traces_values _).2.1 r

end Scanner

namespace Script

/-! ## Section 3: Lines -/

/-- A set statement behind the word that chains it, with a record. -/
def tracedStatement (line : Nat) (chained : Bool) (s : List Char) : Traced Statement := do
  match Scanner.keyword? "set" s with
  | none => throw .expectedSet
  | some r =>
    let (name, r) ← Scanner.identifier r
    let (properties, r) ← Scanner.tracedMapping r
    let (duration, r) ← Scanner.tracedValue r
    match duration with
    | .float x =>
      if Scanner.atEnd r then return ⟨name, properties, x, chained, line⟩
      else throw .textAfterSet
    | _ => throw .durationNotInSeconds

/-- A line inside of a definition, with a record. -/
def tracedInside (p : Progress) (d : Definition) (s : List Char) : Traced Progress :=
  match Scanner.skipSpaces s with
  | '}' :: r =>
    if Scanner.atEnd r then return { p with defs := p.defs ++ [d], current := none }
    else throw .textAfterBlock
  | r => do
    let (key, r) ← Scanner.identifier r
    let r ← Scanner.expect '=' r
    let (v, r) ← Scanner.tracedValue r
    if Scanner.atEnd r then
      return { p with current := some { d with attrs := Fields.put d.attrs key v } }
    else throw .textAfterAttribute

/-- A line that is a statement, with a record. -/
def tracedSet (p : Progress) (line : Nat) (s : List Char) : Traced Progress := do
  let statement ← match Scanner.keyword? "then" s with
    | some r => tracedStatement line true r
    | none => tracedStatement line false s
  if p.declared.contains statement.name then
    return { p with sets := p.sets ++ [statement] }
  else throw (.notDeclared statement.name)

/-- One more line, with a record; the line that opens a definition holds no values. -/
def tracedLine (p : Progress) (line : Nat) (s : List Char) : Traced Progress :=
  if Text.isBlankText s then throw .blankLine
  else match p.current with
    | some d => tracedInside p d s
    | none => match Scanner.keyword? "def" s with
      | some r => readOpening p r
      | none => tracedSet p line s

theorem traces_statement (line : Nat) (chained : Bool) (s : List Char) :
    Traces (tracedStatement line chained s) (readStatement line chained s) := by
  rw [tracedStatement, readStatement]
  cases Scanner.keyword? "set" s with
  | none => exact .of_throw _
  | some r =>
    refine (Traces.of_lift _).bind fun name => (Scanner.traces_mapping _).bind fun properties => ?_
    apply (Scanner.traces_value _).bind
    rintro ⟨duration, behindDuration⟩
    cases duration
    case float x => exact .of_if _ (.of_pure _) (.of_throw _)
    all_goals exact .of_throw _

theorem traces_inside (p : Progress) (d : Definition) (s : List Char) :
    Traces (tracedInside p d s) (readInside p d s) := by
  rw [tracedInside, readInside]
  generalize Scanner.skipSpaces s = front
  by_cases hbrace : ∃ r, front = '}' :: r
  · obtain ⟨r, rfl⟩ := hbrace
    exact .of_if _ (.of_pure _) (.of_throw _)
  · -- a line that closes nothing gives an attribute
    have hother : ∀ r, front = '}' :: r → False := fun r hr => hbrace ⟨r, hr⟩
    simp only
    refine (Traces.of_lift _).bind fun key => (Traces.of_lift _).bind fun behindSign => ?_
    refine (Scanner.traces_value behindSign).bind fun v => ?_
    exact .of_if _ (.of_pure _) (.of_throw _)

theorem traces_set (p : Progress) (line : Nat) (s : List Char) :
    Traces (tracedSet p line s) (readSet p line s) := by
  have hrest : ∀ statement : Statement, Traces
      (if p.declared.contains statement.name then return { p with sets := p.sets ++ [statement] }
        else throw (.notDeclared statement.name))
      (if p.declared.contains statement.name then return { p with sets := p.sets ++ [statement] }
        else throw (.notDeclared statement.name)) := by
    intro statement
    exact .of_if _ (.of_pure _) (.of_throw _)
  rw [tracedSet, readSet]
  cases Scanner.keyword? "then" s with
  | some r => exact (traces_statement line true r).bind hrest
  | none => exact (traces_statement line false s).bind hrest

/-- A line is read the same with a record as without. -/
theorem traces_line (p : Progress) (line : Nat) (s : List Char) :
    Traces (tracedLine p line s) (readLine p line s) := by
  rw [tracedLine, readLine]
  cases Text.isBlankText s with
  | true => exact .of_throw _
  | false =>
    cases p.current with
    | some d => exact traces_inside p d s
    | none =>
      cases Scanner.keyword? "def" s with
      | some r => exact .of_lift _
      | none => exact traces_set p line s

/-! ## Section 4: Scripts -/

/-- The lines from a number on, with the texts of each line. -/
def tracedLines (p : Progress) (line : Nat) :
    List (List Char) → Result (Progress × List (List Literal))
  | [] => .ok (p, [])
  | s :: r => match (tracedLine p line s).run [] with
    | .ok (p, literals) =>
      (tracedLines p (line + 1) r).map fun e => (e.1, literals :: e.2)
    | .error complaint => refuse (.scriptLine line complaint)

/-- A script from its text, with the texts of each line. -/
def tracedParse (s : List Char) : Result (Script × List (List Literal)) := do
  let (p, literals) ← tracedLines .start 1 (linesOf s)
  match p.current with
  | some d => refuse (.unterminatedBlock d.name)
  | none => return (⟨p.defs, p.sets⟩, literals)

theorem exists_tracedLines {p q : Progress} {line : Nat} {ls : List (List Char)}
    (h : readLines p line ls = .ok q) : ∃ literals, tracedLines p line ls = .ok (q, literals) := by
  induction ls generalizing p line with
  | nil =>
    obtain rfl := Except.ok.inj h
    exact ⟨[], rfl⟩
  | cons l r ih =>
    rw [readLines] at h
    split at h
    · next p' hline =>
      obtain ⟨literals, hrun⟩ := (traces_line p line l).exists_run hline []
      obtain ⟨others, hothers⟩ := ih h
      refine ⟨literals :: others, ?_⟩
      rw [tracedLines, hrun]
      dsimp only
      rw [hothers]
      rfl
    · cases h

/-- A script that is read is read with a record. -/
theorem exists_tracedParse {s : List Char} {script : Script} (h : parse s = .ok script) :
    ∃ literals, tracedParse s = .ok (script, literals) := by
  obtain ⟨p, hp, hend⟩ := bind_eq_ok.mp h
  obtain ⟨literals, hlines⟩ := exists_tracedLines hp
  refine ⟨literals, ?_⟩
  rw [tracedParse, hlines, ok_bind]
  cases hcurrent : p.current with
  | some d =>
    rw [hcurrent] at hend
    cases hend
  | none =>
    rw [hcurrent] at hend
    dsimp only
    rw [hcurrent, ← Except.ok.inj hend]
    rfl

end Script

end Overlay
