import Overlay.Proofs.Number.Thousandths
import Overlay.Proofs.Preview.Loading
import Overlay.Proofs.Script.Complaints

/-!
# Entries that are lost

An engine that is asked to load an entry takes it and tells so, or it tells what is wrong with the
script and is the engine that it was.  There are two more ends.  The entry is counted before its start is
read, and what goes wrong then is not told: an entry whose start cannot be read is lost, a fault goes
to the caller, and the number stays used up.  And a script with a whole number of too many digits breaks
no rule of scripts, so nobody is told of it either; there the engine is what it was.

## Main definitions
- `Value.isStart`: values that can be read as the start of an entry
- `PreviewEngine.Loaded`, `PreviewEngine.Reported`, `PreviewEngine.Lost`, `PreviewEngine.Unread`: the ends
  of a request
- `PreviewEngine.AllOrNothing`: the two ends that are meant

## Main statements
- `PreviewEngine.toDouble_orElse_iff`: which starts are read
- `PreviewEngine.perform_add_unread`: what an entry without a readable start leaves
- `PreviewEngine.add_allOrNothing_iff`: when a request ends in one of the ways that are meant
-/

namespace Overlay

open Overlay.Number

attribute [local irreducible] twoTo tenTo Double.unitsInOne

/-! ## Section 1: Starts -/

/-- The values that can be read as the start of an entry: those that count as false stand for zero,
others are converted. -/
def Value.isStart : Value → Bool
  | .none => true
  | .bool _ => true
  | .int i => (doubleOfInt? i).isSome
  | .float _ => true
  | .text s => s.isEmpty || (readDouble? s).isSome
  | .date _ => false
  | .list items => items.isEmpty
  | .tuple items => items.isEmpty
  | .dict entries => entries.isEmpty

theorem exists_orFault_iff {α : Type} {fault : Fault} {o : Option α} :
    (∃ a, orFault fault o = .ok a) ↔ o.isSome = true := by
  simp only [orFault_eq_ok, Option.isSome_iff_exists]

namespace Value

/-- What is no text is converted as the number that it counts as. -/
theorem toDouble_of_number? {v : Value} {n : Number} (h : v.number? = some n) :
    v.toDouble = orFault .tooLarge n.toDouble? := by
  cases v with
  | text s => cases h
  | _ => simp only [toDouble, toNumber, h, orFault_some, ok_bind]

theorem isSome_doubleOfInt?_zero : (doubleOfInt? 0).isSome = true :=
  Double.isSome_doubleOfInt? (tenTo_pos 308)

theorem isSome_doubleOfInt?_one : (doubleOfInt? 1).isSome = true := by
  refine Double.isSome_doubleOfInt? ?_
  have hpos := tenTo_pos 307
  rw [tenTo_succ]
  omega

theorem isStart_of_not_holds {v : Value} (h : v.holds = false) : v.isStart = true := by
  cases v with
  | none => rfl
  | bool b => rfl
  | int i =>
    obtain rfl : i = 0 := by simpa [holds] using h
    exact isSome_doubleOfInt?_zero
  | float x => rfl
  | text s => simpa [holds, isStart] using Or.inl h
  | date d => cases h
  | list items => simpa [holds, isStart] using h
  | tuple items => simpa [holds, isStart] using h
  | dict entries => simpa [holds, isStart] using h

/-- What does not count as false has to be a number, in the range of doubles, or the text of one. -/
theorem exists_toDouble_iff {v : Value} (h : v.holds = true) :
    (∃ x, v.toDouble = .ok x) ↔ v.isStart = true := by
  cases v with
  | none => cases h
  | bool b =>
    cases b with
    | false => cases h
    | true =>
      rw [toDouble_of_number? rfl]
      exact iff_of_true (exists_orFault_iff.mpr isSome_doubleOfInt?_one) rfl
  | int i =>
    rw [toDouble_of_number? rfl]
    exact exists_orFault_iff
  | float x =>
    rw [toDouble_of_number? rfl]
    exact iff_of_true ⟨x, rfl⟩ rfl
  | text s =>
    have hne : s.isEmpty = false := by simpa [holds] using h
    rw [isStart, hne, Bool.false_or]
    exact exists_orFault_iff
  | date d => exact iff_of_false (by rintro ⟨x, hx⟩; cases hx) Bool.false_ne_true
  | list items | tuple items | dict items =>
    have hne : items.isEmpty = false := by simpa [holds] using h
    exact iff_of_false (by rintro ⟨x, hx⟩; cases hx) (by simp [isStart, hne])

end Value

namespace PreviewEngine

open Act

/-- The start of an entry is read exactly where it is a start. -/
theorem toDouble_orElse_iff (v : Value) :
    (∃ x, (orElse v (.int 0)).toDouble = .ok x) ↔ v.isStart = true := by
  cases hv : v.holds with
  | true => rw [orElse, hv, if_pos rfl, Value.exists_toDouble_iff hv]
  | false =>
    have hzero : ∃ x, (Value.int 0).toDouble = .ok x := by
      rw [Value.toDouble_of_number? rfl]
      exact exists_orFault_iff.mpr Value.isSome_doubleOfInt?_zero
    rw [orElse, hv, if_neg Bool.false_ne_true]
    exact iff_of_true hzero (Value.isStart_of_not_holds hv)

/-! ## Section 2: The ends of a request -/

variable {request : AddRequest} {dm : Fields} {e : PreviewEngine} {w : Surroundings}

/-- The entry was taken: it stands at the end of one shelf, was counted, and was told of once. -/
structure Loaded (request : AddRequest) (e : PreviewEngine) (w : Surroundings) (entry : Entry)
    (r : Result Unit × PreviewEngine × Surroundings) : Prop where
  ended : r.1 = .ok ()
  entries : r.2.1.entries = if request.test.holds then e.entries else e.entries ++ [entry]
  testEntries : r.2.1.testEntries
    = if request.test.holds then e.testEntries ++ [entry] else e.testEntries
  counted : r.2.1.loaded = e.loaded + 1
  answers : r.2.2.answers = w.answers ++ [.accepted entry]

/-- The entry was left out: the engine is what it was, and why was told once. -/
structure Reported (e : PreviewEngine) (w : Surroundings)
    (r : Result Unit × PreviewEngine × Surroundings) : Prop where
  ended : r.1 = .ok ()
  unchanged : r.2.1 = e
  answers : ∃ message, r.2.2.answers = w.answers ++ [.rejected message]

/-- The entry was lost: it was counted but stands on no shelf, and a fault is all that is heard. -/
structure Lost (e : PreviewEngine) (w : Surroundings)
    (r : Result Unit × PreviewEngine × Surroundings) : Prop where
  ended : ∃ fault, r.1 = .error fault
  entries : r.2.1.entries = e.entries
  testEntries : r.2.1.testEntries = e.testEntries
  counted : r.2.1.loaded = e.loaded + 1
  answers : r.2.2.answers = w.answers

/-- The script was not read for a number with this many digits: the engine is what it was, and a fault
is all that is heard. -/
structure Unread (digits : Nat) (e : PreviewEngine) (w : Surroundings)
    (r : Result Unit × PreviewEngine × Surroundings) : Prop where
  ended : r.1 = .error (.tooLongToRead digits)
  tooMany : maxIntDigits < digits
  unchanged : r.2.1 = e
  answers : r.2.2.answers = w.answers

/-- A request ended as it is meant to. -/
def AllOrNothing (request : AddRequest) (e : PreviewEngine) (w : Surroundings)
    (r : Result Unit × PreviewEngine × Surroundings) : Prop :=
  (∃ entry, Loaded request e w entry r) ∨ Reported e w r

/-- A request that leaves a fault with the caller did not end as it is meant to. -/
theorem not_allOrNothing {r : Result Unit × PreviewEngine × Surroundings} {fault : Fault}
    (h : r.1 = .error fault) : ¬ AllOrNothing request e w r := by
  rintro (⟨entry, hloaded⟩ | hreported)
  · cases h.symm.trans hloaded.ended
  · cases h.symm.trans hreported.ended

/-- An entry whose start cannot be read was counted by then. -/
theorem perform_add_unread {defs sets : Value} {fault : Fault}
    (hdm : (orElse request.entry (.dict [])).toFields = .ok dm)
    (hcontents : contents request dm = .ok (defs, sets))
    (hstart : (orElse (Fields.get dm "stime") (.int 0)).toDouble = .error fault)
    (e : PreviewEngine) (w : Surroundings) :
    (add request).perform e w = (.error fault, { e with loaded := e.loaded + 1 }, w) := by
  simp only [add, perform_bind, perform_ofResult, hdm, hcontents, perform_modify, perform_get, hstart]

/-! ## Section 3: Which end a request takes -/

theorem loaded_add {start : Double} {defs sets : Value}
    (hdm : (orElse request.entry (.dict [])).toFields = .ok dm)
    (hcontents : contents request dm = .ok (defs, sets))
    (hstart : (orElse (Fields.get dm "stime") (.int 0)).toDouble = .ok start)
    (haccepted : request.tellsAccepted = true) (e : PreviewEngine) (w : Surroundings) :
    Loaded request e w (entryOf dm start defs sets (e.loaded + 1)) ((add request).perform e w) := by
  rw [perform_add_loaded hdm hcontents hstart, haccepted]
  refine ⟨rfl, ?_, ?_, ?_, answers_answered rfl true w⟩
  -- the request chooses the shelf, and the other one is not touched
  all_goals cases htest : request.test.holds <;> simp [shelve, htest]

theorem reported_add {cause : Cause}
    (hdm : (orElse request.entry (.dict [])).toFields = .ok dm)
    (hcontents : contents request dm = .error (.refused cause))
    (hrejected : request.tellsRejected = true) (e : PreviewEngine) (w : Surroundings) :
    Reported e w ((add request).perform e w) := by
  rw [perform_add_refused hdm hcontents, hrejected]
  exact ⟨rfl, rfl, cause.message, answers_answered rfl true w⟩

theorem lost_add {defs sets : Value} {fault : Fault}
    (hdm : (orElse request.entry (.dict [])).toFields = .ok dm)
    (hcontents : contents request dm = .ok (defs, sets))
    (hstart : (orElse (Fields.get dm "stime") (.int 0)).toDouble = .error fault)
    (e : PreviewEngine) (w : Surroundings) : Lost e w ((add request).perform e w) := by
  rw [perform_add_unread hdm hcontents hstart]
  exact ⟨⟨fault, rfl⟩, rfl, rfl, rfl, rfl⟩

theorem unread_add {digits : Nat} (hdm : (orElse request.entry (.dict [])).toFields = .ok dm)
    (hcontents : contents request dm = .error (.tooLongToRead digits)) (hdigits : maxIntDigits < digits)
    (e : PreviewEngine) (w : Surroundings) : Unread digits e w ((add request).perform e w) := by
  rw [perform_add_raised hdm hcontents fun _ h => nomatch h]
  exact ⟨rfl, hdigits, rfl, rfl⟩

/-- The contents of a description with a text are refused for a broken rule, or hold a number with too
many digits, if they are not read. -/
theorem contents_error_cases {fault : Fault}
    (hscript : request.parsed.holds = true
      ∨ ∃ s, (Fields.get? dm "text").getD (.text "") = .text s)
    (h : contents request dm = .error fault) :
    (∃ cause, fault = .refused cause)
      ∨ ∃ digits, maxIntDigits < digits ∧ fault = .tooLongToRead digits := by
  rw [contents] at h
  split at h
  · cases h
  · next hparsed =>
    obtain ⟨s, hs⟩ := hscript.resolve_left hparsed
    rw [hs] at h
    rcases bind_eq_error.mp h with hparse | ⟨script, -, hreturn⟩
    · exact Script.parse_error_cases hparse
    · cases hreturn

/-- A request whose description is a mapping, with a text unless it is parsed already, and whose
caller waits for both answers, ends as it is meant to if and only if the script breaks a rule, or it is
read and so can the start be.  Otherwise the entry is lost, its script having been read, or its script
holds a number with too many digits and nobody is told. -/
theorem add_allOrNothing_iff (hentry : request.entry = .dict dm)
    (hscript : request.parsed.holds = true
      ∨ ∃ s, (Fields.get? dm "text").getD (.text "") = .text s)
    (haccepted : request.tellsAccepted = true) (hrejected : request.tellsRejected = true)
    (e : PreviewEngine) (w : Surroundings) :
    (AllOrNothing request e w ((add request).perform e w)
      ↔ (∃ cause, contents request dm = .error (.refused cause))
        ∨ (∃ parts, contents request dm = .ok parts) ∧ (Fields.get dm "stime").isStart = true)
    ∧ (¬ AllOrNothing request e w ((add request).perform e w) →
      (∃ parts, contents request dm = .ok parts) ∧ Lost e w ((add request).perform e w)
      ∨ ∃ digits, contents request dm = .error (.tooLongToRead digits)
        ∧ Unread digits e w ((add request).perform e w)) := by
  have hdm : (orElse request.entry (.dict [])).toFields = .ok dm := by
    rw [hentry]
    cases dm <;> rfl
  have hread := toDouble_orElse_iff (Fields.get dm "stime")
  cases hcontents : contents request dm with
  | error fault =>
    rcases contents_error_cases hscript hcontents with ⟨cause, rfl⟩ | ⟨digits, hdigits, rfl⟩
    · -- refused before anything was counted
      have hmeant : AllOrNothing request e w ((add request).perform e w) :=
        Or.inr (reported_add hdm hcontents hrejected e w)
      exact ⟨iff_of_true hmeant (Or.inl ⟨_, rfl⟩), fun hnot => absurd hmeant hnot⟩
    · have hunread := unread_add hdm hcontents hdigits e w
      refine ⟨iff_of_false (not_allOrNothing hunread.ended) ?_, fun _ => Or.inr ⟨_, rfl, hunread⟩⟩
      rintro (⟨cause, heq⟩ | ⟨⟨parts, heq⟩, -⟩)
      · cases heq
      · cases heq
  | ok parts =>
    obtain ⟨defs, sets⟩ := parts
    cases hstart : (orElse (Fields.get dm "stime") (.int 0)).toDouble with
    | ok start =>
      have hmeant : AllOrNothing request e w ((add request).perform e w) :=
        Or.inl ⟨_, loaded_add hdm hcontents hstart haccepted e w⟩
      have hstarts := hread.mp ⟨start, hstart⟩
      exact ⟨iff_of_true hmeant (Or.inr ⟨⟨_, rfl⟩, hstarts⟩), fun hnot => absurd hmeant hnot⟩
    | error fault =>
      -- counted, but the entry was not made yet
      have hlost := lost_add hdm hcontents hstart e w
      obtain ⟨fault', hended⟩ := hlost.ended
      refine ⟨iff_of_false (not_allOrNothing hended) ?_, fun _ => Or.inl ⟨⟨_, rfl⟩, hlost⟩⟩
      rintro (⟨cause, heq⟩ | ⟨-, hstarts⟩)
      · cases heq
      · obtain ⟨x, hx⟩ := hread.mpr hstarts
        cases hstart.symm.trans hx

/-- An empty script whose start is written as scripts write seconds, which is no number. -/
def startlessRequest : AddRequest where
  entry := .dict [(.text "text", .text ""), (.text "stime", .text "1s")]
  parsed := .bool false
  test := .bool false
  tellsAccepted := true
  tellsRejected := true

/-- A new engine has used up its first number and holds nothing. -/
theorem add_allOrNothing_iff_startless :
    ¬ AllOrNothing startlessRequest (ofOptions [] false) default
        ((add startlessRequest).perform (ofOptions [] false) default)
      ∧ Lost (ofOptions [] false) default
        ((add startlessRequest).perform (ofOptions [] false) default) := by
  have h := @add_allOrNothing_iff startlessRequest _ rfl (Or.inr ⟨"", rfl⟩) rfl rfl
    (ofOptions [] false) default
  have hnot : ¬ AllOrNothing startlessRequest (ofOptions [] false) default
      ((add startlessRequest).perform (ofOptions [] false) default) := by
    rw [h.1]
    rintro (⟨cause, hcause⟩ | ⟨-, hstart⟩)
    · cases hcause
    · exact absurd hstart (by decide +kernel)
  -- the script is empty, so that it was read
  rcases h.2 hnot with ⟨-, hlost⟩ | ⟨digits, hdigits, -⟩
  · exact ⟨hnot, hlost⟩
  · cases hdigits

end PreviewEngine

end Overlay
