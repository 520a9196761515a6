import Overlay.Proofs.Script.Reading

/-!
# What scripts are refused for

A line that can be seen is refused for what is written on it: never for being blank, and for a number with
too many digits only if its digits are more than are read.  A broken rule is all that a script is refused
for, but for such a number.

## Main definitions
- `Complaint.IsFair`: the complaints that a line which can be seen gives rise to
- `Scanner.Fair`: readings that are refused with such complaints only

## Main statements
- `Script.readLine_eq_blankLine_iff`: lines are refused for being blank exactly if they are
- `Script.parse_ne_blankLine`: scripts without blank lines are not refused because of one
- `Script.parse_error_cases`: a rule is broken, or a number has too many digits
-/

namespace Overlay

open Overlay.Text Overlay.Number

/-! ## Section 1: Words -/

/-- A complaint about what is written on a line. -/
def Complaint.IsFair : Complaint → Prop
  | .blankLine => False
  | .tooLongToRead digits => maxIntDigits < digits
  | _ => True

/-- Only the complaint of too many digits comes to that fault. -/
theorem Complaint.fault_eq_tooLongToRead_iff {line digits : Nat} {complaint : Complaint} :
    complaint.fault line = .tooLongToRead digits ↔ complaint = .tooLongToRead digits := by
  cases complaint <;> simp [Complaint.fault]

namespace Scanner

/-- A reading that is refused for what is written, if at all. -/
def Fair {α : Type} (r : Except Complaint α) : Prop :=
  Fails Complaint.IsFair r

theorem fair_expect (c : Char) (s : List Char) : Fair (expect c s) := by
  unfold expect
  split
  · split
    · exact .ok _
    · exact .error trivial
  · exact .error trivial

theorem fair_identifier (s : List Char) : Fair (identifier s) := by
  unfold identifier
  split
  · exact .ok _
  · exact .error trivial

theorem fair_text (s : List Char) : Fair (text s) := by
  unfold text
  split
  · exact .ok _
  · exact .error trivial

/-- The digits of a number that is not read are more than are read. -/
theorem lt_of_isTooLong {s : List Char} (h : isTooLong s = true) :
    maxIntDigits < (splitSign s).2.length := by
  simp only [isTooLong, Bool.and_eq_true, decide_eq_true_eq] at h
  exact h.2

theorem fair_numeric (s : List Char) : Fair (numeric s) := by
  unfold numeric
  split
  · exact .ok _
  · split
    · split
      · next hlong => exact .error (lt_of_isTooLong hlong)
      · exact .ok _
    · exact .error trivial

/-- Values, fields and assignments, whatever the fuel. -/
theorem fair_values (n : Nat) :
    (∀ s, Fair (valueFrom n s)) ∧ (∀ s, Fair (fieldsFrom n s))
      ∧ ∀ acc s, Fair (assignmentsFrom n acc s) := by
  induction n with
  | zero => exact ⟨fun _ => .error trivial, fun _ => .error trivial, fun _ _ => .error trivial⟩
  | succ n ih =>
    obtain ⟨ihValue, ihFields, ihAssignments⟩ := ih
    refine ⟨fun s => ?value, fun s => ?fields, fun acc s => ?assignments⟩
    case value =>
      rw [valueFrom]
      split
      · exact (fair_text _).bind fun _ _ => .ok _
      · exact (ihFields _).bind fun _ _ => .ok _
      · exact fair_numeric _
    case fields =>
      rw [fieldsFrom]
      split
      · exact .ok _
      · exact ihAssignments [] _
    case assignments =>
      rw [assignmentsFrom]
      refine (fair_identifier s).bind fun _ _ => (fair_expect _ _).bind fun _ _ =>
        (ihValue _).bind fun _ _ => ?_
      dsimp only
      split
      · exact ihAssignments _ _
      · exact .ok _
      · exact .error trivial

theorem fair_value (s : List Char) : Fair (value s) :=
  (fair_values _).1 s

theorem fair_mapping (s : List Char) : Fair (mapping s) :=
  (fair_expect _ s).bind fun r _ => (fair_values _).2.1 r

end Scanner

/-! ## Section 2: Lines -/

namespace Script

open Overlay.Scanner

theorem fair_readStatement (line : Nat) (chained : Bool) (s : List Char) :
    Fair (readStatement line chained s) := by
  unfold readStatement
  split
  · exact .error trivial
  · refine (fair_identifier _).bind fun _ _ => (fair_mapping _).bind fun _ _ =>
      (fair_value _).bind fun _ _ => ?_
    dsimp only
    split
    · split
      · exact .ok _
      · exact .error trivial
    · exact .error trivial

theorem fair_readInside (p : Progress) (d : Definition) (s : List Char) :
    Fair (readInside p d s) := by
  unfold readInside
  split
  · split
    · exact .ok _
    · exact .error trivial
  · refine (fair_identifier _).bind fun _ _ => (fair_expect _ _).bind fun _ _ =>
      (fair_value _).bind fun _ _ => ?_
    dsimp only
    split
    · exact .ok _
    · exact .error trivial

theorem fair_readOpening (p : Progress) (s : List Char) : Fair (readOpening p s) := by
  unfold readOpening
  refine (fair_identifier s).bind fun _ _ => ?_
  dsimp only
  split
  · exact .error trivial
  · refine (fair_identifier _).bind fun _ _ => ?_
    split
    · exact .error trivial
    · refine (fair_expect _ _).bind fun _ _ => ?_
      split
      · exact .ok _
      · exact .error trivial

theorem fair_readSet (p : Progress) (line : Nat) (s : List Char) :
    Fair (readSet p line s) := by
  have hstatement : ∀ chained t, Fair (readStatement line chained t >>= fun statement =>
      if p.declared.contains statement.name then
        pure { p with sets := p.sets ++ [statement] }
      else throw (.notDeclared statement.name)) := by
    intro chained t
    refine (fair_readStatement line chained t).bind fun statement _ => ?_
    split
    · exact .ok _
    · exact .error trivial
  unfold readSet
  split
  · exact hstatement true _
  · exact hstatement false s

theorem fair_readLine (p : Progress) (line : Nat) {s : List Char} (hs : isBlankText s = false) :
    Fair (readLine p line s) := by
  rw [readLine, hs, if_neg (by decide)]
  split
  · exact fair_readInside p _ s
  · split
    · exact fair_readOpening p _
    · exact fair_readSet p line s

/-! ## Section 3: Scripts -/

/-- A line is refused for being blank exactly if nothing can be seen on it. -/
theorem readLine_eq_blankLine_iff (p : Progress) (line : Nat) (s : List Char) :
    readLine p line s = .error .blankLine ↔ isBlankText s = true := by
  constructor
  · intro h
    cases hs : isBlankText s with
    | true => rfl
    | false => exact (fair_readLine p line hs _ h).elim
  · intro hs
    rw [readLine, if_pos hs]

/-- A line is refused for a broken rule, or for a number with too many digits. -/
theorem fault_of_readLine {p : Progress} {line : Nat} {s : List Char} {complaint : Complaint}
    (h : readLine p line s = .error complaint) :
    Complaint.fault line complaint = .refused (.scriptLine line complaint)
      ∨ ∃ digits, maxIntDigits < digits ∧ Complaint.fault line complaint = .tooLongToRead digits := by
  cases complaint with
  | tooLongToRead digits =>
    cases hs : isBlankText s with
    | true =>
      rw [(readLine_eq_blankLine_iff p line s).mpr hs] at h
      cases h
    | false => exact Or.inr ⟨digits, fair_readLine p line hs _ h, rfl⟩
  | _ => exact Or.inl rfl

/-- A script that is not read breaks a rule, or holds a number with too many digits. -/
theorem parse_error_cases {s : List Char} {fault : Fault} (h : parse s = .error fault) :
    (∃ cause, fault = .refused cause)
      ∨ ∃ digits, maxIntDigits < digits ∧ fault = .tooLongToRead digits := by
  -- a line is refused, or the text ends inside of a definition
  rcases bind_eq_error.mp h with hlines | ⟨p, -, hend⟩
  · obtain ⟨q, n, complaint, l, -, hline, rfl, -⟩ := exists_refused_line hlines
    exact (fault_of_readLine hline).imp_left fun hfault => ⟨_, hfault⟩
  · split at hend
    · exact Or.inl ⟨_, (Except.error.inj hend).symm⟩
    · cases hend

/-- A script without blank lines is not refused because of one. -/
theorem parse_ne_blankLine {s : List Char} (h : ∀ l ∈ linesOf s, isBlankText l = false) (n : Nat) :
    parse s ≠ refuse (.scriptLine n .blankLine) := by
  intro hrefused
  have hrefused : parse s = .error (.refused (.scriptLine n .blankLine)) := hrefused
  rcases bind_eq_error.mp hrefused with hlines | ⟨p, -, hend⟩
  · obtain ⟨q, m, complaint, l, hl, hline, heq, -⟩ := exists_refused_line hlines
    obtain rfl : complaint = .blankLine := by
      rcases fault_of_readLine hline with hfault | ⟨digits, -, hfault⟩
      · rw [hfault] at heq
        have hsame : n = m ∧ .blankLine = complaint := by simpa using heq
        exact hsame.2.symm
      · rw [hfault] at heq
        cases heq
    have hblank := (readLine_eq_blankLine_iff q m l).mp hline
    rw [h l hl] at hblank
    cases hblank
  · split at hend
    · cases hend
    · cases hend

end Script

end Overlay
