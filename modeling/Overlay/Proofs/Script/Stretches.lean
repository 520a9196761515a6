import Overlay.Proofs.Script.Literals

/-!
# Lines as rows of texts

A line that is read is a row of texts between quotes; no quote stands between two of them, or in front of
the first one, or behind the last one.  The texts are those that the scanner notes, in the same order.

## Main definitions
- `Scans`: a way along a line, over the texts that stand there
- `Leads`: what is noted on the way from one place of a line to another

## Main statements
- `Scans.append`: a way may be gone on with
- `Scanner.leads_values`: the scanner notes all the texts on its way
- `Script.leads_line`, `Script.scans_of_tracedParse`: so does the reader, from the start of each line to
  its end
-/

namespace Overlay

open Overlay.Scanner

/-! ## Section 1: Ways along a line -/

/-- A way along a line from one remainder to another, over the texts that stand there. -/
inductive Scans : List Char → List Literal → List Char → Prop where
  | stop (s : List Char) : Scans s [] s
  | skip {s r t : List Char} {literals : List Literal} (hskips : Skips s r)
      (hrest : Scans r literals t) : Scans s literals t
  | text {s r t body : List Char} {literals : List Literal} (hbody : textBody s = some (body, r))
      (hrest : Scans r literals t) : Scans ('"' :: s) (⟨'"' :: s, r⟩ :: literals) t

namespace Scans

variable {s r t : List Char} {xs ys : List Literal}

theorem of_skips (h : Skips s r) : Scans s [] r :=
  .skip h (.stop r)

theorem append (h : Scans s xs r) (h' : Scans r ys t) : Scans s (xs ++ ys) t := by
  induction h with
  | stop s => exact h'
  | skip hskips _ ih => exact .skip hskips (ih h')
  | text hbody _ ih => exact .text hbody (ih h')

theorem suffix (h : Scans s xs r) : r <:+ s := by
  induction h with
  | stop s => exact List.suffix_rfl
  | skip hskips _ ih => exact ih.trans hskips.suffix
  | text hbody _ ih =>
    apply ih.trans
    exact (List.suffix_cons _ _).trans ((suffix_of_textBody hbody).trans (List.suffix_cons _ _))

/-- Each text on the way stands in the line, from its opening quote to its closing one. -/
theorem quoted (h : Scans s xs r) {x : Literal} (hx : x ∈ xs) :
    x.opening <:+ s ∧ ∃ inner, x.opening = '"' :: (inner ++ '"' :: x.rest) := by
  induction h with
  | stop s => cases hx
  | skip hskips _ ih =>
    obtain ⟨hsuffix, hinner⟩ := ih hx
    exact ⟨hsuffix.trans hskips.suffix, hinner⟩
  | text hbody _ ih =>
    -- the text itself, or one of those behind it
    have hrest := suffix_of_textBody hbody
    rcases List.mem_cons.mp hx with rfl | hx
    · obtain ⟨inner, hinner⟩ := hrest
      exact ⟨List.suffix_rfl, inner, by rw [hinner]⟩
    · obtain ⟨hsuffix, hinner⟩ := ih hx
      refine ⟨hsuffix.trans ?_, hinner⟩
      exact (List.suffix_cons _ _).trans (hrest.trans (List.suffix_cons _ _))

end Scans

/-! ## Section 2: What is noted on the way -/

variable {α β : Type}

/-- From one place of a line, a reading comes to the place that its result tells, and notes the texts on
the way there. -/
def Leads (s : List Char) (x : Traced α) (rest : α → List Char) : Prop :=
  ∀ noted a noted', x.run noted = .ok (a, noted') →
    ∃ literals, noted' = noted ++ literals ∧ Scans s literals (rest a)

namespace Leads

variable {s r : List Char} {rest : α → List Char} {rest' : β → List Char}

theorem of_pure {a : α} (h : Skips s (rest a)) : Leads s (pure a) rest := by
  intro noted b noted' hrun
  obtain ⟨rfl, rfl⟩ := Prod.mk.inj (Except.ok.inj hrun)
  exact ⟨[], by simp, .of_skips h⟩

theorem of_throw (complaint : Complaint) : Leads s (throw complaint) rest := by
  intro noted a noted' hrun
  cases hrun

/-- What holds no texts is skipped. -/
theorem of_lift {y : Except Complaint α} (h : ∀ a, y = .ok a → Skips s (rest a)) :
    Leads s (liftM y) rest := by
  cases y with
  | error complaint => exact of_throw complaint
  | ok a => exact of_pure (h a rfl)

theorem of_skips {x : Traced α} (hskips : Skips s r) (h : Leads r x rest) : Leads s x rest := by
  intro noted a noted' hrun
  obtain ⟨literals, hnoted, hscans⟩ := h noted a noted' hrun
  exact ⟨literals, hnoted, .skip hskips hscans⟩

theorem bind {x : Traced α} {f : α → Traced β} (hx : Leads s x rest)
    (hf : ∀ a, Leads (rest a) (f a) rest') : Leads s (x >>= f) rest' := by
  intro noted b noted'' hrun
  rw [StateT.run_bind] at hrun
  obtain ⟨⟨a, noted'⟩, hfirst, hsecond⟩ := bind_eq_ok.mp hrun
  obtain ⟨xs, rfl, hxs⟩ := hx noted a noted' hfirst
  obtain ⟨ys, rfl, hys⟩ := hf a _ b noted'' hsecond
  -- the second way starts where the first one stops
  exact ⟨xs ++ ys, by simp, hxs.append hys⟩

/-- A choice leads where both of its sides lead. -/
theorem of_if {c : Prop} [Decidable c] {x y : Traced α} (hx : c → Leads s x rest)
    (hy : ¬ c → Leads s y rest) : Leads s (if c then x else y) rest := by
  split
  · next hc => exact hx hc
  · next hc => exact hy hc

end Leads

namespace Scanner

variable {s r : List Char}

/-! ## Section 3: The scanner -/

theorem leads_text (s : List Char) : Leads ('"' :: s) (tracedText s) Prod.snd := by
  intro noted e noted' hrun
  rw [tracedText, text] at hrun
  cases hbody : textBody s with
  | none =>
    rw [hbody] at hrun
    cases hrun
  | some found =>
    rw [hbody] at hrun
    obtain ⟨rfl, rfl⟩ := Prod.mk.inj (Except.ok.inj hrun)
    exact ⟨[⟨'"' :: s, found.2⟩], rfl, .text hbody (.stop found.2)⟩

theorem leads_identifier (s : List Char) : Leads s (liftM (identifier s)) Prod.snd := by
  apply Leads.of_lift
  rintro ⟨name, r⟩ h
  exact (skips_of_identifier h).1

theorem leads_expect {c : Char} (hc : c ≠ '"') (s : List Char) :
    Leads s (liftM (expect c s)) id :=
  .of_lift fun _ h => (skips_of_expect hc h).1

theorem leads_numeric (s : List Char) : Leads s (liftM (numeric s)) Prod.snd := by
  apply Leads.of_lift
  rintro ⟨v, r⟩ h
  exact skips_of_numeric h

/-- The scanner notes all the texts on its way. -/
theorem leads_values (n : Nat) :
    (∀ s, Leads s (tracedValueFrom n s) Prod.snd)
      ∧ (∀ s, Leads s (tracedFieldsFrom n s) Prod.snd)
      ∧ ∀ acc s, Leads s (tracedAssignmentsFrom n acc s) Prod.snd := by
  -- the three call each other with less fuel
  induction n with
  | zero => exact ⟨fun _ => .of_throw _, fun _ => .of_throw _, fun _ _ => .of_throw _⟩
  | succ n ih =>
    obtain ⟨ihValue, ihFields, ihAssignments⟩ := ih
    refine ⟨fun s => ?value, fun s => ?fields, fun acc s => ?assignments⟩
    case value =>
      rw [tracedValueFrom]
      apply Leads.of_skips (skips_skipSpaces s)
      split
      · next r heq =>
        rw [heq]
        exact (leads_text r).bind fun e => .of_pure (.refl e.2)
      · next r heq =>
        rw [heq]
        apply Leads.of_skips (.cons (by decide) r)
        exact (ihFields r).bind fun e => .of_pure (.refl e.2)
      · exact leads_numeric _
    case fields =>
      rw [tracedFieldsFrom]
      apply Leads.of_skips (skips_skipSpaces s)
      split
      · next r heq =>
        rw [heq]
        exact .of_pure (.cons (by decide) r)
      · exact ihAssignments [] _
    case assignments =>
      rw [tracedAssignmentsFrom]
      refine (leads_identifier s).bind fun key => (leads_expect (by decide) key.2).bind fun r => ?_
      refine (ihValue r).bind fun v => ?_
      apply Leads.of_skips (skips_skipSpaces v.2)
      dsimp only
      split
      · next r heq =>
        rw [heq]
        exact .of_skips (.cons (by decide) r) (ihAssignments _ r)
      · next r heq =>
        rw [heq]
        exact .of_pure (.cons (by decide) r)
      · exact .of_throw _

theorem leads_value (s : List Char) : Leads s (tracedValue s) Prod.snd :=
  (leads_values _).1 s

theorem leads_mapping (s : List Char) : Leads s (tracedMapping s) Prod.snd :=
  (leads_expect (by decide) s).bind fun r => (leads_values _).2.1 r

/-- Where nothing but spaces is left, the line is at its end. -/
theorem skips_of_atEnd (h : atEnd s = true) : Skips s [] := by
  have hspaces := skips_skipSpaces s
  rwa [List.isEmpty_iff.mp h] at hspaces

/-- What only answers at the end of a line leads there. -/
theorem leads_end {α : Type} (s : List Char) (a : α) (complaint : Complaint) :
    Leads s (if atEnd s then return a else throw complaint) fun _ => [] := by
  apply Leads.of_if
  · exact fun hend => .of_pure (skips_of_atEnd hend)
  · exact fun _ => .of_throw complaint

end Scanner

namespace Script

/-! ## Section 4: Lines -/

theorem skips_of_readOpening {p q : Progress} {s : List Char} (h : readOpening p s = .ok q) :
    Skips s [] := by
  rw [readOpening] at h
  obtain ⟨⟨word, r⟩, hword, h⟩ := bind_eq_ok.mp h
  dsimp only at h
  split at h
  · cases h
  · obtain ⟨⟨name, r'⟩, hname, h⟩ := bind_eq_ok.mp h
    dsimp only at h
    split at h
    · cases h
    · obtain ⟨r'', hbrace, h⟩ := bind_eq_ok.mp h
      split at h
      · next hend =>
        apply (skips_of_identifier hword).1.trans
        apply (skips_of_identifier hname).1.trans
        exact (skips_of_expect (by decide) hbrace).1.trans (skips_of_atEnd hend)
      · cases h

theorem leads_statement (line : Nat) (chained : Bool) (s : List Char) :
    Leads s (tracedStatement line chained s) fun _ => [] := by
  rw [tracedStatement]
  split
  · exact .of_throw _
  · next r hset =>
    apply Leads.of_skips (skips_of_keyword? hset)
    refine (leads_identifier r).bind fun name => (leads_mapping name.2).bind fun properties => ?_
    refine (leads_value properties.2).bind fun duration => ?_
    dsimp only
    split
    · exact leads_end duration.2 _ _
    · -- a length that is no number of seconds
      exact .of_throw _

theorem leads_inside (p : Progress) (d : Definition) (s : List Char) :
    Leads s (tracedInside p d s) fun _ => [] := by
  rw [tracedInside]
  apply Leads.of_skips (skips_skipSpaces s)
  split
  · next r heq =>
    rw [heq]
    exact .of_skips (.cons (by decide) r) (leads_end r _ _)
  · refine (leads_identifier _).bind fun key => (leads_expect (by decide) key.2).bind fun r => ?_
    exact (leads_value r).bind fun v => leads_end v.2 _ _

theorem leads_set (p : Progress) (line : Nat) (s : List Char) :
    Leads s (tracedSet p line s) fun _ => [] := by
  have hrest : ∀ statement : Statement, Leads []
      (if p.declared.contains statement.name then return { p with sets := p.sets ++ [statement] }
        else throw (.notDeclared statement.name)) fun _ => [] := by
    intro statement
    exact .of_if (fun _ => .of_pure (.refl [])) fun _ => .of_throw _
  rw [tracedSet]
  split
  · next r hthen =>
    exact .of_skips (skips_of_keyword? hthen) ((leads_statement line true r).bind hrest)
  · exact (leads_statement line false s).bind hrest

/-- A line that is read is read to its end, and all of its texts are noted. -/
theorem leads_line (p : Progress) (line : Nat) (s : List Char) :
    Leads s (tracedLine p line s) fun _ => [] := by
  rw [tracedLine]
  refine .of_if (fun _ => .of_throw _) fun _ => ?_
  split
  · exact leads_inside p _ s
  · split
    · next r hdef =>
      -- the line that opens a definition holds no text
      apply Leads.of_skips (skips_of_keyword? hdef)
      exact .of_lift fun q h => skips_of_readOpening h
    · exact leads_set p line s

theorem scans_of_tracedLines {p q : Progress} {line : Nat} {ls : List (List Char)}
    {literals : List (List Literal)} (h : tracedLines p line ls = .ok (q, literals)) :
    List.Forall₂ (fun s xs => Scans s xs []) ls literals := by
  induction ls generalizing p line literals with
  | nil =>
    obtain ⟨-, rfl⟩ := Prod.mk.inj (Except.ok.inj h)
    exact .nil
  | cons l r ih =>
    rw [tracedLines] at h
    split at h
    · next p' xs hline =>
      obtain ⟨⟨q', others⟩, hothers, heq⟩ := map_eq_ok.mp h
      obtain ⟨rfl, rfl⟩ := Prod.mk.inj heq
      obtain ⟨xs', rfl, hscans⟩ := leads_line p line l [] p' xs hline
      exact .cons hscans (ih hothers)
    · cases h

/-- In a script that is read, each line is a row of the texts that are noted for it. -/
theorem scans_of_tracedParse {s : List Char} {script : Script} {literals : List (List Literal)}
    (h : tracedParse s = .ok (script, literals)) :
    List.Forall₂ (fun l xs => Scans l xs []) (linesOf s) literals := by
  obtain ⟨⟨p, read⟩, hlines, hend⟩ := bind_eq_ok.mp h
  dsimp only at hend
  split at hend
  · cases hend
  · obtain ⟨-, rfl⟩ := Prod.mk.inj (Except.ok.inj hend)
    exact scans_of_tracedLines hlines

end Script

end Overlay
