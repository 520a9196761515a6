import Overlay.Proofs.Number.Digits
import Overlay.Script.Scanner

/-!
# The grammar of written numbers

Which texts are numbers: an optional minus sign, digits with at most one point among or around them,
and perhaps an exponent.  The scanner takes such a text from the front of a line, and takes all of
it unless the line goes on with what would belong to it.

## Main definitions
- `IsMagnitude`, `IsExponent`, `IsNumber`: the texts that are numbers
- `continues`: the characters that would belong to a number in front of them

## Main statements
- `isNumber_of_number?`: what the scanner takes is a number
- `number?_append`: the scanner stops right behind a number
- `isWholeText_iff`: a number is whole as it is written if no point and no exponent mark is in it
-/

namespace Overlay.Number

open Overlay.Text

/-! ## Section 1: Grammar -/

/-- A row of digits of any script. -/
def DecimalDigits (ds : List Char) : Prop :=
  ∀ c ∈ ds, isDecimalDigit c = true

theorem Digits.decimalDigits {ds : List Char} (h : Digits ds) : DecimalDigits ds :=
  fun c hc => isDecimalDigit_of_isDigit (h c hc)

/-- Digits, with a point among or around them. -/
inductive IsMagnitude : List Char → Prop where
  | whole {ds : List Char} (hds : DecimalDigits ds) (hne : ds ≠ []) : IsMagnitude ds
  | pointed {ds ps : List Char} (hds : DecimalDigits ds) (hps : DecimalDigits ps)
      (hne : ds ≠ [] ∨ ps ≠ []) : IsMagnitude (ds ++ '.' :: ps)

/-- Nothing, or a mark with the digits of an exponent. -/
inductive IsExponent : List Char → Prop where
  | none : IsExponent []
  | raised {e : Char} {sign ds : List Char} (he : e = 'e' ∨ e = 'E')
      (hsign : sign = [] ∨ sign = ['-'] ∨ sign = ['+']) (hds : DecimalDigits ds) (hne : ds ≠ []) :
      IsExponent (e :: (sign ++ ds))

/-- A number as it is written. -/
def IsNumber (w : List Char) : Prop :=
  ∃ sign ms e, w = sign ++ (ms ++ e) ∧ (sign = [] ∨ sign = ['-']) ∧ IsMagnitude ms ∧ IsExponent e

/-! ## Section 2: What may follow -/

/-- Whether a character behind a number would belong to it. -/
def continues (c : Char) : Bool :=
  isDecimalDigit c || c = '.' || c = 'e' || c = 'E'

theorem isDecimalDigit_of_not_continues {c : Char} (h : continues c = false) :
    isDecimalDigit c = false := by
  simp only [continues, Bool.or_eq_false_iff] at h
  exact h.1.1.1

theorem StartsOutside.not_digit {s : List Char} (h : StartsOutside continues s) :
    StartsOutside isDecimalDigit s :=
  fun c hc => isDecimalDigit_of_not_continues (h c hc)

/-- An exponent mark ends the digits in front of it. -/
theorem IsExponent.startsOutside {e rest : List Char} (he : IsExponent e)
    (hrest : StartsOutside continues rest) :
    StartsOutside isDecimalDigit (e ++ rest) ∧ ∀ r, e ++ rest ≠ '.' :: r := by
  cases he with
  | none =>
    refine ⟨hrest.not_digit, ?_⟩
    intro r hr
    have := hrest '.' (by rw [← List.nil_append rest, hr]; rfl)
    cases this
  | @raised e sign ds he =>
    constructor
    · refine StartsOutside.cons ?_ _
      rcases he with rfl | rfl <;> decide
    · rintro r hr
      obtain rfl := (List.cons.inj hr).1
      rcases he with h | h <;> exact absurd h (by decide)

/-- A text splits behind the digits at its front. -/
theorem exists_spanDigits (s : List Char) :
    ∃ ds r, s = ds ++ r ∧ DecimalDigits ds ∧ StartsOutside isDecimalDigit r := by
  refine ⟨s.takeWhile isDecimalDigit, s.dropWhile isDecimalDigit,
    List.takeWhile_append_dropWhile.symm, fun c hc => List.mem_takeWhile_imp hc, ?_⟩
  intro c hc
  have hhead := List.head?_dropWhile_not isDecimalDigit s
  rw [Option.mem_def.mp hc] at hhead
  exact hhead

theorem spanDigits_decimal {ds r : List Char} (hds : DecimalDigits ds)
    (hr : StartsOutside isDecimalDigit r) : spanDigits (ds ++ r) = (ds, r) :=
  span_append hds hr

/-- A magnitude starts with a digit or a point. -/
theorem IsMagnitude.exists_cons {ms : List Char} (h : IsMagnitude ms) :
    ∃ c r, ms = c :: r ∧ (isDecimalDigit c = true ∨ c = '.') := by
  cases h with
  | whole hds hne =>
    cases ms with
    | nil => exact absurd rfl hne
    | cons c r => exact ⟨c, r, rfl, Or.inl (hds c List.mem_cons_self)⟩
  | @pointed ds ps hds _ _ =>
    cases ds with
    | nil => exact ⟨'.', ps, rfl, Or.inr rfl⟩
    | cons c r => exact ⟨c, r ++ '.' :: ps, rfl, Or.inl (hds c List.mem_cons_self)⟩

/-! ## Section 3: Scanning -/

/-- A text without a point in front goes on with the digits alone. -/
theorem pointedDigits_of_ne_point {ds r : List Char} (hds : DecimalDigits ds)
    (hr : StartsOutside isDecimalDigit r) (hpoint : ∀ t, r ≠ '.' :: t) :
    Scanner.pointedDigits (ds ++ r) = (ds, r) := by
  unfold Scanner.pointedDigits
  simp only [spanDigits_decimal hds hr]

/-- The digits on both sides of a point are taken with it. -/
theorem pointedDigits_point {ds ps r : List Char} (hds : DecimalDigits ds) (hps : DecimalDigits ps)
    (hr : StartsOutside isDecimalDigit r) :
    Scanner.pointedDigits (ds ++ '.' :: (ps ++ r))
      = if ds.isEmpty && ps.isEmpty then ([], ds ++ '.' :: (ps ++ r)) else (ds ++ '.' :: ps, r) := by
  have hdot : StartsOutside isDecimalDigit ('.' :: (ps ++ r)) := StartsOutside.cons (by decide) _
  unfold Scanner.pointedDigits
  simp only [spanDigits_decimal hds hdot, spanDigits_decimal hps hr]

/-- The digits of a number are taken as a whole. -/
theorem IsMagnitude.pointedDigits_append {ms rest : List Char} (h : IsMagnitude ms)
    (hrest : StartsOutside isDecimalDigit rest) (hpoint : ∀ r, rest ≠ '.' :: r) :
    Scanner.pointedDigits (ms ++ rest) = (ms, rest) := by
  cases h with
  | whole hds hne => exact pointedDigits_of_ne_point hds hrest hpoint
  | @pointed ds ps hds hps hne =>
    rw [List.append_assoc, List.cons_append, pointedDigits_point hds hps hrest, if_neg]
    simpa [List.isEmpty_iff, Decidable.or_iff_not_imp_left] using hne

/-- What is taken as digits is a magnitude, or nothing. -/
theorem isMagnitude_of_pointedDigits {s ms r : List Char}
    (h : Scanner.pointedDigits s = (ms, r)) (hne : ms ≠ []) : IsMagnitude ms ∧ s = ms ++ r := by
  obtain ⟨ds, t, rfl, hds, ht⟩ := exists_spanDigits s
  -- what stands behind the digits decides whether there is a point
  by_cases hpoint : ∃ u, t = '.' :: u
  · obtain ⟨u, rfl⟩ := hpoint
    obtain ⟨ps, v, rfl, hps, hv⟩ := exists_spanDigits u
    rw [pointedDigits_point hds hps hv] at h
    split at h
    · rw [← (Prod.mk.inj h).1] at hne
      exact absurd rfl hne
    · next hsome =>
      obtain ⟨rfl, rfl⟩ := Prod.mk.inj h
      refine ⟨.pointed hds hps ?_, by simp⟩
      simpa [List.isEmpty_iff, Decidable.or_iff_not_imp_left] using hsome
  · rw [pointedDigits_of_ne_point hds ht (fun u hu => hpoint ⟨u, hu⟩)] at h
    obtain ⟨rfl, rfl⟩ := Prod.mk.inj h
    exact ⟨.whole hds hne, rfl⟩

/-- Where no exponent mark comes next, there is no exponent. -/
theorem exponentPart_of_ne_mark {s : List Char} (h : ∀ c ∈ s.head?, c ≠ 'e' ∧ c ≠ 'E') :
    Scanner.exponentPart s = ([], s) := by
  cases s with
  | nil => rfl
  | cons c r =>
    obtain ⟨h1, h2⟩ := h c rfl
    simp [Scanner.exponentPart, h1, h2]

/-- A digit is no sign. -/
theorem ne_sign_of_isDecimalDigit {c : Char} (h : isDecimalDigit c = true) : c ≠ '-' ∧ c ≠ '+' := by
  constructor
  · rintro rfl
    exact absurd h (by decide)
  · rintro rfl
    exact absurd h (by decide)

/-- The digits behind an exponent mark and an optional sign are taken with them. -/
theorem exponentPart_mark {e : Char} (he : e = 'e' ∨ e = 'E') {sign ds r : List Char}
    (hsign : sign = [] ∨ sign = ['-'] ∨ sign = ['+']) (hds : DecimalDigits ds) (hne : ds ≠ [])
    (hr : StartsOutside isDecimalDigit r) :
    Scanner.exponentPart (e :: (sign ++ (ds ++ r))) = (e :: (sign ++ ds), r) := by
  have hmark : (decide (e = 'e') || decide (e = 'E')) = true := by
    simpa using he
  have hempty : ds.isEmpty = false := List.isEmpty_eq_false_iff.mpr hne
  have hspan := spanDigits_decimal hds hr
  unfold Scanner.exponentPart
  rcases hsign with rfl | rfl | rfl
  · obtain ⟨c, t, rfl⟩ := List.exists_cons_of_ne_nil hne
    obtain ⟨hminus, hplus⟩ := ne_sign_of_isDecimalDigit (hds c List.mem_cons_self)
    rw [List.cons_append] at hspan
    simp [hmark, hminus, hplus, hspan]
  · simp [hmark, hspan, hempty]
  · simp [hmark, hspan, hempty]

/-- An exponent is taken as a whole. -/
theorem IsExponent.exponentPart_append {e rest : List Char} (h : IsExponent e)
    (hrest : StartsOutside continues rest) : Scanner.exponentPart (e ++ rest) = (e, rest) := by
  cases h with
  | none =>
    refine exponentPart_of_ne_mark ?_
    intro c hc
    have hno := hrest c hc
    simp only [continues, Bool.or_eq_false_iff, decide_eq_false_iff_not] at hno
    exact ⟨hno.1.2, hno.2⟩
  | raised he hsign hds hne =>
    rw [List.cons_append, List.append_assoc, exponentPart_mark he hsign hds hne hrest.not_digit]

/-- What is taken as an exponent is one. -/
theorem isExponent_of_exponentPart {s e r : List Char} (h : Scanner.exponentPart s = (e, r)) :
    IsExponent e ∧ s = e ++ r := by
  have hnothing : (([] : List Char), s) = (e, r) → IsExponent e ∧ s = e ++ r := by
    rintro ⟨⟩
    exact ⟨.none, rfl⟩
  cases s with
  | nil => exact hnothing h
  | cons m t =>
    -- a mark without digits behind it is not taken
    simp only [Scanner.exponentPart] at h
    split at h
    · next hmark =>
      have hmark : m = 'e' ∨ m = 'E' := by simpa using hmark
      split at h
      · next c u =>
        split at h
        · next hsign =>
          have hsign : [c] = [] ∨ [c] = ['-'] ∨ [c] = ['+'] := by simpa using hsign
          obtain ⟨ds, v, rfl, hds, hv⟩ := exists_spanDigits u
          simp only [spanDigits_decimal hds hv] at h
          split at h
          · exact hnothing h
          · next hne =>
            obtain ⟨rfl, rfl⟩ := Prod.mk.inj h
            rw [List.isEmpty_iff] at hne
            exact ⟨.raised hmark hsign hds hne, rfl⟩
        · obtain ⟨ds, v, hu, hds, hv⟩ := exists_spanDigits (c :: u)
          rw [hu] at h ⊢
          simp only [spanDigits_decimal hds hv] at h
          split at h
          · exact hu ▸ hnothing (hu ▸ h)
          · next hne =>
            obtain ⟨rfl, rfl⟩ := Prod.mk.inj h
            rw [List.isEmpty_iff] at hne
            exact ⟨.raised hmark (Or.inl rfl) hds hne, rfl⟩
      · exact hnothing h
    · exact hnothing h

/-- The magnitude behind the sign of a number starts with no sign. -/
theorem IsMagnitude.ne_sign {ms : List Char} (h : IsMagnitude ms) (r : List Char) :
    ms ≠ '-' :: r ∧ ms ≠ '+' :: r := by
  obtain ⟨c, t, rfl, hc⟩ := h.exists_cons
  have hsign : c ≠ '-' ∧ c ≠ '+' := by
    rcases hc with hc | rfl
    · exact ne_sign_of_isDecimalDigit hc
    · decide
  exact ⟨fun heq => hsign.1 (List.cons.inj heq).1, fun heq => hsign.2 (List.cons.inj heq).1⟩

/-- A number is taken as a whole, and the scanner stops right behind it. -/
theorem number?_append {w rest : List Char} (hw : IsNumber w)
    (hrest : StartsOutside continues rest) : Scanner.number? (w ++ rest) = some (w, rest) := by
  obtain ⟨sign, ms, e, rfl, hsign, hms, he⟩ := hw
  obtain ⟨hdigit, hpoint⟩ := he.startsOutside hrest
  have hbody := hms.pointedDigits_append hdigit hpoint
  have hexp := he.exponentPart_append hrest
  obtain ⟨c, t, hc, -⟩ := hms.exists_cons
  have hempty : ms.isEmpty = false := by
    rw [hc]
    rfl
  have hminus : ∀ u, ms ++ (e ++ rest) ≠ '-' :: u := by
    intro u hu
    rw [hc, List.cons_append] at hu
    exact (hms.ne_sign t).1 (by rw [hc, (List.cons.inj hu).1])
  rcases hsign with rfl | rfl
  · rw [List.nil_append, List.append_assoc]
    unfold Scanner.number?
    simp only [hbody, hempty, hexp, Bool.false_eq_true, if_false, List.nil_append]
  · simp [Scanner.number?, hbody, hexp, hempty]

/-- What the scanner takes is a number. -/
theorem isNumber_of_number? {s w r : List Char} (h : Scanner.number? s = some (w, r)) :
    IsNumber w ∧ s = w ++ r := by
  -- the sign apart, all is decided by the digits and the exponent
  have hbody : ∀ sign t, (sign = [] ∨ sign = ['-']) → s = sign ++ t →
      (if (Scanner.pointedDigits t).1.isEmpty then none
        else some (sign ++ (Scanner.pointedDigits t).1
            ++ (Scanner.exponentPart (Scanner.pointedDigits t).2).1,
          (Scanner.exponentPart (Scanner.pointedDigits t).2).2)) = some (w, r) →
      IsNumber w ∧ s = w ++ r := by
    rintro sign t hsign rfl htaken
    obtain ⟨ms, u, hp⟩ : ∃ ms u, Scanner.pointedDigits t = (ms, u) := ⟨_, _, rfl⟩
    obtain ⟨e, v, hq⟩ : ∃ e v, Scanner.exponentPart u = (e, v) := ⟨_, _, rfl⟩
    obtain ⟨he, rfl⟩ := isExponent_of_exponentPart hq
    simp only [hp, hq] at htaken
    split at htaken
    · cases htaken
    · next hne =>
      rw [List.isEmpty_iff] at hne
      obtain ⟨hms, rfl⟩ := isMagnitude_of_pointedDigits hp hne
      obtain ⟨rfl, rfl⟩ := Prod.mk.inj (Option.some.inj htaken)
      refine ⟨⟨sign, ms, e, List.append_assoc .., hsign, hms, he⟩, ?_⟩
      simp only [List.append_assoc]
  unfold Scanner.number? at h
  dsimp only at h
  split at h
  · next t => exact hbody ['-'] t (Or.inr rfl) rfl h
  · exact hbody [] s (Or.inl rfl) rfl h

/-! ## Section 4: Characters -/

/-- Whether a character that is no digit may be part of a number. -/
def isNumberMark (c : Char) : Bool :=
  c = '.' || c = 'e' || c = 'E' || c = '-' || c = '+'

/-- A number is made of digits, points, exponent marks and signs. -/
theorem IsNumber.char_of_mem {w : List Char} (hw : IsNumber w) {c : Char} (hc : c ∈ w) :
    isDecimalDigit c = true ∨ isNumberMark c = true := by
  obtain ⟨sign, ms, e, rfl, hsign, hms, he⟩ := hw
  rcases List.mem_append.mp hc with hc | hc
  · rcases hsign with rfl | rfl
    · cases hc
    · rw [List.mem_singleton.mp hc]
      exact Or.inr (by decide)
  rcases List.mem_append.mp hc with hc | hc
  · cases hms with
    | whole hds => exact Or.inl (hds c hc)
    | pointed hds hps =>
      rcases List.mem_append.mp hc with hc | hc
      · exact Or.inl (hds c hc)
      · rcases List.mem_cons.mp hc with rfl | hc
        · exact Or.inr (by decide)
        · exact Or.inl (hps c hc)
  · cases he with
    | none => cases hc
    | raised hmark hsign hds =>
      rcases List.mem_cons.mp hc with rfl | hc
      · rcases hmark with rfl | rfl <;> exact Or.inr (by decide)
      · rcases List.mem_append.mp hc with hc | hc
        · rcases hsign with rfl | rfl | rfl
          · cases hc
          · rw [List.mem_singleton.mp hc]
            exact Or.inr (by decide)
          · rw [List.mem_singleton.mp hc]
            exact Or.inr (by decide)
        · exact Or.inl (hds c hc)

/-- A number starts with a digit, a point or a minus sign. -/
theorem IsNumber.exists_cons {w : List Char} (hw : IsNumber w) :
    ∃ c r, w = c :: r ∧ (isDecimalDigit c = true ∨ isNumberMark c = true) := by
  obtain ⟨sign, ms, e, rfl, -, hms, -⟩ := id hw
  obtain ⟨c, t, rfl, -⟩ := hms.exists_cons
  obtain ⟨d, r, hdr⟩ : ∃ d r, sign ++ (c :: t ++ e) = d :: r :=
    List.exists_cons_of_ne_nil (by simp)
  exact ⟨d, r, hdr, hw.char_of_mem (by rw [hdr]; exact List.mem_cons_self)⟩

/-- The letters that mark a hexadecimal number. -/
def isHexMark (c : Char) : Bool :=
  c = 'x' || c = 'X'

/-- A number does not look like a hexadecimal one. -/
theorem hex?_append {w rest : List Char} (hw : IsNumber w) (h : StartsOutside isHexMark rest) :
    Scanner.hex? (w ++ rest) = none := by
  -- the letter behind a zero would be a character of the number, or the first one behind it
  have hmem : ∀ c ∈ w, isHexMark c = false := by
    intro c hc
    cases hmark : isHexMark c with
    | false => rfl
    | true =>
      simp only [isHexMark, Bool.or_eq_true, decide_eq_true_eq] at hmark
      rcases hmark with rfl | rfl
      · exact absurd (hw.char_of_mem hc) (by decide)
      · exact absurd (hw.char_of_mem hc) (by decide)
  have hmark : ∀ c t, w ++ rest = '0' :: c :: t → isHexMark c = false := by
    intro c t heq
    obtain ⟨d, r, rfl, -⟩ := hw.exists_cons
    have htail : r ++ rest = c :: t := (List.cons.inj heq).2
    cases r with
    | nil =>
      rw [List.nil_append] at htail
      exact h c (by rw [htail]; rfl)
    | cons e r =>
      rw [← (List.cons.inj htail).1]
      exact hmem e (List.mem_cons_of_mem d List.mem_cons_self)
  unfold Scanner.hex?
  split
  · next c t heq =>
    have hc : ¬((c = 'x' || c = 'X') = true) := by
      rw [show (c = 'x' || c = 'X') = isHexMark c from rfl, hmark c t heq]
      exact Bool.false_ne_true
    rw [if_neg hc]
  · rfl

/-! ## Section 5: Whole numbers -/

/-- The sign is split off a number. -/
theorem splitSign_append {sign ms : List Char} (hsign : sign = [] ∨ sign = ['-'])
    (hms : IsMagnitude ms) (e : List Char) :
    (splitSign (sign ++ (ms ++ e))).2 = ms ++ e := by
  rcases hsign with rfl | rfl
  · obtain ⟨c, t, rfl, -⟩ := id hms.exists_cons
    have hminus := (hms.ne_sign t).1
    have hplus := (hms.ne_sign t).2
    unfold splitSign
    split
    · next r heq => exact absurd (by rw [(List.cons.inj heq).1]) hminus
    · next r heq => exact absurd (by rw [(List.cons.inj heq).1]) hplus
    · rfl
  · rfl

/-- A number is whole as it is written if no point and no exponent mark is in it. -/
theorem isWholeText_iff {w : List Char} (hw : IsNumber w) :
    Scanner.isWholeText w = true ↔ '.' ∉ w ∧ 'e' ∉ w ∧ 'E' ∉ w := by
  obtain ⟨sign, ms, e, rfl, hsign, hms, he⟩ := hw
  rw [Scanner.isWholeText, splitSign_append hsign hms e, List.all_eq_true]
  constructor
  · intro hall
    have hno : ∀ c, isDecimalDigit c = false → c ≠ '-' → c ∉ sign ++ (ms ++ e) := by
      intro c hc hminus hmem
      rcases List.mem_append.mp hmem with hmem | hmem
      · rcases hsign with rfl | rfl
        · cases hmem
        · exact hminus (List.mem_singleton.mp hmem)
      · rw [hall c hmem] at hc
        cases hc
    exact ⟨hno '.' (by decide) (by decide), hno 'e' (by decide) (by decide),
      hno 'E' (by decide) (by decide)⟩
  · rintro ⟨hpoint, hlower, hupper⟩
    simp only [List.mem_append, not_or] at hpoint hlower hupper
    cases hms with
    | pointed => simp at hpoint
    | whole hds hne =>
      cases he with
      | none =>
        intro c hc
        rw [List.append_nil] at hc
        exact hds c hc
      | raised hmark =>
        rcases hmark with rfl | rfl
        · simp at hlower
        · simp at hupper

end Overlay.Number
