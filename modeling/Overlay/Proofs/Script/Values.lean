import Overlay.Proofs.Fields
import Overlay.Proofs.Script.Assignments
import Overlay.Script.Emission

/-!
# Values of a script

What the scanner makes of the text of a value: texts and nested mappings come back, truth values as
numbers, numbers under some keys as percentages or colors.  Absent fields are not written at all.

## Main definitions
- `Literal.readBack`: what the text of a value is read as
- `Literal.isWritable`: the values whose text can be read

## Main statements
- `Literal.value_reads`: the text of a value is read as `readBack` says
- `Literal.mapping_reads`: the same for the properties of a statement
-/

namespace Overlay.Literal

open Overlay.Text Overlay.Number Overlay.Scanner

attribute [local irreducible] twoTo tenTo Double.unitsInOne

/-! ## Section 1: Reading back -/

/-- The part of a number in front of the point. -/
def wholePart : Number → Int
  | .int i => i
  | .float x => x.truncate

/-- What a number under a key is read as. -/
def readBackNumber (key v : Value) (n : Number) : Value :=
  if isColor key n then .int (wholePart n)
  else if isPercentKey key then .text (String.ofList (number v ++ ['%']))
  else bare n

mutual

/-- What the text of a value under a key is read as. -/
def readBack (key : Value) : Value → Value
  | .bool b => .int (if b then 1 else 0)
  | .int i => readBackNumber key (.int i) (.int i)
  | .float x => readBackNumber key (.float x) (.float x)
  | .dict entries => .dict (Fields.assign [] (readBackFields entries))
  | v => v

/-- What the fields of a mapping assign when they are read; absent ones assign nothing. -/
def readBackFields : List (Value × Value) → List (String × Value)
  | [] => []
  | (k, v) :: r =>
    if v.isNone then readBackFields r else (k.shown, readBack k v) :: readBackFields r

end

/-! ## Section 2: Values whose text can be read -/

/-- Whether a key is an identifier. -/
def isNameKey : Value → Bool
  | .text s => isName s.toList
  | _ => false

theorem hasText_of_isNameKey {key : Value} (h : isNameKey key = true) : key.hasText = true := by
  cases key with
  | text s => rfl
  | _ => cases h

mutual

/-- Whether a value under a key has a text that can be read: integers are colors or have not too many
digits, doubles are finite, and mappings have identifiers as keys. -/
def isWritable (key : Value) : Value → Bool
  | .none => true
  | .bool _ => true
  | .int i => isColor key (.int i) || hasText i
  | .float x => x.isFinite
  | .text _ => true
  | .dict entries => areWritable entries
  | _ => false

/-- Whether the fields of a mapping can be read. -/
def areWritable : List (Value × Value) → Bool
  | [] => true
  | (k, v) :: r => isNameKey k && isWritable k v && areWritable r

end

theorem areWritable_iff {fs : Fields} :
    areWritable fs = true ↔ ∀ e ∈ fs, isNameKey e.1 = true ∧ isWritable e.1 e.2 = true := by
  induction fs with
  | nil => simp [areWritable]
  | cons e r ih =>
    obtain ⟨k, v⟩ := e
    simp only [areWritable, Bool.and_eq_true, ih, List.forall_mem_cons]

theorem textKeyed_of_areWritable {fs : Fields} (h : areWritable fs = true) : Fields.TextKeyed fs := by
  intro e he
  have hname := (areWritable_iff.mp h e he).1
  cases hkey : e.1 with
  | text name => exact ⟨name, rfl⟩
  | _ => rw [hkey] at hname; cases hname

/-! ## Section 3: Numbers -/

theorem quoted_int (i : Int) : (Value.int i).shown.toList = intChars i := by
  rw [Value.shown, Value.quoted, intText, String.toList_ofList]
  · intro _ h
    cases h
  · intro _ h
    cases h

theorem number_int (i : Int) : number (.int i) = intChars i := by
  rw [number, quoted_int]
  · intro _ h
    cases h
  · intro _ h
    cases h

theorem written_of_hasText {v : Value} (h : v.hasText = true) (text : List Char) :
    written v text = .ok text :=
  if_pos h

theorem under_of_hasText {key : Value} (h : key.hasText = true) (text : Result (List Char)) :
    under key text = text :=
  if_pos h

/-- A number that is not written as a color is read as a number or a percentage. -/
theorem numberUnder_reads {key v : Value} {n : Number} (hcolor : isColor key n = false)
    (hv : v.hasText = true) {w : Spelling} (hw : IsSpelling (number v) (bare n) w) :
    ∃ text, numberUnder key v n = .ok text ∧ Reads text (readBackNumber key v n) := by
  unfold numberUnder readBackNumber
  rw [hcolor]
  cases hpercent : isPercentKey key with
  | true => exact ⟨number v ++ ['%'], written_of_hasText hv _, hw.reads_percent⟩
  | false => exact ⟨number v, written_of_hasText hv _, hw.reads⟩

/-- A color is read as its whole part. -/
theorem numberUnder_color_reads {key v : Value} {n : Number} (hcolor : isColor key n = true)
    (hint : v.toInt = .ok (wholePart n)) (hpos : 0 ≤ wholePart n) :
    ∃ text, numberUnder key v n = .ok text ∧ Reads text (readBackNumber key v n) := by
  refine ⟨color (wholePart n).toNat, ?_, ?_⟩
  · rw [numberUnder, if_pos hcolor, hint, ok_bind, pure_eq_ok]
  · have hreads := reads_color (wholePart n).toNat
    rw [Int.toNat_of_nonneg hpos] at hreads
    rw [readBackNumber, if_pos hcolor]
    exact hreads

theorem nonneg_of_isColor_int {key : Value} {i : Int} (h : isColor key (.int i) = true) :
    0 ≤ i := by
  rw [isColor, Bool.and_eq_true, Number.le_int, decide_eq_true_eq] at h
  exact h.2

/-- The whole part of a color is not negative. -/
theorem nonneg_of_isColor_float {key : Value} {x : Double} (h : isColor key (.float x) = true) :
    0 ≤ x.truncate := by
  cases x with
  | nan => simp [Double.truncate, Double.units]
  | infinite s => simp [Double.truncate, Double.units]
  | finite s m p hf =>
    have hunits : 0 ≤ (Double.finite s m p hf).units := by
      simp only [isColor, Bool.and_eq_true, Number.le, Number.place?, Double.place?,
        Double.Place.ofInt, Double.Place.before, Int.zero_mul, Bool.not_eq_true',
        Bool.or_eq_false_iff, Bool.and_eq_false_imp, decide_eq_true_eq, decide_eq_false_iff_not] at h
      have := h.2.2 trivial
      rw [Double.units]
      omega
    exact Int.tdiv_nonneg hunits (Int.natCast_nonneg _)

theorem int_reads {key : Value} {i : Int} (h : isWritable key (.int i) = true) :
    ∃ text, numberUnder key (.int i) (.int i) = .ok text
      ∧ Reads text (readBackNumber key (.int i) (.int i)) := by
  cases hcolor : isColor key (.int i) with
  | true => exact numberUnder_color_reads hcolor rfl (nonneg_of_isColor_int hcolor)
  | false =>
    have hspelling := isSpelling_int i
    rw [← number_int] at hspelling
    rw [isWritable, hcolor, Bool.false_or] at h
    exact numberUnder_reads hcolor h hspelling

theorem float_reads {key : Value} {x : Double} (h : x.isFinite = true) :
    ∃ text, numberUnder key (.float x) (.float x) = .ok text
      ∧ Reads text (readBackNumber key (.float x) (.float x)) := by
  cases hcolor : isColor key (.float x) with
  | true =>
    have hint : (Value.float x).toInt = .ok x.truncate := by
      cases x with
      | nan => cases h
      | infinite s => cases h
      | finite s m p hf => rfl
    exact numberUnder_color_reads hcolor hint (nonneg_of_isColor_float hcolor)
  | false =>
    obtain ⟨w, hw⟩ := exists_isSpelling_double h
    exact numberUnder_reads hcolor rfl hw

/-! ## Section 4: Values -/

/-- Truth values are read as one and zero. -/
theorem bool_reads (b : Bool) : Reads (number (.bool b)) (.int (if b then 1 else 0)) := by
  have hsmall : (if b then 1 else 0 : Int).natAbs < tenTo 308 := by
    cases b <;> decide +kernel
  have hchars : number (.bool b) = intChars (if b then 1 else 0) := by
    cases b <;> decide +kernel
  have hreads := (isSpelling_int (if b then 1 else 0)).reads
  rw [bare_int hsmall, ← hchars] at hreads
  exact hreads

theorem value_of_isNone (key : Value) {v : Value} (hv : v.isNone = true) :
    value key v = .ok [] := by
  cases v <;> first | rfl | cases hv

/-- A field with a name as its key and a text that is read. -/
theorem exists_assigned {k v : Value} {text : List Char} (hkey : isNameKey k = true)
    (h : Reads text v) :
    ∃ a : Assigned, a.Sound ∧ a.chars = assignment k text ∧ a.field = (k.shown, v) := by
  cases k with
  | text s => exact ⟨⟨s, text, v⟩, ⟨hkey, h⟩, rfl, rfl⟩
  | _ => cases hkey

mutual

/-- The text of a value that is there is read as `readBack` says. -/
theorem value_reads {key : Value} (hkey : key.hasText = true) {v : Value}
    (h : isWritable key v = true) (hv : v.isNone = false) :
    ∃ text, value key v = .ok text ∧ Reads text (readBack key v) := by
  cases v with
  | none => cases hv
  | bool b => exact ⟨_, under_of_hasText hkey _, bool_reads b⟩
  | int i =>
    rw [value, under_of_hasText hkey]
    exact int_reads h
  | float x =>
    rw [value, under_of_hasText hkey]
    exact float_reads h
  | text s => exact ⟨_, under_of_hasText hkey _, reads_quote s⟩
  | dict entries =>
    obtain ⟨parts, hparts, hsound, hfields⟩ := fields_reads h
    refine ⟨braced (parts.map Assigned.chars), ?_, ?_⟩
    · rw [value, under_of_hasText hkey, hparts, ok_bind, pure_eq_ok]
    · rw [readBack, ← hfields]
      exact reads_braced hsound
  | date d => cases h
  | list items => cases h
  | tuple items => cases h

/-- The fields of a mapping are written as fields that are read back. -/
theorem fields_reads {entries : List (Value × Value)} (h : areWritable entries = true) :
    ∃ parts : List Assigned, fields entries = .ok (parts.map Assigned.chars)
      ∧ (∀ a ∈ parts, a.Sound) ∧ parts.map Assigned.field = readBackFields entries := by
  cases entries with
  | nil => exact ⟨[], rfl, by simp, rfl⟩
  | cons e r =>
    obtain ⟨k, v⟩ := e
    simp only [areWritable, Bool.and_eq_true] at h
    obtain ⟨⟨hkey, hvalue⟩, hrest⟩ := h
    obtain ⟨parts, hparts, hsound, hfields⟩ := fields_reads hrest
    cases hv : v.isNone with
    | true =>
      have htext := value_of_isNone k hv
      refine ⟨parts, ?_, hsound, ?_⟩
      · rw [fields, htext, ok_bind, hparts]
        rfl
      · rw [readBackFields, if_pos hv, hfields]
    | false =>
      obtain ⟨text, htext, hreads⟩ := value_reads (hasText_of_isNameKey hkey) hvalue hv
      obtain ⟨a, ha, hchars, hfield⟩ := exists_assigned hkey hreads
      refine ⟨a :: parts, ?_, List.forall_mem_cons.mpr ⟨ha, hsound⟩, ?_⟩
      · have hnil : text.isEmpty = false := List.isEmpty_eq_false_iff.mpr hreads.ne_nil
        rw [fields, htext, ok_bind, hparts, ok_bind, hnil, ← hchars]
        rfl
      · rw [readBackFields, if_neg (by simp [hv]), List.map_cons, hfields, hfield]

end

/-! ## Section 5: Properties -/

/-- The name of an attribute in scripts. -/
def scriptName (name : String) : String :=
  if name = Emission.opacityKey then Emission.alphaKey else name

theorem scriptKey_text (name : String) :
    Emission.scriptKey (.text name) = .text (scriptName name) := by
  simp only [Emission.scriptKey, scriptName, Value.same_text, Value.text.injEq]
  split <;> rfl

/-- The table of new names says the same. -/
theorem find?_renames (name : String) :
    (Fields.find? [(.text Emission.opacityKey, .text Emission.alphaKey)] (.text name)).getD
      (.text name) = .text (scriptName name) := by
  unfold Fields.find? scriptName
  by_cases h : Emission.opacityKey = name
  · simp [h, Value.same, Value.sameScalar]
  · have h' : name ≠ Emission.opacityKey := fun heq => h heq.symm
    simp [h, h', Value.same, Value.sameScalar]

theorem isName_scriptName {name : String} (h : isName name.toList = true) :
    isName (scriptName name).toList = true := by
  unfold scriptName
  split
  · decide
  · exact h

/-- The new name of a key that is an identifier is one too, and is written as it is. -/
theorem renamed_renames {k : Value} (h : isNameKey k = true) (text : List Char) :
    (renamed Emission.renames k >>= fun name => written name (assignment name text))
      = .ok (assignment (.text (scriptName k.shown)) text) := by
  cases k with
  | text s =>
    rw [Emission.renames, renamed, ok_bind, find?_renames, written_of_hasText rfl]
    rfl
  | _ => cases h

/-- What the properties of a segment assign when they are read. -/
def readBackProperties (fs : Fields) : List (String × Value) :=
  (readBackFields fs).map fun e => (scriptName e.1, e.2)

/-- A property is written under its new name. -/
theorem exists_assigned_renamed {k v : Value} {text : List Char} (hkey : isNameKey k = true)
    (h : Reads text v) :
    ∃ a : Assigned, a.Sound ∧ a.chars = assignment (.text (scriptName k.shown)) text
      ∧ a.field = (scriptName k.shown, v) := by
  cases k with
  | text s => exact exists_assigned (k := .text (scriptName s)) (isName_scriptName hkey) h
  | _ => cases hkey

theorem renamedFields_reads {fs : Fields} (h : areWritable fs = true) :
    ∃ parts : List Assigned, renamedFields Emission.renames fs = .ok (parts.map Assigned.chars)
      ∧ (∀ a ∈ parts, a.Sound) ∧ parts.map Assigned.field = readBackProperties fs := by
  induction fs with
  | nil => exact ⟨[], rfl, by simp, rfl⟩
  | cons e r ih =>
    obtain ⟨k, v⟩ := e
    simp only [areWritable, Bool.and_eq_true] at h
    obtain ⟨⟨hkey, hvalue⟩, hrest⟩ := h
    obtain ⟨parts, hparts, hsound, hfields⟩ := ih hrest
    unfold readBackProperties at hfields ⊢
    cases hv : v.isNone with
    | true =>
      refine ⟨parts, ?_, hsound, ?_⟩
      · rw [renamedFields, value_of_isNone k hv, ok_bind, ← hparts]
        rfl
      · rw [readBackFields, if_pos hv, hfields]
    | false =>
      obtain ⟨text, htext, hreads⟩ := value_reads (hasText_of_isNameKey hkey) hvalue hv
      obtain ⟨a, ha, hchars, hfield⟩ := exists_assigned_renamed hkey hreads
      refine ⟨a :: parts, ?_, List.forall_mem_cons.mpr ⟨ha, hsound⟩, ?_⟩
      · have hnil : text.isEmpty = false := List.isEmpty_eq_false_iff.mpr hreads.ne_nil
        rw [renamedFields, htext, ok_bind, hnil, List.map_cons, hchars]
        simp only [Bool.false_eq_true, if_false, ← bind_assoc, renamed_renames hkey, ok_bind, hparts,
          pure_eq_ok]
      · rw [readBackFields, if_neg (by simp [hv]), List.map_cons, List.map_cons, hfields, hfield]

/-- The properties of a segment are read as their successive assignments. -/
theorem mapping_reads {fs : Fields} (h : areWritable fs = true) :
    ∃ text, mapping (.dict fs) Emission.renames = .ok text
      ∧ ∀ rest, Scanner.mapping (' ' :: text ++ rest)
        = .ok (Fields.assign [] (readBackProperties fs), rest) := by
  obtain ⟨parts, hparts, hsound, hfields⟩ := renamedFields_reads h
  refine ⟨braced (parts.map Assigned.chars), ?_, ?_⟩
  · rw [mapping, hparts, ok_map]
  · intro rest
    rw [← hfields]
    exact mapping_braced hsound rest

end Overlay.Literal
