import Overlay.Proofs.Script.Values
import Overlay.Proofs.Value.Sameness

/-!
# Property maps

A property map that is written between braces comes back from the scanner, whatever stands behind its
closing brace.  What comes back is not the map itself: absent fields are gone, truth values are numbers,
and integers under the keys of places and sizes are percentages.  Colors come back as the integers they
were, and texts as they were.

## Main definitions
- `Literal.isExact`, `Literal.areExact`: values that are written without rounding
- `Literal.returned`, `Literal.returnedFields`: what comes back
- `Literal.newName`: what a key is called behind the renaming

## Main statements
- `Literal.readBack_of_isExact`: what is read back from the text of a value is what is returned
- `Literal.distinct_returnedFields`: the keys that come back are pairwise different
- `Literal.mapping_roundTrip`: what comes back from the text of a property map
-/

namespace Overlay.Literal

open Overlay.Text Overlay.Number Overlay.Scanner

attribute [local irreducible] twoTo tenTo Double.unitsInOne

/-! ## Section 1: Values and what comes back -/

mutual

/-- Whether a value is written without rounding: it is absent, a truth value, an integer in the range of
doubles, a text, or a mapping of such values under identifiers. -/
def isExact : Value → Bool
  | .none => true
  | .bool _ => true
  | .int i => decide (i.natAbs < tenTo 308)
  | .text _ => true
  | .dict entries => areExact entries
  | _ => false

/-- Whether the fields of a mapping are written without rounding. -/
def areExact : List (Value × Value) → Bool
  | [] => true
  | (k, v) :: r => isNameKey k && isExact v && areExact r

end

mutual

/-- What comes back for a value under a key. -/
def returned (key : Value) : Value → Value
  | .bool b => .int (if b then 1 else 0)
  | .int i => if isPercentKey key then .text (intText i ++ "%") else .int i
  | .dict entries => .dict (returnedFields entries)
  | v => v

/-- What comes back for the fields of a mapping. -/
def returnedFields : List (Value × Value) → Fields
  | [] => []
  | (k, v) :: r =>
    -- an absent field is not written at all
    if v.isNone then returnedFields r else (k, returned k v) :: returnedFields r

end

/-- What a key of the outermost mapping is called, with or without the new names of attributes. -/
def newName (rename key : Value) : Value :=
  if rename.isNone then key else Emission.scriptKey key

/-! ## Section 2: Exact values -/

mutual

/-- The text of an exact value can be read. -/
theorem isWritable_of_isExact (key : Value) :
    ∀ v : Value, isExact v = true → isWritable key v = true
  | .none, _ => rfl
  | .bool _, _ => rfl
  | .int i, h => by
    rw [isExact, decide_eq_true_eq] at h
    rw [isWritable, hasText_of_lt (by decide) h, Bool.or_true]
  | .text _, _ => rfl
  | .dict entries, h => by
    rw [isExact] at h
    rw [isWritable]
    exact areWritable_of_areExact entries h

theorem areWritable_of_areExact :
    ∀ entries : List (Value × Value), areExact entries = true → areWritable entries = true
  | [], _ => rfl
  | (k, v) :: r, h => by
    simp only [areExact, Bool.and_eq_true] at h
    simp [areWritable, h.1.1, isWritable_of_isExact k v h.1.2, areWritable_of_areExact r h.2]

end

/-- The keys of percentages do not name colors. -/
theorem isColor_of_isPercentKey {key : Value} (h : isPercentKey key = true) (n : Number) :
    isColor key n = false := by
  cases key with
  | text s =>
    have hname : s = "x" ∨ s = "y" ∨ s = "fontSize" := by
      simpa [isPercentKey, percentKeys] using h
    rcases hname with rfl | rfl | rfl <;> rfl
  | _ => cases h

/-- An integer comes back as it was, unless it is a percentage. -/
theorem readBackNumber_int (key : Value) {i : Int} (h : i.natAbs < tenTo 308) :
    readBackNumber key (.int i) (.int i) = returned key (.int i) := by
  rw [readBackNumber, returned]
  cases hpercent : isPercentKey key with
  | true =>
    -- a percentage is its digits with the mark behind them
    rw [isColor_of_isPercentKey hpercent, number_int]
    simp [intText, String.ofList_append]
  | false =>
    rw [bare_int h]
    simp [wholePart]

/-! ## Section 3: Mappings -/

theorem exists_mem_of_returnedFields {entries : List (Value × Value)} {e : Value × Value}
    (h : e ∈ returnedFields entries) : ∃ v, (e.1, v) ∈ entries := by
  induction entries with
  | nil => cases h
  | cons d r ih =>
    obtain ⟨k, v⟩ := d
    rw [returnedFields] at h
    split at h
    · obtain ⟨w, hw⟩ := ih h
      exact ⟨w, List.mem_cons_of_mem _ hw⟩
    · rcases List.mem_cons.mp h with rfl | hr
      · exact ⟨v, List.mem_cons_self⟩
      · obtain ⟨w, hw⟩ := ih hr
        exact ⟨w, List.mem_cons_of_mem _ hw⟩

/-- The keys that come back are pairwise different. -/
theorem distinct_returnedFields {entries : List (Value × Value)} (h : Fields.Distinct entries) :
    Fields.Distinct (returnedFields entries) := by
  induction entries with
  | nil => exact List.Pairwise.nil
  | cons e r ih =>
    obtain ⟨k, v⟩ := e
    obtain ⟨hhead, htail⟩ := List.pairwise_cons.mp h
    rw [returnedFields]
    split
    · exact ih htail
    · refine List.pairwise_cons.mpr ⟨fun d hd => ?_, ih htail⟩
      obtain ⟨w, hw⟩ := exists_mem_of_returnedFields hd
      exact hhead (d.1, w) hw

mutual

/-- What is read back from the text of a value is what is returned for it. -/
theorem readBack_of_isExact (key : Value) :
    ∀ v : Value, isExact v = true → v.isProper = true → readBack key v = returned key v
  | .none, _, _ => rfl
  | .bool _, _, _ => rfl
  | .int i, h, _ => by
    rw [isExact, decide_eq_true_eq] at h
    rw [readBack, readBackNumber_int key h]
  | .text _, _, _ => rfl
  | .dict entries, h, hproper => by
    rw [isExact] at h
    obtain ⟨hdistinct, hentries⟩ := Value.isProper_dict.mp hproper
    rw [readBack, returned, Fields.assign_eq_merge, readBackFields_of_areExact entries h hentries,
      Fields.merge_nil (distinct_returnedFields hdistinct)]

theorem readBackFields_of_areExact :
    ∀ entries : List (Value × Value), areExact entries = true →
      (∀ e ∈ entries, e.1.isProper = true ∧ e.2.isProper = true) →
      (readBackFields entries).map (fun e => (Value.text e.1, e.2)) = returnedFields entries
  | [], _, _ => rfl
  | (k, v) :: r, h, hproper => by
    simp only [areExact, Bool.and_eq_true] at h
    obtain ⟨hentry, hrest⟩ := List.forall_mem_cons.mp hproper
    have ih := readBackFields_of_areExact r h.2 hrest
    rw [readBackFields, returnedFields]
    split
    · exact ih
    · have hkey : Value.text k.shown = k := by
        cases k with
        | text s => rfl
        | _ => cases h.1.1
      rw [List.map_cons, ih, hkey, readBack_of_isExact k v h.1.2 hentry.2]

end

/-! ## Section 4: Round trips -/

/-- Without new names, the fields of a mapping are written under their own keys. -/
theorem renamedFields_none {fs : Fields} (h : areWritable fs = true) :
    renamedFields .none fs = fields fs := by
  induction fs with
  | nil => rfl
  | cons e r ih =>
    obtain ⟨k, v⟩ := e
    simp only [areWritable, Bool.and_eq_true] at h
    rw [renamedFields, fields]
    cases value k v with
    | error fault => rfl
    | ok text =>
      rw [ok_bind, ok_bind, ih h.2]
      -- both go on with the other fields, one after and one before looking at the text
      cases hempty : text.isEmpty with
      | true => cases fields r <;> simp
      | false => simp [renamed, written_of_hasText (hasText_of_isNameKey h.1.1)]

/-- The parts that a property map is written as, and what they assign. -/
theorem exists_parts_of_renamed {fs : Fields} (hexact : areExact fs = true)
    (hproper : (Value.dict fs).isProper = true) {rename : Value}
    (hrename : rename = .none ∨ rename = Emission.renames) :
    ∃ parts : List Assigned, renamedFields rename fs = .ok (parts.map Assigned.chars)
      ∧ (∀ a ∈ parts, a.Sound)
      ∧ (parts.map Assigned.field).map (fun e => (Value.text e.1, e.2))
        = (returnedFields fs).map fun e => (newName rename e.1, e.2) := by
  have hwritable := areWritable_of_areExact fs hexact
  have hback := readBackFields_of_areExact fs hexact (Value.isProper_dict.mp hproper).2
  rcases hrename with rfl | rfl
  · obtain ⟨parts, hparts, hsound, hfields⟩ := fields_reads hwritable
    refine ⟨parts, ?_, hsound, ?_⟩
    · rw [renamedFields_none hwritable, hparts]
    · rw [hfields, hback]
      simp [newName, Value.isNone]
  · obtain ⟨parts, hparts, hsound, hfields⟩ := renamedFields_reads hwritable
    refine ⟨parts, hparts, hsound, ?_⟩
    rw [hfields, readBackProperties, ← hback]
    simp [newName, Emission.renames, Value.isNone, scriptKey_text]

/-- A property map can be written, and comes back from its text up to the closing brace, whatever
stands behind it: absent fields are dropped, keys of the outermost mapping are renamed, and a later
field replaces the value of an earlier one that has got the same name. -/
theorem mapping_roundTrip {fs : Fields} (hexact : areExact fs = true)
    (hproper : (Value.dict fs).isProper = true) {rename : Value}
    (hrename : rename = .none ∨ rename = Emission.renames) :
    ∃ text, mapping (.dict fs) rename = .ok text
      ∧ ∀ rest, Scanner.value (text ++ rest)
        = .ok (.dict (Fields.merge []
            ((returnedFields fs).map fun e => (newName rename e.1, e.2))), rest) := by
  obtain ⟨parts, hparts, hsound, hfields⟩ := exists_parts_of_renamed hexact hproper hrename
  refine ⟨braced (parts.map Assigned.chars), ?_, fun rest => ?_⟩
  · rw [mapping, hparts, ok_map]
  · have hfuel : (braced (parts.map Assigned.chars)).length
        ≤ fuelFor (braced (parts.map Assigned.chars) ++ rest) := by
      rw [fuelFor, List.length_append]
      omega
    rw [Scanner.value, valueFrom_braced hsound hfuel, Fields.assign_eq_merge, hfields]

/-- A map with two names for one attribute, colors below and above zero, percentages, an absent field,
and a map inside. -/
def sampleMap : Fields :=
  [(.text "opacity", .bool true), (.text "x", .int 50), (.text "fillColor", .int (-3)),
    (.text "text", .text "say \"\n\\"), (.text "anchor", .none), (.text "alpha", .int 0),
    (.text "shadow", .dict [(.text "color", .int 255), (.text "opacity", .bool false)])]

theorem mapping_roundTrip_sampleMap :
    ∃ text, mapping (.dict sampleMap) Emission.renames = .ok text
      ∧ ∀ rest, Scanner.value (text ++ rest)
        = .ok (.dict [(.text "alpha", .int 0), (.text "x", .text "50%"),
            (.text "fillColor", .int (-3)), (.text "text", .text "say \"\n\\"),
            (.text "shadow", .dict [(.text "color", .int 255), (.text "opacity", .int 0)])],
          rest) := by
  have hexact : areExact sampleMap = true := by
    decide +kernel
  have hproper : (Value.dict sampleMap).isProper = true := by
    decide +kernel
  have hfifty : intText 50 ++ "%" = "50%" := by
    decide +kernel
  have hback : returnedFields sampleMap
      = [(.text "opacity", .int 1), (.text "x", .text "50%"), (.text "fillColor", .int (-3)),
        (.text "text", .text "say \"\n\\"), (.text "alpha", .int 0),
        (.text "shadow", .dict [(.text "color", .int 255), (.text "opacity", .int 0)])] := by
    rw [← hfifty]
    rfl
  obtain ⟨text, htext, hreads⟩ := mapping_roundTrip hexact hproper (Or.inr rfl)
  refine ⟨text, htext, fun rest => ?_⟩
  rw [hreads, hback]
  rfl

end Overlay.Literal
