import Overlay.Proofs.Script.Blocks
import Overlay.Proofs.Script.LineBreaks

/-!
# Lines of a block

Each line of a block can be seen, and holds a boundary between lines only where one of the texts
of the clip or the resource does.

## Main definitions
- `Tidy`: lines that can be seen and avoid a class of characters
- `Carries`: a property of the attributes of a resource and of the properties of all segments

## Main statements
- `clipLines_tidy`: the lines of a block are tidy
-/

namespace Overlay.Emission

open Overlay.Text Overlay.Number Overlay.Scanner Overlay.Literal

/-! ## Section 1: Lines that can be seen -/

/-- Lines that can be seen and avoid a class of characters. -/
def Tidy (p : Char → Bool) (ls : List (List Char)) : Prop :=
  ∀ l ∈ ls, Avoids p l ∧ isBlankText l = false

/-- Something is true of the attributes of a resource and of the properties of all segments of a
clip. -/
structure Carries (q : Fields → Prop) (clip resource : Value) : Prop where
  attributes : ∀ fs, resource = .dict fs → q fs
  properties : ∀ v items segment fs, clip.look "animations" .none = .ok v → v.items = .ok items →
    segment ∈ items → segment.look "properties" .none = .ok (.dict fs) → q fs

theorem Carries.imp {q r : Fields → Prop} (h : ∀ fs, q fs → r fs) {clip resource : Value}
    (hq : Carries q clip resource) : Carries r clip resource :=
  ⟨fun fs heq => h fs (hq.attributes fs heq),
    fun v items segment fs hv hi hs hp => h fs (hq.properties v items segment fs hv hi hs hp)⟩

section Lines

variable {p : Char → Bool} (hp : MarksBreaks p)

theorem Tidy.nil : Tidy p [] := by
  intro l hl
  cases hl

theorem Tidy.single {l : List Char} (hl : Avoids p l) {c : Char} (hc : c ∈ l)
    (hblank : isBlank c = false) : Tidy p [l] := by
  intro m hm
  rw [List.mem_singleton.mp hm]
  exact ⟨hl, Script.isBlankText_of_mem hc hblank⟩

theorem Tidy.append {ls ms : List (List Char)} (hl : Tidy p ls) (hm : Tidy p ms) :
    Tidy p (ls ++ ms) :=
  List.forall_mem_append.mpr ⟨hl, hm⟩

include hp

/-! ## Section 2: Objects -/

theorem attributeLine_tidy {key : Value} (hkey : isNameKey key = true) {text : List Char}
    (h : Avoids p text) : Tidy p [attributeLine key text] := by
  refine Tidy.single (c := '=') ?_ ?_ (by decide)
  · exact (Avoids.of_marksBreaks hp (by decide)).append (assignment_avoids hp hkey h)
  · simp [attributeLine, assignment]

theorem payloadLine_tidy (kind : ResourceKind) {fs : Fields} (hkeys : NamedFields fs)
    (htexts : EscapableFields p fs) : Yields (Tidy p) (payloadLine kind fs) := by
  have hname : isNameKey (.text kind.payload) = true := by
    cases kind <;> decide
  unfold payloadLine
  dsimp only
  split
  · refine Yields.bind (value_avoids hp _ _ (hkeys.get _) (htexts.get _)) fun text htext => ?_
    exact Yields.ok (attributeLine_tidy hp hname htext)
  · exact Yields.ok Tidy.nil

theorem attributeLines_tidy (delayed : Bool) {fs : Fields} (hkeys : NamedFields fs)
    (htexts : EscapableFields p fs) : Yields (Tidy p) (attributeLines delayed fs) := by
  induction fs with
  | nil => exact Yields.ok Tidy.nil
  | cons e r ih =>
    obtain ⟨k, v⟩ := e
    unfold NamedFields EscapableFields at *
    rw [keysOfFields, List.forall_mem_cons, List.forall_mem_append] at hkeys
    rw [textsOfFields, List.forall_mem_append] at htexts
    have hrest := ih hkeys.2.2 htexts.2
    have hname : isNameKey (scriptKey k) = true := by
      unfold scriptKey
      split
      · decide
      · exact hkeys.1
    rw [attributeLines]
    split
    · exact hrest
    · dsimp only
      split
      · exact hrest
      · refine Yields.bind (value_avoids hp k v hkeys.2.1 htexts.1) fun text htext =>
          Yields.bind hrest fun ls hls => Yields.ok ?_
        split
        · exact hls
        · exact (attributeLine_tidy hp hname htext).append hls

theorem opening_tidy (kind : ResourceKind) {name : List Char} (hname : isName name = true) :
    Tidy p ["def ".toList ++ kind.word.toList ++ ' ' :: name ++ " \x7b".toList] := by
  have hkind : Avoids isLineBreak ("def ".toList ++ kind.word.toList) := by
    cases kind <;> decide
  refine Tidy.single (c := 'd') ?_ ?_ (by decide)
  · exact ((Avoids.of_marksBreaks hp hkind).append (Avoids.cons (hp _ (by decide))
      (name_avoids hp hname))).append (Avoids.of_marksBreaks hp (by decide))
  · simp

theorem declaration_tidy {name : List Char} (hname : isName name = true) (clip : Value)
    {resource : Value} (start : Value) (delayed : Bool) (kind : ResourceKind)
    (hfields : ∀ fs, resource.toFields = .ok fs → NamedFields fs ∧ EscapableFields p fs) :
    Yields (Tidy p) (declaration name clip resource start delayed kind) := by
  have hplain : ∀ s, Avoids isLineBreak s → Avoids p s := fun s hs => Avoids.of_marksBreaks hp hs
  unfold declaration
  refine Yields.bind_any fun fs hfs => ?_
  obtain ⟨hkeys, htexts⟩ := hfields fs hfs
  refine Yields.bind (payloadLine_tidy hp kind hkeys htexts) fun payload hpayload => ?_
  refine Yields.bind (attributeLines_tidy hp delayed hkeys htexts) fun attributes hattributes => ?_
  refine Yields.bind_any fun duration _ => Yields.bind_any fun total _ => ?_
  refine Yields.bind (seconds_avoids hp total) fun seconds hseconds => Yields.ok ?_
  have hkey : isNameKey (.text "duration") = true := by decide
  have hlasting := attributeLine_tidy hp hkey (hseconds.append (hplain ['s'] (by decide)))
  have hhidden : Tidy p (if delayed then [attributeLine (.text alphaKey) ['0']] else []) := by
    split
    · exact attributeLine_tidy hp (by decide) (hplain _ (by decide))
    · exact Tidy.nil
  have hclosing : Tidy p [['}']] := Tidy.single (c := '}') (hplain _ (by decide)) (by simp) (by decide)
  exact ((((opening_tidy hp kind hname).append hpayload).append hattributes).append
    (hlasting.append hhidden)).append hclosing

/-! ## Section 3: Statements -/

theorem statement_tidy {keyword name properties seconds : List Char}
    (hkeyword : Avoids isLineBreak keyword) (hname : isName name = true)
    (hproperties : Avoids p properties) (hseconds : Avoids p seconds) :
    Tidy p [statement keyword name properties seconds] := by
  have hblank : p ' ' = false := hp _ (by decide)
  refine Tidy.single (c := 's') ?_ (by simp [statement]) (by decide)
  exact ((((Avoids.of_marksBreaks hp hkeyword).append (Avoids.cons hblank (name_avoids hp hname))).append
    (Avoids.cons hblank hproperties)).append (Avoids.cons hblank hseconds)).append
    (Avoids.of_marksBreaks hp (by decide))

theorem wait_tidy {name seconds : List Char} (hname : isName name = true)
    (hseconds : Avoids p seconds) : Tidy p [wait name seconds] :=
  statement_tidy hp (by decide) hname (Avoids.of_marksBreaks hp (by decide)) hseconds

theorem reveal_tidy {name : List Char} (hname : isName name = true) (start : Value) {fs : Fields}
    (hkeys : NamedFields fs) (htexts : EscapableFields p fs) :
    Yields (Tidy p) (reveal name start fs) := by
  have hplain : ∀ s, Avoids isLineBreak s → Avoids p s := fun s hs => Avoids.of_marksBreaks hp hs
  unfold reveal
  refine Yields.bind (seconds_avoids hp start) fun seconds hseconds => ?_
  refine Yields.bind (q := Avoids p) ?_ fun alpha halpha => Yields.ok ?_
  · split
    · exact value_avoids hp _ _ (by simp [keysOf]) (by simp [textsOf])
    · exact value_avoids hp _ _ (hkeys.get _) (htexts.get _)
  · have hkey : isNameKey (.text alphaKey) = true := by decide
    have hproperties := ((hplain ['{', ' '] (by decide)).append
      (assignment_avoids hp hkey halpha)).append (hplain [' ', '}'] (by decide))
    exact (wait_tidy hp hname hseconds).append
      (statement_tidy hp (by decide) hname hproperties (hplain _ (by decide)))

theorem segment_tidy {name : List Char} (hname : isName name = true) (start : Value)
    {segment : Value} (opened : Bool)
    (h : ∀ fs, segment.look "properties" .none = .ok (.dict fs) →
      NamedFields fs ∧ EscapableFields p fs) :
    Yields (Tidy p) (Emission.segment name start segment opened) := by
  unfold Emission.segment
  refine Yields.bind_any fun kind _ => Yields.bind_any fun v hv => ?_
  have hmapping : Yields (Avoids p) (mapping (orElse v (.dict [])) renames) := by
    refine mapping_avoids hp fun fs hfs => ?_
    unfold orElse at hfs
    split at hfs
    · exact h fs (by rw [hv, hfs])
    · obtain rfl := Value.dict.inj hfs
      exact ⟨by simp [NamedFields, keysOfFields], by simp [EscapableFields, textsOfFields]⟩
  refine Yields.bind hmapping fun properties hproperties => Yields.bind_any fun duration _ => ?_
  refine Yields.bind (seconds_avoids hp _) fun seconds hseconds => ?_
  have hset : Tidy p [statement setWord name properties seconds] :=
    statement_tidy hp (by decide) hname hproperties hseconds
  have hnext : Tidy p [statement thenSetWord name properties seconds] :=
    statement_tidy hp (by decide) hname hproperties hseconds
  split
  · refine Yields.ok ?_
    cases opened with
    | false => exact hset
    | true => exact hnext
  · refine Yields.bind_any fun delay _ => Yields.bind_any fun offset _ => Yields.bind_any fun n _ => ?_
    split
    · exact Yields.ok hset
    · refine Yields.bind (seconds_avoids hp offset) fun waited hwaited => Yields.ok ?_
      exact (wait_tidy hp hname hwaited).append hnext
  · exact Yields.error _

theorem segments_tidy {name : List Char} (hname : isName name = true) (start : Value)
    {items : List Value}
    (h : ∀ segment ∈ items, ∀ fs, segment.look "properties" .none = .ok (.dict fs) →
      NamedFields fs ∧ EscapableFields p fs) (opened : Bool) :
    Yields (Tidy p) (segments name start opened items) := by
  induction items generalizing opened with
  | nil => exact Yields.ok Tidy.nil
  | cons segment r ih =>
    rw [List.forall_mem_cons] at h
    rw [segments]
    refine Yields.bind (segment_tidy hp hname start opened h.1) fun ls hls => ?_
    exact Yields.bind (ih h.2 true) fun ms hms => Yields.ok (hls.append hms)

/-! ## Section 4: Blocks -/

/-- The lines of a block can be seen, and hold only those boundaries that its texts hold. -/
theorem clipLines_tidy {clip resource : Value}
    (h : Carries (fun fs => NamedFields fs ∧ EscapableFields p fs) clip resource) :
    Yields (Tidy p) (clipLines clip resource) := by
  unfold clipLines
  refine Yields.bind_any fun id _ => Yields.bind_any fun name hid => Yields.bind_any fun kind hkind => ?_
  -- a resource with a kind is a mapping
  obtain ⟨rs, rfl⟩ : ∃ rs, resource = .dict rs := by
    obtain ⟨v, hv, -⟩ := bind_eq_ok.mp hkind
    cases resource with
    | dict rs => exact ⟨rs, rfl⟩
    | _ => cases hv
  obtain ⟨hkeys, htexts⟩ := h.attributes rs rfl
  have hfields : ∀ fs, (Value.dict rs).toFields = .ok fs → NamedFields fs ∧ EscapableFields p fs := by
    intro fs hfs
    rw [← Except.ok.inj hfs]
    exact ⟨hkeys, htexts⟩
  have hname : isName name.toList = true := Script.isName_of_identifierOf hid
  refine Yields.bind_any fun start _ => Yields.bind_any fun delayed _ => ?_
  refine Yields.bind (declaration_tidy hp hname clip start delayed kind hfields) fun block hblock => ?_
  have hmoves : ∀ revealed, Tidy p revealed → Yields (Tidy p) (do
      let v ← clip.look "animations" .none
      let items ← (orElse v (.list [])).items
      let moves ← segments name.toList start delayed items
      return block ++ revealed ++ moves) := by
    intro revealed hrevealed
    refine Yields.bind_any fun v hv => Yields.bind_any fun items hitems => ?_
    have hsegments : ∀ segment ∈ items, ∀ fs, segment.look "properties" .none = .ok (.dict fs) →
        NamedFields fs ∧ EscapableFields p fs := by
      intro segment hsegment fs hfs
      unfold orElse at hitems
      split at hitems
      · exact h.properties v items segment fs hv hitems hsegment hfs
      · obtain rfl := Except.ok.inj hitems
        cases hsegment
    refine Yields.bind (segments_tidy hp hname start hsegments delayed) fun moves hmoves => ?_
    exact Yields.ok ((hblock.append hrevealed).append hmoves)
  dsimp only
  split
  · refine Yields.bind_any fun fs hfs => ?_
    obtain ⟨hkeys, htexts⟩ := hfields fs hfs
    exact Yields.bind (reveal_tidy hp hname start hkeys htexts) hmoves
  · exact hmoves [] Tidy.nil

end Lines

end Overlay.Emission
