import Overlay.Proofs.Script.Shots

/-!
# What objects start with

The attributes of the object of a clip, before any statement changes them.  The length is always set.
The opacity is that of the resource where the object is seen from the start, and zero where it is
hidden first; if the resource has none, an object that is not hidden has none either.

## Main definitions
- `Shot.hasOpacity`: whether the resource has an opacity
- `Shot.attributes`: what is set before the length and the opacity of a hidden object

## Main statements
- `Shot.attrs_of_immediate`, `Shot.attrs_of_delayed`: the attributes of an object
- `Shot.get?_attributes`: the opacity of an object that is not hidden
-/

namespace Overlay

open Overlay.Text Overlay.Number Overlay.Literal

attribute [local irreducible] twoTo tenTo Double.unitsInOne

/-! ## Section 1: The opacity -/

/-- The opacity is read back under either of its names alike. -/
theorem readBack_opacityKey (v : Value) :
    readBack (.text Emission.opacityKey) v = readBack (.text Emission.alphaKey) v := by
  have hcolor : ∀ n, isColor (.text Emission.opacityKey) n = isColor (.text Emission.alphaKey) n := by
    intro n
    have hnames : Resource.isColorName (Value.text Emission.opacityKey).shown
        = Resource.isColorName (Value.text Emission.alphaKey).shown := by decide
    rw [isColor, isColor, hnames]
  have hpercent : isPercentKey (.text Emission.opacityKey) = isPercentKey (.text Emission.alphaKey) := by
    decide
  cases v with
  | int i => rw [readBack, readBack, readBackNumber, readBackNumber, hcolor, hpercent]
  | float x => rw [readBack, readBack, readBackNumber, readBackNumber, hcolor, hpercent]
  | dict entries => rw [readBack, readBack]
  | _ => rfl

namespace Shot

variable (s : Shot)

/-- Whether the resource has an opacity. -/
def hasOpacity : Bool :=
  !(Fields.get s.resource Emission.opacityKey).isNone

/-- What is read back of the attributes of a resource. -/
def kept (fs : Fields) : List (String × Value) :=
  readBackProperties (fs.filter fun e => s.keeps e.1)

theorem assign_kept_cons (acc : Fields) (key : String) (v : Value) (r : Fields) :
    Fields.assign acc (s.kept ((.text key, v) :: r))
      = Fields.assign (if s.keeps (.text key) && !v.isNone then
          Fields.put acc (scriptName key) (readBack (.text key) v) else acc) (s.kept r) := by
  unfold kept
  cases hkeeps : s.keeps (.text key) with
  | false => rw [List.filter_cons_of_neg (by simp [hkeeps])]; simp
  | true =>
    rw [List.filter_cons_of_pos (by simp [hkeeps]), readBackProperties, readBackFields]
    cases hv : v.isNone with
    | true => simp [readBackProperties]
    | false => simp [readBackProperties, Fields.assign, Value.shown]

/-- The opacity of an object that is not hidden is that of its resource. -/
theorem get?_assign_kept (h : s.isDelayed = false) {fs : Fields} (hfs : Fields.TextKeyed fs)
    (hd : Fields.Distinct fs) (halpha : ∀ v, (.text Emission.alphaKey, v) ∉ fs) (acc : Fields) :
    Fields.get? (Fields.assign acc (s.kept fs)) Emission.alphaKey
      = if (Fields.get fs Emission.opacityKey).isNone then Fields.get? acc Emission.alphaKey
        else some (readBack (.text Emission.alphaKey) (Fields.get fs Emission.opacityKey)) := by
  induction fs generalizing acc with
  | nil => rfl
  | cons e r ih =>
    obtain ⟨⟨key, hkey⟩, hr⟩ := List.forall_mem_cons.mp hfs
    obtain ⟨hhead, htail⟩ := List.pairwise_cons.mp hd
    obtain ⟨_, v⟩ := e
    obtain rfl := hkey
    rw [assign_kept_cons, ih hr htail fun w hw => halpha w (List.mem_cons_of_mem _ hw)]
    rw [Fields.get_cons_text]
    by_cases hopacity : key = Emission.opacityKey
    · -- the opacity is there once
      have hrest : Fields.get r Emission.opacityKey = .none := by
        unfold Fields.get
        cases hget : Fields.get? r Emission.opacityKey with
        | none => rfl
        | some w =>
          have hdiffers := hhead _ (Fields.mem_of_get? hget)
          rw [hopacity, Value.same_text_self] at hdiffers
          cases hdiffers
      have hname : scriptName key = Emission.alphaKey := if_pos hopacity
      have hkeeps : s.keeps (.text key) = true := by
        rw [hopacity, keeps, h]
        rfl
      rw [if_pos hopacity, hrest, hname, hkeeps, hopacity, readBack_opacityKey]
      cases hv : v.isNone with
      | true => simp [Value.isNone]
      | false => simp [Value.isNone, Fields.get?_put]
    · have hname : scriptName key ≠ Emission.alphaKey := by
        rw [scriptName, if_neg hopacity]
        rintro rfl
        exact halpha v List.mem_cons_self
      rw [if_neg hopacity]
      split
      · split
        · rw [Fields.get?_put, if_neg hname]
        · rfl
      · rfl

/-! ## Section 2: Attributes -/

/-- The attributes of an object before its length is set. -/
def attributes : Fields :=
  Fields.assign (Fields.assign [] s.payload) (s.kept s.resource)

theorem attrs_of_immediate (h : s.isDelayed = false) :
    s.definition.attrs
      = Fields.put s.attributes "duration" (.float (secondsOfMs (s.start + s.duration))) := by
  have hassignments : s.assignments
      = (s.payload ++ s.kept s.resource)
        ++ [("duration", .float (secondsOfMs (s.start + s.duration)))] := by
    rw [assignments, h]
    rfl
  rw [definition, hassignments, Fields.assign_append, Fields.assign_append]
  rfl

theorem attrs_of_delayed (h : s.isDelayed = true) :
    s.definition.attrs
      = Fields.put (Fields.put s.attributes "duration"
          (.float (secondsOfMs (s.start + s.duration)))) Emission.alphaKey (.int 0) := by
  have hassignments : s.assignments
      = (s.payload ++ s.kept s.resource)
        ++ [("duration", .float (secondsOfMs (s.start + s.duration))),
          (Emission.alphaKey, .int 0)] := by
    rw [assignments, h]
    rfl
  rw [definition, hassignments, Fields.assign_append, Fields.assign_append]
  rfl

theorem get?_payload : Fields.get? (Fields.assign [] s.payload) Emission.alphaKey = none := by
  have hname : s.kind.payload ≠ Emission.alphaKey := by
    cases s.kind <;> decide
  unfold payload
  dsimp only
  split
  · rw [Fields.assign, List.foldl_cons, List.foldl_nil, Fields.get?_put, if_neg hname]
    rfl
  · rfl

/-- The opacity that a hidden object is given when its clip starts. -/
theorem alpha_eq :
    s.alpha = if s.hasOpacity then
      readBack (.text Emission.alphaKey) (Fields.get s.resource Emission.opacityKey) else .int 1 := by
  have hone : readBack (.text Emission.alphaKey) (.int 1) = .int 1 := by
    have hcolor : isColor (.text Emission.alphaKey) (.int 1) = false := by decide
    have hpercent : isPercentKey (.text Emission.alphaKey) = false := by decide
    rw [readBack, readBackNumber, hcolor, hpercent]
    exact Scanner.bare_int (by decide +kernel)
  unfold alpha opacity hasOpacity
  cases Fields.get s.resource Emission.opacityKey with
  | none => exact hone
  | _ => simp only [Value.isNone, Bool.not_false, if_true]

/-- An object that is not hidden has the opacity of its resource, if there is one. -/
theorem get?_attributes (h : s.isDelayed = false) (hkeys : Fields.TextKeyed s.resource)
    (hd : Fields.Distinct s.resource) (halpha : ∀ v, (.text Emission.alphaKey, v) ∉ s.resource) :
    Fields.get? s.attributes Emission.alphaKey
      = if s.hasOpacity then some s.alpha else none := by
  rw [attributes, s.get?_assign_kept h hkeys hd halpha, get?_payload, alpha_eq, hasOpacity]
  cases (Fields.get s.resource Emission.opacityKey).isNone <;> rfl

end Shot

end Overlay
