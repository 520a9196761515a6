import Overlay.Project.Load
import Overlay.Proofs.Resource.Store
import Overlay.Proofs.Timeline.Lengths
import Overlay.Proofs.Timeline.Sorting
import Overlay.Proofs.Value.Sameness

/-!
# What descriptions stand for

A description of a project is a tree of mappings and lists.  This module says which resources, clips,
tracks and segments its entries stand for, and which values can be converted where they have to be:
what cannot be converted should be refused by a rule, which is not so for all values.

## Main definitions
- `Value.get`, `Value.entries`, `Value.mapping`: looking into a description, and writing one
- `Fault.isReport`, `Reports`: faults that a rule speaks of, and results without others
- `Timecode.ms?`, `Resource.givenLength?`: times and lengths of entries
- `Timecode.Settled`: readings that only depend on what an unreadable text is reported as
- `Resource.LoadedFrom`, `Segment.LoadedFrom`, `Clip.LoadedFrom`, `Track.LoadedFrom`,
  `Timeline.LoadedFrom`, `Project.LoadedFrom`: what has been loaded from an entry
- `Resource.isGuarded`, `Segment.isGuarded`, `Clip.isGuarded`, `Track.isGuarded`,
  `Timeline.isGuarded`, `Project.isGuarded`: entries whose values are converted or refused

## Main statements
- `Timecode.readMs_cases`, `Color.isGuarded_iff`: what converting a time or a color comes to
- `Color.areChannels_iff`: the same for a list of channels
-/

namespace Overlay

open Overlay.Number Overlay.Text

/-! ## Section 1: Looking into a description -/

/-- The fields of a mapping; other values have none. -/
def Value.fields : Value → Fields
  | .dict fs => fs
  | _ => []

/-- What stands under a key; nothing does where the key is missing. -/
def Value.get (v : Value) (name : String) : Value :=
  Fields.get v.fields name

/-- The entries of a list; other values have none. -/
def Value.entries : Value → List Value
  | .list items => items
  | _ => []

/-- A mapping whose keys are names. -/
def Value.mapping (fields : List (String × Value)) : Value :=
  .dict (fields.map fun e => (.text e.1, e.2))

@[simp] theorem Value.fields_dict (fs : Fields) : (Value.dict fs).fields = fs :=
  rfl

@[simp] theorem Value.get_dict (fs : Fields) (name : String) :
    (Value.dict fs).get name = Fields.get fs name :=
  rfl

/-- A list may be left out where it would have no entries. -/
theorem Value.entries_get {fs : Fields} {name : String} {items : List Value}
    (h : (Fields.get? fs name).getD (.list []) = .list items) :
    ((Value.dict fs).get name).entries = items := by
  rw [Value.get_dict, Fields.get]
  cases hget : Fields.get? fs name with
  | none =>
    rw [hget] at h
    exact Value.list.inj h
  | some v =>
    rw [hget, Option.getD_some] at h
    rw [Option.getD_some, h]
    rfl

/-- Whether a fault is the report of a broken rule.  Two causes stand for a value of a wrong kind that
was handed over by a caller; they are no reports. -/
def Fault.isReport : Fault → Bool
  | .refused .tracksKind => false
  | .refused .resourceSource => false
  | .refused _ => true
  | _ => false

/-- A fault that is a report, as long as what led to it is guarded. -/
def Fault.IsReportIf (guarded : Bool) (fault : Fault) : Prop :=
  guarded = true → fault.isReport = true

/-- A result that is an answer or a report, as long as what led to it is guarded. -/
def Reports {α : Type} (guarded : Bool) (r : Result α) : Prop :=
  ∀ fault, r = .error fault → fault.IsReportIf guarded

namespace Reports

variable {α β : Type} {g : Bool} {x : Result α}

theorem of_ok (a : α) : Reports g (.ok a) :=
  Fails.ok a

theorem of_refuse {cause : Cause} (h : cause.fault.isReport = true) :
    Reports g (refuse cause : Result α) :=
  Fails.error fun _ => h

theorem bind {f : α → Result β} (hx : Reports g x) (hf : ∀ a, x = .ok a → Reports g (f a)) :
    Reports g (x >>= f) :=
  Fails.bind hx hf

theorem map (hx : Reports g x) (f : α → β) : Reports g (x.map f) :=
  fun fault hfault => hx fault (map_eq_error.mp hfault)

/-- A value that can be shown has its text. -/
theorem of_toText {v : Value} (h : g = true → v.hasText = true) : Reports g v.toText := by
  intro fault hfault hg
  rw [Value.toText, if_pos (h hg)] at hfault
  cases hfault

end Reports

theorem Value.eq_shown_of_toText {v : Value} {s : String} (h : v.toText = .ok s) : s = v.shown := by
  unfold toText at h
  split at h
  · exact (Except.ok.inj h).symm
  · cases h

/-- A rule whose message shows one value reports it as far as the value can be shown. -/
theorem Cause.isReport_fault {cause : Cause} {v : Value} (hvalues : cause.values = [v])
    (hreport : (Fault.refused cause).isReport = true) (h : v.hasText = true) :
    cause.fault.isReport = true := by
  have htellable : cause.isTellable = true := by
    rw [Cause.isTellable, hvalues, List.all_cons, h]
    rfl
  rw [Cause.fault, if_pos htellable]
  exact hreport

/-! ## Section 2: Times -/

namespace Timecode

/-- A time in milliseconds, if a value is one. -/
def ms? (v : Value) : Option Int :=
  (readMs v "").toOption

/-- Whether a value that is read as a time stays in the range of decimal numbers. -/
def inRange (v : Value) : Bool :=
  match readMs v "" with
  | .error .tooLarge => false
  | _ => true

/-- The time that an entry gives under a key, which is zero where the key is missing. -/
def under (entry : Value) (name : String) : Option Int :=
  match entry.get name with
  | .none => some 0
  | v => ms? v

/-- What is read of a time that may be left out. -/
def IsRead (given v : Value) : Prop :=
  given = .none ∧ v = .none ∨ ∃ ms, ms? given = some ms ∧ v = .int ms

/-- A reading that depends on the fault of a text that cannot be read only where it ends in that fault. -/
def Settled {α : Type} (f : Fault → Result α) : Prop :=
  (∃ x, ∀ unread, f unread = .ok x) ∨ (∀ unread, f unread = .error .tooLarge)
    ∨ ∀ unread, f unread = .error unread

namespace Settled

variable {α β : Type}

theorem of_orFault (o : Option α) : Settled fun unread => orFault unread o := by
  cases o with
  | none => exact Or.inr (Or.inr fun _ => rfl)
  | some a => exact Or.inl ⟨a, fun _ => rfl⟩

theorem of_settle (r : Except DecimalTrouble WideDecimal) : Settled fun unread => settle unread r := by
  cases r with
  | ok x =>
    cases x with
    | finite d => exact Or.inl ⟨d, fun _ => rfl⟩
    | _ => exact Or.inr (Or.inr fun _ => rfl)
  | error trouble =>
    cases trouble with
    | overflow => exact Or.inr (Or.inl fun _ => rfl)
    | invalid => exact Or.inr (Or.inr fun _ => rfl)

theorem bind {f : Fault → Result α} {g : α → Fault → Result β} (hf : Settled f)
    (hg : ∀ a, Settled (g a)) : Settled fun unread => f unread >>= fun a => g a unread := by
  rcases hf with ⟨a, ha⟩ | hlarge | hunread
  · simpa only [ha, ok_bind] using hg a
  · exact Or.inr (Or.inl fun unread => by simp only [hlarge, error_bind])
  · exact Or.inr (Or.inr fun unread => by simp only [hunread, error_bind])

end Settled

/-- The fault of a text that shows no time is the given one; nothing else depends on it. -/
theorem settled_readText (s : List Char) : Settled (readText s) := by
  unfold readText
  dsimp only
  split
  · exact .of_orFault _
  · exact (Settled.of_orFault _).bind fun _ => (Settled.of_orFault _).bind fun _ => .of_settle _
  · exact (Settled.of_orFault _).bind fun _ => (Settled.of_orFault _).bind fun _ =>
      (Settled.of_orFault _).bind fun _ => .of_settle _
  · exact Or.inr (Or.inr fun _ => rfl)

/-- The label of a time only shows in reports. -/
theorem read_cases (v : Value) :
    (∃ x, ∀ label, read v label = .ok x) ∨ (∀ label, read v label = .error .tooLarge)
      ∨ ∀ label, ∃ fault, read v label = .error fault ∧ fault.isReport = true := by
  unfold read
  split
  · exact Or.inr (Or.inr fun label => ⟨_, rfl, rfl⟩)
  · exact Or.inl ⟨_, fun _ => rfl⟩
  · next x =>
    cases Decimal.ofDouble? x with
    | none => exact Or.inr (Or.inr fun label => ⟨_, rfl, rfl⟩)
    | some d => exact Or.inl ⟨d, fun _ => rfl⟩
  · next s =>
    rcases settled_readText s.toList with ⟨d, hd⟩ | hlarge | hunread
    · exact Or.inl ⟨d, fun _ => hd _⟩
    · exact Or.inr (Or.inl fun _ => hlarge _)
    · exact Or.inr (Or.inr fun label => ⟨_, hunread _, rfl⟩)
  · exact Or.inr (Or.inr fun label => ⟨_, rfl, rfl⟩)

/-- A time is read, or a rule refuses it, or it is out of range. -/
theorem readMs_cases (v : Value) :
    (∃ ms, ∀ label, readMs v label = .ok ms) ∨ (∀ label, readMs v label = .error .tooLarge)
      ∨ ∀ label, ∃ fault, readMs v label = .error fault ∧ fault.isReport = true := by
  unfold readMs
  rcases read_cases v with ⟨x, hx⟩ | hlarge | hreport
  · simp only [hx, ok_bind]
    split
    · cases x.mul (.ofInt 1000) with
      | none => exact Or.inr (Or.inl fun _ => rfl)
      | some ms => exact Or.inl ⟨ms.roundToInt, fun _ => rfl⟩
    · exact Or.inl ⟨x.roundToInt, fun _ => rfl⟩
  · simp only [hlarge, error_bind]
    exact Or.inr (Or.inl fun _ => trivial)
  · refine Or.inr (Or.inr fun label => ?_)
    obtain ⟨fault, hfault, hr⟩ := hreport label
    exact ⟨fault, by rw [hfault, error_bind], hr⟩

theorem ms?_of_readMs {v : Value} {label : String} {ms : Int} (h : readMs v label = .ok ms) :
    ms? v = some ms := by
  unfold ms?
  rcases readMs_cases v with ⟨n, hn⟩ | hlarge | hreport
  · rw [hn] at h ⊢
    rw [Except.ok.inj h]
    rfl
  · rw [hlarge] at h
    cases h
  · obtain ⟨fault, hfault, -⟩ := hreport label
    rw [hfault] at h
    cases h

/-- A time that stays in range is refused by a rule if it cannot be read. -/
theorem reports_readMs {v : Value} {label : String} {g : Bool} (hrange : g = true → inRange v = true) :
    Reports g (readMs v label) := by
  intro fault hfault hg
  have hrange := hrange hg
  unfold inRange at hrange
  rcases readMs_cases v with ⟨n, hn⟩ | hlarge | hreport
  · rw [hn] at hfault
    cases hfault
  · rw [hlarge] at hrange
    cases hrange
  · obtain ⟨fault', hfault', hr⟩ := hreport label
    rw [hfault'] at hfault
    rwa [← Except.error.inj hfault]

/-- A whole number counts milliseconds. -/
theorem readMs_int (i : Int) (label : String) : readMs (.int i) label = .ok i := by
  have hround : (Decimal.ofInt i).roundToInt = i := by
    show Double.signed (decide (i < 0)) (i.natAbs * tenTo 0) = i
    rw [tenTo_zero, Nat.mul_one]
    by_cases hi : i < 0
    · rw [decide_eq_true hi, Double.signed, if_pos rfl]
      omega
    · rw [decide_eq_false hi, Double.signed, if_neg Bool.false_ne_true]
      omega
  rw [readMs, read, ok_bind, hround]
  rfl

/-- A time under a key that may be left out. -/
theorem under_of_readMs {entry : Value} {name label : String} {ms : Int}
    (h : readMs ((Fields.get? entry.fields name).getD (.int 0)) label = .ok ms) :
    under entry name = some ms := by
  unfold under Value.get Fields.get
  cases hget : Fields.get? entry.fields name with
  | none =>
    rw [hget, Option.getD_none, readMs_int] at h
    exact congrArg some (Except.ok.inj h)
  | some v =>
    rw [hget, Option.getD_some] at h
    rw [Option.getD_some]
    split
    · cases h
    · exact ms?_of_readMs h

/-- A time that may be left out is read before an action goes on. -/
theorem ends_of_optional {σ β : Type} {s : σ} {e : Fault → Prop} {q : β → σ → Prop}
    {given : Value} {label : String} {rest : Value → Act σ β} :
    (∀ v, IsRead given v → (rest v).Ends s e q) →
    (∀ fault, readMs given label = .error fault → e fault) →
    (match given with
      | .none => pure Value.none >>= rest
      | v => Act.ofResult (readMs v label) >>= fun ms => pure (Value.int ms) >>= rest :
        Act σ β).Ends s e q := by
  intro hrest hfault
  cases given with
  | none => exact .bind_pure (hrest _ (Or.inl ⟨rfl, rfl⟩))
  | _ =>
    refine .bind_ofResult (fun ms hms => ?_) hfault
    exact .bind_pure (hrest _ (Or.inr ⟨ms, ms?_of_readMs hms, rfl⟩))

theorem reports_under {fs : Fields} {name label : String} {g : Bool}
    (hrange : g = true → inRange (Fields.get fs name) = true) :
    Reports g (readMs ((Fields.get? fs name).getD (.int 0)) label) := by
  unfold Fields.get at hrange
  cases hget : Fields.get? fs name with
  | none =>
    rw [Option.getD_none, readMs_int]
    exact .of_ok 0
  | some v =>
    rw [hget, Option.getD_some] at hrange
    exact reports_readMs hrange

end Timecode

/-! ## Section 3: Colors -/

/-- What cannot be converted to a whole number is no matter of rules. -/
theorem Value.not_isReport_of_toInt {v : Value} {fault : Fault} (h : v.toInt = .error fault) :
    fault.isReport = false := by
  unfold Value.toInt at h
  split at h
  · next s =>
    cases hread : Number.readInt? s with
    | none =>
      rw [hread] at h
      rw [← Except.error.inj h]
      rfl
    | some i =>
      rw [hread] at h
      cases h
  · rw [← Except.error.inj h]
    rfl
  · rw [← Except.error.inj h]
    rfl
  · cases h
  · rcases bind_eq_error.mp h with h | ⟨n, -, h⟩
    · unfold Value.toNumber at h
      cases hnumber : v.number? with
      | none =>
        rw [hnumber] at h
        rw [← Except.error.inj h]
        rfl
      | some n =>
        rw [hnumber] at h
        cases h
    · cases n <;> cases h

namespace Color

/-- Whether three values can be converted to channels. -/
def areChannels (r g b : Value) : Bool :=
  r.toInt.isOk && g.toInt.isOk && b.toInt.isOk

/-- Whether a value stands for a color or is refused by a rule.  No rule speaks of channels and of
hexadecimal digits that cannot be read, and none can speak of a value that cannot be shown. -/
def isGuarded : Value → Bool
  | .int _ => true
  | .list [r, g, b] => areChannels r g b
  | .tuple [r, g, b] => areChannels r g b
  | .text s =>
    let bare := strip s.toList
    lowered (bare.take 2) != ['0', 'x'] || (readHex? (String.ofList bare)).isSome
  | v => v.hasText

theorem areChannels_iff (r g b : Value) :
    areChannels r g b = true ↔ ∀ fault, ofItems r g b = .error fault → fault.isReport = true := by
  unfold areChannels ofItems
  cases hr : r.toInt with
  | error fault => simp [Except.isOk, Except.toBool, Value.not_isReport_of_toInt hr]
  | ok i =>
    cases hg : g.toInt with
    | error fault => simp [Except.isOk, Except.toBool, Value.not_isReport_of_toInt hg]
    | ok j =>
      cases hb : b.toInt with
      | error fault => simp [Except.isOk, Except.toBool, Value.not_isReport_of_toInt hb]
      | ok k => simp [Except.isOk, Except.toBool]

/-- A value that is no color is reported exactly if it can be shown. -/
theorem hasText_iff_of_refuse {α : Type} (v : Value) :
    v.hasText = true
      ↔ ∀ fault, (refuse (.color v) : Result α) = .error fault → fault.isReport = true := by
  constructor
  · intro h fault hfault
    rw [← Except.error.inj hfault]
    exact Cause.isReport_fault rfl rfl h
  · intro h
    by_contra hnone
    have hfault : (Cause.color v).fault = .tooLongToWrite := by
      rw [Cause.fault, if_neg (by simpa [Cause.isTellable, Cause.values] using hnone)]
    have hreport := h _ rfl
    rw [hfault] at hreport
    cases hreport

/-- Exactly the guarded values are read as colors or refused by a rule. -/
theorem isGuarded_iff (v : Value) :
    isGuarded v = true ↔ ∀ fault, read v = .error fault → fault.isReport = true := by
  unfold isGuarded read
  split
  · simp
  · exact areChannels_iff _ _ _
  · exact areChannels_iff _ _ _
  · next s =>
    dsimp only
    split
    · next hmark =>
      cases readHex? (String.ofList (strip s.toList)) with
      | none => simp [hmark, orFault, Fault.isReport]
      | some n => simp
    · next hmark =>
      cases ofText? (strip s.toList) with
      | none => simp [hmark, orFault, Fault.isReport]
      | some n => simp [hmark]
  · next hint hlist htuple htext =>
    split
    · simp [Value.hasText]
    · exact ⟨fun _ fault h => Except.error.inj h ▸ rfl, fun _ => rfl⟩
    · exact absurd rfl (hint _)
    · exact absurd rfl (hlist _ _ _)
    · exact absurd rfl (htuple _ _ _)
    · exact absurd rfl (htext _)
    · exact hasText_iff_of_refuse _

theorem reports_read {v : Value} {g : Bool} (h : g = true → isGuarded v = true) : Reports g (read v) :=
  fun fault hfault hg => (isGuarded_iff v).mp (h hg) fault hfault

end Color

/-! ## Section 4: Resources -/

/-- Whether a number has a nearest double; all but integers of enormous size do. -/
def Value.hasDouble : Value → Bool
  | .int i => (doubleOfInt? i).isSome
  | _ => true

theorem Value.hasDouble_of_toDouble {v : Value} (h : v.toDouble = .error .tooLarge) :
    v.hasDouble = false := by
  unfold Value.toDouble at h
  split at h
  · next s => cases hread : Number.readDouble? s <;> rw [hread] at h <;> cases h
  · cases v with
    | int i =>
      simp only [Value.toNumber, Value.number?, orFault_some, ok_bind, Number.toDouble?] at h
      cases hdouble : doubleOfInt? i with
      | none => simp [hasDouble, hdouble]
      | some x =>
        rw [hdouble] at h
        cases h
    | bool b =>
      have hone : 1 < tenTo 308 := tenTo_zero ▸ tenTo_lt (by decide)
      have hsmall : (if b then 1 else 0 : Int).natAbs < tenTo 308 := by
        cases b
        · exact Nat.lt_trans Nat.zero_lt_one hone
        · exact hone
      obtain ⟨x, hx⟩ := Option.isSome_iff_exists.mp (Double.isSome_doubleOfInt? hsmall)
      simp [Value.toNumber, Value.number?, Number.toDouble?, hx] at h
    | float x => cases h
    | _ => cases h

namespace Resource

/-- What an entry gives as the length of its resource: a number of milliseconds, or a time under
another name.  There is none if that time cannot be read. -/
def givenLength? (entry : Value) : Option Value :=
  if Fields.has entry.fields "durationMs" then some (entry.get "durationMs")
  else match Fields.get? entry.fields "duration" with
    | some time => (Timecode.ms? time).map Value.int
    | none => some .none

theorem givenLength?_dict (es : Fields) :
    givenLength? (.dict es)
      = if Fields.has es "durationMs" then some (Fields.get es "durationMs")
        else match Fields.get? es "duration" with
          | some time => (Timecode.ms? time).map Value.int
          | none => some .none :=
  rfl

/-- The resource of an entry: its id as a text, its kind, and the length that is made of the given
one. -/
structure LoadedFrom (entry : Value) (fs : Fields) : Prop where
  mapping : ∃ es, entry = .dict es
  id : Fields.get fs "id" = .text (entry.get "id").shown
  kind : Fields.get fs "type" = entry.get "type"
  known : ∃ k : ResourceKind, entry.get "type" = .text k.word
  length : ∃ given, givenLength? entry = some given
    ∧ duration given 2000 = .ok (Fields.get fs "durationMs")

/-- Whether a field of an entry can be an attribute of a resource or is refused by a rule: its name is
not the word that is kept for the kind, and if it is a color, this is converted or refused. -/
def isGuardedField (e : Value × Value) : Bool :=
  match e.1 with
  | .text name => name != kindWord && (!isColorName name || e.2.isNone || Color.isGuarded e.2)
  | _ => false

/-- Whether an entry is loaded as a resource or refused by a rule: its id and its kind can be shown, its
fields can be attributes, and its length is converted. -/
def isGuarded (entry : Value) : Bool :=
  (entry.get "id").hasText && (entry.get "type").hasText && entry.fields.all isGuardedField
    && (Fields.has entry.fields "durationMs" || Timecode.inRange (entry.get "duration"))
    && (givenLength? entry).all Value.hasDouble

end Resource

/-! ## Section 5: Segments -/

namespace Segment

/-- Whether a property is a color that is given as a text. -/
def isColorText (e : Value × Value) : Bool :=
  match e with
  | (.text name, .text _) => Resource.isColorName name
  | _ => false

/-- A property with the key of an entry: a color that is given as a text is a number, anything else
stays as it is. -/
def PropertyFrom (e p : Value × Value) : Prop :=
  p.1 = e.1 ∧ if isColorText e then Color.read e.2 = .ok p.2 else p.2 = e.2

/-- The properties that an entry gives: a mapping, or nothing for the empty one. -/
def Gives (entry : Value) (ps : Fields) : Prop :=
  entry.get "properties" = .dict ps ∨ entry.get "properties" = .none ∧ ps = []

/-- The segment of an entry: its kind, its length and its delay as times, and its properties under the
same keys in the same order. -/
structure LoadedFrom (entry segment : Value) : Prop where
  mapping : ∃ es, entry = .dict es
  kind : segment.get "type" = entry.get "type"
  length : ∃ ms, Timecode.under entry "duration" = some ms ∧ 0 ≤ ms
    ∧ segment.get "duration" = .int ms
  delay : entry.get "delay" = .none ∧ segment.get "delay" = .none
    ∨ ∃ ms, Timecode.ms? (entry.get "delay") = some ms ∧ 0 ≤ ms ∧ segment.get "delay" = .int ms
  properties : ∀ ps, Gives entry ps →
    ∃ qs, segment.get "properties" = .dict qs ∧ List.Forall₂ PropertyFrom ps qs
  id : entry.get "id" ≠ .none → segment.get "id" = entry.get "id"

/-- Whether a property is taken over or refused by a rule. -/
def isGuardedProperty (e : Value × Value) : Bool :=
  match e.1 with
  | .text _ => !isColorText e || Color.isGuarded e.2
  | _ => false

/-- Whether the properties of an entry are a mapping, or can be made one, and taken over. -/
def areGuarded (properties : Value) : Bool :=
  match (Emission.orElse properties (.dict [])).toFields with
  | .ok ps => ps.all isGuardedProperty
  | .error _ => false

/-- Whether an entry is loaded as a segment or refused by a rule. -/
def isGuarded (entry : Value) : Bool :=
  Timecode.inRange (entry.get "delay") && Timecode.inRange (entry.get "duration")
    && areGuarded (entry.get "properties") && (entry.get "type").hasText

end Segment

/-! ## Section 6: Clips and tracks -/

/-- The length that a store gives to clips of a resource. -/
def Store.lengthOf (store : Store) (id : String) : Value :=
  match store.find? (.text id) with
  | some fs => if (Fields.get fs "durationMs").holds then Fields.get fs "durationMs"
    else .int Timeline.defaultClipDuration
  | none => .int Timeline.defaultClipDuration

/-- The clip of an entry: it names the resource of the entry, whether there is one or not, starts at the
time of the entry or at zero, and has the length of the entry or of the resource. -/
structure Clip.LoadedFrom (store : Store) (trackId : Value) (entry : Value) (c : Clip) : Prop where
  mapping : ∃ es, entry = .dict es
  resource : entry.get "resource" ≠ .none
  resourceId : c.resourceId = .text (entry.get "resource").shown
  start : ∃ ms, Timecode.under entry "start" = some ms ∧ c.start = .int (max 0 ms)
  given : entry.get "duration" ≠ .none →
    ∃ ms, Timecode.ms? (entry.get "duration") = some ms ∧ c.duration = .int ms
  own : entry.get "duration" = .none →
    c.duration = store.lengthOf (entry.get "resource").shown
  length : c.duration.isNonNegative = true
  text : ∃ id, c.id = .text id
  id : entry.get "id" ≠ .none → c.id = .text (entry.get "id").shown
  name : entry.get "name" ≠ .none → c.name = entry.get "name"
  trackId : c.trackId = trackId
  animations : ∃ segments, c.animations = .list segments
    ∧ List.Forall₂ Segment.LoadedFrom (entry.get "animations").entries segments
  extra : c.extra = []

/-- Whether an entry is loaded as a clip or refused by a rule.  Its ids can be shown, and where the clip
takes its length from its resource, its start has to have a double. -/
def Clip.isGuarded (entry : Value) : Bool :=
  (entry.get "resource").hasText && (entry.get "id").hasText
    && Timecode.inRange (entry.get "start") && Timecode.inRange (entry.get "duration")
    && (!(entry.get "duration").isNone
      || (Timecode.under entry "start").all fun ms => (doubleOfInt? (max 0 ms)).isSome)
    && (entry.get "animations").entries.all Segment.isGuarded

/-- The track of an entry with a number: its clips are those of the entry in the order of their
starts. -/
structure Track.LoadedFrom (store : Store) (index : Nat) (entry : Value) (t : Track) : Prop where
  mapping : ∃ es, entry = .dict es
  id : t.id = .text (if (entry.get "id").isNone then Project.numberedTrack index
    else (entry.get "id").shown)
  name : entry.get "name" ≠ .none → t.name = entry.get "name"
  clips : ∃ row, List.Forall₂ (Clip.LoadedFrom store t.id) (entry.get "clips").entries row
    ∧ Track.SortsRow row t.clips

/-- Whether an entry is loaded as a track or refused by a rule. -/
def Track.isGuarded (entry : Value) : Bool :=
  (entry.get "id").hasText && (entry.get "clips").entries.all Clip.isGuarded

/-! ## Section 7: Timelines and projects -/

namespace Timeline

/-- The length of a timeline after entries of clips: if there are none it stays as it is, otherwise it
does not lie below zero, whatever it was before. -/
structure Grows (entries : List Value) (before after : Value) : Prop where
  same : entries = [] → after = before
  nonneg : entries ≠ [] → after.isNonNegative = true

/-- The length that a description gives to its timeline. -/
def givenLength? (description : Value) : Option Int :=
  match description.get "duration" with
  | .none => some defaultDuration
  | v => Timecode.ms? v

/-- The entries of all clips of a description, track by track. -/
def clipEntries (description : Value) : List Value :=
  (description.get "tracks").entries.flatMap fun track => (track.get "clips").entries

/-- The timeline of a description: a track for each entry, in their order, and the given length as far
as the clips leave it. -/
structure LoadedFrom (store : Store) (description : Value) (tl : Timeline) : Prop where
  tracks : List.Forall₂ (fun e t => Track.LoadedFrom store e.2 e.1 t)
    ((description.get "tracks").entries.zipIdx 1) tl.tracks
  length : ∃ ms, givenLength? description = some ms
    ∧ Grows (clipEntries description) (.int ms) tl.duration
  time : tl.currentTime = .int 0

/-- Whether a description is loaded as a timeline or refused by a rule. -/
def isGuarded (description : Value) : Bool :=
  Timecode.inRange (description.get "duration")
    && (description.get "tracks").entries.all Track.isGuarded

end Timeline

namespace Project

/-- The project of a description: a resource for each entry, in their order, and the timeline. -/
structure LoadedFrom (data : Value) (p : Project) : Prop where
  resources : List.Forall₂ Resource.LoadedFrom (data.get "resources").entries p.store.resources
  timeline : Timeline.LoadedFrom p.store (data.get "timeline") p.timeline

/-- Whether a description is loaded as a project or refused by a rule. -/
def isGuarded (data : Value) : Bool :=
  (data.get "resources").entries.all Resource.isGuarded && Timeline.isGuarded (data.get "timeline")

end Project

end Overlay
