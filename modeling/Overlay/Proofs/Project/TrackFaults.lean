import Overlay.Proofs.Project.Loading

/-!
# Faults that speak of tracks

Only a new track can be refused because its id is taken.  Whatever else a description consists of is
loaded, or stops the loader with another fault.

## Main definitions
- `Fault.isOther`: faults other than the report of a taken id of a track
- `Spares`, `Act.Spares`: results and actions that stop with other faults only

## Main statements
- `Act.Spares.bind`: chains of such actions
- `Timeline.addClip_spares`, `Project.loadClip_spares`: clips
- `Project.loadResources_spares`: resources
-/

namespace Overlay

open Overlay.Number

variable {α β σ τ : Type}

/-! ## Section 1: Results -/

/-- Whether a fault is another one than the report of a taken id of a track. -/
def Fault.isOther : Fault → Bool
  | .refused (.trackIdTaken _) => false
  | _ => true

/-- A rule whose message cannot be made does not speak of a track either. -/
theorem Cause.isOther_fault {cause : Cause} (h : (Fault.refused cause).isOther = true) :
    cause.fault.isOther = true := by
  unfold fault
  split
  · exact h
  · rfl

/-- A result that is an answer or another fault. -/
def Spares (r : Result α) : Prop :=
  ∀ fault, r = .error fault → fault.isOther = true

namespace Spares

variable {x : Result α}

theorem of_ok (a : α) : Spares (.ok a) :=
  Fails.ok a

theorem of_error {fault : Fault} (h : fault.isOther = true) : Spares (.error fault : Result α) :=
  Fails.error h

theorem of_refuse {cause : Cause} (h : (Fault.refused cause).isOther = true) :
    Spares (refuse cause : Result α) :=
  of_error (Cause.isOther_fault h)

theorem of_orFault {fault : Fault} (h : fault.isOther = true) (o : Option α) :
    Spares (orFault fault o) := by
  cases o with
  | none => exact of_error h
  | some a => exact of_ok a

theorem bind {f : α → Result β} (hx : Spares x) (hf : ∀ a, Spares (f a)) : Spares (x >>= f) :=
  Fails.bind hx fun a _ => hf a

end Spares

namespace Value

theorem spares_look (v : Value) (name : String) (default : Value) : Spares (v.look name default) := by
  unfold look
  split
  · exact .of_ok _
  · exact .of_error rfl

theorem spares_field (v : Value) (name : String) : Spares (v.field name) := by
  unfold field
  split
  · exact .of_orFault rfl _
  · exact .of_error rfl

theorem spares_toNumber (v : Value) : Spares v.toNumber :=
  .of_orFault rfl _

theorem spares_lessThan (a b : Value) : Spares (a.lessThan b) :=
  (spares_toNumber a).bind fun _ => (spares_toNumber b).bind fun _ => .of_ok _

theorem spares_atLeastZero (v : Value) : Spares v.atLeastZero :=
  (spares_lessThan _ v).bind fun _ => .of_ok _

theorem spares_plus (a b : Value) : Spares (a.plus b) := by
  unfold plus
  split
  · exact .of_ok _
  · exact .of_ok _
  · exact .of_ok _
  · exact (spares_toNumber _).bind fun _ => (spares_toNumber _).bind fun _ =>
      (Spares.of_orFault rfl _).bind fun _ => .of_ok _

theorem spares_toInt (v : Value) : Spares v.toInt := by
  unfold toInt
  split
  · exact .of_orFault rfl _
  · exact .of_error rfl
  · exact .of_error rfl
  · exact .of_ok _
  · refine (spares_toNumber _).bind fun n => ?_
    cases n with
    | int i => exact .of_ok i
    | float x => exact .of_ok _

theorem spares_items (v : Value) : Spares v.items := by
  unfold items
  split
  · exact .of_ok _
  · exact .of_ok _
  · exact .of_ok _
  · exact .of_ok _
  · exact .of_error rfl

theorem spares_pairOf (v : Value) : Spares v.pairOf := by
  unfold pairOf
  split
  · next fault hfault => exact .of_error (spares_items v fault hfault)
  · split
    · exact .of_ok _
    · exact .of_error rfl
  · exact .of_error rfl

theorem spares_fieldsOfPairs (acc : Fields) (items : List Value) : Spares (fieldsOfPairs acc items) := by
  induction items generalizing acc with
  | nil => exact .of_ok acc
  | cons v r ih =>
    unfold fieldsOfPairs
    split
    · exact ih _
    · next fault hfault => exact .of_error (spares_pairOf v fault hfault)

theorem spares_toText (v : Value) : Spares v.toText := by
  unfold toText
  split
  · exact .of_ok _
  · exact .of_error rfl

theorem spares_listed (v : Value) : Spares v.listed := by
  unfold listed
  split
  · exact .of_ok _
  · exact .of_error rfl

theorem spares_toFields (v : Value) : Spares v.toFields := by
  unfold toFields
  split
  · exact .of_ok _
  · exact (spares_items v).bind (spares_fieldsOfPairs [])

end Value

namespace Timecode

theorem spares_readText (s : List Char) {unread : Fault} (h : unread.isOther = true) :
    Spares (readText s unread) := by
  rcases settled_readText s with ⟨x, hx⟩ | hlarge | hunread
  · rw [hx]
    exact .of_ok x
  · rw [hlarge]
    exact .of_error rfl
  · rw [hunread]
    exact .of_error h

theorem spares_read (v : Value) (label : String) : Spares (read v label) := by
  unfold read
  split
  · exact .of_refuse rfl
  · exact .of_ok _
  · exact .of_orFault rfl _
  · exact spares_readText _ rfl
  · exact .of_refuse rfl

theorem spares_readMs (v : Value) (label : String) : Spares (readMs v label) := by
  refine (spares_read v label).bind fun time => ?_
  split
  · exact (Spares.of_orFault rfl _).bind fun _ => .of_ok _
  · exact .of_ok _

end Timecode

theorem spares_requireNonNegative (v : Value) (label : String) : Spares (requireNonNegative v label) := by
  unfold requireNonNegative
  split
  · exact .of_refuse rfl
  · split
    · exact .of_refuse rfl
    · exact .of_ok ()

theorem Color.spares_read (v : Value) : Spares (read v) := by
  have hitems : ∀ r g b, Spares (ofItems r g b) := fun r g b =>
    r.spares_toInt.bind fun _ => g.spares_toInt.bind fun _ => b.spares_toInt.bind fun _ => .of_ok _
  unfold read
  split
  · exact .of_ok _
  · exact .of_refuse rfl
  · exact .of_ok _
  · exact hitems _ _ _
  · exact hitems _ _ _
  · dsimp only
    split
    · exact .of_orFault rfl _
    · exact .of_orFault rfl _
  · exact .of_refuse rfl

/-! ## Section 2: Actions -/

namespace Act

/-- An action that answers or stops with another fault, wherever it starts. -/
def Spares (act : Act σ α) : Prop :=
  ∀ s, act.Ends s (fun fault => fault.isOther = true) fun _ _ => True

namespace Spares

theorem of_pure (a : α) : Spares (pure a : Act σ α) :=
  fun _ _ => trivial

theorem of_get : Spares (get : Act σ σ) :=
  fun _ _ => trivial

theorem of_set (s : σ) : Spares (set s : Act σ Unit) :=
  fun _ _ => trivial

theorem of_modify (f : σ → σ) : Spares (modify f : Act σ Unit) :=
  fun _ _ => trivial

theorem of_ofResult {r : Result α} (h : Overlay.Spares r) : Spares (ofResult r : Act σ α) := by
  intro s w
  cases r with
  | ok a => exact trivial
  | error fault => exact h fault rfl

theorem of_stop {cause : Cause} (h : (Fault.refused cause).isOther = true) :
    Spares (stop cause : Act σ α) :=
  fun _ _ => Cause.isOther_fault h

theorem bind {x : Act σ α} {f : α → Act σ β} (hx : Spares x) (hf : ∀ a, Spares (f a)) :
    Spares (x >>= f) :=
  fun s => (hx s).bind fun a t _ => hf a t

/-- A rule that stops an action or lets it go on. -/
theorem of_rule {c : Prop} [Decidable c] {cause : Cause} {f : Unit → Act σ β}
    (hcause : (Fault.refused cause).isOther = true) (h : Spares (f ())) :
    Spares (if c then stop cause >>= f else f ()) := by
  split
  · exact fun _ => .bind_stop (Cause.isOther_fault hcause)
  · exact h

theorem of_taken (word : String) (id : Value) {f : Value → Act σ β} (hf : ∀ v, Spares (f v)) :
    Spares (match id with
      | .none => (do return Value.text (← freshPrefixed word)) >>= f
      | v => pure v >>= f : Act σ β) :=
  fun s => Leaves.of_taken fun v _ => hf v s

theorem of_on {part : τ → σ} {put : σ → τ → τ} {act : Act σ α} (h : Spares act) :
    Spares (Act.on part put act) :=
  fun t => .of_on (h (part t))

end Spares

end Act

/-! ## Section 3: Resources -/

namespace Resource

theorem spares_normalizeColors (fs : Fields) : Spares (normalizeColors fs) := by
  induction fs with
  | nil => exact .of_ok []
  | cons e r ih =>
    obtain ⟨key, v⟩ := e
    cases key with
    | text name =>
      rw [normalizeColors, ok_bind]
      dsimp only
      split
      · exact (Color.spares_read v).bind fun _ => ih.bind fun _ => .of_ok _
      · exact ih.bind fun _ => .of_ok _
    | _ => exact .of_error rfl

theorem spares_checkOpacity (v : Value) : Spares (checkOpacity v) := by
  unfold checkOpacity
  split
  · exact .of_ok ()
  · split
    · exact .of_refuse rfl
    · split
      · exact .of_refuse rfl
      · exact .of_ok ()

theorem spares_duration (v : Value) (fallback : Int) : Spares (duration v fallback) := by
  unfold duration
  split
  · exact .of_ok _
  · split
    · exact .of_error rfl
    · exact .of_ok _
    · exact .of_ok _

theorem spares_checkNames (reserved : List String) (o : Fields) : Spares (checkNames reserved o) := by
  unfold checkNames
  split
  · exact .of_ok ()
  · exact .of_error rfl

theorem spares_resourceFields (es : Fields) (id : String) : Spares (Project.resourceFields es id) := by
  unfold Project.resourceFields
  dsimp only
  split
  · split
    · exact .of_ok _
    · exact (Timecode.spares_readMs _ _).bind fun _ => .of_ok _
  · exact .of_ok _

theorem spares_itemName (resource : Value) : Spares (itemName resource) := by
  refine (Value.spares_look _ _ _).bind fun name => ?_
  split
  · exact .of_ok _
  · refine (Value.spares_look _ _ _).bind fun kind => ?_
    split
    · exact .of_ok _
    · exact .of_error rfl

theorem createOf_spares (kind : ResourceKind) (o : Fields) :
    Act.Spares (createOf kind o : Act σ Fields) := by
  have hrest : ∀ id : String, Act.Spares (do
      let length ← Act.ofResult (duration (Fields.get o "durationMs") 2000)
      let full := fillIn (baseFields kind o (.text id) length ++ kindFields kind o) o
      let colored ← Act.ofResult (normalizeColors full)
      Act.ofResult (checkOpacity (Fields.get colored "opacity"))
      return colored : Act σ Fields) := fun id =>
    (Act.Spares.of_ofResult (spares_duration _ _)).bind fun _ =>
      (Act.Spares.of_ofResult (spares_normalizeColors _)).bind fun _ =>
        (Act.Spares.of_ofResult (spares_checkOpacity _)).bind fun _ => .of_pure _
  unfold createOf
  split
  · exact Act.Spares.bind (fun _ _ => trivial) hrest
  · exact (Act.Spares.of_ofResult (Value.spares_toText _)).bind hrest

theorem create_spares (kind : Value) (o : Fields) : Act.Spares (create kind o : Act σ Fields) := by
  refine (Act.Spares.of_ofResult (spares_checkNames _ _)).bind fun _ => ?_
  split
  · exact createOf_spares _ o
  · exact .of_stop rfl

end Resource

namespace Store

theorem spares_checkNew (store : Store) (fs : Fields) : Spares (checkNew store fs) := by
  unfold checkNew
  dsimp only
  split
  · exact .of_refuse rfl
  · split
    · exact .of_refuse rfl
    · split
      · exact .of_refuse rfl
      · exact Resource.spares_checkOpacity _

theorem add_spares (fs : Fields) : Act.Spares (add (.dict fs)) := by
  unfold add
  refine Act.Spares.of_get.bind fun store => ?_
  refine (Act.Spares.of_ofResult (spares_checkNew store fs)).bind fun _ => ?_
  exact (Act.Spares.of_modify _).bind fun _ => .of_pure fs

end Store

namespace Project

theorem forEach_spares {f : Nat → Value → Act Project Unit} (hf : ∀ n v, Act.Spares (f n v)) (n : Nat)
    (items : List Value) : Act.Spares (forEach f n items) := by
  induction items generalizing n with
  | nil => exact .of_pure ()
  | cons v r ih => exact (hf n v).bind fun _ => ih (n + 1)

theorem loadResource_spares (n : Nat) (entry : Value) : Act.Spares (loadResource n entry) := by
  unfold loadResource
  split
  · refine .of_rule rfl (.of_rule rfl ?_)
    refine (Act.Spares.of_ofResult (Value.spares_toText _)).bind fun shown => ?_
    refine (Act.Spares.of_ofResult (Resource.spares_resourceFields _ _)).bind fun o => ?_
    refine (Resource.create_spares _ o).bind fun resource => ?_
    exact (Act.Spares.of_on (Store.add_spares resource)).bind fun _ => .of_pure ()
  · exact .of_stop rfl

theorem loadResources_spares (v : Value) : Act.Spares (loadResources v) := by
  unfold loadResources
  split
  · exact .of_pure ()
  · exact forEach_spares loadResource_spares 1 _
  · exact .of_stop rfl

end Project

/-! ## Section 4: Clips -/

namespace Segment

theorem spares_segmentColors (fs : Fields) : Spares (Project.segmentColors fs) := by
  induction fs with
  | nil => exact .of_ok []
  | cons e r ih =>
    obtain ⟨key, v⟩ := e
    cases key with
    | text name =>
      rw [segmentColors_cons]
      refine .bind ?_ fun w => ih.bind fun rest => .of_ok _
      split
      · exact Color.spares_read v
      · exact .of_ok v
    | _ => exact .of_error rfl

theorem spares_checkKind (kind : Value) : Spares (checkKind kind) := by
  unfold checkKind
  split
  · exact .of_ok ()
  · exact .of_refuse rfl

theorem spares_checkDelay (delay : Value) : Spares (checkDelay delay) := by
  unfold checkDelay
  split
  · exact .of_ok ()
  · exact spares_requireNonNegative _ _

theorem spares_properties (v : Value) : Spares (properties v) := by
  unfold properties
  split
  · exact .of_ok _
  · exact .of_ok _
  · exact .of_refuse rfl

theorem create_spares (kind duration props delay id : Value) :
    Act.Spares (create kind duration props delay id : Act σ Value) := by
  unfold create
  refine (Act.Spares.of_ofResult (spares_checkKind kind)).bind fun _ => ?_
  refine (Act.Spares.of_ofResult (spares_requireNonNegative _ _)).bind fun _ => ?_
  refine (Act.Spares.of_ofResult (spares_checkDelay delay)).bind fun _ => ?_
  refine (Act.Spares.of_ofResult (spares_properties props)).bind fun ps => ?_
  exact .of_taken "anim" id (f := fun id => pure (Value.dict (fields kind duration ps delay id)))
    fun v => .of_pure _

end Segment

namespace Timeline

theorem requireTrack_spares (id : Value) : Act.Spares (requireTrack id) := by
  refine Act.Spares.of_get.bind fun tl => ?_
  split
  · exact .of_pure _
  · exact .of_stop rfl

theorem requireClip_spares (id : Value) : Act.Spares (requireClip id) := by
  refine Act.Spares.of_get.bind fun tl => ?_
  split
  · exact .of_pure _
  · exact .of_stop rfl

theorem spares_identifierOf (id : Value) : Spares (identifierOf id) := by
  unfold identifierOf
  split
  · exact .of_ok _
  · exact .of_error rfl

theorem spares_clipCalled (name : String) (clips : List Clip) : Spares (clipCalled name clips) := by
  induction clips with
  | nil => exact .of_ok none
  | cons c r ih =>
    refine (spares_identifierOf c.id).bind fun own => ?_
    split
    · exact .of_ok _
    · exact ih

theorem spares_checkClipId (tl : Timeline) (id : Value) : Spares (checkClipId tl id) := by
  unfold checkClipId
  dsimp only
  split
  · exact .of_refuse rfl
  · refine (spares_identifierOf id).bind fun name => (spares_clipCalled name _).bind fun found => ?_
    cases found with
    | none => exact .of_ok ()
    | some other => exact .of_refuse rfl

theorem spares_clipDuration (resource duration : Value) : Spares (clipDuration resource duration) := by
  unfold clipDuration
  split
  · exact (Value.spares_look _ _ _).bind fun _ => .of_ok _
  · exact .of_ok _

theorem extendTo_spares (c : Clip) : Act.Spares (extendTo c) := by
  refine (Act.Spares.of_ofResult (Value.spares_plus _ _)).bind fun stop => ?_
  refine Act.Spares.of_get.bind fun tl => ?_
  refine (Act.Spares.of_ofResult (Value.spares_lessThan _ _)).bind fun longer => ?_
  split
  · exact (Act.Spares.of_ofResult (Value.spares_plus _ _)).bind fun _ => .of_set _
  · exact .of_pure ()

theorem addClip_spares (resource trackId time id duration : Value) :
    Act.Spares (addClip resource trackId time id duration) := by
  unfold addClip
  refine (requireTrack_spares trackId).bind fun _ => ?_
  extract_lets next
  refine .of_taken "clip" id (f := next) fun taken => Act.Spares.of_get.bind fun tl => ?_
  refine (Act.Spares.of_ofResult (spares_checkClipId tl taken)).bind fun _ => ?_
  refine (Act.Spares.of_ofResult (spares_clipDuration _ _)).bind fun length => ?_
  refine (Act.Spares.of_ofResult (spares_requireNonNegative _ _)).bind fun _ => .of_rule rfl ?_
  refine (Act.Spares.of_ofResult (Value.spares_atLeastZero time)).bind fun start => ?_
  refine (Act.Spares.of_ofResult (Value.spares_field _ _)).bind fun resourceId => ?_
  refine (Act.Spares.of_ofResult (Resource.spares_itemName _)).bind fun name => ?_
  exact (Act.Spares.of_modify _).bind fun _ => (extendTo_spares _).bind fun _ => .of_pure _

theorem addAnimation_spares (clipId segment : Value) : Act.Spares (addAnimation clipId segment) :=
  (requireClip_spares clipId).bind fun _ =>
    (Act.Spares.of_ofResult (Value.spares_listed _)).bind fun _ => .of_modify _

end Timeline

namespace Project

theorem readSegment_spares (clipId : String) (entry : Value) :
    Act.Spares (readSegment clipId entry) := by
  unfold readSegment
  split
  · extract_lets label properties length rest
    have hrest : ∀ delay, Act.Spares (rest delay) := fun delay =>
      (Act.Spares.of_ofResult ((Value.spares_toFields _).bind Segment.spares_segmentColors)).bind
        fun ps => (Act.Spares.of_ofResult (Timecode.spares_readMs _ _)).bind fun ms =>
          Segment.create_spares _ _ _ delay _
    intro p
    exact Timecode.ends_of_optional (fun delay _ => hrest delay p) (Timecode.spares_readMs _ _)
  · exact .of_stop rfl

theorem loadAnimations_spares (clipId : Value) (items : List Value) :
    Act.Spares (loadAnimations clipId items) := by
  induction items with
  | nil => exact .of_pure ()
  | cons entry r ih =>
    refine (readSegment_spares _ entry).bind fun segment => ?_
    exact (Act.Spares.of_on (Timeline.addAnimation_spares clipId segment)).bind fun _ => ih

theorem loadClip_spares (track : String) (entry : Value) : Act.Spares (loadClip track entry) := by
  unfold loadClip
  split
  · refine .of_rule rfl ((Act.Spares.of_ofResult (Value.spares_toText _)).bind fun shown => ?_)
    refine Act.Spares.of_get.bind fun p => ?_
    extract_lets resource id start name labelled
    have hlabelled : ∀ label, Act.Spares (labelled label) := by
      intro label
      refine (Act.Spares.of_ofResult (Timecode.spares_readMs _ _)).bind fun ms => ?_
      extract_lets rest
      have hrest : ∀ length, Act.Spares (rest length) := by
        intro length
        refine (Act.Spares.of_on (Timeline.addClip_spares _ _ _ _ length)).bind fun clip => ?_
        extract_lets animated
        have hanimated : ∀ u, Act.Spares (animated u) := by
          intro u
          dsimp only [animated]
          split
          · exact loadAnimations_spares _ _
          · exact .of_stop rfl
        split
        · exact (Act.Spares.of_on (.of_modify _)).bind hanimated
        · exact hanimated ()
      exact fun p => Timecode.ends_of_optional (fun length _ => hrest length p)
        (Timecode.spares_readMs _ _)
    split
    · exact (Act.Spares.of_pure _).bind hlabelled
    · refine Act.Spares.bind ?_ hlabelled
      exact (Act.Spares.of_ofResult (Value.spares_toText _)).bind fun _ => .of_pure _
  · exact .of_stop rfl

/-! ## Section 5: Projects -/

theorem spares_checkData (data : Value) : Spares (checkData data) := by
  unfold checkData
  split
  · dsimp only
    split
    · exact .of_refuse rfl
    · split
      · exact .of_refuse rfl
      · exact .of_ok _
  · exact .of_refuse rfl

theorem spares_readPlayback (v : Value) : Spares (readPlayback v) := by
  unfold readPlayback
  split
  · exact .of_ok _
  · exact .of_ok _
  · exact .of_refuse rfl

theorem spares_readOutput (v override : Value) : Spares (readOutput v override) := by
  unfold readOutput
  split
  all_goals
    split
    · exact .of_ok _
    · exact .of_ok _
    · exact .of_refuse rfl

end Project

end Overlay
