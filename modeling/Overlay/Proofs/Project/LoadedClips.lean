import Overlay.Proofs.Project.LoadedResources
import Overlay.Proofs.Timeline.Refusals

/-!
# Loading clips

The entry of a clip becomes a clip of a track, with the segments of its animations, or the loader stops
with a fault; the fault is a report, as long as the values of the entry are guarded.  A clip is placed
before its name and its animations are known, but the timeline ends up as if the finished clip had been
placed.

## Main definitions
- `Project.withClip`: a project with one more clip
- `Store.Shows`, `Clip.Parts`: what a clip needs of its resource, and what it is made of

## Main statements
- `Project.readSegment_ends`: the segment of an entry
- `Timeline.addClip_ends`: a clip that is placed
- `Project.loadAnimations_ends`, `Project.loadClip_ends`: the clip of an entry
-/

namespace Overlay

open Overlay.Number

theorem nonneg_of_requireNonNegative {i : Int} {label : String}
    (h : requireNonNegative (.int i) label = .ok ()) : 0 ≤ i := by
  obtain ⟨j, hj, hpos⟩ := exists_int_of_requireNonNegative rfl h
  exact Value.int.inj hj ▸ hpos

theorem reports_requireNonNegative {g : Bool} (v : Value) (label : String) :
    Reports g (requireNonNegative v label) := by
  unfold requireNonNegative
  split
  · exact .of_refuse rfl
  · split
    · exact .of_refuse rfl
    · exact .of_ok ()

/-! ## Section 1: Segments -/

namespace Segment

variable {ps qs : Fields} {g : Bool}

/-- The properties are read one after the other. -/
theorem segmentColors_cons (name : String) (v : Value) (r : Fields) :
    Project.segmentColors ((.text name, v) :: r)
      = (if isColorText (.text name, v) then Color.read v else .ok v) >>= fun w =>
          Project.segmentColors r >>= fun rest => pure ((.text name, w) :: rest) := by
  rw [Project.segmentColors, ok_bind]
  cases v with
  | text s =>
    by_cases hcolor : Resource.isColorName name = true
    · simp only [isColorText, hcolor, if_true]
    · simp only [isColorText, hcolor, if_false, ok_bind, Bool.false_eq_true]
  | _ => rfl

/-- The properties keep their keys and their order. -/
theorem propertyFrom_of_segmentColors (h : Project.segmentColors ps = .ok qs) :
    List.Forall₂ PropertyFrom ps qs := by
  -- one property after the other; a key that is no text ends the reading
  induction ps generalizing qs with
  | nil =>
    rw [← Except.ok.inj h]
    exact .nil
  | cons e r ih =>
    obtain ⟨key, v⟩ := e
    cases key with
    | text name =>
      rw [segmentColors_cons] at h
      obtain ⟨w, hw, h⟩ := bind_eq_ok.mp h
      obtain ⟨rest, hrest, h⟩ := bind_eq_ok.mp h
      rw [← Except.ok.inj h]
      refine .cons ⟨rfl, ?_⟩ (ih hrest)
      split at hw
      · next hcolor => rwa [if_pos hcolor]
      · next hcolor => rw [if_neg hcolor, Except.ok.inj hw]
    | _ => cases h

/-- Guarded properties are taken over or refused by a rule. -/
theorem reports_segmentColors (hguard : g = true → ∀ e ∈ ps, isGuardedProperty e = true) :
    Reports g (Project.segmentColors ps) := by
  induction ps with
  | nil => exact .of_ok []
  | cons e r ih =>
    obtain ⟨key, v⟩ := e
    have hhead : g = true → isGuardedProperty (key, v) = true :=
      fun hg => hguard hg _ List.mem_cons_self
    have htail : g = true → ∀ e ∈ r, isGuardedProperty e = true :=
      fun hg e he => hguard hg e (List.mem_cons_of_mem _ he)
    cases key with
    | text name =>
      rw [segmentColors_cons]
      refine .bind ?_ fun w _ => (ih htail).bind fun rest _ => .of_ok _
      split
      · next hcolor =>
        refine Color.reports_read fun hg => ?_
        simpa [isGuardedProperty, hcolor] using hhead hg
      · exact .of_ok v
    | _ =>
      intro _ _ hg
      cases hhead hg

theorem reports_properties {v : Value} (hguard : g = true → areGuarded v = true) :
    Reports g ((Emission.orElse v (.dict [])).toFields >>= Project.segmentColors) := by
  unfold areGuarded at hguard
  cases hfields : (Emission.orElse v (.dict [])).toFields with
  | error fault =>
    rw [hfields] at hguard
    exact fun _ _ hg => nomatch hguard hg
  | ok ps =>
    rw [hfields] at hguard
    rw [ok_bind]
    exact reports_segmentColors fun hg => List.all_eq_true.mp (hguard hg)

/-- The properties that an entry gives are read as they are. -/
theorem orElse_of_gives {entry : Value} (h : Gives entry ps) :
    Emission.orElse (entry.get "properties") (.dict []) = .dict ps := by
  rcases h with h | ⟨h, rfl⟩
  · rw [h, Emission.orElse]
    cases ps with
    | nil => rfl
    | cons e r => rfl
  · rw [h]
    rfl

theorem reports_checkKind {kind : Value} (h : g = true → kind.hasText = true) :
    Reports g (checkKind kind) := by
  unfold checkKind
  split
  · exact .of_ok ()
  · exact Fails.error fun hg => Cause.isReport_fault rfl rfl (h hg)

theorem reports_checkDelay (delay : Value) : Reports g (checkDelay delay) := by
  unfold checkDelay
  split
  · exact .of_ok ()
  · exact reports_requireNonNegative _ _

/-- A segment is made of what is given, or a rule refuses it. -/
theorem create_ends {σ : Type} {kind : Value} (hkind : g = true → kind.hasText = true)
    (duration delay id : Value) (props : Fields) (s : σ) :
    (create kind duration (.dict props) delay id : Act σ Value).Ends s (Fault.IsReportIf g)
      fun segment t => t = s ∧ requireNonNegative duration durationLabel = .ok ()
        ∧ checkDelay delay = .ok ()
        ∧ ∃ taken, Act.Taken "anim" id taken
          ∧ segment = .dict (fields kind duration props delay taken) := by
  unfold create
  refine .bind_ofResult (fun _ _ => ?_) (reports_checkKind hkind)
  refine .bind_ofResult (fun _ hlength => ?_) (reports_requireNonNegative _ _)
  refine .bind_ofResult (fun _ hdelay => .bind_pure ?_) (reports_checkDelay delay)
  exact .of_taken (f := fun id => pure (Value.dict (fields kind duration props delay id)))
    fun taken htaken => .of_pure ⟨rfl, hlength, hdelay, taken, htaken, rfl⟩

/-- What is made of the parts of an entry is the segment of the entry. -/
theorem loadedFrom_fields {es : Fields} {ms : Int} {delay taken : Value}
    (hms : Timecode.under (.dict es) "duration" = some ms)
    (hlength : requireNonNegative (.int ms) durationLabel = .ok ())
    (hread : Timecode.IsRead (Fields.get es "delay") delay) (hdelay : checkDelay delay = .ok ())
    (hprops : ((Emission.orElse (Fields.get es "properties") (.dict [])).toFields
      >>= Project.segmentColors) = .ok qs)
    (htaken : Act.Taken "anim" (Fields.get es "id") taken) :
    LoadedFrom (.dict es) (.dict (fields (Fields.get es "type") (.int ms) qs delay taken)) := by
  refine ⟨⟨es, rfl⟩, ?_, ⟨ms, hms, nonneg_of_requireNonNegative hlength, ?_⟩, ?_, fun ps hps => ?_,
    fun hid => ?_⟩
  · simp [fields, Fields.get_cons_text]
  · simp [fields, Fields.get_cons_text]
  · rcases hread with ⟨hnone, rfl⟩ | ⟨n, hn, rfl⟩
    · exact Or.inl ⟨hnone, by simp [fields, Fields.get_cons_text]; rfl⟩
    · refine Or.inr ⟨n, hn, nonneg_of_requireNonNegative hdelay, ?_⟩
      simp [fields, Fields.get_cons_text]
  · rw [← Value.get_dict es, orElse_of_gives hps] at hprops
    refine ⟨qs, ?_, propertyFrom_of_segmentColors hprops⟩
    simp [fields, Fields.get_cons_text]
  · simp [fields, Fields.get_cons_text, htaken.eq_of_given hid]

end Segment

namespace Project

/-- The segment of an entry is made without a change of the project. -/
theorem readSegment_ends {g : Bool} (clipId : String) (entry : Value) (p : Project)
    (hguard : g = true → Segment.isGuarded entry = true) :
    (readSegment clipId entry).Ends p (Fault.IsReportIf g) fun segment p' =>
      p' = p ∧ Segment.LoadedFrom entry segment := by
  unfold readSegment
  split
  · next es =>
    extract_lets label properties length rest
    have hguarded : g = true → Timecode.inRange (Fields.get es "delay") = true
        ∧ Timecode.inRange (Fields.get es "duration") = true
        ∧ Segment.areGuarded (Fields.get es "properties") = true
        ∧ (Fields.get es "type").hasText = true := by
      intro hg
      simpa [Segment.isGuarded, and_assoc] using hguard hg
    have hrest : ∀ delay, Timecode.IsRead (Fields.get es "delay") delay →
        (rest delay).Ends p (Fault.IsReportIf g) fun segment p' =>
          p' = p ∧ Segment.LoadedFrom (.dict es) segment := by
      intro delay hdelay
      refine .bind_ofResult (fun qs hqs => ?_)
        (Segment.reports_properties fun hg => (hguarded hg).2.2.1)
      refine .bind_ofResult (fun ms hms => ?_) (Timecode.reports_under fun hg => (hguarded hg).2.1)
      refine (Segment.create_ends (fun hg => (hguarded hg).2.2.2) _ _ _ _ p).mono ?_
      rintro _ p ⟨rfl, hlength, hcheck, taken, htaken, rfl⟩
      exact ⟨rfl, Segment.loadedFrom_fields (Timecode.under_of_readMs hms) hlength hdelay hcheck
        hqs htaken⟩
    exact Timecode.ends_of_optional hrest (Timecode.reports_readMs fun hg => (hguarded hg).1)
  · exact .of_stop fun _ => rfl

end Project

/-! ## Section 2: Placing clips -/

namespace Timeline

variable {tl : Timeline} {g : Bool}

theorem requireTrack_ends (tl : Timeline) {id : Value} (hid : id.hasText = true) :
    (requireTrack id).Ends tl (Fault.IsReportIf g)
      fun t tl' => tl' = tl ∧ tl.findTrack? id = some t := by
  unfold requireTrack
  refine .bind_get ?_
  split
  · next t hfind => exact .of_pure ⟨rfl, hfind⟩
  · exact .of_stop fun _ => Cause.isReport_fault rfl rfl hid

/-- Clips whose ids can be shown. -/
def IdsShown (tl : Timeline) : Prop :=
  ∀ c ∈ tl.clips, c.id.hasText = true

theorem reports_identifierOf {id : Value} (h : id.hasText = true) : Reports g (identifierOf id) := by
  rw [identifierOf, if_pos h]
  exact .of_ok _

/-- A clip is looked for by its identifier among clips whose ids can be shown. -/
theorem clipCalled_ends {clips : List Clip} (h : ∀ c ∈ clips, c.id.hasText = true) (name : String) :
    Reports g (clipCalled name clips) ∧ ∀ c, clipCalled name clips = .ok (some c) → c ∈ clips := by
  induction clips with
  | nil => exact ⟨.of_ok none, fun c hc => nomatch hc⟩
  | cons c r ih =>
    obtain ⟨hc, hr⟩ := List.forall_mem_cons.mp h
    obtain ⟨hreports, hmem⟩ := ih hr
    rw [clipCalled]
    refine ⟨(reports_identifierOf hc).bind fun own _ => ?_, fun d hd => ?_⟩
    · split
      · exact .of_ok _
      · exact hreports
    · obtain ⟨own, -, hd⟩ := bind_eq_ok.mp hd
      split at hd
      · rw [← Option.some.inj (Except.ok.inj hd)]
        exact List.mem_cons_self
      · exact List.mem_cons_of_mem c (hmem d hd)

theorem reports_checkClipId (htl : tl.IdsShown) {id : Value} (hid : id.hasText = true) :
    Reports g (checkClipId tl id) := by
  unfold checkClipId
  dsimp only
  split
  · exact .of_refuse (Cause.isReport_fault rfl rfl hid)
  · refine (reports_identifierOf hid).bind fun name _ => ?_
    obtain ⟨hreports, hmem⟩ := clipCalled_ends htl name
    refine hreports.bind fun found hfound => ?_
    cases found with
    | none => exact .of_ok ()
    | some other =>
      -- the report speaks of both ids, so the one that is there already has to be shown too
      have hother := htl other (hmem other hfound)
      refine .of_refuse ?_
      rw [Cause.fault, if_pos (by simp [Cause.isTellable, Cause.values, hid, hother])]
      rfl

/-- A clip is placed, or a rule refuses it.  Only where its length is a double and its start is beyond
all doubles, it cannot be told where it ends. -/
theorem addClip_ends (hmeasured : tl.Measured) (hshown : tl.IdsShown)
    {resource trackId id duration length rid name : Value} {ms : Int}
    (htrack : trackId.hasText = true) (hid : id = .none ∨ ∃ s, id = .text s)
    (hlength : clipDuration resource duration = .ok length)
    (hplace : ∀ x, length = .float x → x.place?.isSome) (hrid : resource.field "id" = .ok rid)
    (hname : Resource.itemName resource = .ok name)
    (hguard : g = true → length.isFloat = false ∨ (doubleOfInt? (max 0 ms)).isSome = true) :
    (addClip resource trackId (.int ms) id duration).Ends tl (Fault.IsReportIf g)
      fun c tl' => ∃ longer, NewClip tl resource trackId (.int ms) id duration c
        ∧ c.start = .int (max 0 ms) ∧ c.duration.isNonNegative = true ∧ longer.isNonNegative = true
        ∧ tl' = { tl.place trackId c with duration := longer } := by
  have hstart : (Value.int ms).atLeastZero = .ok (.int (max 0 ms)) := by
    rw [Value.atLeastZero_of_whole? rfl]
    split
    · rw [max_eq_right (by omega)]
    · rw [max_eq_left (by omega)]
  unfold addClip
  refine (requireTrack_ends tl htrack).bind ?_
  rintro t tl ⟨rfl, ht⟩
  extract_lets next
  refine .of_taken (f := next) fun taken htaken => .bind_get ?_
  have htext : taken.hasText = true := by
    obtain ⟨s, rfl⟩ := htaken.exists_text hid
    rfl
  refine .bind_ofResult (fun _ hfree => ?_) (reports_checkClipId hshown htext)
  refine .bind_known hlength (.bind_ofResult (fun _ hnonneg => ?_) (reports_requireNonNegative _ _))
  have hpos := isNonNegative_of_requireNonNegative hnonneg hplace
  extract_lets put
  rw [if_neg (by simp [Value.plainNumber?])]
  refine .bind_known hstart (.bind_known hrid (.bind_known hname ?_))
  extract_lets c
  have hnew : NewClip tl resource trackId (.int ms) id duration c :=
    ⟨by rw [ht]; rfl, htaken, hfree, hlength, hnonneg, rfl, hstart, hrid, hname, rfl, rfl, rfl⟩
  -- the timeline has to reach the end of the clip, which is known apart from one case
  have hends := (hmeasured.place trackId c).extent_delivers (c := c) rfl (le_max_left 0 ms) hpos
  refine .bind_modify (extendTo_bind (fun fault hend hg => ?_) fun longer hend => ?_)
  · rcases hends with ⟨longer, hlonger, -⟩ | ⟨⟨hfloat, hnone⟩, -⟩
    · cases hend.symm.trans hlonger
    · rcases hguard hg with hwhole | hdouble
      · cases hwhole.symm.trans hfloat
      · rw [hnone] at hdouble
        cases hdouble
  · rcases hends with ⟨longer', hlonger, hlongest⟩ | ⟨-, hlarge⟩
    · obtain rfl := Except.ok.inj (hend.symm.trans hlonger)
      exact ⟨longer, hnew, rfl, hpos, hlongest, rfl⟩
    · cases hend.symm.trans hlarge

theorem findClip?_eq_none_of_checkClipId {id : Value} (h : checkClipId tl id = .ok ()) :
    tl.findClip? id = none := by
  unfold checkClipId at h
  dsimp only at h
  split at h
  · cases h
  · next hnone => simpa using hnone

end Timeline

namespace Project

variable {p : Project} {track : String} {c : Clip} {length : Value} {above below : List Track}
  {t : Track} {e : Fault → Prop} {g : Bool}

/-- A project with one more clip on a track, and with a timeline of a length. -/
def withClip (p : Project) (track : String) (c : Clip) (length : Value) : Project :=
  { p with timeline := { p.timeline.place (.text track) c with duration := length } }

/-- A clip that has been placed is changed as if the changed one had been placed. -/
theorem changeClip_ends (h : p.timeline.Room (.text track) c above below t) {f : Clip → Clip}
    (hstart : ∀ d, (f d).start = d.start) :
    (onTimeline (modify fun tl => tl.changeClip c.id f)).Ends (p.withClip track c length) e
      fun _ p' => p' = p.withClip track (f c) length := by
  refine .of_on (.of_modify ?_)
  show { p with timeline := { (p.timeline.place (.text track) c).changeClip c.id f with
    duration := length } } = p.withClip track (f c) length
  rw [h.changeClip_place hstart, withClip]

theorem addAnimation_ends (h : p.timeline.Room (.text track) c above below t) {items : List Value}
    (hlist : c.animations = .list items) (segment : Value) :
    (onTimeline (Timeline.addAnimation c.id segment)).Ends (p.withClip track c length) e
      fun _ p' => p' = p.withClip track { c with animations := .list (items ++ [segment]) } length := by
  have hfind : (p.withClip track c length).timeline.findClip? c.id = some c := h.findClip?_place
  have hchange : (onTimeline (modify fun tl => tl.changeClip c.id fun d =>
      { d with animations := .list (items ++ [segment]) })).Ends (p.withClip track c length) e _ :=
    changeClip_ends h fun _ => rfl
  intro w
  rw [onTimeline, Timeline.addAnimation, Act.perform_on, Act.perform_bind,
    Timeline.perform_requireClip hfind]
  dsimp only
  rw [Act.perform_bind, Act.perform_ofResult, Value.listed_eq_ok.mpr hlist]
  exact hchange w

/-- The animations of a clip come one behind the other. -/
theorem loadAnimations_ends (h : p.timeline.Room (.text track) c above below t)
    {before : List Value} (hlist : c.animations = .list before) (items : List Value)
    (hguard : g = true → items.all Segment.isGuarded = true) :
    (loadAnimations c.id items).Ends (p.withClip track c length) (Fault.IsReportIf g) fun _ p' =>
      ∃ segments, List.Forall₂ Segment.LoadedFrom items segments
        ∧ p' = p.withClip track { c with animations := .list (before ++ segments) } length := by
  -- the clip grows with each animation, but finds the room of its id as before
  induction items generalizing c before with
  | nil =>
    refine .of_pure ⟨[], .nil, ?_⟩
    rw [List.append_nil, ← hlist]
  | cons entry r ih =>
    have hentries : g = true → Segment.isGuarded entry = true ∧ r.all Segment.isGuarded = true := by
      intro hg
      have hall := hguard hg
      rwa [List.all_cons, Bool.and_eq_true] at hall
    rw [loadAnimations]
    refine (readSegment_ends _ entry _ fun hg => (hentries hg).1).bind ?_
    rintro segment _ ⟨rfl, hsegment⟩
    refine (addAnimation_ends h hlist segment).bind ?_
    rintro _ _ rfl
    have hrest := ih (c := { c with animations := .list (before ++ [segment]) }) (h.of_id_eq rfl) rfl
      fun hg => (hentries hg).2
    refine Act.Ends.mono hrest ?_
    rintro _ _ ⟨segments, hsegments, rfl⟩
    refine ⟨segment :: segments, .cons hsegment hsegments, ?_⟩
    rw [List.append_assoc, List.singleton_append]

/-- The animations that an entry lists come behind the name. -/
theorem loadAnimationsOf_ends (h : p.timeline.Room (.text track) c above below t)
    (hlist : c.animations = .list []) {es : Fields}
    (hguard : g = true → ((Value.dict es).get "animations").entries.all Segment.isGuarded = true)
    (name : Value) :
    (match (Fields.get? es "animations").getD (.list []) with
      | .list items => loadAnimations c.id items
      | _ => Act.stop (.animationListKind c.id.shown) : Act Project Unit).Ends
      (p.withClip track { c with name := name } length) (Fault.IsReportIf g) fun _ p' =>
      ∃ segments, List.Forall₂ Segment.LoadedFrom ((Value.dict es).get "animations").entries segments
        ∧ p' = p.withClip track { c with name := name, animations := .list segments } length := by
  split
  · next items hitems =>
    rw [Value.entries_get hitems] at hguard ⊢
    exact loadAnimations_ends (c := { c with name := name }) (h.of_id_eq rfl) hlist items hguard
  · exact .of_stop fun _ => rfl

end Project

/-! ## Section 3: Clips -/

theorem Project.asText_cases (v : Value) : asText v = .none ∨ ∃ s, asText v = .text s := by
  cases v with
  | none => exact Or.inl rfl
  | _ => exact Or.inr ⟨_, rfl⟩

/-- What is needed of a resource, or of what stands for it, to place a clip. -/
structure Store.Shows (store : Store) (shown : String) (resource : Value) : Prop where
  id : resource.field "id" = .ok (.text shown)
  name : ∃ name, Resource.itemName resource = .ok name
  length : Timeline.clipDuration resource .none = .ok (store.lengthOf shown)
  place : ∀ x, store.lengthOf shown = .float x → x.place?.isSome

/-- The length of a resource is an integer or a finite double. -/
theorem Resource.place?_of_duration {v : Value} {fallback : Int} {x : Double}
    (h : duration v fallback = .ok (.float x)) : x.place?.isSome := by
  unfold duration at h
  split at h
  · cases h
  · split at h
    · cases h
    · cases h
    · have h := Except.ok.inj h
      split at h
      · cases h
      · next hfinite =>
        split at h
        · cases h
        · rw [← Value.float.inj h, Double.place?_of_isFinite (by simpa using hfinite)]
          rfl

/-- The name of a resource of a known kind can be told. -/
theorem Resource.exists_itemName {fs : Fields} {k : ResourceKind}
    (h : Fields.get fs "type" = .text k.word) : ∃ name, itemName (.dict fs) = .ok name := by
  unfold itemName defaultName
  rw [Fields.look_dict, Fields.look_dict, ok_bind, ok_bind, h]
  split
  · exact ⟨_, rfl⟩
  · exact ⟨_, rfl⟩

/-- A clip shows a resource of the store, or what stands for one that is not there. -/
theorem Store.shows_of_loadedFrom {store : Store} {entries : List Value}
    (h : List.Forall₂ Resource.LoadedFrom entries store.resources) (shown : String) :
    store.Shows shown
      (((store.find? (.text shown)).map Value.dict).getD (Project.placeholder shown)) := by
  cases hfind : store.find? (.text shown) with
  | none =>
    have hlength : store.lengthOf shown = .int Timeline.defaultClipDuration := by
      rw [lengthOf, hfind]
    refine ⟨rfl, ⟨_, rfl⟩, ?_, fun x hx => ?_⟩
    · rw [hlength]
      rfl
    · rw [hlength] at hx
      cases hx
  | some fs =>
    have hfound : store.resources.find? (hasId (.text shown)) = some fs := hfind
    -- the length of a stored resource was checked when it was loaded
    obtain ⟨entry, -, hloaded⟩ := exists_mem_of_forall₂ h fs (List.mem_of_find?_eq_some hfound)
    have hsame : hasId (.text shown) fs = true := List.find?_some hfound
    have hid : Fields.get fs "id" = .text shown := Value.same_text.mp hsame
    obtain ⟨k, hk⟩ := hloaded.known
    obtain ⟨given, -, hgiven⟩ := hloaded.length
    have hlength : store.lengthOf shown = if (Fields.get fs "durationMs").holds
        then Fields.get fs "durationMs" else .int Timeline.defaultClipDuration := by
      rw [lengthOf, hfind]
    refine ⟨Fields.field_dict (Fields.get?_of_get hid (by simp)),
      Resource.exists_itemName (hloaded.kind.trans hk), ?_, fun x hx => ?_⟩
    · rw [hlength]
      rfl
    · rw [hlength] at hx
      split at hx
      · rw [hx] at hgiven
        exact Resource.place?_of_duration hgiven
      · cases hx

/-- The parts that the clip of an entry is made of: a resource, or what stands for it, a start, and a
length that is the given one or that of the resource. -/
structure Clip.Parts (store : Store) (es : Fields) (resource : Value) (ms : Int) (given length : Value) :
    Prop where
  named : Fields.get es "resource" ≠ .none
  shows : store.Shows (Fields.get es "resource").shown resource
  start : Timecode.under (.dict es) "start" = some ms
  clipDuration : Timeline.clipDuration resource given = .ok length
  place : ∀ x, length = .float x → x.place?.isSome
  of_given : Fields.get es "duration" ≠ .none →
    ∃ ms, Timecode.ms? (Fields.get es "duration") = some ms ∧ length = .int ms
  of_resource : Fields.get es "duration" = .none →
    length = store.lengthOf (Fields.get es "resource").shown

namespace Clip

variable {store : Store} {es : Fields} {resource given length : Value} {ms : Int}

theorem exists_parts (hnamed : Fields.get es "resource" ≠ .none)
    (hshows : store.Shows (Fields.get es "resource").shown resource)
    (hstart : Timecode.under (.dict es) "start" = some ms)
    (hread : Timecode.IsRead (Fields.get es "duration") given) :
    ∃ length, Parts store es resource ms given length := by
  rcases hread with ⟨hnone, rfl⟩ | ⟨i, hi, rfl⟩
  · exact ⟨_, hnamed, hshows, hstart, hshows.length, hshows.place, fun hne => absurd hnone hne,
      fun _ => rfl⟩
  · refine ⟨.int i, hnamed, hshows, hstart, rfl, fun x hx => (nomatch hx), fun _ => ⟨i, hi, rfl⟩,
      fun hnone => ?_⟩
    rw [hnone] at hi
    cases hi

/-- The end of a clip can be told as far as its entry is guarded. -/
theorem Parts.isFloat_or_isSome (h : Parts store es resource ms given length)
    (hguard : isGuarded (.dict es) = true) :
    length.isFloat = false ∨ (doubleOfInt? (max 0 ms)).isSome = true := by
  unfold isGuarded at hguard
  rw [Bool.and_eq_true, Bool.and_eq_true, Bool.or_eq_true, h.start, Option.all_some] at hguard
  obtain ⟨⟨-, hlength | hdouble⟩, -⟩ := hguard
  · refine Or.inl ?_
    have hne : Fields.get es "duration" ≠ .none := by
      intro hnone
      rw [Value.get_dict, hnone] at hlength
      cases hlength
    obtain ⟨i, -, rfl⟩ := h.of_given hne
    rfl
  · exact Or.inr hdouble

/-- A placed clip with its name and its animations is the clip of the entry. -/
theorem Parts.loadedFrom (h : Parts store es resource ms given length) {tl : Timeline} {trackId : Value}
    {c : Clip} {name : Value} {segments : List Value}
    (hnew : tl.NewClip resource trackId (.int ms) (Project.asText (Fields.get es "id")) given c)
    (hplaced : c.start = .int (max 0 ms)) (hpos : c.duration.isNonNegative = true)
    (hname : Fields.get es "name" ≠ .none → name = Fields.get es "name")
    (hsegments : List.Forall₂ Segment.LoadedFrom ((Value.dict es).get "animations").entries segments) :
    LoadedFrom store trackId (.dict es) { c with name := name, animations := .list segments } := by
  obtain rfl : length = c.duration := Except.ok.inj (h.clipDuration.symm.trans hnew.length)
  have hid : Fields.get es "id" ≠ .none → c.id = .text (Fields.get es "id").shown := by
    intro hid
    have htaken := hnew.taken
    cases hvalue : Fields.get es "id" with
    | none => exact absurd hvalue hid
    | _ =>
      rw [hvalue] at htaken
      exact htaken.eq_of_given (by simp [Project.asText])
  refine ⟨⟨es, rfl⟩, h.named, ?_, ⟨ms, h.start, hplaced⟩, h.of_given, h.of_resource, hpos, ?_, hid, hname,
    hnew.trackId_eq, ⟨segments, rfl, hsegments⟩, hnew.extra⟩
  · exact Except.ok.inj (hnew.resourceId.symm.trans h.shows.id)
  · exact hnew.taken.exists_text (Project.asText_cases _)

end Clip

namespace Project

variable {p : Project} {track : String} {above below : List Track} {t : Track} {g : Bool}

/-- The clip of an entry is placed before its name and its animations are known. -/
theorem placeClip_ends {es : Fields} {resource given length id : Value} {ms : Int}
    (hparts : Clip.Parts p.store es resource ms given length) (hmeasured : p.timeline.Measured)
    (hshown : p.timeline.IdsShown) (hid : id = .none ∨ ∃ s, id = .text s)
    (hguard : g = true → Clip.isGuarded (.dict es) = true) :
    (onTimeline (Timeline.addClip resource (.text track) (.int ms) id given)).Ends p
      (Fault.IsReportIf g) fun c p' => ∃ longer,
        p.timeline.NewClip resource (.text track) (.int ms) id given c
          ∧ c.start = .int (max 0 ms) ∧ c.duration.isNonNegative = true ∧ longer.isNonNegative = true
          ∧ p' = p.withClip track c longer := by
  obtain ⟨name, hname⟩ := hparts.shows.name
  have hadd : (Timeline.addClip resource (.text track) (.int ms) id given).Ends p.timeline
      (Fault.IsReportIf g) _ :=
    Timeline.addClip_ends hmeasured hshown rfl hid hparts.clipDuration hparts.place hparts.shows.id hname
      fun hg => hparts.isFloat_or_isSome (hguard hg)
  refine .of_on (hadd.mono ?_)
  rintro c _ ⟨longer, hnew, hstart, hpos, hlonger, rfl⟩
  exact ⟨longer, hnew, hstart, hpos, hlonger, rfl⟩

/-- A clip that has been placed finds room for what it will be. -/
theorem room_of_newClip {resource id time length : Value} {c : Clip}
    (htracks : p.timeline.tracks = above ++ t :: below)
    (hothers : ∀ u ∈ above, Timeline.isTrack (.text track) u = false)
    (htrack : Timeline.isTrack (.text track) t = true)
    (h : p.timeline.NewClip resource (.text track) time (asText id) length c) :
    p.timeline.Room (.text track) c above below t := by
  exact ⟨htracks, hothers, htrack, h.taken.exists_text (asText_cases id),
    Timeline.findClip?_eq_none_of_checkClipId h.free⟩

/-- The clip of an entry is placed on its track. -/
theorem loadClip_ends {entries : List Value}
    (hstore : List.Forall₂ Resource.LoadedFrom entries p.store.resources)
    (hmeasured : p.timeline.Measured) (hshown : p.timeline.IdsShown)
    (htracks : p.timeline.tracks = above ++ t :: below)
    (hothers : ∀ u ∈ above, Timeline.isTrack (.text track) u = false)
    (htrack : Timeline.isTrack (.text track) t = true) (entry : Value)
    (hguard : g = true → Clip.isGuarded entry = true) :
    (loadClip track entry).Ends p (Fault.IsReportIf g) fun _ p' =>
      ∃ c longer, Clip.LoadedFrom p.store (.text track) entry c ∧ longer.isNonNegative = true
        ∧ p' = p.withClip track c longer := by
  unfold loadClip
  split
  · next es =>
    have hguarded : g = true → (Fields.get es "resource").hasText = true
        ∧ (Fields.get es "id").hasText = true ∧ Timecode.inRange (Fields.get es "start") = true
        ∧ Timecode.inRange (Fields.get es "duration") = true
        ∧ ((Value.dict es).get "animations").entries.all Segment.isGuarded = true := by
      intro hg
      have h := hguard hg
      simp only [Clip.isGuarded, Bool.and_eq_true] at h
      exact ⟨h.1.1.1.1.1, h.1.1.1.1.2, h.1.1.1.2, h.1.1.2, h.2⟩
    extract_lets resourceId id start name next
    split
    · exact .bind_stop fun _ => rfl
    next hresource =>
    refine .bind_ofResult (fun shown hshows => ?_) (Reports.of_toText fun hg => (hguarded hg).1)
    obtain rfl := Value.eq_shown_of_toText hshows
    refine .bind_get ?_
    extract_lets resource labelled
    have hlabelled : ∀ label, (labelled label).Ends p (Fault.IsReportIf g) fun _ p' =>
        ∃ c longer, Clip.LoadedFrom p.store (.text track) (.dict es) c
          ∧ longer.isNonNegative = true ∧ p' = p.withClip track c longer := by
      intro label
      refine .bind_ofResult (fun ms hms => ?_)
        (Timecode.reports_under fun hg => (hguarded hg).2.2.1)
      extract_lets rest
      have hrest : ∀ given, Timecode.IsRead (Fields.get es "duration") given →
          (rest given).Ends p (Fault.IsReportIf g) fun _ p' =>
            ∃ c longer, Clip.LoadedFrom p.store (.text track) (.dict es) c
              ∧ longer.isNonNegative = true ∧ p' = p.withClip track c longer := by
        intro given hread
        obtain ⟨length, hparts⟩ := Clip.exists_parts (mt (Value.isNone_iff _).mpr hresource)
          (Store.shows_of_loadedFrom hstore _) (Timecode.under_of_readMs hms) hread
        refine (placeClip_ends hparts hmeasured hshown (asText_cases id) hguard).bind ?_
        rintro c _ ⟨longer, hnew, hstart, hpos, hlonger, rfl⟩
        have hroom := room_of_newClip htracks hothers htrack hnew
        extract_lets finish
        have hfinish : ∀ name, (Fields.get es "name" ≠ .none → name = Fields.get es "name") →
            (finish ()).Ends (p.withClip track { c with name := name } longer) (Fault.IsReportIf g)
              fun _ p' => ∃ c longer, Clip.LoadedFrom p.store (.text track) (.dict es) c
                ∧ longer.isNonNegative = true ∧ p' = p.withClip track c longer := by
          intro name hname
          refine (loadAnimationsOf_ends hroom hnew.animations (fun hg => (hguarded hg).2.2.2.2)
            name).mono ?_
          rintro _ _ ⟨segments, hsegments, rfl⟩
          exact ⟨_, longer, hparts.loadedFrom hnew hstart hpos hname hsegments, hlonger, rfl⟩
        -- a clip without a name of its own keeps that of what it shows
        split
        · refine (changeClip_ends hroom (f := fun c => { c with name := name }) fun _ => rfl).bind ?_
          rintro _ _ rfl
          exact hfinish name fun _ => rfl
        · next hnone =>
          have hnone : (Fields.get es "name").isNone = true := by simpa using hnone
          exact hfinish c.name fun hne => absurd ((Value.isNone_iff _).mp hnone) hne
      exact Timecode.ends_of_optional hrest
        (Timecode.reports_readMs fun hg => (hguarded hg).2.2.2.1)
    -- the label of a clip only shows in reports
    split
    · exact .bind_pure (hlabelled _)
    · refine Act.Ends.bind (q := fun _ p' => p' = p) (.bind_ofResult (fun text _ => ?_) ?_) ?_
      · exact .of_pure rfl
      · exact Reports.of_toText fun hg => (hguarded hg).2.1
      · rintro label _ rfl
        exact hlabelled label
  · exact .of_stop fun _ => rfl

end Project

end Overlay
