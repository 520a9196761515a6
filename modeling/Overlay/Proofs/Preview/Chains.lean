import Overlay.Preview.Evaluation
import Overlay.Proofs.Fields
import Overlay.Proofs.Number.Growth
import Overlay.Proofs.Script.Shots
import Mathlib.Data.List.Forall2

/-!
# Chains over time

The statements about an object fall into chains, each of which begins at time zero and takes one
statement after the other.  At any time a chain is cut: some statements have ended, at most one is
running, and the others have no effect yet.  What an object shows is what all chains make of its
attributes, in the order of the script.

## Main definitions
- `Beat.Told`: values that are statements
- `chains`: statements that follow each other without a gap
- `Stretch`, `stretches`: when the statements of a chain begin and stop
- `Cut`, `Cut.Splits`, `Cut.result`: a chain at a time
- `settled`: what statements leave behind

## Main statements
- `step_value`, `step_told`: what one statement does
- `steps_eq_chains`: statements are played chain by chain
- `exists_cut`: every chain is cut at every time
- `Cut.Splits.playAll_eq`: what a chain does can be read off its cut
- `Evaluation.object_course`: an object over time
-/

namespace Overlay

open Overlay.Number

attribute [local irreducible] twoTo tenTo Double.unitsInOne

/-! ## Section 1: Statements -/

/-- A value that says what a statement does. -/
structure Beat.Told (b : Beat) (v : Value) : Prop where
  chained : ∃ c, v.field "chained" = .ok c ∧ c.holds = b.chained
  duration : ∃ d n, v.field "duration" = .ok d ∧ d.number? = some n
    ∧ n.toDouble? = some b.duration
  properties : v.field "properties" = .ok (.dict b.properties)

theorem Beat.told_statement (s : Statement) :
    Beat.Told ⟨s.properties, s.duration, s.chained⟩ s.toValue :=
  ⟨⟨.bool s.chained, rfl, rfl⟩, ⟨.float s.duration, .float s.duration, rfl, rfl, rfl⟩, rfl⟩

/-- The statements of a script are values that say what they do. -/
theorem Beat.told_statements (sets : List Statement) :
    List.Forall₂ Beat.Told (sets.map fun s => ⟨s.properties, s.duration, s.chained⟩)
      (sets.map Statement.toValue) := by
  induction sets with
  | nil => exact List.Forall₂.nil
  | cons s r ih => exact List.Forall₂.cons (Beat.told_statement s) ih

/-- A statement takes some time, or none. -/
structure Beat.Lasts (b : Beat) : Prop where
  isFinite : b.duration.isFinite = true
  isNonNegative : b.duration.isNonNegative = true

/-- How many milliseconds a statement takes. -/
def Beat.length (b : Beat) : Double :=
  b.duration.mul Evaluation.thousand

theorem Beat.Lasts.length_isNonNegative {b : Beat} (h : b.Lasts) :
    b.length.isNonNegative = true := by
  have hthousand : Evaluation.thousand.isFinite = true := by
    decide +kernel
  exact Double.isNonNegative_mul h.isNonNegative (Double.isNonNegative_nearest _ _) h.isFinite
    hthousand

/-! ## Section 2: Stretches of time -/

/-- A stretch of time over which properties change. -/
structure Stretch where
  /-- When the change begins, in milliseconds. -/
  begin : Double
  /-- How many milliseconds it takes. -/
  length : Double
  /-- What the attributes change to. -/
  properties : Fields

namespace Stretch

/-- When a change is over. -/
def stop (s : Stretch) : Double :=
  s.begin.add s.length

/-- What a change has come to at a time within it. -/
def blend (n : Number) (s : Stretch) (attrs : Fields) : Result Fields := do
  let x ← orFault .tooLarge n.toDouble?
  Evaluation.blend ((x.sub s.begin).div s.length) attrs s.properties

/-- What a change makes of attributes at a time. -/
def play (n : Number) (attrs : Fields) (s : Stretch) : Result Fields :=
  if n.lt (.float s.begin) then .ok attrs
  else if (Number.float s.stop).le n then .ok (Fields.merge attrs s.properties)
  else s.blend n attrs

variable {n : Number} {s : Stretch}

theorem play_before (h : n.lt (.float s.begin) = true) (attrs : Fields) :
    s.play n attrs = .ok attrs :=
  if_pos h

theorem play_over (h : n.lt (.float s.begin) = false) (hover : (Number.float s.stop).le n = true)
    (attrs : Fields) : s.play n attrs = .ok (Fields.merge attrs s.properties) := by
  rw [play, h, if_neg Bool.false_ne_true, if_pos hover]

theorem play_running (h : n.lt (.float s.begin) = false)
    (hrunning : (Number.float s.stop).le n = false) (attrs : Fields) :
    s.play n attrs = s.blend n attrs := by
  rw [play, h, if_neg Bool.false_ne_true, hrunning, if_neg Bool.false_ne_true]

end Stretch

/-- A statement that begins at a time. -/
def Beat.stretchFrom (b : Beat) (begin : Double) : Stretch :=
  ⟨begin, b.length, b.properties⟩

/-- What a value does that says what a statement does, given where it begins and how long it takes. -/
theorem step_value {v c d : Value} {ps : Fields} (hc : v.field "chained" = .ok c)
    (hd : v.field "duration" = .ok d) (hps : v.field "properties" = .ok (.dict ps))
    {chainEnd begin length : Double} (hbegin : begin = if c.holds then chainEnd else Double.zero)
    (hlength : Evaluation.toMs d = .ok length) {time : Value} {n : Number}
    (htime : time.number? = some n) (attrs : Fields) :
    Evaluation.step time attrs chainEnd v
      = if n.lt (.float begin) then .ok (attrs, begin.add length)
        else if length.le Double.zero || (Number.float (begin.add length)).le n then
          .ok (Fields.merge attrs ps, begin.add length)
        else do
          let x ← orFault .tooLarge n.toDouble?
          let a ← Evaluation.blend ((x.sub begin).div length) attrs ps
          return (a, begin.add length) := by
  unfold Evaluation.step
  rw [hc, ok_bind, hd, ok_bind, hlength, ok_bind, ← hbegin, Value.toNumber, htime, orFault_some,
    ok_bind, hps]
  split
  · rfl
  · split
    · rw [ok_bind, Value.toFields, ok_bind, pure_eq_ok]
    · simp only [ok_bind]

/-- What takes no time is over as soon as it has begun, so only its end matters. -/
theorem over_eq_stop_le {begin length : Double} (hbegin : begin.isNonNegative = true)
    (hlength : length.isNonNegative = true) {n : Number} (hplace : n.place?.isSome)
    (hbegun : n.lt (.float begin) = false) :
    (length.le Double.zero || (Number.float (begin.add length)).le n)
      = (Number.float (begin.add length)).le n := by
  cases hzero : length.le Double.zero with
  | false => rw [Bool.false_or]
  | true =>
    have hstill : (Number.float (begin.add length)).le (.float begin) = true :=
      Double.add_le hbegin hlength hzero
    have hplace' : (Number.float begin).place?.isSome := Double.isSome_place? hbegin
    have hle : (Number.float begin).le n = true := by
      rw [Number.le_eq_not_lt hplace hplace', hbegun, Bool.not_false]
    rw [Bool.true_or, Number.le_trans hstill hle]

/-- What a statement does, given where it begins. -/
theorem step_told {b : Beat} {v : Value} (hv : b.Told v) (hlasts : b.Lasts)
    {chainEnd begin : Double} (hbegin : (if b.chained then chainEnd else Double.zero) = begin)
    (hnonneg : begin.isNonNegative = true) {time : Value} {n : Number}
    (htime : time.number? = some n) (hplace : n.place?.isSome) (attrs : Fields) :
    Evaluation.step time attrs chainEnd v
      = ((b.stretchFrom begin).play n attrs).map
          fun attrs => (attrs, (b.stretchFrom begin).stop) := by
  obtain ⟨c, hc, hchained⟩ := hv.chained
  obtain ⟨d, m, hd, hm, hdouble⟩ := hv.duration
  have hlength : Evaluation.toMs d = .ok b.length := by
    rw [Evaluation.toMs, Value.toNumber, hm, orFault_some, ok_bind, hdouble, orFault_some, ok_bind,
      pure_eq_ok, Beat.length]
  have hstart : begin = if c.holds then chainEnd else Double.zero := by
    rw [hchained, hbegin]
  rw [step_value hc hd hv.properties hstart hlength htime]
  cases hbefore : n.lt (.float begin) with
  | true =>
    rw [if_pos rfl, @Stretch.play_before n (b.stretchFrom begin) hbefore, ok_map]
    rfl
  | false =>
    rw [if_neg Bool.false_ne_true,
      over_eq_stop_le hnonneg hlasts.length_isNonNegative hplace hbefore]
    cases hstop : (Number.float (begin.add b.length)).le n with
    | true =>
      rw [if_pos rfl, @Stretch.play_over n (b.stretchFrom begin) hbefore hstop, ok_map]
      rfl
    | false =>
      rw [if_neg Bool.false_ne_true, @Stretch.play_running n (b.stretchFrom begin) hbefore hstop,
        Stretch.blend]
      cases n.toDouble? with
      | none => rfl
      | some x =>
        simp only [orFault_some, ok_bind, Beat.stretchFrom]
        cases Evaluation.blend ((x.sub begin).div b.length) attrs b.properties with
        | error fault => rfl
        | ok blended => rfl

/-! ## Section 3: Chains -/

/-- Statements that follow each other without a gap: one that is not chained, or the first one, and the
chained ones behind it. -/
def chains : List Beat → List (List Beat)
  | [] => []
  | b :: r => (b :: r.takeWhile Beat.chained) :: chains (r.dropWhile Beat.chained)
termination_by bs => bs.length
decreasing_by
  exact Nat.lt_succ_of_le (List.dropWhile_sublist Beat.chained).length_le

/-- No statement is left out. -/
theorem flatten_chains (bs : List Beat) : (chains bs).flatten = bs := by
  induction bs using chains.induct with
  | case1 => rw [chains, List.flatten_nil]
  | case2 b r ih =>
    rw [chains, List.flatten_cons, ih, List.cons_append, List.takeWhile_append_dropWhile]

/-- The stretches of statements that follow each other from a time on. -/
def stretches (begin : Double) : List Beat → List Stretch
  | [] => []
  | b :: r => b.stretchFrom begin :: stretches (begin.add b.length) r

/-- When statements that follow each other are over. -/
def endOf (begin : Double) (bs : List Beat) : Double :=
  bs.foldl (fun time b => time.add b.length) begin

/-- What stretches make of attributes, one after the other. -/
def playAll (n : Number) (attrs : Fields) (ss : List Stretch) : Result Fields :=
  ss.foldlM (Stretch.play n) attrs

theorem playAll_cons (n : Number) (attrs : Fields) (s : Stretch) (r : List Stretch) :
    playAll n attrs (s :: r) = s.play n attrs >>= fun attrs => playAll n attrs r :=
  List.foldlM_cons

theorem playAll_append (n : Number) (attrs : Fields) (ss ts : List Stretch) :
    playAll n attrs (ss ++ ts) = playAll n attrs ss >>= fun attrs => playAll n attrs ts :=
  List.foldlM_append

theorem exists_parts_of_append {α β : Type} {R : α → β → Prop} {as bs : List α} {cs : List β}
    (h : List.Forall₂ R (as ++ bs) cs) :
    ∃ us ws, cs = us ++ ws ∧ List.Forall₂ R as us ∧ List.Forall₂ R bs ws := by
  have htake := List.forall₂_take as.length h
  have hdrop := List.forall₂_drop as.length h
  rw [List.take_left] at htake
  rw [List.drop_left] at hdrop
  exact ⟨_, _, (List.take_append_drop as.length cs).symm, htake, hdrop⟩

section Course

variable {n : Number} {time : Value} {begin : Double} {bs : List Beat} {vs : List Value}

/-- Chained statements are played one after the other; the time that they take moves on. -/
theorem steps_chained (htime : time.number? = some n) (hplace : n.place?.isSome)
    (hvs : List.Forall₂ Beat.Told bs vs) (hlasts : ∀ b ∈ bs, b.Lasts)
    (hchained : ∀ b ∈ bs, b.chained = true) (hbegin : begin.isNonNegative = true) (attrs : Fields)
    (ws : List Value) :
    Evaluation.steps time attrs begin (vs ++ ws)
      = playAll n attrs (stretches begin bs) >>= fun attrs =>
          Evaluation.steps time attrs (endOf begin bs) ws := by
  -- each statement begins where the one before it has moved the time to
  induction hvs generalizing begin attrs with
  | nil => rfl
  | @cons b v bs vs hv _ ih =>
    rw [List.forall_mem_cons] at hlasts hchained
    have hstart : (if b.chained then begin else Double.zero) = begin := if_pos hchained.1
    have hnext := Double.isNonNegative_add hbegin hlasts.1.length_isNonNegative
    rw [List.cons_append, Evaluation.steps, step_told hv hlasts.1 hstart hbegin htime hplace, stretches,
      playAll_cons]
    cases (b.stretchFrom begin).play n attrs with
    | error fault => rfl
    | ok played =>
      rw [ok_map, ok_bind, ok_bind]
      exact ih hlasts.2 hchained.2 hnext played

/-- At most the first of the statements goes on with a chain, and if it does, from time zero on. -/
theorem steps_eq_chains (htime : time.number? = some n) (hplace : n.place?.isSome)
    (hvs : List.Forall₂ Beat.Told bs vs) (hlasts : ∀ b ∈ bs, b.Lasts)
    (hopen : ∀ b ∈ bs.head?, b.chained = true → begin = Double.zero) (attrs : Fields) :
    Evaluation.steps time attrs begin vs
      = (chains bs).foldlM (fun attrs c => playAll n attrs (stretches Double.zero c)) attrs := by
  induction bs using chains.induct generalizing begin vs attrs with
  | case1 =>
    cases hvs
    rw [chains]
    rfl
  | case2 b r ih =>
    cases hvs with
    | @cons _ v _ vs hv hvs =>
    rw [List.forall_mem_cons] at hlasts
    have hstart : (if b.chained then begin else Double.zero) = Double.zero := by
      split
      · next hb => exact hopen b rfl hb
      · rfl
    have hnext := Double.isNonNegative_add Double.isNonNegative_zero hlasts.1.length_isNonNegative
    -- the values split where the statements do
    rw [← List.takeWhile_append_dropWhile (p := Beat.chained) (l := r)] at hvs
    obtain ⟨us, ws, rfl, hus, hws⟩ := exists_parts_of_append hvs
    have hchained : ∀ c ∈ r.takeWhile Beat.chained, c.chained = true :=
      fun c hc => List.mem_takeWhile_imp hc
    have hlasts' : ∀ c ∈ r.takeWhile Beat.chained, c.Lasts :=
      fun c hc => hlasts.2 c ((List.takeWhile_sublist _).mem hc)
    have hrest : ∀ c ∈ r.dropWhile Beat.chained, c.Lasts :=
      fun c hc => hlasts.2 c ((List.dropWhile_sublist _).mem hc)
    -- what follows the chain opens a chain of its own
    have hhead : ∀ c ∈ (r.dropWhile Beat.chained).head?, c.chained = true →
        endOf (Double.zero.add b.length) (r.takeWhile Beat.chained) = Double.zero := by
      intro c hc hopens
      have hfalse := List.head?_dropWhile_not Beat.chained r
      rw [Option.mem_def.mp hc] at hfalse
      have hfalse : c.chained = false := hfalse
      rw [hopens] at hfalse
      cases hfalse
    rw [Evaluation.steps, step_told hv hlasts.1 hstart Double.isNonNegative_zero htime hplace, chains,
      List.foldlM_cons, stretches, playAll_cons]
    cases (b.stretchFrom Double.zero).play n attrs with
    | error fault => rfl
    | ok played =>
      rw [ok_map, ok_bind, ok_bind]
      exact (steps_chained htime hplace hus hlasts' hchained hnext played ws).trans
        (congrArg (playAll n played _ >>= ·) (funext fun attrs => ih hws hrest hhead attrs))

end Course

/-! ## Section 4: Cuts -/

/-- A stretch whose times do not lie below zero. -/
structure Stretch.IsProper (s : Stretch) : Prop where
  begin : s.begin.isNonNegative = true
  length : s.length.isNonNegative = true

/-- What stretches that are over leave behind. -/
def overwrite (attrs : Fields) (ss : List Stretch) : Fields :=
  ss.foldl (fun attrs s => Fields.merge attrs s.properties) attrs

/-- The stretches of a chain at a time. -/
structure Cut where
  /-- Those that are over. -/
  ended : List Stretch
  /-- The one that is running, if any. -/
  running : Option Stretch
  /-- Those that are yet to come. -/
  pending : List Stretch

/-- A cut divides the stretches of a chain: what stands before it has ended, at most one is under way,
and what stands behind it has not begun. -/
structure Cut.Splits (n : Number) (ss : List Stretch) (c : Cut) : Prop where
  parts : ss = c.ended ++ (c.running.toList ++ c.pending)
  ended : ∀ s ∈ c.ended, (Number.float s.stop).le n = true
  running : ∀ s ∈ c.running, (Number.float s.begin).le n = true ∧ n.lt (.float s.stop) = true
  pending : ∀ s ∈ c.pending, n.lt (.float s.begin) = true

/-- What a chain makes of attributes: the properties of what is over are set, those of what is running
are blended in. -/
def Cut.result (n : Number) (attrs : Fields) (c : Cut) : Result Fields :=
  match c.running with
  | none => .ok (overwrite attrs c.ended)
  | some s => s.blend n (overwrite attrs c.ended)

section Cuts

variable {n : Number} {begin : Double} {bs : List Beat} {ss : List Stretch}

/-- Time moves on. -/
theorem le_float_add {x y : Double} (hx : x.isNonNegative = true) (hy : y.isNonNegative = true) :
    (Number.float x).le (.float (x.add y)) = true :=
  Double.le_add hx hy

theorem Stretch.IsProper.begin_le_stop {s : Stretch} (h : s.IsProper) :
    (Number.float s.begin).le (.float s.stop) = true :=
  le_float_add h.begin h.length

theorem Stretch.IsProper.le_eq_not_lt {s : Stretch} (h : s.IsProper) (hplace : n.place?.isSome) :
    (Number.float s.begin).le n = !n.lt (.float s.begin) :=
  Number.le_eq_not_lt hplace (Double.isSome_place? h.begin)

theorem Stretch.IsProper.isSome_stop {s : Stretch} (h : s.IsProper) :
    (Number.float s.stop).place?.isSome :=
  Double.isSome_place? (Double.isNonNegative_add h.begin h.length)

/-- What is over has begun. -/
theorem Stretch.IsProper.begun_of_over {s : Stretch} (h : s.IsProper) (hplace : n.place?.isSome)
    (hover : (Number.float s.stop).le n = true) : n.lt (.float s.begin) = false := by
  have hle := Number.le_trans h.begin_le_stop hover
  rw [h.le_eq_not_lt hplace, Bool.not_eq_true'] at hle
  exact hle

/-- All stretches of a chain are proper, and none of them begins before the chain does. -/
theorem isProper_of_mem_stretches (hbegin : begin.isNonNegative = true) (hlasts : ∀ b ∈ bs, b.Lasts)
    {s : Stretch} (hs : s ∈ stretches begin bs) :
    s.IsProper ∧ (Number.float begin).le (.float s.begin) = true := by
  induction bs generalizing begin with
  | nil => cases hs
  | cons b r ih =>
    rw [List.forall_mem_cons] at hlasts
    have hlength := hlasts.1.length_isNonNegative
    rw [stretches, List.mem_cons] at hs
    rcases hs with rfl | hs
    · exact ⟨⟨hbegin, hlength⟩, Number.le_refl (Double.isSome_place? hbegin)⟩
    · obtain ⟨hproper, hle⟩ := ih (Double.isNonNegative_add hbegin hlength) hlasts.2 hs
      exact ⟨hproper, Number.le_trans (le_float_add hbegin hlength) hle⟩

/-- No chain is over before it begins. -/
theorem begin_le_endOf (hbegin : begin.isNonNegative = true) (hlasts : ∀ b ∈ bs, b.Lasts) :
    (Number.float begin).le (.float (endOf begin bs)) = true := by
  induction bs generalizing begin with
  | nil => exact Number.le_refl (Double.isSome_place? hbegin)
  | cons b r ih =>
    rw [List.forall_mem_cons] at hlasts
    have hlength := hlasts.1.length_isNonNegative
    exact Number.le_trans (le_float_add hbegin hlength)
      (ih (Double.isNonNegative_add hbegin hlength) hlasts.2)

/-- No stretch of a chain is over after the chain is. -/
theorem stop_le_endOf (hbegin : begin.isNonNegative = true) (hlasts : ∀ b ∈ bs, b.Lasts) {s : Stretch}
    (hs : s ∈ stretches begin bs) : (Number.float s.stop).le (.float (endOf begin bs)) = true := by
  induction bs generalizing begin with
  | nil => cases hs
  | cons b r ih =>
    rw [List.forall_mem_cons] at hlasts
    have hnext := Double.isNonNegative_add hbegin hlasts.1.length_isNonNegative
    rw [stretches, List.mem_cons] at hs
    rcases hs with rfl | hs
    · exact begin_le_endOf hnext hlasts.2
    · exact ih hnext hlasts.2 hs

/-- Stretches that are all over set their properties. -/
theorem playAll_over (hplace : n.place?.isSome) (hproper : ∀ s ∈ ss, s.IsProper)
    (hover : ∀ s ∈ ss, (Number.float s.stop).le n = true) (attrs : Fields) :
    playAll n attrs ss = .ok (overwrite attrs ss) := by
  induction ss generalizing attrs with
  | nil => rfl
  | cons s r ih =>
    rw [List.forall_mem_cons] at hproper hover
    rw [playAll_cons, Stretch.play_over (hproper.1.begun_of_over hplace hover.1) hover.1, ok_bind]
    exact ih hproper.2 hover.2 _

/-- Stretches that are yet to come have no effect. -/
theorem playAll_pending (hpending : ∀ s ∈ ss, n.lt (.float s.begin) = true) (attrs : Fields) :
    playAll n attrs ss = .ok attrs := by
  induction ss generalizing attrs with
  | nil => rfl
  | cons s r ih =>
    rw [List.forall_mem_cons] at hpending
    rw [playAll_cons, Stretch.play_before hpending.1, ok_bind]
    exact ih hpending.2 attrs

/-- What a chain makes of attributes can be read off its cut. -/
theorem Cut.Splits.playAll_eq {c : Cut} (h : c.Splits n ss) (hplace : n.place?.isSome)
    (hproper : ∀ s ∈ ss, s.IsProper) (attrs : Fields) : playAll n attrs ss = c.result n attrs := by
  obtain ⟨hparts, hended, hrunning, hpending⟩ := h
  subst hparts
  simp only [List.forall_mem_append] at hproper
  rw [playAll_append, playAll_over hplace hproper.1 hended, ok_bind, Cut.result]
  cases hc : c.running with
  | none =>
    rw [Option.toList_none, List.nil_append]
    exact playAll_pending hpending _
  | some s =>
    rw [hc] at hproper
    have hs : s.IsProper := hproper.2.1 s List.mem_cons_self
    obtain ⟨hbegun, hnot⟩ := hrunning s hc
    rw [hs.le_eq_not_lt hplace, Bool.not_eq_true'] at hbegun
    have hopen : (Number.float s.stop).le n = false := by
      rw [Number.le_eq_not_lt hplace hs.isSome_stop, hnot, Bool.not_true]
    have hrest : (fun attrs => playAll n attrs c.pending) = pure := funext (playAll_pending hpending)
    rw [Option.toList_some, List.cons_append, List.nil_append, playAll_cons,
      Stretch.play_running hbegun hopen, hrest, bind_pure]

/-- Every chain is cut at every time. -/
theorem exists_cut (hplace : n.place?.isSome) (hbegin : begin.isNonNegative = true)
    (hlasts : ∀ b ∈ bs, b.Lasts) : ∃ c : Cut, c.Splits n (stretches begin bs) := by
  induction bs generalizing begin with
  | nil => exact ⟨⟨[], none, []⟩, rfl, by simp, by simp, by simp⟩
  | cons b r ih =>
    have hmem := fun s => @isProper_of_mem_stretches begin (b :: r) hbegin hlasts s
    rw [List.forall_mem_cons] at hlasts
    have hlength := hlasts.1.length_isNonNegative
    have hnext := Double.isNonNegative_add hbegin hlength
    have hproper : (b.stretchFrom begin).IsProper := ⟨hbegin, hlength⟩
    cases hbefore : n.lt (.float begin) with
    | true =>
      -- nothing of the chain has begun
      exact ⟨⟨[], none, stretches begin (b :: r)⟩, rfl, by simp, by simp,
        fun s hs => Number.lt_of_lt_of_le hbefore (hmem s hs).2⟩
    | false =>
      have hbegun : (Number.float (b.stretchFrom begin).begin).le n = true := by
        rw [hproper.le_eq_not_lt hplace]
        exact congrArg (!·) hbefore
      cases hstop : n.lt (.float (begin.add b.length)) with
      | true =>
        -- the first stretch is running, and all others begin at its end or later
        refine ⟨⟨[], some (b.stretchFrom begin), stretches (begin.add b.length) r⟩, rfl, by simp, ?_,
          ?_⟩
        · rintro s ⟨⟩
          exact ⟨hbegun, hstop⟩
        · intro s hs
          exact Number.lt_of_lt_of_le hstop (isProper_of_mem_stretches hnext hlasts.2 hs).2
      | false =>
        -- the first stretch has ended, and the cut lies further down
        obtain ⟨c, hparts, hended, hrunning, hpending⟩ := ih hnext hlasts.2
        refine ⟨⟨b.stretchFrom begin :: c.ended, c.running, c.pending⟩, ?_, ?_, hrunning, hpending⟩
        · rw [stretches, hparts, List.cons_append]
        · have hover : (Number.float (b.stretchFrom begin).stop).le n = true := by
            rw [Number.le_eq_not_lt hplace hproper.isSome_stop]
            exact congrArg (!·) hstop
          exact List.forall_mem_cons.mpr ⟨hover, hended⟩

end Cuts

/-! ## Section 5: Objects -/

/-- What statements leave behind when they are over. -/
def settled (attrs : Fields) (bs : List Beat) : Fields :=
  bs.foldl (fun attrs b => Fields.merge attrs b.properties) attrs

theorem overwrite_stretches (begin : Double) (attrs : Fields) (bs : List Beat) :
    overwrite attrs (stretches begin bs) = settled attrs bs := by
  induction bs generalizing begin attrs with
  | nil => rfl
  | cons b r ih => exact ih (begin.add b.length) (Fields.merge attrs b.properties)

/-- Chains that are all over leave behind what their statements do. -/
theorem foldlM_over {n : Number} {cs : List (List Beat)}
    (hover : ∀ c ∈ cs, ∀ attrs, playAll n attrs (stretches Double.zero c) = .ok (settled attrs c))
    (attrs : Fields) :
    cs.foldlM (fun attrs c => playAll n attrs (stretches Double.zero c)) attrs
      = .ok (settled attrs cs.flatten) := by
  induction cs generalizing attrs with
  | nil => rfl
  | cons c r ih =>
    rw [List.forall_mem_cons] at hover
    rw [List.foldlM_cons, hover.1, ok_bind, ih hover.2, List.flatten_cons, settled, settled, settled,
      List.foldl_append]

/-- Setting a key is not seen under another one, and blending sets the keys of the properties. -/
theorem get?_blend {ps : Fields} {key : String} (hps : Fields.get? ps key = none) (ratio : Double)
    (attrs : Fields) :
    Yields (fun result => Fields.get? result key = Fields.get? attrs key)
      (Evaluation.blend ratio attrs ps) := by
  induction ps generalizing attrs with
  | nil => exact Yields.ok rfl
  | cons e r ih =>
    rw [Fields.get?_cons] at hps
    split at hps
    · cases hps
    · next hother =>
      refine Yields.bind_any fun w _ result hresult => ?_
      rw [ih hps _ result hresult, Fields.get?_insert, if_neg hother]

theorem get?_merge_of_absent {ps : Fields} {key : String} (hps : Fields.get? ps key = none)
    (attrs : Fields) : Fields.get? (Fields.merge attrs ps) key = Fields.get? attrs key := by
  unfold Fields.merge
  induction ps generalizing attrs with
  | nil => rfl
  | cons e r ih =>
    rw [Fields.get?_cons] at hps
    split at hps
    · cases hps
    · next hother => rw [List.foldl_cons, ih hps, Fields.get?_insert, if_neg hother]

/-- A stretch does not change what it does not mention. -/
theorem get?_play {s : Stretch} {key : String} (hs : Fields.get? s.properties key = none) (n : Number)
    (attrs : Fields) :
    Yields (fun result => Fields.get? result key = Fields.get? attrs key) (s.play n attrs) := by
  unfold Stretch.play
  split
  · exact Yields.ok rfl
  · split
    · exact Yields.ok (get?_merge_of_absent hs attrs)
    · exact Yields.bind_any fun x _ => get?_blend hs _ attrs

theorem get?_playAll {bs : List Beat} {key : String}
    (hbs : ∀ b ∈ bs, Fields.get? b.properties key = none) (n : Number) (begin : Double)
    (attrs : Fields) :
    Yields (fun result => Fields.get? result key = Fields.get? attrs key)
      (playAll n attrs (stretches begin bs)) := by
  induction bs generalizing begin attrs with
  | nil => exact Yields.ok rfl
  | cons b r ih =>
    rw [List.forall_mem_cons] at hbs
    rw [stretches, playAll_cons]
    refine Yields.bind (@get?_play (b.stretchFrom begin) key hbs.1 n attrs) fun played hplayed => ?_
    rw [← hplayed]
    exact ih hbs.2 _ played

theorem get?_foldlM {cs : List (List Beat)} {key : String}
    (hcs : ∀ c ∈ cs, ∀ b ∈ c, Fields.get? b.properties key = none) (n : Number) (attrs : Fields) :
    Yields (fun result => Fields.get? result key = Fields.get? attrs key)
      (cs.foldlM (fun attrs c => playAll n attrs (stretches Double.zero c)) attrs) := by
  induction cs generalizing attrs with
  | nil => exact Yields.ok rfl
  | cons c r ih =>
    rw [List.forall_mem_cons] at hcs
    rw [List.foldlM_cons]
    refine Yields.bind (get?_playAll hcs.1 n Double.zero attrs) fun played hplayed => ?_
    rw [← hplayed]
    exact ih hcs.2 played

/-- All chains are cut at every time. -/
theorem exists_cuts {n : Number} (hplace : n.place?.isSome) {cs : List (List Beat)}
    (hlasts : ∀ c ∈ cs, ∀ b ∈ c, b.Lasts) :
    ∃ cuts, List.Forall₂ (fun c cut => Cut.Splits n (stretches Double.zero c) cut) cs cuts := by
  induction cs with
  | nil => exact ⟨[], List.Forall₂.nil⟩
  | cons c r ih =>
    rw [List.forall_mem_cons] at hlasts
    obtain ⟨cut, hcut⟩ := exists_cut hplace Double.isNonNegative_zero hlasts.1
    obtain ⟨cuts, hcuts⟩ := ih hlasts.2
    exact ⟨cut :: cuts, List.Forall₂.cons hcut hcuts⟩

/-- What chains make of attributes can be read off their cuts. -/
theorem foldlM_cuts {n : Number} (hplace : n.place?.isSome) {cs : List (List Beat)} {cuts : List Cut}
    (hlasts : ∀ c ∈ cs, ∀ b ∈ c, b.Lasts)
    (hcuts : List.Forall₂ (fun c cut => Cut.Splits n (stretches Double.zero c) cut) cs cuts)
    (attrs : Fields) :
    cs.foldlM (fun attrs c => playAll n attrs (stretches Double.zero c)) attrs
      = cuts.foldlM (Cut.result n) attrs := by
  induction hcuts generalizing attrs with
  | nil => rfl
  | cons hcut _ ih =>
    rw [List.forall_mem_cons] at hlasts
    rw [List.foldlM_cons, List.foldlM_cons, hcut.playAll_eq hplace
      fun s hs => (isProper_of_mem_stretches Double.isNonNegative_zero hlasts.1 hs).1]
    exact congrArg _ (funext fun attrs => ih hlasts.2 attrs)

/-- An object over time.  Each chain is cut, and its object shows what all chains make of its
attributes, one after the other; when all chains are over, it shows what their statements leave behind,
and it never changes what no statement mentions. -/
theorem Evaluation.object_course {d time : Value} {attrs : Fields} {bs : List Beat} {vs : List Value}
    {n : Number} (hattrs : Evaluation.initial d = .ok attrs) (hvs : List.Forall₂ Beat.Told bs vs)
    (hlasts : ∀ b ∈ bs, b.Lasts) (htime : time.number? = some n) (hplace : n.place?.isSome) :
    (∃ cuts, List.Forall₂ (fun c cut => Cut.Splits n (stretches Double.zero c) cut) (chains bs) cuts
        ∧ Evaluation.object d vs time = cuts.foldlM (Cut.result n) attrs)
      ∧ ((∀ c ∈ chains bs, (Number.float (endOf Double.zero c)).le n = true) →
          Evaluation.object d vs time = .ok (settled attrs bs))
      ∧ ∀ key result, (∀ b ∈ bs, Fields.get? b.properties key = none) →
          Evaluation.object d vs time = .ok result →
          Fields.get? result key = Fields.get? attrs key := by
  have hobject : Evaluation.object d vs time
      = (chains bs).foldlM (fun attrs c => playAll n attrs (stretches Double.zero c)) attrs := by
    rw [Evaluation.object, hattrs, ok_bind]
    exact steps_eq_chains htime hplace hvs hlasts (fun _ _ _ => rfl) attrs
  -- what is true of all statements is true of those in the chains
  have hmem : ∀ c ∈ chains bs, ∀ b ∈ c, b ∈ bs := by
    intro c hc b hb
    rw [← flatten_chains bs]
    exact List.mem_flatten_of_mem hc hb
  have hall : ∀ c ∈ chains bs, ∀ b ∈ c, b.Lasts := fun c hc b hb => hlasts b (hmem c hc b hb)
  rw [hobject]
  refine ⟨?_, fun hends => ?_, fun key result hkey => ?_⟩
  · obtain ⟨cuts, hcuts⟩ := exists_cuts hplace hall
    exact ⟨cuts, hcuts, foldlM_cuts hplace hall hcuts attrs⟩
  · rw [foldlM_over, flatten_chains]
    intro c hc attrs
    have hzero := Double.isNonNegative_zero
    have hproper := fun s hs => (@isProper_of_mem_stretches _ c hzero (hall c hc) s hs).1
    rw [playAll_over hplace hproper, overwrite_stretches]
    -- what belongs to a chain is over when the chain is
    exact fun s hs => Number.le_trans (stop_le_endOf hzero (hall c hc) hs) (hends c hc)
  · exact get?_foldlM (fun c hc b hb => hkey b (hmem c hc b hb)) n attrs result

/-- An object that moves in two steps, and fades meanwhile. -/
def movingObject : List Statement :=
  [⟨"a", [(.text "x", .int 100)], Double.ofNat 1, false, 3⟩,
    ⟨"a", [(.text "x", .int 200)], Double.ofNat 2, true, 4⟩,
    ⟨"a", [(.text "alpha", .int 0)], Double.ofNat 1, false, 5⟩]

theorem Evaluation.object_course_of_moving_object :
    let d := (⟨.text, "a", [(.text "size", .int 30)]⟩ : Definition).toValue
    let bs := movingObject.map fun s => (⟨s.properties, s.duration, s.chained⟩ : Beat)
    (∃ cuts, List.Forall₂ (fun c cut => Cut.Splits (.int 1500) (stretches Double.zero c) cut)
          (chains bs) cuts
        ∧ Evaluation.object d (movingObject.map Statement.toValue) (.int 1500)
          = cuts.foldlM (Cut.result (.int 1500)) [(.text "size", .int 30)])
      ∧ Evaluation.object d (movingObject.map Statement.toValue) (.int 3000)
        = .ok [(.text "size", .int 30), (.text "x", .int 200), (.text "alpha", .int 0)]
      ∧ ∀ result, Evaluation.object d (movingObject.map Statement.toValue) (.int 1500) = .ok result →
          Fields.get? result "size" = some (.int 30) := by
  intro d bs
  have htold : List.Forall₂ Beat.Told bs (movingObject.map Statement.toValue) :=
    Beat.told_statements movingObject
  have hlasts : ∀ b ∈ bs, b.Lasts := by
    simp only [bs, movingObject, List.map_cons, List.map_nil, List.forall_mem_cons]
    refine ⟨⟨?_, ?_⟩, ⟨?_, ?_⟩, ⟨?_, ?_⟩, fun _ h => nomatch h⟩ <;> decide +kernel
  have hends : ∀ c ∈ chains bs, (Number.float (endOf Double.zero c)).le (.int 3000) = true := by
    have hchains : chains bs = [bs.take 2, bs.drop 2] := by
      simp [bs, movingObject, chains]
    rw [hchains]
    simp only [List.forall_mem_cons]
    refine ⟨?_, ?_, fun _ h => nomatch h⟩ <;> decide +kernel
  obtain ⟨hcuts, -, hkept⟩ :=
    @Evaluation.object_course d (.int 1500) _ bs _ (.int 1500) rfl htold hlasts rfl rfl
  obtain ⟨-, hsettled, -⟩ :=
    @Evaluation.object_course d (.int 3000) _ bs _ (.int 3000) rfl htold hlasts rfl rfl
  refine ⟨hcuts, hsettled hends, fun result hresult => ?_⟩
  refine hkept "size" result ?_ hresult
  simp [bs, movingObject, Fields.get?, Fields.find?, Value.same_text]

end Overlay
