import Overlay.Playback.Clock
import Overlay.Proofs.Number.Exact
import Overlay.Proofs.Results

/-!
# Accumulated time

A clock keeps two numbers and moves them to and fro.  What it shows can be told without them, from the
history of what it was asked for: the last position that it was given, and the time that has passed
since then while it ran.  The time is added exactly as long as positions and instants are whole and of
moderate size.

## Main definitions
- `Clock.after`: the clock that a history leaves
- `Clock.running`, `Clock.position`, `Clock.elapsed`: what a history says of itself
- `Clock.Timed`: histories whose instants never go back
- `Clock.Agrees`: the two numbers of a clock fit a history

## Main statements
- `Clock.agrees_after`: the clock that a history leaves fits it
- `Clock.accumulates`: what a clock shows, and what follows from that
-/

namespace Overlay.Clock

/-! ## Section 1: Histories -/

/-- What a clock can be asked for. -/
inductive Request where
  | play
  | pause
  | seek (ms : Value)
  | set (ms : Value)
  | read

/-- A request at an instant. -/
structure Event where
  /-- The instant. -/
  instant : Double
  /-- The request. -/
  request : Request

/-- The clock after a request; it may be refused. -/
def serve (c : Clock) (e : Event) : Result Clock :=
  match e.request with
  | .play => .ok (c.play e.instant)
  | .pause => .ok (c.pause e.instant)
  | .seek ms => c.seekTo e.instant ms
  | .set ms => c.setTo ms
  | .read => .ok c

/-- The clock after a history, the latest event of which comes first.  A request that is refused
changes nothing. -/
def after : List Event → Clock
  | [] => .start
  | e :: h => match (after h).serve e with
    | .ok c => c
    | .error _ => after h

/-! ## Section 2: What a history says of itself -/

/-- The instant of an event in whole milliseconds. -/
def Event.reading (e : Event) : Int :=
  e.instant.truncate

/-- The position that a value asks for, cut off at zero. -/
def target (ms : Value) : Nat :=
  match ms.toDouble with
  | .ok x => x.truncate.toNat
  | .error _ => 0

/-- Whether the clock runs: it was started after it was last stopped. -/
def running : List Event → Bool
  | [] => false
  | e :: h => match e.request with
    | .play => true
    | .pause => false
    | _ => running h

/-- The position that a request gives to the clock, if it gives one: a running clock is not set. -/
def given (h : List Event) : Request → Option Nat
  | .seek ms => some (target ms)
  | .set ms => if running h then none else some (target ms)
  | _ => none

/-- The last position. -/
def position : List Event → Nat
  | [] => 0
  | e :: h => (given h e.request).getD (position h)

/-- The time that has passed from the last position up to a reading while the clock ran. -/
def elapsed : List Event → Int → Nat
  | [], _ => 0
  | e :: h, r =>
    (if (given h e.request).isSome then 0 else elapsed h e.reading)
      + (if running (e :: h) then (r - e.reading).toNat else 0)

/-- No event of the later part of a history gives a position. -/
def Still (h : List Event) : List Event → Prop
  | [] => True
  | e :: g => given (g ++ h) e.request = none ∧ Still h g

variable {origin r : Int} {h g : List Event} {e f : Event} {c : Clock} {ms : Value} {p : Nat}

theorem position_of_given (hgiven : given h e.request = some p) : position (e :: h) = p := by
  rw [position, hgiven]
  rfl

theorem position_of_not_given (hgiven : given h e.request = none) :
    position (e :: h) = position h := by
  rw [position, hgiven]
  rfl

/-- A new position lets the time begin anew. -/
theorem elapsed_of_given (hgiven : given h e.request = some p) (r : Int) :
    elapsed (e :: h) r = if running (e :: h) then (r - e.reading).toNat else 0 := by
  rw [elapsed, hgiven]
  exact Nat.zero_add _

theorem elapsed_of_not_given (hgiven : given h e.request = none) (r : Int) :
    elapsed (e :: h) r
      = elapsed h e.reading + if running (e :: h) then (r - e.reading).toNat else 0 := by
  rw [elapsed, hgiven]
  rfl

/-! ## Section 3: Whole times -/

/-- A value asks for a whole position below `2^52`. -/
def Whole (ms : Value) : Prop :=
  ∃ x, ms.toDouble = .ok x ∧ x.isWhole = true ∧ x.truncate < 2 ^ 52

/-- The positions that a request asks for are whole. -/
def Request.Whole : Request → Prop
  | .seek ms => Clock.Whole ms
  | .set ms => Clock.Whole ms
  | _ => True

/-- The instants of a history are whole, lie in a span of `2^52` from some origin on, and never go
back; the positions are whole. -/
structure Timed (origin : Int) (h : List Event) : Prop where
  instants : ∀ e ∈ h, e.instant.isWhole = true
  span : ∀ e ∈ h, origin ≤ e.reading ∧ e.reading < origin + 2 ^ 52
  ordered : h.Pairwise fun later earlier => earlier.reading ≤ later.reading
  positions : ∀ e ∈ h, e.request.Whole

namespace Timed

theorem tail (ht : Timed origin (e :: h)) : Timed origin h where
  instants f hf := ht.instants f (List.mem_cons_of_mem e hf)
  span f hf := ht.span f (List.mem_cons_of_mem e hf)
  ordered := (List.pairwise_cons.mp ht.ordered).2
  positions f hf := ht.positions f (List.mem_cons_of_mem e hf)

theorem reading_le (ht : Timed origin (e :: h)) (hf : f ∈ h) : f.reading ≤ e.reading :=
  (List.pairwise_cons.mp ht.ordered).1 f hf

/-- Another request at the same instant. -/
theorem instead (ht : Timed origin (e :: h)) {request : Request} (hwhole : request.Whole) :
    Timed origin (⟨e.instant, request⟩ :: h) where
  instants := List.forall_mem_cons.mpr ⟨ht.instants e List.mem_cons_self, ht.tail.instants⟩
  span := List.forall_mem_cons.mpr ⟨ht.span e List.mem_cons_self, ht.tail.span⟩
  ordered := List.pairwise_cons.mpr ⟨fun _ hf => ht.reading_le hf, ht.tail.ordered⟩
  positions := List.forall_mem_cons.mpr ⟨hwhole, ht.tail.positions⟩

/-- The clock is looked at right after an event. -/
theorem again (ht : Timed origin (e :: h)) : Timed origin (⟨e.instant, .read⟩ :: e :: h) where
  instants := List.forall_mem_cons.mpr ⟨ht.instants e List.mem_cons_self, ht.instants⟩
  span := List.forall_mem_cons.mpr ⟨ht.span e List.mem_cons_self, ht.span⟩
  ordered := by
    refine List.pairwise_cons.mpr ⟨List.forall_mem_cons.mpr ⟨Int.le_refl _, ?_⟩, ht.ordered⟩
    exact fun _ hf => ht.reading_le hf
  positions := List.forall_mem_cons.mpr ⟨trivial, ht.positions⟩

end Timed

theorem target_eq {x : Double} (hx : ms.toDouble = .ok x) : target ms = x.truncate.toNat := by
  simp only [target, hx]

theorem target_lt (h : Whole ms) : target ms < 2 ^ 52 := by
  obtain ⟨x, hx, -, hlt⟩ := h
  rw [target_eq hx]
  omega

theorem position_lt (ht : Timed origin h) : position h < 2 ^ 52 := by
  induction h with
  | nil => decide
  | cons e h ih =>
    have hwhole := ht.positions e List.mem_cons_self
    rw [position]
    cases hrequest : e.request with
    | seek ms =>
      rw [hrequest] at hwhole
      exact target_lt hwhole
    | set ms =>
      rw [hrequest] at hwhole
      rw [given]
      split
      · exact ih ht.tail
      · exact target_lt hwhole
    | _ => exact ih ht.tail

/-- No more time has passed than since the origin. -/
theorem elapsed_le (ht : Timed origin (e :: h)) : (elapsed h e.reading : Int) ≤ e.reading - origin := by
  -- each event adds at most the time since the one before it, so the events of the history add up
  induction h generalizing e with
  | nil =>
    have := (ht.span e List.mem_cons_self).1
    simp only [elapsed]
    omega
  | cons f h ih =>
    have hbefore := ih ht.tail
    have hfe := ht.reading_le List.mem_cons_self
    have hf := (ht.tail.span f List.mem_cons_self).1
    rw [elapsed]
    split <;> split <;> omega

/-! ## Section 4: The numbers of a clock -/

/-- The two numbers of a clock fit a history. -/
inductive Agrees (h : List Event) : Clock → Prop where
  /-- The clock stands still and has folded all time into its base. -/
  | stopped {b : Nat} (hrunning : running h = false) (hb : ∀ r, position h + elapsed h r = b) :
      Agrees h ⟨.ofNat b, none⟩
  /-- The clock runs since the instant of some event, and its base lacks the time since then. -/
  | going {b : Nat} {e : Event} (hmem : e ∈ h) (hrunning : running h = true)
      (hb : ∀ r, (∀ f ∈ h, f.reading ≤ r) → position h + elapsed h r = b + (r - e.reading).toNat) :
      Agrees h ⟨.ofNat b, some e.instant⟩

@[simp] theorem now_stopped (base instant : Double) : (⟨base, none⟩ : Clock).now instant = base :=
  rfl

@[simp] theorem now_going (base since instant : Double) :
    (⟨base, some since⟩ : Clock).now instant = base.add (instant.sub since) :=
  rfl

@[simp] theorem play_stopped (base instant : Double) :
    (⟨base, none⟩ : Clock).play instant = ⟨base, some instant⟩ :=
  rfl

namespace Agrees

theorem isRunning_eq (hc : Agrees h c) : c.isRunning = running h := by
  cases hc with
  | stopped hrunning => exact hrunning.symm
  | going _ hrunning => exact hrunning.symm

/-- What a clock shows that fits its history. -/
theorem now_eq (hc : Agrees h c) (ht : Timed origin (e :: h)) :
    c.now e.instant = .ofNat (position h + elapsed h e.reading) := by
  cases hc with
  | stopped _ hb => rw [now_stopped, hb]
  | @going b f hmem _ hb =>
    have hlatest := hb e.reading fun f hf => ht.reading_le hf
    have hfe := ht.reading_le hmem
    have hposition := position_lt ht.tail
    have helapsed := elapsed_le ht
    have he := (ht.span e List.mem_cons_self).2
    have hf := (ht.tail.span f hmem).1
    -- position and time are below `2^52` each, so neither the difference nor the sum is rounded
    rw [now_going, hlatest]
    refine Double.add_sub_of_isWhole (ht.instants e List.mem_cons_self) (ht.tail.instants f hmem) ?_ ?_ ?_
    · show b < 2 ^ 53
      omega
    · show (e.reading - f.reading).toNat < 2 ^ 53
      omega
    · show e.reading = f.reading + _
      omega

/-- A request that gives no position and neither starts nor stops the clock leaves it as it is. -/
theorem idle (hc : Agrees h c) (ht : Timed origin (e :: h)) (hgiven : given h e.request = none)
    (hruns : running (e :: h) = running h) : Agrees (e :: h) c := by
  cases hc with
  | stopped hrunning hb =>
    refine .stopped (hruns.trans hrunning) fun r => ?_
    rw [position_of_not_given hgiven, elapsed_of_not_given hgiven, hruns, hrunning, ← hb e.reading]
    rfl
  | @going b f hmem hrunning hb =>
    refine .going (List.mem_cons_of_mem e hmem) (hruns.trans hrunning) fun r hr => ?_
    have hlatest := hb e.reading fun f hf => ht.reading_le hf
    have hfe := ht.reading_le hmem
    have her := hr e List.mem_cons_self
    rw [position_of_not_given hgiven, elapsed_of_not_given hgiven, hruns, hrunning, if_pos rfl]
    omega

/-- A request that gives a position lets the time begin anew. -/
theorem of_given (hgiven : given h e.request = some p)
    (hruns : running (e :: h) = running h) :
    Agrees (e :: h) ⟨.ofNat p, if running h then some e.instant else none⟩ := by
  cases hrunning : running h with
  | false =>
    refine .stopped (hruns.trans hrunning) fun r => ?_
    rw [position_of_given hgiven, elapsed_of_given hgiven, hruns, hrunning]
    rfl
  | true =>
    refine .going List.mem_cons_self (hruns.trans hrunning) fun r _ => ?_
    rw [position_of_given hgiven, elapsed_of_given hgiven, hruns, hrunning, if_pos rfl]

theorem play (hc : Agrees h c) (ht : Timed origin (e :: h)) (hrequest : e.request = .play) :
    Agrees (e :: h) (c.play e.instant) := by
  have hgiven : given h e.request = none := by simp [hrequest, given]
  have hruns : running (e :: h) = true := by rw [running, hrequest]
  cases hc with
  | stopped hrunning hb =>
    rw [play_stopped]
    refine .going List.mem_cons_self hruns fun r _ => ?_
    rw [position_of_not_given hgiven, elapsed_of_not_given hgiven, hruns, if_pos rfl,
      ← hb e.reading, Nat.add_assoc]
  -- a clock that runs already keeps its own instant, not that of the event
  | going hmem hrunning hb => exact (going hmem hrunning hb).idle ht hgiven (hruns.trans hrunning.symm)

theorem pause (hc : Agrees h c) (ht : Timed origin (e :: h)) (hrequest : e.request = .pause) :
    Agrees (e :: h) (c.pause e.instant) := by
  have hgiven : given h e.request = none := by simp [hrequest, given]
  have hruns : running (e :: h) = false := by rw [running, hrequest]
  have hnow := hc.now_eq ht
  cases hc with
  | stopped hrunning hb => exact (stopped hrunning hb).idle ht hgiven (hruns.trans hrunning.symm)
  | going hmem hrunning hb =>
    -- the time shown becomes the base, and from then on no time is added
    rw [Clock.pause, hnow]
    refine .stopped hruns fun r => ?_
    rw [position_of_not_given hgiven, elapsed_of_not_given hgiven, hruns]
    rfl

theorem seek (hc : Agrees h c) {x : Double} (hx : ms.toDouble = .ok x) (hwhole : x.isWhole = true)
    (hrequest : e.request = .seek ms) : Agrees (e :: h) (c.seek e.instant x) := by
  have hgiven : given h e.request = some x.truncate.toNat := by simp only [hrequest, given, target_eq hx]
  have hruns : running (e :: h) = running h := by rw [running, hrequest]
  have hnew := of_given hgiven hruns
  rw [← hc.isRunning_eq] at hnew
  rw [Clock.seek, Double.clampBelow_of_isWhole hwhole]
  cases hc with
  | stopped => exact hnew
  | going => exact hnew

theorem of_set {x : Double} (hx : ms.toDouble = .ok x) (hwhole : x.isWhole = true)
    (hrequest : e.request = .set ms) (hrunning : running h = false) :
    Agrees (e :: h) ⟨x.clampBelow, none⟩ := by
  have hgiven : given h e.request = some x.truncate.toNat := by
    simp [hrequest, given, target_eq hx, hrunning]
  have hruns : running (e :: h) = running h := by rw [running, hrequest]
  have hnew := of_given hgiven hruns
  rw [hrunning] at hnew
  rw [Double.clampBelow_of_isWhole hwhole]
  exact hnew

end Agrees

theorem setTo_of_isRunning (hrunning : c.isRunning = true) (ms : Value) :
    c.setTo ms = refuse .clockRunning := by
  rw [setTo, if_pos hrunning]
  rfl

theorem setTo_of_stopped (hstopped : c.isRunning = false) (ms : Value) :
    c.setTo ms = ms.toDouble.map fun x => ⟨x.clampBelow, none⟩ := by
  obtain ⟨b, since⟩ := c
  cases since with
  | some x => cases hstopped
  | none => cases hms : ms.toDouble <;> simp [setTo, set, isRunning, hms]

theorem play_of_isRunning (hrunning : c.isRunning = true) (instant : Double) :
    c.play instant = c := by
  obtain ⟨b, since⟩ := c
  cases since with
  | none => cases hrunning
  | some x => rfl

theorem pause_of_stopped (hstopped : c.isRunning = false) (instant : Double) :
    c.pause instant = c := by
  obtain ⟨b, since⟩ := c
  cases since with
  | none => rfl
  | some x => cases hstopped

theorem after_seek (instant : Double) (ms : Value) (h : List Event) :
    after (⟨instant, .seek ms⟩ :: h) = match (after h).seekTo instant ms with
      | .ok c => c
      | .error _ => after h :=
  rfl

theorem after_set (instant : Double) (ms : Value) (h : List Event) :
    after (⟨instant, .set ms⟩ :: h) = match (after h).setTo ms with
      | .ok c => c
      | .error _ => after h :=
  rfl

/-- The clock that a history leaves fits it. -/
theorem agrees_after (ht : Timed origin h) : Agrees h (after h) := by
  -- the induction follows the history back; a request either is idle or settles both numbers anew
  induction h with
  | nil =>
    rw [after, start, Double.zero_eq_ofNat]
    exact .stopped rfl fun _ => rfl
  | cons e h ih =>
    have hc := ih ht.tail
    have hwhole := ht.positions e List.mem_cons_self
    rw [after, serve]
    cases hrequest : e.request with
    | play => exact hc.play ht hrequest
    | pause => exact hc.pause ht hrequest
    | seek ms =>
      rw [hrequest] at hwhole
      obtain ⟨x, hx, hwhole, -⟩ := hwhole
      dsimp only
      rw [seekTo, hx]
      exact hc.seek hx hwhole hrequest
    | set ms =>
      dsimp only
      cases hrunning : running h with
      | true =>
        -- the request is refused, and the history counts it as no position
        rw [setTo_of_isRunning (hc.isRunning_eq.trans hrunning)]
        exact hc.idle ht (by simp [hrequest, given, hrunning]) (by rw [running, hrequest])
      | false =>
        rw [hrequest] at hwhole
        obtain ⟨x, hx, hwhole, -⟩ := hwhole
        rw [setTo_of_stopped (hc.isRunning_eq.trans hrunning), hx]
        exact .of_set hx hwhole hrequest hrunning
    | read => exact hc.idle ht (by simp [hrequest, given]) (by rw [running, hrequest])

/-! ## Section 5: What a clock shows -/

theorem now_after (ht : Timed origin (e :: h)) :
    (after h).now e.instant = .ofNat (position h + elapsed h e.reading) :=
  (agrees_after ht.tail).now_eq ht

theorem position_append (hstill : Still h g) : position (g ++ h) = position h := by
  induction g with
  | nil => rfl
  | cons e g ih =>
    rw [List.cons_append, position_of_not_given hstill.1]
    exact ih hstill.2

/-- The time that has passed never shrinks while no position is given. -/
theorem elapsed_le_append (hstill : Still (f :: h) g) (hf : f.request = .read) (r : Int) :
    elapsed h f.reading ≤ elapsed (g ++ f :: h) r := by
  induction g generalizing r with
  | nil =>
    rw [List.nil_append, elapsed_of_not_given (by simp [hf, given])]
    exact Nat.le_add_right _ _
  | cons e g ih =>
    rw [List.cons_append, elapsed_of_not_given hstill.1]
    exact Nat.le_trans (ih hstill.2 e.reading) (Nat.le_add_right _ _)

/-- A clock that stands still and is not started stands still. -/
theorem running_append (hstopped : running h = false) (hplay : ∀ e ∈ g, e.request ≠ .play) :
    running (g ++ h) = false := by
  induction g with
  | nil => exact hstopped
  | cons e g ih =>
    have hrest := ih fun f hf => hplay f (List.mem_cons_of_mem e hf)
    have he := hplay e List.mem_cons_self
    rw [List.cons_append, running]
    split
    · next hrequest => exact absurd hrequest he
    · rfl
    · exact hrest

theorem elapsed_of_stopped (hstopped : running h = false) (r r' : Int) :
    elapsed h r = elapsed h r' := by
  cases h with
  | nil => rfl
  | cons e h => rw [elapsed, elapsed, hstopped]; rfl

/-- No time passes for a clock that stands still. -/
theorem elapsed_append_eq (hstill : Still h g) (hstopped : running h = false)
    (hplay : ∀ e ∈ g, e.request ≠ .play) (r r' : Int) : elapsed (g ++ h) r = elapsed h r' := by
  induction g generalizing r with
  | nil => exact elapsed_of_stopped hstopped r r'
  | cons e g ih =>
    have hrunning : running (e :: (g ++ h)) = false := running_append hstopped hplay
    rw [List.cons_append, elapsed_of_not_given hstill.1, hrunning]
    exact ih hstill.2 (fun f hf => hplay f (List.mem_cons_of_mem e hf)) e.reading

/-- What a clock with a history shows at an instant, and what follows from that. -/
structure Accumulates (origin : Int) (h : List Event) (instant : Double) : Prop where
  /-- The clock shows the last position and the time that has passed since then while it ran. -/
  now_eq : (after h).now instant = .ofNat (position h + elapsed h instant.truncate)
  isRunning_eq : (after h).isRunning = running h
  play_again : running h = true → (after h).play instant = after h
  pause_again : running h = false → (after h).pause instant = after h
  set_refused : running h = true → ∀ ms, (after h).setTo ms = refuse .clockRunning
    ∧ after (⟨instant, .set ms⟩ :: h) = after h
  /-- The clock never shows less than zero. -/
  zero_le_now : Double.zero.le ((after h).now instant) = true
  /-- Right after a seek the clock shows the new position, even if it runs. -/
  now_seek : ∀ ms, Whole ms → ∃ c, (after h).seekTo instant ms = .ok c
    ∧ after (⟨instant, .seek ms⟩ :: h) = c ∧ c.now instant = .ofNat (target ms)
  /-- The clock never shows less than before while no position is given to it. -/
  now_le : ∀ g later, Timed origin (⟨later, .read⟩ :: (g ++ ⟨instant, .read⟩ :: h)) →
    Still (⟨instant, .read⟩ :: h) g →
    ((after h).now instant).le ((after (g ++ ⟨instant, .read⟩ :: h)).now later) = true
  /-- A clock that stands still shows the same all the time. -/
  now_eq_of_stopped : ∀ g later, Timed origin (⟨later, .read⟩ :: (g ++ ⟨instant, .read⟩ :: h)) →
    Still (⟨instant, .read⟩ :: h) g → running h = false → (∀ e ∈ g, e.request ≠ .play) →
    (after (g ++ ⟨instant, .read⟩ :: h)).now later = (after h).now instant

theorem now_lt (ht : Timed origin (e :: h)) : position h + elapsed h e.reading < 2 ^ 53 := by
  have hposition := position_lt ht.tail
  have helapsed := elapsed_le ht
  have he := (ht.span e List.mem_cons_self).2
  omega

theorem accumulates {instant : Double} (ht : Timed origin (⟨instant, .read⟩ :: h)) :
    Accumulates origin h instant where
  now_eq := now_after ht
  isRunning_eq := (agrees_after ht.tail).isRunning_eq
  play_again hrunning := play_of_isRunning ((agrees_after ht.tail).isRunning_eq.trans hrunning) instant
  pause_again hrunning := pause_of_stopped ((agrees_after ht.tail).isRunning_eq.trans hrunning) instant
  set_refused hrunning ms := by
    have hrefused := setTo_of_isRunning ((agrees_after ht.tail).isRunning_eq.trans hrunning) ms
    refine ⟨hrefused, ?_⟩
    rw [after_set, hrefused]
    rfl
  zero_le_now := by
    rw [now_after ht, Double.zero_eq_ofNat, Double.ofNat_le_ofNat (Number.twoTo_pos 53) (now_lt ht)]
    exact decide_eq_true (Nat.zero_le _)
  now_seek ms hms := by
    -- the clock is looked at in the history that goes on with the seek
    have hnow := now_after (ht.instead (show Request.Whole (.seek ms) from hms)).again
    obtain ⟨x, hx, -⟩ := hms
    have hseek : (after h).seekTo instant ms = .ok ((after h).seek instant x) := by
      rw [seekTo, hx]
      rfl
    refine ⟨_, hseek, by rw [after_seek, hseek], ?_⟩
    rw [after_seek, hseek] at hnow
    refine hnow.trans ?_
    simp [position, elapsed, given, Event.reading]
  now_le g later hlater hstill := by
    have hmore := elapsed_le_append hstill rfl later.truncate
    have hposition : position (g ++ ⟨instant, .read⟩ :: h) = position h := position_append hstill
    rw [now_after ht, now_after hlater, Double.ofNat_le_ofNat (now_lt ht) (now_lt hlater), hposition]
    exact decide_eq_true (Nat.add_le_add_left hmore _)
  now_eq_of_stopped g later hlater hstill hstopped hplay := by
    have hsame := elapsed_append_eq hstill hstopped hplay later.truncate instant.truncate
    have hposition : position (g ++ ⟨instant, .read⟩ :: h) = position h := position_append hstill
    have hread : elapsed (⟨instant, .read⟩ :: h) instant.truncate = elapsed h instant.truncate := by
      have hruns : running (⟨instant, .read⟩ :: h) = false := hstopped
      rw [elapsed_of_not_given rfl, hruns]
      rfl
    rw [now_after ht, now_after hlater, hposition]
    exact congrArg (fun n => Double.ofNat (position h + n)) (hsame.trans hread)

/-! ## Section 6: Integers -/

/-- Integers of moderate size are whole positions. -/
theorem whole_int {i : Int} (hlow : -2 ^ 53 < i) (hhigh : i < 2 ^ 52) :
    Whole (.int i) ∧ target (.int i) = i.toNat := by
  have hsize : i.natAbs < Number.twoTo 53 := by
    show i.natAbs < 2 ^ 53
    omega
  obtain ⟨hwhole, htruncate⟩ := Double.truncate_ofInt hsize
  have hfinite : (Double.ofInt i).isFinite = true := (Double.isWhole_ofInt i).symm.trans hwhole
  have hdouble : (Value.int i).toDouble = .ok (.ofInt i) := by
    simp [Value.toDouble, Value.toNumber, Value.number?, Number.toDouble?, Number.doubleOfInt?, hfinite]
  refine ⟨⟨_, hdouble, hwhole, ?_⟩, ?_⟩
  · rw [htruncate]
    exact hhigh
  · rw [target_eq hdouble, htruncate]

/-- A clock that runs from the first second on, and is moved in the third one. -/
def sampleHistory : List Event :=
  [⟨.ofNat 3000, .seek (.int 500)⟩, ⟨.ofNat 1000, .play⟩]

theorem accumulates_sample :
    Timed 0 (⟨.ofNat 4000, .read⟩ :: sampleHistory)
      ∧ (after sampleHistory).now (.ofNat 4000) = .ofNat 1500 := by
  obtain ⟨hseek, htarget⟩ := whole_int (i := 500) (by decide) (by decide)
  obtain ⟨hwhole₁, hread₁⟩ := Double.truncate_ofNat (n := 1000) (by decide +kernel)
  obtain ⟨hwhole₂, hread₂⟩ := Double.truncate_ofNat (n := 3000) (by decide +kernel)
  obtain ⟨hwhole₃, hread₃⟩ := Double.truncate_ofNat (n := 4000) (by decide +kernel)
  have ht : Timed 0 (⟨.ofNat 4000, .read⟩ :: sampleHistory) := {
    instants := by simp [sampleHistory, hwhole₁, hwhole₂, hwhole₃]
    span := by simp [sampleHistory, Event.reading, hread₁, hread₂, hread₃]
    ordered := by simp [sampleHistory, Event.reading, hread₁, hread₂, hread₃]
    positions := by simp [sampleHistory, Request.Whole, hseek] }
  refine ⟨ht, (accumulates ht).now_eq.trans (congrArg Double.ofNat ?_)⟩
  simp [sampleHistory, position, elapsed, running, given, Event.reading, htarget, hread₂, hread₃]

end Overlay.Clock
