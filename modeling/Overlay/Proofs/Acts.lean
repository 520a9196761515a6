import Overlay.Act
import Overlay.Proofs.Results

/-!
# Reading actions

A chain of actions comes to what its parts come to, one after the other.  A statement about an
action from a state speaks of its answer or fault and of the state that it leaves, whatever lies
around it.

## Main definitions
- `Act.Leaves`: what is true of the end of an action that starts from a state
- `Act.Keeps`: what an action keeps true of the state
- `Act.Ends`: what is true of its answer, and what of its fault
- `Act.Taken`: the id that is taken
- `Surroundings.answers`: the answers that were given so far
- `Act.Silent`: actions that answer nobody

## Main statements
- `Act.perform_bind`: a chain of actions
- `Act.Taken.exists_perform`: an id that may be taken is taken somewhere
- `Act.Leaves.bind`, `Act.Leaves.bind_ofResult`, `Act.Leaves.bind_get`: how chains are read
- `Act.Leaves.of_taken`: ids that are drawn where none is given
- `Act.Ends.bind`: a chain that answers or stops
- `Act.Silent.bind`: a chain of silent actions is silent
-/

namespace Overlay

/-- Whether a signal answers one who asked for an entry. -/
def Signal.isAnswer : Signal → Bool
  | .accepted _ => true
  | .rejected _ => true
  | _ => false

/-- The answers given so far, the first one first. -/
def Surroundings.answers (w : Surroundings) : List Signal :=
  w.signals.filter Signal.isAnswer

namespace Act

variable {σ τ α β : Type}

/-! ## Section 1: Performing -/

@[simp] theorem perform_pure (a : α) (s : σ) (w : Surroundings) :
    perform (pure a : Act σ α) s w = (.ok a, s, w) :=
  rfl

@[simp] theorem perform_ofResult (r : Result α) (s : σ) (w : Surroundings) :
    perform (ofResult r : Act σ α) s w = (r, s, w) :=
  rfl

@[simp] theorem perform_get (s : σ) (w : Surroundings) :
    perform (get : Act σ σ) s w = (.ok s, s, w) :=
  rfl

@[simp] theorem perform_modify (f : σ → σ) (s : σ) (w : Surroundings) :
    perform (modify f : Act σ Unit) s w = (.ok (), f s, w) :=
  rfl

@[simp] theorem perform_set (t s : σ) (w : Surroundings) :
    perform (set t : Act σ Unit) s w = (.ok (), t, w) :=
  rfl

@[simp] theorem perform_stop (cause : Cause) (s : σ) (w : Surroundings) :
    perform (stop cause : Act σ α) s w = (.error cause.fault, s, w) :=
  rfl

@[simp] theorem perform_emit (signal : Signal) (s : σ) (w : Surroundings) :
    perform (emit signal) s w = (.ok (), s, { w with signals := w.signals ++ [signal] }) :=
  rfl

/-- A part of a state is worked on by itself. -/
theorem perform_on (part : τ → σ) (put : σ → τ → τ) (act : Act σ α) (t : τ) (w : Surroundings) :
    perform (on part put act) t w
      = ((perform act (part t) w).1, put (perform act (part t) w).2.1 t,
        (perform act (part t) w).2.2) :=
  rfl

theorem perform_freshId (length : Nat) (s : σ) (w : Surroundings) :
    perform (freshId length) s w
      = (.ok (String.ofList (w.ids.peek length)), s, { w with ids := w.ids.skip length }) :=
  rfl

/-- The text that is drawn behind a word. -/
def drawn (word : String) (ids : IdSource) : String :=
  word ++ "_" ++ String.ofList ((String.ofList (ids.peek 7)).toList.map Char.toLower)

/-- The id that is taken: the given one, or one that is drawn where none is given. -/
inductive Taken (word : String) : Value → Value → Prop where
  | given {id : Value} (h : id ≠ .none) : Taken word id id
  | drawn (ids : IdSource) : Taken word .none (.text (drawn word ids))

theorem Taken.exists_text {word : String} {id v : Value} (h : Taken word id v)
    (hid : id = .none ∨ ∃ s, id = .text s) : ∃ s, v = .text s := by
  cases h with
  | given hgiven => exact hid.resolve_left hgiven
  | drawn ids => exact ⟨_, rfl⟩

/-- A given id is taken as it is. -/
theorem Taken.eq_of_given {word : String} {id v : Value} (h : Taken word id v) (hid : id ≠ .none) :
    v = id := by
  cases h with
  | given _ => rfl
  | drawn ids => exact absurd rfl hid

/-- A chain goes on with the answer of its first action from the state that this one leaves. -/
theorem perform_bind (x : Act σ α) (f : α → Act σ β) (s : σ) (w : Surroundings) :
    perform (x >>= f) s w
      = match perform x s w with
        | (.ok a, t, v) => perform (f a) t v
        | (.error fault, t, v) => (.error fault, t, v) := by
  unfold perform
  rw [ExceptT.run_bind, StateT.run_bind, StateT.run_bind]
  generalize (x.run.run s).run w = r
  obtain ⟨⟨fault | a, t⟩, v⟩ := r
  · rfl
  · rfl

@[simp] theorem perform_map (f : α → β) (x : Act σ α) (s : σ) (w : Surroundings) :
    perform (f <$> x) s w = ((perform x s w).1.map f, (perform x s w).2) := by
  rw [map_eq_pure_bind, perform_bind]
  generalize perform x s w = end_
  obtain ⟨fault | a, t, v⟩ := end_
  · rfl
  · rfl

theorem perform_freshPrefixed (word : String) (s : σ) (w : Surroundings) :
    perform (freshPrefixed word) s w
      = (.ok (drawn word w.ids), s, { w with ids := w.ids.skip 7 }) := by
  rw [freshPrefixed, perform_bind, perform_freshId]
  rfl

/-- Each id that may be taken is taken somewhere. -/
theorem Taken.exists_perform {word : String} {id v : Value} (h : Taken word id v)
    (f : Value → Act σ β) (s : σ) : ∃ w w',
    perform (match id with
      | .none => (do return Value.text (← freshPrefixed word)) >>= f
      | v => pure v >>= f : Act σ β) s w = perform (f v) s w' := by
  cases h with
  | given hgiven =>
    refine ⟨default, default, ?_⟩
    cases id with
    | none => exact absurd rfl hgiven
    | _ => simp
  | drawn ids =>
    refine ⟨⟨ids, []⟩, ⟨ids.skip 7, []⟩, ?_⟩
    simp [perform_bind, perform_freshPrefixed]

/-! ## Section 2: What an action leaves -/

/-- Something is true of the answer or fault of an action and of the state that it leaves when it
starts from a state. -/
def Leaves (act : Act σ α) (s : σ) (q : Result α → σ → Prop) : Prop :=
  ∀ w, q (act.perform s w).1 (act.perform s w).2.1

namespace Leaves

variable {s : σ} {q : Result α → σ → Prop} {r : Result β → σ → Prop}

theorem mono {p : Result α → σ → Prop} {act : Act σ α} (h : act.Leaves s p)
    (himp : ∀ a t, p a t → q a t) : act.Leaves s q :=
  fun w => himp _ _ (h w)

theorem of_pure {a : α} (h : q (.ok a) s) : (pure a : Act σ α).Leaves s q :=
  fun _ => h

theorem of_set {p : Result Unit → σ → Prop} {t : σ} (h : p (.ok ()) t) :
    (set t : Act σ Unit).Leaves s p :=
  fun _ => h

theorem of_modify {p : Result Unit → σ → Prop} {f : σ → σ} (h : p (.ok ()) (f s)) :
    (modify f : Act σ Unit).Leaves s p :=
  fun _ => h

theorem of_note {p : Result Unit → σ → Prop} {level : Level} {message : String} (h : p (.ok ()) s) :
    (note level message : Act σ Unit).Leaves s p :=
  fun _ => h

theorem of_throw {fault : Fault} (h : q (.error fault) s) : (throw fault : Act σ α).Leaves s q :=
  fun _ => h

theorem of_stop {cause : Cause} (h : q (.error cause.fault) s) :
    (stop cause : Act σ α).Leaves s q :=
  fun _ => h

/-- A chain is read action by action. -/
theorem bind {x : Act σ α} {f : α → Act σ β} (hx : x.Leaves s q)
    (hok : ∀ a t, q (.ok a) t → (f a).Leaves t r)
    (herror : ∀ fault t, q (.error fault) t → r (.error fault) t) : (x >>= f).Leaves s r := by
  intro w
  have hfirst := hx w
  rw [perform_bind]
  generalize perform x s w = end_ at hfirst
  obtain ⟨fault | a, t, v⟩ := end_
  · exact herror fault t hfirst
  · exact hok a t hfirst v

/-- A check leaves the state as it is. -/
theorem bind_ofResult {x : Result α} {f : α → Act σ β}
    (hok : ∀ a, x = .ok a → (f a).Leaves s r) (herror : ∀ fault, x = .error fault → r (.error fault) s) :
    (ofResult x >>= f).Leaves s r := by
  refine bind (q := fun a t => a = x ∧ t = s) (fun _ => ⟨rfl, rfl⟩) ?_ ?_
  · rintro a t ⟨ha, rfl⟩
    exact hok a ha.symm
  · rintro fault t ⟨hfault, rfl⟩
    exact herror fault hfault.symm

/-- A check with a known answer. -/
theorem bind_known {x : Result α} {a : α} {f : α → Act σ β} (hx : x = .ok a)
    (hf : (f a).Leaves s r) : (ofResult x >>= f).Leaves s r := by
  subst hx
  exact hf

theorem bind_pure {a : α} {f : α → Act σ β} (h : (f a).Leaves s r) :
    (pure a >>= f : Act σ β).Leaves s r := by
  intro w
  rw [perform_bind]
  exact h w

theorem bind_throw {fault : Fault} {f : α → Act σ β} (h : r (.error fault) s) :
    (throw fault >>= f : Act σ β).Leaves s r := by
  intro w
  rw [perform_bind]
  exact h

theorem bind_stop {cause : Cause} {f : α → Act σ β} (h : r (.error cause.fault) s) :
    (stop cause >>= f : Act σ β).Leaves s r :=
  bind_throw h

theorem bind_emit {signal : Signal} {f : Unit → Act σ β} (h : (f ()).Leaves s r) :
    (emit signal >>= f).Leaves s r := by
  intro w
  rw [perform_bind]
  exact h _

/-- An action that is known to succeed leads on from the state that it leaves. -/
theorem bind_ok {x : Act σ α} {f : α → Act σ β} {a : α} {t : σ}
    (hx : ∀ w, ∃ v, perform x s w = (.ok a, t, v)) (hf : (f a).Leaves t r) : (x >>= f).Leaves s r := by
  intro w
  obtain ⟨v, hv⟩ := hx w
  rw [perform_bind, hv]
  exact hf v

theorem bind_get {f : σ → Act σ β} (h : (f s).Leaves s r) : (get >>= f).Leaves s r := by
  intro w
  rw [perform_bind]
  exact h w

theorem bind_modify {g : σ → σ} {f : Unit → Act σ β} (h : (f ()).Leaves (g s) r) :
    (modify g >>= f : Act σ β).Leaves s r := by
  intro w
  rw [perform_bind]
  exact h w

theorem bind_set {t : σ} {f : Unit → Act σ β} (h : (f ()).Leaves t r) :
    (set t >>= f : Act σ β).Leaves s r := by
  intro w
  rw [perform_bind]
  exact h w

/-- A part of a state is changed by itself. -/
theorem of_on {part : τ → σ} {put : σ → τ → τ} {act : Act σ α} {t : τ} {p : Result α → τ → Prop}
    (h : act.Leaves (part t) fun a u => p a (put u t)) : (Act.on part put act).Leaves t p :=
  fun w => h w

/-- A chain goes on after a fault that has become an answer. -/
theorem bind_attempt {x : Act σ α} {f : Result α → Act σ β} (hx : x.Leaves s q)
    (hf : ∀ a t, q a t → (f a).Leaves t r) : (attempt x >>= f).Leaves s r := by
  intro w
  rw [perform_bind]
  exact hf _ _ (hx w) _

/-- Signals that are changed on their way out do not change what is left. -/
theorem of_mapSignals {act : Act σ α} (f : Signal → Signal) (h : act.Leaves s q) :
    (mapSignals f act).Leaves s q :=
  fun w => h { w with signals := [] }

/-- A drawn id leaves the state as it is. -/
theorem freshPrefixed_leaves (word : String) (s : σ) :
    (freshPrefixed word : Act σ String).Leaves s fun a t => t = s ∧ ∃ ids, a = .ok (drawn word ids) := by
  intro w
  rw [perform_freshPrefixed]
  exact ⟨rfl, w.ids, rfl⟩

/-- What is true of a chain for each id that may be taken is true of the chain that takes one. -/
theorem of_taken {word : String} {id : Value} {f : Value → Act σ β} :
    (∀ v, Taken word id v → (f v).Leaves s r) →
    (match id with
      | .none => (do return Value.text (← freshPrefixed word)) >>= f
      | v => pure v >>= f : Act σ β).Leaves s r := by
  intro hf
  cases id with
  | none =>
    refine bind (q := fun a t => t = s ∧ ∃ ids, a = .ok (.text (drawn word ids))) ?_ ?_ ?_
    · exact bind (freshPrefixed_leaves word s)
        (fun x t h => of_pure ⟨h.1, h.2.imp fun ids hx => by rw [Except.ok.inj hx]⟩)
        fun fault t h => nomatch h.2
    · rintro a t ⟨rfl, ids, ha⟩
      rw [Except.ok.inj ha]
      exact hf _ (.drawn ids)
    · rintro fault t ⟨-, ids, hfault⟩
      cases hfault
  | _ => exact bind_pure (hf _ (.given (by simp)))

end Leaves

/-! ## Section 3: Invariants -/

/-- Something that an action keeps true of the state, also where it stops with a fault. -/
def Keeps (i : σ → Prop) (act : Act σ α) : Prop :=
  ∀ s, i s → act.Leaves s fun _ t => i t

namespace Keeps

variable {i : σ → Prop}

theorem of_pure (a : α) : Keeps i (pure a : Act σ α) :=
  fun _ h _ => h

theorem of_note (level : Level) (message : String) : Keeps i (note level message : Act σ Unit) :=
  fun _ h _ => h

theorem of_ofResult (r : Result α) : Keeps i (ofResult r : Act σ α) :=
  fun _ h _ => h

theorem of_stop (cause : Cause) : Keeps i (stop cause : Act σ α) :=
  fun _ h _ => h

theorem of_modify {f : σ → σ} (hf : ∀ s, i s → i (f s)) : Keeps i (modify f : Act σ Unit) :=
  fun s h _ => hf s h

theorem of_taken (word : String) (id : Value) {f : Value → Act σ β} (hf : ∀ v, Keeps i (f v)) :
    Keeps i (match id with
      | .none => (do return Value.text (← freshPrefixed word)) >>= f
      | v => pure v >>= f : Act σ β) :=
  fun s h => Leaves.of_taken fun v _ => hf v s h

/-- A chain keeps what each of its actions keeps. -/
theorem bind {x : Act σ α} {f : α → Act σ β} (hx : Keeps i x) (hf : ∀ a, Keeps i (f a)) :
    Keeps i (x >>= f) :=
  fun s h => Leaves.bind (hx s h) (fun a t ht => hf a t ht) fun _ _ ht => ht

/-- A rule that stops an action or lets it go on. -/
theorem of_rule {c : Prop} [Decidable c] (cause : Cause) {f : Unit → Act σ β}
    (h : Keeps i (f ())) : Keeps i (if c then stop cause >>= f else f ()) := by
  split
  · exact (of_stop (α := Unit) cause).bind fun _ => h
  · exact h

end Keeps

/-! ## Section 4: Answers and faults -/

/-- Something is true of an answer and the state that comes with it, and something of a fault. -/
def Ending (e : Fault → Prop) (q : α → σ → Prop) : Result α → σ → Prop
  | .ok a, s => q a s
  | .error fault, _ => e fault

/-- Where an action answers, something is true of its answer and of the state that it leaves; where it
stops, something is true of its fault. -/
def Ends (act : Act σ α) (s : σ) (e : Fault → Prop) (q : α → σ → Prop) : Prop :=
  act.Leaves s (Ending e q)

namespace Ends

variable {s : σ} {e : Fault → Prop} {q q' : α → σ → Prop} {r : β → σ → Prop}

theorem mono {act : Act σ α} (h : act.Ends s e q) (hq : ∀ a t, q a t → q' a t) :
    act.Ends s e q' := by
  refine Leaves.mono h fun a t hend => ?_
  cases a with
  | ok a => exact hq a t hend
  | error fault => exact hend

/-- Two things that are each true of the end of an action are both true of it. -/
theorem and {e' : Fault → Prop} {act : Act σ α} (h : act.Ends s e q) (h' : act.Ends s e' q') :
    act.Ends s (fun fault => e fault ∧ e' fault) fun a t => q a t ∧ q' a t := by
  intro w
  have hend := h w
  have hend' := h' w
  generalize (act.perform s w).1 = a at hend hend' ⊢
  cases a with
  | ok a => exact ⟨hend, hend'⟩
  | error fault => exact ⟨hend, hend'⟩

theorem imp_fault {e' : Fault → Prop} {act : Act σ α} (h : act.Ends s e q)
    (he : ∀ fault, e fault → e' fault) : act.Ends s e' q := by
  refine Leaves.mono h fun a t hend => ?_
  cases a with
  | ok a => exact hend
  | error fault => exact he fault hend

/-- A chain ends as its first action does, or as what follows the answer of that. -/
theorem bind {x : Act σ α} {f : α → Act σ β} (hx : x.Ends s e q)
    (hf : ∀ a t, q a t → (f a).Ends t e r) : (x >>= f).Ends s e r :=
  Leaves.bind hx hf fun _ _ hfault => hfault

theorem bind_ofResult {x : Result α} {f : α → Act σ β} (hf : ∀ a, x = .ok a → (f a).Ends s e r)
    (hfault : ∀ fault, x = .error fault → e fault) : (ofResult x >>= f).Ends s e r :=
  Leaves.bind_ofResult hf hfault

theorem bind_throw {fault : Fault} {f : α → Act σ β} (h : e fault) :
    (throw fault >>= f : Act σ β).Ends s e r :=
  Leaves.bind_throw h

theorem bind_stop {cause : Cause} {f : α → Act σ β} (h : e cause.fault) :
    (stop cause >>= f : Act σ β).Ends s e r :=
  Leaves.bind_stop h

theorem of_on {part : τ → σ} {put : σ → τ → τ} {act : Act σ α} {t : τ} {p : α → τ → Prop}
    (h : act.Ends (part t) e fun a u => p a (put u t)) : (Act.on part put act).Ends t e p := by
  refine Leaves.of_on (Leaves.mono h fun a u hend => ?_)
  cases a with
  | ok a => exact hend
  | error fault => exact hend

theorem answer {act : Act σ α} (h : act.Ends s e q) {w : Surroundings} {a : α}
    (ha : (act.perform s w).1 = .ok a) : q a (act.perform s w).2.1 := by
  have hend := h w
  rwa [ha] at hend

theorem fault {act : Act σ α} (h : act.Ends s e q) {w : Surroundings} {fault : Fault}
    (hfault : (act.perform s w).1 = .error fault) : e fault := by
  have hend := h w
  rwa [hfault] at hend

end Ends

/-! ## Section 5: Answers to those who asked -/

@[simp] theorem answers_append (w : Surroundings) (signal : Signal) :
    Surroundings.answers { w with signals := w.signals ++ [signal] }
      = if signal.isAnswer then w.answers ++ [signal] else w.answers := by
  unfold Surroundings.answers
  rw [List.filter_append]
  cases hanswer : signal.isAnswer with
  | true => simp [hanswer]
  | false => simp [hanswer]

/-- An action that answers nobody, however it ends. -/
def Silent (act : Act σ α) : Prop :=
  ∀ s w, (act.perform s w).2.2.answers = w.answers

namespace Silent

theorem of_pure (a : α) : Silent (pure a : Act σ α) :=
  fun _ _ => rfl

theorem of_ofResult (r : Result α) : Silent (ofResult r : Act σ α) :=
  fun _ _ => rfl

theorem of_get : Silent (get : Act σ σ) :=
  fun _ _ => rfl

theorem of_set (t : σ) : Silent (set t : Act σ Unit) :=
  fun _ _ => rfl

theorem of_modify (f : σ → σ) : Silent (modify f : Act σ Unit) :=
  fun _ _ => rfl

theorem of_stop (cause : Cause) : Silent (stop cause : Act σ α) :=
  fun _ _ => rfl

theorem of_emit {signal : Signal} (h : signal.isAnswer = false) : Silent (emit signal : Act σ Unit) := by
  intro s w
  rw [perform_emit, answers_append, h]
  rfl

theorem of_note (level : Level) (message : String) : Silent (note level message : Act σ Unit) :=
  of_emit rfl

theorem bind {x : Act σ α} {f : α → Act σ β} (hx : Silent x) (hf : ∀ a, Silent (f a)) :
    Silent (x >>= f) := by
  intro s w
  have hfirst := hx s w
  rw [perform_bind]
  generalize perform x s w = end_ at hfirst
  obtain ⟨fault | a, t, v⟩ := end_
  · exact hfirst
  · exact (hf a t v).trans hfirst

end Silent

end Act

end Overlay
