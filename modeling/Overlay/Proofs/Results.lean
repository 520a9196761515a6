import Overlay.Fault

/-!
# Reading results

How a chain of operations succeeds: each of them does, one after the other.

## Main definitions
- `Yields`: what is true of the answer, if there is one
- `Fails`: what is true of the fault, if there is one
- `Agree`: two results that are alike
- `Together`: two results that both have answers or both fail
- `Delivers`: an answer of which something is true, or a number that is too large

## Main statements
- `bind_eq_ok`, `bind_eq_error`, `map_eq_ok`: what the end of a chain says about its parts
- `bind_congr_ok`: chains that go on in the same way from each answer
- `orFault_eq_ok`: the same for a look-up
- `Yields.bind`: what is true of the answer of a chain
- `Fails.bind`: what is true of the fault of a chain
- `Agree.bind`: two chains that are alike
- `Together.bind`: two chains that go together
- `Delivers.bind`: a chain in which numbers may become too large
-/

namespace Overlay

variable {ε α β : Type}

/-! ## Section 1: Success -/

@[simp] theorem pure_eq_ok (a : α) : (pure a : Except ε α) = .ok a :=
  rfl

-- the two equations of chains leave a step in each proof that uses them: to compare two chains by
-- computation, the kernel would have to carry out the operations in them
@[simp] theorem ok_bind (a : α) (f : α → Except ε β) : (Except.ok a >>= f) = f a := by
  show Except.bind (.ok a) f = f a
  rw [Except.bind]

@[simp] theorem error_bind (e : ε) (f : α → Except ε β) : (Except.error e >>= f) = .error e := by
  show Except.bind (.error e) f = .error e
  rw [Except.bind]

@[simp] theorem ok_map (a : α) (f : α → β) : (Except.ok a : Except ε α).map f = .ok (f a) :=
  rfl

@[simp] theorem error_map (e : ε) (f : α → β) :
    (Except.error e : Except ε α).map f = .error e :=
  rfl

@[simp] theorem orFault_some (fault : Fault) (a : α) : orFault fault (some a) = .ok a :=
  rfl

/-- A chain succeeds where its first operation and what follows it do. -/
theorem bind_eq_ok {x : Except ε α} {f : α → Except ε β} {b : β} :
    (x >>= f) = .ok b ↔ ∃ a, x = .ok a ∧ f a = .ok b := by
  cases x with
  | error e => simp
  | ok a => simp

/-- A chain fails where its first operation or what follows it does. -/
theorem bind_eq_error {x : Except ε α} {f : α → Except ε β} {e : ε} :
    (x >>= f) = .error e ↔ x = .error e ∨ ∃ a, x = .ok a ∧ f a = .error e := by
  cases x with
  | error e' => simp
  | ok a => simp

/-- What only changes an answer has one where the operation before it has. -/
theorem exists_bind_ok_iff {x : Except ε α} {f : α → β} :
    (∃ b, (x >>= fun a => .ok (f a)) = .ok b) ↔ ∃ a, x = .ok a := by
  cases x with
  | error e => simp
  | ok a => simp

/-- An operation on each member of a list answers exactly if it does so on each member by itself. -/
theorem exists_mapM_ok_iff {f : α → Except ε β} {l : List α} :
    (∃ bs, l.mapM f = .ok bs) ↔ ∀ a ∈ l, ∃ b, f a = .ok b := by
  induction l with
  | nil => simp
  | cons a r ih =>
    rw [List.forall_mem_cons, ← ih, List.mapM_cons]
    cases f a with
    | error e => simp
    | ok b =>
      simp only [ok_bind, pure_eq_ok, exists_bind_ok_iff]
      simp

/-- What follows an operation only matters where this answers. -/
theorem bind_congr_ok {x : Except ε α} {f g : α → Except ε β} (h : ∀ a, x = .ok a → f a = g a) :
    (x >>= f) = (x >>= g) := by
  cases x with
  | error e => rw [error_bind, error_bind]
  | ok a => rw [ok_bind, ok_bind, h a rfl]

theorem map_eq_ok {x : Except ε α} {f : α → β} {b : β} :
    x.map f = .ok b ↔ ∃ a, x = .ok a ∧ f a = b := by
  cases x with
  | error e => simp
  | ok a => simp

theorem map_eq_error {x : Except ε α} {f : α → β} {e : ε} : x.map f = .error e ↔ x = .error e := by
  cases x with
  | error e' => simp
  | ok a => simp

theorem toOption_eq_some {r : Except ε α} {a : α} : r.toOption = some a ↔ r = .ok a := by
  cases r with
  | error e => simp [Except.toOption]
  | ok b => simp [Except.toOption]

theorem orFault_eq_ok {fault : Fault} {o : Option α} {a : α} :
    orFault fault o = .ok a ↔ o = some a := by
  cases o with
  | none => simp [orFault]
  | some b => simp

/-! ## Section 2: Answers and faults -/

/-- Something is true of the answer, if there is one. -/
def Yields (q : α → Prop) (r : Except ε α) : Prop :=
  ∀ a, r = .ok a → q a

namespace Yields

variable {q : α → Prop} {s : β → Prop}

theorem ok {a : α} (h : q a) : Yields q (.ok a : Except ε α) := by
  intro b hb
  rw [← Except.ok.inj hb]
  exact h

theorem error (e : ε) : Yields q (.error e : Except ε α) := by
  intro b hb
  cases hb

/-- The answer of a chain is that of what follows its first operation. -/
theorem bind {x : Except ε α} {f : α → Except ε β} (hx : Yields q x)
    (hf : ∀ a, q a → Yields s (f a)) : Yields s (x >>= f) := by
  intro b hb
  obtain ⟨a, ha, hfa⟩ := bind_eq_ok.mp hb
  exact hf a (hx a ha) b hfa

/-- Nothing needs to be known about an operation that only hands on its answer. -/
theorem bind_any {x : Except ε α} {f : α → Except ε β} (hf : ∀ a, x = .ok a → Yields s (f a)) :
    Yields s (x >>= f) := by
  intro b hb
  obtain ⟨a, ha, hfa⟩ := bind_eq_ok.mp hb
  exact hf a ha b hfa

end Yields

/-- Something is true of the fault, if there is one. -/
def Fails (q : ε → Prop) (r : Except ε α) : Prop :=
  ∀ e, r = .error e → q e

namespace Fails

variable {q : ε → Prop}

theorem ok (a : α) : Fails q (.ok a : Except ε α) := by
  intro e he
  cases he

theorem error {e : ε} (h : q e) : Fails q (.error e : Except ε α) := by
  intro f hf
  rw [← Except.error.inj hf]
  exact h

/-- The fault of a chain is that of one of its parts. -/
theorem bind {x : Except ε α} {f : α → Except ε β} (hx : Fails q x)
    (hf : ∀ a, x = .ok a → Fails q (f a)) : Fails q (x >>= f) := by
  intro e he
  rcases bind_eq_error.mp he with h | ⟨a, ha, h⟩
  · exact hx e h
  · exact hf a ha e h

end Fails

/-! ## Section 3: Two results -/

/-- Two results are alike where both have answers, which are related then.  Where faults are compared,
one of them fails if the other one does, with the same fault. -/
structure Agree (faults : Prop) (q : α → β → Prop) (x : Except ε α) (y : Except ε β) : Prop where
  answers : ∀ a b, x = .ok a → y = .ok b → q a b
  fails : faults → ∀ e, x = .error e ↔ y = .error e

namespace Agree

variable {γ δ : Type} {faults : Prop} {q : α → β → Prop} {s : γ → δ → Prop}

theorem ok {a : α} {b : β} (h : q a b) : Agree faults q (.ok a : Except ε α) (.ok b) := by
  refine ⟨?_, fun _ e => by simp⟩
  rintro a' b' ⟨⟩ ⟨⟩
  exact h

theorem error (e : ε) : Agree faults q (.error e : Except ε α) (.error e) :=
  ⟨fun _ _ h => (nomatch h), fun _ _ => by simp⟩

/-- A result is like itself, if its answer is related to itself. -/
theorem same {q : α → α → Prop} {x : Except ε α} (h : ∀ a, x = .ok a → q a a) :
    Agree faults q x x := by
  cases x with
  | error e => exact error e
  | ok a => exact ok (h a rfl)

theorem mono {p : α → β → Prop} {x : Except ε α} {y : Except ε β} (h : Agree faults p x y)
    (himp : ∀ a b, p a b → q a b) : Agree faults q x y :=
  ⟨fun a b ha hb => himp a b (h.answers a b ha hb), h.fails⟩

/-- Two chains are alike where their first operations are, and what follows their answers. -/
theorem bind {x : Except ε α} {y : Except ε β} {f : α → Except ε γ} {g : β → Except ε δ}
    (h : Agree faults q x y) (hf : ∀ a b, q a b → Agree faults s (f a) (g b)) :
    Agree faults s (x >>= f) (y >>= g) := by
  cases x with
  | error e =>
    constructor
    · intro c d hc
      rw [error_bind] at hc
      cases hc
    · intro hfaults e'
      have hy := (h.fails hfaults e).mp rfl
      simp [hy]
  | ok a =>
    cases y with
    | error e =>
      constructor
      · intro c d _ hd
        rw [error_bind] at hd
        cases hd
      · intro hfaults
        cases (h.fails hfaults e).mpr rfl
    | ok b =>
      rw [ok_bind, ok_bind]
      exact hf a b (h.answers a b rfl rfl)

/-- Two results that are alike up to equality are the same. -/
theorem eq {x y : Except ε α} (h : Agree True Eq x y) : x = y := by
  cases x with
  | error e => exact ((h.fails trivial e).mp rfl).symm
  | ok a =>
    cases y with
    | error e => cases (h.fails trivial e).mpr rfl
    | ok b => rw [h.answers a b rfl rfl]

end Agree

/-- Two results go together where both have answers, which are related then, or where both fail,
whatever the faults are. -/
inductive Together (q : α → β → Prop) : Except ε α → Except ε β → Prop
  | answers {a : α} {b : β} (h : q a b) : Together q (.ok a) (.ok b)
  | faults (e e' : ε) : Together q (.error e) (.error e')

namespace Together

variable {γ δ : Type} {q : α → β → Prop} {s : γ → δ → Prop}

/-- A result goes together with itself, if its answer is related to itself. -/
theorem same {q : α → α → Prop} {x : Except ε α} (h : ∀ a, x = .ok a → q a a) : Together q x x := by
  cases x with
  | error e => exact faults e e
  | ok a => exact answers (h a rfl)

theorem mono {p : α → β → Prop} {x : Except ε α} {y : Except ε β} (h : Together p x y)
    (himp : ∀ a b, x = .ok a → y = .ok b → p a b → q a b) : Together q x y := by
  cases h with
  | answers h => exact answers (himp _ _ rfl rfl h)
  | faults e e' => exact faults e e'

theorem trans {p : α → α → Prop} (hp : ∀ a b c, p a b → p b c → p a c) {x y z : Except ε α}
    (h : Together p x y) (h' : Together p y z) : Together p x z := by
  cases h with
  | answers h =>
    cases h' with
    | answers h' => exact answers (hp _ _ _ h h')
  | faults e e' =>
    cases h' with
    | faults => exact faults _ _

theorem exists_ok {a : α} {y : Except ε β} (h : Together q (.ok a) y) : ∃ b, y = .ok b ∧ q a b := by
  cases h with
  | answers h => exact ⟨_, rfl, h⟩

theorem exists_error {e : ε} {y : Except ε β} (h : Together q (.error e) y) : ∃ e', y = .error e' := by
  cases h with
  | faults => exact ⟨_, rfl⟩

/-- Two chains go together where their first operations do, and what follows their answers. -/
theorem bind {x : Except ε α} {y : Except ε β} {f : α → Except ε γ} {g : β → Except ε δ}
    (h : Together q x y) (hf : ∀ a b, q a b → Together s (f a) (g b)) :
    Together s (x >>= f) (y >>= g) := by
  cases h with
  | answers h =>
    rw [ok_bind, ok_bind]
    exact hf _ _ h
  | faults e e' =>
    rw [error_bind, error_bind]
    exact faults e e'

end Together

/-! ## Section 4: Numbers that are too large -/

/-- There is an answer of which something is true, or, where numbers may become too large, one has. -/
def Delivers (overflows : Prop) (q : α → Prop) (r : Result α) : Prop :=
  (∃ a, r = .ok a ∧ q a) ∨ overflows ∧ r = .error .tooLarge

namespace Delivers

variable {overflows : Prop} {q : α → Prop} {s : β → Prop}

theorem ok {a : α} (h : q a) : Delivers overflows q (.ok a) :=
  Or.inl ⟨a, rfl, h⟩

theorem tooLarge (h : overflows) : Delivers overflows q (.error .tooLarge) :=
  Or.inr ⟨h, rfl⟩

theorem bind {x : Result α} {f : α → Result β} (hx : Delivers overflows q x)
    (hf : ∀ a, q a → Delivers overflows s (f a)) : Delivers overflows s (x >>= f) := by
  rcases hx with ⟨a, rfl, ha⟩ | ⟨hoverflows, rfl⟩
  · rw [ok_bind]
    exact hf a ha
  · rw [error_bind]
    exact tooLarge hoverflows

theorem mono {overflows' : Prop} {q' : α → Prop} {r : Result α} (h : Delivers overflows q r)
    (hoverflows : overflows → overflows') (himp : ∀ a, q a → q' a) : Delivers overflows' q' r :=
  Or.imp (fun ⟨a, hr, ha⟩ => ⟨a, hr, himp a ha⟩) (fun ⟨ho, hr⟩ => ⟨hoverflows ho, hr⟩) h

/-- Where no number may become too large, there is an answer. -/
theorem exists_ok {r : Result α} (h : Delivers False q r) : ∃ a, r = .ok a ∧ q a :=
  h.resolve_right fun h => h.1

end Delivers

end Overlay
