import Overlay.Playback.Preview
import Overlay.Proofs.Playback.Operations

/-!
# Resets

A reset that succeeds leaves a session that rests at zero, on each of its paths: the engine is emptied,
or a new one is built because there was none or it could not be emptied.

## Main definitions
- `Session.Clears`: the engine can be emptied
- `Session.Kept`, `Session.Rebuilt`: the same engine, or one new engine

## Main statements
- `Session.rebuild_leaves`: a new engine from the last options
- `Session.Clears.exists_perform_reset`: an engine that can be emptied is enough for success
- `Session.reset_rests`: what a reset leaves
-/

namespace Overlay.Session

open Act

variable {ε : Type} {kind : Option (EngineKind ε)} {k : EngineKind ε} {instant : Double}
  {s t : Session ε} {options : Fields}

/-! ## Section 1: Paths -/

/-- There is an engine, and when it has been paused it can be emptied: nothing is raised. -/
def Clears (k : EngineKind ε) (instant : Double) (s : Session ε) (w : Surroundings) : Prop :=
  ∃ s₁ w₁ e e', (pause (some k) instant).perform s w = (.ok (), s₁, w₁) ∧ s₁.engine = some e
    ∧ ((softClear k s₁.builds e).perform s₁ w₁).1 = .ok (.ok (), e')

/-- The engine is the same one, and nothing was built.  A shelf where a list lay is empty. -/
def Kept (k : EngineKind ε) (s t : Session ε) : Prop :=
  t.builds = s.builds ∧ ∃ e e₁ e₂ e', s.engine = some e ∧ Asked k .pause e e₁ ∧ Asked k .clear e₁ e₂
    ∧ t.engine = some e'
    ∧ ∀ a, k.shelf e' a = if isList (k.shelf e₂ a) then .list [] else k.shelf e₂ a

/-- One new engine was built from options and the time of the clock. -/
def Rebuilt (k : EngineKind ε) (options : Fields) (s t : Session ε) : Prop :=
  t.builds = s.builds + 1 ∧ ∃ e₀ e₁ e', k.build (s.builds + 1) (withClock options) = .ok e₀
    ∧ Asked k .init e₀ e₁ ∧ Asked k .pause e₁ e' ∧ t.engine = some e'

/-- A session that rests at zero and still remembers its options. -/
structure Rests (options : Fields) (t : Session ε) : Prop where
  clock : t.clock = .start
  isReady : t.isReady = true
  lastOptions : t.lastOptions = some options

theorem rebuild_leaves (kind : Option (EngineKind ε)) (instant : Double)
    (hoptions : Fields.merge defaultOptions options = options) (s : Session ε) :
    (rebuild kind instant options).Leaves s fun r t =>
      r = .ok () → ∃ k, kind = some k ∧ Rests options t ∧ Rebuilt k options s t := by
  refine (rebuild_outcome kind instant options s).mono ?_
  rintro _ _ houtcome rfl
  cases houtcome with
  | built hkind hbuild hinit hpause =>
    rw [hoptions] at hbuild ⊢
    exact ⟨_, hkind, ⟨rfl, rfl, rfl⟩, rfl, _, _, _, hbuild, hinit, hpause, rfl⟩

/-- A session that is paused before it is reset. -/
theorem exists_paused (kind : Option (EngineKind ε)) (instant : Double) (s : Session ε)
    (w : Surroundings) : ∃ s₁ w₁, (pause kind instant).perform s w = (.ok (), s₁, w₁)
      ∧ EngineAsked kind .pause s.engine s₁.engine ∧ s₁.clock.runsSince = none
      ∧ s₁.lastOptions = s.lastOptions ∧ s₁.builds = s.builds := by
  obtain ⟨hok, o, hasked, hpaused⟩ := pause_leaves kind instant s w
  refine ⟨((pause kind instant).perform s w).2.1, ((pause kind instant).perform s w).2.2,
    Prod.ext hok rfl, ?_⟩
  rw [hpaused]
  exact ⟨hasked, runsSince_pause _ _, rfl, rfl⟩

theorem Rebuilt.of_builds_eq {s₁ : Session ε} (h : Rebuilt k options s₁ t)
    (heq : s₁.builds = s.builds) : Rebuilt k options s t := by
  unfold Rebuilt at h ⊢
  rwa [heq] at h

/-! ## Section 2: Resting -/

theorem exists_softClear (k : EngineKind ε) (number : Nat) (e : ε) (s : Session ε)
    (w : Surroundings) : ∃ outcome e' w',
      (softClear k number e).perform s w = (.ok (outcome, e'), s, w')
        ∧ (outcome = .ok () → ∃ e₁, Asked k .clear e e₁ ∧ e' = tidied k e₁) := by
  obtain ⟨hstays, outcome, e', hanswer, htidied⟩ := softClear_leaves k number e s w
  exact ⟨outcome, e', ((softClear k number e).perform s w).2.2,
    Prod.ext hanswer (Prod.ext hstays rfl), htidied⟩

/-- An engine that can be emptied is emptied, and the session rests with it. -/
theorem Clears.exists_perform_reset {w : Surroundings} (h : Clears k instant s w)
    (hoptions : s.lastOptions = some options) :
    ∃ t w', (reset (some k) instant).perform s w = (.ok (), t, w') ∧ Rests options t ∧ Kept k s t := by
  obtain ⟨s₁, w₁, hpause, hasked, hstopped, hlast, hbuilds⟩ := exists_paused (some k) instant s w
  obtain ⟨_, _, e₁, e', hsame, hsome, hcleared⟩ := h
  rw [hpause] at hsame
  cases hsame
  -- an engine that is there after the pause was there before
  cases hengine : s.engine with
  | none =>
    rw [hengine] at hasked
    have hnone : s₁.engine = none := hasked
    rw [hsome] at hnone
    cases hnone
  | some e =>
    rw [hengine] at hasked
    obtain ⟨_, heq, hpaused⟩ := hasked
    rw [hsome] at heq
    cases heq
    obtain ⟨_, _, w₂, hrun, htidied⟩ := exists_softClear k s₁.builds e₁ s₁ w₁
    rw [hrun] at hcleared
    cases hcleared
    obtain ⟨e₂, hclear, rfl⟩ := htidied rfl
    refine ⟨{ s₁ with engine := some (tidied k e₂), clock := .start }, w₂, ?_,
      ⟨rfl, rfl, hlast.trans hoptions⟩, hbuilds, e, e₁, e₂, _, hengine, hpaused, hclear, rfl,
      shelf_tidied k e₂⟩
    have hstill : ({ s₁ with engine := some (tidied k e₂) } : Session ε).clock.runsSince = none :=
      hstopped
    simp only [reset, perform_bind, perform_get, hoptions, hpause, hsome, hrun, perform_modify]
    exact perform_rewind hstill w₂

/-- What cannot be emptied is built anew. -/
theorem exists_perform_rebuild {w : Surroundings} (h : ∀ k, kind = some k → ¬Clears k instant s w)
    (hoptions : s.lastOptions = some options) :
    ∃ s₁ w₁, (reset kind instant).perform s w = (rebuild kind instant options).perform s₁ w₁
      ∧ s₁.builds = s.builds := by
  obtain ⟨s₁, w₁, hpause, -, -, -, hbuilds⟩ := exists_paused kind instant s w
  simp only [reset, perform_bind, perform_get, hoptions, hpause]
  split
  · next k e hengine =>
    have hnot := h k rfl
    obtain ⟨outcome, e', w₂, hrun, -⟩ := exists_softClear k s₁.builds e s₁ w₁
    cases outcome with
    | ok => exact absurd ⟨s₁, w₁, e, e', hpause, hengine, by rw [hrun]⟩ hnot
    | error fault =>
      simp only [perform_bind, hrun, note, perform_emit, perform_modify]
      exact ⟨_, _, rfl, hbuilds⟩
  · exact ⟨s₁, w₁, rfl, hbuilds⟩

/-- A reset succeeds where the engine can be emptied.  Whenever it succeeds, it leaves a session at
rest, with the same engine where that could be emptied and with one new engine otherwise. -/
theorem reset_rests (hs : Reached kind s) (hoptions : s.lastOptions = some options)
    (w : Surroundings) :
    (∀ k, kind = some k → Clears k instant s w → ((reset kind instant).perform s w).1 = .ok ())
      ∧ (((reset kind instant).perform s w).1 = .ok () →
        ∃ k, kind = some k ∧ Rests options ((reset kind instant).perform s w).2.1
          ∧ (Clears k instant s w → Kept k s ((reset kind instant).perform s w).2.1)
          ∧ (¬Clears k instant s w → Rebuilt k options s ((reset kind instant).perform s w).2.1)) := by
  by_cases hclears : ∃ k, kind = some k ∧ Clears k instant s w
  · obtain ⟨k, rfl, hclears⟩ := hclears
    obtain ⟨t, w', hrun, hrests, hkept⟩ := hclears.exists_perform_reset hoptions
    rw [hrun]
    exact ⟨fun _ _ _ => rfl, fun _ => ⟨k, rfl, hrests, fun _ => hkept, fun hnot => absurd hclears hnot⟩⟩
  · refine ⟨fun k hk h => absurd ⟨k, hk, h⟩ hclears, fun hok => ?_⟩
    obtain ⟨s₁, w₁, hrun, hbuilds⟩ :=
      exists_perform_rebuild (fun k hk h => hclears ⟨k, hk, h⟩) hoptions
    rw [hrun] at hok ⊢
    obtain ⟨k, hk, hrests, hrebuilt⟩ :=
      rebuild_leaves kind instant (hs.remembers.merge_eq hoptions) s₁ w₁ hok
    exact ⟨k, hk, hrests, fun h => absurd ⟨k, hk, h⟩ hclears, fun _ => hrebuilt.of_builds_eq hbuilds⟩

/-- A preview engine can be emptied at any time. -/
theorem clears_preview {s : PreviewSession} (h : s.isReady = true) (instant : Double)
    (w : Surroundings) : Clears PreviewEngine.kind instant s w := by
  obtain ⟨s₁, w₁, hpause, hasked, -⟩ := exists_paused (some PreviewEngine.kind) instant s w
  obtain ⟨e, hengine⟩ := Option.isSome_iff_exists.mp h
  rw [hengine] at hasked
  obtain ⟨e₁, hsome, -⟩ := hasked
  exact ⟨s₁, w₁, e₁, _, hpause, hsome, rfl⟩

/-- A running session with an entry on one shelf. -/
def sampleLoaded : PreviewSession :=
  let entry := Value.dict [(.text "dmid", .text "a")]
  [Command.init (.dict [(.text "easing", .text "quad")]), .addParsed entry (.bool false) default,
    .play].foldl (fun s command => ((run (some PreviewEngine.kind) .zero command).perform s default).2.1)
    fresh

/-- The engine of the sample is emptied. -/
theorem reset_rests_sample :
    let t := ((reset (some PreviewEngine.kind) .zero).perform sampleLoaded default).2.1
    sampleLoaded.engine.map (·.entries.length) = some 1 ∧ t.engine.map (·.entries.length) = some 0
      ∧ Clears PreviewEngine.kind .zero sampleLoaded default
      ∧ Kept PreviewEngine.kind sampleLoaded t
      ∧ ∃ options, sampleLoaded.lastOptions = some options ∧ Rests options t := by
  intro t
  obtain ⟨options, hoptions⟩ : ∃ options, sampleLoaded.lastOptions = some options :=
    Option.isSome_iff_exists.mp (by decide +kernel)
  have hclears : Clears PreviewEngine.kind .zero sampleLoaded default :=
    clears_preview (by decide +kernel) _ _
  have hreached : Reached (some PreviewEngine.kind) sampleLoaded :=
    (Reached.start .start).foldl .zero default _
  obtain ⟨hsucceeds, hleaves⟩ := reset_rests hreached hoptions default
  obtain ⟨_, hk, hrests, hkept, -⟩ := hleaves (hsucceeds _ rfl hclears)
  cases hk
  exact ⟨by decide +kernel, by decide +kernel, hclears, hkept hclears, options, hoptions, hrests⟩

end Overlay.Session
