import Overlay.Project.Basic
import Overlay.Proofs.Resource.Store
import Overlay.Proofs.Timeline.Editing

/-!
# Editing projects

A project is edited by operations on its timeline and its resources, one after the other.  Each of
them may stop with a fault; the project is then what the operation has left of it.

## Main definitions
- `Project.Edit`, `Project.Edit.act`: the operations
- `Project.Edit.Admissible`: operations that are given texts as ids, times and plain values
- `Project.Reached`: the projects that such operations lead to
- `Project.afterEdits`: what a list of operations leads to
- `Project.Sound`: a sound timeline with a sound store

## Main statements
- `Project.act_keeps`: every operation keeps projects sound
- `Project.Reached.sound`: every project that is reached is sound
-/

namespace Overlay.Project

open Overlay.Number Overlay.Literal

attribute [local irreducible] twoTo tenTo Double.unitsInOne

variable {α : Type}

/-! ## Section 1: Operations -/

/-- An operation on a project. -/
inductive Edit where
  /-- An operation on the timeline. -/
  | timeline (command : Timeline.Command)
  /-- A new segment for a clip, at a place or behind the other segments. -/
  | animate (clipId : Value) (place : Option Value) (kind duration props delay id : Value)
  /-- A resource as it is given. -/
  | addResource (resource : Value)
  /-- A new resource with some attributes. -/
  | createResource (kind : Value) (attributes : Fields)
  /-- A change of a resource. -/
  | updateResource (id updates : Value)
  /-- A resource taken out of the store. -/
  | removeResource (id : Value)
  /-- A resource taken out together with its clips. -/
  | deleteResource (id : Value)

namespace Edit

/-- Puts a segment among those of a clip. -/
def putAnimation (clipId : Value) (place : Option Value) (segment : Value) : Act Timeline Unit :=
  match place with
  | some index => Timeline.insertAnimation clipId index segment
  | none => Timeline.addAnimation clipId segment

/-- Carries an operation out. -/
def act : Edit → Act Project Unit
  | .timeline command => do let _ ← onTimeline (Timeline.run command)
  | .animate clipId place kind duration props delay id => onTimeline do
    let segment ← Segment.create kind duration props delay id
    putAnimation clipId place segment
  | .addResource resource => do let _ ← onStore (Store.add resource)
  | .createResource kind attributes => do let _ ← onStore (Store.create kind attributes)
  | .updateResource id updates => do let _ ← onStore (Store.update id updates)
  | .removeResource id => do let _ ← onStore (Store.remove id)
  | .deleteResource id => do let _ ← Project.deleteResource id

/-- An operation that is given texts as ids of new clips, times as times, identifiers as keys and
plain values. -/
def Admissible : Edit → Prop
  | .timeline command => command.Admissible
  | .animate _ _ _ duration props delay _ =>
    isTime duration = true ∧ isTime delay = true ∧ ∀ ps, props = .dict ps → PlainFields ps
  | .addResource resource => ∀ fs, resource = .dict fs → Resource.SoundFields fs
  | .createResource _ attributes => Resource.SoundFields attributes
  | .updateResource _ updates => ∃ fs, updates = .dict fs ∧ Store.Update fs
  | .removeResource _ => True
  | .deleteResource _ => True

end Edit

/-- The projects that any number of admissible operations lead to, whatever ids are drawn.  A
project starts without resources and tracks. -/
inductive Reached : Project → Prop where
  | start (duration : Value) (playback : Fields) (outputFile : Value) :
      Reached ⟨.empty, .ofDuration duration, playback, outputFile⟩
  | step {p : Project} (h : Reached p) {e : Edit} (he : e.Admissible) (w : Surroundings) :
      Reached (e.act.perform p w).2.1

/-- The project after operations, each of which goes on with what the one before it has left. -/
def afterEdits (p : Project) (w : Surroundings) : List Edit → Project
  | [] => p
  | e :: r =>
    let left := (e.act.perform p w).2
    left.1.afterEdits left.2 r

/-- Operations one after the other lead on. -/
theorem Reached.afterEdits {p : Project} (h : Reached p) {edits : List Edit}
    (hadmissible : ∀ e ∈ edits, e.Admissible) (w : Surroundings) :
    Reached (p.afterEdits w edits) := by
  induction edits generalizing p w with
  | nil => exact h
  | cons e r ih =>
    obtain ⟨he, hr⟩ := List.forall_mem_cons.mp hadmissible
    exact ih (h.step he w) hr _

/-! ## Section 2: Sound projects -/

/-- A sound timeline with a sound store. -/
structure Sound (p : Project) : Prop where
  timeline : p.timeline.Sound
  store : p.store.Sound

theorem onTimeline_keeps {act : Act Timeline α} (h : Act.Keeps Timeline.Sound act) :
    Act.Keeps Sound (onTimeline act) :=
  fun p hp => .of_on ((h p.timeline hp.timeline).mono fun _ _ ht => ⟨ht, hp.store⟩)

theorem onStore_keeps {act : Act Store α} (h : Act.Keeps Store.Sound act) :
    Act.Keeps Sound (onStore act) :=
  fun p hp => .of_on ((h p.store hp.store).mono fun _ _ hs => ⟨hp.timeline, hs⟩)

theorem deleteResource_keeps (id : Value) : Act.Keeps Sound (deleteResource id) := by
  unfold deleteResource
  refine (onStore_keeps (Store.remove_keeps id)).bind fun _ => ?_
  refine (onTimeline_keeps (Timeline.removeClipsOf_keeps id)).bind fun _ => ?_
  exact Act.Keeps.bind (fun _ h _ => h) fun _ => .of_pure _

theorem putAnimation_keeps (clipId : Value) (place : Option Value) {segment : Value}
    (h : Segment.Sound segment) : Act.Keeps Timeline.Sound (Edit.putAnimation clipId place segment) := by
  cases place with
  | some index => exact Timeline.insertAnimation_keeps clipId index h
  | none => exact Timeline.addAnimation_keeps clipId h

/-- Every operation keeps projects sound, also where it stops with a fault. -/
theorem act_keeps {e : Edit} (h : e.Admissible) : Act.Keeps Sound e.act := by
  cases e with
  | timeline command => exact (onTimeline_keeps (Timeline.run_keeps h)).bind fun _ => .of_pure _
  | animate clipId place kind duration props delay id =>
    obtain ⟨hduration, hdelay, hprops⟩ := h
    refine onTimeline_keeps fun tl htl => ?_
    refine .bind (Segment.create_leaves hduration hdelay hprops tl) ?_ ?_
    · rintro segment tl ⟨rfl, hsegment⟩
      exact putAnimation_keeps clipId place (hsegment segment rfl) tl htl
    · rintro fault tl ⟨rfl, -⟩
      exact htl
  | addResource resource => exact (onStore_keeps (Store.add_keeps h)).bind fun _ => .of_pure _
  | createResource kind attributes =>
    exact (onStore_keeps (Store.create_keeps kind h)).bind fun _ => .of_pure _
  | updateResource id updates =>
    obtain ⟨fs, rfl, hu⟩ := h
    exact (onStore_keeps (Store.update_keeps id hu)).bind fun _ => .of_pure _
  | removeResource id => exact (onStore_keeps (Store.remove_keeps id)).bind fun _ => .of_pure _
  | deleteResource id => exact (deleteResource_keeps id).bind fun _ => .of_pure _

/-- Every project that is reached is sound. -/
theorem Reached.sound {p : Project} (h : Reached p) : p.Sound := by
  induction h with
  | start duration playback outputFile => exact ⟨.ofDuration duration, .empty⟩
  | step _ he w ih => exact act_keeps he _ ih w

end Overlay.Project
