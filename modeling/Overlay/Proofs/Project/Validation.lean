import Overlay.Proofs.Project.Editing
import Overlay.Proofs.Project.Shots

/-!
# Edited projects can be read back

The script of a sound project is made of the unchanged blocks of its shown clips, whose names are
pairwise different, so it is read back as a whole.

## Main statements
- `Project.Sound.validate_eq`: the script of a sound project
- `Project.Reached.exists_script`: the objects and statements of every project that is reached
-/

namespace Overlay.Project

open Overlay.Text Overlay.Literal

variable {p : Project}

/-! ## Section 1: Names -/

theorem shown_sublist (store : Store) (clips : List Clip) :
    ((clips.filterMap store.shown).map Prod.fst).Sublist clips := by
  induction clips with
  | nil => exact List.Sublist.slnil
  | cons c r ih =>
    rw [List.filterMap_cons, Store.shown]
    cases store.find? c.resourceId with
    | none => exact ih.cons c
    | some fs => exact ih.cons_cons c

/-- The shown clips are clips of the timeline. -/
theorem shown_clips_sublist (p : Project) : (p.shown.map Prod.fst).Sublist p.timeline.clips :=
  (shown_sublist p.store _).trans (List.filter_sublist.flatMap Track.clips)

/-- No two shown clips are called the same. -/
theorem Sound.nodup_labels (h : p.Sound) : (p.shown.map fun e => e.1.label).Nodup := by
  have hsub := (shown_clips_sublist p).map Clip.label
  rw [List.map_map] at hsub
  exact h.timeline.labels.sublist hsub

theorem Sound.of_mem_shown (h : p.Sound) {e : Clip × Fields} (he : e ∈ p.shown) :
    e.1.Sound ∧ Resource.Sound e.2 := by
  refine ⟨h.timeline.clips e.1 ?_, ?_⟩
  · exact (shown_clips_sublist p).subset (List.mem_map_of_mem he)
  · obtain ⟨c, -, hc⟩ := List.mem_filterMap.mp he
    obtain ⟨fs, hfind, rfl⟩ := Option.map_eq_some_iff.mp hc
    exact h.store fs (List.mem_of_find?_eq_some hfind)

/-! ## Section 2: Scripts -/

/-- A shot is called as a clip and has the kind of its resource. -/
def Depicts (s : Shot) (e : Clip × Fields) : Prop :=
  s.name = e.1.label ∧ Fields.get e.2 "type" = .text s.kind.word

/-- The blocks of the shown clips are read as shots. -/
theorem Sound.exists_blocks (h : p.Sound) :
    ∃ shots parts, List.Forall₂ Depicts shots p.shown ∧ List.Forall₂ IsBlock shots parts
      ∧ (∀ ls ∈ parts, Emission.Tidy isLineBreak ls)
      ∧ Emission.AreBlocks (p.shown.map asValues) (parts.map Emission.endLines) := by
  obtain ⟨blocks, hshown, hblocks⟩ := exists_forall₂ fun e he =>
    (h.of_mem_shown he).1.exists_block (h.of_mem_shown he).2
  refine ⟨blocks.map Prod.fst, blocks.map Prod.snd, ?_, ?_, ?_, ?_⟩
  · rw [List.forall₂_map_left_iff]
    exact hshown.imp fun b e hb => ⟨hb.1, hb.2.1⟩
  · rw [List.forall₂_map_left_iff, List.forall₂_map_right_iff, List.forall₂_same]
    exact fun b hb => (hblocks b hb).1
  · intro ls hls
    obtain ⟨b, hb, rfl⟩ := List.mem_map.mp hls
    exact (hblocks b hb).2
  · unfold Emission.AreBlocks
    rw [List.map_map, List.forall₂_map_left_iff, List.forall₂_map_right_iff]
    exact hshown.flip.imp fun e b hb => hb.2.2

/-- The script of a sound project is read back as that of the shots of its shown clips. -/
theorem Sound.validate_eq (h : p.Sound) :
    ∃ shots, List.Forall₂ Depicts shots p.shown ∧ p.validate = .ok (.ofShots shots) := by
  obtain ⟨shots, parts, hdepicts, hblocks, htidy, hwritten⟩ := h.exists_blocks
  have hcompile : p.compile = .ok (Emission.endLines parts.flatten) := by
    rw [compile, Emission.ofTracks, Emission.trackBlocks_eq p.shownClips_eq hwritten, ok_bind,
      Emission.stripBlankLines_joinLines htidy, Emission.endLines_flatten, pure_eq_ok]
  have hnames : shots.map Shot.name = p.shown.map fun e => e.1.label := by
    rw [← List.forall₂_eq_eq_eq, List.forall₂_map_left_iff, List.forall₂_map_right_iff]
    exact hdepicts.imp fun _ _ hs => hs.1
  have hlines : ∀ ls ∈ parts, ∀ l ∈ ls, Avoids isLineFeed l :=
    fun ls hls l hl => Avoids.of_marksBreaks marksBreaks_isLineFeed (htidy ls hls l hl).1
  refine ⟨shots, hdepicts, ?_⟩
  rw [validate, hcompile, ok_bind]
  exact parse_blocks hblocks (hnames ▸ h.nodup_labels) hlines

/-- Every project that is reached by editing can be read back: its objects are those of the shown
clips, in their order, and all statements speak of these. -/
theorem Reached.exists_script (h : Reached p) :
    ∃ script, p.validate = .ok script
      ∧ script.defs.map (fun d => (d.name, Value.text d.kind.word))
        = p.shown.map (fun e => (identifier e.1.id, Fields.get e.2 "type"))
      ∧ ∀ s ∈ script.sets, s.name ∈ script.defs.map Definition.name := by
  obtain ⟨shots, hdepicts, hvalidate⟩ := h.sound.validate_eq
  refine ⟨.ofShots shots, hvalidate, ?_, ?_⟩
  · rw [Script.ofShots, List.map_map, ← List.forall₂_eq_eq_eq, List.forall₂_map_left_iff,
      List.forall₂_map_right_iff]
    exact hdepicts.imp fun s e hs => Prod.ext hs.1 hs.2.symm
  · intro statement hmem
    obtain ⟨s, hs, hname⟩ := Shot.name_of_mem_allStatements hmem
    rw [Script.ofShots, List.map_map, hname]
    exact List.mem_map.mpr ⟨s, hs, rfl⟩

/-- A text, a track, a clip that shows the text, and a segment of the clip. -/
def sampleEdits : List Edit :=
  [.createResource (.text "text") [(.text "id", .text "r"), (.text "content", .text "hi")],
    .timeline (.addTrack .none (.text "t") (.bool true) (.bool false)),
    .timeline (.addClip (.dict [(.text "id", .text "r"), (.text "type", .text "text")]) (.text "t")
      (.int 2000) (.text "c-1") (.int 4000)),
    .animate (.text "c-1") none (.text "set") (.int 1000) (.dict [(.text "opacity", .int 0)]) .none
      .none]

/-- The project that they lead to. -/
def sample : Project :=
  empty.afterEdits default sampleEdits

theorem sampleEdits_admissible : ∀ e ∈ sampleEdits, e.Admissible := by
  unfold sampleEdits
  simp only [List.forall_mem_cons]
  refine ⟨.of_plain (by decide), trivial, ?_, ?_, by simp⟩
  · exact ⟨Or.inr ⟨_, rfl⟩, by decide +kernel, by decide +kernel, fun h => nomatch h⟩
  · refine ⟨by decide +kernel, by decide +kernel, fun ps hps => ?_⟩
    rw [← Value.dict.inj hps]
    decide

theorem sample_reached : Reached sample :=
  Reached.afterEdits (.start _ _ _) sampleEdits_admissible default

/-- The sample shows its clip and can be read back. -/
theorem exists_script_sample :
    (sample.shown.map fun e => identifier e.1.id) = ["obj_c1"]
      ∧ ∃ script, sample.validate = .ok script
        ∧ script.defs.map (fun d => (d.name, Value.text d.kind.word))
          = sample.shown.map (fun e => (identifier e.1.id, Fields.get e.2 "type"))
        ∧ ∀ s ∈ script.sets, s.name ∈ script.defs.map Definition.name :=
  ⟨by decide +kernel, Reached.exists_script sample_reached⟩

end Overlay.Project
