import Overlay.Proofs.Script.RoundTrip

/-!
# Blocks one after the other

Any number of blocks is read, one after the other, as long as no two of their objects have the same
name.  What comes out are the objects of all shots and their statements, in the order of the
blocks.

## Main definitions
- `Shot.allStatements`, `Script.ofShots`: the script of several shots
- `Script.Progress.afterAll`: what has been read after several blocks

## Main statements
- `readLines_blocks`: blocks are read wherever their names are new
- `parse_blocks`: a text of blocks is read as the script of their shots
- `Shot.name_of_mem_allStatements`: statements speak of the objects of the shots
-/

namespace Overlay

open Overlay.Text Overlay.Script

/-! ## Section 1: Scripts of several shots -/

namespace Shot

/-- What the object of a shot is called. -/
def name (s : Shot) : String :=
  identifier s.id

/-- The statements of shots whose blocks stand one after the other from a line on. -/
def allStatements (line : Nat) : List Shot → List Statement
  | [] => []
  | s :: r => s.statements line ++ allStatements (line + s.lineCount) r

theorem name_of_mem_numbered {name : String} {line : Nat} {bs : List Beat} {statement : Statement}
    (h : statement ∈ numbered name line bs) : statement.name = name := by
  induction bs generalizing line with
  | nil => cases h
  | cons b r ih =>
    rcases List.mem_cons.mp h with rfl | h
    · rfl
    · exact ih h

/-- Statements speak of the objects of the shots. -/
theorem name_of_mem_allStatements {line : Nat} {shots : List Shot} {statement : Statement}
    (h : statement ∈ allStatements line shots) : ∃ s ∈ shots, statement.name = s.name := by
  induction shots generalizing line with
  | nil => cases h
  | cons s r ih =>
    rcases List.mem_append.mp h with h | h
    · exact ⟨s, List.mem_cons_self, name_of_mem_numbered h⟩
    · obtain ⟨t, ht, hname⟩ := ih h
      exact ⟨t, List.mem_cons_of_mem s ht, hname⟩

end Shot

/-- The script of shots whose blocks stand one after the other. -/
def Script.ofShots (shots : List Shot) : Script :=
  ⟨shots.map Shot.definition, Shot.allStatements 1 shots⟩

/-! ## Section 2: Reading -/

namespace Script.Progress

/-- What has been read after the blocks of several shots. -/
def afterAll (p : Progress) (line : Nat) : List Shot → Progress
  | [] => p
  | s :: r => (p.after s line).afterAll (line + s.lineCount) r

theorem current_afterAll (p : Progress) (line : Nat) (shots : List Shot) :
    (p.afterAll line shots).current = p.current := by
  induction shots generalizing p line with
  | nil => rfl
  | cons s r ih => rw [afterAll, ih, after]

theorem defs_afterAll (p : Progress) (line : Nat) (shots : List Shot) :
    (p.afterAll line shots).defs = p.defs ++ shots.map Shot.definition := by
  induction shots generalizing p line with
  | nil => exact (List.append_nil _).symm
  | cons s r ih => rw [afterAll, ih, after, List.map_cons, List.append_assoc, List.singleton_append]

theorem sets_afterAll (p : Progress) (line : Nat) (shots : List Shot) :
    (p.afterAll line shots).sets = p.sets ++ Shot.allStatements line shots := by
  induction shots generalizing p line with
  | nil => exact (List.append_nil _).symm
  | cons s r ih => rw [afterAll, ih, after, Shot.allStatements, List.append_assoc]

end Script.Progress

/-- Blocks are read one after the other, as long as each name is new. -/
theorem readLines_blocks {shots : List Shot} {parts : List (List (List Char))}
    (h : List.Forall₂ IsBlock shots parts) (hnodup : (shots.map Shot.name).Nodup) {p : Progress}
    (hp : p.current = none) (hnew : ∀ s ∈ shots, s.name ∉ p.declared) (line : Nat) :
    readLines p line parts.flatten = .ok (p.afterAll line shots) := by
  induction h generalizing p line with
  | nil => rfl
  | @cons s ls shots parts hblock _ ih =>
    rw [List.map_cons, List.nodup_cons] at hnodup
    rw [List.forall_mem_cons] at hnew
    -- the names of the other blocks differ from the one that has been declared now
    have hrest : ∀ t ∈ shots, t.name ∉ (p.after s line).declared := by
      intro t ht hmem
      rcases List.mem_cons.mp hmem with heq | hmem
      · exact hnodup.1 (List.mem_map.mpr ⟨t, ht, heq⟩)
      · exact hnew.2 t ht hmem
    have hfirst : p.declared.contains (identifier s.id) = false := by
      simpa [Shot.name] using hnew.1
    rw [List.flatten_cons, readLines_append, hblock.readLines_eq hp hfirst, ok_bind,
      hblock.length_eq]
    exact ih hnodup.2 (p := p.after s line) hp hrest (line + s.lineCount)

/-- A text of blocks is read as the script of their shots. -/
theorem parse_blocks {shots : List Shot} {parts : List (List (List Char))}
    (h : List.Forall₂ IsBlock shots parts) (hnodup : (shots.map Shot.name).Nodup)
    (hlines : ∀ ls ∈ parts, ∀ l ∈ ls, Avoids isLineFeed l) :
    Script.parse (Emission.endLines parts.flatten) = .ok (.ofShots shots) := by
  have havoid : ∀ l ∈ parts.flatten, Avoids isLineFeed l := by
    intro l hl
    obtain ⟨ls, hls, hmem⟩ := List.mem_flatten.mp hl
    exact hlines ls hls l hmem
  have hread := readLines_blocks h hnodup (p := .start) rfl (fun _ _ => List.not_mem_nil) 1
  have hcurrent : (Progress.start.afterAll 1 shots).current = none :=
    Progress.current_afterAll .start 1 shots
  rw [Script.parse, linesOf_endLines havoid, hread, ok_bind, hcurrent, Progress.defs_afterAll,
    Progress.sets_afterAll]
  rfl

end Overlay
