import Overlay.Proofs.Script.BlankLines

/-!
# Scripts of whole timelines

The script of a timeline is made of the blocks of its shown clips, and blank lines are taken out of
it.  That pass cuts the script at every boundary that lines can have, while texts only have their
line feeds and carriage returns escaped.  So it leaves the blocks as they are exactly where none of
them holds another boundary.

## Main definitions
- `Emission.shownClips`: the clips of visible tracks with the resources that are found for them

## Main statements
- `Emission.ofTracks_eq_flatten_iff`: when the script is made of the unchanged blocks
-/

namespace Overlay

open Overlay.Text Overlay.Number Overlay.Scanner Overlay.Literal

namespace Emission

/-! ## Section 1: Blocks -/

theorem endLines_flatten (parts : List (List (List Char))) :
    endLines parts.flatten = (parts.map endLines).flatten := by
  induction parts with
  | nil => rfl
  | cons ls r ih =>
    rw [List.flatten_cons, List.map_cons, List.flatten_cons, ← ih]
    simp [endLines]

/-! ## Section 2: Timelines -/

/-- The clips of one track with the resources that are found for them. -/
def shownOfTrack (source : Source) : List Value → Result (List (Value × Value))
  | [] => .ok []
  | c :: r => do
    let resource ← source.find (← c.look "resource_id" .none)
    let rest ← shownOfTrack source r
    return if resource.isNone then rest else (c, resource) :: rest

/-- The clips of all visible tracks with the resources that are found for them, in the order of the
tracks and of the clips in them. -/
def shownClips (source : Source) : List Value → Result (List (Value × Value))
  | [] => .ok []
  | t :: r => do
    let visible ← t.look "visible" (.bool true)
    if !visible.holds then shownClips source r
    else
      let own ← shownOfTrack source (← (← t.look "clips" (.list [])).items)
      return own ++ (← shownClips source r)

/-- The blocks of shown clips. -/
def AreBlocks (shown : List (Value × Value)) (blocks : List (List Char)) : Prop :=
  List.Forall₂ (fun e b => Emission.clip e.1 e.2 = .ok b) shown blocks

theorem AreBlocks.append_left {own rest : List (Value × Value)} {blocks : List (List Char)}
    (h : AreBlocks (own ++ rest) blocks) :
    ∃ bs cs, blocks = bs ++ cs ∧ AreBlocks own bs ∧ AreBlocks rest cs := by
  induction own generalizing blocks with
  | nil => exact ⟨[], blocks, rfl, List.Forall₂.nil, h⟩
  | cons e r ih =>
    obtain ⟨b, more, hb, hmore, rfl⟩ := List.forall₂_cons_left_iff.mp h
    obtain ⟨bs, cs, rfl, hbs, hcs⟩ := ih hmore
    exact ⟨b :: bs, cs, rfl, List.Forall₂.cons hb hbs, hcs⟩

theorem clipBlocks_eq {source : Source} {clips : List Value} {shown : List (Value × Value)}
    (hshown : shownOfTrack source clips = .ok shown) {blocks : List (List Char)}
    (hblocks : AreBlocks shown blocks) : clipBlocks source clips = .ok blocks := by
  induction clips generalizing shown blocks with
  | nil =>
    rw [shownOfTrack] at hshown
    obtain rfl := Except.ok.inj hshown
    cases hblocks
    rfl
  | cons c r ih =>
    rw [shownOfTrack] at hshown
    obtain ⟨id, hid, hshown⟩ := bind_eq_ok.mp hshown
    obtain ⟨resource, hresource, hshown⟩ := bind_eq_ok.mp hshown
    obtain ⟨rest, hrest, hshown⟩ := bind_eq_ok.mp hshown
    rw [clipBlocks, hid, ok_bind, hresource, ok_bind]
    cases hnone : resource.isNone with
    | true =>
      rw [hnone, if_pos rfl] at hshown
      obtain rfl := Except.ok.inj hshown
      exact ih hrest hblocks
    | false =>
      rw [hnone, if_neg (by decide)] at hshown
      obtain rfl := Except.ok.inj hshown
      obtain ⟨b, bs, hb, hbs, rfl⟩ := List.forall₂_cons_left_iff.mp hblocks
      rw [if_neg (by decide), hb, ok_bind, ih hrest hbs]
      rfl

theorem trackBlocks_eq {source : Source} {tracks : List Value} {shown : List (Value × Value)}
    (hshown : shownClips source tracks = .ok shown) {blocks : List (List Char)}
    (hblocks : AreBlocks shown blocks) : trackBlocks source tracks = .ok blocks := by
  induction tracks generalizing shown blocks with
  | nil =>
    rw [shownClips] at hshown
    obtain rfl := Except.ok.inj hshown
    cases hblocks
    rfl
  | cons t r ih =>
    rw [shownClips] at hshown
    obtain ⟨visible, hvisible, hshown⟩ := bind_eq_ok.mp hshown
    rw [trackBlocks, hvisible, ok_bind]
    cases hholds : visible.holds with
    | false =>
      rw [hholds] at hshown
      exact ih hshown hblocks
    | true =>
      rw [hholds] at hshown
      obtain ⟨v, hv, hshown⟩ := bind_eq_ok.mp hshown
      obtain ⟨clips, hclips, hshown⟩ := bind_eq_ok.mp hshown
      obtain ⟨own, hown, hshown⟩ := bind_eq_ok.mp hshown
      obtain ⟨rest, hrest, hshown⟩ := bind_eq_ok.mp hshown
      obtain rfl := Except.ok.inj hshown
      obtain ⟨bs, cs, rfl, hbs, hcs⟩ := hblocks.append_left
      rw [if_neg (by decide), hv, ok_bind, hclips, ok_bind, clipBlocks_eq hown hbs, ok_bind,
        ih hrest hcs]
      rfl

/-- A block is made of tidy lines as far as it holds no boundary except for line feeds. -/
theorem exists_tidy_lines {clip resource : Value} {b : List Char}
    (hb : Emission.clip clip resource = .ok b) (hnamed : Carries NamedFields clip resource)
    (hbreaks : ∀ c ∈ b, isLineBreak c = true → c = '\n') :
    ∃ ls, b = endLines ls ∧ Tidy isLineBreak ls := by
  obtain ⟨ls, hls, rfl⟩ := map_eq_ok.mp hb
  have hcarries : Carries (fun fs => NamedFields fs ∧ EscapableFields isLineFeed fs) clip resource :=
    hnamed.imp fun fs h => ⟨h, fun t _ => escapable_isLineFeed t⟩
  have htidy := clipLines_tidy marksBreaks_isLineFeed hcarries ls hls
  refine ⟨ls, rfl, fun l hl => ⟨fun c hc => ?_, (htidy l hl).2⟩⟩
  cases hbreak : isLineBreak c with
  | false => rfl
  | true =>
    have hmem : c ∈ endLines ls :=
      List.mem_flatMap.mpr ⟨l, hl, List.mem_append_left _ hc⟩
    obtain rfl := hbreaks c hmem hbreak
    exact absurd ((htidy l hl).1 _ hc) (by decide)

theorem exists_tidy_parts {shown : List (Value × Value)} {blocks : List (List Char)}
    (hblocks : AreBlocks shown blocks) (hnamed : ∀ e ∈ shown, Carries NamedFields e.1 e.2)
    (hbreaks : ∀ b ∈ blocks, ∀ c ∈ b, isLineBreak c = true → c = '\n') :
    ∃ parts : List (List (List Char)), blocks = parts.map endLines
      ∧ ∀ ls ∈ parts, Tidy isLineBreak ls := by
  induction hblocks with
  | nil => exact ⟨[], rfl, by simp⟩
  | @cons e b shown blocks hb _ ih =>
    rw [List.forall_mem_cons] at hnamed hbreaks
    obtain ⟨parts, rfl, htidy⟩ := ih hnamed.2 hbreaks.2
    obtain ⟨ls, rfl, hls⟩ := exists_tidy_lines hb hnamed.1 hbreaks.1
    exact ⟨ls :: parts, rfl, List.forall_mem_cons.mpr ⟨hls, htidy⟩⟩

/-- The script of a timeline is made of the unchanged blocks of its shown clips exactly where no
block holds a boundary between lines except for line feeds. -/
theorem ofTracks_eq_flatten_iff {source : Source} {tracks : List Value}
    {shown : List (Value × Value)} (hshown : shownClips source tracks = .ok shown)
    {blocks : List (List Char)} (hblocks : AreBlocks shown blocks)
    (hnamed : ∀ e ∈ shown, Carries NamedFields e.1 e.2) :
    ofTracks tracks source = .ok blocks.flatten
      ↔ ∀ b ∈ blocks, ∀ c ∈ b, isLineBreak c = true → c = '\n' := by
  have htracks : ofTracks tracks source = .ok (stripBlankLines (joinLines blocks)) := by
    rw [ofTracks, trackBlocks_eq hshown hblocks]
    rfl
  rw [htracks]
  constructor
  · intro heq b hb c hc hbreak
    refine stripBlankLines_avoids (joinLines blocks) ?_ hbreak
    rw [Except.ok.inj heq]
    exact List.mem_flatten.mpr ⟨b, hb, hc⟩
  · intro hbreaks
    obtain ⟨parts, rfl, htidy⟩ := exists_tidy_parts hblocks hnamed hbreaks
    rw [stripBlankLines_joinLines htidy]

/-- A text with a line separator in it. -/
def separatedResource : Value :=
  .dict [(.text "id", .text "r"), (.text "type", .text "text"), (.text "content", .text "a\u2028b")]

/-- A clip that shows it. -/
def separatedClip : Value :=
  .dict [(.text "id", .text "c"), (.text "resource_id", .text "r"), (.text "start_time", .int 0),
    (.text "duration", .int 1000)]

/-- Its block. -/
def separatedBlock : List Char :=
  "def text obj_c \x7b\n    content = \"a\u2028b\"\n    duration = 1s\n\x7d\n".toList

theorem clip_separated : Emission.clip separatedClip separatedResource = .ok separatedBlock := by
  refine toOption_eq_some.mp ?_
  decide +kernel

/-- The line separator does not survive. -/
theorem ofTracks_separated_ne :
    ofTracks [.dict [(.text "clips", .list [separatedClip])]]
        (.table [(.text "r", separatedResource)])
      ≠ .ok [separatedBlock].flatten := by
  have hnamed : ∀ e ∈ [(separatedClip, separatedResource)], Carries NamedFields e.1 e.2 := by
    intro e he
    rw [List.mem_singleton.mp he]
    refine ⟨fun fs hfs => ?_, fun v items segment fs hv hitems hsegment _ => ?_⟩
    · rw [← Value.dict.inj hfs]
      decide
    · rw [← Except.ok.inj hv] at hitems
      cases hitems
  intro heq
  have hblocks : AreBlocks [(separatedClip, separatedResource)] [separatedBlock] :=
    List.Forall₂.cons clip_separated List.Forall₂.nil
  have hbreaks := (ofTracks_eq_flatten_iff rfl hblocks hnamed).mp heq
  exact absurd (hbreaks separatedBlock List.mem_cons_self '\u2028' (by decide) (by decide))
    (by decide)

end Emission

end Overlay
