import Overlay.Color.Read
import Overlay.Proofs.Number.Digits
import Overlay.Proofs.Results

/-!
# The size of colors

A color that is read from a text can be written again, however it was given: one in hexadecimal
digits is not negative and stays hexadecimal, and the channels of the others are so small that their
number has few digits.

## Main definitions
- `Color.Moderate`: channels that come to a number which is not negative or has few digits

## Main statements
- `Color.moderate_ofCall?`: the channels of color functions are moderate
- `Color.read_text_cases`: a color from a text is not negative or has few digits
-/

namespace Overlay

open Overlay.Text Overlay.Number

attribute [local irreducible] twoTo tenTo Double.unitsInOne

/-! ## Section 1: Hexadecimal numbers -/

theorem exists_dropWhile_concat {p : Char → Bool} {c : Char} (h : p c = false) (s : List Char) :
    ∃ t, (s ++ [c]).dropWhile p = t ++ [c] := by
  induction s with
  | nil => exact ⟨[], by simp [h]⟩
  | cons d r ih =>
    cases hd : p d with
    | true => simpa [hd] using ih
    | false => exact ⟨d :: r, by simp [hd]⟩

/-- A character that is not taken off stays at the front. -/
theorem Text.exists_trim_cons {p : Char → Bool} {c : Char} (h : p c = false) (r : List Char) :
    ∃ t, trim p (c :: r) = c :: t := by
  obtain ⟨t, ht⟩ := exists_dropWhile_concat h r.reverse
  refine ⟨t.reverse, ?_⟩
  rw [trim, List.dropWhile_cons_of_neg (by simp [h]), List.reverse_cons, ht, List.reverse_concat]

/-- Without a minus sign, a hexadecimal number is not negative. -/
theorem Number.readHex?_nonneg {text : String} {i : Int} (h : readHex? text = some i)
    (hsign : ∀ r, stripAround text.toList ≠ '-' :: r) : 0 ≤ i := by
  have hbare : (splitSign (stripAround text.toList)).1 = false := by
    unfold splitSign
    split
    · next r heq => exact absurd heq (hsign r)
    · rfl
    · rfl
  unfold readHex? at h
  obtain ⟨ds, -, rfl⟩ := Option.map_eq_some_iff.mp h
  simp only [hbare, Bool.false_eq_true, if_false]
  exact Int.natCast_nonneg _

namespace Color

theorem eq_zero_of_toLower {c : Char} (h : c.toLower = '0') : c = '0' := by
  unfold Char.toLower at h
  split at h
  · next hupper =>
    have hval := congrArg (fun d : Char => d.val.toNat) h
    have hlow := UInt32.le_iff_toNat_le.mp hupper.1
    have hhigh := UInt32.le_iff_toNat_le.mp hupper.2
    simp at hval hlow hhigh
    omega
  · exact h

/-- A text behind the mark of hexadecimal numbers stands for no negative number. -/
theorem nonneg_of_mark {s : List Char} (hmark : lowered (s.take 2) = ['0', 'x']) {i : Int}
    (h : readHex? (String.ofList s) = some i) : 0 ≤ i := by
  refine readHex?_nonneg h fun r hr => ?_
  rw [String.toList_ofList] at hr
  cases s with
  | nil => cases hmark
  | cons c t =>
    obtain rfl : c = '0' := by
      cases t with
      | nil => exact absurd hmark (by simp [lowered])
      | cons d t => exact eq_zero_of_toLower (List.cons.inj hmark).1
    -- what is stripped starts with the zero of the mark, and so with no sign
    obtain ⟨t', ht⟩ := exists_trim_cons (p := fun c => isBlank c && !isSeparator c) (c := '0')
      (by decide) t
    rw [stripAround, ht] at hr
    exact absurd (List.cons.inj hr).1 (by decide)

/-! ## Section 2: Channels -/

/-- Channels that are not negative, or of which none has many digits. -/
def Moderate (c : Channels) : Prop :=
  (0 ≤ c.1 ∧ 0 ≤ c.2.1 ∧ 0 ≤ c.2.2)
    ∨ (c.1.natAbs < tenTo 309 ∧ c.2.1.natAbs < tenTo 309 ∧ c.2.2.natAbs < tenTo 309)

theorem Moderate.of_nat (r g b : Nat) : Moderate (r, g, b) :=
  Or.inl ⟨Int.natCast_nonneg r, Int.natCast_nonneg g, Int.natCast_nonneg b⟩

theorem Moderate.of_truncate (x y z : Double) : Moderate (x.truncate, y.truncate, z.truncate) :=
  Or.inr ⟨x.natAbs_truncate_lt, y.natAbs_truncate_lt, z.natAbs_truncate_lt⟩

theorem Moderate.pack {c : Channels} (h : Moderate c) : 0 ≤ pack c ∨ hasText (pack c) = true := by
  obtain ⟨r, g, b⟩ := c
  rcases h with ⟨hr, hg, hb⟩ | ⟨hr, hg, hb⟩
  · left
    unfold Color.pack
    dsimp only at *
    omega
  · -- the weights of the channels add at most five digits
    right
    have hfive : tenTo 5 = 100000 := by decide +kernel
    have hstep : tenTo 314 = tenTo 309 * tenTo 5 := tenTo_add 309 5
    have hsum : (Color.pack (r, g, b)).natAbs
        ≤ r.natAbs * 65536 + g.natAbs * 256 + b.natAbs := by
      unfold Color.pack
      dsimp only
      omega
    refine hasText_of_lt (k := 314) (by decide) ?_
    rw [hstep, hfive]
    dsimp only at hr hg hb
    omega

theorem moderate_ofHexDigits? {ds : List Char} {c : Channels} (h : ofHexDigits? ds = some c) :
    Moderate c := by
  unfold ofHexDigits? at h
  split at h
  · split at h
    all_goals cases h
    all_goals exact .of_nat _ _ _
  · cases h

theorem moderate_ofRed? {ss : List (List Char)} {c : Channels} (h : ofRed? ss = some c) :
    Moderate c := by
  unfold ofRed? at h
  split at h
  · -- whole channels first, then percentages
    rw [Option.orElse_eq_orElse, Option.orElse_eq_or] at h
    rcases Option.or_eq_some_iff.mp h with h | ⟨-, h⟩
    · simp only [Option.bind_eq_bind, Option.bind_eq_some_iff, Option.pure_def,
        Option.some.injEq] at h
      obtain ⟨r, -, g, -, b, -, rfl⟩ := h
      exact .of_nat r g b
    · simp only [Option.bind_eq_bind, Option.bind_eq_some_iff, Option.pure_def,
        Option.some.injEq] at h
      obtain ⟨r, -, g, -, b, -, rfl⟩ := h
      exact .of_truncate _ _ _
  · cases h

theorem moderate_ofRedOpacity? {ss : List (List Char)} {c : Channels}
    (h : ofRedOpacity? ss = some c) : Moderate c := by
  unfold ofRedOpacity? at h
  split at h
  · simp only [Option.bind_eq_bind, Option.bind_eq_some_iff, Option.pure_def,
      Option.some.injEq] at h
    obtain ⟨-, -, r, -, g, -, b, -, rfl⟩ := h
    exact .of_nat r g b
  · cases h

/-- The channels of color functions are moderate. -/
theorem moderate_ofCall? {s : List Char} {c : Channels} (h : ofCall? s = some c) : Moderate c := by
  unfold ofCall? at h
  simp only [Option.orElse_eq_orElse, Option.orElse_eq_or, Option.or_eq_some_iff, Option.bind_eq_bind,
    Option.bind_eq_some_iff, Option.pure_def, Option.some.injEq] at h
  -- the functions are tried one after the other: with and without an opacity, by hue and lightness, by
  -- hue and brightness
  rcases h with ⟨ss, -, h⟩ | ⟨-, ⟨ss, -, h⟩ | ⟨-, ⟨parts, -, rfl⟩ | ⟨-, parts, -, rfl⟩⟩⟩
  · exact moderate_ofRed? h
  · exact moderate_ofRedOpacity? h
  · exact .of_truncate _ _ _
  · exact .of_truncate _ _ _

/-! ## Section 3: Colors from texts -/

theorem ofText?_cases {s : List Char} {i : Int} (h : ofText? s = some i) :
    0 ≤ i ∨ hasText i = true := by
  unfold ofText? at h
  split at h
  · cases h
  · dsimp only at h
    split at h
    · cases h
      exact Or.inl (Int.natCast_nonneg _)
    · obtain ⟨c, hc, rfl⟩ := Option.map_eq_some_iff.mp h
      split at hc
      · exact (moderate_ofHexDigits? hc).pack
      · exact (moderate_ofCall? hc).pack

/-- A color from a text is not negative or has few digits. -/
theorem read_text_cases {s : String} {w : Value} (h : read (.text s) = .ok w) :
    ∃ i, w = .int i ∧ (0 ≤ i ∨ hasText i = true) := by
  rw [read] at h
  split at h
  · next hmark =>
    obtain ⟨i, hi, rfl⟩ := Option.map_eq_some_iff.mp (orFault_eq_ok.mp h)
    exact ⟨i, rfl, Or.inl (nonneg_of_mark hmark hi)⟩
  · obtain ⟨i, hi, rfl⟩ := Option.map_eq_some_iff.mp (orFault_eq_ok.mp h)
    exact ⟨i, rfl, ofText?_cases hi⟩

end Color

end Overlay
