import Overlay.Proofs.Script.LineBreaks

/-!
# The texts of values

A value has a text, and the text stands on one line, whatever the value holds.  There are two exceptions.
An infinite number above zero has no text as a color, as it has no hexadecimal digits, while it is
written out under other keys.  And an integer with too many decimal digits has a text as a color only.

## Main definitions
- `Literal.hasInfiniteColor`: values that hold an infinite number as a color
- `Literal.hasLongInteger`: values that hold an integer whose digits are not written
- `endsLine`: the characters that end a line

## Main statements
- `Literal.value_cases`: which values have a text
- `Literal.value_ok_iff`: the same, and the text stands on one line
-/

namespace Overlay

open Overlay.Text Overlay.Number

namespace Literal

/-! ## Section 1: Infinite colors -/

mutual

/-- Whether a value under a key holds an infinite number above zero as a color, at any depth of the
mappings in it. -/
def hasInfiniteColor (key : Value) : Value → Bool
  | .float (.infinite false) => Resource.isColorName key.shown
  | .dict entries => haveInfiniteColor entries
  | _ => false

/-- Whether one of the fields of a mapping does. -/
def haveInfiniteColor : List (Value × Value) → Bool
  | [] => false
  | (k, v) :: r => hasInfiniteColor k v || haveInfiniteColor r

end

/-! ## Section 2: Long integers -/

mutual

/-- Whether a value under a key holds an integer that would have to be written with too many digits: the
key is written as well, unless nothing stands under it. -/
def hasLongInteger (key : Value) : Value → Bool
  | .none => false
  | .int i => !key.hasText || !(isColor key (.int i) || hasText i)
  | .list items => !key.hasText || !(Value.list items).hasText
  | .tuple items => !key.hasText || !(Value.tuple items).hasText
  | .dict entries => !key.hasText || haveLongInteger entries
  | _ => !key.hasText

/-- Whether one of the fields of a mapping does. -/
def haveLongInteger : List (Value × Value) → Bool
  | [] => false
  | (k, v) :: r => hasLongInteger k v || haveLongInteger r

end

mutual

/-- Where all integers in a key and a value have a text, none is too long. -/
theorem hasLongInteger_of_hasText (key : Value) (hkey : key.hasText = true) :
    ∀ v : Value, v.hasText = true → hasLongInteger key v = false
  | .none, _ => rfl
  | .bool _, _ | .float _, _ | .text _, _ | .date _, _ => by
    simp [hasLongInteger, hkey]
  | .int i, h => by
    rw [Value.hasText] at h
    simp [hasLongInteger, hkey, h]
  | .list items, h | .tuple items, h => by
    simp [hasLongInteger, hkey, h]
  | .dict entries, h => by
    rw [Value.hasText] at h
    rw [hasLongInteger, hkey, haveLongInteger_of_hasText entries h]
    rfl

theorem haveLongInteger_of_hasText : ∀ entries : List (Value × Value),
    Value.entriesHaveText entries = true → haveLongInteger entries = false
  | [], _ => rfl
  | (k, v) :: r, h => by
    simp only [Value.entriesHaveText, Bool.and_eq_true] at h
    rw [haveLongInteger, hasLongInteger_of_hasText k h.1.1 v h.1.2, haveLongInteger_of_hasText r h.2]
    rfl

end

/-! ## Section 3: All values -/

/-- What writing a value comes to: it has a text and holds neither of the two, or it holds one and the
fault says which. -/
inductive Written (infinite long : Bool) {α : Type} : Result α → Prop where
  | text (hinfinite : infinite = false) (hlong : long = false) (a : α) : Written infinite long (.ok a)
  | infinite (hinfinite : infinite = true) : Written infinite long (.error .tooLarge)
  | long (hlong : long = true) : Written infinite long (.error .tooLongToWrite)

theorem Written.exists_iff {infinite long : Bool} {α : Type} {r : Result α}
    (h : Written infinite long r) : (∃ a, r = .ok a) ↔ infinite = false ∧ long = false := by
  cases h with
  | text hinfinite hlong a => exact iff_of_true ⟨a, rfl⟩ ⟨hinfinite, hlong⟩
  | infinite hinfinite =>
    refine iff_of_false (fun ⟨_, h⟩ => nomatch h) fun hneither => ?_
    cases hinfinite.symm.trans hneither.1
  | long hlong =>
    refine iff_of_false (fun ⟨_, h⟩ => nomatch h) fun hneither => ?_
    cases hlong.symm.trans hneither.2

theorem Written.eq_tooLarge {α : Type} {r : Result α} (h : Written true false r) :
    r = .error .tooLarge := by
  cases h with
  | text hinfinite => cases hinfinite
  | infinite => rfl
  | long hlong => cases hlong

theorem Written.eq_tooLongToWrite {α : Type} {r : Result α} (h : Written false true r) :
    r = .error .tooLongToWrite := by
  cases h with
  | text _ hlong => cases hlong
  | infinite hinfinite => cases hinfinite
  | long => rfl

theorem written_written {v : Value} {long : Bool} (hlong : long = !v.hasText) (text : List Char) :
    Written false long (written v text) := by
  unfold written
  cases hv : v.hasText with
  | true => exact .text rfl (by rw [hlong, hv]; rfl) text
  | false => exact .long (by rw [hlong, hv]; rfl)

/-- What is made of the texts of a part comes to the same. -/
theorem Written.map {infinite long : Bool} {α β : Type} {r : Result α}
    (h : Written infinite long r) (f : α → β) : Written infinite long (r >>= fun a => .ok (f a)) := by
  cases h with
  | text hinfinite hlong a => exact .text hinfinite hlong (f a)
  | infinite hinfinite => exact .infinite hinfinite
  | long hlong => exact .long hlong

/-- The first part that has no text decides the fault. -/
theorem Written.append {infinite long infinite' long' : Bool} {α β γ : Type} {r : Result α}
    {r' : Result β} (h : Written infinite long r) (h' : Written infinite' long' r') (f : α → β → γ) :
    Written (infinite || infinite') (long || long')
      (r >>= fun a => r' >>= fun b => .ok (f a b)) := by
  cases h with
  | text hinfinite hlong a =>
    rw [hinfinite, hlong, Bool.false_or, Bool.false_or, ok_bind]
    exact h'.map (f a)
  | infinite hinfinite => exact .infinite (by rw [hinfinite, Bool.true_or])
  | long hlong => exact .long (by rw [hlong, Bool.true_or])

/-- What stands under a key that has no text is not looked at. -/
theorem Written.underKey {infinite long : Bool} {key : Value} {text : Result (List Char)}
    (h : Written infinite long text) : Written infinite (!key.hasText || long) (under key text) := by
  unfold Literal.under
  cases hkey : key.hasText with
  | true => exact h
  | false => exact .long rfl

theorem Written.underKey_of_short {infinite : Bool} {key : Value} {text : Result (List Char)}
    (h : Written infinite false text) : Written infinite (!key.hasText) (under key text) := by
  have hunder := @Written.underKey infinite false key text h
  rwa [Bool.or_false] at hunder

theorem written_short (key : Value) (text : List Char) :
    Written false (!key.hasText) (under key (.ok text)) :=
  (Written.text rfl rfl text).underKey_of_short

/-- A number that is not written as a color has a text, if it can be written in digits. -/
theorem written_of_not_color {key v : Value} {n : Number} (h : isColor key n = false) {long : Bool}
    (hlong : long = !v.hasText) : Written false long (numberUnder key v n) := by
  rw [numberUnder, h]
  cases isPercentKey key with
  | true => exact written_written hlong _
  | false => exact written_written hlong _

theorem written_int (key : Value) (i : Int) :
    Written false (!(isColor key (.int i) || hasText i)) (numberUnder key (.int i) (.int i)) := by
  cases hcolor : isColor key (.int i) with
  | true =>
    -- hexadecimal digits are written however many there are
    have hwritable : isWritable key (.int i) = true := by rw [isWritable, hcolor, Bool.true_or]
    obtain ⟨text, htext, -⟩ := int_reads hwritable
    rw [htext, Bool.true_or]
    exact .text rfl rfl text
  | false => exact written_of_not_color hcolor (by rw [Bool.false_or, Value.hasText])

/-- A double has a text, unless it is infinite and would have to be a color. -/
theorem written_float (key : Value) (x : Double) :
    Written (hasInfiniteColor key (.float x)) false (numberUnder key (.float x) (.float x)) := by
  cases x with
  | nan =>
    -- not-a-number is not compared with zero, so it is not a color either
    have hcompared : (Number.int 0).le (.float .nan) = false := rfl
    exact written_of_not_color (by rw [isColor, hcompared, Bool.and_false]) rfl
  | infinite negative =>
    cases negative with
    | true =>
      have hbelow : (Number.int 0).le (.float (.infinite true)) = false := rfl
      exact written_of_not_color (by rw [isColor, hbelow, Bool.and_false]) rfl
    | false =>
      have habove : (Number.int 0).le (.float (.infinite false)) = true := rfl
      have hcolor : isColor key (.float (.infinite false)) = Resource.isColorName key.shown := by
        rw [isColor, habove, Bool.and_true]
      rw [hasInfiniteColor]
      cases hname : Resource.isColorName key.shown with
      | true =>
        rw [numberUnder, hcolor, hname, if_pos rfl]
        exact .infinite rfl
      | false => exact written_of_not_color (hcolor.trans hname) rfl
  | finite s m p hf =>
    have hfinite : (Double.finite s m p hf).isFinite = true := rfl
    obtain ⟨text, htext, -⟩ := @float_reads key _ hfinite
    rw [htext]
    exact .text rfl rfl text

mutual

/-- A value has a text, or it holds an infinite color or an integer that is too long. -/
theorem value_cases (key : Value) : ∀ v : Value,
    Written (hasInfiniteColor key v) (hasLongInteger key v) (value key v)
  -- neither the key nor anything else is written
  | .none => .text rfl rfl _
  | .bool b => written_short key (number (.bool b))
  | .text s => written_short key (quote s.toList)
  | .date d => written_short key d.text.toList
  | .int i => (written_int key i).underKey
  | .float x => (written_float key x).underKey_of_short
  | .list _ | .tuple _ => (written_written rfl _).underKey
  | .dict entries => by
    rw [hasInfiniteColor, hasLongInteger, value]
    exact ((fields_cases entries).map braced).underKey

theorem fields_cases : ∀ entries : List (Value × Value),
    Written (haveInfiniteColor entries) (haveLongInteger entries) (fields entries)
  | [] => .text rfl rfl _
  | (k, v) :: r => by
    rw [haveInfiniteColor, haveLongInteger, fields]
    exact (value_cases k v).append (fields_cases r) _

end

end Literal

/-! ## Section 4: Lines -/

/-- The characters that end a line of a script. -/
def endsLine (c : Char) : Bool :=
  c = '\n' || c = '\r'

/-- Between quotes, they are always escaped. -/
theorem escapable_endsLine (s : String) : Literal.Escapable endsLine s := by
  intro c _ hc
  simpa [endsLine] using hc

theorem marksBreaks_endsLine : MarksBreaks endsLine := by
  intro c hc
  cases hends : endsLine c with
  | false => rfl
  | true =>
    have hbreak : c = '\n' ∨ c = '\r' := by
      simpa [endsLine] using hends
    rcases hbreak with rfl | rfl <;> exact absurd hc (by decide)

/-- A value has a text exactly if it holds no infinite number as a color and no integer that is too long,
at any depth.  A value whose integers all have texts holds none that is too long.  The fault says which of
the two a value holds.  The text stands on one line, if the keys that are written do. -/
theorem Literal.value_ok_iff (key v : Value) :
    ((∃ text, Literal.value key v = .ok text)
        ↔ Literal.hasInfiniteColor key v = false ∧ Literal.hasLongInteger key v = false)
      ∧ (key.hasText = true → v.hasText = true → Literal.hasLongInteger key v = false)
      ∧ (Literal.hasInfiniteColor key v = true → Literal.hasLongInteger key v = false →
          Literal.value key v = .error .tooLarge)
      ∧ (Literal.hasInfiniteColor key v = false → Literal.hasLongInteger key v = true →
          Literal.value key v = .error .tooLongToWrite)
      ∧ ∀ text, Literal.value key v = .ok text →
          (∀ k ∈ Literal.keysOf v, Avoids endsLine k.shown.toList) → Avoids endsLine text := by
  have hcases := Literal.value_cases key v
  refine ⟨hcases.exists_iff, fun hkey hv => Literal.hasLongInteger_of_hasText key hkey v hv, ?infinite,
    ?long, fun text htext hkeys => ?line⟩
  case infinite =>
    intro hinfinite hlong
    rw [hinfinite, hlong] at hcases
    exact hcases.eq_tooLarge
  case long =>
    intro hinfinite hlong
    rw [hinfinite, hlong] at hcases
    exact hcases.eq_tooLongToWrite
  case line =>
    have hlines := Literal.value_avoids_of_keys marksBreaks_endsLine key v hkeys
    exact hlines (fun s _ => escapable_endsLine s) text htext

/-- An infinite number is written out as a size, and has no text as a color. -/
theorem Literal.value_ok_iff_infinite :
    Literal.value (.text "size") (.float (.infinite false)) = .ok "inf".toList
      ∧ Literal.value (.text "fillColor") (.float (.infinite false)) = .error .tooLarge := by
  obtain ⟨-, hlong, hcolor, -⟩ := Literal.value_ok_iff (.text "fillColor") (.float (.infinite false))
  constructor
  · rfl
  · exact hcolor rfl (hlong rfl rfl)

end Overlay
