import Overlay.Proofs.Script.Stretches

/-!
# Enough fuel

The scanner starts with fuel for all that can be read from a line.  Whatever it reads, it leaves the end
of the line, and less than before; so the fuel never runs out, and more of it would change nothing.

## Main statements
- `Scanner.suffix_of_valueFrom`: values leave the end of a line
- `Scanner.congr_fuel`: two amounts of fuel lead to the same result, if both are enough
- `Scanner.valueFrom_eq_value`, `Scanner.fieldsFrom_eq_of_le`: so the scanner's own is as good as more
-/

namespace Overlay.Scanner

variable {s r : List Char}

/-! ## Section 1: What values leave -/

/-- On the way along a line, the end of the line is left. -/
theorem suffix_of_valueFrom {n : Nat} {v : Value} (h : valueFrom n s = .ok (v, r)) : r <:+ s := by
  obtain ⟨literals, hrun⟩ := ((traces_values n).1 s).exists_run h []
  obtain ⟨xs, -, hscans⟩ := (leads_values n).1 s [] _ literals hrun
  exact hscans.suffix

/-! ## Section 2: Amounts of fuel -/

/-- Two amounts of fuel lead to the same result if both are larger than the line is long. -/
theorem congr_fuel (n : Nat) :
    (∀ m s, s.length + 2 ≤ n → s.length + 2 ≤ m → valueFrom n s = valueFrom m s)
      ∧ (∀ m s, s.length + 2 ≤ n → s.length + 2 ≤ m → fieldsFrom n s = fieldsFrom m s)
      ∧ ∀ m acc s, s.length + 1 ≤ n → s.length + 1 ≤ m →
        assignmentsFrom n acc s = assignmentsFrom m acc s := by
  -- each call takes one from the fuel, and most of them take more from the line
  induction n with
  | zero => refine ⟨?_, ?_, ?_⟩ <;> intros <;> omega
  | succ n ih =>
    obtain ⟨ihValue, ihFields, ihAssignments⟩ := ih
    refine ⟨fun m s hn hm => ?value, fun m s hn hm => ?fields, fun m acc s hn hm => ?assignments⟩
    case value =>
      obtain ⟨m, rfl⟩ : ∃ k, m = k + 1 := ⟨m - 1, by omega⟩
      rw [valueFrom, valueFrom]
      split
      · rfl
      · next t heq =>
        have := (skips_of_skipSpaces (by decide) heq).2
        rw [ihFields m t (by omega) (by omega)]
      · rfl
    case fields =>
      obtain ⟨m, rfl⟩ : ∃ k, m = k + 1 := ⟨m - 1, by omega⟩
      rw [fieldsFrom, fieldsFrom]
      split
      · rfl
      · have := (skips_skipSpaces s).length_le
        exact ihAssignments m [] _ (by omega) (by omega)
    case assignments =>
      obtain ⟨m, rfl⟩ : ∃ k, m = k + 1 := ⟨m - 1, by omega⟩
      rw [assignmentsFrom, assignmentsFrom]
      apply bind_congr_ok
      rintro ⟨key, behindKey⟩ hkey
      apply bind_congr_ok
      intro behindSign hsign
      have hkey := (skips_of_identifier hkey).2
      have hsign := (skips_of_expect (by decide) hsign).2
      dsimp only
      rw [ihValue m behindSign (by omega) (by omega)]
      apply bind_congr_ok
      rintro ⟨v, behindValue⟩ hvalue
      have hvalue := (suffix_of_valueFrom hvalue).length_le
      dsimp only
      split
      · next t heq =>
        have := (skips_of_skipSpaces (by decide) heq).2
        exact ihAssignments m _ t (by omega) (by omega)
      · rfl
      · rfl

/-- With enough fuel, a value is the one that the scanner reads. -/
theorem valueFrom_eq_value {n : Nat} (h : s.length + 2 ≤ n) : valueFrom n s = value s :=
  (congr_fuel n).1 _ s h (by rw [fuelFor]; omega)

theorem fieldsFrom_eq_of_le {n : Nat} (h : s.length + 2 ≤ n) :
    fieldsFrom n s = fieldsFrom (fuelFor s) s :=
  (congr_fuel n).2.1 _ s h (by rw [fuelFor]; omega)

end Overlay.Scanner
