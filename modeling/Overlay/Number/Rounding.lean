/-!
# Rounding quotients

Quotients of natural numbers rounded to the nearest one, where a half goes to the even neighbour.

## Main definitions
- `roundDiv`: the rounded quotient

## Main statements
- `roundDiv_mul_left`: the result depends on the quotient alone
- `roundDiv_exact`: an exact quotient is its own rounding
-/

namespace Overlay.Number

/-- The quotient `a / d`, rounded to nearest with ties to even. -/
def roundDiv (a d : Nat) : Nat :=
  let q := a / d
  let r := a % d
  if 2 * r < d then q
  else if d < 2 * r then q + 1
  else if q % 2 = 0 then q else q + 1

/-- Scaling both sides of a quotient leaves its rounding as it is. -/
theorem roundDiv_mul_left {c : Nat} (hc : 0 < c) (a d : Nat) :
    roundDiv (c * a) (c * d) = roundDiv a d := by
  have h1 : c * a / (c * d) = a / d := Nat.mul_div_mul_left a d hc
  have h2 : c * a % (c * d) = c * (a % d) := Nat.mul_mod_mul_left c a d
  have h3 : (2 * (c * (a % d)) < c * d) ↔ (2 * (a % d) < d) := by
    rw [← Nat.mul_assoc, Nat.mul_comm 2 c, Nat.mul_assoc]
    exact Nat.mul_lt_mul_left hc
  have h4 : (c * d < 2 * (c * (a % d))) ↔ (d < 2 * (a % d)) := by
    rw [← Nat.mul_assoc, Nat.mul_comm 2 c, Nat.mul_assoc]
    exact Nat.mul_lt_mul_left hc
  simp only [roundDiv, h1, h2, h3, h4]

/-- An exact quotient is its own rounding. -/
theorem roundDiv_exact {d : Nat} (hd : 0 < d) (n : Nat) : roundDiv (n * d) d = n := by
  have h1 : n * d / d = n := Nat.mul_div_cancel n hd
  have h2 : n * d % d = 0 := Nat.mul_mod_left n d
  simp [roundDiv, h1, h2, hd]

end Overlay.Number
