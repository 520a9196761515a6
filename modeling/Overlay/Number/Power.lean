/-!
# Powers of two and ten

Doubles are counted in powers of two, decimal numerals in powers of ten.

## Main definitions
- `twoTo`, `tenTo`: the powers
-/

namespace Overlay.Number

/-- A power of two. -/
def twoTo (k : Nat) : Nat := Nat.pow 2 k

/-- A power of ten. -/
def tenTo (k : Nat) : Nat := Nat.pow 10 k

end Overlay.Number
