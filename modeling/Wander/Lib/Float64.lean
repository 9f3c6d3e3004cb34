import Mathlib

/-!
# Natural numbers as binary floating-point values

`float64(n)` of a natural number `n` is the nearest value with a significand of 53 bits, ties to
the even significand. `roundSignificand p n` is that rounding to `p` bits; below `2 ^ p` it is
exact (`roundSignificand_of_lt`). The results this development needs stay far below the range of
the format, so neither infinity nor the exponent's bounds come in.
-/

set_option autoImplicit false
set_option relaxedAutoImplicit false

namespace Wander.Lib.Float64

/-- The nearest number to `n` whose binary significand has at most `p` bits, ties to even. -/
def roundSignificand (p n : ℕ) : ℕ :=
  if n < 2 ^ p then n
  else
    -- the low bits that do not fit
    let e := Nat.log2 n + 1 - p
    let q := n / 2 ^ e
    let r := n % 2 ^ e
    let half := 2 ^ (e - 1)
    (if half < r ∨ (r = half ∧ q % 2 = 1) then q + 1 else q) * 2 ^ e

/-- `float64(n)` for a natural number `n`. -/
abbrev ofNat (n : ℕ) : ℕ := roundSignificand 53 n

theorem roundSignificand_of_lt {p n : ℕ} (h : n < 2 ^ p) : roundSignificand p n = n := by
  simp [roundSignificand, h]

end Wander.Lib.Float64
