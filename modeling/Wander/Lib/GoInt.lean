import Mathlib.Tactic.Ring
import Mathlib.Algebra.Order.Ring.Int

/-!
# Go's signed fixed-width integers

Go's signed integers (`int64`, and `time.Duration` over it) wrap in two's complement. An integer
stands for its value; `wrap n x` is what a register of `n + 1` bits holds after an operation whose
exact result is `x`. In range the wrap changes nothing (`wrap_of_mem`), and its result is always
in range (`wrap_mem`).
-/

set_option autoImplicit false
set_option relaxedAutoImplicit false

namespace Wander.Lib.GoInt

/-- `x` as an `n + 1`-bit two's-complement integer. -/
def wrap (n : ℕ) (x : ℤ) : ℤ := (x + 2 ^ n) % 2 ^ (n + 1) - 2 ^ n

/-- `int64` arithmetic. -/
abbrev int64 (x : ℤ) : ℤ := wrap 63 x

variable {n : ℕ} {x : ℤ}

theorem wrap_of_mem (hlo : -2 ^ n ≤ x) (hhi : x < 2 ^ n) : wrap n x = x := by
  have hpow : (2 : ℤ) ^ (n + 1) = 2 * 2 ^ n := by ring
  unfold wrap
  rw [Int.emod_eq_of_lt (by omega) (by omega)]
  omega

theorem wrap_mem (n : ℕ) (x : ℤ) : -2 ^ n ≤ wrap n x ∧ wrap n x < 2 ^ n := by
  have hpow : (2 : ℤ) ^ (n + 1) = 2 * 2 ^ n := by ring
  have hpos : (0 : ℤ) < 2 ^ (n + 1) := pow_pos (by decide) _
  have hlo := Int.emod_nonneg (x + 2 ^ n) hpos.ne'
  have hhi := Int.emod_lt_of_pos (x + 2 ^ n) hpos
  unfold wrap
  omega

end Wander.Lib.GoInt
