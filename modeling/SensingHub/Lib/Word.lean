import Mathlib.Algebra.Group.Nat.Defs
import Mathlib.Tactic.Common

/-!
# Unsigned 32-bit arithmetic on natural numbers

Cursors and lengths of type `uint32_t` are natural numbers whose sums and differences are reduced
modulo `2 ^ 32`.
-/

namespace Word

/-- `a + b` in 32 bits. -/
def add32 (a b : ℕ) : ℕ :=
  (a + b) % 2 ^ 32

/-- `a - b` in 32 bits. -/
def sub32 (a b : ℕ) : ℕ :=
  (a + (2 ^ 32 - b % 2 ^ 32)) % 2 ^ 32

end Word
