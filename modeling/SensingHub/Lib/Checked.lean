import Mathlib.Algebra.Group.Int.Defs
import Mathlib.Algebra.Group.Nat.Defs
import Mathlib.Data.Int.Notation
import Mathlib.Tactic.Common

/-!
# Signed 64-bit arithmetic that may overflow

`checkedAdd` and `checkedSub` are the sum and the difference of two signed 64-bit values where these
are again 64-bit values, and `none` where the operation overflows, which is undefined in C++. The
`_eq_some_iff` lemmas turn a defined result into an equation of integers.
-/

namespace Checked

/-- `a + b`, unless it overflows. -/
def checkedAdd (a b : Int64) : Option Int64 :=
  if -2 ^ 63 ≤ a.toInt + b.toInt ∧ a.toInt + b.toInt < 2 ^ 63 then some (a + b) else none

/-- `a - b`, unless it overflows. -/
def checkedSub (a b : Int64) : Option Int64 :=
  if -2 ^ 63 ≤ a.toInt - b.toInt ∧ a.toInt - b.toInt < 2 ^ 63 then some (a - b) else none

/-- The value of an integer reduced to 64 bits, where nothing is lost. -/
theorem bmod_eq_self {n : ℤ} (h : -2 ^ 63 ≤ n) (h' : n < 2 ^ 63) : n.bmod (2 ^ 64) = n := by
  refine Int.bmod_eq_of_le ?_ ?_ <;> omega

theorem checkedAdd_eq_some_iff {a b c : Int64} :
    checkedAdd a b = some c ↔ c.toInt = a.toInt + b.toInt := by
  unfold checkedAdd
  split
  · next h =>
    rw [Option.some.injEq, ← Int64.toInt_inj, Int64.toInt_add, bmod_eq_self h.1 h.2]
    exact eq_comm
  · next h =>
    have hlo := c.le_toInt
    have hhi := c.toInt_lt
    constructor
    · intro hc
      cases hc
    · intro hc
      exact absurd ⟨hc ▸ hlo, hc ▸ hhi⟩ h

theorem checkedSub_eq_some_iff {a b c : Int64} :
    checkedSub a b = some c ↔ c.toInt = a.toInt - b.toInt := by
  unfold checkedSub
  split
  · next h =>
    rw [Option.some.injEq, ← Int64.toInt_inj, Int64.toInt_sub, bmod_eq_self h.1 h.2]
    exact eq_comm
  · next h =>
    have hlo := c.le_toInt
    have hhi := c.toInt_lt
    constructor
    · intro hc
      cases hc
    · intro hc
      exact absurd ⟨hc ▸ hlo, hc ▸ hhi⟩ h

theorem checkedSub_eq_none_iff {a b : Int64} :
    checkedSub a b = none ↔ a.toInt - b.toInt < -2 ^ 63 ∨ 2 ^ 63 ≤ a.toInt - b.toInt := by
  unfold checkedSub
  split
  · next h => simp only [reduceCtorEq, false_iff]; omega
  · next h => simp only [true_iff]; omega

theorem exists_checkedAdd {a b : Int64} (hlo : -2 ^ 63 ≤ a.toInt + b.toInt)
    (hhi : a.toInt + b.toInt < 2 ^ 63) : ∃ c, checkedAdd a b = some c :=
  ⟨a + b, if_pos ⟨hlo, hhi⟩⟩

theorem exists_checkedSub_iff {a b : Int64} :
    (∃ c, checkedSub a b = some c) ↔ -2 ^ 63 ≤ a.toInt - b.toInt ∧ a.toInt - b.toInt < 2 ^ 63 := by
  constructor
  · rintro ⟨c, hc⟩
    rw [← checkedSub_eq_some_iff.1 hc]
    exact ⟨c.le_toInt, c.toInt_lt⟩
  · intro h
    exact ⟨a - b, if_pos h⟩

theorem exists_checkedSub {a b : Int64} (hlo : -2 ^ 63 ≤ a.toInt - b.toInt)
    (hhi : a.toInt - b.toInt < 2 ^ 63) : ∃ c, checkedSub a b = some c :=
  exists_checkedSub_iff.2 ⟨hlo, hhi⟩

/-- An unsigned value below `2 ^ 63` keeps its value as a signed one. -/
theorem toInt_toInt64_of_lt {n : UInt64} (h : n.toNat < 2 ^ 63) :
    n.toInt64.toInt = (n.toNat : ℤ) := by
  show n.toBitVec.toInt = _
  rw [BitVec.toInt_eq_toNat_of_lt]
  · rfl
  · show 2 * n.toNat < 2 ^ 64
    omega

end Checked
