import Mathlib.Algebra.Order.Group.Unbundled.Abs
import Mathlib.Algebra.Order.Group.Abs
import Mathlib.Tactic.Abel
import Mathlib.Tactic.Common

/-!
# Comparing two clocks

A counter that never goes back and a second clock, as functions of time. The offset between the two
cannot be read at one instant: one of them is read first. `bracketed_le` and `le_bracketed` say how
far off an offset is that is computed from a reading of the clock between two readings of the
counter, `late_le` and `le_late` how far off one is whose reading of the counter came late.

An `Estimate` is a value that is close to the offset at some instant; `Estimate.drift` moves it to
another instant, at the price of what the clocks drift apart in between.
-/

/-- A counter that never goes back, and a clock it is compared with. -/
structure ClockPair (ι α : Type*) [Preorder ι] [LinearOrder α] where
  counter : ι → α
  clock : ι → α
  counter_mono : Monotone counter

namespace ClockPair

variable {ι α : Type*} [Preorder ι] [AddCommGroup α] [LinearOrder α] [IsOrderedAddMonoid α]
  (P : ClockPair ι α)

/-- The offset between the clocks. -/
def offset (t : ι) : α :=
  P.clock t - P.counter t

/-- An offset whose reading of the counter came first is not too small. -/
theorem bracketed_le {t₁ t₂ : ι} (h : t₁ ≤ t₂) : P.offset t₂ ≤ P.clock t₂ - P.counter t₁ :=
  sub_le_sub_left (P.counter_mono h) _

/-- It is too large by at most what the counter moves until it is read again. -/
theorem le_bracketed {t₁ t₂ t₃ : ι} (h : t₂ ≤ t₃) :
    P.clock t₂ - P.counter t₁ ≤ P.offset t₂ + (P.counter t₃ - P.counter t₁) := by
  have hmove : P.counter t₂ - P.counter t₁ ≤ P.counter t₃ - P.counter t₁ :=
    sub_le_sub_right (P.counter_mono h) _
  calc P.clock t₂ - P.counter t₁
      = P.offset t₂ + (P.counter t₂ - P.counter t₁) := by rw [offset]; abel
    _ ≤ P.offset t₂ + (P.counter t₃ - P.counter t₁) := add_le_add_right hmove _

/-- An offset whose reading of the counter came last is not too large. -/
theorem late_le {t₁ t₂ : ι} (h : t₁ ≤ t₂) : P.clock t₁ - P.counter t₂ ≤ P.offset t₁ :=
  sub_le_sub_left (P.counter_mono h) _

omit [IsOrderedAddMonoid α] in
/-- It is too small by what the counter has moved. -/
theorem le_late (t₁ t₂ : ι) :
    P.offset t₁ - (P.counter t₂ - P.counter t₁) = P.clock t₁ - P.counter t₂ := by
  rw [offset]
  abel

/-! ### Estimates -/

/-- A value that is too small by at most `below` for the offset at an instant, and too large by at
most `above`. -/
structure Estimate (x : α) (t : ι) (below above : α) : Prop where
  le_add : P.offset t - below ≤ x
  le : x ≤ P.offset t + above

/-- The offset at two instants differs by at most `ω` of what the counter has moved. -/
structure Drifts (ω : α → α) : Prop where
  mono : Monotone ω
  abs_le : ∀ t t', |P.offset t' - P.offset t| ≤ ω |P.counter t' - P.counter t|

variable {P}

theorem Estimate.mono {x : α} {t : ι} {below above below' above' : α}
    (h : P.Estimate x t below above) (hbelow : below ≤ below') (habove : above ≤ above') :
    P.Estimate x t below' above' where
  le_add := (sub_le_sub_left hbelow _).trans h.le_add
  le := h.le.trans (add_le_add_right habove _)

/-- **An estimate at another instant.** -/
theorem Estimate.drift {ω : α → α} (hω : P.Drifts ω) {x : α} {t t' : ι} {below above d : α}
    (h : P.Estimate x t below above) (hd : |P.counter t' - P.counter t| ≤ d) :
    P.Estimate x t' (below + ω d) (above + ω d) := by
  have hle : |P.offset t' - P.offset t| ≤ ω d := (hω.abs_le t t').trans (hω.mono hd)
  obtain ⟨hlo, hhi⟩ := abs_le.1 hle
  constructor
  · calc P.offset t' - (below + ω d)
        = P.offset t - below + (P.offset t' - P.offset t - ω d) := by abel
      _ ≤ P.offset t - below + 0 := add_le_add_right (sub_nonpos.2 hhi) _
      _ = P.offset t - below := add_zero _
      _ ≤ x := h.le_add
  · calc x ≤ P.offset t + above := h.le
      _ = P.offset t + above + 0 := (add_zero _).symm
      _ ≤ P.offset t + above + (P.offset t' - P.offset t + ω d) :=
        add_le_add_right (neg_le_iff_add_nonneg.1 hlo) _
      _ = P.offset t' + (above + ω d) := by abel

end ClockPair
