import SensingHub.Wakelock.Model

/-!
# Status codes of the wakelock

`acquire(n)` and `release(n)` start from `ret = -1` and assign it only from the kernel write. So a
request that is applied without a write is reported as failed, and a release whose unlock write
fails has already lowered the count. `statusAtomic_iff` is the exact dividing line.
-/

namespace SensingHub.Wakelock

namespace System

/-- The request of a call was applied: the count changed by exactly its size, and the kernel write
it needed, if it needed one, went through. -/
def Applied (s : System) : Call → Prop
  | .acquire n w =>
      (s.acquire n w).2.lock.mAcqCount.toNat = s.lock.mAcqCount.toNat + n.toNat ∧
        (s.lock.mAcqCount = 0 ∧ s.lock.mIsHeld = false → s.WriteOk .wake_lock w)
  | .release n w =>
      (s.release n w).2.lock.mAcqCount.toNat + n.toNat = s.lock.mAcqCount.toNat ∧
        (n = s.lock.mAcqCount ∧ s.lock.mIsHeld = true → s.WriteOk .wake_unlock w)

/-- A call returns 0 exactly when its request was applied, and a non-zero value leaves the count
and the held flag alone. -/
def StatusAtomic (s : System) (c : Call) : Prop :=
  ((s.call c).1 = 0 ↔ s.Applied c) ∧
    ((s.call c).1 ≠ 0 → (s.call c).2.lock.mAcqCount = s.lock.mAcqCount ∧
      (s.call c).2.lock.mIsHeld = s.lock.mIsHeld)

/-- An acquire is reported as it went when it overflows or has to write; a release when it asks for
more than the count, or gives all of it back to a held lock and either the unlock write succeeds or
there was nothing to give back. -/
def ReportsStatus (s : System) : Call → Prop
  | .acquire n _ =>
      2 ^ 32 ≤ s.lock.mAcqCount.toNat + n.toNat ∨
        (s.lock.mAcqCount = 0 ∧ s.lock.mIsHeld = false)
  | .release n w =>
      s.lock.mAcqCount.toNat < n.toNat ∨
        (n = s.lock.mAcqCount ∧ s.lock.mIsHeld = true ∧ (s.WriteOk .wake_unlock w ∨ n = 0))

theorem statusAtomic_acquire_iff (s : System) (n : UInt32) (w : ℤ) :
    s.StatusAtomic (.acquire n w) ↔ s.ReportsStatus (.acquire n w) := by
  have hn := n.toNat_lt
  rcases s.acquire_cases n w with
    ⟨hover, heq⟩ | ⟨hfit, ⟨hzero, hfree, hw, heq⟩ | ⟨hzero, hfree, hw, heq⟩ | ⟨hneed, heq⟩⟩
  · -- rejected: the count would have had to change, since a request of zero never overflows
    have hcount := s.lock.mAcqCount.toNat_lt
    have hpos : n.toNat ≠ 0 := by omega
    have happlied : ¬ s.Applied (.acquire n w) := fun h ↦ by
      have hsum : (s.acquire n w).2.lock.mAcqCount.toNat = _ := h.1
      rw [heq] at hsum
      change s.lock.mAcqCount.toNat = s.lock.mAcqCount.toNat + n.toNat at hsum
      omega
    have hcall : s.call (.acquire n w) = (-1, s) := heq
    have hret : (-1 : ℤ) ≠ 0 := by decide
    exact iff_of_true ⟨by rw [hcall]; exact iff_of_false hret happlied,
      by rw [hcall]; exact fun _ ↦ ⟨rfl, rfl⟩⟩ (Or.inl hover)
  · simp [StatusAtomic, ReportsStatus, Applied, call, heq, hzero, hfree, hw]
  · simp [StatusAtomic, ReportsStatus, Applied, call, heq, hzero, hfree, hw]
  · -- applied without a write, yet `ret` is still -1
    have happlied : s.Applied (.acquire n w) := by
      refine ⟨?_, fun h ↦ absurd h hneed⟩
      rw [heq, setCount_mAcqCount, toNat_add_of_fits hfit]
    have hret : (s.call (.acquire n w)).1 = -1 := by rw [call, heq]
    constructor
    · intro h
      have := h.1.2 happlied
      rw [hret] at this
      omega
    · rintro (hover | hfree)
      · omega
      · exact absurd hfree hneed

theorem statusAtomic_release_iff (s : System) (n : UInt32) (w : ℤ) :
    s.StatusAtomic (.release n w) ↔ s.ReportsStatus (.release n w) := by
  rcases s.release_cases n w with
    ⟨hlt, heq⟩ | ⟨hle, ⟨hlast, hheld, hw, heq⟩ | ⟨hlast, hheld, hw, heq⟩ | ⟨hkeep, heq⟩⟩
  · have hpos : n.toNat ≠ 0 := by omega
    simp [StatusAtomic, ReportsStatus, Applied, call, heq, hlt, hpos]
  · subst hlast
    simp only [StatusAtomic, ReportsStatus, Applied, call, heq, hheld, hw]
    simp
  · -- the unlock failed: the count is already zero, which only `release(0)` leaves as it was
    subst hlast
    simp only [StatusAtomic, ReportsStatus, Applied, call, heq, hheld, hw]
    simp [hheld, eq_comm (a := (0 : UInt32))]
  · have happlied : s.Applied (.release n w) := by
      refine ⟨?_, fun h ↦ absurd h hkeep⟩
      rw [heq, setCount_mAcqCount,
        toNat_sub_of_not_lt fun h ↦ Nat.not_lt.2 hle (UInt32.lt_iff_toNat_lt.1 h)]
      omega
    have hret : (s.call (.release n w)).1 = -1 := by rw [call, heq]
    constructor
    · intro h
      have := h.1.2 happlied
      rw [hret] at this
      omega
    · rintro (hlt | ⟨hlast, hheld, -⟩)
      · omega
      · exact absurd ⟨hlast, hheld⟩ hkeep

/-- **Status codes, exactly.** In every state a call reports what it did, and is atomic when it
fails, precisely when it is rejected by its bounds check or is one whose kernel write decides the
return value without having changed the count first. -/
theorem statusAtomic_iff (s : System) (c : Call) : s.StatusAtomic c ↔ s.ReportsStatus c := by
  cases c with
  | acquire n w => exact s.statusAtomic_acquire_iff n w
  | release n w => exact s.statusAtomic_release_iff n w

/-- The second of two acquires is applied and returns -1. -/
theorem not_statusAtomic_second_acquire :
    machine.Reachable ((construct (fun _ ↦ 3) "qsh").run [.acquire 1 4]) ∧
      ¬ ((construct (fun _ ↦ 3) "qsh").run [.acquire 1 4]).StatusAtomic (.acquire 1 4) :=
  ⟨reachable_run _ _ _, fun h ↦ absurd (h.1.2 ⟨by decide, by decide⟩) (by decide)⟩

end System

end SensingHub.Wakelock
