import SensingHub.Wakelock.Safety

/-!
# Holding the wakelock for nothing

With both device files open and every write going through, the kernel lock should be held exactly
while there are samples to be processed. `release` decides by the count behind its subtraction, but
`acquire` by the count before its addition: an `acquire(0)` that finds the count at zero takes the
lock and leaves the count there. That is the only way to a lock that is held for nothing.
-/

namespace SensingHub.Wakelock

/-- What `write` returns if the call writes. -/
def Call.written : Call → ℤ
  | .acquire _ w => w
  | .release _ w => w

namespace System

/-- The kernel lock is held exactly while there are unprocessed samples. -/
def HeldForSamples (s : System) : Prop :=
  s.KernelHeld ↔ 0 < s.lock.mAcqCount

/-- Both device files are open. -/
def FilesOpen (s : System) : Prop :=
  ∀ path, 0 ≤ s.lock.mFds path

/-- An `acquire(0)` while there are no samples. -/
def AcquiresNothing (s : System) (c : Call) : Prop :=
  s.lock.mAcqCount = 0 ∧ ∃ w, c = .acquire 0 w

variable {s : System} {c : Call}

/-! ### One call -/

theorem filesOpen_call (h : s.FilesOpen) (c : Call) : (s.call c).2.FilesOpen := by
  cases c with
  | acquire n w =>
    change (s.acquire n w).2.FilesOpen
    rcases s.acquire_cases n w with ⟨-, heq⟩ | ⟨-, ⟨-, -, -, heq⟩ | ⟨-, -, -, heq⟩ | ⟨-, heq⟩⟩ <;>
      rw [heq] <;> exact h
  | release n w =>
    change (s.release n w).2.FilesOpen
    rcases s.release_cases n w with ⟨-, heq⟩ | ⟨-, ⟨-, -, -, heq⟩ | ⟨-, -, -, heq⟩ | ⟨-, heq⟩⟩ <;>
      rw [heq] <;> exact h

theorem HeldForSamples.mIsHeld_iff (h : s.HeldForSamples) (hinv : s.Inv) :
    s.lock.mIsHeld = true ↔ s.lock.mAcqCount ≠ 0 :=
  hinv.held_iff.trans (h.trans UInt32.pos_iff_ne_zero)

theorem heldForSamples_iff (hinv : s.Inv) :
    s.HeldForSamples ↔ (s.lock.mIsHeld = true ↔ s.lock.mAcqCount ≠ 0) := by
  rw [HeldForSamples, ← hinv.held_iff, UInt32.pos_iff_ne_zero]

/-- An `acquire(n)` on a lock that is held for its samples. -/
theorem heldForSamples_acquire (hinv : s.Inv) (hopen : s.FilesOpen) (hs : s.HeldForSamples)
    {n : UInt32} {w : ℤ} (hw : 0 < w) :
    (s.acquire n w).2.HeldForSamples ↔ ¬ (s.lock.mAcqCount = 0 ∧ n = 0) := by
  have hheld := hs.mIsHeld_iff hinv
  have hinv' := hinv.acquire n w
  rw [heldForSamples_iff hinv']
  rcases s.acquire_cases n w with
    ⟨hover, heq⟩ | ⟨hfit, ⟨hzero, -, -, heq⟩ | ⟨-, -, hrefused, -⟩ | ⟨hneed, heq⟩⟩
  · rw [heq]
    refine iff_of_true hheld fun ⟨hzero, hn⟩ ↦ ?_
    rw [hzero, hn, UInt32.toNat_zero] at hover
    exact absurd hover (by decide)
  · rw [heq, hzero, UInt32.zero_add]
    simp
  · exact absurd ⟨hopen _, hw⟩ hrefused
  · -- a lock that needs no write is held, and so has samples already
    have hcount : s.lock.mAcqCount ≠ 0 := by
      intro hzero
      refine hneed ⟨hzero, ?_⟩
      rw [← Bool.not_eq_true, hheld]
      exact not_not_intro hzero
    have hsum : s.lock.mAcqCount + n ≠ 0 := by
      have hpos := UInt32.pos_iff_ne_zero.2 hcount
      rw [UInt32.lt_iff_toNat_lt, UInt32.toNat_zero] at hpos
      rw [← UInt32.pos_iff_ne_zero, UInt32.lt_iff_toNat_lt, toNat_add_of_fits hfit,
        UInt32.toNat_zero]
      omega
    rw [heq]
    exact iff_of_true (iff_of_true (hheld.2 hcount) hsum) fun h ↦ hcount h.1

/-- A `release(n)` on a lock that is held for its samples. -/
theorem heldForSamples_release (hinv : s.Inv) (hopen : s.FilesOpen) (hs : s.HeldForSamples)
    {n : UInt32} {w : ℤ} (hw : 0 < w) : (s.release n w).2.HeldForSamples := by
  have hheld := hs.mIsHeld_iff hinv
  have hinv' := hinv.release n w
  rw [heldForSamples_iff hinv']
  rcases s.release_cases n w with
    ⟨-, heq⟩ | ⟨hle, ⟨-, -, -, heq⟩ | ⟨-, -, hrefused, -⟩ | ⟨hlast, heq⟩⟩
  · rwa [heq]
  · rw [heq]
    exact iff_of_false Bool.false_ne_true (not_not_intro rfl)
  · exact absurd ⟨hopen _, hw⟩ hrefused
  · rw [heq, setCount_mIsHeld, setCount_mAcqCount, hheld, not_iff_not]
    rw [not_and_or, hheld, not_not] at hlast
    have hsub : s.lock.mAcqCount - n = 0 ↔ n = s.lock.mAcqCount := by
      rw [UInt32.sub_eq_iff_eq_add, UInt32.zero_add, eq_comm]
    rw [hsub]
    constructor
    · intro hzero
      rw [hzero, UInt32.toNat_zero] at hle
      rw [hzero]
      exact UInt32.toNat_inj.1 (by rw [UInt32.toNat_zero]; omega)
    · intro hn
      exact hlast.resolve_left (not_not_intro hn)

/-- **One call**: a lock that is held for its samples stays so unless nothing is acquired. -/
theorem heldForSamples_call (hinv : s.Inv) (hopen : s.FilesOpen) (hs : s.HeldForSamples)
    (hw : 0 < c.written) : (s.call c).2.HeldForSamples ↔ ¬ s.AcquiresNothing c := by
  cases c with
  | acquire n w =>
    have hnothing : s.AcquiresNothing (.acquire n w) ↔ s.lock.mAcqCount = 0 ∧ n = 0 :=
      and_congr_right fun _ ↦ ⟨fun ⟨_, h⟩ ↦ (Call.acquire.inj h).1, fun h ↦ ⟨w, by rw [h]⟩⟩
    rw [hnothing]
    exact heldForSamples_acquire hinv hopen hs hw
  | release n w =>
    refine iff_of_true (heldForSamples_release hinv hopen hs hw) ?_
    rintro ⟨-, w', h⟩
    cases h

/-! ### Runs -/

theorem inv_call (hinv : s.Inv) (c : Call) : (s.call c).2.Inv := by
  cases c with
  | acquire n w => exact hinv.acquire n w
  | release n w => exact hinv.release n w

theorem heldForSamples_trace (hinv : s.Inv) (hopen : s.FilesOpen) (hs : s.HeldForSamples)
    {calls : List Call} (hw : ∀ c ∈ calls, 0 < c.written) :
    (∀ p ∈ s.trace calls, (p.1.call p.2).2.HeldForSamples) ↔
      ∀ p ∈ s.trace calls, ¬ p.1.AcquiresNothing p.2 := by
  induction calls generalizing s with
  | nil => exact ⟨fun _ p hp ↦ (List.not_mem_nil hp).elim, fun _ p hp ↦ (List.not_mem_nil hp).elim⟩
  | cons c cs ih =>
    rw [trace, List.forall_mem_cons, List.forall_mem_cons]
    rw [← heldForSamples_call hinv hopen hs (hw c (List.mem_cons_self ..))]
    exact and_congr_right fun hc ↦ ih (inv_call hinv c) (filesOpen_call hopen c) hc
      fun c' hc' ↦ hw c' (List.mem_cons_of_mem _ hc')

/-- **The lock is held for nothing only behind an `acquire(0)`**: in a run with both files open and
every write going through, the kernel lock is held behind every call exactly while there are samples
if and only if no call acquires nothing. -/
theorem run_heldForSamples_iff {opened : Path → ℤ} (hopened : ∀ path, 0 ≤ opened path)
    (lockName : String) {calls : List Call} (hw : ∀ c ∈ calls, 0 < c.written) :
    (∀ p ∈ (construct opened lockName).trace calls, (p.1.call p.2).2.HeldForSamples) ↔
      ∀ p ∈ (construct opened lockName).trace calls, ¬ p.1.AcquiresNothing p.2 := by
  have hstart : construct opened lockName = ⟨⟨0, false, opened, lockName⟩, []⟩ := by
    rw [construct, if_neg (not_lt.2 (hopened _)), if_neg (not_lt.2 (hopened _))]
  refine heldForSamples_trace (Inv.construct opened lockName) ?_ ?_ hw
  · rw [hstart]
    exact hopened
  · rw [hstart]
    exact iff_of_false (by simp [KernelHeld]) (UInt32.lt_irrefl 0)

theorem run_heldForSamples_iff_acquire_release :
    (∀ p ∈ (construct (fun _ ↦ 3) "qsh").trace [.acquire 2 4, .release 2 4],
        (p.1.call p.2).2.HeldForSamples) ↔
      ∀ p ∈ (construct (fun _ ↦ 3) "qsh").trace [.acquire 2 4, .release 2 4],
        ¬ p.1.AcquiresNothing p.2 :=
  run_heldForSamples_iff (fun _ ↦ by decide) "qsh" (by decide)

/-- An `acquire(0)` on a new wakelock leaves the lock held with no samples. -/
theorem not_heldForSamples_acquire_zero :
    ¬ ∀ p ∈ (construct (fun _ ↦ 3) "qsh").trace [.acquire 0 4],
      (p.1.call p.2).2.HeldForSamples := by
  intro h
  have hheld := h _ (List.mem_singleton_self _)
  exact absurd (hheld.1 (by unfold KernelHeld; decide)) (by decide)

end System

end SensingHub.Wakelock
