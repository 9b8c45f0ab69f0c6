import Mathlib.Algebra.Group.Int.Defs
import Mathlib.Algebra.Group.Nat.Defs
import Mathlib.Data.Int.Notation
import Mathlib.Tactic.Common
import SensingHub.Lib.TransitionSystem

/-!
# The wakelock of `qshWakelock`

`QshWakelock` holds the members the source keeps; `System` adds the world it writes to: the kernel's
wake lock, seen as the list of the successful writes to its two device files. The two private
overloads `acquire()` and `release()` are `kernelAcquire` and `kernelRelease`; the public
`acquire(n)` and `release(n)` keep their names.

The constructor and each public call take the outcome of the system calls they make as an argument:
what `open` returns for each path, and what `write` returns if the call gets as far as writing.
Every public call runs under `mMutex`, so an interleaving of threads is a list of calls.
-/

namespace SensingHub.Wakelock

/-- The device files named by `PATHS`. -/
inductive Path
  | wake_lock
  | wake_unlock
  deriving DecidableEq, Repr

/-- The members of `qshWakelock` that its functions read. -/
structure QshWakelock where
  /-- Number of unprocessed wakeup samples. -/
  mAcqCount : UInt32
  mIsHeld : Bool
  /-- The file descriptor for each path; negative when not open. -/
  mFds : Path → ℤ
  mQshWakelockName : String

/-- A successful write of the lock's name to a device file. -/
structure KernelWrite where
  path : Path
  name : String
  deriving DecidableEq, Repr

/-- The wakelock together with the writes the kernel has taken, oldest first. -/
structure System where
  lock : QshWakelock
  kernel : List KernelWrite

namespace System

/-- `qshWakelock::qshWakelock`: the paths are opened in order, and the first failure closes what was
opened before it and leaves the name unset. -/
def construct (opened : Path → ℤ) (lockName : String) : System :=
  if opened .wake_lock < 0 then
    ⟨⟨0, false, fun _ ↦ -1, ""⟩, []⟩
  else if opened .wake_unlock < 0 then
    ⟨⟨0, false, fun _ ↦ -1, ""⟩, []⟩
  else
    ⟨⟨0, false, opened, lockName⟩, []⟩

/-- Whether a write to `path` goes through: the file is open and `write` returns a positive
count. -/
def WriteOk (s : System) (path : Path) (written : ℤ) : Prop :=
  0 ≤ s.lock.mFds path ∧ 0 < written

instance (s : System) (path : Path) (written : ℤ) : Decidable (s.WriteOk path written) :=
  inferInstanceAs (Decidable (_ ∧ _))

/-- A successful write of the name to `path`, and the `mIsHeld` it leaves. -/
def wrote (s : System) (path : Path) (held : Bool) : System where
  lock := { s.lock with mIsHeld := held }
  kernel := s.kernel ++ [⟨path, s.lock.mQshWakelockName⟩]

/-- `qshWakelock::acquire()`. -/
def kernelAcquire (s : System) (written : ℤ) : ℤ × System :=
  if 0 ≤ s.lock.mFds .wake_lock then
    if 0 < written then (0, s.wrote .wake_lock true)
    else (-1, s)
  else (-1, s)

/-- `qshWakelock::release()`. -/
def kernelRelease (s : System) (written : ℤ) : ℤ × System :=
  if 0 ≤ s.lock.mFds .wake_unlock then
    if 0 < written then (0, s.wrote .wake_unlock false)
    else (-1, s)
  else (-1, s)

/-- Assignment to `mAcqCount`. -/
def setCount (s : System) (n : UInt32) : System :=
  { s with lock := { s.lock with mAcqCount := n } }

/-- `qshWakelock::acquire(unsigned int)`. -/
def acquire (s : System) (inCount : UInt32) (written : ℤ) : ℤ × System :=
  if 4294967295 - s.lock.mAcqCount < inCount then
    (-1, s)
  else if s.lock.mAcqCount = 0 ∧ s.lock.mIsHeld = false then
    let r := s.kernelAcquire written
    if r.1 ≠ 0 then r
    else (r.1, r.2.setCount (r.2.lock.mAcqCount + inCount))
  else
    -- `ret` still holds its initial value here
    (-1, s.setCount (s.lock.mAcqCount + inCount))

/-- `qshWakelock::release(unsigned int)`. -/
def release (s : System) (inCount : UInt32) (written : ℤ) : ℤ × System :=
  if s.lock.mAcqCount < inCount then
    (-1, s)
  else
    let t := s.setCount (s.lock.mAcqCount - inCount)
    if t.lock.mAcqCount = 0 ∧ t.lock.mIsHeld = true then t.kernelRelease written
    else (-1, t)

end System

/-- A public call, with what `write` returns should the call write. -/
inductive Call
  | acquire (inCount : UInt32) (written : ℤ)
  | release (inCount : UInt32) (written : ℤ)

namespace System

/-- The value a call returns and the state it leaves. -/
def call (s : System) : Call → ℤ × System
  | .acquire n w => s.acquire n w
  | .release n w => s.release n w

/-- A run of public calls. -/
def run (s : System) (calls : List Call) : System :=
  calls.foldl (fun t c ↦ (t.call c).2) s

@[simp] theorem run_nil (s : System) : s.run [] = s := rfl

@[simp] theorem run_cons (s : System) (c : Call) (cs : List Call) :
    s.run (c :: cs) = (s.call c).2.run cs := rfl

/-- The wakelock as a transition system: any outcome of the constructor, then any call. -/
def machine : TransitionSystem System Call where
  init s := ∃ opened lockName, s = construct opened lockName
  step s c t := t = (s.call c).2

theorem run_machine (s : System) (calls : List Call) : machine.Run s calls (s.run calls) := by
  induction calls generalizing s with
  | nil => exact .nil
  | cons c cs ih => exact .cons trivial rfl (ih (s.call c).2)

theorem reachable_run (opened : Path → ℤ) (lockName : String) (calls : List Call) :
    machine.Reachable ((construct opened lockName).run calls) :=
  ⟨_, calls, ⟨opened, lockName, rfl⟩, run_machine _ calls⟩

/-! ### Small facts about the operations -/

@[simp] theorem setCount_mAcqCount (s : System) (n : UInt32) :
    (s.setCount n).lock.mAcqCount = n := rfl

@[simp] theorem setCount_mIsHeld (s : System) (n : UInt32) :
    (s.setCount n).lock.mIsHeld = s.lock.mIsHeld := rfl

@[simp] theorem wrote_mAcqCount (s : System) (path : Path) (held : Bool) :
    (s.wrote path held).lock.mAcqCount = s.lock.mAcqCount := rfl

@[simp] theorem wrote_mIsHeld (s : System) (path : Path) (held : Bool) :
    (s.wrote path held).lock.mIsHeld = held := rfl

@[simp] theorem wrote_kernel (s : System) (path : Path) (held : Bool) :
    (s.wrote path held).kernel = s.kernel ++ [⟨path, s.lock.mQshWakelockName⟩] := rfl

/-- `acquire()` either writes, sets `mIsHeld` and returns 0, or changes nothing and returns -1. -/
theorem kernelAcquire_cases (s : System) (w : ℤ) :
    (s.WriteOk .wake_lock w ∧ s.kernelAcquire w = (0, s.wrote .wake_lock true)) ∨
    (¬ s.WriteOk .wake_lock w ∧ s.kernelAcquire w = (-1, s)) := by
  unfold kernelAcquire WriteOk
  split_ifs with hfd hw
  · exact .inl ⟨⟨hfd, hw⟩, rfl⟩
  · exact .inr ⟨fun h ↦ hw h.2, rfl⟩
  · exact .inr ⟨fun h ↦ hfd h.1, rfl⟩

/-- `release()` either writes, clears `mIsHeld` and returns 0, or changes nothing and returns
-1. -/
theorem kernelRelease_cases (s : System) (w : ℤ) :
    (s.WriteOk .wake_unlock w ∧ s.kernelRelease w = (0, s.wrote .wake_unlock false)) ∨
    (¬ s.WriteOk .wake_unlock w ∧ s.kernelRelease w = (-1, s)) := by
  unfold kernelRelease WriteOk
  split_ifs with hfd hw
  · exact .inl ⟨⟨hfd, hw⟩, rfl⟩
  · exact .inr ⟨fun h ↦ hw h.2, rfl⟩
  · exact .inr ⟨fun h ↦ hfd h.1, rfl⟩

/-! ### The overflow check, in natural numbers -/

/-- The check of `acquire` rejects exactly the requests whose sum leaves 32 bits. -/
theorem overflow_check_iff (count n : UInt32) :
    4294967295 - count < n ↔ 2 ^ 32 ≤ count.toNat + n.toNat := by
  have hc := count.toNat_lt
  have hle : count ≤ (4294967295 : UInt32) := UInt32.le_iff_toNat_le.2 (by
    change count.toNat ≤ 4294967295
    omega)
  have hval : (4294967295 : UInt32).toNat = 4294967295 := rfl
  rw [UInt32.lt_iff_toNat_lt, UInt32.toNat_sub_of_le _ _ hle, hval]
  omega

theorem toNat_add_of_fits {count n : UInt32} (h : count.toNat + n.toNat < 2 ^ 32) :
    (count + n).toNat = count.toNat + n.toNat := by
  rw [UInt32.toNat_add]
  exact Nat.mod_eq_of_lt h

theorem toNat_sub_of_not_lt {count n : UInt32} (h : ¬ count < n) :
    (count - n).toNat = count.toNat - n.toNat :=
  UInt32.toNat_sub_of_le _ _ (UInt32.not_lt.1 h)

/-! ### What a call can do -/

/-- The four ways through `acquire(n)`: rejected by the overflow check, the kernel lock taken, the
kernel lock refused, or only the count raised. -/
theorem acquire_cases (s : System) (n : UInt32) (w : ℤ) :
    (2 ^ 32 ≤ s.lock.mAcqCount.toNat + n.toNat ∧ s.acquire n w = (-1, s)) ∨
    (s.lock.mAcqCount.toNat + n.toNat < 2 ^ 32 ∧
      ((s.lock.mAcqCount = 0 ∧ s.lock.mIsHeld = false ∧ s.WriteOk .wake_lock w ∧
          s.acquire n w = (0, (s.wrote .wake_lock true).setCount (s.lock.mAcqCount + n))) ∨
        (s.lock.mAcqCount = 0 ∧ s.lock.mIsHeld = false ∧ ¬ s.WriteOk .wake_lock w ∧
          s.acquire n w = (-1, s)) ∨
        (¬ (s.lock.mAcqCount = 0 ∧ s.lock.mIsHeld = false) ∧
          s.acquire n w = (-1, s.setCount (s.lock.mAcqCount + n))))) := by
  rw [← Nat.not_le, ← overflow_check_iff]
  by_cases hover : 4294967295 - s.lock.mAcqCount < n
  · exact .inl ⟨hover, if_pos hover⟩
  · refine .inr ⟨hover, ?_⟩
    rw [acquire, if_neg hover]
    by_cases hneed : s.lock.mAcqCount = 0 ∧ s.lock.mIsHeld = false
    · rw [if_pos hneed]
      rcases s.kernelAcquire_cases w with ⟨hw, hk⟩ | ⟨hw, hk⟩
      · exact .inl ⟨hneed.1, hneed.2, hw, by simp [hk, wrote]⟩
      · exact .inr (.inl ⟨hneed.1, hneed.2, hw, by simp [hk]⟩)
    · rw [if_neg hneed]
      exact .inr (.inr ⟨hneed, rfl⟩)

/-- The four ways through `release(n)`: rejected, the kernel lock given back, the kernel refusing
to take it back, or only the count lowered. -/
theorem release_cases (s : System) (n : UInt32) (w : ℤ) :
    (s.lock.mAcqCount.toNat < n.toNat ∧ s.release n w = (-1, s)) ∨
    (n.toNat ≤ s.lock.mAcqCount.toNat ∧
      ((n = s.lock.mAcqCount ∧ s.lock.mIsHeld = true ∧ s.WriteOk .wake_unlock w ∧
          s.release n w = (0, (s.setCount 0).wrote .wake_unlock false)) ∨
        (n = s.lock.mAcqCount ∧ s.lock.mIsHeld = true ∧ ¬ s.WriteOk .wake_unlock w ∧
          s.release n w = (-1, s.setCount 0)) ∨
        (¬ (n = s.lock.mAcqCount ∧ s.lock.mIsHeld = true) ∧
          s.release n w = (-1, s.setCount (s.lock.mAcqCount - n))))) := by
  rw [← Nat.not_lt (a := s.lock.mAcqCount.toNat), ← UInt32.lt_iff_toNat_lt]
  by_cases hlt : s.lock.mAcqCount < n
  · exact .inl ⟨hlt, if_pos hlt⟩
  · refine .inr ⟨hlt, ?_⟩
    rw [release, if_neg hlt]
    have hzero : s.lock.mAcqCount - n = 0 ↔ n = s.lock.mAcqCount := by
      rw [UInt32.sub_eq_iff_eq_add, UInt32.zero_add, eq_comm]
    simp only [setCount_mAcqCount, setCount_mIsHeld, hzero]
    by_cases hlast : n = s.lock.mAcqCount ∧ s.lock.mIsHeld = true
    · rw [if_pos hlast, hzero.2 hlast.1]
      rcases (s.setCount 0).kernelRelease_cases w with ⟨hw, hk⟩ | ⟨hw, hk⟩
      · exact .inl ⟨hlast.1, hlast.2, hw, hk⟩
      · exact .inr (.inl ⟨hlast.1, hlast.2, hw, hk⟩)
    · rw [if_neg hlast]
      exact .inr (.inr ⟨hlast, rfl⟩)

end System

end SensingHub.Wakelock
