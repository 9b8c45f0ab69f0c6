import Mathlib.Algebra.BigOperators.Group.List.Basic
import Mathlib.Data.List.Chain
import Mathlib.Tactic.Linarith
import SensingHub.Wakelock.Model

/-!
# Safety of the wakelock over whole runs

`Inv` ties the count, the held flag and the kernel's record together: a positive count implies the
flag, the flag says that the last successful write was to `wake_lock`, and successful writes
alternate. It survives a failed lock (nothing changes) and a failed unlock (the count drops to zero
while the flag and the kernel stay as they are).

The count itself is accounted for by the accepted calls of the run: `acquired` and `released` add up
the sizes of the accepted requests, each at the state it was made in.
-/

namespace SensingHub.Wakelock

namespace System

/-! ### The kernel lock -/

/-- The kernel lock is held when the last successful write went to `wake_lock`. -/
def KernelHeld (s : System) : Prop :=
  s.kernel.getLast?.map KernelWrite.path = some .wake_lock

/-- The successful writes alternate between the two files, starting with `wake_lock`. -/
def Alternating (s : System) : Prop :=
  (s.kernel.map KernelWrite.path).IsChain (· ≠ ·) ∧
    ∀ w ∈ s.kernel.head?, w.path = .wake_lock

/-- What every call keeps. -/
structure Inv (s : System) : Prop where
  held_of_count : s.lock.mAcqCount ≠ 0 → s.lock.mIsHeld = true
  held_iff : s.lock.mIsHeld = true ↔ s.KernelHeld
  alternating : s.Alternating

theorem Inv.construct (opened : Path → ℤ) (lockName : String) :
    (construct opened lockName).Inv := by
  unfold System.construct
  split_ifs <;>
    exact ⟨fun h ↦ absurd rfl h, by simp [KernelHeld], by simp [Alternating]⟩

/-- Changing the count keeps the invariant as long as a held lock backs the new count. -/
theorem Inv.setCount {s : System} (h : s.Inv) {n : UInt32}
    (hn : n ≠ 0 → s.lock.mIsHeld = true) : (s.setCount n).Inv :=
  ⟨hn, h.held_iff, h.alternating⟩

/-- One more write keeps the alternation when the file differs from the last one written, and is
`wake_lock` if there was none. -/
theorem Alternating.wrote {s : System} (h : s.Alternating) {path : Path} {held : Bool}
    (hpath : s.kernel.getLast?.map KernelWrite.path ≠ some path)
    (hfirst : s.kernel = [] → path = .wake_lock) : (s.wrote path held).Alternating := by
  obtain ⟨hchain, hhead⟩ := h
  refine ⟨?_, ?_⟩
  · rw [wrote_kernel, List.map_append, List.isChain_append]
    refine ⟨hchain, by simp, ?_⟩
    intro x hx y hy
    rw [List.getLast?_map] at hx
    simp only [List.map_cons, List.map_nil, List.head?_cons, Option.mem_def,
      Option.some.injEq] at hy
    subst hy
    rintro rfl
    exact hpath hx
  · intro w hw
    rw [wrote_kernel, List.head?_append] at hw
    cases hk : s.kernel with
    | nil =>
      simp only [hk, List.head?_nil, List.head?_cons, Option.none_or, Option.mem_def,
        Option.some.injEq] at hw
      rw [← hw]
      exact hfirst hk
    | cons v vs =>
      simp only [hk, List.head?_cons, Option.some_or] at hw
      exact hhead w (by rw [hk]; exact hw)

/-- Taking the kernel lock while it is not held. -/
theorem Inv.wrote_wake_lock {s : System} (h : s.Inv) (hheld : s.lock.mIsHeld = false) :
    (s.wrote .wake_lock true).Inv where
  held_of_count _ := rfl
  held_iff := by simp [KernelHeld]
  alternating := by
    refine h.alternating.wrote (fun hlast ↦ ?_) fun _ ↦ rfl
    rw [h.held_iff.2 hlast] at hheld
    exact absurd hheld (by decide)

/-- Giving the kernel lock back while it is held, with nothing outstanding. -/
theorem Inv.wrote_wake_unlock {s : System} (h : s.Inv) (hcount : s.lock.mAcqCount = 0)
    (hheld : s.lock.mIsHeld = true) : (s.wrote .wake_unlock false).Inv where
  held_of_count hne := absurd hcount hne
  held_iff := by simp [KernelHeld]
  alternating := by
    have hlast : s.KernelHeld := h.held_iff.1 hheld
    unfold KernelHeld at hlast
    refine h.alternating.wrote ?_ fun hnil ↦ ?_
    · rw [hlast]
      decide
    · rw [hnil] at hlast
      exact absurd hlast (by decide)

theorem Inv.acquire {s : System} (h : s.Inv) (n : UInt32) (w : ℤ) : (s.acquire n w).2.Inv := by
  rcases s.acquire_cases n w with ⟨-, heq⟩ | ⟨-, ⟨-, hfree, -, heq⟩ | ⟨-, -, -, heq⟩ | ⟨hneed, heq⟩⟩
  · rwa [heq]
  · rw [heq]
    exact (h.wrote_wake_lock hfree).setCount fun _ ↦ rfl
  · rwa [heq]
  · rw [heq]
    refine h.setCount fun _ ↦ ?_
    -- no write was needed, so either the flag or the count already says that the lock is held
    by_contra hheld
    rw [Bool.not_eq_true] at hheld
    by_cases hcount : s.lock.mAcqCount = 0
    · exact hneed ⟨hcount, hheld⟩
    · rw [h.held_of_count hcount] at hheld
      exact absurd hheld (by decide)

theorem Inv.release {s : System} (h : s.Inv) (n : UInt32) (w : ℤ) : (s.release n w).2.Inv := by
  rcases s.release_cases n w with
    ⟨-, heq⟩ | ⟨hle, ⟨-, hheld, -, heq⟩ | ⟨-, -, -, heq⟩ | ⟨hlast, heq⟩⟩
  · rwa [heq]
  · rw [heq]
    exact (h.setCount fun hne ↦ absurd rfl hne).wrote_wake_unlock rfl hheld
  · rw [heq]
    exact h.setCount fun hne ↦ absurd rfl hne
  · rw [heq]
    refine h.setCount fun hne ↦ h.held_of_count fun hzero ↦ hne ?_
    -- with a count of zero only `release(0)` passes the check
    have hn : n = 0 := by
      rw [hzero, UInt32.toNat_zero] at hle
      exact UInt32.toNat_inj.1 (by rw [UInt32.toNat_zero]; omega)
    rw [hzero, hn]
    rfl

/-- The invariant of the wakelock, for every outcome of the system calls. -/
theorem machine_inv : machine.IsInvariant Inv where
  init := by
    rintro s ⟨opened, lockName, rfl⟩
    exact Inv.construct opened lockName
  step := by
    rintro s c t h - rfl
    cases c with
    | acquire n w => exact h.acquire n w
    | release n w => exact h.release n w

/-! ### Accepted calls and their sum -/

/-- An `acquire(n)` is accepted when the sum stays in 32 bits and the write it needs, if it needs
one, goes through; a `release(n)` when at most the count is given back. -/
def Accepted (s : System) : Call → Prop
  | .acquire n w => s.lock.mAcqCount.toNat + n.toNat < 2 ^ 32 ∧
      (s.lock.mAcqCount = 0 ∧ s.lock.mIsHeld = false → s.WriteOk .wake_lock w)
  | .release n _ => n.toNat ≤ s.lock.mAcqCount.toNat

instance (s : System) (c : Call) : Decidable (s.Accepted c) := by
  cases c <;> unfold Accepted <;> infer_instance

/-- The samples an accepted call acquires. -/
def acquires (s : System) : Call → ℕ
  | .acquire n w => if s.Accepted (.acquire n w) then n.toNat else 0
  | .release _ _ => 0

/-- The samples an accepted call releases. -/
def releases (s : System) : Call → ℕ
  | .acquire _ _ => 0
  | .release n w => if s.Accepted (.release n w) then n.toNat else 0

/-- The states at which the calls of a run are made, each with its call. -/
def trace (s : System) : List Call → List (System × Call)
  | [] => []
  | c :: cs => (s, c) :: (s.call c).2.trace cs

/-- Sum of the accepted acquires of a run. -/
def acquired (s : System) (calls : List Call) : ℕ :=
  ((s.trace calls).map fun p ↦ p.1.acquires p.2).sum

/-- Sum of the accepted releases of a run. -/
def released (s : System) (calls : List Call) : ℕ :=
  ((s.trace calls).map fun p ↦ p.1.releases p.2).sum

/-- One call changes the count, as a natural number, by exactly what it has accepted: neither
update wraps. -/
theorem call_count (s : System) (c : Call) :
    (s.call c).2.lock.mAcqCount.toNat + s.releases c = s.lock.mAcqCount.toNat + s.acquires c := by
  cases c with
  | acquire n w =>
    rcases s.acquire_cases n w with
      ⟨hover, heq⟩ | ⟨hfit, ⟨hzero, hfree, hw, heq⟩ | ⟨hzero, hfree, hw, heq⟩ | ⟨hneed, heq⟩⟩
    · have hnot : ¬ s.Accepted (.acquire n w) := fun h ↦ by have := h.1; omega
      simp [call, heq, acquires, releases, hnot]
    · have hacc : s.Accepted (.acquire n w) := ⟨hfit, fun _ ↦ hw⟩
      have hsum := toNat_add_of_fits hfit
      simp only [call, heq, acquires, releases, hacc, if_true, setCount_mAcqCount, hsum]
      rfl
    · have hnot : ¬ s.Accepted (.acquire n w) := fun h ↦ hw (h.2 ⟨hzero, hfree⟩)
      simp [call, heq, acquires, releases, hnot]
    · have hacc : s.Accepted (.acquire n w) := ⟨hfit, fun h ↦ absurd h hneed⟩
      have hsum := toNat_add_of_fits hfit
      simp only [call, heq, acquires, releases, hacc, if_true, setCount_mAcqCount, hsum]
      rfl
  | release n w =>
    rcases s.release_cases n w with
      ⟨hlt, heq⟩ | ⟨hle, ⟨hlast, -, -, heq⟩ | ⟨hlast, -, -, heq⟩ | ⟨-, heq⟩⟩
    · have hnot : ¬ s.Accepted (.release n w) := fun h ↦ by
        have : n.toNat ≤ s.lock.mAcqCount.toNat := h
        omega
      simp [call, heq, acquires, releases, hnot]
    -- a release that is not larger than the count is accepted, and does not wrap
    all_goals
      have hacc : s.Accepted (.release n w) := hle
      have hsub := toNat_sub_of_not_lt fun h ↦ (UInt32.lt_iff_toNat_lt.1 h).not_ge hle
    · simp only [call, heq, acquires, releases, hacc, if_true, wrote_mAcqCount, setCount_mAcqCount]
      rw [← hlast, UInt32.toNat_zero]
      omega
    · simp only [call, heq, acquires, releases, hacc, if_true, setCount_mAcqCount]
      rw [← hlast, UInt32.toNat_zero]
      omega
    · simp only [call, heq, acquires, releases, hacc, if_true, setCount_mAcqCount, hsub]
      omega

/-- The count of a run is what it started with, plus the accepted acquires, minus the accepted
releases. -/
theorem run_count (s : System) (calls : List Call) :
    (s.run calls).lock.mAcqCount.toNat + s.released calls =
      s.lock.mAcqCount.toNat + s.acquired calls := by
  induction calls generalizing s with
  | nil => simp [released, acquired, trace]
  | cons c cs ih =>
    have hcall := s.call_count c
    have hrest := ih (s.call c).2
    simp only [released, acquired, trace, List.map_cons, List.sum_cons, run_cons] at hrest ⊢
    omega

theorem construct_mAcqCount (opened : Path → ℤ) (lockName : String) :
    (construct opened lockName).lock.mAcqCount = 0 := by
  unfold construct
  split_ifs <;> rfl

/-! ### The main result -/

/-- **Wakelock safety.** In every run from the constructor: the count is the sum of the accepted
acquires minus the sum of the accepted releases, each call having changed it by exactly the accepted
amount; a positive count means that the kernel lock is held; the successful writes alternate
starting with `wake_lock`, and the flag says which was the last. -/
theorem run_safe (opened : Path → ℤ) (lockName : String) (calls : List Call) :
    (((construct opened lockName).run calls).lock.mAcqCount.toNat : ℤ) =
        (construct opened lockName).acquired calls - (construct opened lockName).released calls ∧
      (∀ p ∈ (construct opened lockName).trace calls,
        (p.1.call p.2).2.lock.mAcqCount.toNat + p.1.releases p.2 =
          p.1.lock.mAcqCount.toNat + p.1.acquires p.2) ∧
      (0 < ((construct opened lockName).run calls).lock.mAcqCount →
        ((construct opened lockName).run calls).KernelHeld) ∧
      ((construct opened lockName).run calls).Alternating ∧
      (((construct opened lockName).run calls).lock.mIsHeld = true ↔
        ((construct opened lockName).run calls).KernelHeld) := by
  have hinv : ((construct opened lockName).run calls).Inv :=
    machine_inv.of_reachable (reachable_run opened lockName calls)
  refine ⟨?_, fun p _ ↦ call_count p.1 p.2, fun hpos ↦ ?_, hinv.alternating, hinv.held_iff⟩
  · have hcount := (construct opened lockName).run_count calls
    rw [construct_mAcqCount, UInt32.toNat_zero] at hcount
    omega
  · exact hinv.held_iff.1 (hinv.held_of_count (UInt32.pos_iff_ne_zero.1 hpos))

/-- An acquire, a release whose unlock write fails, and another acquire: the lock stays held
throughout and one write is recorded. -/
example : ((construct (fun _ ↦ 3) "qsh").run
    [.acquire 2 4, .release 2 (-1), .acquire 1 4]).kernel = [⟨.wake_lock, "qsh"⟩] := by
  decide

end System

end SensingHub.Wakelock
