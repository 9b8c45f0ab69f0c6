import Mathlib.Logic.Function.Basic
import Mathlib.Tactic.Common
import SensingHub.Lib.TransitionSystem

/-!
# The worker thread of `qshWorker`

The run loop, `addTask` and `shutdownWorker` as one transition system. A region that holds `mMutex`
is one step; the places in between are where other threads interleave:

* the worker reads `mAlive` without the lock (`testAlive`), then runs a region that either blocks in
  the condition wait, takes a task, or falls through (`region`); the task runs outside the lock and
  ends or throws (`finish`); the lock is retaken and dropped (`relock`);
* a caller of `shutdownWorker` runs the region that clears `mAlive` (`shutdownEnter`) and, if it was
  the one to clear it, waits in `mThread.join()` (`shutdownJoin`); a caller that finds the flag
  already cleared returns from the region at once;
* `addTask` is one region.

Waking up is separate from re-entering the region, so a notification and a spurious wake-up leave
the worker at `woken`, contending for the lock. `notify_one` reaches the worker only while it is
blocked in the wait.

Besides the members of the source, the state carries the history the properties speak of: the
accepted tasks, the taken ones, and the log of starts and ends. A task is tagged on acceptance with
its number; `none` is the empty `std::function`, which the loop takes and skips.
-/

namespace SensingHub.Worker

/-- A queued task with the number of its acceptance. -/
structure Entry (τ : Type*) where
  ticket : ℕ
  task : Option τ
  deriving DecidableEq, Repr

/-- Where the worker thread is in `run`. -/
inductive Pc (τ : Type*)
  /-- At `while (mAlive)`. -/
  | loopTest
  /-- About to construct the `unique_lock`. -/
  | locking
  /-- Blocked in `mConditionVar.wait(lk)`. -/
  | waiting
  /-- Woken in the wait, about to retake the lock. -/
  | woken
  /-- In `task()`, outside the lock. -/
  | running (e : Entry τ)
  /-- Past the task, at `lk.lock()`. -/
  | relocking
  /-- `run` has returned. -/
  | exited
  deriving DecidableEq, Repr

/-- Where a call of `shutdownWorker` is. -/
inductive CallerPc
  | notCalled
  | joining
  | returned
  deriving DecidableEq, Repr

/-- What happens to a taken task. -/
inductive Event
  | started (ticket : ℕ)
  | ended (ticket : ℕ)
  | threw (ticket : ℕ)
  deriving DecidableEq, Repr

/-- The members of `qshWorker`, the threads around it, and the history. `ι` names the calls of
`shutdownWorker`. -/
structure State (ι τ : Type*) where
  mAlive : Bool
  mTaskQueue : List (Entry τ)
  pc : Pc τ
  caller : ι → CallerPc
  accepted : List (Entry τ)
  taken : List (Entry τ)
  log : List Event

/-- The steps of the system. -/
inductive Label (ι τ : Type*)
  /-- A call of `addTask`; `fails` when `mTaskQueue.push` throws. -/
  | addTask (task : Option τ) (fails : Bool)
  | shutdownEnter (c : ι)
  | shutdownJoin (c : ι)
  | testAlive
  | region
  | spuriousWake
  | finish (throws : Bool)
  | relock
  deriving DecidableEq, Repr

namespace State

variable {ι τ : Type*}

/-- The state after the constructor: the thread is at the top of `run`. -/
def initial : State ι τ :=
  ⟨true, [], .loopTest, fun _ ↦ .notCalled, [], [], []⟩

/-- `mConditionVar.notify_one()`. -/
def notify (s : State ι τ) : State ι τ :=
  match s.pc with
  | .waiting => { s with pc := .woken }
  | _ => s

/-- `mTaskQueue.push(task)`. -/
def push (s : State ι τ) (task : Option τ) : State ι τ :=
  { s with
    mTaskQueue := s.mTaskQueue ++ [⟨s.accepted.length, task⟩]
    accepted := s.accepted ++ [⟨s.accepted.length, task⟩] }

/-- The region that `addTask` runs under the lock. -/
def addTask (s : State ι τ) (task : Option τ) (fails : Bool) : State ι τ :=
  if s.mAlive then
    if fails then s else (s.push task).notify
  else s

/-- The head of the queue is moved out and run, or skipped if it is empty. -/
def take (s : State ι τ) (e : Entry τ) (rest : List (Entry τ)) : State ι τ :=
  match e.task with
  | some _ =>
    { s with mTaskQueue := rest, taken := s.taken ++ [e], pc := .running e,
             log := s.log ++ [.started e.ticket] }
  | none => { s with mTaskQueue := rest, taken := s.taken ++ [e], pc := .relocking }

/-- The region of the run loop, from taking the lock (first time or after a wake-up) to dropping
it. -/
def region (s : State ι τ) : State ι τ :=
  match s.mAlive, s.mTaskQueue with
  | true, [] => { s with pc := .waiting }
  | true, e :: rest => s.take e rest
  | false, _ => { s with pc := .loopTest }

variable [DecidableEq ι]

/-- The region of `shutdownWorker` for the call `c`. -/
def shutdownEnter (s : State ι τ) (c : ι) : State ι τ :=
  if s.mAlive then
    { ({ s with mAlive := false } : State ι τ).notify with
      caller := Function.update s.caller c .joining }
  else { s with caller := Function.update s.caller c .returned }

/-- A call that finds the flag cleared returns from its region, and changes nothing else. -/
theorem shutdownEnter_of_not_mAlive {s : State ι τ} (h : s.mAlive = false) (c : ι) :
    s.shutdownEnter c = { s with caller := Function.update s.caller c .returned } := by
  rw [shutdownEnter, if_neg (by simp [h])]

/-- One step, if it is enabled. -/
def step (s : State ι τ) : Label ι τ → Option (State ι τ)
  | .addTask task fails => some (s.addTask task fails)
  | .shutdownEnter c =>
    match s.caller c with
    | .notCalled => some (s.shutdownEnter c)
    | _ => none
  | .shutdownJoin c =>
    match s.caller c, s.pc with
    | .joining, .exited => some { s with caller := Function.update s.caller c .returned }
    | _, _ => none
  | .testAlive =>
    match s.pc with
    | .loopTest => some { s with pc := if s.mAlive then .locking else .exited }
    | _ => none
  | .region =>
    match s.pc with
    | .locking => some s.region
    | .woken => some s.region
    | _ => none
  | .spuriousWake =>
    match s.pc with
    | .waiting => some { s with pc := .woken }
    | _ => none
  | .finish throws =>
    match s.pc with
    | .running e =>
      some { s with pc := .relocking,
                    log := s.log ++ [if throws then .threw e.ticket else .ended e.ticket] }
    | _ => none
  | .relock =>
    match s.pc with
    | .relocking => some { s with pc := .loopTest }
    | _ => none

/-- The worker and its callers as a transition system. -/
def machine (ι τ : Type*) [DecidableEq ι] : TransitionSystem (State ι τ) (Label ι τ) where
  init s := s = initial
  step s l t := s.step l = some t

/-- Execution of a list of steps, each of which must be enabled. -/
def exec (s : State ι τ) : List (Label ι τ) → Option (State ι τ)
  | [] => some s
  | l :: ls => (s.step l).bind fun t ↦ t.exec ls

theorem run_of_exec {s t : State ι τ} {ls : List (Label ι τ)} (h : s.exec ls = some t) :
    (machine ι τ).Run s ls t := by
  induction ls generalizing s with
  | nil =>
    rw [exec, Option.some.injEq] at h
    exact h ▸ .nil
  | cons l ls ih =>
    rw [exec, Option.bind_eq_some_iff] at h
    obtain ⟨u, hstep, hrest⟩ := h
    exact .cons trivial hstep (ih hrest)

theorem reachable_of_exec {t : State ι τ} {ls : List (Label ι τ)}
    (h : initial.exec ls = some t) : (machine ι τ).Reachable t :=
  ⟨initial, ls, rfl, run_of_exec h⟩

/-! ### What the parts of a step change -/

section Frame

omit [DecidableEq ι]

variable (s : State ι τ)

@[simp] theorem notify_mAlive : s.notify.mAlive = s.mAlive := by
  unfold notify; split <;> rfl

@[simp] theorem notify_mTaskQueue : s.notify.mTaskQueue = s.mTaskQueue := by
  unfold notify; split <;> rfl

@[simp] theorem notify_caller : s.notify.caller = s.caller := by
  unfold notify; split <;> rfl

@[simp] theorem notify_accepted : s.notify.accepted = s.accepted := by
  unfold notify; split <;> rfl

@[simp] theorem notify_taken : s.notify.taken = s.taken := by
  unfold notify; split <;> rfl

@[simp] theorem notify_log : s.notify.log = s.log := by
  unfold notify; split <;> rfl

/-- A notification moves a blocked worker and no other. -/
theorem notify_pc : (s.pc = .waiting ∧ s.notify.pc = .woken) ∨
    (s.pc ≠ .waiting ∧ s.notify.pc = s.pc) := by
  unfold notify
  split
  · next h => exact .inl ⟨h, rfl⟩
  · next h => exact .inr ⟨h, rfl⟩

/-- A notification neither starts nor ends a task, nor the run loop. -/
theorem notify_pc_iff (e : Entry τ) : s.notify.pc = .running e ↔ s.pc = .running e := by
  rcases s.notify_pc with ⟨h, h'⟩ | ⟨-, h'⟩ <;> simp [*]

theorem notify_pc_exited_iff : s.notify.pc = .exited ↔ s.pc = .exited := by
  rcases s.notify_pc with ⟨h, h'⟩ | ⟨-, h'⟩ <;> simp [*]

end Frame

end State

end SensingHub.Worker
