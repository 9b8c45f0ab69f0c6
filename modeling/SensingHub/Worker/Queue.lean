import Mathlib.Data.List.Nodup
import Mathlib.Data.List.Range
import SensingHub.Worker.Model

/-!
# Order and conservation of the worker's queue

`QueueInv` is the conservation law: taken tasks followed by the queue are the accepted tasks, which
are numbered in the order of acceptance. `SerialInv` is about the log: every start but the one of
the task now running has its end, so a start never comes before the previous end. Both are kept by
every step, whatever the other threads do in the gaps of the run loop.
-/

namespace SensingHub.Worker

variable {ι τ : Type*} [DecidableEq ι]

/-- A task is never started before every earlier one ended or threw. -/
def Serial (log : List Event) : Prop :=
  ∀ pre k post, log = pre ++ .started k :: post →
    ∀ j, .started j ∈ pre → .ended j ∈ pre ∨ .threw j ∈ pre

theorem serial_nil : Serial [] := by
  intro pre k post h
  simp at h

/-- Appending anything but a start keeps the log serial. -/
theorem Serial.append_of_not_started {log : List Event} (h : Serial log) {e : Event}
    (he : ∀ k, e ≠ .started k) : Serial (log ++ [e]) := by
  intro pre k post heq
  rcases List.eq_nil_or_concat' post with rfl | ⟨post, e', rfl⟩
  · obtain ⟨-, hlast⟩ := List.append_inj' heq rfl
    exact absurd (List.singleton_inj.1 hlast) (he k)
  · rw [← List.cons_append, ← List.append_assoc] at heq
    exact h pre k post (List.append_inj' heq rfl).1

/-- A start may follow once every earlier start has its end. -/
theorem Serial.append_started {log : List Event} (h : Serial log)
    (hdone : ∀ j, .started j ∈ log → .ended j ∈ log ∨ .threw j ∈ log) (k : ℕ) :
    Serial (log ++ [.started k]) := by
  intro pre k' post heq
  rcases List.eq_nil_or_concat' post with rfl | ⟨post, e', rfl⟩
  · obtain ⟨rfl, -⟩ := List.append_inj' heq rfl
    exact hdone
  · rw [← List.cons_append, ← List.append_assoc] at heq
    exact h pre k' post (List.append_inj' heq rfl).1

namespace State

/-- Taken tasks, then the queue, are the accepted tasks, numbered in order. -/
structure QueueInv (s : State ι τ) : Prop where
  split : s.taken ++ s.mTaskQueue = s.accepted
  tickets : s.accepted.map Entry.ticket = List.range s.accepted.length

omit [DecidableEq ι] in
theorem QueueInv.notify {s : State ι τ} (h : s.QueueInv) : s.notify.QueueInv :=
  ⟨by simpa using h.split, by simpa using h.tickets⟩

omit [DecidableEq ι] in
theorem QueueInv.push {s : State ι τ} (h : s.QueueInv) (task : Option τ) :
    (s.push task).QueueInv where
  split := by
    rw [State.push, ← List.append_assoc, h.split]
  tickets := by
    rw [State.push, List.map_append, h.tickets, List.length_append, List.length_singleton,
      List.range_succ]
    rfl

omit [DecidableEq ι] in
theorem QueueInv.take {s : State ι τ} (h : s.QueueInv) {e : Entry τ} {rest : List (Entry τ)}
    (hq : s.mTaskQueue = e :: rest) : (s.take e rest).QueueInv := by
  have hsplit : s.taken ++ [e] ++ rest = s.accepted := by
    rw [List.append_assoc, List.singleton_append, ← hq, h.split]
  unfold State.take
  split
  · exact ⟨hsplit, h.tickets⟩
  · exact ⟨hsplit, h.tickets⟩

omit [DecidableEq ι] in
theorem QueueInv.region {s : State ι τ} (h : s.QueueInv) : s.region.QueueInv := by
  unfold State.region
  split
  · exact ⟨h.split, h.tickets⟩
  · next hq => exact h.take hq
  · exact ⟨h.split, h.tickets⟩

theorem QueueInv.shutdownEnter {s : State ι τ} (h : s.QueueInv) (c : ι) :
    (s.shutdownEnter c).QueueInv := by
  unfold State.shutdownEnter
  split
  · exact ⟨by simpa using h.split, by simpa using h.tickets⟩
  · exact ⟨h.split, h.tickets⟩

/-- Every step of every thread keeps the conservation law. -/
theorem QueueInv.step {s t : State ι τ} {l : Label ι τ} (h : s.QueueInv)
    (hstep : s.step l = some t) : t.QueueInv := by
  cases l with
  | addTask task fails =>
    simp only [State.step, Option.some.injEq] at hstep
    subst hstep
    unfold State.addTask
    split
    · split
      · exact h
      · exact (h.push task).notify
    · exact h
  | shutdownEnter c =>
    simp only [State.step] at hstep
    split at hstep
    · rw [Option.some.injEq] at hstep
      exact hstep ▸ h.shutdownEnter c
    · cases hstep
  | region =>
    simp only [State.step] at hstep
    split at hstep
    · rw [Option.some.injEq] at hstep
      exact hstep ▸ h.region
    · rw [Option.some.injEq] at hstep
      exact hstep ▸ h.region
    · cases hstep
  | shutdownJoin | testAlive | spuriousWake | finish | relock =>
    simp only [State.step] at hstep
    split at hstep
    · rw [Option.some.injEq] at hstep
      exact hstep ▸ ⟨h.split, h.tickets⟩
    · cases hstep

/-- The log is serial, and only the running task is still to end. -/
structure SerialInv (s : State ι τ) : Prop where
  serial : Serial s.log
  finished : ∀ j, .started j ∈ s.log →
    (.ended j ∈ s.log ∨ .threw j ∈ s.log) ∨ ∃ e, s.pc = .running e ∧ e.ticket = j

omit [DecidableEq ι] in
/-- With no task running, every start has its end. -/
theorem SerialInv.finished_of_not_running {s : State ι τ} (h : s.SerialInv)
    (hpc : ∀ e, s.pc ≠ .running e) (j : ℕ) (hj : .started j ∈ s.log) :
    .ended j ∈ s.log ∨ .threw j ∈ s.log := by
  rcases h.finished j hj with hdone | ⟨e, he, -⟩
  · exact hdone
  · exact absurd he (hpc e)

omit [DecidableEq ι] in
/-- A step that keeps the log, and moves the worker only where no task is running. -/
theorem SerialInv.of_log_eq {s t : State ι τ} (h : s.SerialInv) (hlog : t.log = s.log)
    (hpc : ∀ e, s.pc = .running e → t.pc = .running e) : t.SerialInv where
  serial := hlog ▸ h.serial
  finished j hj := by
    rw [hlog] at hj ⊢
    exact (h.finished j hj).imp id fun ⟨e, he, hk⟩ ↦ ⟨e, hpc e he, hk⟩

omit [DecidableEq ι] in
theorem SerialInv.take {s : State ι τ} (h : s.SerialInv) (hpc : ∀ e, s.pc ≠ .running e)
    (e : Entry τ) (rest : List (Entry τ)) : (s.take e rest).SerialInv := by
  have hdone := h.finished_of_not_running hpc
  unfold State.take
  split
  · refine ⟨h.serial.append_started hdone e.ticket, fun j hj ↦ ?_⟩
    simp only [List.mem_append, List.mem_singleton, Event.started.injEq] at hj
    rcases hj with hj | rfl
    · exact .inl ((hdone j hj).imp (List.mem_append_left _) (List.mem_append_left _))
    · exact .inr ⟨e, rfl, rfl⟩
  · exact ⟨h.serial, fun j hj ↦ .inl (hdone j hj)⟩

omit [DecidableEq ι] in
theorem SerialInv.region {s : State ι τ} (h : s.SerialInv) (hpc : ∀ e, s.pc ≠ .running e) :
    s.region.SerialInv := by
  unfold State.region
  split
  · exact h.of_log_eq rfl fun e he ↦ absurd he (hpc e)
  · exact h.take hpc _ _
  · exact h.of_log_eq rfl fun e he ↦ absurd he (hpc e)

/-- Every step of every thread keeps the log serial. -/
theorem SerialInv.step {s t : State ι τ} {l : Label ι τ} (h : s.SerialInv)
    (hstep : s.step l = some t) : t.SerialInv := by
  cases l with
  | addTask task fails =>
    simp only [State.step, Option.some.injEq] at hstep
    subst hstep
    unfold State.addTask
    split
    · split
      · exact h
      · exact h.of_log_eq (by simp [State.push]) fun e he ↦ (notify_pc_iff _ e).2 he
    · exact h
  | shutdownEnter c =>
    simp only [State.step] at hstep
    split at hstep
    · rw [Option.some.injEq] at hstep
      subst hstep
      unfold State.shutdownEnter
      split
      · exact h.of_log_eq (by simp) fun e he ↦ (notify_pc_iff _ e).2 he
      · exact h.of_log_eq rfl fun e he ↦ he
    · cases hstep
  -- both regions begin outside a task
  | region =>
    simp only [State.step] at hstep
    split at hstep
    · next hpc =>
      rw [Option.some.injEq] at hstep
      exact hstep ▸ h.region fun e he ↦ by rw [hpc] at he; cases he
    · next hpc =>
      rw [Option.some.injEq] at hstep
      exact hstep ▸ h.region fun e he ↦ by rw [hpc] at he; cases he
    · cases hstep
  | finish throws =>
    simp only [State.step] at hstep
    split at hstep
    · next e hpc =>
      rw [Option.some.injEq] at hstep
      subst hstep
      -- the log ends with the task that ran, whether or not it threw
      refine ⟨h.serial.append_of_not_started fun k ↦ by cases throws <;> simp, fun j hj ↦ .inl ?_⟩
      have hj' : .started j ∈ s.log := by
        rcases List.mem_append.1 hj with hj | hj
        · exact hj
        · cases throws <;> simp at hj
      rcases h.finished j hj' with hdone | ⟨e', he', rfl⟩
      · exact hdone.imp (List.mem_append_left _) (List.mem_append_left _)
      · rw [hpc, Pc.running.injEq] at he'
        subst he'
        cases throws <;> simp
    · cases hstep
  | shutdownJoin c =>
    simp only [State.step] at hstep
    split at hstep
    · rw [Option.some.injEq] at hstep
      exact hstep ▸ h.of_log_eq rfl fun e he ↦ he
    · cases hstep
  -- the log stays, and the step begins outside a task
  | testAlive | spuriousWake | relock =>
    simp only [State.step] at hstep
    split at hstep
    · next hpc =>
      rw [Option.some.injEq] at hstep
      exact hstep ▸ h.of_log_eq rfl fun e he ↦ by rw [hpc] at he; cases he
    · cases hstep

/-- Once the flag is cleared it stays cleared and nothing more is taken. -/
theorem taken_of_not_mAlive {s t : State ι τ} {l : Label ι τ} (halive : s.mAlive = false)
    (hstep : s.step l = some t) : t.mAlive = false ∧ t.taken = s.taken := by
  cases l with
  | addTask task fails =>
    simp only [State.step, State.addTask, halive, Option.some.injEq] at hstep
    exact hstep ▸ ⟨halive, rfl⟩
  | shutdownEnter c =>
    simp only [State.step, shutdownEnter_of_not_mAlive halive] at hstep
    split at hstep
    · rw [Option.some.injEq] at hstep
      exact hstep ▸ ⟨halive, rfl⟩
    · cases hstep
  | region =>
    simp only [State.step, State.region, halive] at hstep
    split at hstep
    · rw [Option.some.injEq] at hstep
      exact hstep ▸ ⟨rfl, rfl⟩
    · rw [Option.some.injEq] at hstep
      exact hstep ▸ ⟨rfl, rfl⟩
    · cases hstep
  | shutdownJoin | testAlive | spuriousWake | finish | relock =>
    simp only [State.step] at hstep
    split at hstep
    · rw [Option.some.injEq] at hstep
      exact hstep ▸ ⟨halive, rfl⟩
    · cases hstep

theorem machine_queueInv : (machine ι τ).IsInvariant QueueInv where
  init := by
    rintro s rfl
    exact ⟨rfl, rfl⟩
  step _ _ _ h _ hstep := h.step hstep

theorem machine_serialInv : (machine ι τ).IsInvariant SerialInv where
  init := by
    rintro s rfl
    exact ⟨serial_nil, fun j hj ↦ by cases hj⟩
  step _ _ _ h _ hstep := h.step hstep

/-- **Order and conservation.** In every reachable state the taken tasks are a prefix of the
accepted ones, none is taken twice, taken tasks and queue together are the accepted tasks, tasks run
one after the other, and after the flag is cleared no run takes another task. -/
theorem queue_ordered {s : State ι τ} (hs : (machine ι τ).Reachable s) :
    s.taken <+: s.accepted ∧ (s.taken.map Entry.ticket).Nodup ∧
      s.taken ++ s.mTaskQueue = s.accepted ∧ Serial s.log ∧
      (s.mAlive = false → ∀ ls t, (machine ι τ).Run s ls t → t.taken = s.taken) := by
  have hqueue := machine_queueInv.of_reachable hs
  have hfront : s.taken <+: s.accepted := ⟨s.mTaskQueue, hqueue.split⟩
  refine ⟨hfront, ?_, hqueue.split, (machine_serialInv.of_reachable hs).serial, ?_⟩
  · have hnodup : (s.accepted.map Entry.ticket).Nodup := hqueue.tickets ▸ List.nodup_range
    exact hnodup.sublist (hfront.sublist.map Entry.ticket)
  · intro halive ls t hrun
    have hkeep : (machine ι τ).Preserves (fun _ _ ↦ True)
        fun u ↦ u.mAlive = false ∧ u.taken = s.taken := by
      rintro u l v ⟨hu, htaken⟩ - hstep
      have hv := taken_of_not_mAlive hu hstep
      exact ⟨hv.1, hv.2.trans htaken⟩
    exact (hkeep.of_run ⟨halive, rfl⟩ hrun).2

/-- Two tasks, the first of which throws, a spurious wake-up and a shutdown while the second is
queued. -/
def mixedRun : List (Label Bool ℕ) :=
  [.testAlive, .region, .spuriousWake, .region, .addTask (some 7) false, .region,
    .addTask (some 8) false, .finish true, .relock, .shutdownEnter true]

theorem queue_ordered_mixedRun :
    ∃ s : State Bool ℕ, initial.exec mixedRun = some s ∧ s.taken = [⟨0, some 7⟩] ∧
      s.mTaskQueue = [⟨1, some 8⟩] ∧ s.taken <+: s.accepted ∧ Serial s.log := by
  refine ⟨_, rfl, rfl, rfl, ?_⟩
  have hreachable := reachable_of_exec (show initial.exec mixedRun = some _ from rfl)
  have h := queue_ordered hreachable
  exact ⟨h.1, h.2.2.2.1⟩

end State

end SensingHub.Worker
