import SensingHub.Worker.Model

/-!
# When a returned shutdown means a stopped worker

`shutdownWorker` joins the worker only in the call that clears `mAlive`; a call that finds the flag
cleared returns at once. So the flag, not the end of the thread, is what a second call waits for.
`shutdown_waits_iff` says which runs are safe: exactly those in which no call enters the region
between the clearing of the flag and the exit of the run loop.
-/

namespace SensingHub.Worker

variable {ι τ : Type*} [DecidableEq ι]

namespace State

/-- The run loop has exited for good: no task is running, now or in any continuation. -/
def Finished (s : State ι τ) : Prop :=
  ∀ ls t, (machine ι τ).Run s ls t → t.pc = .exited

/-- If some call of `shutdownWorker` has returned, the run loop has exited for good. -/
def ShutdownWaited (s : State ι τ) : Prop :=
  ∀ c, s.caller c = .returned → s.Finished

/-- A call of `shutdownWorker` enters its region while the flag is still set, or after the run loop
has exited. -/
def EntersOutsideWindow (s : State ι τ) : Label ι τ → Prop
  | .shutdownEnter _ => s.mAlive = true ∨ s.pc = .exited
  | _ => True

/-- Nothing restarts the run loop. -/
theorem exited_step {s t : State ι τ} {l : Label ι τ} (hpc : s.pc = .exited)
    (hstep : s.step l = some t) : t.pc = .exited := by
  cases l with
  | addTask task fails =>
    simp only [State.step, Option.some.injEq] at hstep
    subst hstep
    unfold State.addTask
    split
    · split
      · exact hpc
      · exact (notify_pc_exited_iff _).2 hpc
    · exact hpc
  | shutdownEnter c =>
    simp only [State.step] at hstep
    split at hstep
    · rw [Option.some.injEq] at hstep
      subst hstep
      unfold State.shutdownEnter
      split
      · exact (notify_pc_exited_iff _).2 hpc
      · exact hpc
    · cases hstep
  | shutdownJoin c =>
    simp only [State.step] at hstep
    split at hstep
    · rw [Option.some.injEq] at hstep
      exact hstep ▸ hpc
    · cases hstep
  | testAlive | region | spuriousWake | finish | relock =>
    simp [State.step, hpc] at hstep

theorem finished_iff (s : State ι τ) : s.Finished ↔ s.pc = .exited := by
  constructor
  · intro h
    exact h [] s .nil
  · intro hpc ls t hrun
    have hkeep : (machine ι τ).Preserves (fun _ _ ↦ True) fun u ↦ u.pc = .exited :=
      fun _ _ _ hu _ hstep ↦ exited_step hu hstep
    exact hkeep.of_run hpc hrun

/-- A call returns either from its region, having found the flag cleared, or from the join, after
the run loop has exited. -/
theorem returned_step {s t : State ι τ} {l : Label ι τ} {c : ι} (hstep : s.step l = some t)
    (hc : t.caller c = .returned) :
    s.caller c = .returned ∨ s.pc = .exited ∨ (l = .shutdownEnter c ∧ s.mAlive = false) := by
  cases l with
  | addTask task fails =>
    simp only [State.step, Option.some.injEq] at hstep
    subst hstep
    refine .inl ?_
    unfold State.addTask at hc
    split at hc
    · split at hc
      · exact hc
      · simpa [State.push] using hc
    · exact hc
  | shutdownEnter d =>
    simp only [State.step] at hstep
    split at hstep
    · rw [Option.some.injEq] at hstep
      subst hstep
      -- a cleared flag is the early return of `shutdown`
      by_cases halive : s.mAlive = true
      · rw [State.shutdownEnter, if_pos halive] at hc
        by_cases hcd : c = d
        · subst hcd
          simp at hc
        · exact .inl (by simpa [hcd] using hc)
      · rw [Bool.not_eq_true] at halive
        rw [shutdownEnter_of_not_mAlive halive] at hc
        by_cases hcd : c = d
        · exact .inr (.inr ⟨by rw [hcd], halive⟩)
        · exact .inl (by simpa [hcd] using hc)
    · cases hstep
  | shutdownJoin d =>
    simp only [State.step] at hstep
    split at hstep
    · -- the join returns only once the run loop has exited
      next hpc => exact .inr (.inl hpc)
    · cases hstep
  | region =>
    simp only [State.step] at hstep
    have hregion : s.region.caller = s.caller := by
      unfold State.region
      split
      · rfl
      · unfold State.take
        split <;> rfl
      · rfl
    split at hstep
    · rw [Option.some.injEq] at hstep
      exact .inl (by rwa [← hstep, hregion] at hc)
    · rw [Option.some.injEq] at hstep
      exact .inl (by rwa [← hstep, hregion] at hc)
    · cases hstep
  | testAlive | spuriousWake | finish | relock =>
    simp only [State.step] at hstep
    split at hstep
    · rw [Option.some.injEq] at hstep
      exact .inl (by rwa [← hstep] at hc)
    · cases hstep

/-- As long as no call enters in the window, whoever has returned has waited for the run loop. -/
theorem returned_exited_preserves : (machine ι τ).Preserves EntersOutsideWindow
    fun s ↦ ∀ c, s.caller c = .returned → s.pc = .exited := by
  intro s l t hs hC hstep c hc
  have hexit : s.pc = .exited := by
    rcases returned_step hstep hc with hc' | hexit | ⟨rfl, halive⟩
    · exact hs c hc'
    · exact hexit
    · -- the region found the flag cleared, so the call entered after the exit
      exact hC.resolve_left (by simp [halive])
  exact exited_step hexit hstep

/-- A call that enters in the window returns while the run loop still runs. -/
theorem entersOutsideWindow_of_shutdownWaited {s t : State ι τ} {l : Label ι τ}
    (hstep : s.step l = some t) (ht : t.ShutdownWaited) : s.EntersOutsideWindow l := by
  cases l with
  | shutdownEnter c =>
    by_contra hwindow
    simp only [EntersOutsideWindow, not_or, Bool.not_eq_true] at hwindow
    obtain ⟨halive, hrunning⟩ := hwindow
    simp only [State.step] at hstep
    split at hstep
    · rw [Option.some.injEq, shutdownEnter_of_not_mAlive halive] at hstep
      subst hstep
      have hexit := (finished_iff _).1 (ht c (by simp))
      exact hrunning hexit
    · cases hstep
  | addTask | shutdownJoin | testAlive | region | spuriousWake | finish | relock => trivial

/-- **When shutdown waits.** In every state of a run a returned `shutdownWorker` means that the run
loop has exited for good, if and only if no call of the run enters its region after the flag was
cleared and before the run loop exited. -/
theorem shutdown_waits_iff (ls : List (Label ι τ)) (s : State ι τ) :
    (machine ι τ).RunThrough ShutdownWaited initial ls s ↔
      (machine ι τ).RunIf EntersOutsideWindow initial ls s := by
  constructor
  · intro h
    induction h with
    | nil => exact .nil
    | snoc _ hstep hu ih => exact ih.snoc (entersOutsideWindow_of_shutdownWaited hstep hu) hstep
  · intro h
    have hinit : ∀ c : ι, (initial : State ι τ).caller c = .returned →
        (initial : State ι τ).pc = .exited := fun c hc ↦ by cases hc
    exact (returned_exited_preserves.runThrough hinit h).mono
      fun t ht c hc ↦ (finished_iff t).2 (ht c hc)

/-- The worker is in a task when one call clears the flag and a second one returns. -/
def overlappingShutdowns : List (Label Bool ℕ) :=
  [.addTask (some 7) false, .testAlive, .region, .shutdownEnter false, .shutdownEnter true]

/-- The second of two overlapping shutdowns has returned while the task is still running. -/
theorem not_shutdownWaited_overlapping :
    ∃ s : State Bool ℕ, (machine Bool ℕ).Run initial overlappingShutdowns s ∧
      s.caller true = .returned ∧ s.pc = .running ⟨0, some 7⟩ ∧ ¬ s.ShutdownWaited := by
  refine ⟨_, run_of_exec rfl, rfl, rfl, fun h ↦ ?_⟩
  have hexit := (finished_iff _).1 (h true rfl)
  cases hexit

end State

end SensingHub.Worker
