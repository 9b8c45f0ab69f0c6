import SensingHub.Worker.Queue

/-!
# No lost wake-up

`notify_one` is lost on a worker that is not blocked in the wait. What makes that harmless is the
predicate of the wait loop: the worker goes to sleep only in a region in which it found the queue
empty and the flag set, and whoever changes either of the two does so under the lock and notifies.
`WakeInv` is this fact; `progress` is what follows: while there is something to take, or the flag
is cleared, the worker can move on by itself.
-/

namespace SensingHub.Worker

variable {ι τ : Type*}

/-- The steps of the worker thread itself, with no help from a caller or a spurious wake-up. -/
def Label.OfWorker : Label ι τ → Prop
  | .testAlive | .region | .finish _ | .relock => True
  | .addTask _ _ | .shutdownEnter _ | .shutdownJoin _ | .spuriousWake => False

/-- How many steps of the worker lie before its next region. -/
def Pc.beforeRegion : Pc τ → ℕ
  | .running _ => 3
  | .relocking => 2
  | .loopTest => 1
  | .locking | .woken | .waiting | .exited => 0

/-- How many steps of the worker lie before the exit of the run loop, once the flag is cleared. -/
def Pc.beforeExit : Pc τ → ℕ
  | .running _ => 3
  | .relocking | .locking | .woken | .waiting => 2
  | .loopTest => 1
  | .exited => 0

namespace State

/-- A sleeping worker has nothing to do, the loop ends only with the flag cleared, and a call that
joins has cleared it. -/
structure WakeInv (s : State ι τ) : Prop where
  waiting : s.pc = .waiting → s.mTaskQueue = [] ∧ s.mAlive = true
  exited : s.pc = .exited → s.mAlive = false
  joining : ∀ c, s.caller c = .joining → s.mAlive = false

/-- After a notification the worker is not blocked in the wait. -/
theorem notify_pc_ne_waiting (s : State ι τ) : s.notify.pc ≠ .waiting := by
  intro h
  rcases s.notify_pc with ⟨-, h'⟩ | ⟨hne, h'⟩
  · rw [h'] at h
    cases h
  · exact hne (h' ▸ h)

/-- A step that leaves the flag and the callers alone, after which the worker neither sleeps nor has
left the loop. -/
theorem WakeInv.of_ne_waiting {s t : State ι τ} (h : s.WakeInv) (hpc : t.pc ≠ .waiting)
    (hexit : t.pc = .exited → s.mAlive = false) (halive : t.mAlive = s.mAlive)
    (hcaller : t.caller = s.caller) : t.WakeInv where
  waiting hwait := absurd hwait hpc
  exited he := halive.trans (hexit he)
  joining c hc := by
    rw [hcaller] at hc
    rw [halive]
    exact h.joining c hc

theorem WakeInv.addTask {s : State ι τ} (h : s.WakeInv) (task : Option τ) (fails : Bool) :
    (s.addTask task fails).WakeInv := by
  unfold State.addTask
  split
  · split
    · exact h
    · exact h.of_ne_waiting (notify_pc_ne_waiting _)
        (fun he ↦ h.exited ((notify_pc_exited_iff (s.push task)).1 he)) (by simp [State.push])
        (by simp [State.push])
  · exact h

/-- Taking a task leads into the task or past it, and touches neither the flag nor a caller. -/
theorem take_frame (s : State ι τ) (e : Entry τ) (rest : List (Entry τ)) :
    ((s.take e rest).pc = .running e ∨ (s.take e rest).pc = .relocking) ∧
      (s.take e rest).mAlive = s.mAlive ∧ (s.take e rest).mTaskQueue = rest ∧
      (s.take e rest).accepted = s.accepted ∧ (s.take e rest).caller = s.caller := by
  unfold State.take
  split
  · exact ⟨.inl rfl, rfl, rfl, rfl, rfl⟩
  · exact ⟨.inr rfl, rfl, rfl, rfl, rfl⟩

/-- The region goes to sleep only where it found the queue empty and the flag set. -/
theorem WakeInv.region {s : State ι τ} (h : s.WakeInv) : s.region.WakeInv := by
  unfold State.region
  split
  · next halive hq => exact ⟨fun _ ↦ ⟨hq, halive⟩, nofun, h.joining⟩
  · next e rest halive hq =>
    obtain ⟨hpc, halive', -, -, hcaller⟩ := s.take_frame e rest
    refine h.of_ne_waiting ?_ ?_ halive' hcaller
    · rcases hpc with hpc | hpc <;> simp [hpc]
    · rcases hpc with hpc | hpc <;> simp [hpc]
  · exact h.of_ne_waiting nofun nofun rfl rfl

variable [DecidableEq ι]

theorem WakeInv.shutdownEnter {s : State ι τ} (h : s.WakeInv) (c : ι) :
    (s.shutdownEnter c).WakeInv := by
  unfold State.shutdownEnter
  split
  · exact ⟨fun hwait ↦ absurd hwait (notify_pc_ne_waiting _), fun _ ↦ notify_mAlive _,
      fun d _ ↦ notify_mAlive _⟩
  · next halive =>
    exact ⟨h.waiting, h.exited, fun d _ ↦ Bool.eq_false_iff.2 halive⟩

/-- Every step of every thread keeps the invariant. -/
theorem WakeInv.step {s t : State ι τ} {l : Label ι τ} (h : s.WakeInv)
    (hstep : s.step l = some t) : t.WakeInv := by
  cases l with
  | addTask task fails =>
    simp only [State.step, Option.some.injEq] at hstep
    exact hstep ▸ h.addTask task fails
  | shutdownEnter c =>
    simp only [State.step] at hstep
    split at hstep
    · rw [Option.some.injEq] at hstep
      exact hstep ▸ h.shutdownEnter c
    · cases hstep
  | shutdownJoin c =>
    simp only [State.step] at hstep
    split at hstep
    · next hc hpc =>
      rw [Option.some.injEq] at hstep
      exact hstep ▸ ⟨h.waiting, h.exited, fun d _ ↦ h.joining c hc⟩
    · cases hstep
  | testAlive =>
    simp only [State.step] at hstep
    split at hstep
    · rw [Option.some.injEq] at hstep
      refine hstep ▸ h.of_ne_waiting ?_ ?_ rfl rfl
      · cases halive : s.mAlive <;> simp
      · cases halive : s.mAlive <;> simp
    · cases hstep
  | region =>
    simp only [State.step] at hstep
    split at hstep
    · rw [Option.some.injEq] at hstep
      exact hstep ▸ h.region
    · rw [Option.some.injEq] at hstep
      exact hstep ▸ h.region
    · cases hstep
  -- none of these steps ends in the wait
  | spuriousWake | finish | relock =>
    simp only [State.step] at hstep
    split at hstep
    · rw [Option.some.injEq] at hstep
      exact hstep ▸ h.of_ne_waiting (by simp) (by simp) rfl rfl
    · cases hstep

theorem machine_wakeInv : (machine ι τ).IsInvariant WakeInv where
  init := by
    rintro s rfl
    exact ⟨nofun, nofun, nofun⟩
  step _ _ _ h _ hstep := h.step hstep

/-! ### Progress of the worker -/

/-- How many steps the worker needs at most to empty the queue, or to leave the loop. -/
def rank (s : State ι τ) : ℕ :=
  if s.mAlive then 4 * s.mTaskQueue.length + s.pc.beforeRegion else s.pc.beforeExit

/-- **Progress.** While there is a task to take, or the flag is cleared and the loop not yet left,
the worker has a step of its own, and that step is progress. -/
theorem progress {s : State ι τ} (h : s.WakeInv) (hpc : s.pc ≠ .exited)
    (hwork : s.mTaskQueue ≠ [] ∨ s.mAlive = false) :
    ∃ l t, l.OfWorker ∧ s.step l = some t ∧ t.rank < s.rank ∧ t.mAlive = s.mAlive ∧
      t.accepted = s.accepted ∧ t.caller = s.caller := by
  -- a region takes a task or sees the cleared flag; it cannot go to wait
  have hregion : s.pc = .locking ∨ s.pc = .woken → s.region.rank < s.rank ∧
      s.region.mAlive = s.mAlive ∧ s.region.accepted = s.accepted ∧
      s.region.caller = s.caller := by
    intro hin
    cases halive : s.mAlive with
    | false =>
      rcases hin with hin | hin <;> simp [State.region, State.rank, halive, hin, Pc.beforeExit]
    | true =>
      cases hq : s.mTaskQueue with
      | nil => exact absurd halive (by simpa [hq] using hwork)
      | cons e rest =>
        obtain ⟨hpc', halive', hq', haccepted, hcaller⟩ := s.take_frame e rest
        have htake : s.region = s.take e rest := by simp only [State.region, halive, hq]
        have hlt : (s.take e rest).pc.beforeRegion ≤ 3 := by
          rcases hpc' with hpc' | hpc' <;> simp [hpc', Pc.beforeRegion]
        refine htake ▸ ⟨?_, halive'.trans halive, haccepted, hcaller⟩
        simp only [State.rank, halive', halive, hq', hq, List.length_cons, if_true]
        omega
  cases hat : s.pc with
  | loopTest =>
    have hstep : s.step .testAlive =
        some { s with pc := if s.mAlive then .locking else .exited } := by
      simp only [State.step, hat]
    refine ⟨.testAlive, _, trivial, hstep, ?_, rfl, rfl, rfl⟩
    cases halive : s.mAlive <;> simp [State.rank, halive, hat, Pc.beforeRegion, Pc.beforeExit]
  | locking =>
    exact ⟨.region, _, trivial, by simp only [State.step, hat], hregion (.inl hat)⟩
  | waiting =>
    -- the invariant: the worker waits only while there is nothing to do
    obtain ⟨hq, halive⟩ := h.waiting hat
    simp [hq, halive] at hwork
  | woken =>
    exact ⟨.region, _, trivial, by simp only [State.step, hat], hregion (.inr hat)⟩
  | running e =>
    have hstep : s.step (.finish false) =
        some { s with pc := .relocking, log := s.log ++ [.ended e.ticket] } := by
      simp only [State.step, hat, Bool.false_eq_true, if_false]
    refine ⟨.finish false, _, trivial, hstep, ?_, rfl, rfl, rfl⟩
    cases halive : s.mAlive <;> simp [State.rank, halive, hat, Pc.beforeRegion, Pc.beforeExit]
  | relocking =>
    have hstep : s.step .relock = some { s with pc := .loopTest } := by
      simp only [State.step, hat]
    refine ⟨.relock, _, trivial, hstep, ?_, rfl, rfl, rfl⟩
    cases halive : s.mAlive <;> simp [State.rank, halive, hat, Pc.beforeRegion, Pc.beforeExit]
  | exited => exact absurd hat hpc

/-- The worker empties the queue by itself. -/
theorem exists_run_queue_empty {s : State ι τ} (h : s.WakeInv) (halive : s.mAlive = true) :
    ∃ ls t, (machine ι τ).RunIf (fun _ l ↦ l.OfWorker) s ls t ∧ t.accepted = s.accepted ∧
      t.mTaskQueue = [] := by
  obtain ⟨ls, t, hrun, ⟨-, -, haccepted⟩, hq⟩ :=
    TransitionSystem.exists_runIf_of_rank (S := machine ι τ) (C := fun _ l ↦ l.OfWorker)
      (P := fun u ↦ u.WakeInv ∧ u.mAlive = true ∧ u.accepted = s.accepted)
      (Q := fun u ↦ u.mTaskQueue = []) rank
      (fun u hu hq ↦ by
        obtain ⟨hinv, hlive, hacc⟩ := hu
        have hpc : u.pc ≠ .exited := fun he ↦ by simp [hinv.exited he] at hlive
        obtain ⟨l, v, hl, hstep, hlt, hlive', hacc', -⟩ := progress hinv hpc (.inl hq)
        exact ⟨l, v, hl, hstep, ⟨hinv.step hstep, hlive'.trans hlive, hacc'.trans hacc⟩, hlt⟩)
      ⟨h, halive, rfl⟩
  exact ⟨ls, t, hrun, haccepted, hq⟩

/-- Once the flag is cleared the worker leaves the loop by itself. -/
theorem exists_run_exited {s : State ι τ} (h : s.WakeInv) (halive : s.mAlive = false) :
    ∃ ls t, (machine ι τ).RunIf (fun _ l ↦ l.OfWorker) s ls t ∧ t.caller = s.caller ∧
      t.pc = .exited := by
  obtain ⟨ls, t, hrun, ⟨-, -, hcaller⟩, hpc⟩ :=
    TransitionSystem.exists_runIf_of_rank (S := machine ι τ) (C := fun _ l ↦ l.OfWorker)
      (P := fun u ↦ u.WakeInv ∧ u.mAlive = false ∧ u.caller = s.caller)
      (Q := fun u ↦ u.pc = .exited) rank
      (fun u hu hpc ↦ by
        obtain ⟨hinv, hdead, hcall⟩ := hu
        obtain ⟨l, v, hl, hstep, hlt, hdead', -, hcall'⟩ := progress hinv hpc (.inr hdead)
        exact ⟨l, v, hl, hstep, ⟨hinv.step hstep, hdead'.trans hdead, hcall'.trans hcall⟩, hlt⟩)
      ⟨h, halive, rfl⟩
  exact ⟨ls, t, hrun, hcaller, hpc⟩

/-- **No lost wake-up.** In every reachable state a worker blocked in the wait has an empty queue
and the flag set. So while the flag is set the worker by itself takes every accepted task, and a
call that joins finds a worker that is awake and by itself leaves the loop, which lets the join
return. -/
theorem no_lost_wakeUp {s : State ι τ} (hs : (machine ι τ).Reachable s) :
    (s.pc = .waiting → s.mTaskQueue = [] ∧ s.mAlive = true) ∧
      (s.mAlive = true → ∃ ls t, (machine ι τ).RunIf (fun _ l ↦ l.OfWorker) s ls t ∧
        t.taken = s.accepted) ∧
      ∀ c, s.caller c = .joining → s.pc ≠ .waiting ∧
        ∃ ls t, (machine ι τ).RunIf (fun _ l ↦ l.OfWorker) s ls t ∧
          ∃ u, t.step (.shutdownJoin c) = some u ∧ u.caller c = .returned := by
  have hinv := machine_wakeInv.of_reachable hs
  refine ⟨hinv.waiting, fun halive ↦ ?_, fun c hc ↦ ⟨fun hwait ↦ ?_, ?_⟩⟩
  · obtain ⟨ls, t, hrun, haccepted, hq⟩ := exists_run_queue_empty hinv halive
    have hsplit := (machine_queueInv.of_reachable (hs.run hrun.run)).split
    rw [hq, List.append_nil, haccepted] at hsplit
    exact ⟨ls, t, hrun, hsplit⟩
  · have hlive := (hinv.waiting hwait).2
    rw [hinv.joining c hc] at hlive
    cases hlive
  · obtain ⟨ls, t, hrun, hcaller, hpc⟩ := exists_run_exited hinv (hinv.joining c hc)
    have hjoin : t.step (.shutdownJoin c) =
        some { t with caller := Function.update t.caller c .returned } := by
      simp only [State.step, hcaller, hc, hpc]
    exact ⟨ls, t, hrun, _, hjoin, Function.update_self c .returned t.caller⟩

/-- A task is queued and the flag cleared while the worker is between its test of the flag and the
lock, so both notifications are lost. -/
def lostNotifications : List (Label Bool ℕ) :=
  [.testAlive, .addTask (some 7) false, .shutdownEnter true]

theorem no_lost_wakeUp_lostNotifications :
    ∃ s : State Bool ℕ, initial.exec lostNotifications = some s ∧ s.pc = .locking ∧
      s.caller true = .joining ∧
      ∃ ls t, (machine Bool ℕ).RunIf (fun _ l ↦ l.OfWorker) s ls t ∧
        ∃ u, t.step (.shutdownJoin true) = some u ∧ u.caller true = .returned := by
  refine ⟨_, rfl, rfl, rfl, ?_⟩
  have hreachable := reachable_of_exec (show initial.exec lostNotifications = some _ from rfl)
  exact ((no_lost_wakeUp hreachable).2.2 true rfl).2

end State

end SensingHub.Worker
