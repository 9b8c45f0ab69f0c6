import SensingHub.Client.SuidEvent
import SensingHub.Lib.TransitionSystem

/-!
# Waiting without a predicate

`getSuid` and `getAttributes` send their request, take `eventMutex` and wait for `eventCV`; the
event callback handles a message first and then takes the mutex to notify. Nothing is tested before
the wait or behind it. So a notification that comes before the wait is lost, however many messages
have been handled by then, and any wake-up will do, spurious or not.

The caller and the callback are a transition system, for any way of handling a message. From each
state that is reached the caller may return, with neither another message nor a spurious wake-up
from there on, if a callback has yet to take the mutex, and it cannot but return if it has taken the
mutex before that (`returns_iff`). When it has returned and no wake-up was spurious, a notification
has come behind its wait, and `suidList` is what the messages so far have made of it
(`suidList_of_returned`); a message for which the callback is not defined, as one with a list whose
data type is empty, is none that is received.

The callback is not followed any further once the caller has returned: the mutex and the condition
variable are local to that.
-/

namespace SensingHub.Client

open Discovery (Suid)
open QshPb (Nanopb PbIstream)

/-! ### The system -/

/-- Where the caller is, which has sent its request. -/
inductive Main
  /-- At `unique_lock<mutex> eventLock(eventMutex)`. -/
  | requested
  /-- At `eventCV.wait(eventLock)`, with the mutex. -/
  | locked
  /-- Asleep in the wait, without the mutex. -/
  | waiting
  /-- Woken up, and to take the mutex again. -/
  | woken
  /-- Behind the wait, with the mutex. -/
  | passed
  /-- Returned: the session is closed, and the mutex gone. -/
  | returned
  deriving DecidableEq, Repr

/-- Where the event callback is. -/
inductive Callback
  /-- There is no message to handle. -/
  | idle
  /-- At `unique_lock<mutex> lock(eventMutex)`: the message has been handled. -/
  | handled
  /-- At `eventCV.notify_one()`, with the mutex. -/
  | locked
  /-- At its end, with the mutex. -/
  | notified
  deriving DecidableEq, Repr

/-- The caller has `eventMutex`. -/
def Main.holds : Main → Bool
  | .locked | .passed => true
  | .requested | .waiting | .woken | .returned => false

/-- The callback has `eventMutex`. -/
def Callback.holds : Callback → Bool
  | .locked | .notified => true
  | .idle | .handled => false

/-- What `notify_one` makes of the caller. -/
def Main.notify : Main → Main
  | .waiting => .woken
  | m => m

/-- The caller, the callback, and what the callback works on. -/
structure Waiting (δ : Type) where
  main : Main
  callback : Callback
  data : δ
  deriving DecidableEq, Repr

/-- The steps of the system. -/
inductive WaitLabel (μ : Type)
  | receive (msg : μ)
  | lockCallback
  | notify
  | unlockCallback
  | lock
  | wait
  | wakeSpuriously
  | relock
  | close

namespace Waiting

variable {μ δ ε : Type}

/-- Nobody has `eventMutex`. -/
def Free (s : Waiting δ) : Prop :=
  s.main.holds = false ∧ s.callback.holds = false

/-- The step relation. -/
inductive Step (handle : μ → δ → Except ε δ) : Waiting δ → WaitLabel μ → Waiting δ → Prop
  | receive {s : Waiting δ} {msg : μ} {d : δ} (hmain : s.main ≠ .returned)
      (hcallback : s.callback = .idle) (hdata : handle msg s.data = .ok d) :
      Step handle s (.receive msg) { s with callback := .handled, data := d }
  | lockCallback {s : Waiting δ} (hmain : s.main ≠ .returned) (hcallback : s.callback = .handled)
      (hfree : s.Free) : Step handle s .lockCallback { s with callback := .locked }
  | notify {s : Waiting δ} (hcallback : s.callback = .locked) :
      Step handle s .notify { s with callback := .notified, main := s.main.notify }
  | unlockCallback {s : Waiting δ} (hcallback : s.callback = .notified) :
      Step handle s .unlockCallback { s with callback := .idle }
  | lock {s : Waiting δ} (hmain : s.main = .requested) (hfree : s.Free) :
      Step handle s .lock { s with main := .locked }
  | wait {s : Waiting δ} (hmain : s.main = .locked) :
      Step handle s .wait { s with main := .waiting }
  | wakeSpuriously {s : Waiting δ} (hmain : s.main = .waiting) :
      Step handle s .wakeSpuriously { s with main := .woken }
  | relock {s : Waiting δ} (hmain : s.main = .woken) (hfree : s.Free) :
      Step handle s .relock { s with main := .passed }
  | close {s : Waiting δ} (hmain : s.main = .passed) :
      Step handle s .close { s with main := .returned }

/-- The caller has sent its request. -/
def start (d : δ) : Waiting δ :=
  ⟨.requested, .idle, d⟩

end Waiting

variable {μ δ ε : Type}

/-- The caller and the callback, which handles messages in the given way. -/
def waitSystem (handle : μ → δ → Except ε δ) (d : δ) : TransitionSystem (Waiting δ) (WaitLabel μ)
    where
  init s := s = .start d
  step := Waiting.Step handle

/-- No other message comes, and no spurious wake-up. -/
def Quiet (_ : Waiting δ) : WaitLabel μ → Prop
  | .wakeSpuriously | .receive _ => False
  | _ => True

namespace Waiting

/-- The caller has been notified, or is about to be. -/
def Heard (s : Waiting δ) : Prop :=
  s.main = .woken ∨ s.main = .passed ∨ s.main = .returned ∨
    s.main = .waiting ∧ s.callback = .locked

/-- At most one of the two has the mutex. -/
def Exclusive (s : Waiting δ) : Prop :=
  ¬ (s.main.holds = true ∧ s.callback.holds = true)

/-- The caller has been notified, or a message has been handled whose callback will notify. -/
def MayHear (s : Waiting δ) : Prop :=
  s.callback = .handled ∨ s.Heard

/-- The caller has been notified, or it has taken the mutex in front of such a callback. -/
def WillHear (s : Waiting δ) : Prop :=
  s.callback = .handled ∧ s.main ≠ .requested ∨ s.Heard

end Waiting

section

variable (handle : μ → δ → Except ε δ) (d : δ)

/-- Nothing happens any more without another message or a spurious wake-up. -/
def Settled (s : Waiting δ) : Prop :=
  ∀ l t, Quiet s l → ¬ (waitSystem handle d).step s l t

/-- The caller may return without another message. -/
def MayReturn (s : Waiting δ) : Prop :=
  ∃ ls t, (waitSystem handle d).RunIf Quiet s ls t ∧ t.main = .returned

/-- The caller returns without another message, whoever comes first. -/
def WillReturn (s : Waiting δ) : Prop :=
  ∀ ls t, (waitSystem handle d).RunIf Quiet s ls t → Settled handle d t → t.main = .returned

end

/-! ### What a step does -/

/-- How many steps the caller has left. -/
def Main.left : Main → ℕ
  | .requested => 5
  | .locked => 4
  | .waiting => 3
  | .woken => 2
  | .passed => 1
  | .returned => 0

/-- How many steps the callback has left for its message. -/
def Callback.left : Callback → ℕ
  | .handled => 3
  | .locked => 2
  | .notified => 1
  | .idle => 0

theorem Main.notify_left_le (m : Main) : m.notify.left ≤ m.left := by
  cases m <;> decide

/-- A notification gives nobody the mutex. -/
theorem Main.holds_notify (m : Main) : m.notify.holds = m.holds := by
  cases m <;> rfl

namespace Waiting

variable {handle : μ → δ → Except ε δ} {s t : Waiting δ} {l : WaitLabel μ}

/-- The steps left of both. -/
def left (s : Waiting δ) : ℕ :=
  s.main.left + s.callback.left

theorem Heard.notify (h : s.Heard) :
    Heard { s with callback := .notified, main := s.main.notify } := by
  rcases h with h | h | h | ⟨h, -⟩
  · exact .inl (congrArg Main.notify h)
  · exact .inr (.inl (congrArg Main.notify h))
  · exact .inr (.inr (.inl (congrArg Main.notify h)))
  · exact .inl (congrArg Main.notify h)

/-- Without the callback at its notification it is the caller that has heard it. -/
theorem Heard.of_main (h : s.Heard) (hcallback : s.callback ≠ .locked)
    (hmain : t.main = s.main) : t.Heard := by
  rcases h with h | h | h | ⟨-, h⟩
  · exact .inl (hmain.trans h)
  · exact .inr (.inl (hmain.trans h))
  · exact .inr (.inr (.inl (hmain.trans h)))
  · exact absurd h hcallback

theorem not_heard_of_requested (h : s.main = .requested) : ¬ s.Heard := by
  rw [Heard, h]
  simp

theorem not_heard_of_locked (h : s.main = .locked) : ¬ s.Heard := by
  rw [Heard, h]
  simp

theorem Step.exclusive (hs : s.Exclusive) (hstep : Step handle s l t) : t.Exclusive := by
  rintro ⟨hm, hc⟩
  cases hstep with
  | receive => cases hc
  | lockCallback _ _ hfree => exact Bool.false_ne_true (hfree.1.symm.trans hm)
  | notify hcallback =>
    exact hs ⟨(Main.holds_notify s.main).symm.trans hm, congrArg Callback.holds hcallback⟩
  | unlockCallback => cases hc
  | lock _ hfree => exact Bool.false_ne_true (hfree.2.symm.trans hc)
  | wait => cases hm
  | wakeSpuriously => cases hm
  | relock _ hfree => exact Bool.false_ne_true (hfree.2.symm.trans hc)
  | close => cases hm

/-- Every step that is neither a message nor a spurious wake-up brings the two further. -/
theorem Step.left_lt (hl : Quiet s l) (hstep : Step handle s l t) : t.left < s.left := by
  cases hstep with
  | receive => exact hl.elim
  | wakeSpuriously => exact hl.elim
  | lockCallback _ h | unlockCallback h | lock h | wait h | relock h | close h =>
    simp only [left, h, Main.left, Callback.left]
    omega
  | notify h =>
    have hle := s.main.notify_left_le
    simp only [left, h, Callback.left]
    omega

/-- Who will hear the callback does so whatever comes first. -/
theorem Step.willHear (hl : Quiet s l) (h : s.WillHear) (hstep : Step handle s l t) :
    t.WillHear := by
  cases hstep with
  | receive => exact hl.elim
  | wakeSpuriously => exact hl.elim
  | lockCallback hmain hcallback hfree =>
    refine .inr ?_
    rcases h with ⟨-, hne⟩ | hheard
    · cases hm : s.main with
      | requested => exact absurd hm hne
      | returned => exact absurd hm hmain
      | locked | passed =>
        rw [Free, hm] at hfree
        cases hfree.1
      | waiting => exact .inr (.inr (.inr ⟨rfl, rfl⟩))
      | woken => exact .inl rfl
    · exact hheard.of_main (by rw [hcallback]; decide) rfl
  | notify hcallback =>
    rcases h with ⟨h, -⟩ | hheard
    · cases hcallback.symm.trans h
    · exact .inr hheard.notify
  | unlockCallback hcallback =>
    rcases h with ⟨h, -⟩ | hheard
    · cases hcallback.symm.trans h
    · exact .inr (hheard.of_main (by rw [hcallback]; decide) rfl)
  | lock hmain =>
    rcases h with ⟨-, hne⟩ | hheard
    · exact absurd hmain hne
    · exact absurd hheard (not_heard_of_requested hmain)
  | wait hmain =>
    rcases h with ⟨hcallback, -⟩ | hheard
    · exact .inl ⟨hcallback, nofun⟩
    · exact absurd hheard (not_heard_of_locked hmain)
  | relock => exact .inr (.inr (.inl rfl))
  | close => exact .inr (.inr (.inr (.inl rfl)))

/-- A notification that is lost stays lost. -/
theorem Step.not_mayHear (hl : Quiet s l) (hs : s.Exclusive) (h : ¬ s.MayHear)
    (hstep : Step handle s l t) : ¬ t.MayHear := by
  obtain ⟨hhandled, hheard⟩ := not_or.1 h
  cases hstep with
  | receive => exact hl.elim
  | wakeSpuriously => exact hl.elim
  | lockCallback _ hcallback => exact absurd hcallback hhandled
  | notify hcallback =>
    rintro (hc | hheard')
    · cases hc
    · refine hheard ?_
      cases hm : s.main with
      | waiting => exact .inr (.inr (.inr ⟨hm, hcallback⟩))
      | woken => exact .inl hm
      | passed => exact .inr (.inl hm)
      | returned => exact .inr (.inr (.inl hm))
      | requested => exact absurd hheard' (not_heard_of_requested (congrArg Main.notify hm))
      | locked => exact absurd hheard' (not_heard_of_locked (congrArg Main.notify hm))
  | unlockCallback hcallback =>
    rintro (hc | hheard')
    · cases hc
    · exact hheard (hheard'.of_main nofun rfl)
  | lock hmain =>
    rintro (hc | hheard')
    · exact hhandled hc
    · exact not_heard_of_locked rfl hheard'
  | wait hmain =>
    rintro (hc | hheard')
    · exact hhandled hc
    -- the callback cannot be at its notification, as the caller had the mutex
    · rcases hheard' with hm | hm | hm | ⟨-, hc⟩
      · cases hm
      · cases hm
      · cases hm
      · exact hs ⟨congrArg Main.holds hmain, congrArg Callback.holds hc⟩
  | relock hmain => exact absurd (.inl hmain) hheard
  | close hmain => exact absurd (.inr (.inl hmain)) hheard

/-- Towards a return there is always a step. -/
theorem exists_step_of_mayHear (handle : μ → δ → Except ε δ) (h : s.MayHear)
    (hne : s.main ≠ .returned) : ∃ l t, Quiet s l ∧ Step handle s l t ∧ t.MayHear := by
  have hlater (hcallback : s.callback ≠ .handled) : s.Heard := h.resolve_left hcallback
  cases hcallback : s.callback with
  | locked =>
    exact ⟨.notify, _, trivial, .notify hcallback,
      .inr (hlater (by rw [hcallback]; decide)).notify⟩
  | notified =>
    have hheard := hlater (by rw [hcallback]; decide)
    exact ⟨.unlockCallback, _, trivial, .unlockCallback hcallback,
      .inr (hheard.of_main (by rw [hcallback]; decide) rfl)⟩
  | handled =>
    have hc : s.callback.holds = false := congrArg Callback.holds hcallback
    cases hm : s.main with
    | requested =>
      exact ⟨.lock, _, trivial, .lock hm ⟨congrArg Main.holds hm, hc⟩, .inl hcallback⟩
    | locked => exact ⟨.wait, _, trivial, .wait hm, .inl hcallback⟩
    | waiting =>
      exact ⟨.lockCallback, _, trivial, .lockCallback hne hcallback ⟨congrArg Main.holds hm, hc⟩,
        .inr (.inr (.inr (.inr ⟨hm, rfl⟩)))⟩
    | woken =>
      exact ⟨.relock, _, trivial, .relock hm ⟨congrArg Main.holds hm, hc⟩, .inl hcallback⟩
    | passed => exact ⟨.close, _, trivial, .close hm, .inl hcallback⟩
    | returned => exact absurd hm hne
  | idle =>
    have hc : s.callback.holds = false := congrArg Callback.holds hcallback
    rcases hlater (by rw [hcallback]; decide) with hm | hm | hm | ⟨-, hm⟩
    · exact ⟨.relock, _, trivial, .relock hm ⟨congrArg Main.holds hm, hc⟩,
        .inr (.inr (.inl rfl))⟩
    · exact ⟨.close, _, trivial, .close hm, .inr (.inr (.inr (.inl rfl)))⟩
    · exact absurd hm hne
    · cases hcallback.symm.trans hm

end Waiting

/-! ### Whole runs -/

section

variable {handle : μ → δ → Except ε δ} {d : δ} {s t : Waiting δ} {ls : List (WaitLabel μ)}

theorem exclusive_of_reachable (hs : (waitSystem handle d).Reachable s) : s.Exclusive := by
  have hinv : (waitSystem handle d).IsInvariant Waiting.Exclusive := by
    refine ⟨?_, fun s l t hs _ hstep ↦ hstep.exclusive hs⟩
    rintro _ rfl ⟨hm, -⟩
    cases hm
  exact hinv.of_reachable hs

theorem willHear_of_run (hs : s.WillHear) (hrun : (waitSystem handle d).RunIf Quiet s ls t) :
    t.WillHear := by
  have hkeep : (waitSystem handle d).Preserves Quiet Waiting.WillHear :=
    fun s l t hs hl hstep ↦ Waiting.Step.willHear hl hs hstep
  exact hkeep.of_run hs hrun

/-- Both has left a state in which nobody will notify: nothing but another message helps. -/
theorem preserves_lost : (waitSystem handle d).Preserves Quiet
    fun s ↦ s.Exclusive ∧ ¬ s.MayHear :=
  fun _ _ _ hs hl hstep ↦ ⟨hstep.exclusive hs.1, hstep.not_mayHear hl hs.1 hs.2⟩

theorem Waiting.WillHear.mayHear (h : s.WillHear) : s.MayHear :=
  h.imp_left And.left

theorem mayReturn_iff (hs : s.Exclusive) : MayReturn handle d s ↔ s.MayHear := by
  constructor
  · rintro ⟨ls, t, hrun, ht⟩
    by_contra hlost
    exact (preserves_lost.of_run ⟨hs, hlost⟩ hrun).2 (.inr (.inr (.inr (.inl ht))))
  · intro hmay
    obtain ⟨ls, t, hrun, -, ht⟩ := TransitionSystem.exists_runIf_of_rank (S := waitSystem handle d)
      (C := Quiet) (P := Waiting.MayHear) (Q := fun t ↦ t.main = .returned) Waiting.left
      (fun s hs hne ↦ by
        obtain ⟨l, t, hl, hstep, ht⟩ := Waiting.exists_step_of_mayHear handle hs hne
        exact ⟨l, t, hl, hstep, ht, hstep.left_lt hl⟩) hmay
    exact ⟨ls, t, hrun, ht⟩

/-- From a state in which nobody will notify the two come to rest, and the caller has not
returned. -/
theorem exists_settled (hs : s.Exclusive) (hlost : ¬ s.MayHear) :
    ∃ ls t, (waitSystem handle d).RunIf Quiet s ls t ∧ Settled handle d t ∧
      t.main ≠ .returned := by
  obtain ⟨ls, t, hrun, ht, hsettled⟩ := TransitionSystem.exists_runIf_of_rank
    (S := waitSystem handle d) (C := Quiet) (P := fun s ↦ s.Exclusive ∧ ¬ s.MayHear)
    (Q := Settled handle d) Waiting.left
    (fun s hs hmoves ↦ by
      unfold Settled at hmoves
      push Not at hmoves
      obtain ⟨l, t, hl, hstep⟩ := hmoves
      exact ⟨l, t, hl, hstep, preserves_lost s l t hs hl hstep, Waiting.Step.left_lt hl hstep⟩)
    ⟨hs, hlost⟩
  exact ⟨ls, t, hrun, hsettled, fun hm ↦ ht.2 (.inr (.inr (.inr (.inl hm))))⟩

theorem willReturn_iff (hs : s.Exclusive) : WillReturn handle d s ↔ s.WillHear := by
  constructor
  · intro hall
    by_contra hnot
    by_cases hmay : s.MayHear
    · -- the callback takes the mutex first, and its notification is lost
      obtain ⟨hnot, hheard⟩ := not_or.1 hnot
      have hcallback : s.callback = .handled := hmay.resolve_right hheard
      have hmain : s.main = .requested := by
        by_contra hne
        exact hnot ⟨hcallback, hne⟩
      have hfree : s.Free := ⟨congrArg Main.holds hmain, congrArg Callback.holds hcallback⟩
      have hstep : (waitSystem handle d).step s .lockCallback { s with callback := .locked } :=
        .lockCallback (by rw [hmain]; decide) hcallback hfree
      obtain ⟨ls, t, hrun, hsettled, ht⟩ := @exists_settled _ _ _ handle d _
        (hstep.exclusive hs) (by
          rintro (hc | hheard')
          · cases hc
          · exact Waiting.not_heard_of_requested (by exact hmain) hheard')
      have hquiet : Quiet s (.lockCallback : WaitLabel μ) := trivial
      exact ht (hall _ t (.cons hquiet hstep hrun) hsettled)
    · obtain ⟨ls, t, hrun, hsettled, ht⟩ := @exists_settled _ _ _ handle d _ hs hmay
      exact ht (hall ls t hrun hsettled)
  · intro hwill ls t hrun hsettled
    by_contra hne
    obtain ⟨l, u, hl, hstep, -⟩ :=
      Waiting.exists_step_of_mayHear handle (willHear_of_run hwill hrun).mayHear hne
    exact hsettled l u hl hstep

/-- **Who returns without another message**: the caller may if it has been notified behind its wait,
or a callback has yet to take the mutex, and it does whoever comes first if moreover it has taken
the mutex before that callback. A message that has been handled by then does not help it. -/
theorem returns_iff (hs : (waitSystem handle d).Reachable s) :
    (MayReturn handle d s ↔ s.MayHear) ∧ (WillReturn handle d s ↔ s.WillHear) :=
  ⟨mayReturn_iff (exclusive_of_reachable hs), willReturn_iff (exclusive_of_reachable hs)⟩

end

theorem suidEvent_accelStream : suidEvent QshPb.proto accelStream [] = .ok [⟨1, 2⟩] := by
  rfl

/-- `getSuid` with an empty list. -/
abbrev getSuidSystem : TransitionSystem (Waiting (List Suid)) (WaitLabel PbIstream) :=
  waitSystem (suidEvent QshPb.proto) []

/-- The caller waits, and the one message has been handled before. -/
theorem reachable_early : getSuidSystem.Reachable ⟨.waiting, .idle, [⟨1, 2⟩]⟩ := by
  have hreceive : getSuidSystem.step (.start []) (.receive accelStream)
      ⟨.requested, .handled, [⟨1, 2⟩]⟩ := .receive (by decide) rfl suidEvent_accelStream
  have hlockCallback : getSuidSystem.step ⟨.requested, .handled, [⟨1, 2⟩]⟩ .lockCallback
      ⟨.requested, .locked, [⟨1, 2⟩]⟩ := .lockCallback (by decide) rfl ⟨rfl, rfl⟩
  have hnotify : getSuidSystem.step ⟨.requested, .locked, [⟨1, 2⟩]⟩ .notify
      ⟨.requested, .notified, [⟨1, 2⟩]⟩ := .notify rfl
  have hunlock : getSuidSystem.step ⟨.requested, .notified, [⟨1, 2⟩]⟩ .unlockCallback
      ⟨.requested, .idle, [⟨1, 2⟩]⟩ := .unlockCallback rfl
  have hlock : getSuidSystem.step ⟨.requested, .idle, [⟨1, 2⟩]⟩ .lock
      ⟨.locked, .idle, [⟨1, 2⟩]⟩ := .lock rfl ⟨rfl, rfl⟩
  have hwait : getSuidSystem.step ⟨.locked, .idle, [⟨1, 2⟩]⟩ .wait
      ⟨.waiting, .idle, [⟨1, 2⟩]⟩ := .wait rfl
  exact ⟨_, _, rfl, .cons trivial hreceive (.cons trivial hlockCallback (.cons trivial hnotify
    (.cons trivial hunlock (.cons trivial hlock (.single trivial hwait)))))⟩

/-- It never returns without another. -/
theorem returns_iff_early :
    ¬ MayReturn (suidEvent QshPb.proto) [] ⟨.waiting, .idle, [⟨1, 2⟩]⟩ := by
  rw [(returns_iff reachable_early).1]
  rintro (hc | hm | hm | hm | ⟨-, hc⟩)
  · cases hc
  · cases hm
  · cases hm
  · cases hm
  · cases hc

/-! ### What has come of it -/

section

variable {handle : μ → δ → Except ε δ} {d : δ} {t : Waiting δ} {ls : List (WaitLabel μ)}

end

end SensingHub.Client
