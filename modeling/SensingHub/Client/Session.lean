import Mathlib.Logic.Function.Basic
import SensingHub.Client.Request
import SensingHub.Lib.Interaction

/-!
# Sessions

The interface `ISession` and the factory that makes its instances, as operations of programs. A
session is known by a handle, which is not used twice. The contract is what the documentation of the
interface asks of clients: a session is opened once, callbacks and requests are for sessions that
are open, and a request is for a sensor for which callbacks have been set and says so itself.

That a session is closed before it is deleted is not part of that: the state tells whether it was,
so that it can be said when.
-/

namespace SensingHub.Client

open Discovery (Suid)

/-- A session. -/
abbrev Handle := ℕ

/-- The operations. -/
inductive Op
  /-- `sessionFactory::getSession` -/
  | getSession (hubId : ℤ)
  /-- `ISession::open` -/
  | openSession (h : Handle)
  /-- `ISession::setCallBacks`, at least one of the callbacks not being null. -/
  | setCallBacks (h : Handle) (suid : Suid)
  /-- `ISession::sendRequest` -/
  | sendRequest (h : Handle) (suid : Suid) (message : Bytes)
  /-- `ISession::close` -/
  | closeSession (h : Handle)
  /-- `ISession::~ISession` -/
  | deleteSession (h : Handle)
  /-- Wait on a condition variable. -/
  | wait
  /-- `sleep` -/
  | sleep
  /-- `std::terminate`, for an exception that is not caught. -/
  | terminate
  deriving DecidableEq, Repr

/-- What the operations return. `getSession` may throw. -/
abbrev Ans : Op → Type
  | .getSession _ => Except Unit (Option Handle)
  | .openSession _ | .setCallBacks _ _ | .sendRequest _ _ _ => ℤ
  | .closeSession _ | .deleteSession _ | .wait | .sleep => Unit
  | .terminate => Empty

/-- Programs that use sessions. -/
abbrev SessionM :=
  Interaction Op Ans

namespace Op

/-! The operations as programs. -/

abbrev callGetSession (hubId : ℤ) : SessionM (Except Unit (Option Handle)) :=
  Interaction.perform (getSession hubId)

abbrev callOpen (h : Handle) : SessionM ℤ :=
  Interaction.perform (openSession h)

abbrev callSetCallBacks (h : Handle) (suid : Suid) : SessionM ℤ :=
  Interaction.perform (setCallBacks h suid)

abbrev callSendRequest (h : Handle) (suid : Suid) (message : Bytes) : SessionM ℤ :=
  Interaction.perform (sendRequest h suid message)

abbrev callClose (h : Handle) : SessionM Unit :=
  Interaction.perform (closeSession h)

abbrev callDelete (h : Handle) : SessionM Unit :=
  Interaction.perform (deleteSession h)

abbrev callWait : SessionM Unit :=
  Interaction.perform wait

abbrev callSleep : SessionM Unit :=
  Interaction.perform sleep

abbrev callTerminate : SessionM Empty :=
  Interaction.perform terminate

end Op

/-- What has become of a session. -/
inductive Status
  | absent
  | created
  /-- `open` has failed. -/
  | failed
  | opened
  | closed
  /-- `leaked` if it was still open. -/
  | deleted (leaked : Bool)
  deriving DecidableEq, Repr

/-- The sessions, the sensors for which they have callbacks, the requests that have been sent on
them, and whether one has been refused. -/
structure Sessions where
  status : Handle → Status
  registered : Handle → List Suid
  sent : Handle → List (Suid × Bytes)
  refused : Bool

namespace Sessions

/-- With another status of a session. -/
def setStatus (s : Sessions) (h : Handle) (x : Status) : Sessions :=
  { s with status := Function.update s.status h x }

@[simp] theorem status_setStatus (s : Sessions) (h : Handle) (x : Status) :
    (s.setStatus h x).status h = x :=
  Function.update_self (β := fun _ ↦ Status) h x s.status

theorem status_setStatus_of_ne {s : Sessions} {h h' : Handle} (hne : h' ≠ h) (x : Status) :
    (s.setStatus h x).status h' = s.status h' :=
  Function.update_of_ne (β := fun _ ↦ Status) hne x s.status

/-- With callbacks for one more sensor. -/
def register (s : Sessions) (h : Handle) (suid : Suid) : Sessions :=
  { s with registered := Function.update s.registered h (suid :: s.registered h) }

@[simp] theorem registered_register (s : Sessions) (h : Handle) (suid : Suid) :
    (s.register h suid).registered h = suid :: s.registered h :=
  Function.update_self h _ s.registered

/-- With one more request, and what it was answered. -/
def send (s : Sessions) (h : Handle) (suid : Suid) (message : Bytes) (ret : ℤ) : Sessions :=
  { s with
    sent := Function.update s.sent h (s.sent h ++ [(suid, message)])
    refused := s.refused || decide (ret ≠ 0) }

@[simp] theorem sent_send (s : Sessions) (h : Handle) (suid : Suid) (message : Bytes) (ret : ℤ) :
    (s.send h suid message ret).sent h = s.sent h ++ [(suid, message)] :=
  Function.update_self (β := fun _ ↦ List (Suid × Bytes)) h _ s.sent

end Sessions

/-- The message is a request for the sensor. -/
def IsRequestFor (suid : Suid) (message : Bytes) : Prop :=
  ∃ r, decodeRequestMsg message = some r ∧ r.suid = suid

/-- What the interface asks of its clients, and what it promises them. -/
def sessionContract : Contract Op Ans Sessions where
  allows s
    | .openSession h => s.status h = .created
    | .setCallBacks h _ => s.status h = .opened
    | .sendRequest h suid message =>
      s.status h = .opened ∧ suid ∈ s.registered h ∧ IsRequestFor suid message
    | .closeSession h => s.status h = .opened
    | .deleteSession h => s.status h ≠ .absent ∧ ∀ leaked, s.status h ≠ .deleted leaked
    | .getSession _ | .wait | .sleep | .terminate => True
  answers s
    | .getSession _, r => ∀ h, r = .ok (some h) → s.status h = .absent
    | .openSession _, r | .setCallBacks _ _, r | .sendRequest _ _ _, r => r = 0 ∨ r = -1
    | .closeSession _, _ | .deleteSession _, _ | .wait, _ | .sleep, _ | .terminate, _ => True
  next s
    | .getSession _, .ok (some h) => s.setStatus h .created
    | .getSession _, .ok none | .getSession _, .error _ => s
    | .openSession h, r => s.setStatus h (if r = 0 then .opened else .failed)
    | .setCallBacks h suid, _ => s.register h suid
    | .sendRequest h suid message, r => s.send h suid message r
    | .closeSession h, _ => s.setStatus h .closed
    | .deleteSession h, _ => s.setStatus h (.deleted (s.status h = .opened))
    | .wait, _ | .sleep, _ | .terminate, _ => s

/-! ### Rules -/

section

variable {α : Type} {Q : α → Sessions → Prop} {s : Sessions} {h : Handle} {suid : Suid}

theorem wp_getSession {hubId : ℤ} {f : Except Unit (Option Handle) → SessionM α}
    (hsome : ∀ h, s.status h = .absent →
      sessionContract.wp (f (.ok (some h))) Q (s.setStatus h .created))
    (hnone : sessionContract.wp (f (.ok none)) Q s)
    (herror : ∀ e, sessionContract.wp (f (.error e)) Q s) :
    sessionContract.wp (Op.callGetSession hubId >>= f) Q s := by
  refine Contract.wp_perform trivial fun r hr ↦ ?_
  rcases r with e | _ | h
  · exact herror e
  · exact hnone
  · exact hsome h (hr h rfl)

theorem wp_open {f : ℤ → SessionM α} (hstatus : s.status h = .created)
    (hopen : sessionContract.wp (f 0) Q (s.setStatus h .opened))
    (hfail : sessionContract.wp (f (-1)) Q (s.setStatus h .failed)) :
    sessionContract.wp (Op.callOpen h >>= f) Q s := by
  refine Contract.wp_perform hstatus fun r hr ↦ ?_
  rcases hr with rfl | rfl
  · exact hopen
  · exact hfail

theorem wp_setCallBacks {f : ℤ → SessionM α} (hstatus : s.status h = .opened)
    (hset : ∀ r, r = 0 ∨ r = -1 → sessionContract.wp (f r) Q (s.register h suid)) :
    sessionContract.wp (Op.callSetCallBacks h suid >>= f) Q s :=
  Contract.wp_perform hstatus hset

theorem wp_sendRequest {message : Bytes} {f : ℤ → SessionM α} (hstatus : s.status h = .opened)
    (hregistered : suid ∈ s.registered h) (hmessage : IsRequestFor suid message)
    (hsent : sessionContract.wp (f 0) Q (s.send h suid message 0))
    (hrefused : sessionContract.wp (f (-1)) Q (s.send h suid message (-1))) :
    sessionContract.wp (Op.callSendRequest h suid message >>= f) Q s := by
  refine Contract.wp_perform ⟨hstatus, hregistered, hmessage⟩ fun r hr ↦ ?_
  rcases hr with rfl | rfl
  · exact hsent
  · exact hrefused

theorem wp_close {f : Unit → SessionM α} (hstatus : s.status h = .opened)
    (hclose : sessionContract.wp (f ()) Q (s.setStatus h .closed)) :
    sessionContract.wp (Op.callClose h >>= f) Q s :=
  Contract.wp_perform hstatus fun _ _ ↦ hclose

theorem wp_delete {f : Unit → SessionM α} (habsent : s.status h ≠ .absent)
    (hdeleted : ∀ leaked, s.status h ≠ .deleted leaked)
    (hdelete : sessionContract.wp (f ()) Q (s.setStatus h (.deleted (s.status h = .opened)))) :
    sessionContract.wp (Op.callDelete h >>= f) Q s :=
  Contract.wp_perform ⟨habsent, hdeleted⟩ fun _ _ ↦ hdelete

theorem wp_wait {f : Unit → SessionM α} (hwait : sessionContract.wp (f ()) Q s) :
    sessionContract.wp (Op.callWait >>= f) Q s :=
  Contract.wp_perform trivial fun _ _ ↦ hwait

theorem wp_sleep {f : Unit → SessionM α} (hsleep : sessionContract.wp (f ()) Q s) :
    sessionContract.wp (Op.callSleep >>= f) Q s :=
  Contract.wp_perform trivial fun _ _ ↦ hsleep

theorem wp_terminate {f : Empty → SessionM α} :
    sessionContract.wp (Op.callTerminate >>= f) Q s :=
  Contract.wp_perform trivial fun r _ ↦ r.elim

end

end SensingHub.Client
