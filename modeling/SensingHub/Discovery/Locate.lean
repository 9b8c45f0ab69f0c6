import SensingHub.Discovery.Messages
import SensingHub.Lib.TransitionSystem
import SensingHub.Lib.Wire

/-!
# Waiting for discovery

A call of `lookUp` and the session that delivers messages to the `suidLookUp` it has created, as one
transition system. The session's thread takes a message when it is done with the one before and then
makes the calls of `onSuidsAvailable` for it one after another, each a region of its own; the waiter
tests `mLookupDone` under the lock and else waits, from which it is woken, spuriously or not, or
comes back with a timeout. Its steps interleave with those of the session at will.

The end of discovery never arrives: `handleQshEvent` holds back the calls with the data type that
stands for it, and `onSuidsAvailable` waits for one. So `mLookupDone` stays as it is, and `lookUp`
ends with the timeout.
-/

namespace SensingHub.Discovery

/-! ### The system -/

/-- Where the caller of `lookUp` is. -/
inductive Waiter
  /-- At `while (!mLookupDone)`. -/
  | testing
  /-- In `mConditionVar.wait_until(lk, then)`. -/
  | waiting
  /-- Returned with `mLookupDone` set. -/
  | released
  /-- Returned after the timeout. -/
  | timedOut
  deriving DecidableEq, Repr

/-- The `locate` object, the `suidLookUp`, the calls of `mEventCb` that are left of the message
being handled, and the caller of `lookUp`. -/
structure State where
  locate : Locate
  lookup : SuidLookUp
  pending : List EventCb
  waiter : Waiter
  deriving DecidableEq, Repr

/-- The steps of the system. -/
inductive Label
  | receive (msg : Bytes)
  | callBack
  | test
  | wake
  | timeout

/-- The state in which `lookUp` comes to wait. A null pointer gets a list, and with `mLookupDone`
set `lookUp` returns at once. -/
def Locate.lookUp (l : Locate) : State where
  locate := { l with mSuids := some (l.mSuids.getD []) }
  lookup := ⟨true⟩
  pending := []
  waiter := if l.mLookupDone then .released else .testing

/-- The step relation. -/
def Step (pb : Nanopb) (s : State) : Label → State → Prop
  | .receive msg, t =>
    s.pending = [] ∧ (s.waiter = .testing ∨ s.waiter = .waiting) ∧
      ∃ lookup cbs, s.lookup.handleQshEvent pb msg = .ok (lookup, cbs) ∧
        t = { s with lookup := lookup, pending := cbs }
  | .callBack, t =>
    ∃ cb cbs, s.pending = cb :: cbs ∧
      t = { s with locate := s.locate.onSuidsAvailable cb.datatype cb.suids, pending := cbs }
  | .test, t =>
    s.waiter = .testing ∧
      t = { s with waiter := if s.locate.mLookupDone then .released else .waiting }
  | .wake, t => s.waiter = .waiting ∧ t = { s with waiter := .testing }
  | .timeout, t => s.waiter = .waiting ∧ t = { s with waiter := .timedOut }

/-- A call of `lookUp` on the object `l`. -/
def system (pb : Nanopb) (l : Locate) : TransitionSystem State Label where
  init s := s = l.lookUp
  step := Step pb

/-- The messages received in a run. -/
def received (ls : List Label) : List Bytes :=
  ls.filterMap fun
    | .receive msg => some msg
    | _ => none

/-! ### What should come of it -/

/-- The list of ids of an event. -/
def Event.suids? : Event → Option (List Suid)
  | .suidEvent _ suids => some suids
  | .discoveryDone => none

/-- The last list of ids among some events. -/
def lastSuids (events : List Event) (before : List Suid) : List Suid :=
  (events.filterMap Event.suids?).getLast?.getD before

theorem lastSuids_cons (dataType : Bytes) (suids : List Suid) (events : List Event)
    (before : List Suid) :
    lastSuids (.suidEvent dataType suids :: events) before = lastSuids events suids := by
  rw [lastSuids, List.filterMap_cons_some (by rfl), List.getLast?_cons]
  rfl

/-- Discovery is noted exactly if it is done, and the last list is the one that is kept. -/
structure Located (l : Locate) (events : List Event) (l' : Locate) : Prop where
  done : l'.mLookupDone = true ↔ Event.discoveryDone ∈ events
  suids : l'.mSuids = some (lastSuids events (l.mSuids.getD []))

/-! ### What comes of it -/

/-- A call of `onSuidsAvailable` with the arguments of a call of `mEventCb`. -/
def Locate.deliver (l : Locate) (cb : EventCb) : Locate :=
  l.onSuidsAvailable cb.datatype cb.suids

/-- The event is not held back. -/
def Event.Ordinary (e : Event) : Prop :=
  e.entry.datatype ≠ discoveryDoneType

instance : DecidablePred Event.Ordinary := fun _ ↦ inferInstanceAs (Decidable (_ ≠ _))

theorem foldl_copy (suids v : List Suid) :
    suids.foldl (fun v s ↦ v ++ [⟨s.low, s.high⟩]) v = v ++ suids := by
  induction suids generalizing v with
  | nil => simp
  | cons s suids ih =>
    rw [List.foldl_cons, ih]
    simp

/-- A call with a data type other than the special one replaces the list. -/
theorem deliver_ordinary {l : Locate} {cb : EventCb} (h : cb.datatype ≠ discoveryDoneType)
    {v : List Suid} (hl : l.mSuids = some v) :
    l.deliver cb = { l with mSuids := some cb.suids } := by
  rw [Locate.deliver, Locate.onSuidsAvailable, if_neg h, hl]
  simp only [foldl_copy, List.nil_append]

/-- The calls for some events leave the last list that is not held back. -/
theorem deliver_events (events : List Event) {l : Locate} {v : List Suid}
    (hl : l.mSuids = some v) :
    (events.filterMap Event.eventCb).foldl Locate.deliver l =
      { l with mSuids := some (lastSuids (events.filter Event.Ordinary) v) } := by
  induction events generalizing l v with
  | nil =>
    rw [List.filterMap_nil, List.foldl_nil, List.filter_nil, lastSuids, List.filterMap_nil,
      List.getLast?_nil, Option.getD_none, ← hl]
  | cons e events ih =>
    by_cases h : e.entry.datatype = discoveryDoneType
    · have hcb : e.eventCb = none := by rw [Event.eventCb, if_neg (not_not_intro h)]
      have hheld : ¬ (decide e.Ordinary = true) := fun he ↦ of_decide_eq_true he h
      rw [List.filterMap_cons_none hcb, ih hl, List.filter_cons, if_neg hheld]
    · have hcb : e.eventCb = some e.entry := by rw [Event.eventCb, if_pos h]
      have hkept : decide e.Ordinary = true := decide_eq_true h
      rw [List.filterMap_cons_some hcb, List.foldl_cons, deliver_ordinary h hl,
        ih (l := { l with mSuids := some e.entry.suids }) (v := e.entry.suids) rfl,
        List.filter_cons, if_pos hkept]
      cases e with
      | discoveryDone => exact absurd rfl h
      | suidEvent dataType suids => rw [lastSuids_cons, Event.entry]

/-! ### Runs -/

section

variable {pb : Nanopb} {l : Locate} {s t : State} {ls : List Label}

/-- The calls that `handleQshEvent` makes for a message. -/
def Nanopb.CallsBack (pb : Nanopb) (msg : Bytes) (cbs : List EventCb) : Prop :=
  ∃ self lookup, SuidLookUp.handleQshEvent pb self msg = .ok (lookup, cbs)

/-- **In a run the object holds what the calls for the messages received so far make of it**, but
for the calls that are pending. -/
theorem run_deliver (hrun : (system pb l).Run s ls t) (hs : s.pending = []) :
    ∃ cbss made, List.Forall₂ pb.CallsBack (received ls) cbss ∧
      cbss.flatten = made ++ t.pending ∧ t.locate = made.foldl Locate.deliver s.locate := by
  induction hrun with
  | nil => exact ⟨[], [], .nil, by rw [hs]; rfl, rfl⟩
  | @snoc t u ls label _ _ hstep ih =>
    obtain ⟨cbss, made, hreceived, hflat, hlocate⟩ := ih
    have happend : received (ls ++ [label]) = received ls ++ received [label] :=
      List.filterMap_append
    rw [happend]
    cases label with
    -- a message is taken only when no call is pending, so its calls are the last ones
    | receive msg =>
      obtain ⟨hpending, -, lookup, cbs, hhandle, rfl⟩ := hstep
      rw [hpending, List.append_nil] at hflat
      refine ⟨cbss ++ [cbs], made, List.rel_append hreceived (.cons ⟨_, _, hhandle⟩ .nil), ?_,
        hlocate⟩
      rw [List.flatten_append, hflat]
      simp
    | callBack =>
      obtain ⟨cb, cbs, hpending, rfl⟩ := hstep
      rw [show received [Label.callBack] = [] from rfl, List.append_nil]
      refine ⟨cbss, made ++ [cb], hreceived, ?_, ?_⟩
      · rw [hflat, hpending]
        simp
      · rw [List.foldl_append, ← hlocate]
        rfl
    | test =>
      obtain ⟨-, rfl⟩ := hstep
      rw [show received [Label.test] = [] from rfl, List.append_nil]
      exact ⟨cbss, made, hreceived, hflat, hlocate⟩
    | wake =>
      obtain ⟨-, rfl⟩ := hstep
      rw [show received [Label.wake] = [] from rfl, List.append_nil]
      exact ⟨cbss, made, hreceived, hflat, hlocate⟩
    | timeout =>
      obtain ⟨-, rfl⟩ := hstep
      rw [show received [Label.timeout] = [] from rfl, List.append_nil]
      exact ⟨cbss, made, hreceived, hflat, hlocate⟩

/-- The calls for well-formed messages. -/
theorem callsBack_messages {msgs : List Bytes} {cbss : List (List EventCb)}
    {messages : List (List Event)} (hcbss : List.Forall₂ pb.CallsBack msgs cbss)
    (hmessages : List.Forall₂ pb.IsMessage msgs messages) :
    cbss.flatten = messages.flatten.filterMap Event.eventCb := by
  induction hcbss generalizing messages with
  | nil =>
    cases hmessages
    rfl
  | cons hcb _ ih =>
    cases hmessages with
    | cons hmessage hmessages =>
      obtain ⟨self, lookup, hhandle⟩ := hcb
      rw [handleQshEvent_message hmessage] at hhandle
      cases hhandle
      rw [List.flatten_cons, List.flatten_cons, List.filterMap_append, ih hmessages]

/-- What a run that has made all its calls leaves: the last list that was not held back, and
`mLookupDone` as it was. -/
theorem run_locate (hrun : (system pb l).Run l.lookUp ls t) (hpending : t.pending = [])
    {messages : List (List Event)}
    (hmessages : List.Forall₂ pb.IsMessage (received ls) messages) :
    t.locate = ⟨some (lastSuids (messages.flatten.filter Event.Ordinary) (l.mSuids.getD [])),
      l.mLookupDone⟩ := by
  obtain ⟨cbss, made, hcbss, hflat, hlocate⟩ := run_deliver hrun rfl
  rw [hpending, List.append_nil, callsBack_messages hcbss hmessages] at hflat
  rw [hlocate, ← hflat]
  exact deliver_events messages.flatten (l := l.lookUp.locate) rfl

/-- **Discovery comes out right exactly if no event says that it is done** and the last list of ids
is also the last one that is not held back. -/
theorem located_iff (hl : l.mLookupDone = false) (hrun : (system pb l).Run l.lookUp ls t)
    (hpending : t.pending = []) {messages : List (List Event)}
    (hmessages : List.Forall₂ pb.IsMessage (received ls) messages) :
    Located l messages.flatten t.locate ↔
      Event.discoveryDone ∉ messages.flatten ∧
        lastSuids (messages.flatten.filter Event.Ordinary) (l.mSuids.getD []) =
          lastSuids messages.flatten (l.mSuids.getD []) := by
  rw [run_locate hrun hpending hmessages, hl]
  constructor
  · rintro ⟨hdone, hsuids⟩
    exact ⟨fun h ↦ (by cases hdone.2 h), Option.some.inj hsuids⟩
  · rintro ⟨hdone, hsuids⟩
    exact ⟨⟨fun h ↦ (by cases h), fun h ↦ absurd h hdone⟩, congrArg some hsuids⟩

/-- No call is made with the special data type. -/
theorem datatype_of_handleQshEvent {self lookup : SuidLookUp} {msg : Bytes} {cbs : List EventCb}
    (h : self.handleQshEvent pb msg = .ok (lookup, cbs)) :
    ∀ cb ∈ cbs, cb.datatype ≠ discoveryDoneType := by
  unfold SuidLookUp.handleQshEvent at h
  generalize (if self.mSetThreadName then { self with mSetThreadName := false } else self) = self'
    at h
  dsimp only at h
  intro cb hcb
  split at h
  · cases h
  · split_ifs at h <;> cases h
    · exact of_decide_eq_true (List.mem_filter.1 hcb).2
    · cases hcb

/-- No run sets `mLookupDone`, whatever the messages are. -/
theorem isInvariant_not_done (hl : l.mLookupDone = false) :
    (system pb l).IsInvariant fun s ↦ s.locate.mLookupDone = false ∧ s.waiter ≠ .released ∧
      ∀ cb ∈ s.pending, cb.datatype ≠ discoveryDoneType where
  init s hs := by
    subst hs
    refine ⟨hl, ?_, fun cb hcb ↦ by cases hcb⟩
    simp [Locate.lookUp, hl]
  step s label t hs _ hstep := by
    obtain ⟨hdone, hwaiter, hpending⟩ := hs
    cases label with
    | receive msg =>
      obtain ⟨-, -, lookup, cbs, hhandle, rfl⟩ := hstep
      exact ⟨hdone, hwaiter, datatype_of_handleQshEvent hhandle⟩
    | callBack =>
      obtain ⟨cb, cbs, hcbs, rfl⟩ := hstep
      rw [hcbs] at hpending
      refine ⟨?_, hwaiter, fun cb' hcb' ↦ hpending cb' (List.mem_cons_of_mem _ hcb')⟩
      dsimp only
      rw [Locate.onSuidsAvailable, if_neg (hpending cb (List.mem_cons_self ..))]
      split <;> exact hdone
    | test =>
      obtain ⟨-, rfl⟩ := hstep
      refine ⟨hdone, ?_, hpending⟩
      simp [hdone]
    | wake =>
      obtain ⟨-, rfl⟩ := hstep
      exact ⟨hdone, by simp, hpending⟩
    | timeout =>
      obtain ⟨-, rfl⟩ := hstep
      exact ⟨hdone, by simp, hpending⟩

/-- **`lookUp` is never released**: it only ever returns after its timeout. -/
theorem not_released (hl : l.mLookupDone = false) (hreachable : (system pb l).Reachable s) :
    s.waiter ≠ .released :=
  ((isInvariant_not_done hl).of_reachable hreachable).2.1

end

/-! ### Two sessions -/

/-- The encoding of messages, as far as the two sessions need it. -/
def wire : Nanopb where
  clientEventMsg := Wire.decoding (fun x ↦
    match x.field with
    | ⟨2, .bytes b⟩ => [b]
    | _ => []) (fun _ ↦ true) [(1, 2)]
  clientEvent := Wire.decoding (fun x ↦
    match x.field with
    | ⟨1, .fixed32 v⟩ => [.msgId v]
    | ⟨3, .bytes b⟩ => [.payload b]
    | _ => []) (fun _ ↦ true) [(1, 5), (2, 1), (3, 2)]
  suidEvent := Wire.decoding (fun x ↦
    match x.field with
    | ⟨1, .bytes b⟩ => [.dataType b]
    | ⟨2, .bytes b⟩ => [.suid b]
    | _ => []) (fun _ ↦ true) [(1, 2)]
  stdSuid := Wire.decoding (fun x ↦
    match x.field with
    | ⟨1, .fixed64 v⟩ => [.suidLow v]
    | ⟨2, .fixed64 v⟩ => [.suidHigh v]
    | _ => []) (fun _ ↦ true) [(1, 1), (2, 1)]
  suidEvent_nil := rfl

/-- A field of bytes. -/
def bytesField (tag : UInt8) (b : Bytes) : Bytes :=
  tag :: UInt8.ofNat b.length :: b

/-- A number of eight bytes, the first being `b`. -/
def longBytes (b : UInt8) : Bytes :=
  b :: List.replicate 7 0

/-- An `sns_std_suid` with small numbers. -/
def suidBytes (low high : UInt8) : Bytes :=
  9 :: longBytes low ++ 17 :: longBytes high

/-- An `sns_client_event` whose id is `768 + b`. -/
def eventBytes (b : UInt8) (payload : Bytes) : Bytes :=
  13 :: [b, 3, 0, 0] ++ 17 :: longBytes 7 ++ bytesField 26 payload

/-- An `sns_client_event_msg` with one event. -/
def messageBytes (event : Bytes) : Bytes :=
  bytesField 10 (suidBytes 171 171) ++ bytesField 18 event

/-- The message with an `sns_suid_event` for one accelerometer. -/
def accelMessage : Bytes :=
  messageBytes (eventBytes 0 (bytesField 10 (CLib.str "accel" ++ [0]) ++
    bytesField 18 (suidBytes 1 2)))

/-- The message that says that discovery is done. -/
def doneMessage : Bytes :=
  messageBytes (eventBytes 1 [])

theorem isMessage_accelMessage :
    wire.IsMessage accelMessage [.suidEvent (CLib.str "accel") [⟨1, 2⟩]] := by
  refine ⟨by decide +kernel, ?_⟩
  have hfields : (wire.clientEventMsg accelMessage).fields =
      [eventBytes 0 (bytesField 10 (CLib.str "accel" ++ [0]) ++
        bytesField 18 (suidBytes 1 2))] := by
    decide +kernel
  have hsuids : (wire.suidEvent (bytesField 10 (CLib.str "accel" ++ [0]) ++
      bytesField 18 (suidBytes 1 2))).fields.filterMap SuidEventField.suid? = [suidBytes 1 2] := by
    decide +kernel
  rw [hfields]
  refine .cons ⟨by decide +kernel, by decide +kernel, bytesField 10 (CLib.str "accel" ++ [0]) ++
    bytesField 18 (suidBytes 1 2), by decide +kernel, by decide +kernel,
    ⟨CLib.str "accel" ++ [0], by decide +kernel, by decide +kernel⟩, ?_⟩ .nil
  rw [hsuids]
  exact .cons ⟨by decide +kernel, by decide +kernel, by decide +kernel⟩ .nil

theorem isMessage_doneMessage : wire.IsMessage doneMessage [.discoveryDone] := by
  refine ⟨by decide +kernel, ?_⟩
  have hfields : (wire.clientEventMsg doneMessage).fields = [eventBytes 1 []] := by
    decide +kernel
  rw [hfields]
  exact .cons ⟨by decide +kernel, by decide +kernel⟩ .nil

/-- The object before `lookUp`. -/
def unlocated : Locate :=
  ⟨some [], false⟩

/-- A session that delivers one list of ids. -/
theorem run_accelMessage :
    (system wire unlocated).Run unlocated.lookUp [.receive accelMessage, .callBack]
      ⟨⟨some [⟨1, 2⟩], false⟩, ⟨false⟩, [], .testing⟩ := by
  have hreceive : (system wire unlocated).Run unlocated.lookUp [.receive accelMessage]
      ⟨unlocated.lookUp.locate, ⟨false⟩, [⟨CLib.str "accel", [⟨1, 2⟩]⟩], .testing⟩ :=
    .single trivial ⟨rfl, Or.inl rfl, _, _,
      handleQshEvent_message isMessage_accelMessage _, by decide +kernel⟩
  exact hreceive.snoc trivial ⟨_, _, rfl, by decide +kernel⟩

theorem located_iff_accelMessage :
    Located unlocated [[.suidEvent (CLib.str "accel") [⟨1, 2⟩]]].flatten
        ⟨some [⟨1, 2⟩], false⟩ ↔
      Event.discoveryDone ∉ [[Event.suidEvent (CLib.str "accel") [⟨1, 2⟩]]].flatten ∧
        lastSuids ([[Event.suidEvent (CLib.str "accel") [⟨1, 2⟩]]].flatten.filter Event.Ordinary)
            (unlocated.mSuids.getD []) =
          lastSuids [[Event.suidEvent (CLib.str "accel") [⟨1, 2⟩]]].flatten
            (unlocated.mSuids.getD []) :=
  located_iff rfl run_accelMessage rfl (.cons isMessage_accelMessage .nil)

/-- A session that says that discovery is done is not noticed. -/
theorem not_located_doneMessage :
    ∃ t, (system wire unlocated).Run unlocated.lookUp [.receive doneMessage] t ∧
      wire.IsMessage doneMessage [.discoveryDone] ∧ t.pending = [] ∧
      ¬ Located unlocated [.discoveryDone] t.locate := by
  refine ⟨_, .single trivial ⟨rfl, Or.inl rfl, _, _,
    handleQshEvent_message isMessage_doneMessage _, rfl⟩, isMessage_doneMessage, rfl, ?_⟩
  exact fun h ↦ absurd (h.done.2 (List.mem_singleton_self _)) (by decide)

end SensingHub.Discovery
