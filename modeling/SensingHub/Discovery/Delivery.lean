import SensingHub.Discovery.Locate

/-!
# Messages with other events

A message may hold events that `suidLookUp` knows nothing of. `suid_decode_event` refuses them, and
with that the decoding of the message ends: the lists of ids in front of such an event are called
back for, those behind it are lost. A list is also lost when its data type happens to be the name
that stands for the end of discovery.
-/

namespace SensingHub.Discovery

/-! ### Events of any kind -/

/-- An event of a message: one that `suid_decode_event` knows, or one with another `msg_id`. -/
inductive AnyEvent
  | known (e : Event)
  | other (msgId : UInt32)
  deriving DecidableEq, Repr

/-- The bytes are those of an `sns_client_event`, with whatever payload if its `msg_id` is not that
of an `sns_suid_event`. -/
def Nanopb.IsAnyEvent (pb : Nanopb) (b : Bytes) : AnyEvent → Prop
  | .known e => pb.IsEvent b e
  | .other msgId =>
    (msgId ≠ SNS_SUID_MSGID_SNS_SUID_EVENT ∧
      msgId ≠ SNS_SUID_MSGID_SNS_SUID_DISCOVERY_DONE_EVENT) ∧
      (pb.clientEvent b).complete = true ∧
      (pb.clientEvent b).last ClientEventField.msgId? = some msgId

/-- The bytes are those of an `sns_client_event_msg` with any events. -/
structure Nanopb.IsAnyMessage (pb : Nanopb) (msg : Bytes) (events : List AnyEvent) : Prop where
  complete : (pb.clientEventMsg msg).complete = true
  events : List.Forall₂ pb.IsAnyEvent (pb.clientEventMsg msg).fields events

/-- The events in front of the first that is not known. -/
def knownEvents : List AnyEvent → List Event
  | .known e :: events => e :: knownEvents events
  | _ => []

/-! ### What should be called back for -/

/-- The list of ids that an event holds. -/
def AnyEvent.list? : AnyEvent → Option EventCb
  | .known (.suidEvent dataType suids) => some ⟨dataType, suids⟩
  | .known .discoveryDone | .other _ => none

/-- `handleQshEvent` calls back for every list of ids of a message, in order, and for nothing
else. -/
def Delivers (pb : Nanopb) (self : SuidLookUp) (msg : Bytes) (events : List AnyEvent) : Prop :=
  ∃ lookup, self.handleQshEvent pb msg = .ok (lookup, events.filterMap AnyEvent.list?)

/-- No list of ids stands behind an event that is not known, and none has the data type that stands
for the end of discovery. -/
inductive NoneLost : List AnyEvent → Prop
  | nil : NoneLost []
  | suidEvent {dataType : Bytes} {suids : List Suid} {events : List AnyEvent}
      (h : dataType ≠ discoveryDoneType) (hevents : NoneLost events) :
      NoneLost (.known (.suidEvent dataType suids) :: events)
  | discoveryDone {events : List AnyEvent} (hevents : NoneLost events) :
      NoneLost (.known .discoveryDone :: events)
  | other {msgId : UInt32} {events : List AnyEvent} (h : ∀ e ∈ events, e.list? = none) :
      NoneLost (.other msgId :: events)

/-! ### What is called back for -/

section

variable {pb : Nanopb}

/-- An event that is not known is refused. -/
theorem suidDecodeEvent_other {b : Bytes} {msgId : UInt32} (h : pb.IsAnyEvent b (.other msgId))
    (ctx : SuidDecodeContext) : suidDecodeEvent pb b ctx = (.ok false, ctx) := by
  obtain ⟨⟨hsuid, hdone⟩, hcomplete, hid⟩ := h
  rw [suidDecodeEvent, Prog.bind_ok (Prog.withLocal_ok (clientEvent_run hcomplete hid) ctx)]
  dsimp only
  rw [if_neg (by decide), if_neg hdone, if_neg hsuid]
  rfl

/-- The fields of a message are decoded up to the first that is refused. -/
theorem runFields_anyEvents {fields : List Bytes} {events : List AnyEvent}
    (h : List.Forall₂ pb.IsAnyEvent fields events) (complete : Bool) (ctx : SuidDecodeContext) :
    ∃ ok, Decoding.runFields (suidDecodeEvent pb) complete fields ctx =
      (.ok ok, (knownEvents events).foldl
        (fun ctx e ↦ ctx.push e.entry.datatype e.entry.suids) ctx) := by
  induction h generalizing ctx with
  | nil => exact ⟨complete, rfl⟩
  | @cons b e fields events hb _ ih =>
    cases e with
    | known e =>
      obtain ⟨ok, hok⟩ := ih (ctx.push e.entry.datatype e.entry.suids)
      refine ⟨ok, ?_⟩
      rw [Decoding.runFields_cons _ (suidDecodeEvent_run hb ctx), hok]
      rfl
    | other msgId =>
      refine ⟨false, ?_⟩
      rw [Decoding.runFields, Prog.bind_ok (suidDecodeEvent_other hb ctx)]
      rfl

/-- **A message is handled up to the first event that is not known.** -/
theorem handleQshEvent_anyMessage {msg : Bytes} {events : List AnyEvent}
    (h : pb.IsAnyMessage msg events) (self : SuidLookUp) :
    self.handleQshEvent pb msg =
      .ok (⟨false⟩, (knownEvents events).filterMap Event.eventCb) := by
  obtain ⟨ok, hrun⟩ := runFields_anyEvents h.events (pb.clientEventMsg msg).complete ⟨[], []⟩
  exact handleQshEvent_of_run hrun self

/-! ### Lists that are lost -/

/-- Of the lists in a message those are called back for that are neither held back nor behind an
event that is not known. -/
theorem eventCb_sublist (events : List AnyEvent) :
    ((knownEvents events).filterMap Event.eventCb).Sublist
      (events.filterMap AnyEvent.list?) := by
  induction events with
  | nil => exact List.Sublist.refl _
  | cons e events ih =>
    rcases e with (⟨dataType, suids⟩ | _) | msgId
    · by_cases h : dataType = discoveryDoneType
      · have hcb : Event.eventCb (.suidEvent dataType suids) = none := if_neg (not_not_intro h)
        rw [knownEvents, List.filterMap_cons_none hcb,
          List.filterMap_cons_some (by rfl : AnyEvent.list? (.known (.suidEvent dataType suids)) =
            some ⟨dataType, suids⟩)]
        exact ih.cons _
      · have hcb : Event.eventCb (.suidEvent dataType suids) = some ⟨dataType, suids⟩ := if_pos h
        rw [knownEvents, List.filterMap_cons_some hcb,
          List.filterMap_cons_some (by rfl : AnyEvent.list? (.known (.suidEvent dataType suids)) =
            some ⟨dataType, suids⟩)]
        exact ih.cons_cons _
    · exact ih
    · exact List.nil_sublist _

/-- What is called back for is all there is exactly if none is lost. -/
theorem eventCb_eq_iff (events : List AnyEvent) :
    (knownEvents events).filterMap Event.eventCb = events.filterMap AnyEvent.list? ↔
      NoneLost events := by
  induction events with
  | nil => exact iff_of_true rfl .nil
  | cons e events ih =>
    rcases e with (⟨dataType, suids⟩ | _) | msgId
    · have hlist : AnyEvent.list? (.known (.suidEvent dataType suids)) = some ⟨dataType, suids⟩ :=
        rfl
      by_cases h : dataType = discoveryDoneType
      · -- the list is held back, and there is one call too few
        have hcb : Event.eventCb (.suidEvent dataType suids) = none := if_neg (not_not_intro h)
        rw [knownEvents, List.filterMap_cons_none hcb, List.filterMap_cons_some hlist]
        refine iff_of_false (fun heq ↦ ?_) (fun hlost ↦ ?_)
        · have hlen := (eventCb_sublist events).length_le
          rw [heq, List.length_cons] at hlen
          omega
        · cases hlost with
          | suidEvent hne _ => exact hne h
      · have hcb : Event.eventCb (.suidEvent dataType suids) = some ⟨dataType, suids⟩ := if_pos h
        rw [knownEvents, List.filterMap_cons_some hcb, List.filterMap_cons_some hlist,
          List.cons.injEq, ih]
        refine ⟨fun hrest ↦ .suidEvent h hrest.2, fun hlost ↦ ⟨rfl, ?_⟩⟩
        cases hlost with
        | suidEvent _ hevents => exact hevents
    · refine ih.trans ⟨.discoveryDone, fun hlost ↦ ?_⟩
      cases hlost with
      | discoveryDone hevents => exact hevents
    · have hnone : knownEvents (.other msgId :: events) = [] := rfl
      rw [hnone, List.filterMap_nil, List.filterMap_cons_none (by rfl), eq_comm,
        List.filterMap_eq_nil_iff]
      refine ⟨.other, fun hlost ↦ ?_⟩
      cases hlost with
      | other h => exact h

/-- **Every list of ids of a message is called back for exactly if none stands behind an event that
is not known and none has the special data type.** -/
theorem delivers_iff {msg : Bytes} {events : List AnyEvent} (h : pb.IsAnyMessage msg events)
    (self : SuidLookUp) : Delivers pb self msg events ↔ NoneLost events := by
  rw [Delivers, handleQshEvent_anyMessage h, ← eventCb_eq_iff]
  constructor
  · rintro ⟨lookup, heq⟩
    exact (Prod.mk.inj (Except.ok.inj heq)).2
  · intro heq
    exact ⟨⟨false⟩, by rw [heq]⟩

end

/-! ### An error event in front of a list -/

/-- An `sns_suid_event` for one accelerometer. -/
def accelEvent : Bytes :=
  eventBytes 0 (bytesField 10 (CLib.str "accel" ++ [0]) ++ bytesField 18 (suidBytes 1 2))

/-- An event that says that there has been an error. -/
def errorEvent : Bytes :=
  13 :: [130, 0, 0, 0] ++ 17 :: longBytes 7 ++ bytesField 26 []

/-- A message with the two events, the error first. -/
def errorMessage : Bytes :=
  bytesField 10 (suidBytes 171 171) ++ bytesField 18 errorEvent ++ bytesField 18 accelEvent

theorem isAnyMessage_errorMessage :
    wire.IsAnyMessage errorMessage
      [.other 130, .known (.suidEvent (CLib.str "accel") [⟨1, 2⟩])] := by
  refine ⟨by decide +kernel, ?_⟩
  have hfields : (wire.clientEventMsg errorMessage).fields = [errorEvent, accelEvent] := by
    decide +kernel
  have haccel : (wire.clientEventMsg accelMessage).fields = [accelEvent] := by
    decide +kernel
  have hevent := isMessage_accelMessage.events
  rw [haccel] at hevent
  rw [hfields]
  refine .cons ⟨by decide, by decide +kernel, by decide +kernel⟩ (.cons ?_ .nil)
  cases hevent with
  | cons hevent _ => exact hevent

theorem delivers_iff_errorMessage :
    Delivers wire ⟨true⟩ errorMessage
        [.other 130, .known (.suidEvent (CLib.str "accel") [⟨1, 2⟩])] ↔
      NoneLost [.other 130, .known (.suidEvent (CLib.str "accel") [⟨1, 2⟩])] :=
  delivers_iff isAnyMessage_errorMessage ⟨true⟩

/-- The list behind the error is not called back for. -/
theorem not_delivers_errorMessage :
    wire.IsAnyMessage errorMessage
        [.other 130, .known (.suidEvent (CLib.str "accel") [⟨1, 2⟩])] ∧
      ¬ Delivers wire ⟨true⟩ errorMessage
        [.other 130, .known (.suidEvent (CLib.str "accel") [⟨1, 2⟩])] := by
  refine ⟨isAnyMessage_errorMessage, ?_⟩
  rintro ⟨lookup, heq⟩
  rw [handleQshEvent_anyMessage isAnyMessage_errorMessage] at heq
  exact absurd (Prod.mk.inj (Except.ok.inj heq)).2 (by decide)

end SensingHub.Discovery
