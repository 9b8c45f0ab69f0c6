import SensingHub.Discovery.LookUp

/-!
# Well-formed messages

A message stands for a list of events, an event for a list of ids or for the end of discovery. What
`handleQshEvent` makes of a message that nanopb decodes is then a matter of its events: it calls
back for every list of ids, in order, except where the data type is the special one.
-/

namespace SensingHub.Discovery

open CLib (cString)

/-! ### Events -/

/-- An event of a message. -/
inductive Event
  | suidEvent (dataType : Bytes) (suids : List Suid)
  | discoveryDone
  deriving DecidableEq, Repr

/-- The data type and the ids that `suid_decode_event` takes an event for. -/
def Event.entry : Event → EventCb
  | .suidEvent dataType suids => ⟨dataType, suids⟩
  | .discoveryDone => ⟨discoveryDoneType, []⟩

/-- The call of `mEventCb` for an event, if there is one. -/
def Event.eventCb (e : Event) : Option EventCb :=
  if e.entry.datatype ≠ discoveryDoneType then some e.entry else none

/-! ### What messages stand for -/

/-- The value of a field that is a `suid_low`. -/
def StdSuidField.low? : StdSuidField → Option UInt64
  | .suidLow v => some v
  | .suidHigh _ => none

/-- The value of a field that is a `suid_high`. -/
def StdSuidField.high? : StdSuidField → Option UInt64
  | .suidLow _ => none
  | .suidHigh v => some v

/-- The value of a field that is a `msg_id`. -/
def ClientEventField.msgId? : ClientEventField → Option UInt32
  | .msgId v => some v
  | .payload _ => none

/-- The bytes of a field that is a `payload`. -/
def ClientEventField.payload? : ClientEventField → Option Bytes
  | .msgId _ => none
  | .payload b => some b

/-- The bytes of a field that is a `data_type`. -/
def SuidEventField.dataType? : SuidEventField → Option Bytes
  | .dataType b => some b
  | .suid _ => none

/-- The bytes of a field that is a `suid`. -/
def SuidEventField.suid? : SuidEventField → Option Bytes
  | .dataType _ => none
  | .suid b => some b

/-- The bytes are those of an `sns_std_suid`. -/
structure Nanopb.IsSuid (pb : Nanopb) (b : Bytes) (uid : Suid) : Prop where
  complete : (pb.stdSuid b).complete = true
  low : (pb.stdSuid b).last StdSuidField.low? = some uid.low
  high : (pb.stdSuid b).last StdSuidField.high? = some uid.high

/-- The bytes are those of an `sns_suid_event`, its data type being ended by a NUL. -/
structure Nanopb.IsSuidEvent (pb : Nanopb) (b dataType : Bytes) (suids : List Suid) : Prop where
  complete : (pb.suidEvent b).complete = true
  dataType : ∃ buf, (pb.suidEvent b).last SuidEventField.dataType? = some buf ∧
    cString buf = some dataType
  suids : List.Forall₂ pb.IsSuid ((pb.suidEvent b).fields.filterMap SuidEventField.suid?) suids

/-- The bytes are those of an `sns_client_event` that holds an event. -/
def Nanopb.IsEvent (pb : Nanopb) (b : Bytes) : Event → Prop
  | .suidEvent dataType suids =>
    (pb.clientEvent b).complete = true ∧
      (pb.clientEvent b).last ClientEventField.msgId? = some SNS_SUID_MSGID_SNS_SUID_EVENT ∧
      ∃ payload, (pb.clientEvent b).last ClientEventField.payload? = some payload ∧
        pb.IsSuidEvent payload dataType suids
  | .discoveryDone =>
    (pb.clientEvent b).complete = true ∧
      (pb.clientEvent b).last ClientEventField.msgId? =
        some SNS_SUID_MSGID_SNS_SUID_DISCOVERY_DONE_EVENT

/-- The bytes are those of an `sns_client_event_msg` that holds some events. -/
structure Nanopb.IsMessage (pb : Nanopb) (msg : Bytes) (events : List Event) : Prop where
  complete : (pb.clientEventMsg msg).complete = true
  events : List.Forall₂ pb.IsEvent (pb.clientEventMsg msg).fields events

/-! ### Decoding them -/

section

variable {pb : Nanopb}

/-- A `suid` is decoded. -/
theorem decodeSuid_run {b : Bytes} {uid : Suid} (h : pb.IsSuid b uid) (event : SuidEvent) :
    decodeSuid pb b event =
      (.ok true, { event with suidVector := event.suidVector ++ [uid] }) := by
  have hrun := Decoding.run_accepting (d := pb.stdSuid b) storeStdSuid
    (fun f _ s ↦ by cases f <;> rfl) ⟨0, 0⟩
  have hlow := Decoding.foldl_last (d := pb.stdSuid b) (fun uid ↦ some uid.low)
    (fun uid f ↦ (storeStdSuid f uid).2) StdSuidField.low?
    (fun s f ↦ by cases f <;> rfl) ⟨0, 0⟩
  have hhigh := Decoding.foldl_last (d := pb.stdSuid b) (fun uid ↦ some uid.high)
    (fun uid f ↦ (storeStdSuid f uid).2) StdSuidField.high?
    (fun s f ↦ by cases f <;> rfl) ⟨0, 0⟩
  rw [h.low] at hlow
  rw [h.high] at hhigh
  rw [h.complete] at hrun
  generalize (pb.stdSuid b).fields.foldl (fun s f ↦ (storeStdSuid f s).2) ⟨0, 0⟩ = t
    at hrun hlow hhigh
  obtain rfl : t = uid := by
    cases t
    cases uid
    simp_all
  rw [decodeSuid, Prog.bind_ok (Prog.withLocal_ok hrun event)]
  rfl

/-- The ids of an `sns_suid_event` are collected in order, and no field is refused. -/
theorem storeSuidEvent_suids {fields : List SuidEventField} {suids : List Suid}
    (h : List.Forall₂ pb.IsSuid (fields.filterMap SuidEventField.suid?) suids) (s : SuidEvent) :
    (∀ f ∈ fields, ∀ s, (storeSuidEvent pb f s).1 = .ok true) ∧
      (fields.foldl (fun s f ↦ (storeSuidEvent pb f s).2) s).suidVector =
        s.suidVector ++ suids := by
  induction fields generalizing suids s with
  | nil =>
    cases h
    exact ⟨fun f hf ↦ (List.not_mem_nil hf).elim, (List.append_nil _).symm⟩
  | cons f fields ih =>
    cases f with
    | dataType b =>
      obtain ⟨haccept, hsuids⟩ := ih h (storeSuidEvent pb (.dataType b) s).2
      exact ⟨List.forall_mem_cons.2 ⟨fun _ ↦ rfl, haccept⟩, hsuids⟩
    | suid b =>
      cases h with
      | @cons _ uid _ suids huid h =>
        have hrun := decodeSuid_run huid
        obtain ⟨haccept, hsuids⟩ := ih h (storeSuidEvent pb (.suid b) s).2
        refine ⟨List.forall_mem_cons.2 ⟨fun s ↦ congrArg Prod.fst (hrun s), haccept⟩, ?_⟩
        rw [List.foldl_cons, hsuids, storeSuidEvent, hrun s]
        simp

/-- A `suid` does not touch the data type. -/
theorem decodeSuid_datatypeBuf (b : Bytes) (event : SuidEvent) :
    (decodeSuid pb b event).2.datatypeBuf = event.datatypeBuf := by
  rcases hrun : (pb.stdSuid b).run storeStdSuid ⟨0, 0⟩ with ⟨e | ok, uid⟩
  · rw [decodeSuid, Prog.bind_error (Prog.withLocal_error hrun event)]
  · rw [decodeSuid, Prog.bind_ok (Prog.withLocal_ok hrun event)]
    cases ok <;> rfl

/-- An `sns_suid_event` is decoded. -/
theorem suidEvent_run {b dataType : Bytes} {suids : List Suid}
    (h : pb.IsSuidEvent b dataType suids) :
    ∃ buf, cString buf = some dataType ∧
      (pb.suidEvent b).run (storeSuidEvent pb) ⟨none, []⟩ = (.ok true, ⟨some buf, suids⟩) := by
  obtain ⟨buf, hbuf, hdataType⟩ := h.dataType
  obtain ⟨haccept, hsuids⟩ := storeSuidEvent_suids h.suids ⟨none, []⟩
  have hrun := Decoding.run_accepting (storeSuidEvent pb) haccept ⟨none, []⟩
  have hlast := Decoding.foldl_last (d := pb.suidEvent b) SuidEvent.datatypeBuf
    (fun s f ↦ (storeSuidEvent pb f s).2) SuidEventField.dataType?
    (fun s f ↦ by
      cases f
      · rfl
      · exact decodeSuid_datatypeBuf _ s) ⟨none, []⟩
  rw [hbuf] at hlast
  rw [h.complete] at hrun
  generalize (pb.suidEvent b).fields.foldl (fun s f ↦ (storeSuidEvent pb f s).2) ⟨none, []⟩ = t
    at hrun hlast hsuids
  obtain rfl : t = ⟨some buf, suids⟩ := by
    cases t
    simp_all
  exact ⟨buf, hdataType, hrun⟩

/-- The bytes of a `sns_suid_event` are not empty: it has a data type. -/
theorem Nanopb.IsSuidEvent.ne_nil {b dataType : Bytes} {suids : List Suid}
    (h : pb.IsSuidEvent b dataType suids) : b ≠ [] := by
  rintro rfl
  obtain ⟨buf, hbuf, -⟩ := h.dataType
  rw [Decoding.last, pb.suidEvent_nil] at hbuf
  cases hbuf

/-- An `sns_client_event` is decoded. -/
theorem clientEvent_run {b : Bytes} {id : UInt32} (hcomplete : (pb.clientEvent b).complete = true)
    (hid : (pb.clientEvent b).last ClientEventField.msgId? = some id) :
    (pb.clientEvent b).run storeClientEvent ⟨0, none⟩ =
      (.ok true, ⟨id, (pb.clientEvent b).last ClientEventField.payload?⟩) := by
  have hrun := Decoding.run_accepting (d := pb.clientEvent b) storeClientEvent
    (fun f _ s ↦ by cases f <;> rfl) ⟨0, none⟩
  have hmsgId := Decoding.foldl_last (d := pb.clientEvent b)
    (fun event ↦ some event.msgId) (fun event f ↦ (storeClientEvent f event).2)
    ClientEventField.msgId? (fun s f ↦ by cases f <;> rfl) ⟨0, none⟩
  have hpayload := Decoding.foldl_last (d := pb.clientEvent b) ClientEvent.data
    (fun event f ↦ (storeClientEvent f event).2) ClientEventField.payload?
    (fun s f ↦ by cases f <;> rfl) ⟨0, none⟩
  rw [hid] at hmsgId
  rw [hcomplete] at hrun
  generalize (pb.clientEvent b).fields.foldl (fun event f ↦ (storeClientEvent f event).2)
    ⟨0, none⟩ = t at hrun hmsgId hpayload
  obtain rfl : t = ⟨id, (pb.clientEvent b).last ClientEventField.payload?⟩ := by
    cases t
    simp_all
  exact hrun

/-- **An event is decoded**: its data type and its ids are added to the context. -/
theorem suidDecodeEvent_run {b : Bytes} {e : Event} (h : pb.IsEvent b e)
    (ctx : SuidDecodeContext) :
    suidDecodeEvent pb b ctx = (.ok true, ctx.push e.entry.datatype e.entry.suids) := by
  cases e with
  | discoveryDone =>
    obtain ⟨hcomplete, hid⟩ := h
    rw [suidDecodeEvent, Prog.bind_ok (Prog.withLocal_ok (clientEvent_run hcomplete hid) ctx)]
    rfl
  | suidEvent dataType suids =>
    obtain ⟨hcomplete, hid, payload, hpayload, hsuid⟩ := h
    obtain ⟨buf, hbuf, hrun⟩ := suidEvent_run hsuid
    have hevent := clientEvent_run hcomplete hid
    rw [hpayload] at hevent
    rw [suidDecodeEvent, Prog.bind_ok (Prog.withLocal_ok hevent ctx)]
    have hdata : (initialized (some payload) : DecodeM SuidDecodeContext Bytes) ctx =
        (.ok payload, ctx) := rfl
    have hstring : (stringOf buf : DecodeM SuidDecodeContext Bytes) ctx = (.ok dataType, ctx) := by
      rw [stringOf, hbuf]
      rfl
    dsimp only
    rw [if_neg (by decide), if_neg (by decide), if_pos rfl, Prog.bind_ok hdata,
      if_neg hsuid.ne_nil, Prog.bind_ok (Prog.withLocal_ok hrun ctx)]
    dsimp only
    rw [if_neg (by decide)]
    refine (Prog.bind_ok (a := buf) (t := ctx) rfl).trans ?_
    rw [Prog.bind_ok hstring]
    rfl

theorem foldl_push (events : List Event) (ctx : SuidDecodeContext) :
    events.foldl (fun ctx e ↦ ctx.push e.entry.datatype e.entry.suids) ctx =
      ⟨ctx.suids ++ events.map fun e ↦ e.entry.suids,
        ctx.datatype ++ events.map fun e ↦ e.entry.datatype⟩ := by
  induction events generalizing ctx with
  | nil => simp
  | cons e events ih =>
    rw [List.foldl_cons, ih]
    simp [SuidDecodeContext.push]

/-- The entries of the context that are handed on. -/
theorem filter_entries (events : List Event) :
    (List.zipWith EventCb.mk (events.map fun e ↦ e.entry.datatype)
      (events.map fun e ↦ e.entry.suids)).filter (fun cb ↦ cb.datatype ≠ discoveryDoneType) =
      events.filterMap Event.eventCb := by
  induction events with
  | nil => rfl
  | cons e events ih =>
    rw [List.map_cons, List.map_cons, List.zipWith_cons_cons, List.filter_cons, ih,
      List.filterMap_cons]
    by_cases h : e.entry.datatype = discoveryDoneType <;> simp [Event.eventCb, h]

/-- What `handleQshEvent` makes of the events that have been decoded. -/
theorem handleQshEvent_of_run {msg : Bytes} {events : List Event} {ok : Bool}
    (hrun : (pb.clientEventMsg msg).run (suidDecodeEvent pb) ⟨[], []⟩ =
      (.ok ok, events.foldl (fun ctx e ↦ ctx.push e.entry.datatype e.entry.suids) ⟨[], []⟩))
    (self : SuidLookUp) :
    self.handleQshEvent pb msg = .ok (⟨false⟩, events.filterMap Event.eventCb) := by
  have hself : (if self.mSetThreadName then { self with mSetThreadName := false } else self) =
      (⟨false⟩ : SuidLookUp) := by
    obtain ⟨_ | _⟩ := self <;> rfl
  unfold SuidLookUp.handleQshEvent
  rw [hself, hrun, foldl_push]
  cases events with
  | nil => rfl
  | cons e events =>
    dsimp only
    rw [if_pos (by simp), List.nil_append, List.nil_append, filter_entries]

/-- **A message is handled**: there is a call of `mEventCb` for each of its events that has a data
type other than the special one. -/
theorem handleQshEvent_message {msg : Bytes} {events : List Event}
    (h : pb.IsMessage msg events) (self : SuidLookUp) :
    self.handleQshEvent pb msg = .ok (⟨false⟩, events.filterMap Event.eventCb) :=
  handleQshEvent_of_run (Decoding.run_forall₂ (d := pb.clientEventMsg msg)
    (suidDecodeEvent pb) (fun ctx e ↦ ctx.push (Event.entry e).datatype (Event.entry e).suids)
    (h.events.imp fun _ _ hb ctx ↦ suidDecodeEvent_run hb ctx) ⟨[], []⟩) self

end

end SensingHub.Discovery
