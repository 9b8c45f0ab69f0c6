import SensingHub.Discovery.Delivery
import SensingHub.QshPb.AllOrNothing

/-!
# The ids that `getSuid` takes

The session client decodes the events of its discovery with a decoder of its own. Where
`suid_decode_event` keeps a list for each event, it collects the ids of all events of a message; it
refuses whatever is no list of ids, the end of discovery included; and only a message that has been
decoded to its end, with some id in it, replaces `suidList`.

To print the data type it writes a NUL over the last byte of that. Where the field is empty it
writes behind the field, which is a stop here: what else the byte belongs to is not known.
-/

namespace SensingHub.Client

open Discovery (AnyEvent EventCb Suid SuidLookUp Undefined SNS_SUID_MSGID_SNS_SUID_EVENT)
open QshPb (Nanopb PbIstream pbDecode storeClientEvent storeSuidEvent)

/-! ### Decoding -/

/-- What the behaviour of the client is not defined for. -/
inductive Fault
  /-- What is not defined in a decoder that it has in common with others. -/
  | undefined (e : Undefined)
  /-- A NUL that is written behind an empty field. -/
  | behindField
  deriving DecidableEq, Repr

/-- Programs of the client with local variables `σ`. -/
abbrev ClientM (σ : Type) :=
  Prog Fault σ

/-- A decoder that the client has in common with others. -/
abbrev shared {σ α : Type} (x : Discovery.DecodeM σ α) : ClientM σ α :=
  Prog.mapError .undefined x

/-- `suid_decode_context` -/
structure SuidDecodeContext where
  suids : List Suid
  datatype : Bytes
  deriving DecidableEq, Repr

/-- `std::string(datatype)`, after a NUL has been written over the last byte of the field, or over
the first byte behind it if it is empty. -/
def datatypeOf {σ : Type} (data : PbIstream) : ClientM σ Bytes :=
  if data.bytesLeft = 0 then Prog.stop .behindField
  else shared (Discovery.stringOf (data.state.set (data.bytesLeft - 1) 0))

/-- `decode_suid_event` -/
def decodeSuidEvent (pb : Nanopb) (stream : PbIstream) : ClientM SuidDecodeContext Bool := do
  let msgId ← shared (QshPb.getMsgId pb stream)
  if msgId ≠ SNS_SUID_MSGID_SNS_SUID_EVENT then return false
  let (ok, event) ←
    shared (Prog.withLocal ⟨0, none⟩ (pbDecode pb.clientEvent storeClientEvent stream))
  if !ok then return false
  let eventData ← shared (Discovery.initialized event.data)
  let (ok, suidEvent) ←
    shared (Prog.withLocal ⟨none, []⟩ (pbDecode pb.suidEvent (storeSuidEvent pb) eventData))
  if !ok then return false
  let data ← shared (Discovery.initialized suidEvent.datatypeBuf)
  let datatype ← datatypeOf data
  Prog.modify fun ctx ↦ ⟨ctx.suids ++ suidEvent.suidVector, datatype⟩
  return true

/-- `suidEvent`: what it makes of `suidList`. -/
def suidEvent (pb : Nanopb) (stream : PbIstream) (suidList : List Suid) :
    Except Fault (List Suid) :=
  match (pb.clientEventMsg stream.bytes).run (fun p ↦ decodeSuidEvent pb (stream.sub p))
    ⟨[], []⟩ with
  | (.error e, _) => .error e
  | (.ok false, _) => .ok suidList
  | (.ok true, ctx) => .ok (if ctx.suids = [] then suidList else ctx.suids)

/-! ### What is taken of a message -/

section

variable (pb : Nanopb)

/-- The record is a list of ids. -/
def ListsIds (record : PbIstream) (ids : List Suid) : Prop :=
  ∃ payload, pb.HoldsEvent SNS_SUID_MSGID_SNS_SUID_EVENT record payload ∧
    pb.decodesSuidEvent payload = true ∧ ids = pb.suids payload

/-- If the record is a list of ids, its data type is not empty. -/
def Named (record : PbIstream) : Prop :=
  ∀ payload, pb.HoldsEvent SNS_SUID_MSGID_SNS_SUID_EVENT record payload →
    pb.decodesSuidEvent payload = true →
    ∃ p, (pb.suidEvent payload.bytes).last QshPb.SuidEventField.dataType? = some p ∧ p.length ≠ 0

/-- The records of a message. -/
def records (stream : PbIstream) : List PbIstream :=
  (pb.clientEventMsg stream.bytes).fields.map stream.sub

/-- The message can be decoded, all its events are lists of ids, and `ids` are those in them. -/
def MessageListsIds (stream : PbIstream) (ids : List Suid) : Prop :=
  (pb.clientEventMsg stream.bytes).complete = true ∧
    ∃ idss, List.Forall₂ (ListsIds pb) (records pb stream) idss ∧ ids = idss.flatten

end

/-! ### What becomes of a record -/

section

variable {pb : Nanopb} {record payload : PbIstream}

theorem ListsIds.unique {ids ids' : List Suid} (h : ListsIds pb record ids)
    (h' : ListsIds pb record ids') : ids = ids' := by
  obtain ⟨payload, hholds, -, rfl⟩ := h
  obtain ⟨payload', hholds', -, rfl⟩ := h'
  cases hholds.payload.symm.trans hholds'.payload
  rfl

theorem MessageListsIds.unique {stream : PbIstream} {ids ids' : List Suid}
    (h : MessageListsIds pb stream ids) (h' : MessageListsIds pb stream ids') : ids = ids' := by
  obtain ⟨-, idss, hrecords, rfl⟩ := h
  obtain ⟨-, idss', hrecords', rfl⟩ := h'
  have hunique : Relator.RightUnique (ListsIds pb) := fun _ _ _ ↦ ListsIds.unique
  exact congrArg List.flatten (hunique.forall₂ hrecords hrecords')

/-- The NUL ends the data type, wherever else there is one. -/
theorem exists_datatypeOf {σ : Type} {data : PbIstream} (hne : data.bytesLeft ≠ 0)
    (hlen : data.bytesLeft ≤ data.state.length) (s : σ) :
    ∃ datatype, datatypeOf data s = (.ok datatype, s) := by
  have hnul : (data.state.set (data.bytesLeft - 1) 0)[data.bytesLeft - 1]? = some 0 := by
    rw [List.getElem?_set_self (by omega)]
  obtain ⟨datatype, hdatatype⟩ := CLib.exists_cString_of_getElem? hnul
  refine ⟨datatype, ?_⟩
  rw [datatypeOf, if_neg hne]
  refine Prog.mapError_ok _ ?_
  rw [Discovery.stringOf, hdatatype]
  rfl

/-- A record that is something else is refused. -/
theorem decodeSuidEvent_of_not (h : ¬ ((pb.clientEvent record.bytes).complete = true ∧
    pb.HasMsgId SNS_SUID_MSGID_SNS_SUID_EVENT record)) (ctx : SuidDecodeContext) :
    decodeSuidEvent pb record ctx = (.ok false, ctx) := by
  have hid := QshPb.getMsgId_run pb record ctx
  rw [decodeSuidEvent, Prog.bind_ok (Prog.mapError_ok _ hid),
    if_pos (mt (QshPb.getMsgId_eq_iff (by decide) hid).1 h)]
  rfl

/-- The field of the data type stands within the payload. -/
theorem le_of_last_dataType {p : QshPb.Span}
    (hp : (pb.suidEvent payload.bytes).last QshPb.SuidEventField.dataType? = some p) :
    (payload.sub p).bytesLeft ≤ (payload.sub p).state.length := by
  obtain ⟨f, hf, hfp⟩ := Decoding.exists_of_last hp
  have hspan : f.span = p := by
    cases f with
    | dataType q => exact Option.some.inj hfp
    | suid q => cases hfp
  have hle := pb.span_le _ f hf
  rw [hspan, PbIstream.bytes, List.length_take] at hle
  show p.length ≤ (payload.state.drop p.offset).length
  rw [List.length_drop]
  omega

/-- A record with the id of a list of ids is looked into. -/
theorem decodeSuidEvent_of_holdsEvent
    (h : pb.HoldsEvent SNS_SUID_MSGID_SNS_SUID_EVENT record payload) (ctx : SuidDecodeContext) :
    decodeSuidEvent pb record ctx = (do
      let (ok, suidEvent) ←
        shared (Prog.withLocal ⟨none, []⟩ (pbDecode pb.suidEvent (storeSuidEvent pb) payload))
      if !ok then return false
      let data ← shared (Discovery.initialized suidEvent.datatypeBuf)
      let datatype ← datatypeOf data
      Prog.modify fun ctx ↦ ⟨ctx.suids ++ suidEvent.suidVector, datatype⟩
      return true : ClientM SuidDecodeContext Bool) ctx := by
  have hmsgId := QshPb.getMsgId_run pb record ctx
  have hevent := QshPb.clientEvent_run h.complete h.msgId h.payload
  have hpayload : (Discovery.initialized (some payload) :
      Discovery.DecodeM SuidDecodeContext PbIstream) ctx = (.ok payload, ctx) := rfl
  rw [decodeSuidEvent, Prog.bind_ok (Prog.mapError_ok _ hmsgId),
    if_neg (not_not.2 ((QshPb.getMsgId_eq_iff (by decide) hmsgId).2 ⟨h.complete, h.msgId⟩)),
    Prog.bind_ok (Prog.mapError_ok _ (Prog.withLocal_ok hevent ctx))]
  dsimp only
  rw [if_neg (by decide), Prog.bind_ok (Prog.mapError_ok _ hpayload)]

/-- A record with the id of a list of ids that is none is refused. -/
theorem decodeSuidEvent_of_not_decodes
    (h : pb.HoldsEvent SNS_SUID_MSGID_SNS_SUID_EVENT record payload)
    (hok : pb.decodesSuidEvent payload = false) (ctx : SuidDecodeContext) :
    decodeSuidEvent pb record ctx = (.ok false, ctx) := by
  have hfst := QshPb.suidEvent_fst pb payload ⟨none, []⟩
  rw [hok] at hfst
  rw [decodeSuidEvent_of_holdsEvent h,
    Prog.bind_ok (Prog.mapError_ok _ (Prog.withLocal_ok (Prod.ext hfst rfl) ctx))]
  rfl

/-- A list of ids is taken, unless it has no data type. -/
theorem decodeSuidEvent_of_decodes
    (h : pb.HoldsEvent SNS_SUID_MSGID_SNS_SUID_EVENT record payload)
    (hok : pb.decodesSuidEvent payload = true) (ctx : SuidDecodeContext) :
    (∃ e, (decodeSuidEvent pb record ctx).1 = .error e ∧ ¬ Named pb record) ∨
      ∃ datatype, decodeSuidEvent pb record ctx =
        (.ok true, ⟨ctx.suids ++ pb.suids payload, datatype⟩) := by
  have hrun := QshPb.suidEvent_run_of_decodes hok
  rw [decodeSuidEvent_of_holdsEvent h,
    Prog.bind_ok (Prog.mapError_ok _ (Prog.withLocal_ok hrun ctx))]
  dsimp only
  rw [if_neg (by decide)]
  cases hp : (pb.suidEvent payload.bytes).last QshPb.SuidEventField.dataType? with
  | none =>
    refine .inl ⟨.undefined .uninitialized, rfl, fun hnamed ↦ ?_⟩
    obtain ⟨p, hp', -⟩ := hnamed payload h hok
    cases hp.symm.trans hp'
  | some p =>
    have hdata : (Discovery.initialized (some (payload.sub p)) :
        Discovery.DecodeM SuidDecodeContext PbIstream) ctx = (.ok (payload.sub p), ctx) := rfl
    rw [Option.map_some, Prog.bind_ok (Prog.mapError_ok _ hdata)]
    by_cases hempty : (payload.sub p).bytesLeft = 0
    · refine .inl ⟨.behindField, ?_, fun hnamed ↦ ?_⟩
      · rw [datatypeOf, if_pos hempty]
        rfl
      · obtain ⟨p', hp', hne⟩ := hnamed payload h hok
        cases hp.symm.trans hp'
        exact hne hempty
    · obtain ⟨datatype, hdatatype⟩ := exists_datatypeOf hempty (le_of_last_dataType hp) ctx
      rw [Prog.bind_ok hdatatype]
      exact .inr ⟨datatype, rfl⟩

/-- **What becomes of a record**: it is taken if it is a list of ids, and refused if not; only a
list without a data type is a stop. -/
theorem decodeSuidEvent_run (record : PbIstream) (ctx : SuidDecodeContext) :
    (∃ e, (decodeSuidEvent pb record ctx).1 = .error e ∧ ¬ Named pb record) ∨
      ∃ ok ctx', decodeSuidEvent pb record ctx = (.ok ok, ctx') ∧
        (ok = true → ∃ ids, ListsIds pb record ids ∧ ctx'.suids = ctx.suids ++ ids) ∧
        (ok = false → ∀ ids, ¬ ListsIds pb record ids) := by
  by_cases hid : (pb.clientEvent record.bytes).complete = true ∧
      pb.HasMsgId SNS_SUID_MSGID_SNS_SUID_EVENT record
  · obtain ⟨payload, hholds⟩ := QshPb.exists_holdsEvent hid.1 hid.2
    cases hok : pb.decodesSuidEvent payload with
    | true =>
      refine (decodeSuidEvent_of_decodes hholds hok ctx).imp_right ?_
      rintro ⟨datatype, hrun⟩
      exact ⟨true, _, hrun, fun _ ↦ ⟨_, ⟨payload, hholds, hok, rfl⟩, rfl⟩, nofun⟩
    | false =>
      refine .inr ⟨false, ctx, decodeSuidEvent_of_not_decodes hholds hok ctx, nofun, ?_⟩
      rintro - ids ⟨payload', hholds', hok', -⟩
      cases hholds.payload.symm.trans hholds'.payload
      exact Bool.false_ne_true (hok.symm.trans hok')
  · refine .inr ⟨false, ctx, decodeSuidEvent_of_not hid ctx, nofun, ?_⟩
    rintro - ids ⟨payload, hholds, -, -⟩
    exact hid ⟨hholds.complete, hholds.msgId⟩

/-- The records of a message are taken up to the first that is something else. -/
theorem runFields_records (pb : Nanopb) (stream : PbIstream) (complete : Bool)
    (fields : List QshPb.Span) (ctx : SuidDecodeContext) :
    (∃ e, (Decoding.runFields (fun p ↦ decodeSuidEvent pb (stream.sub p)) complete fields ctx).1 =
        .error e ∧ ∃ p ∈ fields, ¬ Named pb (stream.sub p)) ∨
      ∃ ok ctx', Decoding.runFields (fun p ↦ decodeSuidEvent pb (stream.sub p)) complete fields
          ctx = (.ok ok, ctx') ∧
        (ok = true → complete = true ∧ ∃ idss,
          List.Forall₂ (ListsIds pb) (fields.map stream.sub) idss ∧
            ctx'.suids = ctx.suids ++ idss.flatten) ∧
        (ok = false → complete = true →
          ∀ idss, ¬ List.Forall₂ (ListsIds pb) (fields.map stream.sub) idss) := by
  induction fields generalizing ctx with
  | nil =>
    refine .inr ⟨complete, ctx, rfl, fun hok ↦ ⟨hok, [], .nil, (List.append_nil _).symm⟩, ?_⟩
    rintro rfl ⟨⟩
  | cons p fields ih =>
    rw [Decoding.runFields]
    rcases decodeSuidEvent_run (stream.sub p) ctx with
      ⟨e, herror, hnamed⟩ | ⟨ok, ctx₁, hrun, htaken, hrefused⟩
    · exact .inl ⟨e, Prog.bind_fst_error herror, p, List.mem_cons_self, hnamed⟩
    rw [Prog.bind_ok hrun]
    cases ok with
    | false =>
      refine .inr ⟨false, ctx₁, rfl, fun hok ↦ absurd hok Bool.false_ne_true, ?_⟩
      rintro - - _ (_ | ⟨hfirst, -⟩)
      exact hrefused rfl _ hfirst
    | true =>
      obtain ⟨ids, hids, hctx₁⟩ := htaken rfl
      rcases ih ctx₁ with ⟨e, herror, q, hq, hnamed⟩ | ⟨ok', ctx', hrest, htaken', hrefused'⟩
      · exact .inl ⟨e, herror, q, List.mem_cons_of_mem p hq, hnamed⟩
      refine .inr ⟨ok', ctx', hrest, fun hok ↦ ?_, fun hok hcomplete ↦ ?_⟩
      · obtain ⟨hcomplete, idss, hidss, hctx'⟩ := htaken' hok
        refine ⟨hcomplete, ids :: idss, .cons hids hidss, ?_⟩
        rw [hctx', hctx₁, List.flatten_cons, List.append_assoc]
      · rintro _ (_ | ⟨-, hidss⟩)
        exact hrefused' hok hcomplete _ hidss

/-- What a message makes of the list: the ids of all its events, if these are all lists of ids and
there is an id in them, and else the list itself. -/
def Replaces (pb : Nanopb) (stream : PbIstream) (suidList suidList' : List Suid) : Prop :=
  (MessageListsIds pb stream suidList' ∧ suidList' ≠ []) ∨
    (∀ ids, MessageListsIds pb stream ids → ids = []) ∧ suidList' = suidList

/-- **A message replaces the list or leaves it as it is**, unless one of its lists has no data
type. -/
theorem suidEvent_run (pb : Nanopb) (stream : PbIstream) (suidList : List Suid) :
    (∃ e, suidEvent pb stream suidList = .error e ∧
        ∃ record ∈ records pb stream, ¬ Named pb record) ∨
      ∃ suidList', suidEvent pb stream suidList = .ok suidList' ∧
        Replaces pb stream suidList suidList' := by
  unfold suidEvent Decoding.run
  rcases runFields_records pb stream (pb.clientEventMsg stream.bytes).complete
    (pb.clientEventMsg stream.bytes).fields ⟨[], []⟩ with
    ⟨e, herror, p, hp, hnamed⟩ | ⟨ok, ctx, hrun, htaken, hrefused⟩
  · refine .inl ⟨e, ?_, stream.sub p, List.mem_map_of_mem hp, hnamed⟩
    rw [← Prod.eta (Decoding.runFields ..), herror]
  rw [hrun]
  cases ok with
  | false =>
    refine .inr ⟨suidList, rfl, .inr ⟨?_, rfl⟩⟩
    rintro _ ⟨hcomplete, idss, hidss, rfl⟩
    exact absurd hidss (hrefused rfl hcomplete idss)
  | true =>
    obtain ⟨hcomplete, idss, hidss, hctx⟩ := htaken rfl
    have hlists : MessageListsIds pb stream ctx.suids := ⟨hcomplete, idss, hidss, hctx⟩
    by_cases hne : ctx.suids = []
    · refine .inr ⟨suidList, congrArg Except.ok (if_pos hne), .inr ⟨fun ids hids ↦ ?_, rfl⟩⟩
      rw [hids.unique hlists, hne]
    · exact .inr ⟨ctx.suids, congrArg Except.ok (if_neg hne), .inl ⟨hlists, hne⟩⟩

end

/-! ### Well-formed events -/

/-- The ids in some events. -/
def eventIds (events : List AnyEvent) : List Suid :=
  (events.filterMap AnyEvent.list?).flatMap EventCb.suids

section

variable {pb : Nanopb} {record : PbIstream}

theorem last_msgId_onBytes (b : Bytes) :
    (pb.onBytes.clientEvent b).last Discovery.ClientEventField.msgId? =
      (pb.clientEvent b).last QshPb.ClientEventField.msgId? := by
  have hsame : (fun f ↦ (QshPb.ClientEventField.on b f).msgId?) =
      QshPb.ClientEventField.msgId? := by
    funext f
    cases f <;> rfl
  rw [Nanopb.onBytes, Decoding.map_last, hsame]

theorem last_payload_onBytes (b : Bytes) :
    (pb.onBytes.clientEvent b).last Discovery.ClientEventField.payload? =
      ((pb.clientEvent b).last QshPb.ClientEventField.payload?).map fun p ↦ p.of b := by
  have hsame : (fun f ↦ (QshPb.ClientEventField.on b f).payload?) =
      fun f ↦ f.payload?.map fun p ↦ p.of b := by
    funext f
    cases f <;> rfl
  rw [Nanopb.onBytes, Decoding.map_last, hsame, Decoding.last_map]

/-- A list of ids that is well formed is one for the client, and has a data type. -/
theorem listsIds_of_isEvent {dataType : Bytes} {suids : List Suid}
    (h : pb.onBytes.IsEvent record.bytes (.suidEvent dataType suids)) :
    ListsIds pb record suids ∧ Named pb record := by
  obtain ⟨hcomplete, hid, payload, hpayload, hsuid⟩ := h
  rw [last_msgId_onBytes] at hid
  rw [last_payload_onBytes, Option.map_eq_some_iff] at hpayload
  obtain ⟨p, hp, rfl⟩ := hpayload
  obtain ⟨f, hf, hfp⟩ := Decoding.exists_of_last hp
  have hholds : pb.HoldsEvent SNS_SUID_MSGID_SNS_SUID_EVENT record (record.sub p) :=
    ⟨hcomplete, hid, by rw [hp, Option.map_some]⟩
  rw [← QshPb.bytes_sub (pb.payload_le _ f hf p hfp)] at hsuid
  generalize record.sub p = payload at hsuid hholds
  obtain ⟨buf, hbuf, hrun⟩ := Discovery.suidEvent_run hsuid
  have hbytes := hrun.symm.trans (QshPb.suidEvent_onBytes payload ⟨none, []⟩)
  have hok : pb.decodesSuidEvent payload = true := by
    have hfst := congrArg Prod.fst hbytes
    rw [QshPb.suidEvent_fst pb payload ⟨none, []⟩] at hfst
    exact (Except.ok.inj hfst).symm
  rw [QshPb.suidEvent_run_of_decodes hok] at hbytes
  have hevent : (⟨some buf, suids⟩ : Discovery.SuidEvent) =
      ⟨((pb.suidEvent payload.bytes).last QshPb.SuidEventField.dataType?).map fun q ↦
        (payload.sub q).bytes, pb.suids payload⟩ :=
    (congrArg Prod.snd hbytes).trans (by rw [QshPb.SuidEvent.onBytes, Option.map_map]; rfl)
  obtain ⟨hdata, rfl⟩ := Discovery.SuidEvent.mk.inj hevent
  refine ⟨⟨payload, hholds, hok, rfl⟩, fun payload' hholds' _ ↦ ?_⟩
  cases hholds.payload.symm.trans hholds'.payload
  obtain ⟨q, hq, rfl⟩ := Option.map_eq_some_iff.1 hdata.symm
  refine ⟨q, hq, fun hempty ↦ ?_⟩
  have hnil : (payload.sub q).bytes = [] := by
    show (payload.state.drop q.offset).take q.length = []
    rw [hempty, List.take_zero]
  rw [hnil] at hbuf
  cases hbuf

/-- The other events are no lists of ids. -/
theorem not_listsIds_of_isAnyEvent {e : AnyEvent} (hlist : e.list? = none)
    (h : pb.onBytes.IsAnyEvent record.bytes e) (payload : PbIstream) :
    ¬ pb.HoldsEvent SNS_SUID_MSGID_SNS_SUID_EVENT record payload := by
  obtain ⟨id, hne, hid⟩ : ∃ id ≠ SNS_SUID_MSGID_SNS_SUID_EVENT,
      (pb.onBytes.clientEvent record.bytes).last Discovery.ClientEventField.msgId? = some id := by
    cases e with
    | known e =>
      cases e with
      | suidEvent dataType suids => cases hlist
      | discoveryDone => exact ⟨_, by decide, h.2⟩
    | other msgId => exact ⟨msgId, h.1.1, h.2.2⟩
  rw [last_msgId_onBytes] at hid
  intro hholds
  exact hne (Option.some.inj (hid.symm.trans hholds.msgId))

/-- The records of a message stand for its events. -/
theorem forall₂_records {stream : PbIstream} {events : List AnyEvent}
    (hwithin : ∀ p ∈ (pb.clientEventMsg stream.bytes).fields,
      p.offset + p.length ≤ stream.bytes.length)
    (h : pb.onBytes.IsAnyMessage stream.bytes events) :
    List.Forall₂ (fun record e ↦ pb.onBytes.IsAnyEvent record.bytes e) (records pb stream)
      events := by
  have hfields : List.Forall₂ (fun p e ↦ pb.onBytes.IsAnyEvent (p.of stream.bytes) e)
      (pb.clientEventMsg stream.bytes).fields events :=
    List.forall₂_map_left_iff.1 h.events
  refine List.forall₂_map_left_iff.2
    (((List.forall₂_and_left _ _).2 ⟨hwithin, hfields⟩).imp fun p e hpe ↦ ?_)
  rw [QshPb.bytes_sub hpe.1]
  exact hpe.2

/-- The records of a message of well-formed events. -/
theorem records_anyEvents {records : List PbIstream} {events : List AnyEvent}
    (h : List.Forall₂ (fun record e ↦ pb.onBytes.IsAnyEvent record.bytes e) records events) :
    (∀ record ∈ records, Named pb record) ∧
      ((∀ e ∈ events, e.list? ≠ none) →
        ∃ idss, List.Forall₂ (ListsIds pb) records idss ∧ idss.flatten = eventIds events) ∧
      ((∃ e ∈ events, e.list? = none) → ∀ idss, ¬ List.Forall₂ (ListsIds pb) records idss) := by
  induction h with
  | nil =>
    refine ⟨nofun, fun _ ↦ ⟨[], .nil, rfl⟩, ?_⟩
    rintro ⟨_, ⟨⟩, -⟩
  | @cons record e records events he _ ih =>
    obtain ⟨hnamed, hall, hnone⟩ := ih
    cases hlist : e.list? with
    | none =>
      have hnot := not_listsIds_of_isAnyEvent hlist he
      refine ⟨List.forall_mem_cons.2 ⟨fun payload hholds ↦ (hnot payload hholds).elim, hnamed⟩,
        fun hlists ↦ absurd hlist (hlists e List.mem_cons_self), ?_⟩
      rintro - _ (_ | ⟨⟨payload, hholds, -⟩, -⟩)
      exact hnot payload hholds
    | some cb =>
      have hevent : ListsIds pb record cb.suids ∧ Named pb record := by
        cases e with
        | other msgId => cases hlist
        | known e =>
          cases e with
          | discoveryDone => cases hlist
          | suidEvent dataType suids =>
            cases hlist
            exact listsIds_of_isEvent he
      refine ⟨List.forall_mem_cons.2 ⟨hevent.2, hnamed⟩, fun hlists ↦ ?_, ?_⟩
      · obtain ⟨idss, hidss, hflat⟩ := hall fun e he ↦ hlists e (List.mem_cons_of_mem _ he)
        refine ⟨cb.suids :: idss, .cons hevent.1 hidss, ?_⟩
        rw [List.flatten_cons, hflat, eventIds, eventIds, List.filterMap_cons_some hlist,
          List.flatMap_cons]
      · rintro ⟨e', he', hlist'⟩ _ (_ | ⟨-, hidss⟩)
        rcases List.mem_cons.1 he' with rfl | he'
        · cases hlist.symm.trans hlist'
        · exact hnone ⟨e', he', hlist'⟩ _ hidss

end

/-- The message for one accelerometer. -/
def accelStream : PbIstream :=
  .ofBytes Discovery.accelMessage

theorem isAnyMessage_accelStream : QshPb.proto.onBytes.IsAnyMessage accelStream.bytes
    [.known (.suidEvent (CLib.str "accel") [⟨1, 2⟩])] := by
  refine ⟨by decide +kernel, ?_⟩
  have hfields : (QshPb.proto.onBytes.clientEventMsg accelStream.bytes).fields =
      [Discovery.accelEvent] := by
    decide +kernel
  have hsuids : (QshPb.proto.onBytes.suidEvent (Discovery.bytesField 10 (CLib.str "accel" ++ [0]) ++
      Discovery.bytesField 18 (Discovery.suidBytes 1 2))).fields.filterMap
        Discovery.SuidEventField.suid? = [Discovery.suidBytes 1 2] := by
    decide +kernel
  rw [hfields]
  refine .cons ⟨by decide +kernel, by decide +kernel, Discovery.bytesField 10
    (CLib.str "accel" ++ [0]) ++ Discovery.bytesField 18 (Discovery.suidBytes 1 2),
    by decide +kernel, by decide +kernel,
    ⟨CLib.str "accel" ++ [0], by decide +kernel, by decide +kernel⟩, ?_⟩ .nil
  rw [hsuids]
  exact .cons ⟨by decide +kernel, by decide +kernel, by decide +kernel⟩ .nil

/-! ### What is left of some messages -/

/-- **What the two clients make of the same message**: where `suidLookUp` calls back for each list
in front of the first event that is none of its own, `getSuid` takes all ids at once, or leaves its
list alone because one of the events is no list; the ids are the same if no list is lost on the
other side. -/
theorem suidEvent_anyMessage {pb : Nanopb} {stream : PbIstream} {events : List AnyEvent}
    (hwithin : ∀ p ∈ (pb.clientEventMsg stream.bytes).fields,
      p.offset + p.length ≤ stream.bytes.length)
    (h : pb.onBytes.IsAnyMessage stream.bytes events) (suidList : List Suid) (self : SuidLookUp) :
    ∃ lookup cbs, self.handleQshEvent pb.onBytes stream.bytes = .ok (lookup, cbs) ∧
      suidEvent pb stream suidList = .ok (if (∀ e ∈ events, e.list? ≠ none) ∧ eventIds events ≠ []
        then eventIds events else suidList) ∧
      (Discovery.NoneLost events → cbs.flatMap EventCb.suids = eventIds events) := by
  obtain ⟨hnamed, hall, hnone⟩ := records_anyEvents (forall₂_records hwithin h)
  refine ⟨_, _, Discovery.handleQshEvent_anyMessage h self, ?_, fun hlost ↦ ?_⟩
  · obtain ⟨suidList', hrun, htaken⟩ := (suidEvent_run pb stream suidList).resolve_left (by
      rintro ⟨e, -, record, hrecord, hnot⟩
      exact hnot (hnamed record hrecord))
    rw [hrun]
    by_cases hlists : ∀ e ∈ events, e.list? ≠ none
    · obtain ⟨idss, hidss, hflat⟩ := hall hlists
      have hids : MessageListsIds pb stream (eventIds events) :=
        ⟨h.complete, idss, hidss, hflat.symm⟩
      rcases htaken with ⟨hids', hne⟩ | ⟨hempty, rfl⟩
      · rw [hids'.unique hids] at hne ⊢
        rw [if_pos ⟨hlists, hne⟩]
      · rw [if_neg fun hboth ↦ hboth.2 (hempty _ hids)]
    · rw [if_neg fun hboth ↦ hlists hboth.1]
      push Not at hlists
      rcases htaken with ⟨⟨-, idss, hidss, -⟩, -⟩ | ⟨-, rfl⟩
      · exact absurd hidss (hnone hlists idss)
      · rfl
  · rw [(Discovery.eventCb_eq_iff events).2 hlost]
    rfl

theorem suidEvent_anyMessage_accelStream :
    ∃ lookup cbs, SuidLookUp.handleQshEvent QshPb.proto.onBytes ⟨true⟩ accelStream.bytes =
        .ok (lookup, cbs) ∧
      suidEvent QshPb.proto accelStream [] = .ok [⟨1, 2⟩] ∧
        cbs.flatMap EventCb.suids = [⟨1, 2⟩] := by
  obtain ⟨lookup, cbs, hlookUp, hclient, hsame⟩ := suidEvent_anyMessage (by decide +kernel)
    isAnyMessage_accelStream [] ⟨true⟩
  exact ⟨lookup, cbs, hlookUp, hclient, hsame (.suidEvent (by decide) .nil)⟩

end SensingHub.Client
