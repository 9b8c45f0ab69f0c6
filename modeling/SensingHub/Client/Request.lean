import SensingHub.Discovery.Request
import SensingHub.QshPb.Callbacks

/-!
# The requests of the example client

`sns_client_request_msg` with what its senders populate of it. nanopb writes an optional field only
if the flag beside it is set, so what a message says is not told by its members alone: `received`
says it, and `decodeRequestMsg_encode` that this is what arrives.

The example client sends four kinds of requests, each from a buffer of its own, which is always
large enough (`Plain.length_wire_le`). It fills in a batch period and the technology of the client
without setting their flags: neither arrives (`exists_encode_configRequestMsg`).
-/

namespace SensingHub.Client

open Discovery (Suid decodeStdSuid decodeStdSuid_encode SNS_STD_CLIENT_PROCESSOR_APSS
  SNS_CLIENT_DELIVERY_WAKEUP SNS_TECH_SENSORS SNS_SUID_MSGID_SNS_SUID_REQ)
open QshPb (Encoder MsgField NanopbWriter encodeBytesCallback encodeNowakeupMsgIds emits_encode
  emits_encode_flatten emits_encodeBytesCallback emits_encodeNowakeupMsgIds)
open Wire (Field Value fields? lastOf allOf)

/-! ### Messages to send -/

/-- `sns_std_request::batch_spec` -/
structure BatchSpec where
  batchPeriod : UInt32
  hasFlushPeriod : Bool
  flushPeriod : UInt32
  deriving DecidableEq, Repr

/-- `sns_client_request_msg`; a callback that is not set is `none`. -/
structure RequestMsg where
  suid : Suid
  msgId : UInt32
  clientProcType : ℕ
  deliveryType : ℕ
  nowakeupMsgIds : Option (List UInt32)
  hasBatching : Bool
  batching : BatchSpec
  payload : Option Bytes
  hasClientTech : Bool
  clientTech : ℕ
  deriving DecidableEq, Repr

/-- `sns_client_request_msg_init_default` -/
def RequestMsg.initDefault : RequestMsg where
  suid := ⟨0, 0⟩
  msgId := 0
  clientProcType := SNS_STD_CLIENT_PROCESSOR_APSS
  deliveryType := SNS_CLIENT_DELIVERY_WAKEUP
  nowakeupMsgIds := none
  hasBatching := false
  batching := ⟨0, false, 0⟩
  payload := none
  hasClientTech := false
  clientTech := 0

/-- What is there if a flag is set. -/
def ifSet {α : Type} (flag : Bool) (a : α) : Option α :=
  if flag then some a else none

namespace RequestMsg

variable (nb : NanopbWriter) (msg : RequestMsg)

/-- The fields of the `batching` that are encoded. -/
def batchingFields : List MsgField :=
  .value ⟨1, .varint msg.batching.batchPeriod.toNat⟩ ::
    (ifSet msg.batching.hasFlushPeriod
      (.value ⟨2, .varint msg.batching.flushPeriod.toNat⟩)).toList

/-- The fields of the `susp_config` that are encoded. -/
def suspConfigFields : List MsgField :=
  .value ⟨1, .varint msg.clientProcType⟩ :: .value ⟨2, .varint msg.deliveryType⟩ ::
    (msg.nowakeupMsgIds.map fun msgIds ↦ .callback (encodeNowakeupMsgIds nb 3 msgIds)).toList

/-- The fields of the `request` that are encoded. -/
def requestFields : List MsgField :=
  (ifSet msg.hasBatching (.submessage 1 (nb.encode msg.batchingFields))).toList ++
    (msg.payload.map fun b ↦
      .callback (encodeBytesCallback nb.toNanopbEncoder ⟨b, b.length⟩ 2)).toList

/-- The fields that are encoded. -/
def fields : List MsgField :=
  .submessage 1 (nb.encode
      [.value ⟨1, .fixed64 msg.suid.low⟩, .value ⟨2, .fixed64 msg.suid.high⟩]) ::
    .value ⟨2, .fixed32 msg.msgId⟩ ::
    .submessage 3 (nb.encode (msg.suspConfigFields nb)) ::
    .submessage 4 (nb.encode (msg.requestFields nb)) ::
    (ifSet msg.hasClientTech (.value ⟨7, .varint msg.clientTech⟩)).toList

end RequestMsg

/-! ### Messages that are received -/

/-- What a `batch_spec` says. -/
structure ReceivedBatch where
  batchPeriod : ℕ
  flushPeriod : Option ℕ
  deriving DecidableEq, Repr

/-- What an `sns_client_request_msg` says. -/
structure ReceivedRequest where
  suid : Suid
  msgId : UInt32
  clientProcType : ℕ
  deliveryType : ℕ
  nowakeupMsgIds : List UInt32
  batching : Option ReceivedBatch
  payload : Option Bytes
  clientTech : Option ℕ
  deriving DecidableEq, Repr

/-- Decode a `batch_spec`, if there is one. -/
def decodeBatching : Option Bytes → Option (Option ReceivedBatch)
  | none => some none
  | some b => do
    let fs ← fields? b
    return some ⟨← lastOf 1 Value.varint? fs, lastOf 2 Value.varint? fs⟩

/-- Decode an `sns_client_request_msg`. -/
def decodeRequestMsg (b : Bytes) : Option ReceivedRequest := do
  let fs ← fields? b
  let suid ← decodeStdSuid (← lastOf 1 Value.bytes? fs)
  let msgId ← lastOf 2 Value.fixed32? fs
  let suspConfig ← fields? (← lastOf 3 Value.bytes? fs)
  let request ← fields? (← lastOf 4 Value.bytes? fs)
  let batching ← decodeBatching (lastOf 1 Value.bytes? request)
  return ⟨suid, msgId, ← lastOf 1 Value.varint? suspConfig, ← lastOf 2 Value.varint? suspConfig,
    allOf 3 Value.fixed32? suspConfig, batching, lastOf 2 Value.bytes? request,
    lastOf 7 Value.varint? fs⟩

/-! ### What is encoded -/

namespace RequestMsg

variable (msg : RequestMsg)

/-- The fields of the `batching`, on the wire. -/
def batchingWire : List Field :=
  ⟨1, .varint msg.batching.batchPeriod.toNat⟩ ::
    (ifSet msg.batching.hasFlushPeriod ⟨2, .varint msg.batching.flushPeriod.toNat⟩).toList

/-- The fields of the `susp_config`, on the wire. -/
def suspConfigWire : List Field :=
  ⟨1, .varint msg.clientProcType⟩ :: ⟨2, .varint msg.deliveryType⟩ ::
    (msg.nowakeupMsgIds.getD []).map fun id ↦ ⟨3, .fixed32 id⟩

/-- The fields of the `request`, on the wire. -/
def requestWire : List Field :=
  (ifSet msg.hasBatching ⟨1, .bytes (Wire.encode msg.batchingWire)⟩).toList ++
    (msg.payload.map fun b ↦ ⟨2, .bytes b⟩).toList

/-- The fields of the message, on the wire. -/
def wire : List Field :=
  ⟨1, .bytes (Wire.encode [⟨1, .fixed64 msg.suid.low⟩, ⟨2, .fixed64 msg.suid.high⟩])⟩ ::
    ⟨2, .fixed32 msg.msgId⟩ :: ⟨3, .bytes (Wire.encode msg.suspConfigWire)⟩ ::
    ⟨4, .bytes (Wire.encode msg.requestWire)⟩ ::
    (ifSet msg.hasClientTech ⟨7, .varint msg.clientTech⟩).toList

/-- What the message says. -/
def received : ReceivedRequest where
  suid := msg.suid
  msgId := msg.msgId
  clientProcType := msg.clientProcType
  deliveryType := msg.deliveryType
  nowakeupMsgIds := msg.nowakeupMsgIds.getD []
  batching := ifSet msg.hasBatching ⟨msg.batching.batchPeriod.toNat,
    ifSet msg.batching.hasFlushPeriod msg.batching.flushPeriod.toNat⟩
  payload := msg.payload
  clientTech := ifSet msg.hasClientTech msg.clientTech

section

variable {nb : NanopbWriter} (h : nb.FollowsWireFormat)

/-- An optional field emits what is there of it. -/
theorem forall₂_ifSet {flag : Bool} {f : MsgField} {g : Field} (hfield : f.Emits g.encode) :
    List.Forall₂ (fun f g ↦ f.Emits (Field.encode g)) (ifSet flag f).toList
      (ifSet flag g).toList := by
  cases flag with
  | false => exact .nil
  | true => exact .cons hfield .nil

include h in
theorem emits_suspConfig :
    Output.Emits (nb.encode (msg.suspConfigFields nb)) (Wire.encode msg.suspConfigWire) := by
  have hvalue : ∀ f : Field, (MsgField.value f).Emits (Wire.encode [f]) :=
    fun f ↦ (List.append_nil _)
  unfold suspConfigFields suspConfigWire
  cases msg.nowakeupMsgIds with
  | none => exact emits_encode h.toFollowsWireFormat (.cons rfl (.cons rfl .nil))
  | some msgIds =>
    have hids : (MsgField.callback (encodeNowakeupMsgIds nb 3 msgIds)).Emits
        (Wire.encode (msgIds.map fun id ↦ ⟨3, .fixed32 id⟩)) :=
      emits_encodeNowakeupMsgIds h 3 msgIds
    have hall := emits_encode_flatten h.toFollowsWireFormat
      (.cons (hvalue ⟨1, .varint msg.clientProcType⟩)
        (.cons (hvalue ⟨2, .varint msg.deliveryType⟩) (.cons hids .nil)))
    rwa [List.flatten_cons, List.flatten_cons, List.flatten_cons, List.flatten_nil,
      List.append_nil] at hall

include h in
theorem emits_request :
    Output.Emits (nb.encode (msg.requestFields nb)) (Wire.encode msg.requestWire) := by
  have hbatching : Output.Emits (nb.encode msg.batchingFields) (Wire.encode msg.batchingWire) :=
    emits_encode h.toFollowsWireFormat (.cons rfl (forall₂_ifSet rfl))
  have hsub : (MsgField.submessage 1 (nb.encode msg.batchingFields)).Emits
      (Field.encode ⟨1, .bytes (Wire.encode msg.batchingWire)⟩) := ⟨_, hbatching, rfl⟩
  refine emits_encode h.toFollowsWireFormat (List.rel_append (forall₂_ifSet hsub) ?_)
  cases msg.payload with
  | none => exact .nil
  | some b => exact .cons (emits_encodeBytesCallback h.toFollowsWireFormat b 2) .nil

include h in
/-- **The message emits what it has set.** -/
theorem emits_fields : Output.Emits (nb.encode (msg.fields nb)) (Wire.encode msg.wire) := by
  refine emits_encode h.toFollowsWireFormat (.cons ⟨_, ?_, rfl⟩ (.cons rfl (.cons ⟨_, ?_, rfl⟩
    (.cons ⟨_, ?_, rfl⟩ (forall₂_ifSet rfl)))))
  · exact emits_encode h.toFollowsWireFormat (.cons rfl (.cons rfl .nil))
  · exact msg.emits_suspConfig h
  · exact msg.emits_request h

end

/-! ### What arrives -/

/-- Fields with another number behind some fields do not matter. -/
theorem lastOf_append_ids {α : Type} {number : ℕ} (hnumber : number ≠ 3)
    (value : Value → Option α) (fs : List Field) (ids : List UInt32) :
    lastOf number value (fs ++ ids.map fun id ↦ ⟨3, .fixed32 id⟩) = lastOf number value fs := by
  have hids : ((ids.map fun id ↦ (⟨3, .fixed32 id⟩ : Field)).filterMap fun f ↦
      if f.number = number then value f.value else none) = [] := by
    rw [List.filterMap_eq_nil_iff, List.forall_mem_map]
    exact fun _ _ ↦ if_neg fun h ↦ hnumber h.symm
  rw [lastOf, List.filterMap_append, hids, List.append_nil]
  rfl

theorem allOf_ids (ids : List UInt32) :
    allOf 3 Value.fixed32? (ids.map fun id ↦ (⟨3, .fixed32 id⟩ : Field)) = ids := by
  rw [allOf, List.filterMap_map]
  exact List.filterMap_some

theorem suspConfigWire_read :
    lastOf 1 Value.varint? msg.suspConfigWire = some msg.clientProcType ∧
      lastOf 2 Value.varint? msg.suspConfigWire = some msg.deliveryType ∧
      allOf 3 Value.fixed32? msg.suspConfigWire = msg.nowakeupMsgIds.getD [] := by
  have hsplit : msg.suspConfigWire = [⟨1, .varint msg.clientProcType⟩,
      ⟨2, .varint msg.deliveryType⟩] ++ (msg.nowakeupMsgIds.getD []).map
        fun id ↦ ⟨3, .fixed32 id⟩ := rfl
  refine ⟨?_, ?_, allOf_ids _⟩
  · rw [hsplit, lastOf_append_ids (by decide)]
    rfl
  · rw [hsplit, lastOf_append_ids (by decide)]
    rfl

theorem decodeBatching_requestWire :
    decodeBatching (lastOf 1 Value.bytes? msg.requestWire) = some msg.received.batching := by
  have hnone : ∀ b : Option Bytes, lastOf 1 Value.bytes?
      (b.map fun b ↦ (⟨2, .bytes b⟩ : Field)).toList = none := by
    rintro (_ | _) <;> rfl
  have hsome : ∀ (c : Bytes) (b : Option Bytes), lastOf 1 Value.bytes?
      (⟨1, .bytes c⟩ :: (b.map fun b ↦ (⟨2, .bytes b⟩ : Field)).toList) = some c := by
    rintro c (_ | _) <;> rfl
  unfold requestWire received
  cases msg.hasBatching with
  | false => exact congrArg decodeBatching (hnone msg.payload)
  | true =>
    refine (congrArg decodeBatching (hsome _ msg.payload)).trans ?_
    rw [decodeBatching, Wire.fields?_encode, batchingWire]
    cases msg.batching.hasFlushPeriod <;> rfl

theorem payload_requestWire : lastOf 2 Value.bytes? msg.requestWire = msg.payload := by
  unfold requestWire
  cases msg.hasBatching <;> cases msg.payload <;> rfl

/-- **What is encoded is what arrives.** -/
theorem decodeRequestMsg_encode : decodeRequestMsg (Wire.encode msg.wire) = some msg.received := by
  obtain ⟨hproc, hdelivery, hids⟩ := msg.suspConfigWire_read
  have hbatching := msg.decodeBatching_requestWire
  have hpayload := msg.payload_requestWire
  have hsuid : lastOf 1 Value.bytes? msg.wire =
      some (Wire.encode [⟨1, .fixed64 msg.suid.low⟩, ⟨2, .fixed64 msg.suid.high⟩]) := by
    unfold wire
    cases msg.hasClientTech <;> rfl
  have hmsgId : lastOf 2 Value.fixed32? msg.wire = some msg.msgId := by
    unfold wire
    cases msg.hasClientTech <;> rfl
  have hconfig : lastOf 3 Value.bytes? msg.wire = some (Wire.encode msg.suspConfigWire) := by
    unfold wire
    cases msg.hasClientTech <;> rfl
  have hrequest : lastOf 4 Value.bytes? msg.wire = some (Wire.encode msg.requestWire) := by
    unfold wire
    cases msg.hasClientTech <;> rfl
  have htech : lastOf 7 Value.varint? msg.wire = ifSet msg.hasClientTech msg.clientTech := by
    unfold wire
    cases msg.hasClientTech <;> rfl
  simp only [decodeRequestMsg, Wire.fields?_encode, hsuid, hmsgId, hconfig, hrequest, htech, hproc,
    hdelivery, hids, hbatching, hpayload, Option.bind_eq_bind, Option.bind_some,
    decodeStdSuid_encode]
  rfl

/-! ### How long it is -/

theorem length_suid (suid : Suid) :
    (Wire.encode [⟨1, .fixed64 suid.low⟩, ⟨2, .fixed64 suid.high⟩]).length = 18 := by
  rw [Wire.encode_cons, Wire.encode_cons, List.length_append, List.length_append,
    Wire.length_encode_fixed64 (by decide), Wire.length_encode_fixed64 (by decide)]
  rfl

/-- A field of few bytes. -/
theorem length_encode_bytes_of_lt {number : ℕ} (hnumber : number < 16) {b : Bytes}
    (hb : b.length < 128) : (Field.encode ⟨number, .bytes b⟩).length = b.length + 2 := by
  rw [Wire.length_encode_bytes hnumber, Wire.length_varint_of_lt hb]
  omega

/-- The message has no optional field but the payload, which is short. -/
structure Plain : Prop where
  clientProcType : msg.clientProcType = SNS_STD_CLIENT_PROCESSOR_APSS
  deliveryType : msg.deliveryType = SNS_CLIENT_DELIVERY_WAKEUP
  nowakeupMsgIds : msg.nowakeupMsgIds = none
  hasBatching : msg.hasBatching = false
  hasClientTech : msg.hasClientTech = false
  payload : ∀ b ∈ msg.payload, b.length ≤ 100

variable {msg}

theorem Plain.length_suspConfig (h : msg.Plain) :
    (Wire.encode msg.suspConfigWire).length = 4 := by
  rw [suspConfigWire, h.nowakeupMsgIds, h.clientProcType, h.deliveryType, Wire.encode_cons,
    Wire.encode_cons, List.length_append, List.length_append,
    Wire.length_encode_varint (by decide) (by decide),
    Wire.length_encode_varint (by decide) (by decide)]
  rfl

theorem Plain.length_request (h : msg.Plain) :
    (Wire.encode msg.requestWire).length ≤ (msg.payload.getD []).length + 2 := by
  rw [requestWire, h.hasBatching]
  cases hpayload : msg.payload with
  | none => exact Nat.zero_le _
  | some b =>
    have hlen := h.payload b hpayload
    show (Wire.encode [⟨2, .bytes b⟩]).length ≤ b.length + 2
    rw [Wire.encode_cons, List.length_append, length_encode_bytes_of_lt (by decide) (by omega)]
    exact Nat.le_refl _

/-- **How long such a message is**: 35 bytes and its payload. -/
theorem Plain.length_wire_le (h : msg.Plain) :
    (Wire.encode msg.wire).length ≤ (msg.payload.getD []).length + 35 := by
  have hsuid := length_suid msg.suid
  have hconfig := h.length_suspConfig
  have hrequest := h.length_request
  have hpayload : (msg.payload.getD []).length ≤ 100 := by
    cases hpayload : msg.payload with
    | none => exact Nat.zero_le _
    | some b => exact h.payload b hpayload
  rw [wire, h.hasClientTech]
  generalize Wire.encode [⟨1, .fixed64 msg.suid.low⟩, ⟨2, .fixed64 msg.suid.high⟩] = suidBytes at *
  simp only [Wire.encode_cons, List.length_append]
  rw [length_encode_bytes_of_lt (by decide) (by omega), Wire.length_encode_fixed32 (by decide),
    length_encode_bytes_of_lt (by decide) (by omega),
    length_encode_bytes_of_lt (by decide) (by omega), hsuid, hconfig]
  show _ + (_ + (_ + (_ + 0))) ≤ _
  omega

end RequestMsg

/-! ### Round trip -/

section

variable {nb : NanopbWriter} (h : nb.FollowsWireFormat) (msg : RequestMsg) {size : ℕ}

include h in
theorem RequestMsg.exists_encode_iff :
    (∃ out, nb.encode (msg.fields nb) (.fromBuffer size) = some out) ↔
      (Wire.encode msg.wire).length ≤ size := by
  rw [msg.emits_fields h]
  exact Output.exists_write_fromBuffer_iff

include h in
theorem RequestMsg.decodeRequestMsg_written {out : Output}
    (hout : nb.encode (msg.fields nb) (.fromBuffer size) = some out) :
    decodeRequestMsg out.written = some msg.received := by
  rw [msg.emits_fields h] at hout
  rw [Output.written_of_write hout]
  exact msg.decodeRequestMsg_encode

end

/-- **A message arrives as it was set**: encoding fails exactly if the buffer is too small, and else
what is received are the members that have no flag, or whose flag is set. -/
theorem requestMsg_roundTrip {nb : NanopbWriter} (h : nb.FollowsWireFormat) (msg : RequestMsg)
    (size : ℕ) :
    ((∃ out, nb.encode (msg.fields nb) (.fromBuffer size) = some out) ↔
        (Wire.encode msg.wire).length ≤ size) ∧
      ∀ out, nb.encode (msg.fields nb) (.fromBuffer size) = some out →
        decodeRequestMsg out.written = some msg.received :=
  ⟨msg.exists_encode_iff h, fun _ ↦ msg.decodeRequestMsg_written h⟩

/-- A message without batching, although it has a period. -/
def unbatched : RequestMsg :=
  { RequestMsg.initDefault with batching := ⟨2000000, true, 5⟩, nowakeupMsgIds := some [7, 8] }

theorem requestMsg_roundTrip_unbatched :
    ∃ out, QshPb.protoWriter.encode (unbatched.fields QshPb.protoWriter) (.fromBuffer 100) =
        some out ∧
      decodeRequestMsg out.written = some ⟨⟨0, 0⟩, 0, 1, 0, [7, 8], none, none, none⟩ := by
  obtain ⟨hfits, harrives⟩ :=
    requestMsg_roundTrip QshPb.protoWriter_followsWireFormat unbatched 100
  obtain ⟨out, hout⟩ := hfits.2 (by decide +kernel)
  exact ⟨out, hout, harrives out hout⟩

/-! ### The requests of the client -/

/-- `SNS_STD_MSGID_SNS_STD_ATTR_REQ` -/
def SNS_STD_MSGID_SNS_STD_ATTR_REQ : UInt32 := 1

/-- `SNS_CLIENT_MSGID_SNS_CLIENT_DISABLE_REQ` -/
def SNS_CLIENT_MSGID_SNS_CLIENT_DISABLE_REQ : UInt32 := 10

/-- `SNS_STD_SENSOR_MSGID_SNS_STD_SENSOR_CONFIG` -/
def SNS_STD_SENSOR_MSGID_SNS_STD_SENSOR_CONFIG : UInt32 := 513

/-- `sensorType` -/
def sensorType : Bytes :=
  CLib.str "accel"

/-- `sampleRate`, 10 Hz, by the bits of the float. -/
def sampleRate : UInt32 := 0x41200000

/-- `batchPeriodMicroSec`, of 2 s. -/
def batchPeriodMicroSec : UInt32 := 2000000

/-- The `request_msg` of `getSuid`. -/
def suidRequestMsg (uid : Suid) (payload : Bytes) : RequestMsg :=
  { RequestMsg.initDefault with
    suid := uid
    msgId := SNS_SUID_MSGID_SNS_SUID_REQ
    clientProcType := SNS_STD_CLIENT_PROCESSOR_APSS
    deliveryType := SNS_CLIENT_DELIVERY_WAKEUP
    nowakeupMsgIds := none
    payload := some payload }

/-- The `request_msg` of `getAttributes`. -/
def attrRequestMsg (uid : Suid) : RequestMsg :=
  { RequestMsg.initDefault with
    suid := uid
    msgId := SNS_STD_MSGID_SNS_STD_ATTR_REQ
    clientProcType := SNS_STD_CLIENT_PROCESSOR_APSS
    deliveryType := SNS_CLIENT_DELIVERY_WAKEUP
    payload := none }

/-- The `pb_req_msg` of `startStreaming`. -/
def configRequestMsg (uid : Suid) (payload : Bytes) : RequestMsg :=
  { RequestMsg.initDefault with
    suid := uid
    msgId := SNS_STD_SENSOR_MSGID_SNS_STD_SENSOR_CONFIG
    clientProcType := SNS_STD_CLIENT_PROCESSOR_APSS
    deliveryType := SNS_CLIENT_DELIVERY_WAKEUP
    batching := { RequestMsg.initDefault.batching with batchPeriod := batchPeriodMicroSec }
    payload := some payload
    clientTech := SNS_TECH_SENSORS }

/-- The `pb_req_msg` of `stopStreaming`. -/
def disableRequestMsg (uid : Suid) : RequestMsg :=
  { RequestMsg.initDefault with
    suid := uid
    msgId := SNS_CLIENT_MSGID_SNS_CLIENT_DISABLE_REQ
    clientProcType := SNS_STD_CLIENT_PROCESSOR_APSS
    deliveryType := SNS_CLIENT_DELIVERY_WAKEUP
    batching := { RequestMsg.initDefault.batching with
      flushPeriod := 4294967295
      batchPeriod := 0 }
    payload := none
    clientTech := SNS_TECH_SENSORS }

section

variable (nb : NanopbWriter) (uid : Suid)

/-- The `pb_encode` of a request, into a buffer of its own. -/
def encodeRequestMsg (size : ℕ) (msg : RequestMsg) : Option Output :=
  nb.encode (msg.fields nb) (.fromBuffer size)

/-- The `pb_encode` of the `sns_suid_req`: `requestSuid` has the same. -/
def encodeSuidReq : Option Output :=
  Discovery.encodePayload nb.toNanopbEncoder sensorType true

/-- The `pb_encode` of the `sns_std_sensor_config`. -/
def encodeSensorConfig : Option Output :=
  nb.encode [.value ⟨1, .fixed32 sampleRate⟩] (.fromBuffer 50)

end

/-- Decode an `sns_std_sensor_config`. -/
def decodeSensorConfig (b : Bytes) : Option UInt32 := do
  let fs ← fields? b
  lastOf 1 Value.fixed32? fs

/-- What is received of a request that says nothing but what it is for. -/
def plainRequest (uid : Suid) (msgId : UInt32) (payload : Option Bytes) : ReceivedRequest :=
  ⟨uid, msgId, SNS_STD_CLIENT_PROCESSOR_APSS, SNS_CLIENT_DELIVERY_WAKEUP, [], none, payload, none⟩

section

variable {nb : NanopbWriter} (h : nb.FollowsWireFormat)

include h in
/-- A plain message fits into a buffer, and arrives. -/
theorem exists_encodeRequestMsg (msg : RequestMsg) (hplain : msg.Plain) {size : ℕ}
    (hsize : (msg.payload.getD []).length + 35 ≤ size) :
    ∃ out, encodeRequestMsg nb size msg = some out ∧
      decodeRequestMsg out.written = some msg.received := by
  obtain ⟨out, hout⟩ := (msg.exists_encode_iff h).2 (hplain.length_wire_le.trans hsize)
  exact ⟨out, hout, msg.decodeRequestMsg_written h hout⟩

include h in
theorem exists_encodeSuidReq :
    ∃ out, encodeSuidReq nb = some out ∧ out.written.length ≤ 100 ∧
      Discovery.decodeSuidReq out.written = some ⟨sensorType ++ [0], some true, some true⟩ := by
  obtain ⟨hiff, hwritten⟩ := Discovery.encodePayload_eq_some h.toFollowsWireFormat sensorType true
  obtain ⟨out, hout⟩ := hiff.1 (by decide)
  have hbytes := hwritten out hout
  refine ⟨out, hout, ?_, ?_⟩
  · rw [hbytes, Discovery.length_suidReq_le_iff]
    decide
  · rw [hbytes, Discovery.decodeSuidReq_encode]

include h in
theorem exists_encodeSensorConfig :
    ∃ out, encodeSensorConfig nb = some out ∧ out.written.length = 5 ∧
      decodeSensorConfig out.written = some sampleRate := by
  have hemits : Output.Emits (nb.encode [.value ⟨1, .fixed32 sampleRate⟩])
      (Wire.encode [⟨1, .fixed32 sampleRate⟩]) :=
    emits_encode h.toFollowsWireFormat (.cons rfl .nil)
  have hlen : (Wire.encode [⟨1, .fixed32 sampleRate⟩]).length = 5 := by
    rw [Wire.encode_cons, List.length_append, Wire.length_encode_fixed32 (by decide)]
    rfl
  rw [encodeSensorConfig, hemits]
  obtain ⟨out, hout⟩ := Output.exists_write_fromBuffer_iff.2 (show _ ≤ 50 by rw [hlen]; decide)
  have hwritten : out.written = Wire.encode [⟨1, .fixed32 sampleRate⟩] :=
    Output.written_of_write hout
  refine ⟨out, hout, by rw [hwritten, hlen], ?_⟩
  rw [decodeSensorConfig, hwritten, Wire.fields?_encode]
  rfl

/-! Each of the requests is encoded, for every sensor, and says what it is for; neither a batch
period nor the technology of the client is among that. -/

include h in
theorem exists_encode_suidRequestMsg (uid : Suid) {payload : Bytes} (hlen : payload.length ≤ 100) :
    ∃ out, encodeRequestMsg nb 256 (suidRequestMsg uid payload) = some out ∧
      decodeRequestMsg out.written =
        some (plainRequest uid SNS_SUID_MSGID_SNS_SUID_REQ (some payload)) :=
  exists_encodeRequestMsg h (suidRequestMsg uid payload)
    ⟨rfl, rfl, rfl, rfl, rfl, by rintro _ ⟨⟩; exact hlen⟩
    (show payload.length + 35 ≤ 256 by omega)

include h in
theorem exists_encode_attrRequestMsg (uid : Suid) :
    ∃ out, encodeRequestMsg nb 256 (attrRequestMsg uid) = some out ∧
      decodeRequestMsg out.written = some (plainRequest uid SNS_STD_MSGID_SNS_STD_ATTR_REQ none) :=
  exists_encodeRequestMsg h (attrRequestMsg uid)
    ⟨rfl, rfl, rfl, rfl, rfl, nofun⟩ (show 0 + 35 ≤ 256 by decide)

include h in
theorem exists_encode_configRequestMsg (uid : Suid) {payload : Bytes} (hlen : payload.length = 5) :
    ∃ out, encodeRequestMsg nb 100 (configRequestMsg uid payload) = some out ∧
      decodeRequestMsg out.written =
        some (plainRequest uid SNS_STD_SENSOR_MSGID_SNS_STD_SENSOR_CONFIG (some payload)) :=
  exists_encodeRequestMsg h (configRequestMsg uid payload)
    ⟨rfl, rfl, rfl, rfl, rfl, by rintro _ ⟨⟩; omega⟩
    (show payload.length + 35 ≤ 100 by omega)

include h in
theorem exists_encode_disableRequestMsg (uid : Suid) :
    ∃ out, encodeRequestMsg nb 256 (disableRequestMsg uid) = some out ∧
      decodeRequestMsg out.written =
        some (plainRequest uid SNS_CLIENT_MSGID_SNS_CLIENT_DISABLE_REQ none) :=
  exists_encodeRequestMsg h (disableRequestMsg uid)
    ⟨rfl, rfl, rfl, rfl, rfl, nofun⟩ (show 0 + 35 ≤ 256 by decide)

end

end SensingHub.Client
