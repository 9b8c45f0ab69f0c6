import SensingHub.Discovery.LookUp
import SensingHub.QshPb.Encode

/-!
# Requests for sensor ids

`requestSuid` encodes an `sns_suid_req` into a buffer of 100 bytes, puts these into the payload of
an `sns_client_request_msg`, and encodes that into a buffer of 256 bytes. The first buffer is what
bounds the data type: it takes 93 bytes and the NUL behind them. The second takes whatever the first
did.
-/

namespace SensingHub.Discovery

open QshPb (Encoder MsgField NanopbEncoder PbBufferArg encodeBytesCallback emits_encode
  emits_encodeBytesCallback)
open Wire (Field Value fields? lastOf)

/-! ### Messages to send -/

/-- `SNS_SUID_MSGID_SNS_SUID_REQ` -/
def SNS_SUID_MSGID_SNS_SUID_REQ : UInt32 := 512

/-- `SNS_STD_CLIENT_PROCESSOR_APSS` -/
def SNS_STD_CLIENT_PROCESSOR_APSS : ℕ := 1

/-- `SNS_CLIENT_DELIVERY_WAKEUP` -/
def SNS_CLIENT_DELIVERY_WAKEUP : ℕ := 0

/-- `SNS_TECH_SENSORS` -/
def SNS_TECH_SENSORS : ℕ := 1

/-- `sns_suid_req`: the callback for the field `data_type` is given the number of that. -/
structure SuidReq where
  dataType : ℕ → Encoder
  registerUpdates : Option Bool
  defaultOnly : Option Bool

/-- The fields of an `sns_suid_req` that are set. -/
def SuidReq.fields (req : SuidReq) : List MsgField :=
  .callback (req.dataType 1) ::
    ((req.registerUpdates.map fun v ↦ .value ⟨2, .varint v.toNat⟩).toList ++
      (req.defaultOnly.map fun v ↦ .value ⟨3, .varint v.toNat⟩).toList)

/-- `sns_client_request_msg`, as far as it is populated: the callback is that for the field
`payload` of the `request`. -/
structure ClientRequestMsg where
  suid : Suid
  msgId : UInt32
  clientProcType : ℕ
  deliveryType : ℕ
  payload : ℕ → Encoder
  clientTech : Option ℕ

/-- The fields of an `sns_client_request_msg` that are set. -/
def ClientRequestMsg.fields (nb : NanopbEncoder) (msg : ClientRequestMsg) : List MsgField :=
  .submessage 1 (nb.encode
      [.value ⟨1, .fixed64 msg.suid.low⟩, .value ⟨2, .fixed64 msg.suid.high⟩]) ::
    .value ⟨2, .fixed32 msg.msgId⟩ ::
    .submessage 3 (nb.encode
      [.value ⟨1, .varint msg.clientProcType⟩, .value ⟨2, .varint msg.deliveryType⟩]) ::
    .submessage 4 (nb.encode [.callback (msg.payload 2)]) ::
    (msg.clientTech.map fun v ↦ .value ⟨7, .varint v⟩).toList

/-! ### `requestSuid` -/

/-- The object as far as requests are concerned: the id of the sensor it sends them to, and its
session, with the arguments of the calls of `sendRequest` so far. -/
structure SuidSession where
  mSensorUid : Suid
  mSession : Option (List (Suid × Bytes))

/-- The id of the SUID sensor. -/
def suidSensor : Suid :=
  ⟨12370169555311111083, 12370169555311111083⟩

/-- What the constructor makes of a session it could open, when some requests have been sent. -/
def SuidSession.opened (sent : List (Suid × Bytes)) : SuidSession :=
  ⟨suidSensor, some sent⟩

/-- The request that is populated for a data type, as `c_str()` gives it. -/
def suidReq (nb : NanopbEncoder) (datatype : Bytes) (defaultOnly : Bool) : SuidReq where
  dataType := encodeBytesCallback nb ⟨datatype ++ [0], datatype.length + 1⟩
  registerUpdates := some true
  defaultOnly := some defaultOnly

/-- The message that is populated for an encoded request. -/
def requestMsg (nb : NanopbEncoder) (suid : Suid) (payload : PbBufferArg) : ClientRequestMsg where
  suid := suid
  msgId := SNS_SUID_MSGID_SNS_SUID_REQ
  clientProcType := SNS_STD_CLIENT_PROCESSOR_APSS
  deliveryType := SNS_CLIENT_DELIVERY_WAKEUP
  payload := encodeBytesCallback nb payload
  clientTech := some SNS_TECH_SENSORS

/-- The first `pb_encode`. -/
def encodePayload (nb : NanopbEncoder) (datatype : Bytes) (defaultOnly : Bool) : Option Output :=
  nb.encode (suidReq nb datatype defaultOnly).fields (.fromBuffer 100)

/-- The second `pb_encode`. -/
def encodeRequest (nb : NanopbEncoder) (suid : Suid) (payloadStream : Output) : Option Output :=
  nb.encode ((requestMsg nb suid
    ⟨payloadStream.written, payloadStream.written.length⟩).fields nb) (.fromBuffer 256)

/-- `requestSuid`. What `sendRequest` returns is only logged. -/
def SuidSession.requestSuid (self : SuidSession) (nb : NanopbEncoder) (datatype : Bytes)
    (defaultOnly : Bool) : SuidSession :=
  match encodePayload nb datatype defaultOnly with
  | none => self
  | some payloadStream =>
    match encodeRequest nb self.mSensorUid payloadStream with
    | none => self
    | some stream =>
      { self with mSession := self.mSession.map fun sent ↦
          sent ++ [(self.mSensorUid, stream.written)] }

/-! ### Messages that are received -/

/-- What an `sns_suid_req` says. -/
structure ReceivedSuidReq where
  dataType : Bytes
  registerUpdates : Option Bool
  defaultOnly : Option Bool
  deriving DecidableEq, Repr

/-- What an `sns_client_request_msg` says. -/
structure ReceivedRequest where
  suid : Suid
  msgId : UInt32
  clientProcType : ℕ
  deliveryType : ℕ
  payload : Option Bytes
  clientTech : Option ℕ
  deriving DecidableEq, Repr

/-- Decode an `sns_suid_req`. -/
def decodeSuidReq (b : Bytes) : Option ReceivedSuidReq := do
  let fs ← fields? b
  let dataType ← lastOf 1 Value.bytes? fs
  return ⟨dataType, (lastOf 2 Value.varint? fs).map fun n ↦ decide (n ≠ 0),
    (lastOf 3 Value.varint? fs).map fun n ↦ decide (n ≠ 0)⟩

/-- Decode an `sns_std_suid`. -/
def decodeStdSuid (b : Bytes) : Option Suid := do
  let fs ← fields? b
  return ⟨← lastOf 1 Value.fixed64? fs, ← lastOf 2 Value.fixed64? fs⟩

/-- Decode an `sns_client_request_msg`. -/
def decodeClientRequest (b : Bytes) : Option ReceivedRequest := do
  let fs ← fields? b
  let suid ← decodeStdSuid (← lastOf 1 Value.bytes? fs)
  let msgId ← lastOf 2 Value.fixed32? fs
  let suspConfig ← fields? (← lastOf 3 Value.bytes? fs)
  let request ← fields? (← lastOf 4 Value.bytes? fs)
  return ⟨suid, msgId, ← lastOf 1 Value.varint? suspConfig, ← lastOf 2 Value.varint? suspConfig,
    lastOf 2 Value.bytes? request, lastOf 7 Value.varint? fs⟩

/-! ### What is encoded -/

/-- The fields of the request. -/
def suidReqFields (datatype : Bytes) (defaultOnly : Bool) : List Field :=
  [⟨1, .bytes (datatype ++ [0])⟩, ⟨2, .varint 1⟩, ⟨3, .varint defaultOnly.toNat⟩]

/-- The fields of the message. -/
def requestMsgFields (suid : Suid) (payload : Bytes) : List Field :=
  [⟨1, .bytes (Wire.encode [⟨1, .fixed64 suid.low⟩, ⟨2, .fixed64 suid.high⟩])⟩,
    ⟨2, .fixed32 SNS_SUID_MSGID_SNS_SUID_REQ⟩,
    ⟨3, .bytes (Wire.encode [⟨1, .varint SNS_STD_CLIENT_PROCESSOR_APSS⟩,
      ⟨2, .varint SNS_CLIENT_DELIVERY_WAKEUP⟩])⟩,
    ⟨4, .bytes (Wire.encode [⟨2, .bytes payload⟩])⟩, ⟨7, .varint SNS_TECH_SENSORS⟩]

section

variable {nb : NanopbEncoder} (h : nb.FollowsWireFormat)

include h in
theorem emits_suidReq (datatype : Bytes) (defaultOnly : Bool) :
    Output.Emits (nb.encode (suidReq nb datatype defaultOnly).fields)
      (Wire.encode (suidReqFields datatype defaultOnly)) := by
  refine emits_encode h (.cons ?_ (.cons rfl (.cons rfl .nil)))
  have hbytes := emits_encodeBytesCallback h (datatype ++ [0]) 1
  rwa [List.length_append] at hbytes

include h in
theorem emits_requestMsg (suid : Suid) (payload : Bytes) :
    Output.Emits (nb.encode ((requestMsg nb suid ⟨payload, payload.length⟩).fields nb))
      (Wire.encode (requestMsgFields suid payload)) := by
  refine emits_encode h (.cons ⟨_, ?_, rfl⟩ (.cons rfl (.cons ⟨_, ?_, rfl⟩
    (.cons ⟨_, ?_, rfl⟩ (.cons rfl .nil)))))
  · exact emits_encode h (.cons rfl (.cons rfl .nil))
  · exact emits_encode h (.cons rfl (.cons rfl .nil))
  · exact emits_encode h (.cons (emits_encodeBytesCallback h payload 2) .nil)

end

/-! ### How long it is -/

theorem length_suidReq (datatype : Bytes) (defaultOnly : Bool) :
    (Wire.encode (suidReqFields datatype defaultOnly)).length =
      (Wire.varint (datatype.length + 1)).length + datatype.length + 6 := by
  have hbytes := Wire.length_encode_bytes (show 1 < 16 by decide) (datatype ++ [0])
  have hupdates := Wire.length_encode_varint (show 2 < 16 by decide) (show 1 < 128 by decide)
  have hdefault := Wire.length_encode_varint (show 3 < 16 by decide)
    (show defaultOnly.toNat < 128 by cases defaultOnly <;> decide)
  rw [List.length_append, List.length_singleton] at hbytes
  rw [suidReqFields, Wire.encode_cons, Wire.encode_cons, Wire.encode_cons, List.length_append,
    List.length_append, List.length_append, hbytes, hupdates, hdefault]
  show _ + (2 + (2 + 0)) = _
  omega

/-- **The first buffer takes data types of 93 bytes.** -/
theorem length_suidReq_le_iff (datatype : Bytes) (defaultOnly : Bool) :
    (Wire.encode (suidReqFields datatype defaultOnly)).length ≤ 100 ↔ datatype.length ≤ 93 := by
  rw [length_suidReq]
  rcases Nat.lt_or_ge (datatype.length + 1) 128 with hlt | hle
  · rw [Wire.length_varint_of_lt hlt]
    omega
  · omega

/-- **The second buffer takes what the first one does.** -/
theorem length_requestMsg_le (suid : Suid) {payload : Bytes} (hpayload : payload.length ≤ 100) :
    (Wire.encode (requestMsgFields suid payload)).length ≤ 256 := by
  have hsuid : (Wire.encode [⟨1, .fixed64 suid.low⟩, ⟨2, .fixed64 suid.high⟩]).length = 18 := by
    rw [Wire.encode_cons, Wire.encode_cons, List.length_append, List.length_append,
      Wire.length_encode_fixed64 (by decide), Wire.length_encode_fixed64 (by decide)]
    rfl
  have hconfig : (Wire.encode [⟨1, .varint SNS_STD_CLIENT_PROCESSOR_APSS⟩,
      ⟨2, .varint SNS_CLIENT_DELIVERY_WAKEUP⟩]).length = 4 := by
    rw [Wire.encode_cons, Wire.encode_cons, List.length_append, List.length_append,
      Wire.length_encode_varint (by decide) (by decide),
      Wire.length_encode_varint (by decide) (by decide)]
    rfl
  have hrequest : (Wire.encode [⟨2, .bytes payload⟩]).length = payload.length + 2 := by
    rw [Wire.encode_cons, List.length_append, Wire.length_encode_bytes (by decide),
      Wire.length_varint_of_lt (by omega)]
    show 1 + (1 + payload.length) + 0 = _
    omega
  rw [requestMsgFields]
  generalize Wire.encode [⟨1, .fixed64 suid.low⟩, ⟨2, .fixed64 suid.high⟩] = suidBytes at *
  generalize Wire.encode [⟨1, .varint SNS_STD_CLIENT_PROCESSOR_APSS⟩,
    ⟨2, .varint SNS_CLIENT_DELIVERY_WAKEUP⟩] = configBytes at *
  generalize Wire.encode [⟨2, .bytes payload⟩] = requestBytes at *
  simp only [Wire.encode_cons, List.length_append]
  rw [Wire.length_encode_bytes (by decide), Wire.length_encode_fixed32 (by decide),
    Wire.length_encode_bytes (by decide), Wire.length_encode_bytes (by decide),
    Wire.length_encode_varint (by decide) (by decide), hsuid, hconfig, hrequest,
    Wire.length_varint_of_lt (by decide), Wire.length_varint_of_lt (by decide),
    Wire.length_varint_of_lt (by omega)]
  show _ + (_ + (_ + (_ + (2 + 0)))) ≤ 256
  omega

/-! ### Round trip -/

theorem decodeSuidReq_encode (datatype : Bytes) (defaultOnly : Bool) :
    decodeSuidReq (Wire.encode (suidReqFields datatype defaultOnly)) =
      some ⟨datatype ++ [0], some true, some defaultOnly⟩ := by
  rw [decodeSuidReq, Wire.fields?_encode]
  cases defaultOnly <;> rfl

theorem decodeStdSuid_encode (suid : Suid) :
    decodeStdSuid (Wire.encode [⟨1, .fixed64 suid.low⟩, ⟨2, .fixed64 suid.high⟩]) = some suid := by
  rw [decodeStdSuid, Wire.fields?_encode]
  rfl

theorem decodeClientRequest_encode (suid : Suid) (payload : Bytes) :
    decodeClientRequest (Wire.encode (requestMsgFields suid payload)) =
      some ⟨suid, SNS_SUID_MSGID_SNS_SUID_REQ, SNS_STD_CLIENT_PROCESSOR_APSS,
        SNS_CLIENT_DELIVERY_WAKEUP, some payload, some SNS_TECH_SENSORS⟩ := by
  have hsuid : lastOf 1 Value.bytes? (requestMsgFields suid payload) =
      some (Wire.encode [⟨1, .fixed64 suid.low⟩, ⟨2, .fixed64 suid.high⟩]) := rfl
  have hconfig : lastOf 3 Value.bytes? (requestMsgFields suid payload) =
      some (Wire.encode [⟨1, .varint SNS_STD_CLIENT_PROCESSOR_APSS⟩,
        ⟨2, .varint SNS_CLIENT_DELIVERY_WAKEUP⟩]) := rfl
  have hrequest : lastOf 4 Value.bytes? (requestMsgFields suid payload) =
      some (Wire.encode [⟨2, .bytes payload⟩]) := rfl
  simp only [decodeClientRequest, Wire.fields?_encode, hsuid, hconfig, hrequest,
    Option.bind_eq_bind, Option.bind_some, decodeStdSuid_encode]
  rfl

section

variable {nb : NanopbEncoder} (h : nb.FollowsWireFormat)

include h in
/-- The first `pb_encode` succeeds for data types of 93 bytes, and writes the request. -/
theorem encodePayload_eq_some (datatype : Bytes) (defaultOnly : Bool) :
    (datatype.length ≤ 93 ↔ ∃ out, encodePayload nb datatype defaultOnly = some out) ∧
      ∀ out, encodePayload nb datatype defaultOnly = some out →
        out.written = Wire.encode (suidReqFields datatype defaultOnly) := by
  rw [encodePayload, emits_suidReq h datatype defaultOnly]
  exact ⟨(length_suidReq_le_iff datatype defaultOnly).symm.trans
    Output.exists_write_fromBuffer_iff.symm, fun out ↦ Output.written_of_write⟩

include h in
/-- The second `pb_encode` never fails, and writes the message. -/
theorem exists_encodeRequest (suid : Suid) {datatype : Bytes} {defaultOnly : Bool}
    {payloadStream : Output}
    (hpayload : encodePayload nb datatype defaultOnly = some payloadStream) :
    ∃ stream, encodeRequest nb suid payloadStream = some stream ∧
      stream.written = Wire.encode (requestMsgFields suid payloadStream.written) := by
  obtain ⟨hiff, hwritten⟩ := encodePayload_eq_some h datatype defaultOnly
  have hlen : payloadStream.written.length ≤ 100 := by
    rw [hwritten payloadStream hpayload, length_suidReq_le_iff]
    exact hiff.2 ⟨payloadStream, hpayload⟩
  rw [encodeRequest, emits_requestMsg h suid payloadStream.written]
  obtain ⟨stream, hstream⟩ :=
    Output.exists_write_fromBuffer_iff.2 (length_requestMsg_le suid hlen)
  exact ⟨stream, hstream, Output.written_of_write hstream⟩

end

/-- **A request is sent exactly if the data type has at most 93 bytes**, and what is sent says what
was asked for. -/
theorem requestSuid_roundTrip {nb : NanopbEncoder} (h : nb.FollowsWireFormat) (datatype : Bytes)
    (defaultOnly : Bool) (sent : List (Suid × Bytes)) :
    (93 < datatype.length →
        (SuidSession.opened sent).requestSuid nb datatype defaultOnly = .opened sent) ∧
      (datatype.length ≤ 93 → ∃ msg payload,
        (SuidSession.opened sent).requestSuid nb datatype defaultOnly =
            .opened (sent ++ [(suidSensor, msg)]) ∧
          decodeClientRequest msg = some ⟨suidSensor, SNS_SUID_MSGID_SNS_SUID_REQ,
            SNS_STD_CLIENT_PROCESSOR_APSS, SNS_CLIENT_DELIVERY_WAKEUP, some payload,
            some SNS_TECH_SENSORS⟩ ∧
          decodeSuidReq payload = some ⟨datatype ++ [0], some true, some defaultOnly⟩) ∧
      ∀ payloadStream, encodePayload nb datatype defaultOnly = some payloadStream →
        ∃ stream, encodeRequest nb suidSensor payloadStream = some stream := by
  obtain ⟨hiff, hwritten⟩ := encodePayload_eq_some h datatype defaultOnly
  refine ⟨fun hlong ↦ ?_, fun hshort ↦ ?_, fun payloadStream hpayload ↦ ?_⟩
  · rw [SuidSession.requestSuid]
    split
    · rfl
    · next payloadStream hpayload => exact absurd (hiff.2 ⟨payloadStream, hpayload⟩) (by omega)
  · obtain ⟨payloadStream, hpayload⟩ := hiff.1 hshort
    obtain ⟨stream, hstream, hmsg⟩ := exists_encodeRequest h suidSensor hpayload
    refine ⟨stream.written, payloadStream.written, ?_, ?_, ?_⟩
    · have hsend : encodeRequest nb (SuidSession.opened sent).mSensorUid payloadStream =
          some stream := hstream
      rw [SuidSession.requestSuid, hpayload]
      dsimp only
      rw [hsend]
      rfl
    · rw [hmsg, decodeClientRequest_encode]
    · rw [hwritten payloadStream hpayload, decodeSuidReq_encode]
  · obtain ⟨stream, hstream, -⟩ := exists_encodeRequest h suidSensor hpayload
    exact ⟨stream, hstream⟩

/-- A request for the data type "accel", and one that is too long. -/
theorem requestSuid_roundTrip_accel :
    (∃ msg payload,
      (SuidSession.opened []).requestSuid QshPb.protoEncoder (CLib.str "accel") true =
          .opened [(suidSensor, msg)] ∧
        decodeClientRequest msg = some ⟨suidSensor, 512, 1, 0, some payload, some 1⟩ ∧
        decodeSuidReq payload = some ⟨CLib.str "accel" ++ [0], some true, some true⟩) ∧
      (SuidSession.opened []).requestSuid QshPb.protoEncoder (List.replicate 94 65) true =
        .opened [] :=
  ⟨(requestSuid_roundTrip QshPb.protoEncoder_followsWireFormat (CLib.str "accel") true []).2.1
      (by decide),
    (requestSuid_roundTrip QshPb.protoEncoder_followsWireFormat (List.replicate 94 65) true []).1
      (by decide)⟩

end SensingHub.Discovery
