import SensingHub.Discovery.Messages
import SensingHub.Lib.Table

/-!
# The decoders of `qshPb`

The callbacks of `qshPb` that take records of a `sns_client_event_msg` apart. nanopb hands them
streams that are pointers into the buffer of the message, and `decode_payload` keeps such a pointer
with a length; what stands behind the field in memory can be reached through it. So a stream is here
the memory from where it stands on, together with the number of bytes that are left of it.

`suid_decode_event` is given here once more on such streams: it reads the data type as a C string,
which need not end where the field does. Where it does, that is what the function on the bytes of
the fields gives (`suidDecodeEvent_of_bytes`).
-/

namespace SensingHub.QshPb

open CLib (str cString)
open Discovery (Suid StdSuidField DecodeM SuidDecodeContext storeStdSuid initialized stringOf
  discoveryDoneType SNS_SUID_MSGID_SNS_SUID_EVENT SNS_SUID_MSGID_SNS_SUID_DISCOVERY_DONE_EVENT)

/-! ### Streams -/

/-- `pb_istream_t` on a buffer: the memory from where it stands on, and how many bytes are left. As
`pb_buffer_arg` has the same two members it stands for that as well. -/
structure PbIstream where
  state : Bytes
  bytesLeft : ℕ
  deriving DecidableEq, Repr

/-- The bytes that are left of a stream. -/
def PbIstream.bytes (stream : PbIstream) : Bytes :=
  stream.state.take stream.bytesLeft

/-- A stream that has been read. -/
def PbIstream.atEnd (stream : PbIstream) : PbIstream :=
  ⟨stream.state.drop stream.bytesLeft, 0⟩

/-- Where in a message a field stands. -/
structure Span where
  offset : ℕ
  length : ℕ
  deriving DecidableEq, Repr

/-- The bytes of a field. -/
def Span.of (p : Span) (b : Bytes) : Bytes :=
  (b.drop p.offset).take p.length

/-- The stream that is handed to the callback of a field. -/
def PbIstream.sub (stream : PbIstream) (p : Span) : PbIstream :=
  ⟨stream.state.drop p.offset, p.length⟩

theorem bytes_sub {stream : PbIstream} {p : Span}
    (h : p.offset + p.length ≤ stream.bytes.length) :
    (stream.sub p).bytes = p.of stream.bytes := by
  have hlen : p.length ≤ stream.bytesLeft - p.offset := by
    rw [PbIstream.bytes, List.length_take] at h
    omega
  rw [PbIstream.bytes, PbIstream.sub, Span.of, PbIstream.bytes, List.drop_take, List.take_take,
    Nat.min_eq_left hlen]

theorem length_bytes_sub {stream : PbIstream} {p : Span}
    (h : p.offset + p.length ≤ stream.bytes.length) :
    (stream.sub p).bytes.length = (stream.sub p).bytesLeft := by
  rw [bytes_sub h, Span.of, List.length_take, List.length_drop]
  exact Nat.min_eq_left (by omega)

/-! ### Messages -/

/-- The fields of an `sns_client_event` that are looked at. -/
inductive ClientEventField
  | msgId (v : UInt32)
  | payload (p : Span)
  deriving DecidableEq, Repr

/-- The fields of an `sns_suid_event`. -/
inductive SuidEventField
  | dataType (p : Span)
  | suid (p : Span)
  deriving DecidableEq, Repr

/-- The fields of an `sns_std_attr`; a `value` is one of the values in its field `value`. -/
inductive AttrField
  | attrId (v : ℤ)
  | value (p : Span)
  deriving DecidableEq, Repr

/-- The fields of an `sns_std_attr_value_data`: its field `subtype` and the values in that are
fields of their own. A float is given by its bits. -/
inductive AttrValueField
  | subtype
  | subtypeValue (p : Span)
  | str (p : Span)
  | flt (v : UInt32)
  | sint (v : ℤ)
  | boolean (v : Bool)
  deriving DecidableEq, Repr

/-- Where the field `payload` stands. -/
def ClientEventField.payload? : ClientEventField → Option Span
  | .msgId _ => none
  | .payload p => some p

/-- The value of the field `msg_id`. -/
def ClientEventField.msgId? : ClientEventField → Option UInt32
  | .msgId v => some v
  | .payload _ => none

/-- Where a field of bytes stands. -/
def SuidEventField.span : SuidEventField → Span
  | .dataType p | .suid p => p

/-- Where the field `data_type` stands. -/
def SuidEventField.dataType? : SuidEventField → Option Span
  | .dataType p => some p
  | .suid _ => none

/-- Where a `suid` stands. -/
def SuidEventField.suid? : SuidEventField → Option Span
  | .dataType _ => none
  | .suid p => some p

/-- What `pb_decode` finds in the bytes of a message, and where. It reads a message to its end
exactly if that is well formed and no required field is missing. -/
structure Nanopb where
  /-- `sns_client_event_msg`: its `events`. -/
  clientEventMsg : Bytes → Decoding Span
  /-- `sns_client_event` -/
  clientEvent : Bytes → Decoding ClientEventField
  /-- `sns_suid_event` -/
  suidEvent : Bytes → Decoding SuidEventField
  /-- `sns_std_suid` -/
  stdSuid : Bytes → Decoding StdSuidField
  /-- `sns_std_attr_event`: its `attributes`. -/
  attrEvent : Bytes → Decoding Span
  /-- `sns_std_attr` -/
  attr : Bytes → Decoding AttrField
  /-- `sns_std_attr_value_data` -/
  attrValueData : Bytes → Decoding AttrValueField
  /-- The payload stands within the record. -/
  payload_le : ∀ b, ∀ f ∈ (clientEvent b).fields, ∀ p, f.payload? = some p →
    p.offset + p.length ≤ b.length
  /-- The fields of bytes stand within the payload. -/
  span_le : ∀ b, ∀ f ∈ (suidEvent b).fields, f.span.offset + f.span.length ≤ b.length
  /-- `payload` is a required field. -/
  payload_required : ∀ b, (clientEvent b).complete = true →
    ∃ p, (clientEvent b).last ClientEventField.payload? = some p
  /-- An empty message has no fields. -/
  clientEvent_nil : (clientEvent []).fields = []
  suidEvent_nil : (suidEvent []).fields = []

/-- `SNS_STD_MSGID_SNS_STD_ATTR_EVENT` -/
def SNS_STD_MSGID_SNS_STD_ATTR_EVENT : UInt32 := 128

/-- `pb_decode` -/
def pbDecode {σ φ : Type} (decoding : Bytes → Decoding φ)
    (callback : PbIstream → φ → DecodeM σ Bool) (stream : PbIstream) : DecodeM σ Bool :=
  (decoding stream.bytes).run (callback stream)

/-- `decode_payload` -/
def decodePayload {σ : Type} (arg : Option PbIstream → σ → σ) (stream : PbIstream) :
    DecodeM σ Bool := do
  Prog.modify (arg (some stream))
  return true

/-! ### Lists of ids -/

/-- An `sns_client_event` and the buffer of its payload. -/
structure ClientEvent where
  msgId : UInt32
  data : Option PbIstream

/-- The fields of an `sns_client_event`. -/
def storeClientEvent (stream : PbIstream) : ClientEventField → DecodeM ClientEvent Bool
  | .msgId v => do
    Prog.modify fun event ↦ { event with msgId := v }
    return true
  | .payload p => decodePayload (fun data event ↦ { event with data := data }) (stream.sub p)

/-- The buffer of the data type of an `sns_suid_event`, and its ids. -/
structure SuidEvent where
  datatypeBuf : Option PbIstream
  suidVector : List Suid

/-- `decode_suid` -/
def decodeSuid (pb : Nanopb) (stream : PbIstream) : DecodeM SuidEvent Bool := do
  let (ok, uid) ← Prog.withLocal ⟨0, 0⟩ (pbDecode pb.stdSuid (fun _ ↦ storeStdSuid) stream)
  if !ok then return false
  Prog.modify fun event ↦ { event with suidVector := event.suidVector ++ [uid] }
  return true

/-- The fields of an `sns_suid_event`. -/
def storeSuidEvent (pb : Nanopb) (stream : PbIstream) : SuidEventField → DecodeM SuidEvent Bool
  | .dataType p =>
    decodePayload (fun data event ↦ { event with datatypeBuf := data }) (stream.sub p)
  | .suid p => decodeSuid pb (stream.sub p)

/-- `suid_decode_event`, the data type being whatever C string stands where its field does. -/
def suidDecodeEvent (pb : Nanopb) (stream : PbIstream) : DecodeM SuidDecodeContext Bool := do
  let (ok, event) ← Prog.withLocal ⟨0, none⟩ (pbDecode pb.clientEvent storeClientEvent stream)
  if !ok then return false
  if event.msgId = SNS_SUID_MSGID_SNS_SUID_DISCOVERY_DONE_EVENT then
    Prog.modify fun ctx ↦ ctx.push discoveryDoneType []
    return true
  else if event.msgId = SNS_SUID_MSGID_SNS_SUID_EVENT then
    let data ← initialized event.data
    if data.bytesLeft = 0 then return false
    let (ok, suidEvent) ← Prog.withLocal ⟨none, []⟩ (pbDecode pb.suidEvent (storeSuidEvent pb) data)
    if !ok then return false
    let datatypeBuf ← initialized suidEvent.datatypeBuf
    let datatype ← stringOf datatypeBuf.state
    Prog.modify fun ctx ↦ ctx.push datatype suidEvent.suidVector
    return true
  else return false

/-- The `msg_id` of an `sns_client_event` of whose fields nothing else is stored. -/
def storeMsgId : ClientEventField → DecodeM UInt32 Bool
  | .msgId v => do
    Prog.modify fun _ ↦ v
    return true
  | .payload _ => return true

/-- `get_msg_id`, on a copy of the stream: 0 if the record cannot be decoded. -/
def getMsgId {σ : Type} (pb : Nanopb) (stream : PbIstream) : DecodeM σ UInt32 := do
  let (ok, msgId) ← Prog.withLocal 0 (pbDecode pb.clientEvent (fun _ ↦ storeMsgId) stream)
  if ok then return msgId else return 0

/-- A trailing NUL is trimmed. -/
def trimNul (datatype : Bytes) : Bytes :=
  if datatype.getLast? = some 0 then datatype.dropLast else datatype

/-- The stream of `decode_suids` and its `suid_list`. -/
structure SuidList where
  stream : PbIstream
  suids : List Suid
  datatype : Bytes

/-- `decode_suids`. Where the stream is left when `pb_decode` fails is not modelled. -/
def decodeSuids (pb : Nanopb) : DecodeM SuidList Bool := do
  let stream ← Prog.read SuidList.stream
  let msgId ← getMsgId pb stream
  if msgId ≠ SNS_SUID_MSGID_SNS_SUID_EVENT then return true
  let (ok, event) ← Prog.withLocal ⟨0, none⟩ (pbDecode pb.clientEvent storeClientEvent stream)
  if !ok then return false
  Prog.modify fun ctx ↦ { ctx with stream := stream.atEnd }
  -- a null pointer with the length 0 if there is no payload
  let subStream := event.data.getD ⟨[], 0⟩
  let (ok, suidEvent) ← Prog.withLocal ⟨none, []⟩
    (pbDecode pb.suidEvent (storeSuidEvent pb) subStream)
  if !ok then return false
  let datatype := (suidEvent.datatypeBuf.map fun buf ↦ trimNul buf.bytes).getD []
  Prog.modify fun ctx ↦
    { ctx with suids := ctx.suids ++ suidEvent.suidVector, datatype := datatype }
  return true

/-! ### Decoding the bytes of fields -/

/-- A field with its bytes. -/
def ClientEventField.on (b : Bytes) : ClientEventField → Discovery.ClientEventField
  | .msgId v => .msgId v
  | .payload p => .payload (p.of b)

/-- A field with its bytes. -/
def SuidEventField.on (b : Bytes) : SuidEventField → Discovery.SuidEventField
  | .dataType p => .dataType (p.of b)
  | .suid p => .suid (p.of b)

/-- What `pb_decode` finds in messages, with the bytes of the fields instead of their places. -/
def Nanopb.onBytes (pb : Nanopb) : Discovery.Nanopb where
  clientEventMsg b := (pb.clientEventMsg b).map fun p ↦ p.of b
  clientEvent b := (pb.clientEvent b).map fun f ↦ f.on b
  suidEvent b := (pb.suidEvent b).map fun f ↦ f.on b
  stdSuid := pb.stdSuid
  suidEvent_nil := by rw [Decoding.map, pb.suidEvent_nil, List.map_nil]

/-- An `sns_client_event` with the bytes of its payload. -/
def ClientEvent.onBytes (event : ClientEvent) : Discovery.ClientEvent :=
  ⟨event.msgId, event.data.map PbIstream.bytes⟩

/-- An `sns_suid_event` with the bytes of its data type. -/
def SuidEvent.onBytes (event : SuidEvent) : Discovery.SuidEvent :=
  ⟨event.datatypeBuf.map PbIstream.bytes, event.suidVector⟩

section

variable {pb : Nanopb}

theorem clientEvent_onBytes (stream : PbIstream) (event : ClientEvent) :
    (pb.onBytes.clientEvent stream.bytes).run Discovery.storeClientEvent
        event.onBytes =
      ((pbDecode pb.clientEvent storeClientEvent stream event).1,
        (pbDecode pb.clientEvent storeClientEvent stream event).2.onBytes) := by
  refine Decoding.run_map (fun f hf event ↦ ?_) event
  cases f with
  | msgId v => rfl
  | payload p =>
    rw [ClientEventField.on, ← bytes_sub (pb.payload_le _ _ hf p rfl)]
    rfl

theorem decodeSuid_onBytes (stream : PbIstream) (event : SuidEvent) :
    Discovery.decodeSuid pb.onBytes stream.bytes event.onBytes =
      ((decodeSuid pb stream event).1, (decodeSuid pb stream event).2.onBytes) := by
  have hsame : (pb.onBytes.stdSuid stream.bytes).run storeStdSuid ⟨0, 0⟩ =
      pbDecode pb.stdSuid (fun _ ↦ storeStdSuid) stream ⟨0, 0⟩ := rfl
  rcases hrun : pbDecode pb.stdSuid (fun _ ↦ storeStdSuid) stream ⟨0, 0⟩ with ⟨e | ok, uid⟩
  · rw [Discovery.decodeSuid, Prog.bind_error (Prog.withLocal_error (hsame.trans hrun) _),
      decodeSuid, Prog.bind_error (Prog.withLocal_error hrun _)]
  · rw [Discovery.decodeSuid, Prog.bind_ok (Prog.withLocal_ok (hsame.trans hrun) _),
      decodeSuid, Prog.bind_ok (Prog.withLocal_ok hrun _)]
    cases ok <;> rfl

theorem storeSuidEvent_onBytes {stream : PbIstream} {f : SuidEventField}
    (hf : f ∈ (pb.suidEvent stream.bytes).fields) (event : SuidEvent) :
    Discovery.storeSuidEvent pb.onBytes (f.on stream.bytes) event.onBytes =
      ((storeSuidEvent pb stream f event).1, (storeSuidEvent pb stream f event).2.onBytes) := by
  cases f with
  | dataType p =>
    have hp : (stream.sub p).bytes = p.of stream.bytes := bytes_sub (pb.span_le _ _ hf)
    rw [SuidEventField.on, ← hp]
    rfl
  | suid p =>
    have hp : (stream.sub p).bytes = p.of stream.bytes := bytes_sub (pb.span_le _ _ hf)
    rw [SuidEventField.on, ← hp]
    exact decodeSuid_onBytes (stream.sub p) event

theorem suidEvent_onBytes (stream : PbIstream) (event : SuidEvent) :
    (pb.onBytes.suidEvent stream.bytes).run (Discovery.storeSuidEvent pb.onBytes) event.onBytes =
      ((pbDecode pb.suidEvent (storeSuidEvent pb) stream event).1,
        (pbDecode pb.suidEvent (storeSuidEvent pb) stream event).2.onBytes) :=
  Decoding.run_map (fun _ hf event ↦ storeSuidEvent_onBytes hf event) event

/-- The payload of an `sns_client_event` stands within the record. -/
theorem length_of_clientEvent {stream : PbIstream} {event : ClientEvent} {ok : Bool}
    (h : pbDecode pb.clientEvent storeClientEvent stream ⟨0, none⟩ = (.ok ok, event))
    {data : PbIstream} (hdata : event.data = some data) : data.bytes.length = data.bytesLeft := by
  have hwithin : ∀ data, (pbDecode pb.clientEvent storeClientEvent stream ⟨0, none⟩).2.data =
      some data → data.bytes.length = data.bytesLeft := by
    refine Decoding.run_preserves (P := fun event : ClientEvent ↦ ∀ data : PbIstream,
      event.data = some data → data.bytes.length = data.bytesLeft) _
      (fun f hf event hevent ↦ ?_) (fun _ h ↦ by cases h)
    cases f with
    | msgId v => exact hevent
    | payload p =>
      rintro data ⟨⟩
      exact length_bytes_sub (pb.payload_le _ _ hf p rfl)
  rw [h] at hwithin
  exact hwithin data hdata

/-- A string that ends within its field is the one that stands there in memory. -/
theorem cString_state {buf : PbIstream} {datatype : Bytes} (h : cString buf.bytes = some datatype) :
    cString buf.state = some datatype := by
  rw [← List.take_append_drop buf.bytesLeft buf.state]
  exact CLib.cString_append_of_eq_some h _

theorem stringOf_bind {σ α : Type} {buf datatype : Bytes} (h : cString buf = some datatype)
    (f : Bytes → DecodeM σ α) (s : σ) : (stringOf buf >>= f) s = f datatype s := by
  refine Prog.bind_ok ?_
  rw [stringOf, h]
  rfl

theorem initialized_some_bind {σ α β : Type} (a : α) (f : α → DecodeM σ β) (s : σ) :
    (initialized (some a) >>= f) s = f a s := rfl

/-- **Where `suid_decode_event` on the bytes of the fields returns, the function on streams does the
same**: the data type ends within its field then. -/
theorem suidDecodeEvent_of_bytes {stream : PbIstream} {ctx ctx' : SuidDecodeContext} {ok : Bool}
    (h : Discovery.suidDecodeEvent pb.onBytes stream.bytes ctx =
      (.ok ok, ctx')) : suidDecodeEvent pb stream ctx = (.ok ok, ctx') := by
  have hevent : (pb.onBytes.clientEvent stream.bytes).run
      Discovery.storeClientEvent ⟨0, none⟩ = _ := clientEvent_onBytes stream ⟨0, none⟩
  unfold Discovery.suidDecodeEvent at h
  unfold suidDecodeEvent
  rcases hrun : pbDecode pb.clientEvent storeClientEvent stream ⟨0, none⟩ with
    ⟨e | ok₁, ⟨msgId, data⟩⟩ <;> rw [hrun] at hevent
  · -- the outer message stops the decoder, so nothing is returned
    rw [Prog.bind_error (Prog.withLocal_error hevent ctx)] at h
    cases h
  rw [Prog.bind_ok (Prog.withLocal_ok hevent ctx)] at h
  rw [Prog.bind_ok (Prog.withLocal_ok hrun ctx)]
  cases ok₁ with
  | false => exact h
  | true =>
    simp only [Bool.not_true, Bool.false_eq_true, if_false, ClientEvent.onBytes] at h ⊢
    split_ifs at h ⊢ with hdone hsuid
    · exact h
    · rcases data with _ | data
      · cases h
      -- the payload is empty exactly if no bytes of it are left
      have hlen : data.bytes.length = data.bytesLeft := length_of_clientEvent hrun rfl
      have hempty : data.bytes = [] ↔ data.bytesLeft = 0 := by
        rw [← hlen, List.length_eq_zero_iff]
      have hsuids : (pb.onBytes.suidEvent data.bytes).run
          (Discovery.storeSuidEvent pb.onBytes) ⟨none, []⟩ = _ :=
        suidEvent_onBytes data ⟨none, []⟩
      rw [Option.map_some, initialized_some_bind] at h
      rw [initialized_some_bind]
      simp only [hempty] at h
      split_ifs at h ⊢
      · exact h
      rcases hrun' : pbDecode pb.suidEvent (storeSuidEvent pb) data ⟨none, []⟩ with
        ⟨e | ok₂, ⟨_ | buf, suids⟩⟩ <;> rw [hrun'] at hsuids
      · rw [Prog.bind_error (Prog.withLocal_error hsuids ctx)] at h
        cases h
      · rw [Prog.bind_error (Prog.withLocal_error hsuids ctx)] at h
        cases h
      · rw [Prog.bind_ok (Prog.withLocal_ok hsuids ctx)] at h
        rw [Prog.bind_ok (Prog.withLocal_ok hrun' ctx)]
        cases ok₂ with
        | false => exact h
        | true => cases h
      · rw [Prog.bind_ok (Prog.withLocal_ok hsuids ctx)] at h
        rw [Prog.bind_ok (Prog.withLocal_ok hrun' ctx)]
        cases ok₂ with
        | false => exact h
        | true =>
          simp only [Bool.not_true, Bool.false_eq_true, if_false, SuidEvent.onBytes] at h ⊢
          rw [Option.map_some, initialized_some_bind] at h
          rw [initialized_some_bind]
          -- the data type is read as a C string: it has to end within its own bytes
          rcases hstring : cString buf.bytes with _ | datatype
          · rw [Prog.bind_error (by rw [stringOf, hstring]; rfl)] at h
            cases h
          · rw [stringOf_bind hstring] at h
            rw [stringOf_bind (cString_state hstring)]
            exact h
    · exact h

end

/-! ### Attributes -/

/-- `attribute` -/
structure Attribute where
  hasSubtype : Bool
  subtype : List UInt32
  hasStr : Bool
  str : Bytes
  hasFlt : Bool
  flt : UInt32
  hasSint : Bool
  sint : ℤ
  hasBoolean : Bool
  boolean : Bool
  deriving DecidableEq, Repr

/-- An attribute with all members zero. -/
def Attribute.zero : Attribute :=
  ⟨false, [], false, [], false, 0, false, 0, false, false⟩

/-- The members of an `sns_std_attr_value_data` that are looked at, and the vector for the values of
its `subtype`. -/
structure AttrValueData where
  str : Option PbIstream
  flt : Option UInt32
  sint : Option ℤ
  boolean : Option Bool
  hasSubtype : Bool
  subtype : List UInt32

/-- The field `flt` of a value of a `subtype`. -/
def storeFlt : AttrValueField → DecodeM (Option UInt32) Bool
  | .flt v => do
    Prog.modify fun _ ↦ some v
    return true
  | _ => return true

/-- `decode_attribute_value_subtype` -/
def decodeAttributeValueSubtype (pb : Nanopb) (stream : PbIstream) :
    DecodeM AttrValueData Bool := do
  let (ok, flt) ← Prog.withLocal none (pbDecode pb.attrValueData (fun _ ↦ storeFlt) stream)
  if !ok then return false
  Prog.modify fun attr ↦ { attr with subtype := attr.subtype ++ flt.toList }
  return true

/-- The fields of an `sns_std_attr_value_data`. -/
def storeAttrValue (pb : Nanopb) (stream : PbIstream) : AttrValueField → DecodeM AttrValueData Bool
  | .subtype => do
    Prog.modify fun attr ↦ { attr with hasSubtype := true }
    return true
  | .subtypeValue p => decodeAttributeValueSubtype pb (stream.sub p)
  | .str p => decodePayload (fun data attr ↦ { attr with str := data }) (stream.sub p)
  | .flt v => do
    Prog.modify fun attr ↦ { attr with flt := some v }
    return true
  | .sint v => do
    Prog.modify fun attr ↦ { attr with sint := some v }
    return true
  | .boolean v => do
    Prog.modify fun attr ↦ { attr with boolean := some v }
    return true

/-- The attribute that is made of a value: a string that is not empty comes first, then the other
kinds in order. -/
def AttrValueData.toAttribute (attr : AttrValueData) : Attribute :=
  let newAttr := { Attribute.zero with subtype := attr.subtype }
  let str := (attr.str.map PbIstream.bytes).getD []
  if str ≠ [] then { newAttr with str := str.takeWhile (· ≠ 0), hasStr := true }
  else
    match attr.flt, attr.sint, attr.boolean with
    | some flt, _, _ => { newAttr with flt := flt, hasFlt := true }
    | none, some sint, _ => { newAttr with sint := sint, hasSint := true }
    | none, none, some boolean => { newAttr with boolean := boolean, hasBoolean := true }
    | none, none, none => { newAttr with hasSubtype := attr.hasSubtype }

/-- An `sns_std_attr` and the vector for its values. -/
structure Attr where
  attrId : ℤ
  attrVal : List Attribute

/-- `decode_attribute_value` -/
def decodeAttributeValue (pb : Nanopb) (stream : PbIstream) : DecodeM Attr Bool := do
  let (ok, attr) ← Prog.withLocal ⟨none, none, none, none, false, []⟩
    (pbDecode pb.attrValueData (storeAttrValue pb) stream)
  if !ok then return false
  Prog.modify fun a ↦ { a with attrVal := a.attrVal ++ [attr.toAttribute] }
  return true

/-- The fields of an `sns_std_attr`. -/
def storeAttr (pb : Nanopb) (stream : PbIstream) : AttrField → DecodeM Attr Bool
  | .attrId v => do
    Prog.modify fun attr ↦ { attr with attrId := v }
    return true
  | .value p => decodeAttributeValue pb (stream.sub p)

/-- The stream of `decode_attributes` and its `sensor_attributes`. -/
structure SensorAttributes where
  stream : PbIstream
  attributes : Table ℤ (List Attribute)

/-- `decode_attribute` -/
def decodeAttribute (pb : Nanopb) (stream : PbIstream) : DecodeM SensorAttributes Bool := do
  let (ok, attr) ← Prog.withLocal ⟨0, []⟩ (pbDecode pb.attr (storeAttr pb) stream)
  if !ok then return false
  Prog.modify fun ctx ↦ { ctx with attributes := ctx.attributes.assign attr.attrId attr.attrVal }
  return true

/-- `decode_attributes`. Where the stream is left when `pb_decode` fails is not modelled. -/
def decodeAttributes (pb : Nanopb) : DecodeM SensorAttributes Bool := do
  let stream ← Prog.read SensorAttributes.stream
  let msgId ← getMsgId pb stream
  if msgId ≠ SNS_STD_MSGID_SNS_STD_ATTR_EVENT then return true
  let (ok, event) ← Prog.withLocal ⟨0, none⟩ (pbDecode pb.clientEvent storeClientEvent stream)
  if !ok then return false
  Prog.modify fun ctx ↦ { ctx with stream := stream.atEnd }
  let subStream := event.data.getD ⟨[], 0⟩
  if !(← pbDecode pb.attrEvent (fun stream p ↦ decodeAttribute pb (stream.sub p)) subStream) then
    return false
  return true

end SensingHub.QshPb
