import SensingHub.QshPb.AttributeRoundTrip
import SensingHub.QshPb.Packed

/-!
# The samples that the client prints

The callback for a stream of data, `dataEvent`, prints what it decodes: a line for every event, and
for a sensor event a sample for every number in it. The samples of an event come out once all of it
has been decoded, so a message with a sensor event that cannot be decoded is printed up to there,
with nothing of that event and nothing of those behind it (`dataEvent_prints`).

What the client writes is a list of lines, each by what is put in.
-/

namespace SensingHub.Client

open Discovery (DecodeM Suid initialized)
open QshPb (Nanopb NanopbNumbers PbIstream Piece Span callbackStream clientEventBytes
  decodeFloatArray decodePayload floatValue int32Varint pbDecode spanAt storeClientEvent)
open Wire (Field layout)

/-! ### Printing -/

/-- What is printed. -/
inductive Line
  /-- `Received Samples:`, with the id of the event and its timestamp. -/
  | received (msgId : UInt32) (timestamp : UInt64)
  /-- A number, by its bits. -/
  | sample (v : UInt32)
  /-- `Error decoding event:` -/
  | errorDecodingEvent
  /-- `Cal event packet received` -/
  | calEvent
  /-- `Received re-configuration event` -/
  | reconfiguration
  /-- `invalid event msg_id` -/
  | invalid (msgId : UInt32)
  /-- `encoding failed`, which is what a message is said to be that cannot be decoded. -/
  | encodingFailed
  /-- `got attribute event` -/
  | gotAttributeEvent
  /-- The members of a value. -/
  | str (s : Bytes)
  | flt (v : UInt32)
  | sint (v : ℤ)
  | boolean (v : Bool)
  | hasSubtype (v : Bool)
  /-- `atrrtibute values are for attr_id`, with the id. -/
  | attrId (v : ℤ)
  /-- `Failed to decode sns_std_attr` -/
  | attrFailed
  /-- `Error decoding attrib event` -/
  | attrEventFailed
  /-- `sns_client_event_msg_sns_client_event failed` -/
  | clientEventFailed
  /-- `retrieve_attributes decoding failed` -/
  | retrieveFailed
  deriving DecidableEq, Repr

/-- What is decoded into, and what has been printed so far. -/
structure Printed (τ : Type) where
  value : τ
  lines : List Line
  deriving DecidableEq, Repr

/-- Decoders that print. -/
abbrev PrintM (τ : Type) :=
  DecodeM (Printed τ)

variable {τ : Type}

/-- With some more lines. -/
def Printed.add (s : Printed τ) (lines : List Line) : Printed τ :=
  { s with lines := s.lines ++ lines }

@[simp] theorem Printed.add_nil (s : Printed τ) : s.add [] = s :=
  congrArg (Printed.mk s.value) (List.append_nil _)

@[simp] theorem Printed.add_add (s : Printed τ) (lines lines' : List Line) :
    (s.add lines).add lines' = s.add (lines ++ lines') :=
  congrArg (Printed.mk s.value) (List.append_assoc ..)

theorem Printed.foldl_add {α : Type} (out : α → List Line) (as : List α) (s : Printed τ) :
    as.foldl (fun s a ↦ s.add (out a)) s = s.add (as.flatMap out) := by
  induction as generalizing s with
  | nil => exact s.add_nil.symm
  | cons a as ih => rw [List.foldl_cons, ih, Printed.add_add, List.flatMap_cons]

/-- `printf` -/
def printLines (lines : List Line) : PrintM τ Unit :=
  Prog.modify fun s ↦ s.add lines

theorem printLines_bind_run {α : Type} (lines : List Line) (f : Unit → PrintM τ α)
    (s : Printed τ) : (printLines lines >>= f) s = f () (s.add lines) := rfl

/-! ### Events with data -/

/-- `SNS_STD_SENSOR_MSGID_SNS_STD_SENSOR_EVENT` -/
def SNS_STD_SENSOR_MSGID_SNS_STD_SENSOR_EVENT : UInt32 := 1025

/-- `SNS_CAL_MSGID_SNS_CAL_EVENT` -/
def SNS_CAL_MSGID_SNS_CAL_EVENT : UInt32 := 1022

/-- `SNS_STD_SENSOR_MSGID_SNS_STD_SENSOR_PHYSICAL_CONFIG_EVENT` -/
def SNS_STD_SENSOR_MSGID_SNS_STD_SENSOR_PHYSICAL_CONFIG_EVENT : UInt32 := 768

/-- What `pb_decode` finds in the messages to the client. -/
structure ClientNanopb extends Nanopb where
  numbers : NanopbNumbers
  /-- The `timestamp` of an `sns_client_event`. -/
  timestamp : Bytes → UInt64
  /-- `sns_std_sensor_event`: the streams on which it calls back for `data`. -/
  sensorEvent : Bytes → Decoding Bytes
  /-- A value is shorter than that of whose `subtype` it is one. -/
  subtypeValue_lt : ∀ b p, .subtypeValue p ∈ (attrValueData b).fields → p.length < b.length

variable (pb : ClientNanopb)

/-- `decode_client_event` -/
def decodeClientEvent (stream : PbIstream) : PrintM τ Bool := do
  let (ok, event) ← Prog.withLocal ⟨0, none⟩ (pbDecode pb.clientEvent storeClientEvent stream)
  if !ok then return false
  printLines [.received event.msgId (pb.timestamp stream.bytes)]
  if event.msgId = SNS_STD_SENSOR_MSGID_SNS_STD_SENSOR_EVENT then
    let data ← initialized event.data
    let (ok, decodedData) ←
      Prog.withLocal [] ((pb.sensorEvent data.bytes).run (decodeFloatArray pb.numbers))
    if !ok then
      printLines [.errorDecodingEvent]
      return false
    printLines (decodedData.map .sample)
  else if event.msgId = SNS_CAL_MSGID_SNS_CAL_EVENT then
    printLines [.calEvent]
  else if event.msgId = SNS_STD_SENSOR_MSGID_SNS_STD_SENSOR_PHYSICAL_CONFIG_EVENT then
    printLines [.reconfiguration]
  else printLines [.invalid event.msgId]
  return true

/-- `dataEvent` -/
def dataEvent (stream : PbIstream) : PrintM τ Unit := do
  if !(← pbDecode pb.clientEventMsg (fun stream p ↦ decodeClientEvent pb (stream.sub p))
      stream) then
    printLines [.encodingFailed]

/-! ### Messages with data -/

/-- The fields of an `sns_client_event_msg`. -/
def clientEventMsgFields (uid : Suid) (events : List Bytes) : List Field :=
  ⟨1, .bytes (Wire.encode [⟨1, .fixed64 uid.low⟩, ⟨2, .fixed64 uid.high⟩])⟩ ::
    events.map fun b ↦ ⟨2, .bytes b⟩

/-- `sns_client_event_msg` -/
def clientEventMsgBytes (uid : Suid) (events : List Bytes) : Bytes :=
  Wire.encode (clientEventMsgFields uid events)

/-- The field may be one of `data`. -/
def IsData (f : Field) : Prop :=
  f.number = 1 ∧ (f.value.wireType = 2 ∨ f.value.wireType = 5)

/-- `sns_std_sensor_event` -/
def sensorEventBytes (data : List Field) (status : Int32) : Bytes :=
  Wire.encode (data ++ [⟨2, .varint (int32Varint status)⟩])

/-- `pb_decode` finds in the encoding of a message its fields, in order and where they stand, and
reads it to its end. -/
structure ClientNanopb.FollowsWireFormat (pb : ClientNanopb) : Prop extends
    pb.toNanopb.FollowsWireFormat where
  numbers : pb.numbers.FollowsWireFormat
  clientEventMsg : ∀ uid events, pb.clientEventMsg (clientEventMsgBytes uid events) =
    ⟨(layout 0 (clientEventMsgFields uid events)).tail.map (spanAt 0), true⟩
  timestamp : ∀ msgId timestamp payload,
    pb.timestamp (clientEventBytes msgId timestamp payload) = timestamp
  sensorEvent : ∀ data status, (∀ f ∈ data, IsData f) →
    pb.sensorEvent (sensorEventBytes data status) = ⟨data.map callbackStream, true⟩

/-- An event of a stream of data. -/
inductive DataEvent
  /-- A sensor event, its numbers in any pieces. -/
  | samples (timestamp : UInt64) (pieces : List (Piece UInt32)) (status : Int32)
  /-- A sensor event with a piece that does not come out even. -/
  | torn (timestamp : UInt64) (pieces : List (Piece UInt32)) (piece : Bytes)
    (uneven : piece.length % 4 ≠ 0) (more : List (Piece UInt32)) (status : Int32)
  /-- Any other event. -/
  | other (msgId : UInt32) (ne : msgId ≠ SNS_STD_SENSOR_MSGID_SNS_STD_SENSOR_EVENT)
    (timestamp : UInt64) (payload : Bytes)

/-- What is to be printed of an event that is no sensor event. -/
def kindLines (msgId : UInt32) : List Line :=
  if msgId = SNS_CAL_MSGID_SNS_CAL_EVENT then [.calEvent]
  else if msgId = SNS_STD_SENSOR_MSGID_SNS_STD_SENSOR_PHYSICAL_CONFIG_EVENT then [.reconfiguration]
  else [.invalid msgId]

/-- The fields `data` with the numbers in some pieces. -/
def dataFields (pieces : List (Piece UInt32)) : List Field :=
  pieces.flatMap (Piece.fields 1 floatValue)

namespace DataEvent

/-- `sns_client_event` -/
def bytes : DataEvent → Bytes
  | samples timestamp pieces status =>
    clientEventBytes SNS_STD_SENSOR_MSGID_SNS_STD_SENSOR_EVENT timestamp
      (sensorEventBytes (dataFields pieces) status)
  | torn timestamp pieces piece _ more status =>
    clientEventBytes SNS_STD_SENSOR_MSGID_SNS_STD_SENSOR_EVENT timestamp
      (sensorEventBytes (dataFields pieces ++ ⟨1, .bytes piece⟩ :: dataFields more) status)
  | other msgId _ timestamp payload => clientEventBytes msgId timestamp payload

/-- The event can be decoded. -/
def whole : DataEvent → Bool
  | samples .. | other .. => true
  | torn .. => false

/-- What is to be printed of an event. -/
def lines : DataEvent → List Line
  | samples timestamp pieces _ =>
    .received SNS_STD_SENSOR_MSGID_SNS_STD_SENSOR_EVENT timestamp ::
      (pieces.flatMap Piece.values).map .sample
  | torn timestamp .. =>
    [.received SNS_STD_SENSOR_MSGID_SNS_STD_SENSOR_EVENT timestamp, .errorDecodingEvent]
  | other msgId _ timestamp _ => .received msgId timestamp :: kindLines msgId

/-- What is to be printed of some events: nothing behind the first that cannot be decoded. -/
def allLines (events : List DataEvent) : List Line :=
  (Decoding.reached whole events).flatMap lines ++
    if events.all whole then [] else [.encodingFailed]

end DataEvent

/-! ### Printing them -/

section

variable {pb : ClientNanopb} {stream : PbIstream}

/-- The record of an event with some payload. -/
theorem clientEvent_of_bytes (h : pb.FollowsWireFormat) {msgId : UInt32} {timestamp : UInt64}
    {payload : Bytes} (hbytes : stream.bytes = clientEventBytes msgId timestamp payload) :
    pb.timestamp stream.bytes = timestamp ∧ ∃ data : PbIstream, data.bytes = payload ∧
      pbDecode pb.clientEvent storeClientEvent stream ⟨0, none⟩ =
        (.ok true, ⟨msgId, some data⟩) := by
  have hfound := h.clientEvent msgId timestamp payload
  obtain ⟨pre, hpre⟩ := QshPb.exists_prefix_clientEventBytes msgId timestamp payload
  rw [← hbytes] at hfound
  refine ⟨by rw [hbytes, h.timestamp], _, QshPb.bytes_sub_of_suffix (hbytes.trans hpre), ?_⟩
  exact QshPb.clientEvent_run (congrArg Decoding.complete hfound)
    (congrArg (Decoding.last · QshPb.ClientEventField.msgId?) hfound)
    (congrArg (fun d ↦ (Decoding.last d QshPb.ClientEventField.payload?).map stream.sub) hfound)

theorem isData_of_mem_dataFields {pieces : List (Piece UInt32)} {f : Field}
    (hf : f ∈ dataFields pieces) : IsData f := by
  obtain ⟨piece, -, hf⟩ := List.mem_flatMap.1 hf
  cases piece with
  | packed values =>
    cases List.mem_singleton.1 hf
    exact ⟨rfl, .inl rfl⟩
  | unpacked values =>
    obtain ⟨v, -, rfl⟩ := List.mem_map.1 hf
    exact ⟨rfl, .inr rfl⟩

/-- The numbers of a sensor event are decoded, in whatever pieces they are. -/
theorem runFields_dataFields (h : pb.numbers.FollowsWireFormat) (pieces : List (Piece UInt32)) :
    Decoding.runFields (decodeFloatArray pb.numbers) true
      ((dataFields pieces).map callbackStream) [] = (.ok true, pieces.flatMap Piece.values) := by
  have hpieces := (@QshPb.decodeFields_pieces _ _ (decodeFloatArray pb.numbers)
    (fun vec v ↦ vec ++ [v]) (fun _ ↦ True) floatValue 1 (fun _ ↦ rfl) (fun _ _ _ ↦ trivial)
    (fun vs vec _ ↦ QshPb.decodeFloatArray_run h vs vec) pieces [] trivial).1
  rw [QshPb.foldl_pushBack fun v ↦ v, List.map_id', List.nil_append] at hpieces
  exact (Decoding.run_map (d := ⟨dataFields pieces, true⟩) (r := id) (fun _ _ _ ↦ rfl) []).trans
    hpieces

/-- An event of a stream of data is printed, whatever it is. -/
theorem decodeClientEvent_run (h : pb.FollowsWireFormat) (e : DataEvent)
    (hbytes : stream.bytes = e.bytes) (s : Printed τ) :
    decodeClientEvent pb stream s = (.ok e.whole, s.add e.lines) := by
  cases e with
  | samples timestamp pieces status =>
    obtain ⟨htimestamp, data, hdata, hevent⟩ := clientEvent_of_bytes h hbytes
    have hfields : ∀ f ∈ dataFields pieces, IsData f := fun f hf ↦ isData_of_mem_dataFields hf
    have hrun : (pb.sensorEvent data.bytes).run (decodeFloatArray pb.numbers) [] =
        (.ok true, pieces.flatMap Piece.values) := by
      rw [hdata, h.sensorEvent _ _ hfields]
      exact runFields_dataFields h.numbers pieces
    rw [decodeClientEvent, Prog.bind_ok (Prog.withLocal_ok hevent s), htimestamp]
    dsimp only
    rw [if_neg (by decide), printLines_bind_run, if_pos rfl,
      QshPb.initialized_some_bind, Prog.bind_ok (Prog.withLocal_ok hrun _)]
    dsimp only
    rw [if_neg (by decide), printLines_bind_run, Printed.add_add]
    rfl
  | torn timestamp pieces piece uneven more status =>
    obtain ⟨htimestamp, data, hdata, hevent⟩ := clientEvent_of_bytes h hbytes
    have hfields : ∀ f ∈ dataFields pieces ++ ⟨1, .bytes piece⟩ :: dataFields more, IsData f := by
      intro f hf
      rcases List.mem_append.1 hf with hf | hf
      · exact isData_of_mem_dataFields hf
      rcases List.mem_cons.1 hf with rfl | hf
      · exact ⟨rfl, .inl rfl⟩
      · exact isData_of_mem_dataFields hf
    -- the piece is refused, whatever has been decoded before
    have hrefused : (decodeFloatArray pb.numbers (callbackStream ⟨1, .bytes piece⟩)
        (pieces.flatMap Piece.values)).1 = .ok false :=
      QshPb.decodeFloatArray_false h.numbers uneven _
    have hrun : ∃ vec, (pb.sensorEvent data.bytes).run (decodeFloatArray pb.numbers) [] =
        (.ok false, vec) := by
      rw [hdata, h.sensorEvent _ _ hfields, Decoding.run, List.map_append, List.map_cons,
        Decoding.runFields_append _ (runFields_dataFields h.numbers pieces), Decoding.runFields,
        Prog.bind_ok (Prod.ext hrefused rfl)]
      exact ⟨_, rfl⟩
    obtain ⟨vec, hrun⟩ := hrun
    rw [decodeClientEvent, Prog.bind_ok (Prog.withLocal_ok hevent s), htimestamp]
    dsimp only
    rw [if_neg (by decide), printLines_bind_run, if_pos rfl,
      QshPb.initialized_some_bind, Prog.bind_ok (Prog.withLocal_ok hrun _)]
    dsimp only
    rw [if_pos (by decide), printLines_bind_run, Printed.add_add]
    rfl
  | other msgId ne timestamp payload =>
    obtain ⟨htimestamp, data, -, hevent⟩ := clientEvent_of_bytes h hbytes
    rw [decodeClientEvent, Prog.bind_ok (Prog.withLocal_ok hevent s), htimestamp]
    dsimp only
    rw [if_neg (by decide), printLines_bind_run, if_neg ne, DataEvent.lines, kindLines]
    split_ifs <;> rw [printLines_bind_run, Printed.add_add] <;> rfl

/-- The contents of a field stand at its place. -/
theorem bytes_sub_layout {fs : List Field} (hbytes : stream.bytes = Wire.encode fs)
    {x : Wire.Placed} (hx : x ∈ layout 0 fs) :
    (stream.sub (spanAt 0 x)).bytes = x.field.value.content := by
  obtain ⟨pre, post, hfs, hoffset⟩ := Wire.exists_of_mem_layout hx
  rw [hfs, List.append_assoc] at hbytes
  rw [Nat.zero_add] at hoffset
  have hle : (spanAt 0 x).offset + (spanAt 0 x).length ≤ stream.bytes.length := by
    show 0 + x.offset + x.field.value.content.length ≤ _
    rw [hbytes, hoffset, Nat.zero_add]
    simp only [List.length_append]
    omega
  rw [QshPb.bytes_sub hle, Span.of, hbytes]
  show ((pre ++ _).drop (0 + x.offset)).take x.field.value.content.length = _
  rw [Nat.zero_add, hoffset, List.drop_left' rfl, List.take_left' rfl]

/-- The events of a message stand where it is said. -/
theorem forall₂_events {uid : Suid} {events : List Bytes}
    (hbytes : stream.bytes = clientEventMsgBytes uid events) :
    List.Forall₂ (fun p b ↦ (stream.sub p).bytes = b)
      ((layout 0 (clientEventMsgFields uid events)).tail.map (spanAt 0)) events := by
  rw [← List.forall₂_map_left_iff (R := Eq), List.forall₂_eq_eq_eq, List.map_map]
  calc (layout 0 (clientEventMsgFields uid events)).tail.map
        (PbIstream.bytes ∘ stream.sub ∘ spanAt 0)
      = (layout 0 (clientEventMsgFields uid events)).tail.map fun x ↦ x.field.value.content :=
        List.map_congr_left fun x hx ↦ bytes_sub_layout hbytes (List.mem_of_mem_tail hx)
    _ = ((layout 0 (clientEventMsgFields uid events)).map Wire.Placed.field).tail.map
          fun f ↦ f.value.content := by
        rw [← List.map_tail, List.map_map]
        rfl
    _ = events := by
        rw [Wire.map_field_layout, clientEventMsgFields, List.tail_cons, List.map_map]
        exact List.map_id events

/-- **Everything that arrives is printed**: of every message with data, whatever has been printed
before, its events in order, each with its timestamp and its samples in order, however these are cut
into pieces, up to the first sensor event that cannot be decoded. -/
theorem dataEvent_prints (h : pb.FollowsWireFormat) (uid : Suid) (events : List DataEvent)
    (hbytes : stream.bytes = clientEventMsgBytes uid (events.map DataEvent.bytes))
    (s : Printed τ) :
    dataEvent pb stream s = (.ok (), s.add (DataEvent.allLines events)) := by
  have hfound := h.clientEventMsg uid (events.map DataEvent.bytes)
  have hevents := List.forall₂_map_right_iff.1 (forall₂_events hbytes)
  rw [← hbytes] at hfound
  have hrun : pbDecode pb.clientEventMsg (fun stream p ↦ decodeClientEvent pb (stream.sub p)) stream
      s = (.ok (events.all DataEvent.whole),
        s.add ((Decoding.reached DataEvent.whole events).flatMap DataEvent.lines)) := by
    rw [pbDecode, hfound, Decoding.run_reached _ DataEvent.whole (fun s e ↦ s.add e.lines)
      (hevents.imp fun p e he s ↦ decodeClientEvent_run h e he s), Bool.and_true,
      Printed.foldl_add]
  rw [dataEvent, Prog.bind_ok hrun, DataEvent.allLines]
  cases events.all DataEvent.whole with
  | true => rw [if_neg (by decide), if_pos rfl, List.append_nil]; rfl
  | false => rw [if_pos (by decide), if_neg (by decide), ← Printed.add_add]; rfl

end

/-! ### A decoder of the wire format -/

/-- The stream of a field `data`. -/
def protoData (f : Field) : Option Bytes :=
  match f with
  | ⟨1, .bytes b⟩ => some b
  | ⟨1, .fixed32 v⟩ => some (Wire.littleEndian 4 v.toNat)
  | _ => none

/-- A value stands in one that has a header. -/
theorem length_lt_of_mem_proto {b : Bytes} {p : Span}
    (hp : .subtypeValue p ∈ (QshPb.proto.attrValueData b).fields) : p.length < b.length := by
  obtain ⟨⟨⟨number, value⟩, offset⟩, hx, hfield⟩ := List.mem_flatMap.1 hp
  have hpos : 0 < offset := Wire.offset_pos_of_mem_decode hx
  have hle := Wire.le_of_mem_decode hx
  unfold QshPb.protoAttrValueData at hfield
  split at hfield
  · next c hfields =>
    cases hfields
    rcases List.mem_cons.1 hfield with hsubtype | hnested
    · cases hsubtype
    obtain ⟨p', hp', hsame⟩ := List.mem_map.1 hnested
    cases hsame
    obtain ⟨y, hy, hspan⟩ := List.mem_filterMap.1 hp'
    have hnested := Wire.le_of_mem_decode hy
    unfold QshPb.protoSpan at hspan
    split at hspan
    · cases hspan
      have hcontent : offset + c.length ≤ b.length := hle
      show y.field.value.size < b.length
      omega
    · cases hspan
  all_goals simp at hfield

/-- The wire format of the messages to the client. -/
def protoClient : ClientNanopb where
  toNanopb := QshPb.proto
  numbers := QshPb.protoNumbers
  timestamp b :=
    (Wire.lastOf 2 Wire.Value.fixed64? ((Wire.decode b).1.map Wire.Placed.field)).getD 0
  sensorEvent b :=
    ⟨((Wire.decode b).1.map Wire.Placed.field).filterMap protoData,
      (Wire.decode b).2 && (Wire.decode b).1.any fun x ↦ (x.field.number, x.field.value.wireType) =
        (2, 0)⟩
  subtypeValue_lt _ _ := length_lt_of_mem_proto

theorem protoData_eq {f : Field} (hf : IsData f) : protoData f = some (callbackStream f) := by
  obtain ⟨number, value⟩ := f
  obtain ⟨rfl, hvalue⟩ := hf
  cases value with
  | bytes | fixed32 => rfl
  | varint | fixed64 => simp [Wire.Value.wireType] at hvalue

/-- What finds a field of each event finds all events of a message. -/
theorem flatMap_layout_events {f : Wire.Placed → List Span}
    (hf : ∀ b offset, f ⟨⟨2, .bytes b⟩, offset⟩ = [spanAt 0 ⟨⟨2, .bytes b⟩, offset⟩])
    (offset : ℕ) (events : List Bytes) :
    (layout offset (events.map fun b ↦ ⟨2, .bytes b⟩)).flatMap f =
      (layout offset (events.map fun b ↦ ⟨2, .bytes b⟩)).map (spanAt 0) := by
  induction events generalizing offset with
  | nil => rfl
  | cons b events ih =>
    rw [List.map_cons, layout, List.flatMap_cons, List.map_cons, ih, hf]
    rfl

theorem protoClient_followsWireFormat : protoClient.FollowsWireFormat where
  toFollowsWireFormat := QshPb.proto_followsWireFormat
  numbers := QshPb.protoNumbers_followsWireFormat
  clientEventMsg uid events := by
    show Wire.decoding _ _ _ (Wire.encode _) = _
    rw [Wire.decoding_encode, clientEventMsgFields, layout, List.flatMap_cons,
      flatMap_layout_events (fun _ _ ↦ rfl), List.tail_cons]
    simp [Wire.Value.wireType]
  timestamp msgId timestamp payload := by
    show (Wire.lastOf 2 _ ((Wire.decode (Wire.encode _)).1.map _)).getD 0 = _
    rw [Wire.decode_encode, Wire.map_field_layout]
    rfl
  sensorEvent data status hdata := by
    show (⟨((Wire.decode (Wire.encode _)).1.map _).filterMap protoData, _⟩ : Decoding Bytes) = _
    rw [sensorEventBytes, Wire.decode_encode, Wire.map_field_layout, List.filterMap_append,
      List.filterMap_congr fun f hf ↦ protoData_eq (hdata f hf), Wire.layout_append, Bool.true_and,
      List.any_append]
    refine congrArg₂ Decoding.mk ?_ (Bool.or_eq_true_iff.2 (.inr rfl))
    show data.filterMap (some ∘ callbackStream) ++ [] = _
    rw [List.filterMap_eq_map, List.append_nil]

/-- Two sensor events, of which the second one breaks off, and one behind them. -/
def brokenStream : List DataEvent :=
  [.samples 7 [.packed [1, 2], .unpacked [3]] 3, .torn 8 [.packed [4]] [0, 0, 0] (by decide) [] 3,
    .other SNS_CAL_MSGID_SNS_CAL_EVENT (by decide) 9 []]

theorem dataEvent_prints_brokenStream :
    dataEvent protoClient (.ofBytes (clientEventMsgBytes ⟨1, 2⟩ (brokenStream.map DataEvent.bytes)))
        (⟨(), []⟩ : Printed Unit) =
      (.ok (), ⟨(), [.received 1025 7, .sample 1, .sample 2, .sample 3, .received 1025 8,
        .errorDecodingEvent, .encodingFailed]⟩) :=
  dataEvent_prints protoClient_followsWireFormat ⟨1, 2⟩ brokenStream (QshPb.bytes_ofBytes _) _

end SensingHub.Client
