import SensingHub.Lib.Wire
import SensingHub.QshPb.Attributes

/-!
# Attribute events in the wire format

How `sns_client_event`, `sns_std_attr_event` and the messages in it are encoded, and what it means
that nanopb follows the wire format: `pb_decode` finds in the encoding of a message its fields, in
order and where they stand (`Nanopb.FollowsWireFormat`). `proto` does.
-/

namespace SensingHub.QshPb

open Wire (Placed Value decode layout)

/-! ### Encodings -/

/-- A message whose field 1 is repeated: an `sns_std_attr_event` with its attributes, an
`sns_std_attr_value` with its values. -/
def repeatedBytes (bs : List Bytes) : Bytes :=
  Wire.encode (bs.map fun b ↦ ⟨1, .bytes b⟩)

/-- Where the fields of such a message stand, if it stands at the given place. -/
def repeatedSpans (offset : ℕ) (bs : List Bytes) : List Span :=
  (layout 0 (bs.map fun b ↦ ⟨1, .bytes b⟩)).map (spanAt offset)

/-- `sns_client_event` -/
def clientEventBytes (msgId : UInt32) (timestamp : UInt64) (payload : Bytes) : Bytes :=
  Wire.encode [⟨1, .fixed32 msgId⟩, ⟨2, .fixed64 timestamp⟩, ⟨3, .bytes payload⟩]

/-- An `int32` as a varint: negative numbers are extended to 64 bits. -/
def int32Varint (v : Int32) : ℕ :=
  (v.toInt % 2 ^ 64).toNat

/-- `sns_std_attr` -/
def attrBytes (attrId : Int32) (values : List Bytes) : Bytes :=
  Wire.encode [⟨1, .varint (int32Varint attrId)⟩, ⟨2, .bytes (repeatedBytes values)⟩]

/-- An `sns_std_attr_value_data` with its one member. -/
def memberBytes (number : ℕ) (value : Value) : Bytes :=
  Wire.encode [⟨number, value⟩]

/-! ### Following the wire format -/

/-- `pb_decode` finds in the encoding of a message its fields, in order and where they stand, and
reads it to its end. -/
structure Nanopb.FollowsWireFormat (pb : Nanopb) : Prop where
  clientEvent : ∀ msgId timestamp payload,
    pb.clientEvent (clientEventBytes msgId timestamp payload) =
      ⟨[.msgId msgId, .payload ⟨(clientEventBytes msgId timestamp payload).length - payload.length,
        payload.length⟩], true⟩
  attrEvent : ∀ attributes,
    pb.attrEvent (repeatedBytes attributes) = ⟨repeatedSpans 0 attributes, true⟩
  attr : ∀ attrId values, pb.attr (attrBytes attrId values) =
    ⟨.attrId attrId.toInt :: (repeatedSpans ((attrBytes attrId values).length -
      (repeatedBytes values).length) values).map .value, true⟩
  subtype : ∀ values, pb.attrValueData (memberBytes 1 (.bytes (repeatedBytes values))) =
    ⟨.subtype :: (repeatedSpans ((memberBytes 1 (.bytes (repeatedBytes values))).length -
      (repeatedBytes values).length) values).map .subtypeValue, true⟩
  str : ∀ s : Bytes, pb.attrValueData (memberBytes 2 (.bytes s)) =
    ⟨[.str ⟨(memberBytes 2 (.bytes s)).length - s.length, s.length⟩], true⟩
  flt : ∀ v, pb.attrValueData (memberBytes 3 (.fixed32 v)) = ⟨[.flt v], true⟩
  sint : ∀ v : Int64, pb.attrValueData (memberBytes 4 (.fixed64 v.toUInt64)) =
    ⟨[.sint v.toInt], true⟩
  boolean : ∀ v : Bool, pb.attrValueData (memberBytes 5 (.varint v.toNat)) = ⟨[.boolean v], true⟩

/-! ### The decoder follows it -/

theorem spanAt_zero (x : Placed) : spanAt 0 x = ⟨x.offset, x.field.value.size⟩ := by
  rw [spanAt, Nat.zero_add]

theorem filterMap_protoSpan (offset start : ℕ) (bs : List Bytes) :
    (layout start (bs.map fun b ↦ ⟨1, .bytes b⟩)).filterMap (protoSpan offset) =
      (layout start (bs.map fun b ↦ ⟨1, .bytes b⟩)).map (spanAt offset) := by
  induction bs generalizing start with
  | nil => rfl
  | cons b bs ih =>
    have hfirst : protoSpan offset ⟨⟨1, .bytes b⟩, start + Wire.Field.header ⟨1, .bytes b⟩⟩ =
        some (spanAt offset ⟨⟨1, .bytes b⟩, start + Wire.Field.header ⟨1, .bytes b⟩⟩) := rfl
    rw [List.map_cons, layout, List.filterMap_cons_some hfirst, ih, List.map_cons]

theorem decode_repeatedBytes (bs : List Bytes) : (decode (repeatedBytes bs)).2 = true := by
  rw [repeatedBytes, Wire.decode_encode]

theorem protoNested_repeatedBytes (number offset : ℕ) (bs : List Bytes) :
    protoNested ⟨⟨number, .bytes (repeatedBytes bs)⟩, offset⟩ = repeatedSpans offset bs := by
  show (decode (repeatedBytes bs)).1.filterMap (protoSpan offset) = _
  rw [repeatedBytes, Wire.decode_encode, filterMap_protoSpan]
  rfl

/-- A number of 32 bits is what is left of it when it is extended to 64. -/
theorem toInt_int32Varint (v : Int32) : (Int32.ofNat (int32Varint v)).toInt = v.toInt := by
  have hcast : ((int32Varint v : ℕ) : ℤ) = v.toInt % 2 ^ 64 := by
    rw [int32Varint, Int.toNat_of_nonneg (Int.emod_nonneg _ (by decide))]
  have hlo := v.le_toInt
  have hhi := v.toInt_lt
  have hsize : Int32.size = 4294967296 := rfl
  rw [Int32.toInt_ofNat', hcast, hsize, Int.bmod_def]
  split <;> omega

/-- **The decoder follows the wire format.** -/
theorem proto_followsWireFormat : proto.FollowsWireFormat where
  clientEvent msgId timestamp payload := by
    show Wire.decoding protoClientEvent _ _
      (Wire.encode ([⟨1, .fixed32 msgId⟩, ⟨2, .fixed64 timestamp⟩] ++ [⟨3, .bytes payload⟩])) = _
    rw [Wire.decoding_encode, Wire.layout_concat]
    show (⟨[.msgId msgId, .payload (spanAt 0 _)], true⟩ : Decoding ClientEventField) = _
    rw [spanAt_zero]
    rfl
  attrEvent attributes := by
    show Wire.decoding _ _ _ (Wire.encode _) = _
    rw [Wire.decoding_encode, ← List.filterMap_eq_flatMap_toList, filterMap_protoSpan,
      repeatedSpans]
    simp
  attr attrId values := by
    show Wire.decoding protoAttr _ _ (Wire.encode ([⟨1, .varint (int32Varint attrId)⟩] ++
      [⟨2, .bytes (repeatedBytes values)⟩])) = _
    rw [Wire.decoding_encode, Wire.layout_concat]
    show (⟨.attrId (Int32.ofNat (int32Varint attrId)).toInt ::
      ((protoNested ⟨⟨2, .bytes (repeatedBytes values)⟩, _⟩).map AttrField.value ++ []),
      (decode (repeatedBytes values)).2 && true && true⟩ : Decoding AttrField) = _
    rw [toInt_int32Varint, protoNested_repeatedBytes, decode_repeatedBytes, List.append_nil]
    rfl
  subtype values := by
    show Wire.decoding protoAttrValueData _ _
      (Wire.encode ([] ++ [⟨1, .bytes (repeatedBytes values)⟩])) = _
    rw [Wire.decoding_encode, Wire.layout_concat]
    show (⟨.subtype ::
      ((protoNested ⟨⟨1, .bytes (repeatedBytes values)⟩, _⟩).map AttrValueField.subtypeValue ++ []),
      (decode (repeatedBytes values)).2 && true && true⟩ : Decoding AttrValueField) = _
    rw [protoNested_repeatedBytes, decode_repeatedBytes, List.append_nil]
    rfl
  str s := by
    show Wire.decoding protoAttrValueData _ _ (Wire.encode ([] ++ [⟨2, .bytes s⟩])) = _
    rw [Wire.decoding_encode, Wire.layout_concat]
    show (⟨[.str (spanAt 0 _)], true⟩ : Decoding AttrValueField) = _
    rw [spanAt_zero]
    rfl
  flt v := by
    show Wire.decoding _ _ _ (Wire.encode _) = _
    rw [Wire.decoding_encode]
    rfl
  sint v := by
    show Wire.decoding _ _ _ (Wire.encode _) = _
    rw [Wire.decoding_encode]
    rfl
  boolean v := by
    show Wire.decoding _ _ _ (Wire.encode _) = _
    rw [Wire.decoding_encode]
    cases v <;> rfl

end SensingHub.QshPb
