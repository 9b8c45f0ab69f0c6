import SensingHub.Lib.Wire
import SensingHub.QshPb.Decoders

/-!
# A decoder of the wire format

What `pb_decode` finds in the messages that `decode_suids` and `decode_attributes` take apart, if it
reads the wire format: the fields of each message in order, with the places of those that hold
bytes.
-/

namespace SensingHub.QshPb

open Wire (Placed decode)

/-- Where the contents of a field stand, in a message at the given place. -/
def spanAt (offset : ℕ) (x : Placed) : Span :=
  ⟨offset + x.offset, x.field.value.size⟩

/-- Where a field 1 of bytes stands. -/
def protoSpan (offset : ℕ) (x : Placed) : Option Span :=
  match x.field with
  | ⟨1, .bytes _⟩ => some (spanAt offset x)
  | _ => none

/-- The fields 1 of a message in a field. -/
def protoNested (x : Placed) : List Span :=
  match x.field.value with
  | .bytes b => (decode b).1.filterMap (protoSpan x.offset)
  | _ => []

/-- A message in the field `number` is well formed. -/
def protoWellFormed (number : ℕ) (x : Placed) : Bool :=
  match x.field.value with
  | .bytes b => x.field.number ≠ number || (decode b).2
  | _ => true

/-- The fields of an `sns_client_event`. -/
def protoClientEvent (x : Placed) : List ClientEventField :=
  match x.field with
  | ⟨1, .fixed32 v⟩ => [.msgId v]
  | ⟨3, .bytes _⟩ => [.payload (spanAt 0 x)]
  | _ => []

/-- The fields of an `sns_suid_event`. -/
def protoSuidEvent (x : Placed) : List SuidEventField :=
  match x.field with
  | ⟨1, .bytes _⟩ => [.dataType (spanAt 0 x)]
  | ⟨2, .bytes _⟩ => [.suid (spanAt 0 x)]
  | _ => []

/-- The fields of an `sns_std_attr`. -/
def protoAttr (x : Placed) : List AttrField :=
  match x.field with
  | ⟨1, .varint n⟩ => [.attrId (Int32.ofNat n).toInt]
  | ⟨2, .bytes _⟩ => (protoNested x).map .value
  | _ => []

/-- The fields of an `sns_std_attr_value_data`. -/
def protoAttrValueData (x : Placed) : List AttrValueField :=
  match x.field with
  | ⟨1, .bytes _⟩ => .subtype :: (protoNested x).map .subtypeValue
  | ⟨2, .bytes _⟩ => [.str (spanAt 0 x)]
  | ⟨3, .fixed32 v⟩ => [.flt v]
  | ⟨4, .fixed64 v⟩ => [.sint v.toInt64.toInt]
  | ⟨5, .varint n⟩ => [.boolean (n ≠ 0)]
  | _ => []

theorem spanAt_le {b : Bytes} {x : Placed} (h : x ∈ (decode b).1) :
    (spanAt 0 x).offset + (spanAt 0 x).length ≤ b.length := by
  have hle := Wire.le_of_mem_decode h
  show 0 + x.offset + x.field.value.size ≤ b.length
  omega

/-- The wire format of the messages. -/
def proto : Nanopb where
  clientEventMsg := Wire.decoding (fun x ↦
    match x.field with
    | ⟨2, .bytes _⟩ => [spanAt 0 x]
    | _ => []) (fun _ ↦ true) [(1, 2)]
  clientEvent := Wire.decoding protoClientEvent (fun _ ↦ true) [(1, 5), (2, 1), (3, 2)]
  suidEvent := Wire.decoding protoSuidEvent (fun _ ↦ true) [(1, 2)]
  stdSuid := Wire.decoding (fun x ↦
    match x.field with
    | ⟨1, .fixed64 v⟩ => [.suidLow v]
    | ⟨2, .fixed64 v⟩ => [.suidHigh v]
    | _ => []) (fun _ ↦ true) [(1, 1), (2, 1)]
  attrEvent := Wire.decoding (fun x ↦ (protoSpan 0 x).toList) (fun _ ↦ true) []
  attr := Wire.decoding protoAttr (protoWellFormed 2) [(1, 0), (2, 2)]
  attrValueData := Wire.decoding protoAttrValueData (protoWellFormed 1) []
  payload_le b f hf p hp := by
    obtain ⟨x, hx, hfx⟩ := List.mem_flatMap.1 hf
    unfold protoClientEvent at hfx
    split at hfx
    · rw [List.mem_singleton.1 hfx] at hp
      cases hp
    · rw [List.mem_singleton.1 hfx] at hp
      cases hp
      exact spanAt_le hx
    · cases hfx
  span_le b f hf := by
    obtain ⟨x, hx, hfx⟩ := List.mem_flatMap.1 hf
    unfold protoSuidEvent at hfx
    split at hfx
    · rw [List.mem_singleton.1 hfx]
      exact spanAt_le hx
    · rw [List.mem_singleton.1 hfx]
      exact spanAt_le hx
    · cases hfx
  payload_required b h := by
    obtain ⟨x, hx, hkind⟩ := Wire.exists_mem_of_decoding h (r := (3, 2)) (by decide)
    rw [Prod.mk.injEq] at hkind
    obtain ⟨⟨number, value⟩, offset⟩ := x
    obtain ⟨rfl, htype⟩ := hkind
    cases value with
    | bytes c =>
      refine Decoding.exists_last (x := .payload (spanAt 0 ⟨⟨3, .bytes c⟩, offset⟩)) ?_ rfl
      exact List.mem_flatMap.2 ⟨_, hx, List.mem_singleton.2 rfl⟩
    | _ => cases htype
  clientEvent_nil := rfl
  suidEvent_nil := rfl

end SensingHub.QshPb
