import SensingHub.QshPb.Decoders
import SensingHub.QshPb.Encode

/-!
# Callbacks for strings and lists of ids

Beside `encode_bytes_callback` there are three more callbacks for output: two that write a field of
bytes from a C string and from a buffer, and one that writes a field of four bytes for every id of a
list. The first two write what `encode_bytes_callback` does, and `decode_string` and
`decode_payload` read it back; for the third the fields of the list take the place of one.
-/

namespace SensingHub.QshPb

open Discovery (DecodeM)
open Wire (Field Value fields? lastOf)

/-- The functions of nanopb that the other callbacks use. -/
structure NanopbWriter extends NanopbEncoder where
  /-- `pb_encode_tag_for_field`, for a field of four bytes. -/
  encodeTagForFixed32 : ℕ → Encoder
  /-- `pb_encode_fixed32` -/
  encodeFixed32 : UInt32 → Encoder
  /-- `pb_encode_varint` -/
  encodeVarint : ℕ → Encoder
  /-- `pb_write` -/
  write : Bytes → Encoder

/-! ### The callbacks -/

/-- `encode_cstring_cb`, with the memory that is pointed to, which has a NUL in it; a null pointer
is taken for the empty string. -/
def encodeCstringCb (nb : NanopbWriter) (str : Option Bytes) (number : ℕ) : Encoder :=
  fun stream ↦ do
    let str := str.getD [0]
    let len := (str.takeWhile (· ≠ 0)).length
    let stream ← nb.encodeTagForField number stream
    nb.encodeString (str.take len) stream

/-- `encode_nowakeup_msg_ids` -/
def encodeNowakeupMsgIds (nb : NanopbWriter) (number : ℕ) : List UInt32 → Encoder
  | [], stream => some stream
  | id :: msgIds, stream => do
    let stream ← nb.encodeTagForFixed32 number stream
    let stream ← nb.encodeFixed32 id stream
    encodeNowakeupMsgIds nb number msgIds stream

/-- `encode_string_cb` -/
def encodeStringCb (nb : NanopbWriter) (arg : Option PbBufferArg) (number : ℕ) : Encoder :=
  match arg with
  | none => fun _ ↦ none
  | some s => fun stream ↦ do
    let stream ← nb.encodeTagForField number stream
    let stream ← nb.encodeVarint s.bufLen stream
    if 0 < s.bufLen then nb.write (s.buf.take s.bufLen) stream else some stream

/-- `decode_string`: the bytes of the field, to a string. -/
def decodeString {σ : Type} (arg : Bytes → σ → σ) (stream : PbIstream) : DecodeM σ Bool :=
  if stream.bytesLeft = 0 then do
    Prog.modify (arg [])
    return true
  else do
    Prog.modify (arg stream.bytes)
    return true

/-! ### What they write -/

/-- The functions emit the wire format, and fail exactly if the buffer is too small. -/
structure NanopbWriter.FollowsWireFormat (nb : NanopbWriter) : Prop extends
    nb.toNanopbEncoder.FollowsWireFormat where
  encodeTagForFixed32 : ∀ number,
    Output.Emits (nb.encodeTagForFixed32 number) (Wire.varint (8 * number + 5))
  encodeFixed32 : ∀ v : UInt32,
    Output.Emits (nb.encodeFixed32 v) (Wire.littleEndian 4 v.toNat)
  encodeVarint : ∀ n, Output.Emits (nb.encodeVarint n) (Wire.varint n)
  write : ∀ b, Output.Emits (nb.write b) b

theorem emits_some : Output.Emits some [] :=
  fun out ↦ (Output.write_nil out).symm

section

variable {nb : NanopbWriter} (h : nb.FollowsWireFormat)

include h in
theorem emits_encodeCstringCb (str : Option Bytes) (number : ℕ) :
    Output.Emits (encodeCstringCb nb str number)
      (Field.encode ⟨number, .bytes ((str.getD [0]).takeWhile (· ≠ 0))⟩) := by
  unfold encodeCstringCb
  dsimp only
  rw [← List.prefix_iff_eq_take.1 (List.takeWhile_prefix _)]
  exact (h.encodeTagForField number).bind (h.encodeString _)

include h in
theorem emits_encodeStringCb (b : Bytes) (number : ℕ) :
    Output.Emits (encodeStringCb nb (some ⟨b, b.length⟩) number)
      (Field.encode ⟨number, .bytes b⟩) := by
  have hbytes : Output.Emits (fun stream ↦
      if 0 < b.length then nb.write (b.take b.length) stream else some stream) b := by
    rcases List.eq_nil_or_concat b with rfl | ⟨_, _, rfl⟩
    · exact emits_some
    · rw [List.take_length]
      simpa using h.write _
  exact (h.encodeTagForField number).bind ((h.encodeVarint b.length).bind hbytes)

include h in
/-- One field for every id. -/
theorem emits_encodeNowakeupMsgIds (number : ℕ) (msgIds : List UInt32) :
    Output.Emits (encodeNowakeupMsgIds nb number msgIds)
      (Wire.encode (msgIds.map fun id ↦ ⟨number, .fixed32 id⟩)) := by
  induction msgIds with
  | nil => exact emits_some
  | cons id msgIds ih =>
    have hfield := ((h.encodeTagForFixed32 number).bind ((h.encodeFixed32 id).bind ih))
    rw [← List.append_assoc] at hfield
    exact hfield

end

/-- A message whose fields emit some fields each. -/
theorem emits_encode_flatten {nb : NanopbEncoder} (h : nb.FollowsWireFormat) {fs : List MsgField}
    {gss : List (List Field)}
    (hfields : List.Forall₂ (fun f gs ↦ f.Emits (Wire.encode gs)) fs gss) :
    Output.Emits (nb.encode fs) (Wire.encode gss.flatten) := by
  have hemits := h.encode fs (gss.map Wire.encode) (List.forall₂_map_right_iff.2 hfields)
  have hflatten : (gss.map Wire.encode).flatten = Wire.encode gss.flatten := by
    rw [Wire.encode, List.flatten_eq_flatMap (L := gss)]
    exact List.flatMap_assoc.symm
  rwa [hflatten] at hemits

/-! ### Strings read back -/

/-- What `decode_string` leaves, on a stream that holds what it says. -/
theorem decodeString_run {σ : Type} (arg : Bytes → σ → σ) {stream : PbIstream} {b : Bytes}
    (hb : stream.bytes = b) (s : σ) : decodeString arg stream s = (.ok true, arg b s) := by
  subst hb
  unfold decodeString
  split
  · next hnone =>
    rw [PbIstream.bytes, hnone, List.take_zero]
    rfl
  · rfl

/-- The contents of a field, where the field is found in the buffer of a message. -/
theorem bytes_of_mem_decode {fs : List Field} {number : ℕ} {b : Bytes} {offset : ℕ}
    (h : ⟨⟨number, .bytes b⟩, offset⟩ ∈ Wire.layout 0 fs) (tail : Bytes) :
    (PbIstream.sub ⟨Wire.encode fs ++ tail, (Wire.encode fs).length⟩ ⟨offset, b.length⟩).bytes =
      b := by
  obtain ⟨pre, post, hencode, hoffset⟩ := Wire.exists_of_mem_layout h
  rw [Nat.zero_add] at hoffset
  show (List.drop offset (Wire.encode fs ++ tail)).take b.length = b
  have hcontent : (Field.value ⟨number, .bytes b⟩).content = b := rfl
  rw [hcontent] at hencode
  have hpre : pre.length = offset := hoffset.symm
  rw [hencode, List.append_assoc, List.append_assoc, List.drop_left' hpre, List.take_left' rfl]

theorem takeWhile_append_nul {b : Bytes} (hb : 0 ∉ b) (rest : Bytes) :
    (b ++ 0 :: rest).takeWhile (· ≠ 0) = b := by
  rw [List.takeWhile_append_of_pos fun c hc ↦ decide_eq_true (ne_of_mem_of_not_mem hc hb)]
  exact List.append_nil b

/-- **A string is read back**, whichever of the three callbacks has written it, and wherever in the
message. -/
theorem string_roundTrip {nb : NanopbWriter} (h : nb.FollowsWireFormat) (number : ℕ) (b : Bytes)
    {encode : Encoder}
    (hencode : encode = encodeBytesCallback nb.toNanopbEncoder ⟨b, b.length⟩ number ∨
      encode = encodeStringCb nb (some ⟨b, b.length⟩) number ∨
      0 ∉ b ∧ ∃ rest, encode = encodeCstringCb nb (some (b ++ 0 :: rest)) number)
    {fs gs : List Field} {size : ℕ} {out : Output}
    (hout : nb.encode (fs.map .value ++ .callback encode :: gs.map .value) (.fromBuffer size) =
      some out) {σ : Type} (arg : Bytes → σ → σ) (tail : Bytes) (s : σ) :
    ∃ p : Span, ⟨⟨number, .bytes b⟩, p.offset⟩ ∈ (Wire.decode out.written).1 ∧
      decodeString arg (PbIstream.sub ⟨out.written ++ tail, out.written.length⟩ p) s =
        (.ok true, arg b s) ∧
      (PbIstream.sub ⟨out.written ++ tail, out.written.length⟩ p).bytes = b := by
  have hemits : (MsgField.callback encode).Emits (Field.encode ⟨number, .bytes b⟩) := by
    rcases hencode with rfl | rfl | ⟨hb, rest, rfl⟩
    · exact emits_encodeBytesCallback h.toFollowsWireFormat b number
    · exact emits_encodeStringCb h b number
    · have hemits := emits_encodeCstringCb h (some (b ++ 0 :: rest)) number
      rwa [Option.getD_some, takeWhile_append_nul hb] at hemits
  have hvalues : ∀ fs : List Field,
      List.Forall₂ (fun f g ↦ f.Emits (Field.encode g)) (fs.map MsgField.value) fs :=
    fun fs ↦ List.forall₂_map_left_iff.2 (List.forall₂_same.2 fun _ _ ↦ rfl)
  have hall := emits_encode h.toFollowsWireFormat
    (List.rel_append (hvalues fs) (.cons hemits (hvalues gs)))
  rw [hall] at hout
  have hwritten : out.written = Wire.encode (fs ++ ⟨number, .bytes b⟩ :: gs) :=
    Output.written_of_write hout
  obtain ⟨x, hx, hfield⟩ : ∃ x ∈ Wire.layout 0 (fs ++ ⟨number, .bytes b⟩ :: gs),
      x.field = ⟨number, .bytes b⟩ := by
    have hmem : (⟨number, .bytes b⟩ : Field) ∈
        (Wire.layout 0 (fs ++ ⟨number, .bytes b⟩ :: gs)).map Wire.Placed.field := by
      rw [Wire.map_field_layout]
      exact List.mem_append_right fs List.mem_cons_self
    exact List.mem_map.1 hmem
  obtain ⟨_, offset⟩ := x
  subst hfield
  have hbytes := bytes_of_mem_decode hx tail
  rw [hwritten]
  refine ⟨⟨offset, b.length⟩, ?_, decodeString_run arg hbytes s, hbytes⟩
  rw [Wire.decode_encode]
  exact hx

/-- The wire format, with the functions that the other callbacks use. -/
def protoWriter : NanopbWriter where
  toNanopbEncoder := protoEncoder
  encodeTagForFixed32 number := Output.write (Wire.varint (8 * number + 5))
  encodeFixed32 v := Output.write (Wire.littleEndian 4 v.toNat)
  encodeVarint n := Output.write (Wire.varint n)
  write := Output.write

theorem protoWriter_followsWireFormat : protoWriter.FollowsWireFormat where
  toFollowsWireFormat := protoEncoder_followsWireFormat
  encodeTagForFixed32 _ _ := rfl
  encodeFixed32 _ _ := rfl
  encodeVarint _ _ := rfl
  write _ _ := rfl

theorem string_roundTrip_accel :
    ∃ out, ∃ p : Span,
      protoWriter.encode [.callback (encodeStringCb protoWriter (some ⟨CLib.str "accel", 5⟩) 1)]
          (.fromBuffer 100) = some out ∧
        decodeString (fun b _ ↦ b) (PbIstream.sub ⟨out.written ++ [255], out.written.length⟩ p) [] =
          (.ok true, CLib.str "accel") := by
  have hfield : (MsgField.callback
      (encodeStringCb protoWriter (some ⟨CLib.str "accel", 5⟩) 1)).Emits
        (Field.encode ⟨1, .bytes (CLib.str "accel")⟩) :=
    emits_encodeStringCb protoWriter_followsWireFormat (CLib.str "accel") 1
  have hall : Output.Emits (protoWriter.encode [.callback
      (encodeStringCb protoWriter (some ⟨CLib.str "accel", 5⟩) 1)])
        (Wire.encode [⟨1, .bytes (CLib.str "accel")⟩]) :=
    emits_encode protoEncoder_followsWireFormat (.cons hfield .nil)
  obtain ⟨out, hout⟩ : ∃ out, protoWriter.encode [.callback
      (encodeStringCb protoWriter (some ⟨CLib.str "accel", 5⟩) 1)] (.fromBuffer 100) =
        some out := by
    rw [hall]
    exact Output.exists_write_fromBuffer_iff.2 (by decide +kernel)
  obtain ⟨p, -, hdecode, -⟩ := @string_roundTrip _ protoWriter_followsWireFormat 1
    (CLib.str "accel") _ (.inr (.inl rfl)) [] [] _ _ hout _
    (fun b _ ↦ b) [255] []
  exact ⟨out, p, hout, hdecode⟩

end SensingHub.QshPb
