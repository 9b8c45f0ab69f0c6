import Mathlib.Data.List.Forall2
import SensingHub.Lib.Output
import SensingHub.Lib.Wire

/-!
# Encoding with callbacks

nanopb encodes the fields of a message that are set, one after another. For a field of bytes it
calls back, and `encode_bytes_callback` writes the field; a message in a field is encoded twice, to
count its bytes and to write them. That nanopb follows the wire format says what a message emits,
given what its callbacks do.
-/

namespace SensingHub.QshPb

open Wire (Field)

/-- What writes to an output stream, or fails. -/
abbrev Encoder :=
  Output → Option Output

/-- A field of a message that is set: a number, bytes that a callback writes, or a message. -/
inductive MsgField
  | value (f : Field)
  | callback (encode : Encoder)
  | submessage (number : ℕ) (encode : Encoder)

/-- The functions of nanopb that write to an output stream. -/
structure NanopbEncoder where
  /-- `pb_encode_tag_for_field`, for a field of bytes. -/
  encodeTagForField : ℕ → Encoder
  /-- `pb_encode_string` -/
  encodeString : Bytes → Encoder
  /-- `pb_encode`, for the fields that are set. -/
  encode : List MsgField → Encoder

/-- `pb_buffer_arg`: the memory at a pointer, and a length. -/
structure PbBufferArg where
  buf : Bytes
  bufLen : ℕ

/-- `encode_bytes_callback` -/
def encodeBytesCallback (nb : NanopbEncoder) (arg : PbBufferArg) (number : ℕ) : Encoder :=
  fun stream ↦ do
    let stream ← nb.encodeTagForField number stream
    nb.encodeString (arg.buf.take arg.bufLen) stream

/-! ### Following the wire format -/

/-- What a field that is set emits. -/
def MsgField.Emits : MsgField → Bytes → Prop
  | .value f, b => b = f.encode
  | .callback encode, b => Output.Emits encode b
  | .submessage number encode, b =>
    ∃ c, Output.Emits encode c ∧ b = Field.encode ⟨number, .bytes c⟩

/-- The functions emit the wire format, and fail exactly if the buffer is too small. -/
structure NanopbEncoder.FollowsWireFormat (nb : NanopbEncoder) : Prop where
  encodeTagForField : ∀ number,
    Output.Emits (nb.encodeTagForField number) (Wire.varint (8 * number + 2))
  encodeString : ∀ b, Output.Emits (nb.encodeString b) (Wire.varint b.length ++ b)
  encode : ∀ fs bs, List.Forall₂ MsgField.Emits fs bs → Output.Emits (nb.encode fs) bs.flatten

section

variable {nb : NanopbEncoder} (h : nb.FollowsWireFormat)

include h in
/-- The callback writes the field. -/
theorem emits_encodeBytesCallback (b : Bytes) (number : ℕ) :
    Output.Emits (encodeBytesCallback nb ⟨b, b.length⟩ number)
      (Field.encode ⟨number, .bytes b⟩) := by
  unfold encodeBytesCallback
  rw [List.take_length]
  exact (h.encodeTagForField number).bind (h.encodeString b)

include h in
/-- A message emits its fields. -/
theorem emits_encode {fs : List MsgField} {gs : List Field}
    (hfields : List.Forall₂ (fun f g ↦ f.Emits (Field.encode g)) fs gs) :
    Output.Emits (nb.encode fs) (Wire.encode gs) := by
  have hemits := h.encode fs (gs.map Field.encode) (List.forall₂_map_right_iff.2 hfields)
  rwa [← List.flatMap_def] at hemits

end

/-! ### Functions that follow the wire format -/

/-- Write a field that is set; a message is counted first. -/
def MsgField.write : MsgField → Encoder
  | .value f => Output.write f.encode
  | .callback encode => encode
  | .submessage number encode => fun stream ↦ do
    let sized ← encode Output.sizing
    let stream ← stream.write (Wire.varint (8 * number + 2) ++ Wire.varint sized.written.length)
    encode stream

/-- The wire format. -/
def protoEncoder : NanopbEncoder where
  encodeTagForField number := Output.write (Wire.varint (8 * number + 2))
  encodeString b := Output.write (Wire.varint b.length ++ b)
  encode fs stream := fs.foldlM (fun stream f ↦ f.write stream) stream

theorem emits_write {f : MsgField} {b : Bytes} (h : f.Emits b) : Output.Emits f.write b := by
  cases f with
  | value f =>
    rw [show b = f.encode from h]
    exact fun _ ↦ rfl
  | callback encode => exact h
  | submessage number encode =>
    obtain ⟨c, hc, rfl⟩ := h
    intro stream
    have hsized : encode Output.sizing = some ⟨none, c, by simp⟩ :=
      (hc _).trans (Output.write_sizing c)
    have hheader : Output.Emits (Output.write (Wire.varint (8 * number + 2) ++
        Wire.varint c.length)) (Wire.varint (8 * number + 2) ++ Wire.varint c.length) :=
      fun _ ↦ rfl
    have hall := hheader.bind hc stream
    rw [List.append_assoc] at hall
    rw [MsgField.write, hsized]
    exact hall

theorem protoEncoder_followsWireFormat : protoEncoder.FollowsWireFormat where
  encodeTagForField _ _ := rfl
  encodeString _ _ := rfl
  encode fs bs h := by
    induction h with
    | nil => exact fun stream ↦ (Output.write_nil stream).symm
    | cons hf _ ih => exact (emits_write hf).bind ih

end SensingHub.QshPb
