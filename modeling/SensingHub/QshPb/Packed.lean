import SensingHub.QshPb.WireFormat

/-!
# Packed and unpacked repeated fields

A repeated field of numbers comes in pieces: packed fields, each with any number of values one after
another, and fields with a single value. nanopb calls back once for a packed field, on its payload,
and once for each other field, on a stream that holds its one value. `decode_float_array` and
`decode_repeated_enum` read values off the stream until it is empty, whichever of the two it is:
what they append does not depend on the pieces.
-/

namespace SensingHub.QshPb

open Discovery (DecodeM)
open Wire (Field Value littleEndian ofLittleEndian)

/-! ### The callbacks -/

/-- The functions of nanopb that take a number off a stream. Nothing keeps a pointer into these
streams, so a stream is the bytes that are left of it. -/
structure NanopbNumbers where
  /-- `pb_decode_fixed32` -/
  fixed32 : Reader UInt8 UInt32
  /-- `pb_decode_varint` -/
  varint : Reader UInt8 UInt64

/-- They follow the wire format: a number of four bytes is read if there are as many, and what is
read as a varint ends with a byte that says so. -/
structure NanopbNumbers.FollowsWireFormat (nb : NanopbNumbers) : Prop where
  fixed32 : ∀ (v : UInt32) (rest : Bytes),
    nb.fixed32.read (littleEndian 4 v.toNat ++ rest) = some (v, rest)
  fixed32_short : ∀ stream, stream.length < 4 → nb.fixed32.read stream = none
  varint : ∀ (n : UInt64) (rest : Bytes),
    nb.varint.read (Wire.varint n.toNat ++ rest) = some (n, rest)
  varint_ends : ∀ stream n rest, nb.varint.read stream = some (n, rest) →
    ∃ pre b, stream = pre ++ b :: rest ∧ b < 128

/-- `decode_float_array`; a float is given by its bits. -/
def decodeFloatArray (nb : NanopbNumbers) (stream : Bytes) : DecodeM (List UInt32) Bool :=
  nb.fixed32.readAll (fun value vec ↦ vec ++ [value]) stream

/-- `decode_repeated_enum`, on a vector or a null pointer. -/
def decodeRepeatedEnum (nb : NanopbNumbers) (stream : Bytes) :
    DecodeM (Option (List UInt32)) Bool := do
  if (← Prog.read Option.isNone) then return false
  nb.varint.readAll (fun raw ctx ↦ ctx.map fun vec ↦ vec ++ [raw.toUInt32]) stream

/-! ### Pieces of a repeated field -/

/-- Some consecutive values of a repeated field, in one packed field or in a field each. -/
inductive Piece (α : Type)
  | packed (values : List α)
  | unpacked (values : List α)

/-- The values of a piece. -/
def Piece.values {α : Type} : Piece α → List α
  | packed values | unpacked values => values

/-- The fields that a piece is encoded as. -/
def Piece.fields {α : Type} (number : ℕ) (encode : α → Value) : Piece α → List Field
  | packed values => [⟨number, .bytes (values.flatMap fun v ↦ (encode v).encode)⟩]
  | unpacked values => values.map fun v ↦ ⟨number, encode v⟩

/-- The stream on which nanopb calls back for a field: the payload of a packed field, or what holds
the one value. -/
def callbackStream (f : Field) : Bytes :=
  match f.value with
  | .bytes b => b
  | v => v.encode

/-- Call back for some fields, in order. -/
def decodeFields {σ : Type} (callback : Bytes → DecodeM σ Bool) (fs : List Field) :
    DecodeM σ Bool :=
  Decoding.run ⟨fs, true⟩ fun f ↦ callback (callbackStream f)

/-- A float on the wire. -/
def floatValue (v : UInt32) : Value :=
  .fixed32 v

/-- An enum value on the wire. -/
def enumValue (v : Int32) : Value :=
  .varint (int32Varint v)

/-- The bytes break off in a varint: the last of them says that there is another one. -/
def CutOff (b : Bytes) : Prop :=
  ∃ pre c, b = pre ++ [c] ∧ 128 ≤ c

/-! ### The pieces do not matter -/

section

variable {σ α : Type} {callback : Bytes → DecodeM σ Bool} {push : σ → α → σ} {I : σ → Prop}
  {encode : α → Value} {number : ℕ}

/-- A piece hands its values over in order, one at a time or all at once. -/
theorem exists_chunks (hencode : ∀ v, callbackStream ⟨number, encode v⟩ = (encode v).encode)
    (piece : Piece α) :
    ∃ chunks : List (List α), chunks.flatten = piece.values ∧
      List.Forall₂ (fun f vs ↦ callbackStream f = vs.flatMap fun v ↦ (encode v).encode)
        (piece.fields number encode) chunks := by
  cases piece with
  | packed values => exact ⟨[values], List.append_nil _, .cons rfl .nil⟩
  | unpacked values =>
    refine ⟨values.map fun v ↦ [v], ?_, ?_⟩
    · rw [← List.flatMap_def, List.flatMap_singleton']
      rfl
    · rw [Piece.fields, List.forall₂_map_left_iff, List.forall₂_map_right_iff, List.forall₂_same]
      intro v _
      rw [hencode, List.flatMap_singleton]

/-- The same for all pieces of a field. -/
theorem exists_chunks_flatMap
    (hencode : ∀ v, callbackStream ⟨number, encode v⟩ = (encode v).encode)
    (pieces : List (Piece α)) :
    ∃ chunks : List (List α), chunks.flatten = pieces.flatMap Piece.values ∧
      List.Forall₂ (fun f vs ↦ callbackStream f = vs.flatMap fun v ↦ (encode v).encode)
        (pieces.flatMap (Piece.fields number encode)) chunks := by
  induction pieces with
  | nil => exact ⟨[], rfl, .nil⟩
  | cons piece pieces ih =>
    obtain ⟨chunks, hvalues, hstreams⟩ := exists_chunks hencode piece
    obtain ⟨chunks', hvalues', hstreams'⟩ := ih
    refine ⟨chunks ++ chunks', ?_, ?_⟩
    · rw [List.flatten_append, hvalues, hvalues', List.flatMap_cons]
    · rw [List.flatMap_cons]
      exact List.rel_append hstreams hstreams'

/-- **A callback that takes whatever values its stream holds takes those of a field however that is
cut into pieces**, and accepts every time. -/
theorem decodeFields_pieces
    (hencode : ∀ v, callbackStream ⟨number, encode v⟩ = (encode v).encode)
    (hI : ∀ s v, I s → I (push s v))
    (hcallback : ∀ (vs : List α) s, I s →
      callback (vs.flatMap fun v ↦ (encode v).encode) s = (.ok true, vs.foldl push s))
    (pieces : List (Piece α)) {s : σ} (hs : I s) :
    decodeFields callback (pieces.flatMap (Piece.fields number encode)) s =
        (.ok true, (pieces.flatMap Piece.values).foldl push s) ∧
      ∀ f ∈ pieces.flatMap (Piece.fields number encode), ∀ s, I s →
        (callback (callbackStream f) s).1 = .ok true := by
  obtain ⟨chunks, hvalues, hstreams⟩ := exists_chunks_flatMap hencode pieces
  have hfold : ∀ (vs : List α) s, I s → I (vs.foldl push s) := fun vs s hs ↦
    List.foldlRecOn vs push hs fun s hs v _ ↦ hI s v hs
  have haccept : List.Forall₂ (fun f vs ↦ ∀ s, I s →
      callback (callbackStream f) s = (.ok true, vs.foldl push s))
      (pieces.flatMap (Piece.fields number encode)) chunks := by
    refine hstreams.imp fun f vs hf s hs ↦ ?_
    rw [hf]
    exact hcallback vs s hs
  constructor
  · rw [← hvalues, List.foldl_flatten]
    exact Decoding.run_forall₂_of (d := ⟨pieces.flatMap (Piece.fields number encode), true⟩) _
      (fun s vs ↦ vs.foldl push s) (fun s vs ↦ hfold vs s) haccept hs
  · intro f hf s hs
    obtain ⟨i, hi, rfl⟩ := List.getElem_of_mem hf
    have hget := haccept.get hi (haccept.length_eq ▸ hi) s hs
    rw [List.get_eq_getElem] at hget
    rw [hget]

end

theorem int32Varint_lt (v : Int32) : int32Varint v < UInt64.size := by
  have hlt := Int.emod_lt_of_pos v.toInt (b := 2 ^ 64) (by decide)
  have hsize : UInt64.size = 2 ^ 64 := rfl
  rw [int32Varint, hsize]
  omega

/-- An enum value is taken modulo 2^32, however many bytes it has on the wire. -/
theorem toUInt32_int32Varint (v : Int32) :
    (UInt64.ofNat (int32Varint v)).toUInt32 = v.toUInt32 := by
  rw [UInt64.toUInt32_ofNat']
  exact congrArg Int32.toUInt32 (Int32.toInt_inj.1 (toInt_int32Varint v))

section

variable {nb : NanopbNumbers} (h : nb.FollowsWireFormat)

include h in
theorem decodeFloatArray_run (vs : List UInt32) (vec : List UInt32) :
    decodeFloatArray nb (vs.flatMap fun v ↦ (floatValue v).encode) vec =
      (.ok true, vs.foldl (fun vec v ↦ vec ++ [v]) vec) :=
  nb.fixed32.readAll_flatMap _ h.fixed32 vs vec

include h in
theorem decodeRepeatedEnum_run (vs : List Int32) {ctx : Option (List UInt32)}
    (hctx : ctx.isSome = true) :
    decodeRepeatedEnum nb (vs.flatMap fun v ↦ (enumValue v).encode) ctx =
      (.ok true, vs.foldl (fun ctx v ↦ ctx.map fun vec ↦ vec ++ [v.toUInt32]) ctx) := by
  have hread : ∀ (v : Int32) rest, nb.varint.read ((enumValue v).encode ++ rest) =
      some (UInt64.ofNat (int32Varint v), rest) := by
    intro v rest
    have hn := h.varint (UInt64.ofNat (int32Varint v)) rest
    rwa [UInt64.toNat_ofNat_of_lt' (int32Varint_lt v)] at hn
  have hrun := @Reader.readAll_flatMap Discovery.Undefined _ _ _ _ nb.varint
    (fun raw ctx ↦ ctx.map fun vec ↦ vec ++ [raw.toUInt32]) _ _ hread vs ctx
  simp only [toUInt32_int32Varint] at hrun
  rw [decodeRepeatedEnum, Prog.read_bind_run, ← hrun]
  cases ctx with
  | none => cases hctx
  | some vec => rfl

include h in
/-- A packed field whose floats do not come out even is refused. -/
theorem decodeFloatArray_false {stream : Bytes} (hlen : stream.length % 4 ≠ 0)
    (vec : List UInt32) : (decodeFloatArray nb stream vec).1 = .ok false := by
  refine nb.fixed32.readAll_false _ (P := fun stream ↦ stream.length % 4 ≠ 0) ?_ ?_ hlen vec
  · rintro _ hlen rfl
    exact hlen rfl
  · intro stream v rest hlen hread
    rcases Nat.lt_or_ge stream.length 4 with hlt | hle
    · cases (h.fixed32_short stream hlt).symm.trans hread
    · have hfour : (stream.take 4).length = 4 := List.length_take_of_le hle
      have hlt := Wire.ofLittleEndian_lt (stream.take 4)
      have hback := Wire.littleEndian_ofLittleEndian (stream.take 4)
      have hnext := h.fixed32 (UInt32.ofNat (ofLittleEndian (stream.take 4))) (stream.drop 4)
      rw [hfour] at hlt hback
      rw [UInt32.toNat_ofNat_of_lt' hlt, hback, List.take_append_drop] at hnext
      cases hread.symm.trans hnext
      rw [List.length_drop]
      omega

include h in
/-- A packed field that breaks off in a varint is refused. -/
theorem decodeRepeatedEnum_false {stream : Bytes} (hcut : CutOff stream)
    (ctx : Option (List UInt32)) : (decodeRepeatedEnum nb stream ctx).1 = .ok false := by
  have hloop := @Reader.readAll_false Discovery.Undefined _ _ _ nb.varint
    (fun raw ctx ↦ ctx.map fun vec ↦ vec ++ [raw.toUInt32]) CutOff ?_ ?_ stream hcut ctx
  · rw [decodeRepeatedEnum, Prog.read_bind_run]
    cases ctx with
    | none => rfl
    | some vec => exact hloop
  · rintro _ ⟨pre, c, hnil, -⟩ rfl
    exact List.append_ne_nil_of_right_ne_nil pre (List.cons_ne_nil c []) hnil.symm
  · rintro _ n rest ⟨pre, c, rfl, hc⟩ hread
    obtain ⟨pre', b, heq, hb⟩ := h.varint_ends _ n rest hread
    rcases List.eq_nil_or_concat rest with rfl | ⟨rest, d, rfl⟩
    · obtain ⟨-, hlast⟩ := List.append_inj' heq rfl
      cases hlast
      exact absurd hc (UInt8.not_le.2 hb)
    · rw [List.concat_eq_append, ← List.cons_append, ← List.append_assoc] at heq
      obtain ⟨-, hlast⟩ := List.append_inj' heq rfl
      cases hlast
      exact ⟨rest, c, List.concat_eq_append, hc⟩

end

/-- What is appended value by value, to a vector or to the one that a pointer points to. -/
theorem foldl_pushBack {α : Type} (f : α → UInt32) (vs : List α) (vec : List UInt32) :
    vs.foldl (fun vec v ↦ vec ++ [f v]) vec = vec ++ vs.map f := by
  rw [List.foldl_append_eq_append, ← List.flatMap_def, ← List.map_eq_flatMap]

theorem foldl_pushBack_some {α : Type} (f : α → UInt32) (vs : List α) (vec : List UInt32) :
    vs.foldl (fun ctx v ↦ ctx.map fun vec ↦ vec ++ [f v]) (some vec) =
      some (vec ++ vs.map f) := by
  rw [← foldl_pushBack]
  exact List.foldl_hom some fun _ _ ↦ rfl

/-- **Packing does not change a repeated field.** However a list of floats, or of enum values, is
cut into pieces, the callback takes it from their fields in order, returning true every time; and it
refuses a packed field whose floats do not come out even, or whose last varint is cut off. -/
theorem packing_irrelevant {nb : NanopbNumbers} (h : nb.FollowsWireFormat) (number : ℕ) :
    (∀ vs (pieces : List (Piece UInt32)), pieces.flatMap Piece.values = vs → ∀ vec,
        decodeFields (decodeFloatArray nb) (pieces.flatMap (Piece.fields number floatValue)) vec =
            (.ok true, vec ++ vs) ∧
          ∀ f ∈ pieces.flatMap (Piece.fields number floatValue), ∀ vec,
            (decodeFloatArray nb (callbackStream f) vec).1 = .ok true) ∧
      (∀ vs (pieces : List (Piece Int32)), pieces.flatMap Piece.values = vs → ∀ vec,
        decodeFields (decodeRepeatedEnum nb) (pieces.flatMap (Piece.fields number enumValue))
            (some vec) = (.ok true, some (vec ++ vs.map Int32.toUInt32)) ∧
          ∀ f ∈ pieces.flatMap (Piece.fields number enumValue), ∀ vec,
            (decodeRepeatedEnum nb (callbackStream f) (some vec)).1 = .ok true) ∧
      (∀ stream vec, stream.length % 4 ≠ 0 → (decodeFloatArray nb stream vec).1 = .ok false) ∧
      ∀ stream ctx, CutOff stream → (decodeRepeatedEnum nb stream ctx).1 = .ok false := by
  refine ⟨?_, ?_, fun stream vec hlen ↦ decodeFloatArray_false h hlen vec,
    fun stream ctx hcut ↦ decodeRepeatedEnum_false h hcut ctx⟩
  · rintro _ pieces rfl vec
    obtain ⟨hrun, haccept⟩ := @decodeFields_pieces _ _ (decodeFloatArray nb)
      (fun vec v ↦ vec ++ [v]) (fun _ ↦ True) floatValue number (fun _ ↦ rfl) (fun _ _ _ ↦ trivial)
      (fun vs vec _ ↦ decodeFloatArray_run h vs vec) pieces vec trivial
    rw [foldl_pushBack fun v ↦ v, List.map_id'] at hrun
    exact ⟨hrun, fun f hf vec ↦ haccept f hf vec trivial⟩
  · rintro _ pieces rfl vec
    obtain ⟨hrun, haccept⟩ := @decodeFields_pieces _ _ (decodeRepeatedEnum nb)
      (fun ctx v ↦ ctx.map fun vec ↦ vec ++ [v.toUInt32]) (fun ctx ↦ ctx.isSome = true) enumValue
      number (fun _ ↦ rfl) (fun ctx v hctx ↦ Option.isSome_map.trans hctx)
      (fun vs ctx hctx ↦ decodeRepeatedEnum_run h vs hctx) pieces (some vec) rfl
    rw [foldl_pushBack_some] at hrun
    exact ⟨hrun, fun f hf vec ↦ haccept f hf (some vec) rfl⟩

/-- The start of a varint, unless it is all of it, is cut off. -/
theorem cutOff_of_varint {n : ℕ} {start tail : Bytes} (hn : Wire.varint n = start ++ tail)
    (hstart : start ≠ []) (htail : tail ≠ []) (pre : Bytes) : CutOff (pre ++ start) := by
  induction n using Nat.strongRecOn generalizing start pre with
  | ind n ih =>
    obtain ⟨b, start, rfl⟩ := List.exists_cons_of_ne_nil hstart
    rw [List.cons_append] at hn
    rcases Nat.lt_or_ge n 128 with hlt | hle
    · rw [Wire.varint_of_lt hlt] at hn
      exact absurd (List.cons.inj hn).2.symm (List.append_ne_nil_of_right_ne_nil start htail)
    · rw [Wire.varint_of_le hle] at hn
      obtain ⟨rfl, hrest⟩ := List.cons.inj hn
      cases start with
      | nil =>
        refine ⟨pre, _, rfl, ?_⟩
        rw [UInt8.le_iff_toNat_le, Wire.toNat_ofNat (by omega)]
        exact Nat.le_add_left 128 (n % 128)
      | cons c start =>
        have hcut := ih (n / 128) (by omega) hrest (List.cons_ne_nil c start)
          (pre ++ [UInt8.ofNat (n % 128 + 128)])
        rwa [List.append_assoc] at hcut

/-! ### Functions that follow the wire format -/

/-- The numbers of the wire format. -/
def protoNumbers : NanopbNumbers where
  fixed32.read b :=
    if 4 ≤ b.length then some (UInt32.ofNat (ofLittleEndian (b.take 4)), b.drop 4) else none
  fixed32.read_lt b v rest h := by
    split at h
    · cases h
      rw [List.length_drop]
      omega
    · cases h
  varint.read b := (Wire.readVarint b).bind fun r ↦
    if r.1 < UInt64.size then some (UInt64.ofNat r.1, r.2) else none
  varint.read_lt b n rest h := by
    obtain ⟨r, hr, h⟩ := Option.bind_eq_some_iff.1 h
    split at h
    · cases h
      exact Wire.readVarint_length hr
    · cases h

theorem protoNumbers_followsWireFormat : protoNumbers.FollowsWireFormat where
  fixed32 v rest := by
    have hlen : (littleEndian 4 v.toNat).length = 4 := Wire.length_littleEndian 4 v.toNat
    have hback : ofLittleEndian (littleEndian 4 v.toNat) = v.toNat :=
      Wire.ofLittleEndian_littleEndian v.toNat_lt
    dsimp only [protoNumbers]
    rw [if_pos (by rw [List.length_append]; omega), List.take_left' hlen, List.drop_left' hlen,
      hback, UInt32.ofNat_toNat]
  fixed32_short stream hlt := if_neg (Nat.not_le.2 hlt)
  varint n rest := by
    show (Wire.readVarint (Wire.varint n.toNat ++ rest)).bind _ = _
    rw [Wire.readVarint_varint, Option.bind_some, if_pos n.toNat_lt, UInt64.ofNat_toNat]
  varint_ends stream n rest h := by
    obtain ⟨r, hr, h⟩ := Option.bind_eq_some_iff.1 h
    split at h
    · cases h
      exact Wire.readVarint_ends hr
    · cases h

theorem packing_irrelevant_protoNumbers :
    decodeFields (decodeFloatArray protoNumbers)
        [⟨1, .bytes []⟩, ⟨1, .fixed32 5⟩, ⟨1, .bytes [6, 0, 0, 0, 7, 0, 0, 0]⟩] [4] =
      (.ok true, [4, 5, 6, 7]) ∧
      decodeFields (decodeRepeatedEnum protoNumbers)
          ([.packed [-1], .unpacked [2]].flatMap (Piece.fields 1 enumValue)) (some []) =
        (.ok true, some [4294967295, 2]) ∧
      (decodeRepeatedEnum protoNumbers [2, 255] (some [])).1 = .ok false := by
  obtain ⟨hfloat, henum, -, hcut⟩ := packing_irrelevant protoNumbers_followsWireFormat 1
  exact ⟨(hfloat [5, 6, 7] [.packed [], .unpacked [5], .packed [6, 7]] rfl [4]).1,
    (henum [-1, 2] [.packed [-1], .unpacked [2]] rfl []).1,
    hcut [2, 255] (some []) ⟨[2], 255, rfl, by decide⟩⟩

end SensingHub.QshPb
