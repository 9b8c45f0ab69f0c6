import Mathlib.Data.List.Nodup
import SensingHub.QshPb.WireFormat

/-!
# Attribute events come back as they were sent

An attribute event with distinct ids, each with a list of values, is encoded, wrapped in an
`sns_client_event` and given to `decode_attributes`: the map then holds just those ids, and for each
its values in order. The argument follows the nesting. At each level the streams that nanopb hands
to the callbacks hold the encodings of the parts (`map_bytes_sub`), so a fact about one part that
depends on its bytes alone carries over to the list of them (`map_eq_map_of_bytes`).
-/

namespace SensingHub.QshPb

open Wire (Placed)

/-! ### Events to send -/

/-- A string that is not empty and has no NUL in it. -/
structure Text where
  bytes : Bytes
  ne_nil : bytes ≠ []
  nul_free : 0 ∉ bytes

/-- A value of an attribute. A string may be sent with a NUL behind it. -/
inductive AttrValue
  | subtype (flts : List UInt32)
  | str (text : Text) (terminated : Bool)
  | flt (v : UInt32)
  | sint (v : Int64)
  | boolean (v : Bool)

namespace AttrValue

/-- `sns_std_attr_value_data` -/
def bytes : AttrValue → Bytes
  | subtype flts =>
    memberBytes 1 (.bytes (repeatedBytes (flts.map fun v ↦ memberBytes 3 (.fixed32 v))))
  | str text terminated => memberBytes 2 (.bytes (text.bytes ++ if terminated then [0] else []))
  | flt v => memberBytes 3 (.fixed32 v)
  | sint v => memberBytes 4 (.fixed64 v.toUInt64)
  | boolean v => memberBytes 5 (.varint v.toNat)

/-- What the value is to be decoded to. -/
def toAttribute : AttrValue → Attribute
  | subtype flts => { Attribute.zero with hasSubtype := true, subtype := flts }
  | str text _ => { Attribute.zero with hasStr := true, str := text.bytes }
  | flt v => { Attribute.zero with hasFlt := true, flt := v }
  | sint v => { Attribute.zero with hasSint := true, sint := v.toInt }
  | boolean v => { Attribute.zero with hasBoolean := true, boolean := v }

end AttrValue

/-- `sns_std_attr_event` -/
def attrEventBytes (attributes : List (Int32 × List AttrValue)) : Bytes :=
  repeatedBytes (attributes.map fun a ↦ attrBytes a.1 (a.2.map AttrValue.bytes))

/-! ### Streams of the parts -/

/-- What stands at the end of a stream. -/
theorem bytes_sub_of_suffix {stream : PbIstream} {pre b : Bytes} (h : stream.bytes = pre ++ b) :
    (stream.sub ⟨stream.bytes.length - b.length, b.length⟩).bytes = b := by
  have hlen : stream.bytes.length = pre.length + b.length := by
    rw [h, List.length_append]
  have hpre : stream.bytes.length - b.length = pre.length := by omega
  have hle : pre.length + b.length ≤ stream.bytes.length := Nat.le_of_eq hlen.symm
  rw [hpre, bytes_sub hle, Span.of, h, List.drop_left' rfl, List.take_length]

/-- The contents of a member end the message. -/
theorem exists_prefix_memberBytes (number : ℕ) (b : Bytes) :
    ∃ pre, memberBytes number (.bytes b) = pre ++ b := by
  refine ⟨Wire.varint (8 * number + 2) ++ Wire.varint b.length, ?_⟩
  show Wire.varint (8 * number + 2) ++ (Wire.varint b.length ++ b) ++ [] = _
  rw [List.append_nil, List.append_assoc]

/-- The values end an attribute. -/
theorem exists_prefix_attrBytes (attrId : Int32) (values : List Bytes) :
    ∃ pre, attrBytes attrId values = pre ++ repeatedBytes values := by
  obtain ⟨pre, hpre⟩ := exists_prefix_memberBytes 2 (repeatedBytes values)
  refine ⟨Wire.encode [⟨1, .varint (int32Varint attrId)⟩] ++ pre, ?_⟩
  rw [List.append_assoc, ← hpre, memberBytes, ← Wire.encode_append]
  rfl

/-- The payload ends an event. -/
theorem exists_prefix_clientEventBytes (msgId : UInt32) (timestamp : UInt64) (payload : Bytes) :
    ∃ pre, clientEventBytes msgId timestamp payload = pre ++ payload := by
  obtain ⟨pre, hpre⟩ := exists_prefix_memberBytes 3 payload
  refine ⟨Wire.encode [⟨1, .fixed32 msgId⟩, ⟨2, .fixed64 timestamp⟩] ++ pre, ?_⟩
  rw [List.append_assoc, ← hpre, memberBytes, ← Wire.encode_append]
  rfl

/-- The streams of the parts of a message that stands at the end of a stream. -/
theorem map_bytes_sub {stream : PbIstream} {pre : Bytes} {bs : List Bytes}
    (h : stream.bytes = pre ++ repeatedBytes bs) :
    ((repeatedSpans (stream.bytes.length - (repeatedBytes bs).length) bs).map stream.sub).map
      PbIstream.bytes = bs := by
  have hpre : stream.bytes.length - (repeatedBytes bs).length = pre.length := by
    rw [h, List.length_append]
    omega
  -- every part lies where its span says, behind what stands in front of the message
  have hcontent : ∀ x ∈ Wire.layout 0 (bs.map fun b ↦ ⟨1, .bytes b⟩),
      (stream.sub (spanAt pre.length x)).bytes = x.field.value.content := by
    intro x hx
    obtain ⟨lead, post, hbytes, hoffset⟩ := Wire.exists_of_mem_layout hx
    have hstream : stream.bytes = pre ++ lead ++ (x.field.value.content ++ post) := by
      rw [h, repeatedBytes, hbytes]
      simp only [List.append_assoc]
    have hplace : pre.length + x.offset = (pre ++ lead).length := by
      rw [hoffset, List.length_append]
      omega
    have hle : (spanAt pre.length x).offset + (spanAt pre.length x).length ≤
        stream.bytes.length := by
      show pre.length + x.offset + x.field.value.content.length ≤ _
      rw [hplace, hstream]
      simp only [List.length_append]
      omega
    rw [bytes_sub hle, Span.of]
    show (stream.bytes.drop (pre.length + x.offset)).take x.field.value.content.length = _
    rw [hplace, hstream, List.drop_left' rfl, List.take_left' rfl]
  rw [hpre, repeatedSpans, List.map_map, List.map_map]
  calc (Wire.layout 0 (bs.map fun b ↦ ⟨1, .bytes b⟩)).map
        (PbIstream.bytes ∘ stream.sub ∘ spanAt pre.length)
      = (Wire.layout 0 (bs.map fun b ↦ ⟨1, .bytes b⟩)).map (fun x ↦ x.field.value.content) :=
        List.map_congr_left hcontent
    _ = ((Wire.layout 0 (bs.map fun b ↦ ⟨1, .bytes b⟩)).map Placed.field).map
          (fun f ↦ f.value.content) := by
        rw [List.map_map]
        rfl
    _ = bs := by
        rw [Wire.map_field_layout, List.map_map]
        exact List.map_id bs

/-- A stream of a part holds the encoding of one. -/
theorem exists_part_of_mem {α : Type*} {streams : List PbIstream} {parts : List α}
    {encode : α → Bytes} (h : streams.map PbIstream.bytes = parts.map encode) {s : PbIstream}
    (hs : s ∈ streams) : ∃ a, s.bytes = encode a := by
  have hmem := List.mem_map_of_mem (f := PbIstream.bytes) hs
  rw [h] at hmem
  obtain ⟨a, -, ha⟩ := List.mem_map.1 hmem
  exact ⟨a, ha.symm⟩

/-- Lists whose members correspond, carried over to what is made of the members. -/
theorem map_eq_map_of_bytes {α β : Type*} {streams : List PbIstream} {parts : List α}
    {encode : α → Bytes} (h : streams.map PbIstream.bytes = parts.map encode)
    {f : PbIstream → β} {g : α → β} (hpart : ∀ s a, s.bytes = encode a → f s = g a) :
    streams.map f = parts.map g := by
  induction streams generalizing parts with
  | nil =>
    cases parts with
    | nil => rfl
    | cons a parts => cases h
  | cons s streams ih =>
    cases parts with
    | nil => cases h
    | cons a parts =>
      rw [List.map_cons, List.map_cons, List.cons.injEq] at h
      rw [List.map_cons, List.map_cons, hpart s a h.1, ih h.2]

theorem filterMap_of_map_some {α β : Type*} {as : List α} {bs : List β} {f : α → Option β}
    (h : as.map f = bs.map some) : as.filterMap f = bs := by
  calc as.filterMap f = (as.map f).filterMap id := by
        rw [List.filterMap_map]
        rfl
    _ = bs := by
      rw [h, List.filterMap_map]
      exact List.filterMap_some

/-! ### Values -/

section

variable {pb : Nanopb} {stream : PbIstream}

theorem valueData_str {p : Span} (h : pb.attrValueData stream.bytes = ⟨[.str p], true⟩) :
    pb.valueData stream = ⟨some (stream.sub p), none, none, none, false, []⟩ := by
  rw [Nanopb.valueData, h]
  rfl

theorem valueData_subtype {ps : List Span}
    (h : pb.attrValueData stream.bytes = ⟨.subtype :: ps.map .subtypeValue, true⟩) :
    pb.valueData stream =
      ⟨none, none, none, none, true, (ps.map stream.sub).filterMap pb.subtypeFlt⟩ := by
  have hnone : ∀ {α : Type} (f : AttrValueField → Option α), f .subtype = none →
      (∀ p, f (.subtypeValue p) = none) →
      (⟨.subtype :: ps.map .subtypeValue, true⟩ : Decoding AttrValueField).last f = none := by
    intro α f hsubtype hvalue
    refine Decoding.last_eq_none fun x hx ↦ ?_
    rcases List.mem_cons.1 hx with rfl | hx
    · exact hsubtype
    · obtain ⟨p, -, rfl⟩ := List.mem_map.1 hx
      exact hvalue p
  rw [Nanopb.valueData, h, hnone _ rfl fun _ ↦ rfl, hnone _ rfl fun _ ↦ rfl,
    hnone _ rfl fun _ ↦ rfl, hnone _ rfl fun _ ↦ rfl, List.filterMap_cons_none rfl,
    List.filterMap_map, List.filterMap_map]
  rfl

theorem decodesAttrValueData_subtype {ps : List Span}
    (h : pb.attrValueData stream.bytes = ⟨.subtype :: ps.map .subtypeValue, true⟩)
    (hvalues : ∀ p ∈ ps, (pb.attrValueData (stream.sub p).bytes).complete = true) :
    pb.decodesAttrValueData stream = true := by
  rw [Nanopb.decodesAttrValueData, h, Decoding.accepted, Bool.and_true, List.all_cons,
    Bool.true_and, List.all_eq_true]
  intro f hf
  obtain ⟨p, hp, rfl⟩ := List.mem_map.1 hf
  exact hvalues p hp

/-- The string of a value: what stands before a NUL, if the field is not empty. -/
theorem toAttribute_str {buf : PbIstream} (h : buf.bytes ≠ []) :
    (⟨some buf, none, none, none, false, []⟩ : AttrValueData).toAttribute =
      { Attribute.zero with hasStr := true, str := buf.bytes.takeWhile (· ≠ 0) } := by
  rw [AttrValueData.toAttribute]
  exact if_pos h

theorem Text.takeWhile (text : Text) (terminated : Bool) :
    (text.bytes ++ if terminated then [0] else []).takeWhile (· ≠ 0) = text.bytes := by
  have hfree : ∀ b ∈ text.bytes, decide (b ≠ 0) = true := fun b hb ↦
    decide_eq_true fun hzero ↦ text.nul_free (hzero ▸ hb)
  rw [List.takeWhile_append_of_pos hfree]
  cases terminated <;> exact List.append_nil _

end

/-! ### Decoding the parts -/

section

variable {pb : Nanopb} (hpb : pb.FollowsWireFormat) {stream : PbIstream}
include hpb

/-- A float of a `subtype`. -/
theorem subtypeFlt_of_bytes {v : UInt32} (h : stream.bytes = memberBytes 3 (.fixed32 v)) :
    (pb.attrValueData stream.bytes).complete = true ∧ pb.subtypeFlt stream = some v := by
  rw [Nanopb.subtypeFlt, h, hpb.flt]
  exact ⟨rfl, rfl⟩

/-- A value. -/
theorem valueData_of_bytes {v : AttrValue} (h : stream.bytes = v.bytes) :
    pb.decodesAttrValueData stream = true ∧ (pb.valueData stream).toAttribute = v.toAttribute := by
  cases v with
  | subtype flts =>
    have hfound := hpb.subtype (flts.map fun v ↦ memberBytes 3 (.fixed32 v))
    obtain ⟨pre, hpre⟩ := exists_prefix_memberBytes 1
      (repeatedBytes (flts.map fun v ↦ memberBytes 3 (.fixed32 v)))
    have hstreams := map_bytes_sub (h.trans hpre)
    have hflts := map_eq_map_of_bytes hstreams (f := pb.subtypeFlt) (g := some)
      fun s v hs ↦ (subtypeFlt_of_bytes hpb hs).2
    rw [← show stream.bytes = memberBytes 1 _ from h] at hfound
    refine ⟨decodesAttrValueData_subtype hfound fun p hp ↦ ?_, ?_⟩
    · obtain ⟨v, hv⟩ := exists_part_of_mem hstreams (List.mem_map_of_mem hp)
      exact (subtypeFlt_of_bytes hpb hv).1
    · rw [valueData_subtype hfound, filterMap_of_map_some hflts]
      rfl
  | str text terminated =>
    have hfound := hpb.str (text.bytes ++ if terminated then [0] else [])
    obtain ⟨pre, hpre⟩ := exists_prefix_memberBytes 2
      (text.bytes ++ if terminated then [0] else [])
    have hbytes := bytes_sub_of_suffix (h.trans hpre)
    have hne : text.bytes ++ (if terminated then [0] else []) ≠ [] :=
      fun hnil ↦ text.ne_nil (List.append_eq_nil_iff.1 hnil).1
    rw [← show stream.bytes = memberBytes 2 _ from h] at hfound
    refine ⟨by rw [Nanopb.decodesAttrValueData, hfound]; rfl, ?_⟩
    rw [valueData_str hfound, toAttribute_str (by rw [hbytes]; exact hne), hbytes, text.takeWhile]
    rfl
  | flt v =>
    have hfound := hpb.flt v
    rw [Nanopb.decodesAttrValueData, Nanopb.valueData, h, AttrValue.bytes, hfound]
    exact ⟨rfl, rfl⟩
  | sint v =>
    have hfound := hpb.sint v
    rw [Nanopb.decodesAttrValueData, Nanopb.valueData, h, AttrValue.bytes, hfound]
    exact ⟨rfl, rfl⟩
  | boolean v =>
    have hfound := hpb.boolean v
    rw [Nanopb.decodesAttrValueData, Nanopb.valueData, h, AttrValue.bytes, hfound]
    exact ⟨rfl, rfl⟩

/-- An attribute. -/
theorem entry_of_bytes {attrId : Int32} {values : List AttrValue}
    (h : stream.bytes = attrBytes attrId (values.map AttrValue.bytes)) :
    pb.decodesAttr stream = true ∧
      pb.entry stream = (attrId.toInt, values.map AttrValue.toAttribute) := by
  have hfound := hpb.attr attrId (values.map AttrValue.bytes)
  obtain ⟨pre, hpre⟩ := exists_prefix_attrBytes attrId (values.map AttrValue.bytes)
  have hstreams := map_bytes_sub (h.trans hpre)
  have hvalues := map_eq_map_of_bytes hstreams (f := fun s ↦ (pb.valueData s).toAttribute)
    (g := AttrValue.toAttribute) fun s v hs ↦ (valueData_of_bytes hpb hs).2
  rw [← h] at hfound
  generalize repeatedSpans _ _ = ps at hfound hstreams hvalues
  refine ⟨?_, ?_⟩
  · rw [Nanopb.decodesAttr, hfound, Decoding.accepted, Bool.and_true, List.all_cons, Bool.true_and,
      List.all_eq_true]
    intro f hf
    obtain ⟨p, hp, rfl⟩ := List.mem_map.1 hf
    obtain ⟨v, hv⟩ := exists_part_of_mem hstreams (List.mem_map_of_mem hp)
    exact (valueData_of_bytes hpb hv).1
  · have hid : pb.attrId stream = attrId.toInt := by
      have hnone : (ps.map AttrField.value).filterMap AttrField.attrId? = [] := by
        rw [List.filterMap_map]
        exact List.filterMap_eq_nil_iff.2 fun _ _ ↦ rfl
      have hfirst : AttrField.attrId? (.attrId attrId.toInt) = some attrId.toInt := rfl
      rw [Nanopb.attrId, hfound, Decoding.last, List.filterMap_cons_some hfirst, hnone]
      rfl
    have hps : pb.valueStreams stream = ps.map stream.sub := by
      rw [Nanopb.valueStreams, hfound, List.filterMap_cons_none rfl, List.filterMap_map]
      exact congrArg (List.map stream.sub) List.filterMap_some
    rw [Nanopb.entry, hid, hps, hvalues]

/-- An event. -/
theorem attrEvent_of_bytes {attributes : List (Int32 × List AttrValue)}
    (h : stream.bytes = attrEventBytes attributes) :
    pb.decodesAttrEvent stream = true ∧ (pb.decodedAttrs stream).map pb.entry =
      attributes.map fun a ↦ (a.1.toInt, a.2.map AttrValue.toAttribute) := by
  have hfound := hpb.attrEvent (attributes.map fun a ↦ attrBytes a.1 (a.2.map AttrValue.bytes))
  have hstreams := @map_bytes_sub stream [] _ h
  rw [h, attrEventBytes, Nat.sub_self] at hstreams
  rw [← show stream.bytes = repeatedBytes _ from h] at hfound
  have hdecodes : ∀ s ∈ pb.attrStreams stream, pb.decodesAttr s = true := by
    intro s hs
    rw [Nanopb.attrStreams, hfound] at hs
    obtain ⟨a, ha⟩ := exists_part_of_mem hstreams hs
    exact (entry_of_bytes hpb ha).1
  have hentries := map_eq_map_of_bytes hstreams (f := pb.entry)
    (g := fun a ↦ (a.1.toInt, a.2.map AttrValue.toAttribute)) fun s a hs ↦ (entry_of_bytes hpb hs).2
  refine ⟨?_, ?_⟩
  · rw [Nanopb.decodesAttrEvent, Decoding.accepted, hfound, Bool.and_true, List.all_eq_true]
    intro p hp
    refine hdecodes _ ?_
    rw [Nanopb.attrStreams, hfound]
    exact List.mem_map_of_mem hp
  · rw [Nanopb.decodedAttrs, List.takeWhile_eq_self_iff.2 hdecodes, Nanopb.attrStreams, hfound]
    exact hentries

/-- The event in its record: what `decode_attributes` makes of it. -/
theorem decodeAttributes_of_bytes {attributes : List (Int32 × List AttrValue)} {timestamp : UInt64}
    (h : stream.bytes = clientEventBytes SNS_STD_MSGID_SNS_STD_ATTR_EVENT timestamp
      (attrEventBytes attributes)) (t : Table ℤ (List Attribute)) :
    decodeAttributes pb ⟨stream, t⟩ = (.ok true, ⟨stream.atEnd, t.assignAll
      (attributes.map fun a ↦ (a.1.toInt, a.2.map AttrValue.toAttribute))⟩) := by
  have hfound := hpb.clientEvent SNS_STD_MSGID_SNS_STD_ATTR_EVENT timestamp
    (attrEventBytes attributes)
  obtain ⟨pre, hpre⟩ := exists_prefix_clientEventBytes SNS_STD_MSGID_SNS_STD_ATTR_EVENT timestamp
    (attrEventBytes attributes)
  have hpayload := bytes_sub_of_suffix (h.trans hpre)
  obtain ⟨hdecodes, hentries⟩ := attrEvent_of_bytes hpb hpayload
  rw [← h] at hfound
  have hrecord : pb.IsAttrRecord stream (stream.sub ⟨stream.bytes.length -
      (attrEventBytes attributes).length, (attrEventBytes attributes).length⟩) :=
    ⟨congrArg Decoding.complete hfound,
      congrArg (Decoding.last · ClientEventField.msgId?) hfound,
      congrArg (fun d ↦ (Decoding.last d ClientEventField.payload?).map stream.sub) hfound⟩
  rw [@decodeAttributes_run pb ⟨stream, t⟩ _ hrecord, hdecodes, hentries]

end

/-- **Attribute events come back as they were sent.** A record with an attribute event whose ids are
distinct is accepted, and the map then holds just these ids, each with its values in order. -/
theorem attributes_roundTrip {pb : Nanopb} (hpb : pb.FollowsWireFormat)
    (attributes : List (Int32 × List AttrValue)) (hdistinct : (attributes.map Prod.fst).Nodup)
    (timestamp : UInt64) {stream : PbIstream}
    (hstream : stream.bytes = clientEventBytes SNS_STD_MSGID_SNS_STD_ATTR_EVENT timestamp
      (attrEventBytes attributes)) :
    ∃ ctx, decodeAttributes pb ⟨stream, Table.empty⟩ = (.ok true, ctx) ∧
      (∀ a ∈ attributes, ctx.attributes a.1.toInt = some (a.2.map AttrValue.toAttribute)) ∧
      ∀ id, (∀ a ∈ attributes, a.1.toInt ≠ id) → ctx.attributes id = none := by
  refine ⟨_, decodeAttributes_of_bytes hpb hstream Table.empty, fun a ha ↦ ?_, fun id hid ↦ ?_⟩
  · show Table.assignAll _ _ _ = _
    rw [Table.assignAll_apply, Table.empty_apply, Option.or_none]
    refine Table.firstFor_eq_some_of_mem ?_ ?_
    · rw [List.map_reverse, List.nodup_reverse, List.map_map]
      have hids : ((attributes.map Prod.fst).map Int32.toInt).Nodup :=
        hdistinct.map fun _ _ h ↦ Int32.toInt_inj.1 h
      rwa [List.map_map] at hids
    · exact List.mem_reverse.2 (List.mem_map_of_mem ha)
  · show Table.assignAll _ _ _ = _
    rw [Table.assignAll_apply, Table.empty_apply, Option.or_none]
    refine Table.firstFor_eq_none fun e he ↦ ?_
    obtain ⟨a, ha, rfl⟩ := List.mem_map.1 (List.mem_reverse.1 he)
    exact hid a ha

theorem bytes_ofBytes (b : Bytes) : (PbIstream.ofBytes b).bytes = b :=
  List.take_length

/-- A sensor with a name, a rate, and a range; the id of the last attribute is negative. -/
def accelAttributes : List (Int32 × List AttrValue) :=
  [(0, [.str ⟨CLib.str "lsm6", by decide, by decide⟩ true]), (6, [.flt 1137180672, .sint (-7)]),
    (-1, [.subtype [3238002688, 1090519040], .boolean true])]

theorem attributes_roundTrip_accelAttributes :
    ∃ ctx, decodeAttributes proto ⟨.ofBytes (clientEventBytes SNS_STD_MSGID_SNS_STD_ATTR_EVENT 7
        (attrEventBytes accelAttributes)), Table.empty⟩ = (.ok true, ctx) ∧
      ctx.attributes (-1) = some [
        { Attribute.zero with hasSubtype := true, subtype := [3238002688, 1090519040] },
        { Attribute.zero with hasBoolean := true, boolean := true }] ∧
      ctx.attributes 0 = some [{ Attribute.zero with hasStr := true, str := CLib.str "lsm6" }] ∧
      ctx.attributes 1 = none := by
  obtain ⟨ctx, hrun, hthere, hnone⟩ := attributes_roundTrip proto_followsWireFormat accelAttributes
    (by decide) 7 (bytes_ofBytes _)
  refine ⟨ctx, hrun, ?_, ?_, ?_⟩
  · exact hthere (-1, [.subtype [3238002688, 1090519040], .boolean true])
      (List.mem_cons_of_mem _ (List.mem_cons_of_mem _ (List.mem_singleton_self _)))
  · exact hthere (0, [.str ⟨CLib.str "lsm6", by decide, by decide⟩ true]) (List.mem_cons_self ..)
  · exact hnone 1 (by decide)

end SensingHub.QshPb
