import SensingHub.QshPb.Errors

/-!
# What attribute events stand for

An `sns_std_attr_event` stands for a list of entries, each an id with its values. `entry` reads one
off the fields that `pb_decode` finds, at all four levels of nesting, without a state: of a member
that is found more than once the last occurrence counts, and the values of a `subtype` are collected
in order. `decodeAttributes_run` says that `decode_attributes` writes the entries in front of the
first one it cannot decode into the map, one after another.
-/

namespace SensingHub.QshPb

open Discovery (DecodeM)

/-! ### The fields by name -/

/-- The value of the field `attr_id`. -/
def AttrField.attrId? : AttrField → Option ℤ
  | .attrId v => some v
  | .value _ => none

/-- Where a value stands. -/
def AttrField.value? : AttrField → Option Span
  | .attrId _ => none
  | .value p => some p

namespace AttrValueField

/-- The field is a `subtype`. -/
def isSubtype : AttrValueField → Bool
  | .subtype => true
  | _ => false

/-- Where a value of the `subtype` stands. -/
def subtypeValue? : AttrValueField → Option Span
  | .subtypeValue p => some p
  | _ => none

/-- Where the field `str` stands. -/
def str? : AttrValueField → Option Span
  | .str p => some p
  | _ => none

/-- The bits of the field `flt`. -/
def flt? : AttrValueField → Option UInt32
  | .flt v => some v
  | _ => none

/-- The value of the field `sint`. -/
def sint? : AttrValueField → Option ℤ
  | .sint v => some v
  | _ => none

/-- The value of the field `boolean`. -/
def boolean? : AttrValueField → Option Bool
  | .boolean v => some v
  | _ => none

end AttrValueField

/-! ### What the messages stand for -/

namespace Nanopb

variable (pb : Nanopb)

/-- The float of a value of a `subtype`, if it is one. -/
def subtypeFlt (stream : PbIstream) : Option UInt32 :=
  (pb.attrValueData stream.bytes).last AttrValueField.flt?

/-- The members of an `sns_std_attr_value_data`. -/
def valueData (stream : PbIstream) : AttrValueData where
  str := ((pb.attrValueData stream.bytes).last AttrValueField.str?).map stream.sub
  flt := (pb.attrValueData stream.bytes).last AttrValueField.flt?
  sint := (pb.attrValueData stream.bytes).last AttrValueField.sint?
  boolean := (pb.attrValueData stream.bytes).last AttrValueField.boolean?
  hasSubtype := (pb.attrValueData stream.bytes).fields.any AttrValueField.isSubtype
  subtype := (pb.attrValueData stream.bytes).fields.filterMap fun f ↦
    f.subtypeValue?.bind fun p ↦ pb.subtypeFlt (stream.sub p)

/-- The streams of the values of an `sns_std_attr`. -/
def valueStreams (stream : PbIstream) : List PbIstream :=
  ((pb.attr stream.bytes).fields.filterMap AttrField.value?).map stream.sub

/-- The `attr_id` of an `sns_std_attr`. -/
def attrId (stream : PbIstream) : ℤ :=
  ((pb.attr stream.bytes).last AttrField.attrId?).getD 0

/-- The id of an `sns_std_attr` and its values. -/
def entry (stream : PbIstream) : ℤ × List Attribute :=
  (pb.attrId stream, (pb.valueStreams stream).map fun s ↦ (pb.valueData s).toAttribute)

/-- The streams of the attributes of an `sns_std_attr_event`. -/
def attrStreams (stream : PbIstream) : List PbIstream :=
  (pb.attrEvent stream.bytes).fields.map stream.sub

/-- The attributes in front of the first one that cannot be decoded. -/
def decodedAttrs (stream : PbIstream) : List PbIstream :=
  (pb.attrStreams stream).takeWhile pb.decodesAttr

end Nanopb

/-! ### Decoding them -/

section

variable {pb : Nanopb} {stream : PbIstream}

/-- A callback that decodes a message of its own and stores it does so if that succeeds, and changes
nothing if it does not. -/
theorem decode_store_run {σ τ φ : Type} (decoding : Bytes → Decoding φ)
    (callback : PbIstream → φ → DecodeM τ Bool) {accepts : φ → Bool} {step : τ → φ → τ}
    (h : ∀ f ∈ (decoding stream.bytes).fields, ∀ t,
      callback stream f t = (.ok (accepts f), if accepts f then step t f else t))
    (t : τ) (store : τ → σ → σ) (s : σ) :
    (do
      let (ok, x) ← Prog.withLocal t (pbDecode decoding callback stream)
      if !ok then return false
      Prog.modify (store x)
      return true : DecodeM σ Bool) s =
      (.ok ((decoding stream.bytes).accepted accepts),
        if (decoding stream.bytes).accepted accepts then
          store ((decoding stream.bytes).fields.foldl step t) s
        else s) := by
  cases hok : (decoding stream.bytes).accepted accepts with
  | true =>
    have hrun : pbDecode decoding callback stream t = _ :=
      Decoding.run_of_accepted (callback stream) hok step h t
    rw [Prog.bind_ok (Prog.withLocal_ok hrun s)]
    rfl
  | false =>
    have hfst : (pbDecode decoding callback stream t).1 = _ :=
      Decoding.run_fst (callback stream) accepts (fun f hf t ↦ congrArg Prod.fst (h f hf t)) t
    rw [hok] at hfst
    rw [Prog.bind_ok (Prog.withLocal_ok (Prod.ext hfst rfl) s)]
    rfl

/-- The float of a value of a `subtype` comes from the last occurrence. -/
theorem foldl_storeFlt (pb : Nanopb) (stream : PbIstream) :
    (pb.attrValueData stream.bytes).fields.foldl (fun flt f ↦ f.flt?.or flt) none =
      pb.subtypeFlt stream := by
  have hlast := Decoding.foldl_last (d := pb.attrValueData stream.bytes) id
    (fun flt f ↦ f.flt?.or flt) AttrValueField.flt? (fun _ _ ↦ rfl) none
  rw [id, id, Option.or_none] at hlast
  exact hlast

theorem decodeAttributeValueSubtype_run (attr : AttrValueData) :
    decodeAttributeValueSubtype pb stream attr =
      (.ok (pb.attrValueData stream.bytes).complete,
        if (pb.attrValueData stream.bytes).complete then
          { attr with subtype := attr.subtype ++ (pb.subtypeFlt stream).toList }
        else attr) := by
  unfold decodeAttributeValueSubtype
  rw [← foldl_storeFlt, ← Decoding.accepted_true]
  refine decode_store_run pb.attrValueData (fun _ ↦ storeFlt) (fun f _ flt ↦ ?_) none
    (fun flt attr ↦ { attr with subtype := attr.subtype ++ flt.toList }) attr
  cases f <;> rfl

/-- A field of an `sns_std_attr_value_data`, where it is accepted. -/
def Nanopb.storeValue (pb : Nanopb) (stream : PbIstream) (attr : AttrValueData) :
    AttrValueField → AttrValueData
  | .subtype => { attr with hasSubtype := true }
  | .subtypeValue p =>
    { attr with subtype := attr.subtype ++ (pb.subtypeFlt (stream.sub p)).toList }
  | .str p => { attr with str := some (stream.sub p) }
  | .flt v => { attr with flt := some v }
  | .sint v => { attr with sint := some v }
  | .boolean v => { attr with boolean := some v }

/-- The members come from the last occurrence of each, the values of the `subtype` from all. -/
theorem foldl_storeValue (pb : Nanopb) (stream : PbIstream) :
    (pb.attrValueData stream.bytes).fields.foldl (pb.storeValue stream)
      ⟨none, none, none, none, false, []⟩ = pb.valueData stream := by
  have hstr := Decoding.foldl_last (d := pb.attrValueData stream.bytes) AttrValueData.str
    (pb.storeValue stream) (fun f ↦ f.str?.map stream.sub) (fun s f ↦ by cases f <;> rfl)
    ⟨none, none, none, none, false, []⟩
  have hflt := Decoding.foldl_last (d := pb.attrValueData stream.bytes) AttrValueData.flt
    (pb.storeValue stream) AttrValueField.flt? (fun s f ↦ by cases f <;> rfl)
    ⟨none, none, none, none, false, []⟩
  have hsint := Decoding.foldl_last (d := pb.attrValueData stream.bytes) AttrValueData.sint
    (pb.storeValue stream) AttrValueField.sint? (fun s f ↦ by cases f <;> rfl)
    ⟨none, none, none, none, false, []⟩
  have hboolean := Decoding.foldl_last (d := pb.attrValueData stream.bytes) AttrValueData.boolean
    (pb.storeValue stream) AttrValueField.boolean? (fun s f ↦ by cases f <;> rfl)
    ⟨none, none, none, none, false, []⟩
  have hhas := Decoding.foldl_any AttrValueData.hasSubtype (pb.storeValue stream)
    AttrValueField.isSubtype
    (fun s f ↦ by cases f <;> simp [Nanopb.storeValue, AttrValueField.isSubtype])
    (pb.attrValueData stream.bytes).fields ⟨none, none, none, none, false, []⟩
  have hsubtype := Decoding.foldl_filterMap AttrValueData.subtype (pb.storeValue stream)
    (fun f ↦ f.subtypeValue?.bind fun p ↦ pb.subtypeFlt (stream.sub p))
    (fun s f ↦ by cases f <;> simp [Nanopb.storeValue, AttrValueField.subtypeValue?])
    (pb.attrValueData stream.bytes).fields ⟨none, none, none, none, false, []⟩
  rw [Decoding.last_map] at hstr
  generalize (pb.attrValueData stream.bytes).fields.foldl (pb.storeValue stream)
    ⟨none, none, none, none, false, []⟩ = t at hstr hflt hsint hboolean hhas hsubtype
  cases t
  simp only [Option.or_none, Bool.false_or, List.nil_append]
    at hstr hflt hsint hboolean hhas hsubtype
  rw [hstr, hflt, hsint, hboolean, hhas, hsubtype]
  rfl

/-- A value is decoded, and appended. -/
theorem decodeAttributeValue_run (attr : Attr) :
    decodeAttributeValue pb stream attr = (.ok (pb.decodesAttrValueData stream),
      if pb.decodesAttrValueData stream then
        { attr with attrVal := attr.attrVal ++ [(pb.valueData stream).toAttribute] }
      else attr) := by
  unfold decodeAttributeValue Nanopb.decodesAttrValueData
  rw [← foldl_storeValue]
  refine decode_store_run pb.attrValueData (storeAttrValue pb) (fun f _ value ↦ ?_)
    ⟨none, none, none, none, false, []⟩
    (fun value attr ↦ { attr with attrVal := attr.attrVal ++ [value.toAttribute] }) attr
  cases f with
  | subtypeValue p => exact decodeAttributeValueSubtype_run value
  | _ => rfl

/-- A field of an `sns_std_attr`, where it is accepted. -/
def Nanopb.storeAttr (pb : Nanopb) (stream : PbIstream) (attr : Attr) : AttrField → Attr
  | .attrId v => { attr with attrId := v }
  | .value p =>
    { attr with attrVal := attr.attrVal ++ [(pb.valueData (stream.sub p)).toAttribute] }

/-- The id comes from its last occurrence, the values from all. -/
theorem foldl_storeAttr (pb : Nanopb) (stream : PbIstream) :
    ((pb.attr stream.bytes).fields.foldl (pb.storeAttr stream) ⟨0, []⟩).attrId = pb.attrId stream ∧
      ((pb.attr stream.bytes).fields.foldl (pb.storeAttr stream) ⟨0, []⟩).attrVal =
        (pb.entry stream).2 := by
  have hid := Decoding.foldl_last (d := pb.attr stream.bytes) (fun attr ↦ some attr.attrId)
    (pb.storeAttr stream) AttrField.attrId? (fun s f ↦ by cases f <;> rfl) ⟨0, []⟩
  have hvalues := Decoding.foldl_filterMap Attr.attrVal (pb.storeAttr stream)
    (fun f ↦ f.value?.map fun p ↦ (pb.valueData (stream.sub p)).toAttribute)
    (fun s f ↦ by cases f <;> simp [Nanopb.storeAttr, AttrField.value?])
    (pb.attr stream.bytes).fields ⟨0, []⟩
  refine ⟨?_, ?_⟩
  · rw [Option.or_some, Option.some_inj] at hid
    exact hid
  · rw [hvalues, List.nil_append, Nanopb.entry, Nanopb.valueStreams, List.map_map,
      ← List.map_filterMap]
    rfl

/-- An attribute is decoded, and its entry assigned. -/
theorem decodeAttribute_run (ctx : SensorAttributes) :
    decodeAttribute pb stream ctx = (.ok (pb.decodesAttr stream),
      if pb.decodesAttr stream then
        { ctx with attributes :=
          ctx.attributes.assign (pb.entry stream).1 (pb.entry stream).2 }
      else ctx) := by
  obtain ⟨hid, hvalues⟩ := foldl_storeAttr pb stream
  unfold decodeAttribute Nanopb.decodesAttr
  rw [← hvalues, show (pb.entry stream).1 = pb.attrId stream from rfl, ← hid]
  refine decode_store_run pb.attr (storeAttr pb) (fun f _ attr ↦ ?_) ⟨0, []⟩
    (fun attr ctx ↦ { ctx with attributes := ctx.attributes.assign attr.attrId attr.attrVal }) ctx
  cases f with
  | attrId v => rfl
  | value p => exact decodeAttributeValue_run attr

/-- The entries of the attributes in front of the first one that cannot be decoded are assigned, in
order. -/
theorem attrEvent_snd (pb : Nanopb) (stream : PbIstream) (ctx : SensorAttributes) :
    (pbDecode pb.attrEvent (fun stream p ↦ decodeAttribute pb (stream.sub p)) stream ctx).2 =
      { ctx with attributes :=
        ctx.attributes.assignAll ((pb.decodedAttrs stream).map pb.entry) } := by
  have hsnd := Decoding.run_snd (d := pb.attrEvent stream.bytes)
    (fun p ↦ decodeAttribute pb (stream.sub p)) (fun p ↦ pb.decodesAttr (stream.sub p))
    (fun ctx p ↦ { ctx with
      attributes := ctx.attributes.assign (pb.entry (stream.sub p)).1
        (pb.entry (stream.sub p)).2 })
    (fun _ _ ctx ↦ decodeAttribute_run ctx) ctx
  have hattrs : ((pb.attrEvent stream.bytes).fields.takeWhile fun p ↦
      pb.decodesAttr (stream.sub p)).map stream.sub = pb.decodedAttrs stream := by
    rw [Nanopb.decodedAttrs, Nanopb.attrStreams, List.takeWhile_map]
    rfl
  rw [pbDecode, hsnd, ← hattrs, List.map_map]
  generalize (pb.attrEvent stream.bytes).fields.takeWhile (fun p ↦ pb.decodesAttr (stream.sub p)) =
    ps
  clear hsnd hattrs
  induction ps generalizing ctx with
  | nil => rfl
  | cons p ps ih =>
    rw [List.foldl_cons, ih]
    rfl

/-- The stream holds an `sns_client_event` with the id `id`, and its payload stands there. -/
structure Nanopb.HoldsEvent (pb : Nanopb) (id : UInt32) (stream payload : PbIstream) : Prop where
  complete : (pb.clientEvent stream.bytes).complete = true
  msgId : pb.HasMsgId id stream
  payload : ((pb.clientEvent stream.bytes).last ClientEventField.payload?).map stream.sub =
    some payload

/-- The stream holds an `sns_client_event` with an attribute event as its payload. -/
abbrev Nanopb.IsAttrRecord (pb : Nanopb) : PbIstream → PbIstream → Prop :=
  pb.HoldsEvent SNS_STD_MSGID_SNS_STD_ATTR_EVENT

/-- **What `decode_attributes` makes of a record with its id.** -/
theorem decodeAttributes_run {ctx : SensorAttributes} {payload : PbIstream}
    (h : pb.IsAttrRecord ctx.stream payload) :
    decodeAttributes pb ctx = (.ok (pb.decodesAttrEvent payload),
      ⟨ctx.stream.atEnd,
        ctx.attributes.assignAll ((pb.decodedAttrs payload).map pb.entry)⟩) := by
  have hmsgId := getMsgId_run pb ctx.stream ctx
  have hevent := clientEvent_run h.complete h.msgId h.payload
  have hattrs : pbDecode pb.attrEvent (fun stream p ↦ decodeAttribute pb (stream.sub p)) payload
      ⟨ctx.stream.atEnd, ctx.attributes⟩ = (.ok (pb.decodesAttrEvent payload), _) :=
    Prod.ext (attrEvent_fst pb payload _) (attrEvent_snd pb payload _)
  rw [decodeAttributes, Prog.read_bind_run, Prog.bind_ok hmsgId,
    if_neg (not_not.2 ((getMsgId_eq_iff (by decide) hmsgId).2 ⟨h.complete, h.msgId⟩)),
    Prog.bind_ok (Prog.withLocal_ok hevent _)]
  dsimp only
  rw [if_neg (by decide), Prog.modify_bind_run, Option.getD_some, Prog.bind_ok hattrs]
  cases pb.decodesAttrEvent payload <;> rfl

/-- All attributes of an event that can be decoded are. -/
theorem decodedAttrs_of_decodes (h : pb.decodesAttrEvent stream = true) :
    pb.decodedAttrs stream = pb.attrStreams stream := by
  have hall := List.all_eq_true.1 (Bool.and_eq_true_iff.1 h).1
  rw [Nanopb.decodedAttrs, List.takeWhile_eq_self_iff]
  intro s hs
  obtain ⟨p, hp, rfl⟩ := List.mem_map.1 hs
  exact hall p hp

end

end SensingHub.QshPb
