import SensingHub.QshPb.Agreement

/-!
# What the decoders report

`decode_suids` and `decode_attributes` are to return true on success and false on a decode error.
Both first decode the record for its `msg_id` alone, with 0 where that fails, and return true
without having read anything if it is not the id they wait for. So a record that cannot be decoded
counts as one with another id, and it is reported for none but the records with the expected id
whether they can be decoded.
-/

namespace SensingHub.QshPb

open Discovery (DecodeM Undefined SNS_SUID_MSGID_SNS_SUID_EVENT)

/-! ### What can be decoded -/

/-- The stream holds an `sns_suid_event`. -/
def Nanopb.decodesSuidEvent (pb : Nanopb) (stream : PbIstream) : Bool :=
  (pb.suidEvent stream.bytes).accepted fun
    | .dataType _ => true
    | .suid p => (pb.stdSuid (stream.sub p).bytes).complete

/-- The stream holds an `sns_std_attr_value_data`; of the values of its `subtype` nothing is looked
at that is nested any deeper. -/
def Nanopb.decodesAttrValueData (pb : Nanopb) (stream : PbIstream) : Bool :=
  (pb.attrValueData stream.bytes).accepted fun
    | .subtypeValue p => (pb.attrValueData (stream.sub p).bytes).complete
    | _ => true

/-- The stream holds an `sns_std_attr`. -/
def Nanopb.decodesAttr (pb : Nanopb) (stream : PbIstream) : Bool :=
  (pb.attr stream.bytes).accepted fun
    | .attrId _ => true
    | .value p => pb.decodesAttrValueData (stream.sub p)

/-- The stream holds an `sns_std_attr_event`. -/
def Nanopb.decodesAttrEvent (pb : Nanopb) (stream : PbIstream) : Bool :=
  (pb.attrEvent stream.bytes).accepted fun p ↦ pb.decodesAttr (stream.sub p)

/-- The record has the id `id`. -/
def Nanopb.HasMsgId (pb : Nanopb) (id : UInt32) (stream : PbIstream) : Prop :=
  (pb.clientEvent stream.bytes).last ClientEventField.msgId? = some id

/-- The stream holds an `sns_client_event`, its payload being what `decodes` says if it has the id
`id`. -/
structure Nanopb.IsRecord (pb : Nanopb) (id : UInt32) (decodes : PbIstream → Bool)
    (stream : PbIstream) : Prop where
  complete : (pb.clientEvent stream.bytes).complete = true
  payload : pb.HasMsgId id stream → ∃ payload,
    ((pb.clientEvent stream.bytes).last ClientEventField.payload?).map stream.sub = some payload ∧
      decodes payload = true

/-- True is returned for a record, which is then consumed, and false for everything else. -/
def Reports (isRecord : Prop) (ret : Except Undefined Bool) (rest : PbIstream) : Prop :=
  ret = .ok true ∧ isRecord ∧ rest.bytesLeft = 0 ∨ ret = .ok false ∧ ¬ isRecord

/-! ### What the callbacks return -/

section

variable {pb : Nanopb} {stream : PbIstream}

/-- A callback that decodes a message of its own and stores it returns whether that succeeds. -/
theorem decode_store_fst {σ τ φ : Type} (decoding : Bytes → Decoding φ)
    (callback : PbIstream → φ → DecodeM τ Bool) (accepts : φ → Bool)
    (h : ∀ f ∈ (decoding stream.bytes).fields, ∀ t, (callback stream f t).1 = .ok (accepts f))
    (t : τ) (store : τ → σ → σ) (s : σ) :
    ((do
      let (ok, x) ← Prog.withLocal t (pbDecode decoding callback stream)
      if !ok then return false
      Prog.modify (store x)
      return true : DecodeM σ Bool) s).1 = .ok ((decoding stream.bytes).accepted accepts) := by
  have hfst : (pbDecode decoding callback stream t).1 = _ :=
    Decoding.run_fst (callback stream) accepts h t
  rw [Prog.bind_ok (Prog.withLocal_ok (Prod.ext hfst rfl) s)]
  cases (decoding stream.bytes).accepted accepts <;> rfl

theorem decodeSuid_fst (event : SuidEvent) :
    (decodeSuid pb stream event).1 = .ok (pb.stdSuid stream.bytes).complete := by
  unfold decodeSuid
  rw [← Decoding.accepted_true]
  exact decode_store_fst pb.stdSuid (fun _ ↦ Discovery.storeStdSuid) (fun _ ↦ true)
    (fun f _ uid ↦ by cases f <;> rfl) ⟨0, 0⟩
    (fun uid event ↦ { event with suidVector := event.suidVector ++ [uid] }) event

theorem suidEvent_fst (pb : Nanopb) (stream : PbIstream) (event : SuidEvent) :
    (pbDecode pb.suidEvent (storeSuidEvent pb) stream event).1 =
      .ok (pb.decodesSuidEvent stream) := by
  refine Decoding.run_fst _ _ (fun f _ event ↦ ?_) event
  cases f with
  | dataType p => rfl
  | suid p => exact decodeSuid_fst event

theorem decodeAttributeValueSubtype_fst (attr : AttrValueData) :
    (decodeAttributeValueSubtype pb stream attr).1 =
      .ok (pb.attrValueData stream.bytes).complete := by
  unfold decodeAttributeValueSubtype
  rw [← Decoding.accepted_true]
  exact decode_store_fst pb.attrValueData (fun _ ↦ storeFlt) (fun _ ↦ true)
    (fun f _ flt ↦ by cases f <;> rfl) none
    (fun flt attr ↦ { attr with subtype := attr.subtype ++ flt.toList }) attr

theorem decodeAttributeValue_fst (attr : Attr) :
    (decodeAttributeValue pb stream attr).1 = .ok (pb.decodesAttrValueData stream) := by
  unfold decodeAttributeValue
  refine decode_store_fst pb.attrValueData (storeAttrValue pb) _ (fun f _ value ↦ ?_)
    ⟨none, none, none, none, false, []⟩
    (fun value attr ↦ { attr with attrVal := attr.attrVal ++ [value.toAttribute] }) attr
  cases f with
  | subtypeValue p => exact decodeAttributeValueSubtype_fst value
  | _ => rfl

theorem decodeAttribute_fst (attributes : SensorAttributes) :
    (decodeAttribute pb stream attributes).1 = .ok (pb.decodesAttr stream) := by
  unfold decodeAttribute
  refine decode_store_fst pb.attr (storeAttr pb) _ (fun f _ attr ↦ ?_) ⟨0, []⟩ (fun attr ctx ↦
    { ctx with attributes := ctx.attributes.assign attr.attrId attr.attrVal }) attributes
  cases f with
  | attrId v => rfl
  | value p => exact decodeAttributeValue_fst attr

theorem attrEvent_fst (pb : Nanopb) (stream : PbIstream) (attributes : SensorAttributes) :
    (pbDecode pb.attrEvent (fun stream p ↦ decodeAttribute pb (stream.sub p)) stream attributes).1 =
      .ok (pb.decodesAttrEvent stream) :=
  Decoding.run_fst (fun p ↦ decodeAttribute pb (stream.sub p))
    (fun p ↦ pb.decodesAttr (stream.sub p)) (fun _ _ attributes ↦ decodeAttribute_fst attributes)
    attributes

/-! ### What the decoders return -/

/-- A record is not empty. -/
theorem bytesLeft_ne_of_complete (h : (pb.clientEvent stream.bytes).complete = true) :
    stream.bytesLeft ≠ 0 := by
  intro hzero
  obtain ⟨p, hp⟩ := pb.payload_required _ h
  rw [PbIstream.bytes, hzero, List.take_zero, Decoding.last, pb.clientEvent_nil] at hp
  cases hp

/-- `get_msg_id` returns an id other than 0 exactly for the records with it. -/
theorem getMsgId_eq_iff {σ : Type} {id msgId : UInt32} {s : σ} (hid : id ≠ 0)
    (h : getMsgId pb stream s = (.ok msgId, s)) :
    msgId = id ↔ (pb.clientEvent stream.bytes).complete = true ∧ pb.HasMsgId id stream := by
  rw [getMsgId_run] at h
  obtain rfl := Except.ok.inj (congrArg Prod.fst h)
  unfold Nanopb.HasMsgId
  cases (pb.clientEvent stream.bytes).complete with
  | false => simp [hid.symm]
  | true =>
    rw [if_pos rfl]
    cases (pb.clientEvent stream.bytes).last ClientEventField.msgId? with
    | none => simp [hid.symm]
    | some v => simp

/-- `decode_suids` on a record with another id, or on what is no record at all. -/
theorem decodeSuids_of_not {ctx : SuidList}
    (h : ¬ ((pb.clientEvent ctx.stream.bytes).complete = true ∧
      pb.HasMsgId SNS_SUID_MSGID_SNS_SUID_EVENT ctx.stream)) :
    decodeSuids pb ctx = (.ok true, ctx) := by
  have hid := getMsgId_run pb ctx.stream ctx
  rw [decodeSuids, Prog.read_bind_run, Prog.bind_ok hid,
    if_pos (mt (getMsgId_eq_iff (by decide) hid).1 h)]
  rfl

/-- `decode_suids` on a record with its id. -/
theorem decodeSuids_of_hasMsgId {ctx : SuidList}
    (hcomplete : (pb.clientEvent ctx.stream.bytes).complete = true)
    (hid : pb.HasMsgId SNS_SUID_MSGID_SNS_SUID_EVENT ctx.stream) {payload : PbIstream}
    (hpayload : ((pb.clientEvent ctx.stream.bytes).last ClientEventField.payload?).map
      ctx.stream.sub = some payload) :
    (decodeSuids pb ctx).1 = .ok (pb.decodesSuidEvent payload) ∧
      (decodeSuids pb ctx).2.stream = ctx.stream.atEnd := by
  have hmsgId := getMsgId_run pb ctx.stream ctx
  have hevent := clientEvent_run hcomplete hid hpayload
  have hsuid := suidEvent_fst pb payload ⟨none, []⟩
  rw [decodeSuids, Prog.read_bind_run, Prog.bind_ok hmsgId,
    if_neg (not_not.2 ((getMsgId_eq_iff (by decide) hmsgId).2 ⟨hcomplete, hid⟩)),
    Prog.bind_ok (Prog.withLocal_ok hevent _)]
  dsimp only
  rw [if_neg (by decide), Prog.modify_bind_run, Option.getD_some,
    Prog.bind_ok (Prog.withLocal_ok (Prod.ext hsuid rfl) _)]
  cases pb.decodesSuidEvent payload <;> exact ⟨rfl, rfl⟩

/-- `decode_attributes` on a record with another id, or on what is no record at all. -/
theorem decodeAttributes_of_not {ctx : SensorAttributes}
    (h : ¬ ((pb.clientEvent ctx.stream.bytes).complete = true ∧
      pb.HasMsgId SNS_STD_MSGID_SNS_STD_ATTR_EVENT ctx.stream)) :
    decodeAttributes pb ctx = (.ok true, ctx) := by
  have hid := getMsgId_run pb ctx.stream ctx
  rw [decodeAttributes, Prog.read_bind_run, Prog.bind_ok hid,
    if_pos (mt (getMsgId_eq_iff (by decide) hid).1 h)]
  rfl

/-- An attribute does not touch the stream of the record. -/
theorem attrEvent_stream (pb : Nanopb) (stream : PbIstream) (attributes : SensorAttributes) :
    (pbDecode pb.attrEvent (fun stream p ↦ decodeAttribute pb (stream.sub p)) stream
      attributes).2.stream = attributes.stream := by
  refine Decoding.run_preserves (P := fun a : SensorAttributes ↦ a.stream = attributes.stream) _
    (fun p _ a ha ↦ ?_) rfl
  change (decodeAttribute pb (stream.sub p) a).2.stream = attributes.stream
  rcases hrun : pbDecode pb.attr (storeAttr pb) (stream.sub p) ⟨0, []⟩ with ⟨e | ok, attr⟩
  · rw [decodeAttribute, Prog.bind_error (Prog.withLocal_error hrun a)]
    exact ha
  · rw [decodeAttribute, Prog.bind_ok (Prog.withLocal_ok hrun a)]
    cases ok <;> exact ha

/-- `decode_attributes` on a record with its id. -/
theorem decodeAttributes_of_hasMsgId {ctx : SensorAttributes}
    (hcomplete : (pb.clientEvent ctx.stream.bytes).complete = true)
    (hid : pb.HasMsgId SNS_STD_MSGID_SNS_STD_ATTR_EVENT ctx.stream) {payload : PbIstream}
    (hpayload : ((pb.clientEvent ctx.stream.bytes).last ClientEventField.payload?).map
      ctx.stream.sub = some payload) :
    (decodeAttributes pb ctx).1 = .ok (pb.decodesAttrEvent payload) ∧
      (decodeAttributes pb ctx).2.stream = ctx.stream.atEnd := by
  have hmsgId := getMsgId_run pb ctx.stream ctx
  have hevent := clientEvent_run hcomplete hid hpayload
  have hfst := attrEvent_fst pb payload ⟨ctx.stream.atEnd, ctx.attributes⟩
  have hstream := attrEvent_stream pb payload ⟨ctx.stream.atEnd, ctx.attributes⟩
  rw [decodeAttributes, Prog.read_bind_run, Prog.bind_ok hmsgId,
    if_neg (not_not.2 ((getMsgId_eq_iff (by decide) hmsgId).2 ⟨hcomplete, hid⟩)),
    Prog.bind_ok (Prog.withLocal_ok hevent _)]
  dsimp only
  rw [if_neg (by decide), Prog.modify_bind_run, Option.getD_some, Prog.bind_fst_ok hfst]
  cases pb.decodesAttrEvent payload <;> exact ⟨rfl, hstream⟩

/-- A decoder that returns true for everything but the records with its id. -/
theorem reports_iff_of_run {id : UInt32} {decodes : PbIstream → Bool}
    {ret : Except Undefined Bool} {rest : PbIstream}
    (hnot : ¬ ((pb.clientEvent stream.bytes).complete = true ∧ pb.HasMsgId id stream) →
      ret = .ok true ∧ rest = stream)
    (hdecodes : (pb.clientEvent stream.bytes).complete = true → pb.HasMsgId id stream →
      ∀ payload, ((pb.clientEvent stream.bytes).last ClientEventField.payload?).map stream.sub =
        some payload → ret = .ok (decodes payload) ∧ rest = stream.atEnd) :
    Reports (pb.IsRecord id decodes stream) ret rest ↔
      (pb.clientEvent stream.bytes).complete = true ∧ pb.HasMsgId id stream := by
  constructor
  · intro hreports
    by_contra hother
    obtain ⟨rfl, rfl⟩ := hnot hother
    rcases hreports with ⟨-, hrecord, hrest⟩ | ⟨hfalse, -⟩
    · exact bytesLeft_ne_of_complete hrecord.complete hrest
    · cases hfalse
  · rintro ⟨hcomplete, hid⟩
    obtain ⟨p, hp⟩ := pb.payload_required _ hcomplete
    have hpayload : ((pb.clientEvent stream.bytes).last ClientEventField.payload?).map stream.sub =
        some (stream.sub p) := by
      rw [hp, Option.map_some]
    obtain ⟨rfl, rfl⟩ := hdecodes hcomplete hid _ hpayload
    rcases hok : decodes (stream.sub p) with _ | _
    · refine Or.inr ⟨rfl, fun hrecord ↦ ?_⟩
      obtain ⟨payload, hsame, htrue⟩ := hrecord.payload hid
      obtain rfl := Option.some.inj (hpayload.symm.trans hsame)
      rw [hok] at htrue
      cases htrue
    · exact Or.inl ⟨rfl, ⟨hcomplete, fun _ ↦ ⟨_, hpayload, hok⟩⟩, rfl⟩

end

/-- **The decoders report what they find exactly for the records with their id**: for everything
else they return true and have read nothing. -/
theorem reports_iff (pb : Nanopb) :
    (∀ ctx : SuidList,
      Reports (pb.IsRecord SNS_SUID_MSGID_SNS_SUID_EVENT pb.decodesSuidEvent ctx.stream)
          (decodeSuids pb ctx).1 (decodeSuids pb ctx).2.stream ↔
        (pb.clientEvent ctx.stream.bytes).complete = true ∧
          pb.HasMsgId SNS_SUID_MSGID_SNS_SUID_EVENT ctx.stream) ∧
      ∀ ctx : SensorAttributes,
        Reports (pb.IsRecord SNS_STD_MSGID_SNS_STD_ATTR_EVENT pb.decodesAttrEvent ctx.stream)
            (decodeAttributes pb ctx).1 (decodeAttributes pb ctx).2.stream ↔
          (pb.clientEvent ctx.stream.bytes).complete = true ∧
            pb.HasMsgId SNS_STD_MSGID_SNS_STD_ATTR_EVENT ctx.stream := by
  refine ⟨fun ctx ↦ reports_iff_of_run (fun h ↦ ?_) fun hcomplete hid payload hpayload ↦
      decodeSuids_of_hasMsgId hcomplete hid hpayload,
    fun ctx ↦ reports_iff_of_run (fun h ↦ ?_) fun hcomplete hid payload hpayload ↦
      decodeAttributes_of_hasMsgId hcomplete hid hpayload⟩
  · rw [decodeSuids_of_not h]
    exact ⟨rfl, rfl⟩
  · rw [decodeAttributes_of_not h]
    exact ⟨rfl, rfl⟩

/-- A record that breaks off in its `msg_id`. -/
def truncatedRecord : PbIstream :=
  .ofBytes [13, 0]

/-- It cannot be decoded, and both decoders return true. -/
theorem not_reports_truncatedRecord :
    (proto.clientEvent truncatedRecord.bytes).complete = false ∧
      decodeSuids proto ⟨truncatedRecord, [], []⟩ = (.ok true, ⟨truncatedRecord, [], []⟩) ∧
      decodeAttributes proto ⟨truncatedRecord, Table.empty⟩ =
        (.ok true, ⟨truncatedRecord, .empty⟩) ∧
      ¬ Reports
          (proto.IsRecord SNS_SUID_MSGID_SNS_SUID_EVENT proto.decodesSuidEvent truncatedRecord)
          (decodeSuids proto ⟨truncatedRecord, [], []⟩).1
          (decodeSuids proto ⟨truncatedRecord, [], []⟩).2.stream ∧
      ¬ Reports
          (proto.IsRecord SNS_STD_MSGID_SNS_STD_ATTR_EVENT proto.decodesAttrEvent truncatedRecord)
          (decodeAttributes proto ⟨truncatedRecord, Table.empty⟩).1
          (decodeAttributes proto ⟨truncatedRecord, Table.empty⟩).2.stream := by
  have hbroken : (proto.clientEvent truncatedRecord.bytes).complete = false := by decide
  have hnot : ∀ id, ¬ ((proto.clientEvent truncatedRecord.bytes).complete = true ∧
      proto.HasMsgId id truncatedRecord) := fun id h ↦
    Bool.false_ne_true (hbroken.symm.trans h.1)
  have hsuids := @decodeSuids_of_not proto ⟨truncatedRecord, [], []⟩ (hnot _)
  have hattributes := @decodeAttributes_of_not proto ⟨truncatedRecord, Table.empty⟩ (hnot _)
  refine ⟨hbroken, hsuids, hattributes, ?_, ?_⟩
  · rw [hsuids]
    rintro (⟨-, hrecord, -⟩ | ⟨hfalse, -⟩)
    · exact Bool.false_ne_true (hbroken.symm.trans hrecord.complete)
    · cases hfalse
  · rw [hattributes]
    rintro (⟨-, hrecord, -⟩ | ⟨hfalse, -⟩)
    · exact Bool.false_ne_true (hbroken.symm.trans hrecord.complete)
    · cases hfalse

end SensingHub.QshPb
