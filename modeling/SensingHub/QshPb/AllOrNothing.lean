import SensingHub.QshPb.WireFormat

/-!
# Events are applied as a whole, or not

`decode_suids` collects the ids of an event in a vector of its own and hands them on at its end,
when nothing can fail any more. `decode_attributes` hands nanopb the map itself: `decode_attribute`
writes each attribute into it as soon as it is decoded, and when a later one is malformed the event
is reported as a failure with a part of it applied. So the first is all-or-nothing on every record,
and the second on those whose attributes in front of the first malformed one the map holds already.
Both take what is no record at all for a record with another id.
-/

namespace SensingHub.QshPb

open Discovery (DecodeM Suid Undefined SNS_SUID_MSGID_SNS_SUID_EVENT)

/-! ### What is applied -/

namespace Nanopb

variable (pb : Nanopb)

/-- The id that an `sns_std_suid` is. -/
def suid (stream : PbIstream) : Suid :=
  ⟨((pb.stdSuid stream.bytes).last Discovery.StdSuidField.low?).getD 0,
    ((pb.stdSuid stream.bytes).last Discovery.StdSuidField.high?).getD 0⟩

/-- The ids of an `sns_suid_event`, in order. -/
def suids (stream : PbIstream) : List Suid :=
  (pb.suidEvent stream.bytes).fields.filterMap fun f ↦
    f.suid?.map fun p ↦ pb.suid (stream.sub p)

/-- The data type of an `sns_suid_event`, less a NUL at its end; empty if there is none. -/
def datatype (stream : PbIstream) : Bytes :=
  (((pb.suidEvent stream.bytes).last SuidEventField.dataType?).map fun p ↦
    trimNul (stream.sub p).bytes).getD []

/-- The values of the last of some attributes with the id `id`. -/
def lastEntry (attrs : List PbIstream) (id : ℤ) : Option (List Attribute) :=
  Table.firstFor (attrs.map pb.entry).reverse id

/-- The record carries another message than one with the id `id`. -/
def CarriesOther (id : UInt32) (stream : PbIstream) : Prop :=
  (pb.clientEvent stream.bytes).complete = true ∧ ¬ pb.HasMsgId id stream

/-- The whole list of ids has been appended and the data type replaced. -/
def AppliedSuids (before after : SuidList) : Prop :=
  ∃ payload, pb.HoldsEvent SNS_SUID_MSGID_SNS_SUID_EVENT before.stream payload ∧
    pb.decodesSuidEvent payload = true ∧ after.suids = before.suids ++ pb.suids payload ∧
    after.datatype = pb.datatype payload

/-- Every attribute of the event has been stored, of those with the same id the last one. -/
def AppliedAttributes (before after : SensorAttributes) : Prop :=
  ∃ payload, pb.HoldsEvent SNS_STD_MSGID_SNS_STD_ATTR_EVENT before.stream payload ∧
    pb.decodesAttrEvent payload = true ∧
    ∀ id, after.attributes id =
      (pb.lastEntry (pb.attrStreams payload) id).or (before.attributes id)

end Nanopb

/-- False is returned and nothing changed, or true and a whole event applied, or nothing changed as
it is another event. -/
def AllOrNothing (unchanged other applied : Prop) (ret : Except Undefined Bool) : Prop :=
  ret = .ok false ∧ unchanged ∨ ret = .ok true ∧ (unchanged ∧ other ∨ applied)

/-- `decode_suids` is all-or-nothing here. -/
def SuidsAllOrNothing (pb : Nanopb) (ctx : SuidList) : Prop :=
  AllOrNothing
    ((decodeSuids pb ctx).2.suids = ctx.suids ∧ (decodeSuids pb ctx).2.datatype = ctx.datatype)
    (pb.CarriesOther SNS_SUID_MSGID_SNS_SUID_EVENT ctx.stream)
    (pb.AppliedSuids ctx (decodeSuids pb ctx).2) (decodeSuids pb ctx).1

/-- `decode_attributes` is all-or-nothing here. -/
def AttributesAllOrNothing (pb : Nanopb) (ctx : SensorAttributes) : Prop :=
  AllOrNothing ((decodeAttributes pb ctx).2.attributes = ctx.attributes)
    (pb.CarriesOther SNS_STD_MSGID_SNS_STD_ATTR_EVENT ctx.stream)
    (pb.AppliedAttributes ctx (decodeAttributes pb ctx).2) (decodeAttributes pb ctx).1

/-! ### Decoding lists of ids -/

section

variable {pb : Nanopb} {stream payload : PbIstream}

/-- A field of an `sns_std_suid`. -/
def storeHalf (uid : Suid) : Discovery.StdSuidField → Suid
  | .suidLow v => { uid with low := v }
  | .suidHigh v => { uid with high := v }

/-- The two halves of an id come from the last occurrence of each. -/
theorem foldl_storeHalf (pb : Nanopb) (stream : PbIstream) :
    (pb.stdSuid stream.bytes).fields.foldl storeHalf ⟨0, 0⟩ = pb.suid stream := by
  have hlow := Decoding.foldl_last (d := pb.stdSuid stream.bytes) (fun uid ↦ some uid.low)
    storeHalf Discovery.StdSuidField.low? (fun s f ↦ by cases f <;> rfl) ⟨0, 0⟩
  have hhigh := Decoding.foldl_last (d := pb.stdSuid stream.bytes) (fun uid ↦ some uid.high)
    storeHalf Discovery.StdSuidField.high? (fun s f ↦ by cases f <;> rfl) ⟨0, 0⟩
  rw [Option.or_some, Option.some_inj] at hlow hhigh
  rw [Nanopb.suid, ← hlow, ← hhigh]

/-- An id is decoded, and appended. -/
theorem decodeSuid_run (event : SuidEvent) :
    decodeSuid pb stream event = (.ok (pb.stdSuid stream.bytes).complete,
      if (pb.stdSuid stream.bytes).complete then
        { event with suidVector := event.suidVector ++ [pb.suid stream] }
      else event) := by
  unfold decodeSuid
  rw [← foldl_storeHalf, ← Decoding.accepted_true]
  refine decode_store_run pb.stdSuid (fun _ ↦ Discovery.storeStdSuid) (fun f _ uid ↦ ?_) ⟨0, 0⟩
    (fun uid event ↦ { event with suidVector := event.suidVector ++ [uid] }) event
  cases f <;> rfl

/-- A field of an `sns_suid_event`, where it is accepted. -/
def Nanopb.storeSuid (pb : Nanopb) (stream : PbIstream) (event : SuidEvent) :
    SuidEventField → SuidEvent
  | .dataType p => { event with datatypeBuf := some (stream.sub p) }
  | .suid p => { event with suidVector := event.suidVector ++ [pb.suid (stream.sub p)] }

/-- The data type comes from its last occurrence, the ids from all. -/
theorem foldl_storeSuid (pb : Nanopb) (stream : PbIstream) :
    (pb.suidEvent stream.bytes).fields.foldl (pb.storeSuid stream) ⟨none, []⟩ =
      ⟨((pb.suidEvent stream.bytes).last SuidEventField.dataType?).map stream.sub,
        pb.suids stream⟩ := by
  have hbuf := Decoding.foldl_last (d := pb.suidEvent stream.bytes) SuidEvent.datatypeBuf
    (pb.storeSuid stream) (fun f ↦ f.dataType?.map stream.sub)
    (fun s f ↦ by cases f <;> rfl) ⟨none, []⟩
  have hvector := Decoding.foldl_filterMap SuidEvent.suidVector (pb.storeSuid stream)
    (fun f ↦ f.suid?.map fun p ↦ pb.suid (stream.sub p))
    (fun s f ↦ by cases f <;> simp [Nanopb.storeSuid, SuidEventField.suid?])
    (pb.suidEvent stream.bytes).fields ⟨none, []⟩
  rw [Decoding.last_map, Option.or_none] at hbuf
  rw [List.nil_append] at hvector
  rw [Nanopb.suids, ← hbuf, ← hvector]

/-- An `sns_suid_event` is decoded into variables of its own. -/
theorem suidEvent_run_of_decodes (h : pb.decodesSuidEvent payload = true) :
    pbDecode pb.suidEvent (storeSuidEvent pb) payload ⟨none, []⟩ =
      (.ok true, ⟨((pb.suidEvent payload.bytes).last SuidEventField.dataType?).map payload.sub,
        pb.suids payload⟩) := by
  rw [← foldl_storeSuid]
  refine Decoding.run_of_accepted (storeSuidEvent pb payload) h _ (fun f _ event ↦ ?_) ⟨none, []⟩
  cases f with
  | dataType p => rfl
  | suid p => exact decodeSuid_run event

/-- **What `decode_suids` makes of a record with its id.** -/
theorem decodeSuids_run_of_holdsEvent {ctx : SuidList}
    (h : pb.HoldsEvent SNS_SUID_MSGID_SNS_SUID_EVENT ctx.stream payload) :
    decodeSuids pb ctx = (.ok (pb.decodesSuidEvent payload),
      if pb.decodesSuidEvent payload then
        ⟨ctx.stream.atEnd, ctx.suids ++ pb.suids payload, pb.datatype payload⟩
      else { ctx with stream := ctx.stream.atEnd }) := by
  have hmsgId := getMsgId_run pb ctx.stream ctx
  have hevent := clientEvent_run h.complete h.msgId h.payload
  rw [decodeSuids, Prog.read_bind_run, Prog.bind_ok hmsgId,
    if_neg (not_not.2 ((getMsgId_eq_iff (by decide) hmsgId).2 ⟨h.complete, h.msgId⟩)),
    Prog.bind_ok (Prog.withLocal_ok hevent _)]
  dsimp only
  rw [if_neg (by decide), Prog.modify_bind_run, Option.getD_some]
  cases hok : pb.decodesSuidEvent payload with
  | true =>
    rw [Prog.bind_ok (Prog.withLocal_ok (suidEvent_run_of_decodes hok) _), Nanopb.datatype]
    cases (pb.suidEvent payload.bytes).last SuidEventField.dataType? <;> rfl
  | false =>
    have hfst := suidEvent_fst pb payload ⟨none, []⟩
    rw [hok] at hfst
    rw [Prog.bind_ok (Prog.withLocal_ok (Prod.ext hfst rfl) _)]
    rfl

/-! ### All or nothing -/

/-- A record that can be decoded has a payload. -/
theorem exists_holdsEvent {id : UInt32} (hcomplete : (pb.clientEvent stream.bytes).complete = true)
    (hid : pb.HasMsgId id stream) : ∃ payload, pb.HoldsEvent id stream payload := by
  obtain ⟨p, hp⟩ := pb.payload_required _ hcomplete
  exact ⟨stream.sub p, hcomplete, hid, by rw [hp, Option.map_some]⟩

/-- A decoder that takes what is no record for one with another id, and applies an event if it can
decode it. -/
theorem allOrNothing_iff_of_run {id : UInt32} {decodes : PbIstream → Bool}
    {unchanged applied : Prop} {ret : Except Undefined Bool}
    (hnot : ¬ ((pb.clientEvent stream.bytes).complete = true ∧ pb.HasMsgId id stream) →
      ret = .ok true ∧ unchanged)
    (happlied : applied → ∃ payload, pb.HoldsEvent id stream payload)
    (hholds : ∀ payload, pb.HoldsEvent id stream payload →
      ret = .ok (decodes payload) ∧ (decodes payload = true → applied)) :
    AllOrNothing unchanged (pb.CarriesOther id stream) applied ret ↔
      (pb.clientEvent stream.bytes).complete = true ∧
        ∀ payload, pb.HoldsEvent id stream payload → decodes payload = true ∨ unchanged := by
  constructor
  · intro hall
    refine ⟨?_, fun payload hpayload ↦ ?_⟩
    · -- a record that breaks off is taken for one with another id
      by_contra hbroken
      obtain ⟨rfl, -⟩ := hnot (mt And.left hbroken)
      rcases hall with ⟨hfalse, -⟩ | ⟨-, ⟨-, hother⟩ | happ⟩
      · cases hfalse
      · exact hbroken hother.1
      · obtain ⟨payload, hpayload⟩ := happlied happ
        exact hbroken hpayload.complete
    · obtain ⟨rfl, -⟩ := hholds payload hpayload
      rcases hall with ⟨-, hsame⟩ | ⟨htrue, -⟩
      · exact Or.inr hsame
      · exact Or.inl (Except.ok.inj htrue)
  · rintro ⟨hcomplete, hevent⟩
    by_cases hid : pb.HasMsgId id stream
    · obtain ⟨payload, hpayload⟩ := exists_holdsEvent hcomplete hid
      obtain ⟨rfl, happ⟩ := hholds payload hpayload
      cases hok : decodes payload with
      | true => exact Or.inr ⟨rfl, Or.inr (happ hok)⟩
      -- a failure is one only of the report, unless nothing was stored
      | false =>
        refine Or.inl ⟨rfl, (hevent payload hpayload).resolve_left ?_⟩
        rw [hok]
        exact Bool.false_ne_true
    · obtain ⟨rfl, hsame⟩ := hnot (mt And.right hid)
      exact Or.inr ⟨rfl, Or.inl ⟨hsame, hcomplete, hid⟩⟩

/-- Assigning entries changes nothing exactly if the last one for each key is there. -/
theorem assignAll_eq_iff (attrs : List PbIstream) (attributes : Table ℤ (List Attribute)) :
    attributes.assignAll (attrs.map pb.entry) = attributes ↔
      ∀ id values, pb.lastEntry attrs id = some values → attributes id = some values := by
  rw [funext_iff]
  refine forall_congr' fun id ↦ ?_
  rw [Table.assignAll_apply]
  show (pb.lastEntry attrs id).or (attributes id) = attributes id ↔ _
  cases pb.lastEntry attrs id with
  | none => exact iff_of_true rfl nofun
  | some values =>
    rw [Option.some_or]
    exact ⟨fun h _ heq ↦ h.symm.trans heq, fun h ↦ (h values rfl).symm⟩

end

/-- **`decode_suids` is all-or-nothing on everything that can be decoded, and `decode_attributes` if
moreover the event can be, or the map holds already what stands in front of its first malformed
attribute.** -/
theorem allOrNothing_iff (pb : Nanopb) :
    (∀ ctx, SuidsAllOrNothing pb ctx ↔ (pb.clientEvent ctx.stream.bytes).complete = true) ∧
      ∀ ctx, AttributesAllOrNothing pb ctx ↔
        (pb.clientEvent ctx.stream.bytes).complete = true ∧
          ∀ payload, pb.HoldsEvent SNS_STD_MSGID_SNS_STD_ATTR_EVENT ctx.stream payload →
            pb.decodesAttrEvent payload = true ∨
              ∀ id values, pb.lastEntry (pb.decodedAttrs payload) id = some values →
                ctx.attributes id = some values := by
  refine ⟨fun ctx ↦ ?_, fun ctx ↦ ?_⟩
  · -- `decode_suids` stores behind the last check, so a failure leaves the context as it was
    have hsame (payload) (h : pb.HoldsEvent SNS_SUID_MSGID_SNS_SUID_EVENT ctx.stream payload) :
        pb.decodesSuidEvent payload = true ∨
          (decodeSuids pb ctx).2.suids = ctx.suids ∧
            (decodeSuids pb ctx).2.datatype = ctx.datatype := by
      rw [decodeSuids_run_of_holdsEvent h]
      cases pb.decodesSuidEvent payload with
      | true => exact Or.inl rfl
      | false => exact Or.inr ⟨rfl, rfl⟩
    rw [SuidsAllOrNothing, @allOrNothing_iff_of_run pb ctx.stream _ pb.decodesSuidEvent]
    · exact and_iff_left hsame
    · intro hother
      rw [decodeSuids_of_not hother]
      exact ⟨rfl, rfl, rfl⟩
    · rintro ⟨payload, hpayload, -⟩
      exact ⟨payload, hpayload⟩
    · intro payload hpayload
      rw [decodeSuids_run_of_holdsEvent hpayload]
      refine ⟨rfl, fun hok ↦ ⟨payload, hpayload, hok, ?_, ?_⟩⟩ <;> rw [hok] <;> rfl
  · -- `decode_attributes` stores each attribute when it is decoded
    rw [AttributesAllOrNothing, @allOrNothing_iff_of_run pb ctx.stream _ pb.decodesAttrEvent]
    · refine and_congr_right fun _ ↦ forall₂_congr fun payload hpayload ↦ or_congr_right ?_
      rw [decodeAttributes_run hpayload]
      exact assignAll_eq_iff _ _
    · intro hother
      rw [decodeAttributes_of_not hother]
      exact ⟨rfl, rfl⟩
    · rintro ⟨payload, hpayload, -⟩
      exact ⟨payload, hpayload⟩
    · intro payload hpayload
      rw [decodeAttributes_run hpayload]
      refine ⟨rfl, fun hok ↦ ⟨payload, hpayload, hok, fun id ↦ ?_⟩⟩
      rw [decodedAttrs_of_decodes hok]
      exact Table.assignAll_apply ..

/-- The record of an attribute event: the id 5 with the value true, and an attribute that breaks off
in its id. -/
def halfRecord : PbIstream :=
  .ofBytes [13, 128, 0, 0, 0, 17, 0, 0, 0, 0, 0, 0, 0, 0, 26, 13,
    10, 8, 8, 5, 18, 4, 10, 2, 40, 1, 10, 1, 8]

/-- A failure is reported, and the first attribute has been stored. -/
theorem not_allOrNothing_halfRecord :
    (decodeAttributes proto ⟨halfRecord, Table.empty⟩).1 = .ok false ∧
      (decodeAttributes proto ⟨halfRecord, Table.empty⟩).2.attributes 5 =
        some [{ Attribute.zero with hasBoolean := true, boolean := true }] ∧
      ¬ AttributesAllOrNothing proto ⟨halfRecord, Table.empty⟩ := by
  have hret : (decodeAttributes proto ⟨halfRecord, Table.empty⟩).1 = .ok false := by decide
  have hstored : (decodeAttributes proto ⟨halfRecord, Table.empty⟩).2.attributes 5 =
      some [{ Attribute.zero with hasBoolean := true, boolean := true }] := by decide
  refine ⟨hret, hstored, ?_⟩
  rintro (⟨-, hsame⟩ | ⟨htrue, -⟩)
  · cases hstored.symm.trans (congrFun hsame 5)
  · cases hret.symm.trans htrue

end SensingHub.QshPb
