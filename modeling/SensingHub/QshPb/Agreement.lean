import SensingHub.Discovery.Locate
import SensingHub.QshPb.Proto

/-!
# Two decoders of the same event

`suid_decode_event` and `decode_suids` both take an `sns_suid_event` apart. The second makes the
data type of the bytes of its field, less a NUL at their end. The first takes the C string that
starts where the field does: a NUL in the field ends it early, and where the field has none it goes
on into what comes after the field. The two agree exactly on the data types of which neither is the
case.
-/

namespace SensingHub.QshPb

open CLib (cString cString_append cString_eq_some_iff)
open Discovery (Suid SuidDecodeContext SNS_SUID_MSGID_SNS_SUID_EVENT stringOf
  bytesField suidBytes eventBytes)

/-! ### Records with lists of ids -/

/-- The stream holds an `sns_suid_event`: where its data type stands, and its ids. -/
structure Nanopb.IsSuidEvent (pb : Nanopb) (stream datatype : PbIstream) (suids : List Suid) :
    Prop where
  complete : (pb.suidEvent stream.bytes).complete = true
  datatype : ((pb.suidEvent stream.bytes).last SuidEventField.dataType?).map stream.sub =
    some datatype
  suids : List.Forall₂ pb.onBytes.IsSuid
    ((pb.onBytes.suidEvent stream.bytes).fields.filterMap Discovery.SuidEventField.suid?) suids

/-- The stream holds an `sns_client_event` with an `sns_suid_event`. -/
structure Nanopb.IsSuidRecord (pb : Nanopb) (stream datatype : PbIstream) (suids : List Suid) :
    Prop where
  complete : (pb.clientEvent stream.bytes).complete = true
  msgId : (pb.clientEvent stream.bytes).last ClientEventField.msgId? =
    some SNS_SUID_MSGID_SNS_SUID_EVENT
  payload : ∃ payload, ((pb.clientEvent stream.bytes).last ClientEventField.payload?).map
    stream.sub = some payload ∧ pb.IsSuidEvent payload datatype suids

/-- Both decoders succeed, and with the same data type and ids. -/
def Agree (pb : Nanopb) (stream : PbIstream) : Prop :=
  ∃ datatype suids, suidDecodeEvent pb stream ⟨[], []⟩ = (.ok true, ⟨[suids], [datatype]⟩) ∧
    ∃ rest, decodeSuids pb ⟨stream, [], []⟩ = (.ok true, ⟨rest, suids, datatype⟩)

/-- The one NUL of the bytes stands at their end, or they have none and are followed by one. -/
def PbIstream.Ends (buf : PbIstream) : Prop :=
  (∃ s : Bytes, 0 ∉ s ∧ buf.bytes = s ++ [0]) ∨
    0 ∉ buf.bytes ∧ buf.state[buf.bytesLeft]? = some 0

/-! ### Decoding them -/

section

variable {pb : Nanopb} {stream datatype : PbIstream} {suids : List Suid}

/-- An `sns_client_event` is decoded. -/
theorem clientEvent_run {id : UInt32} {payload : PbIstream}
    (hcomplete : (pb.clientEvent stream.bytes).complete = true)
    (hid : (pb.clientEvent stream.bytes).last ClientEventField.msgId? = some id)
    (hpayload : ((pb.clientEvent stream.bytes).last ClientEventField.payload?).map stream.sub =
      some payload) :
    pbDecode pb.clientEvent storeClientEvent stream ⟨0, none⟩ = (.ok true, ⟨id, some payload⟩) := by
  have hrun := Decoding.run_accepting (d := pb.clientEvent stream.bytes) (storeClientEvent stream)
    (fun f _ s ↦ by cases f <;> rfl) ⟨0, none⟩
  have hmsgId := Decoding.foldl_last (d := pb.clientEvent stream.bytes)
    (fun event ↦ some event.msgId) (fun event f ↦ (storeClientEvent stream f event).2)
    ClientEventField.msgId? (fun s f ↦ by cases f <;> rfl) ⟨0, none⟩
  have hdata := Decoding.foldl_last (d := pb.clientEvent stream.bytes) ClientEvent.data
    (fun event f ↦ (storeClientEvent stream f event).2)
    (fun f ↦ f.payload?.map stream.sub) (fun s f ↦ by cases f <;> rfl) ⟨0, none⟩
  rw [Decoding.last_map, hpayload] at hdata
  rw [hid] at hmsgId
  rw [hcomplete] at hrun
  generalize (pb.clientEvent stream.bytes).fields.foldl
    (fun event f ↦ (storeClientEvent stream f event).2) ⟨0, none⟩ = t at hrun hmsgId hdata
  obtain rfl : t = ⟨id, some payload⟩ := by
    cases t
    simp_all
  exact hrun

/-- `get_msg_id` returns what `pb_decode` finds, or 0. -/
theorem getMsgId_run {σ : Type} (pb : Nanopb) (stream : PbIstream) (s : σ) :
    getMsgId pb stream s = (.ok (if (pb.clientEvent stream.bytes).complete then
      ((pb.clientEvent stream.bytes).last ClientEventField.msgId?).getD 0 else 0), s) := by
  have hrun : pbDecode pb.clientEvent (fun _ ↦ storeMsgId) stream 0 = _ :=
    Decoding.run_accepting storeMsgId (fun f _ s ↦ by cases f <;> rfl) 0
  have hmsgId := Decoding.foldl_last (d := pb.clientEvent stream.bytes) some
    (fun msgId f ↦ (storeMsgId f msgId).2) ClientEventField.msgId?
    (fun s f ↦ by cases f <;> rfl) 0
  generalize (pb.clientEvent stream.bytes).fields.foldl (fun msgId f ↦ (storeMsgId f msgId).2) 0 = v
    at hrun hmsgId
  obtain rfl : v = ((pb.clientEvent stream.bytes).last ClientEventField.msgId?).getD 0 := by
    rw [Option.or_some, Option.some_inj] at hmsgId
    exact hmsgId
  rw [getMsgId, Prog.bind_ok (Prog.withLocal_ok hrun s)]
  cases (pb.clientEvent stream.bytes).complete <;> rfl

/-- A `suid` does not touch the data type. -/
theorem decodeSuid_datatypeBuf (event : SuidEvent) :
    (decodeSuid pb stream event).2.datatypeBuf = event.datatypeBuf := by
  rcases hrun : pbDecode pb.stdSuid (fun _ ↦ Discovery.storeStdSuid) stream ⟨0, 0⟩ with
    ⟨e | ok, uid⟩
  · rw [decodeSuid, Prog.bind_error (Prog.withLocal_error hrun event)]
  · rw [decodeSuid, Prog.bind_ok (Prog.withLocal_ok hrun event)]
    cases ok <;> rfl

/-- An `sns_suid_event` is decoded. -/
theorem suidEvent_run (h : pb.IsSuidEvent stream datatype suids) :
    pbDecode pb.suidEvent (storeSuidEvent pb) stream ⟨none, []⟩ =
      (.ok true, ⟨some datatype, suids⟩) := by
  obtain ⟨haccept, hsuids⟩ := Discovery.storeSuidEvent_suids h.suids ⟨none, []⟩
  have hbytes := Decoding.run_accepting (Discovery.storeSuidEvent pb.onBytes) haccept ⟨none, []⟩
  have hrun : pbDecode pb.suidEvent (storeSuidEvent pb) stream ⟨none, []⟩ = _ :=
    Decoding.run_accepting (storeSuidEvent pb stream) (fun f hf event ↦
      (congrArg Prod.fst (storeSuidEvent_onBytes hf event)).symm.trans
        (haccept _ (List.mem_map_of_mem hf) _)) ⟨none, []⟩
  have hlast := Decoding.foldl_last (d := pb.suidEvent stream.bytes) SuidEvent.datatypeBuf
    (fun s f ↦ (storeSuidEvent pb stream f s).2) (fun f ↦ f.dataType?.map stream.sub)
    (fun s f ↦ by
      cases f
      · rfl
      · exact decodeSuid_datatypeBuf s) ⟨none, []⟩
  have hsame := @suidEvent_onBytes pb stream ⟨none, []⟩
  rw [Decoding.last_map, h.datatype] at hlast
  rw [hrun] at hsame
  rw [hrun, h.complete]
  have hvector : _ = (SuidEvent.onBytes _).suidVector :=
    congrArg (fun r ↦ r.2.suidVector) (hbytes.symm.trans hsame)
  rw [hsuids] at hvector
  generalize (pb.suidEvent stream.bytes).fields.foldl
    (fun s f ↦ (storeSuidEvent pb stream f s).2) ⟨none, []⟩ = t at hlast hvector
  obtain rfl : t = ⟨some datatype, suids⟩ := by
    cases t
    simp_all [SuidEvent.onBytes]
  rfl

/-- The payload of the record is not empty: it has a data type. -/
theorem Nanopb.IsSuidEvent.bytesLeft_ne (h : pb.IsSuidEvent stream datatype suids) :
    stream.bytesLeft ≠ 0 := by
  intro hzero
  have hdatatype := h.datatype
  rw [PbIstream.bytes, hzero, List.take_zero, Decoding.last, pb.suidEvent_nil] at hdatatype
  cases hdatatype

/-- What `suid_decode_event` makes of a record: the data type is the C string that starts where its
field does. -/
theorem suidDecodeEvent_run (h : pb.IsSuidRecord stream datatype suids) :
    suidDecodeEvent pb stream ⟨[], []⟩ = match cString datatype.state with
      | some s => (.ok true, ⟨[suids], [s]⟩)
      | none => (.error .unterminated, ⟨[], []⟩) := by
  obtain ⟨payload, hpayload, hsuid⟩ := h.payload
  have hevent := clientEvent_run h.complete h.msgId hpayload
  rw [suidDecodeEvent, Prog.bind_ok (Prog.withLocal_ok hevent _)]
  dsimp only
  rw [if_neg (by decide), if_neg (by decide), if_pos rfl, initialized_some_bind,
    if_neg hsuid.bytesLeft_ne, Prog.bind_ok (Prog.withLocal_ok (suidEvent_run hsuid) _)]
  dsimp only
  rw [if_neg (by decide), initialized_some_bind]
  rcases hstring : cString datatype.state with _ | s
  · rw [Prog.bind_error (e := .unterminated) (t := ⟨[], []⟩) (by rw [stringOf, hstring]; rfl)]
  · rw [stringOf_bind hstring]
    rfl

/-- What `decode_suids` makes of a record: the data type is made of the bytes of its field. -/
theorem decodeSuids_run (h : pb.IsSuidRecord stream datatype suids) :
    decodeSuids pb ⟨stream, [], []⟩ =
      (.ok true, ⟨stream.atEnd, suids, trimNul datatype.bytes⟩) := by
  obtain ⟨payload, hpayload, hsuid⟩ := h.payload
  have hevent := clientEvent_run h.complete h.msgId hpayload
  have hid := getMsgId_run pb stream (⟨stream, [], []⟩ : SuidList)
  rw [h.complete, if_pos rfl, h.msgId] at hid
  rw [decodeSuids, Prog.read_bind_run, Prog.bind_ok hid, if_neg (by decide),
    Prog.bind_ok (Prog.withLocal_ok hevent _)]
  dsimp only
  rw [if_neg (by decide), Prog.modify_bind_run, Option.getD_some,
    Prog.bind_ok (Prog.withLocal_ok (suidEvent_run hsuid) _)]
  rfl

/-- The length of the data type is within the payload. -/
theorem Nanopb.IsSuidEvent.length_datatype (h : pb.IsSuidEvent stream datatype suids) :
    datatype.bytes.length = datatype.bytesLeft := by
  obtain ⟨p, hp, rfl⟩ := Option.map_eq_some_iff.1 h.datatype
  obtain ⟨f, hf, hfp⟩ := List.mem_filterMap.1 (List.mem_of_getLast? hp)
  refine length_bytes_sub ?_
  cases f with
  | dataType q =>
    obtain rfl := Option.some.inj hfp
    exact pb.span_le _ _ hf
  | suid q => cases hfp

end

/-! ### When they agree -/

/-- The C string at a field is its bytes less a trailing NUL exactly if the field ends one. -/
theorem cString_state_iff_ends {buf : PbIstream} (hlen : buf.bytes.length = buf.bytesLeft) :
    cString buf.state = some (trimNul buf.bytes) ↔ buf.Ends := by
  have hstate : buf.bytes ++ buf.state.drop buf.bytesLeft = buf.state :=
    List.take_append_drop ..
  rw [cString_eq_some_iff]
  constructor
  · rintro ⟨hfree, post, hpost⟩
    rw [trimNul] at hfree hpost
    split_ifs at hfree hpost with hlast
    · exact Or.inl ⟨_, hfree, (List.dropLast_append_getLast? 0 hlast).symm⟩
    · refine Or.inr ⟨hfree, ?_⟩
      rw [hpost, ← hlen, List.getElem?_append_right le_rfl, Nat.sub_self]
      rfl
  · rintro (⟨s, hfree, hs⟩ | ⟨hfree, hnext⟩)
    · have htrim : trimNul buf.bytes = s := by
        rw [trimNul, hs, if_pos (List.getLast?_concat ..), List.dropLast_concat]
      rw [hs, List.append_assoc] at hstate
      rw [htrim]
      exact ⟨hfree, buf.state.drop buf.bytesLeft, hstate.symm⟩
    · have htrim : trimNul buf.bytes = buf.bytes :=
        if_neg fun hlast ↦ hfree (List.mem_of_getLast? hlast)
      rw [htrim]
      obtain ⟨hlt, hzero⟩ := List.getElem?_eq_some_iff.1 hnext
      refine ⟨hfree, buf.state.drop (buf.bytesLeft + 1), ?_⟩
      rw [← hzero, ← List.drop_eq_getElem_cons hlt, hstate]

/-- **The decoders agree on a record exactly if its data type ends a C string.** -/
theorem agree_iff {pb : Nanopb} {stream datatype : PbIstream} {suids : List Suid}
    (h : pb.IsSuidRecord stream datatype suids) : Agree pb stream ↔ datatype.Ends := by
  obtain ⟨payload, -, hsuid⟩ := h.payload
  rw [← cString_state_iff_ends hsuid.length_datatype]
  unfold Agree
  rw [suidDecodeEvent_run h, decodeSuids_run h]
  constructor
  · rintro ⟨s, v, hfirst, rest, hsecond⟩
    cases hsecond
    rcases hstring : cString datatype.state with _ | s <;> rw [hstring] at hfirst <;> cases hfirst
    rfl
  · intro hstring
    rw [hstring]
    exact ⟨_, _, rfl, _, rfl⟩

/-! ### A record with and without a NUL -/

/-- The stream of a record that nothing follows. -/
def PbIstream.ofBytes (b : Bytes) : PbIstream :=
  ⟨b, b.length⟩

/-- The payload for one accelerometer. -/
def accelPayload (terminator : Bytes) : Bytes :=
  bytesField 10 (CLib.str "accel" ++ terminator) ++ bytesField 18 (suidBytes 1 2)

/-- The record for one accelerometer. -/
def accelRecord (terminator : Bytes) : PbIstream :=
  .ofBytes (eventBytes 0 (accelPayload terminator))

/-- Its data type. -/
def accelDatatype (terminator : Bytes) : PbIstream :=
  ⟨(accelRecord terminator).state.drop 18, 5 + terminator.length⟩

theorem isSuidEvent_accelPayload {terminator : Bytes} (h : terminator = [] ∨ terminator = [0]) :
    proto.IsSuidEvent ((accelRecord terminator).sub ⟨16, (accelPayload terminator).length⟩)
      (accelDatatype terminator) [⟨1, 2⟩] := by
  have hsuids : (proto.onBytes.suidEvent ((accelRecord terminator).sub
      ⟨16, (accelPayload terminator).length⟩).bytes).fields.filterMap
        Discovery.SuidEventField.suid? = [suidBytes 1 2] := by
    rcases h with rfl | rfl <;> decide +kernel
  refine ⟨?_, ?_, ?_⟩
  · rcases h with rfl | rfl <;> decide +kernel
  · rcases h with rfl | rfl <;> decide +kernel
  · rw [hsuids]
    exact .cons ⟨by decide +kernel, by decide +kernel, by decide +kernel⟩ .nil

theorem isSuidRecord_accelRecord {terminator : Bytes} (h : terminator = [] ∨ terminator = [0]) :
    proto.IsSuidRecord (accelRecord terminator) (accelDatatype terminator) [⟨1, 2⟩] := by
  refine ⟨?_, ?_, _, ?_, isSuidEvent_accelPayload h⟩
  all_goals rcases h with rfl | rfl <;> decide +kernel

/-- The decoders agree on a record with a NUL. -/
theorem agree_iff_accelRecord :
    proto.IsSuidRecord (accelRecord [0]) (accelDatatype [0]) [⟨1, 2⟩] ∧
      (Agree proto (accelRecord [0]) ↔ (accelDatatype [0]).Ends) :=
  ⟨isSuidRecord_accelRecord (Or.inr rfl), agree_iff (isSuidRecord_accelRecord (Or.inr rfl))⟩

/-- They do not agree on a record without: one of them reads on into the list of ids. -/
theorem not_agree_accelRecord :
    proto.IsSuidRecord (accelRecord []) (accelDatatype []) [⟨1, 2⟩] ∧
      suidDecodeEvent proto (accelRecord []) ⟨[], []⟩ =
        (.ok true, ⟨[[⟨1, 2⟩]], [CLib.str "accel" ++ [18, 18, 9, 1]]⟩) ∧
      decodeSuids proto ⟨accelRecord [], [], []⟩ =
        (.ok true, ⟨(accelRecord []).atEnd, [⟨1, 2⟩], CLib.str "accel"⟩) ∧
      ¬ Agree proto (accelRecord []) := by
  have hrecord := isSuidRecord_accelRecord (Or.inl rfl)
  have hfirst := suidDecodeEvent_run hrecord
  have hsecond := decodeSuids_run hrecord
  have hstring : cString (accelDatatype []).state = some (CLib.str "accel" ++ [18, 18, 9, 1]) := by
    decide +kernel
  have htrim : trimNul (accelDatatype []).bytes = CLib.str "accel" := by decide +kernel
  rw [hstring] at hfirst
  rw [htrim] at hsecond
  refine ⟨hrecord, hfirst, hsecond, ?_⟩
  rintro ⟨s, v, hs, rest, hv⟩
  cases hfirst.symm.trans hs
  cases hsecond.symm.trans hv

end SensingHub.QshPb
