import SensingHub.QshPb.WireFormat

/-!
# One kind for each value

A value of an attribute is one of five members of a `oneof`, and exactly one of the `has_` flags is
to be true after decoding. `decode_attribute_value` looks at the members one after another: for a
string at its buffer and length, for the others at whether they are there. So a string that is empty
is passed over like one that is not there, and no flag is set for it; every other value has the flag
of its member and no other (`kindsStored_iff`).
-/

namespace SensingHub.QshPb

/-! ### Kinds of values -/

/-- The members of the `oneof`. -/
inductive Kind
  | subtype
  | str
  | flt
  | sint
  | boolean
  deriving DecidableEq, Repr

/-- The member that a field belongs to. -/
def AttrValueField.kind : AttrValueField → Kind
  | .subtype | .subtypeValue _ => .subtype
  | .str _ => .str
  | .flt _ => .flt
  | .sint _ => .sint
  | .boolean _ => .boolean

/-- The field is a member itself. -/
def AttrValueField.IsMember : AttrValueField → Prop
  | .subtypeValue _ => False
  | _ => True

/-- The `has_` flag of a kind. -/
def Attribute.has (attr : Attribute) : Kind → Bool
  | .subtype => attr.hasSubtype
  | .str => attr.hasStr
  | .flt => attr.hasFlt
  | .sint => attr.hasSint
  | .boolean => attr.hasBoolean

/-- Exactly the flag of the kind is set. -/
def Attribute.IsOf (attr : Attribute) (k : Kind) : Prop :=
  ∀ j, attr.has j = decide (j = k)

/-- The value carries the member `k` and no other. -/
structure Nanopb.Carries (pb : Nanopb) (stream : PbIstream) (k : Kind) : Prop where
  member : ∃ f ∈ (pb.attrValueData stream.bytes).fields, f.IsMember
  only : ∀ f ∈ (pb.attrValueData stream.bytes).fields, f.kind = k

/-- The value has a string, and it is empty. -/
def Nanopb.EmptyStr (pb : Nanopb) (stream : PbIstream) : Prop :=
  ∃ p, (pb.attrValueData stream.bytes).last AttrValueField.str? = some p ∧
    (stream.sub p).bytes = []

/-! ### The kind of a decoded value -/

section

variable {pb : Nanopb} {stream : PbIstream} {k : Kind}

/-- What belongs to another member is not found. -/
theorem last_of_ne_kind {α : Type} (h : pb.Carries stream k) {f : AttrValueField → Option α}
    {j : Kind} (hf : ∀ x, x.kind ≠ j → f x = none) (hne : k ≠ j) :
    (pb.attrValueData stream.bytes).last f = none :=
  Decoding.last_eq_none fun x hx ↦ hf x fun hj ↦ hne ((h.only x hx).symm.trans hj)

/-- The member itself is found. -/
theorem exists_last_of_kind {α : Type} (h : pb.Carries stream k) {f : AttrValueField → Option α}
    (hf : ∀ x, x.kind = k → x.IsMember → ∃ a, f x = some a) :
    ∃ a, (pb.attrValueData stream.bytes).last f = some a := by
  obtain ⟨x, hx, hmember⟩ := h.member
  obtain ⟨a, ha⟩ := hf x (h.only x hx) hmember
  exact Decoding.exists_last hx ha

theorem str?_of_ne (f : AttrValueField) (h : f.kind ≠ .str) : f.str? = none := by
  cases f <;> first | rfl | exact absurd rfl h

theorem flt?_of_ne (f : AttrValueField) (h : f.kind ≠ .flt) : f.flt? = none := by
  cases f <;> first | rfl | exact absurd rfl h

theorem sint?_of_ne (f : AttrValueField) (h : f.kind ≠ .sint) : f.sint? = none := by
  cases f <;> first | rfl | exact absurd rfl h

theorem boolean?_of_ne (f : AttrValueField) (h : f.kind ≠ .boolean) : f.boolean? = none := by
  cases f <;> first | rfl | exact absurd rfl h

/-- A `subtype` is there if the value is of that kind. -/
theorem any_isSubtype (h : pb.Carries stream k) :
    (pb.attrValueData stream.bytes).fields.any AttrValueField.isSubtype =
      decide (k = .subtype) := by
  rw [Bool.eq_iff_iff, decide_eq_true_iff, List.any_eq_true]
  constructor
  · rintro ⟨x, hx, hsubtype⟩
    rw [← h.only x hx]
    cases x <;> first | rfl | cases hsubtype
  · rintro rfl
    obtain ⟨x, hx, hmember⟩ := h.member
    have hkind := h.only x hx
    refine ⟨x, hx, ?_⟩
    cases x <;> first | rfl | exact hmember.elim | cases hkind

/-- **A value has the flag of its kind and no other, unless it is an empty string.** -/
theorem isOf_iff (h : pb.Carries stream k) :
    (pb.valueData stream).toAttribute.IsOf k ↔ ¬ pb.EmptyStr stream := by
  have hsubtype := any_isSubtype h
  have hflt := last_of_ne_kind h flt?_of_ne
  have hsint := last_of_ne_kind h sint?_of_ne
  have hboolean := last_of_ne_kind h boolean?_of_ne
  have hnot (hstr : (pb.attrValueData stream.bytes).last AttrValueField.str? = none) :
      ¬ pb.EmptyStr stream := by
    rintro ⟨p, hp, -⟩
    cases hstr.symm.trans hp
  unfold Nanopb.valueData
  cases k with
  | subtype =>
    have hstr := last_of_ne_kind h str?_of_ne nofun
    rw [hstr, hflt nofun, hsint nofun, hboolean nofun, hsubtype]
    exact iff_of_true (fun j ↦ by cases j <;> rfl) (hnot hstr)
  | flt =>
    obtain ⟨v, hv⟩ := exists_last_of_kind h (f := AttrValueField.flt?) fun x hk _ ↦ by
      cases x <;> first | exact ⟨_, rfl⟩ | cases hk
    have hstr := last_of_ne_kind h str?_of_ne nofun
    rw [hstr, hv, hsint nofun, hboolean nofun, hsubtype]
    exact iff_of_true (fun j ↦ by cases j <;> rfl) (hnot hstr)
  | sint =>
    obtain ⟨v, hv⟩ := exists_last_of_kind h (f := AttrValueField.sint?) fun x hk _ ↦ by
      cases x <;> first | exact ⟨_, rfl⟩ | cases hk
    have hstr := last_of_ne_kind h str?_of_ne nofun
    rw [hstr, hflt nofun, hv, hboolean nofun, hsubtype]
    exact iff_of_true (fun j ↦ by cases j <;> rfl) (hnot hstr)
  | boolean =>
    obtain ⟨v, hv⟩ := exists_last_of_kind h (f := AttrValueField.boolean?) fun x hk _ ↦ by
      cases x <;> first | exact ⟨_, rfl⟩ | cases hk
    have hstr := last_of_ne_kind h str?_of_ne nofun
    rw [hstr, hflt nofun, hsint nofun, hv, hsubtype]
    exact iff_of_true (fun j ↦ by cases j <;> rfl) (hnot hstr)
  | str =>
    obtain ⟨p, hp⟩ := exists_last_of_kind h (f := AttrValueField.str?) fun x hk _ ↦ by
      cases x <;> first | exact ⟨_, rfl⟩ | cases hk
    have hempty : pb.EmptyStr stream ↔ (stream.sub p).bytes = [] := by
      refine ⟨?_, fun hnil ↦ ⟨p, hp, hnil⟩⟩
      rintro ⟨q, hq, hnil⟩
      cases hp.symm.trans hq
      exact hnil
    rw [hp, hflt nofun, hsint nofun, hboolean nofun, hsubtype, hempty]
    -- the flag of a string is that it is not empty
    by_cases hnil : (stream.sub p).bytes = []
    · refine iff_of_false (fun hof ↦ ?_) (not_not.2 hnil)
      have hstr := hof .str
      simp [AttrValueData.toAttribute, Attribute.has, Attribute.zero, hnil] at hstr
    · refine iff_of_true (fun j ↦ ?_) hnil
      cases j <;> simp [AttrValueData.toAttribute, Attribute.has, Attribute.zero, hnil]

end

/-! ### The kinds of what is stored -/

section

variable {pb : Nanopb} {payload : PbIstream}

/-- The values that the event stores under an id: those of the last attribute with it. -/
def Nanopb.lastValues (pb : Nanopb) (payload : PbIstream) (id : ℤ) : Option (List PbIstream) :=
  Table.firstFor ((pb.attrStreams payload).map fun s ↦ (pb.attrId s, pb.valueStreams s)).reverse id

/-- The values of the event each carry one member. -/
def Nanopb.ValuesCarry (pb : Nanopb) (payload : PbIstream) : Prop :=
  ∀ s ∈ pb.attrStreams payload, ∀ v ∈ pb.valueStreams s, ∃ k, pb.Carries v k

/-- Each of the values that the event stores has exactly the flag of the member that it carries. -/
def Nanopb.KindsStored (pb : Nanopb) (payload : PbIstream)
    (attributes : Table ℤ (List Attribute)) : Prop :=
  ∀ id values, pb.lastValues payload id = some values →
    ∃ attrs, attributes id = some attrs ∧
      List.Forall₂ (fun v attr ↦ ∀ k, pb.Carries v k → attr.IsOf k) values attrs

/-- What the map holds when an event has been decoded. -/
theorem attributes_apply {ctx : SensorAttributes} (h : pb.IsAttrRecord ctx.stream payload)
    (hok : (decodeAttributes pb ctx).1 = .ok true) (id : ℤ) :
    (decodeAttributes pb ctx).2.attributes id =
      ((pb.lastValues payload id).map fun values ↦
        values.map fun v ↦ (pb.valueData v).toAttribute).or (ctx.attributes id) := by
  rw [decodeAttributes_run h] at hok ⊢
  have hall := decodedAttrs_of_decodes (Except.ok.inj hok)
  have hentries : (pb.attrStreams payload).map pb.entry =
      ((pb.attrStreams payload).map fun s ↦ (pb.attrId s, pb.valueStreams s)).map fun e ↦
        (e.1, e.2.map fun v ↦ (pb.valueData v).toAttribute) := by
    rw [List.map_map]
    rfl
  show ctx.attributes.assignAll ((pb.decodedAttrs payload).map pb.entry) id = _
  rw [hall, Table.assignAll_apply, hentries, ← List.map_reverse, Table.firstFor_map]
  rfl

/-- The values that are stored are among those of the event. -/
theorem carries_of_lastValues (h : pb.ValuesCarry payload) {id : ℤ} {values : List PbIstream}
    (hlast : pb.lastValues payload id = some values) {v : PbIstream} (hv : v ∈ values) :
    ∃ k, pb.Carries v k := by
  obtain ⟨s, hs, heq⟩ := List.mem_map.1 (List.mem_reverse.1 (Table.mem_of_firstFor hlast))
  rw [Prod.mk.injEq] at heq
  exact h s hs v (heq.2 ▸ hv)

end

/-- **An attribute event is stored with one kind for each value, the one on the wire, exactly if
none of the values that it stores is an empty string.** -/
theorem kindsStored_iff {pb : Nanopb} {ctx : SensorAttributes} {payload : PbIstream}
    (h : pb.IsAttrRecord ctx.stream payload) (hok : (decodeAttributes pb ctx).1 = .ok true)
    (hvalues : pb.ValuesCarry payload) :
    pb.KindsStored payload (decodeAttributes pb ctx).2.attributes ↔
      ∀ id values, pb.lastValues payload id = some values → ∀ v ∈ values, ¬ pb.EmptyStr v := by
  have hstored : ∀ id values, pb.lastValues payload id = some values →
      (decodeAttributes pb ctx).2.attributes id =
        some (values.map fun v ↦ (pb.valueData v).toAttribute) := by
    intro id values hlast
    rw [attributes_apply h hok, hlast]
    rfl
  constructor
  · intro hkinds id values hlast v hv
    obtain ⟨attrs, hattrs, hforall⟩ := hkinds id values hlast
    obtain rfl := Option.some.inj ((hstored id values hlast).symm.trans hattrs)
    obtain ⟨k, hk⟩ := carries_of_lastValues hvalues hlast hv
    rw [List.forall₂_map_right_iff, List.forall₂_same] at hforall
    exact (isOf_iff hk).1 (hforall v hv k hk)
  · intro hnonempty id values hlast
    refine ⟨_, hstored id values hlast, ?_⟩
    rw [List.forall₂_map_right_iff, List.forall₂_same]
    intro v hv k hk
    exact (isOf_iff hk).2 (hnonempty id values hlast v hv)

/-- A record whose values are a string that is a single NUL, and a `subtype` without values. -/
def boundaryRecord : PbIstream :=
  .ofBytes [13, 128, 0, 0, 0, 17, 0, 0, 0, 0, 0, 0, 0, 0, 26, 15,
    10, 13, 8, 5, 18, 9, 10, 3, 18, 1, 0, 10, 2, 10, 0]

theorem kindsStored_boundaryRecord :
    proto.KindsStored ⟨boundaryRecord.state.drop 16, 15⟩
      (decodeAttributes proto ⟨boundaryRecord, Table.empty⟩).2.attributes := by
  have hstreams : proto.attrStreams ⟨boundaryRecord.state.drop 16, 15⟩ =
      [⟨boundaryRecord.state.drop 18, 13⟩] := by decide
  have hvalues : proto.valueStreams ⟨boundaryRecord.state.drop 18, 13⟩ =
      [⟨boundaryRecord.state.drop 24, 3⟩, ⟨boundaryRecord.state.drop 29, 2⟩] := by decide
  have hlast : ∀ id values, proto.lastValues ⟨boundaryRecord.state.drop 16, 15⟩ id = some values →
      values = [⟨boundaryRecord.state.drop 24, 3⟩, ⟨boundaryRecord.state.drop 29, 2⟩] := by
    intro id values h
    rw [Nanopb.lastValues, hstreams] at h
    obtain ⟨-, rfl⟩ := Prod.mk.inj (List.mem_singleton.1 (Table.mem_of_firstFor h))
    exact hvalues
  have hcarries : proto.ValuesCarry ⟨boundaryRecord.state.drop 16, 15⟩ := by
    intro s hs v hv
    rw [hstreams] at hs
    rw [List.mem_singleton.1 hs, hvalues] at hv
    rcases List.mem_cons.1 hv with rfl | hv
    · exact ⟨.str, ⟨.str ⟨2, 1⟩, by decide, trivial⟩, by decide⟩
    · rw [List.mem_singleton.1 hv]
      exact ⟨.subtype, ⟨.subtype, by decide, trivial⟩, by decide⟩
  have hrecord : proto.IsAttrRecord boundaryRecord ⟨boundaryRecord.state.drop 16, 15⟩ :=
    ⟨by decide, rfl, by decide⟩
  refine (@kindsStored_iff _ ⟨boundaryRecord, Table.empty⟩ _ hrecord (by decide)
    hcarries).2 fun id values h v hv ↦ ?_
  rw [hlast id values h] at hv
  have hstr : (proto.attrValueData [18, 1, 0]).last AttrValueField.str? = some ⟨2, 1⟩ := by decide
  have hsubtype : (proto.attrValueData [10, 0]).last AttrValueField.str? = none := by decide
  rintro ⟨p, hp, hnil⟩
  rcases List.mem_cons.1 hv with rfl | hv
  · cases hstr.symm.trans hp
    exact absurd hnil (by decide)
  · rw [List.mem_singleton.1 hv] at hp
    cases hsubtype.symm.trans hp

/-- The record of an attribute event with one attribute, whose one value is an empty `str`. -/
def emptyStrRecord : PbIstream :=
  .ofBytes [13, 128, 0, 0, 0, 17, 0, 0, 0, 0, 0, 0, 0, 0, 26, 10,
    10, 8, 8, 5, 18, 4, 10, 2, 18, 0]

/-- Each of its values carries one member, and no flag is set for it. -/
theorem not_kindsStored_emptyStrRecord :
    proto.IsAttrRecord emptyStrRecord ⟨emptyStrRecord.state.drop 16, 10⟩ ∧
      (decodeAttributes proto ⟨emptyStrRecord, Table.empty⟩).1 = .ok true ∧
      proto.ValuesCarry ⟨emptyStrRecord.state.drop 16, 10⟩ ∧
      (decodeAttributes proto ⟨emptyStrRecord, Table.empty⟩).2.attributes 5 =
        some [Attribute.zero] ∧
      ¬ proto.KindsStored ⟨emptyStrRecord.state.drop 16, 10⟩
        (decodeAttributes proto ⟨emptyStrRecord, Table.empty⟩).2.attributes := by
  have hstreams : proto.attrStreams ⟨emptyStrRecord.state.drop 16, 10⟩ =
      [⟨emptyStrRecord.state.drop 18, 8⟩] := by decide
  have hvalues : proto.valueStreams ⟨emptyStrRecord.state.drop 18, 8⟩ =
      [⟨emptyStrRecord.state.drop 24, 2⟩] := by decide
  have hstr : proto.Carries ⟨emptyStrRecord.state.drop 24, 2⟩ .str :=
    ⟨⟨.str ⟨2, 0⟩, by decide, trivial⟩, by decide⟩
  have hstored : (decodeAttributes proto ⟨emptyStrRecord, Table.empty⟩).2.attributes 5 =
      some [Attribute.zero] := by decide
  refine ⟨⟨by decide, rfl, by decide⟩, by decide, ?_, hstored, fun hkinds ↦ ?_⟩
  · intro s hs v hv
    rw [hstreams] at hs
    rw [List.mem_singleton.1 hs, hvalues] at hv
    rw [List.mem_singleton.1 hv]
    exact ⟨.str, hstr⟩
  · obtain ⟨attrs, hattrs, hforall⟩ :=
      hkinds 5 [⟨emptyStrRecord.state.drop 24, 2⟩] (by decide)
    obtain rfl := Option.some.inj (hstored.symm.trans hattrs)
    cases hforall with
    | cons hof _ => exact absurd (hof .str hstr .str) (by decide)

end SensingHub.QshPb
