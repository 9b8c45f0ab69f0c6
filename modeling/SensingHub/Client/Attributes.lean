import SensingHub.Client.Samples
import SensingHub.QshPb.Attributes
import SensingHub.QshPb.Callbacks

/-!
# The attributes that the client prints

A value of an attribute is a string, a number, a truth value, or again a list of values, to any
depth. The client decodes the values in a value with the function that is decoding that one, while
it is at it, and prints the members of a value when it has been decoded: so values are printed from
the inside out, and an id behind its values (`attributeEvent_prints`).

That function ends, since a value is shorter than the one it stands in.
-/

namespace SensingHub.Client

open Discovery (Suid initialized)
open QshPb (AttrField AttrValueField PbIstream SNS_STD_MSGID_SNS_STD_ATTR_EVENT Span attrBytes
  clientEventBytes decodeString memberBytes pbDecode repeatedBytes storeClientEvent)

variable {τ : Type}

/-! ### Decoding -/

/-- Decode into a value of one's own. -/
def withValue {τ' α : Type} (t : τ') (x : PrintM τ' α) : PrintM τ (α × τ') := fun s ↦
  match x ⟨t, s.lines⟩ with
  | (.ok a, s') => (.ok (a, s'.value), ⟨s.value, s'.lines⟩)
  | (.error e, s') => (.error e, ⟨s.value, s'.lines⟩)

/-- `sns_std_attr_value_data` -/
structure AttrValueData where
  decodedStr : Bytes
  flt : Option UInt32
  sint : Option ℤ
  boolean : Option Bool
  hasSubtype : Bool
  deriving DecidableEq, Repr

/-- `sns_std_attr_value_data_init_zero` -/
def AttrValueData.zero : AttrValueData :=
  ⟨[], none, none, none, false⟩

/-- What is printed of the members of a value. -/
def AttrValueData.lines (data : AttrValueData) : List Line :=
  (if data.decodedStr ≠ [] then [.str (data.decodedStr.takeWhile (· ≠ 0))] else []) ++
    (data.flt.map Line.flt).toList ++ (data.sint.map Line.sint).toList ++
    (data.boolean.map Line.boolean).toList ++ [.hasSubtype data.hasSubtype]

theorem eq_subtypeValue {f : AttrValueField} {p : Span} (h : f.subtypeValue? = some p) :
    f = .subtypeValue p := by
  cases f with
  | subtypeValue q => exact congrArg AttrValueField.subtypeValue (Option.some.inj h)
  | _ => cases h

/-- The fields of an `sns_std_attr_value_data`; `nested` decodes the values of its `subtype`. -/
def storeAttrValue (stream : PbIstream) : (f : AttrValueField) →
    (∀ p, f.subtypeValue? = some p → PrintM AttrValueData Bool) → PrintM AttrValueData Bool
  | .subtype, _ => do
    Prog.modify fun s ↦ { s with value.hasSubtype := true }
    return true
  | .subtypeValue p, nested => nested p rfl
  | .str p, _ => decodeString (fun b s ↦ { s with value.decodedStr := b }) (stream.sub p)
  | .flt v, _ => do
    Prog.modify fun s ↦ { s with value.flt := some v }
    return true
  | .sint v, _ => do
    Prog.modify fun s ↦ { s with value.sint := some v }
    return true
  | .boolean v, _ => do
    Prog.modify fun s ↦ { s with value.boolean := some v }
    return true

section

variable (pb : ClientNanopb)

/-- `decode_attr_value_data` -/
def decodeAttrValueData (τ : Type) (stream : PbIstream) : PrintM τ Bool := do
  let (ok, data) ← withValue .zero ((pb.attrValueData stream.bytes).attach.run fun f ↦
    storeAttrValue stream f.1 fun p _h ↦ decodeAttrValueData AttrValueData (stream.sub p))
  if !ok then return false
  printLines data.lines
  return true
termination_by stream.bytesLeft
decreasing_by
  have hlt := pb.subtypeValue_lt stream.bytes p (eq_subtypeValue _h ▸ f.2)
  have hle : stream.bytes.length ≤ stream.bytesLeft := List.length_take_le ..
  exact hlt.trans_le hle

/-- The fields of an `sns_std_attr`. -/
def storeAttr (stream : PbIstream) : AttrField → PrintM ℤ Bool
  | .attrId v => do
    Prog.modify fun s ↦ { s with value := v }
    return true
  | .value p => decodeAttrValueData pb ℤ (stream.sub p)

/-- `handle_attribute_event` -/
def handleAttributeEvent (stream : PbIstream) : PrintM τ Bool := do
  let (ok, attrId) ← withValue 0 (pbDecode pb.attr (storeAttr pb) stream)
  if !ok then
    printLines [.attrFailed]
    return false
  printLines [.attrId attrId]
  return true

/-- `decode_attribute_event` -/
def decodeAttributeEvent (stream : PbIstream) : PrintM τ Bool := do
  let (ok, event) ← Prog.withLocal ⟨0, none⟩ (pbDecode pb.clientEvent storeClientEvent stream)
  if !ok then
    printLines [.clientEventFailed]
    return false
  let data ← initialized event.data
  if event.msgId = SNS_STD_MSGID_SNS_STD_ATTR_EVENT then
    if !(← pbDecode pb.attrEvent (fun stream p ↦ handleAttributeEvent pb (stream.sub p)) data) then
      printLines [.attrEventFailed]
      return false
  return true

/-- `attributeEvent`, but for the notification. -/
def attributeEvent (stream : PbIstream) : PrintM τ Unit := do
  printLines [.gotAttributeEvent]
  if !(← pbDecode pb.clientEventMsg
      (fun stream p ↦ decodeAttributeEvent pb (stream.sub p)) stream) then
    printLines [.retrieveFailed]

end

/-! ### Messages with attributes -/

/-- A value of an attribute. -/
inductive AttrTree
  | subtype (values : List AttrTree)
  | str (s : Bytes)
  | flt (v : UInt32)
  | sint (v : Int64)
  | boolean (v : Bool)

namespace AttrTree

mutual

/-- `sns_std_attr_value_data` -/
def bytes : AttrTree → Bytes
  | subtype values => memberBytes 1 (.bytes (repeatedBytes (bytesAll values)))
  | str s => memberBytes 2 (.bytes s)
  | flt v => memberBytes 3 (.fixed32 v)
  | sint v => memberBytes 4 (.fixed64 v.toUInt64)
  | boolean v => memberBytes 5 (.varint v.toNat)

/-- The encodings of some values. -/
def bytesAll : List AttrTree → List Bytes
  | [] => []
  | t :: ts => bytes t :: bytesAll ts

end

mutual

/-- What is to be printed of a value: what is in it comes first. -/
def lines : AttrTree → List Line
  | subtype values => linesAll values ++ [.hasSubtype true]
  | str s => (if s ≠ [] then [.str (s.takeWhile (· ≠ 0))] else []) ++ [.hasSubtype false]
  | flt v => [.flt v, .hasSubtype false]
  | sint v => [.sint v.toInt, .hasSubtype false]
  | boolean v => [.boolean v, .hasSubtype false]

/-- What is to be printed of some values. -/
def linesAll : List AttrTree → List Line
  | [] => []
  | t :: ts => lines t ++ linesAll ts

end

theorem bytesAll_eq_map (ts : List AttrTree) : bytesAll ts = ts.map bytes := by
  induction ts with
  | nil => rfl
  | cons t ts ih => rw [bytesAll, ih, List.map_cons]

theorem linesAll_eq_flatMap (ts : List AttrTree) : linesAll ts = ts.flatMap lines := by
  induction ts with
  | nil => rfl
  | cons t ts ih => rw [linesAll, ih, List.flatMap_cons]

end AttrTree

/-- An event of a message with attributes. -/
inductive AttributeEvent
  | attributes (timestamp : UInt64) (attrs : List (Int32 × List AttrTree))
  | other (msgId : UInt32) (ne : msgId ≠ SNS_STD_MSGID_SNS_STD_ATTR_EVENT) (timestamp : UInt64)
    (payload : Bytes)

namespace AttributeEvent

/-- `sns_client_event` -/
def bytes : AttributeEvent → Bytes
  | attributes timestamp attrs =>
    clientEventBytes SNS_STD_MSGID_SNS_STD_ATTR_EVENT timestamp
      (repeatedBytes (attrs.map fun a ↦ attrBytes a.1 (a.2.map AttrTree.bytes)))
  | other msgId _ timestamp payload => clientEventBytes msgId timestamp payload

/-- What is to be printed of an attribute: the values, and then the id. -/
def attrLines (a : Int32 × List AttrTree) : List Line :=
  a.2.flatMap AttrTree.lines ++ [.attrId a.1.toInt]

/-- What is to be printed of an event. -/
def lines : AttributeEvent → List Line
  | attributes _ attrs => attrs.flatMap attrLines
  | other .. => []

end AttributeEvent

/-! ### Printing them -/

theorem withValue_ok {τ' α : Type} {t : τ'} {x : PrintM τ' α} {a : α} {s : Printed τ}
    {s' : Printed τ'} (h : x ⟨t, s.lines⟩ = (.ok a, s')) :
    withValue t x s = (.ok (a, s'.value), ⟨s.value, s'.lines⟩) := by
  rw [withValue, h]

section

variable {pb : ClientNanopb} {stream : PbIstream}

/-- What is done with the fields of a value. -/
def valueField (pb : ClientNanopb) (stream : PbIstream) (f : AttrValueField) :
    PrintM AttrValueData Bool :=
  storeAttrValue stream f fun p _ ↦ decodeAttrValueData pb AttrValueData (stream.sub p)

/-- A value whose fields have been decoded is printed. -/
theorem decodeAttrValueData_of_run {s : Printed τ} {s' : Printed AttrValueData}
    (hrun : pbDecode pb.attrValueData (valueField pb) stream ⟨.zero, s.lines⟩ = (.ok true, s')) :
    decodeAttrValueData pb τ stream s = (.ok true, ⟨s.value, s'.lines ++ s'.value.lines⟩) := by
  rw [pbDecode, ← Decoding.run_attach] at hrun
  simp only [valueField] at hrun
  rw [decodeAttrValueData, Prog.bind_ok (withValue_ok hrun)]
  rfl

/-- The value is printed, wherever it stands. -/
def Prints (pb : ClientNanopb) (t : AttrTree) : Prop :=
  ∀ (τ : Type) (stream : PbIstream), stream.bytes = t.bytes → ∀ s : Printed τ,
    decodeAttrValueData pb τ stream s = (.ok true, s.add t.lines)

/-- The parts of a message that stands at the end of a stream. -/
theorem forall₂_parts {α : Type} {pre : Bytes} {parts : List α} {encode : α → Bytes}
    (h : stream.bytes = pre ++ repeatedBytes (parts.map encode)) :
    List.Forall₂ (fun a p ↦ (stream.sub p).bytes = encode a) parts
      (QshPb.repeatedSpans (stream.bytes.length - (repeatedBytes (parts.map encode)).length)
        (parts.map encode)) := by
  have hmap := QshPb.map_bytes_sub h
  rw [List.map_map, ← List.forall₂_eq_eq_eq, List.forall₂_map_left_iff,
    List.forall₂_map_right_iff] at hmap
  exact hmap.flip

/-- Values are printed in a value. -/
theorem runFields_values {τ' φ : Type} (callback : φ → PrintM τ' Bool) (field : Span → φ)
    {ts : List AttrTree} (hts : ∀ t ∈ ts, Prints pb t)
    (hcallback : ∀ p, callback (field p) = decodeAttrValueData pb τ' (stream.sub p))
    {ps : List Span} (hps : List.Forall₂ (fun t p ↦ (stream.sub p).bytes = AttrTree.bytes t) ts ps)
    (s : Printed τ') :
    Decoding.runFields callback true (ps.map field) s =
      (.ok true, s.add (ts.flatMap AttrTree.lines)) := by
  have hall := ((List.forall₂_and_left ts ps).2 ⟨hts, hps⟩).flip
  rw [← Printed.foldl_add]
  refine Decoding.run_forall₂ (d := ⟨ps.map field, true⟩) callback
    (fun s t ↦ s.add (AttrTree.lines t))
    (List.forall₂_map_left_iff.2 (hall.imp fun p t ht s ↦ ?_)) s
  rw [hcallback]
  exact ht.1 τ' _ ht.2 s

theorem prints_subtype (h : pb.FollowsWireFormat) {ts : List AttrTree}
    (hts : ∀ t ∈ ts, Prints pb t) : Prints pb (.subtype ts) := by
  intro τ stream hbytes s
  rw [AttrTree.bytes, AttrTree.bytesAll_eq_map] at hbytes
  have hfound := h.subtype (ts.map AttrTree.bytes)
  obtain ⟨pre, hpre⟩ := QshPb.exists_prefix_memberBytes 1 (repeatedBytes (ts.map AttrTree.bytes))
  have hps := forall₂_parts (hbytes.trans hpre)
  rw [← hbytes] at hfound
  have hrun : pbDecode pb.attrValueData (valueField pb) stream ⟨.zero, s.lines⟩ = (.ok true,
      (⟨{ AttrValueData.zero with hasSubtype := true }, s.lines⟩ : Printed AttrValueData).add
        (ts.flatMap AttrTree.lines)) := by
    rw [pbDecode, hfound]
    exact (Decoding.runFields_cons (valueField pb stream) rfl true _).trans
      (runFields_values (valueField pb stream) .subtypeValue hts (fun _ ↦ rfl) hps _)
  rw [decodeAttrValueData_of_run hrun, AttrTree.lines, AttrTree.linesAll_eq_flatMap]
  exact congrArg _ (congrArg _ (List.append_assoc ..))

theorem prints_str (h : pb.FollowsWireFormat) (b : Bytes) : Prints pb (.str b) := by
  intro τ stream hbytes s
  have hfound := h.str b
  obtain ⟨pre, hpre⟩ := QshPb.exists_prefix_memberBytes 2 b
  have hp := QshPb.bytes_sub_of_suffix (hbytes.trans hpre)
  rw [← show stream.bytes = memberBytes 2 _ from hbytes] at hfound
  have hrun : pbDecode pb.attrValueData (valueField pb) stream ⟨.zero, s.lines⟩ =
      (.ok true, ⟨{ AttrValueData.zero with decodedStr := b }, s.lines⟩) := by
    have hstr : valueField pb stream (.str ⟨stream.bytes.length - b.length, b.length⟩)
        ⟨.zero, s.lines⟩ = (.ok true, ⟨{ AttrValueData.zero with decodedStr := b }, s.lines⟩) :=
      QshPb.decodeString_run
        (fun b (s : Printed AttrValueData) ↦ { s with value.decodedStr := b }) hp _
    rw [pbDecode, hfound]
    exact Decoding.runFields_cons (valueField pb stream) hstr true []
  rw [decodeAttrValueData_of_run hrun, AttrTree.lines]
  simp [AttrValueData.lines, AttrValueData.zero, Printed.add]

/-- A value with one member that is a number is printed. -/
theorem prints_of_field {t : AttrTree} {f : AttrValueField} (data : AttrValueData)
    (hfound : pb.attrValueData t.bytes = ⟨[f], true⟩)
    (hstore : ∀ stream nested lines, storeAttrValue stream f nested ⟨.zero, lines⟩ =
      (.ok true, ⟨data, lines⟩))
    (hlines : data.lines = t.lines) : Prints pb t := by
  intro τ stream hbytes s
  rw [← hbytes] at hfound
  have hrun : pbDecode pb.attrValueData (valueField pb) stream ⟨.zero, s.lines⟩ =
      (.ok true, ⟨data, s.lines⟩) := by
    rw [pbDecode, hfound]
    exact Decoding.runFields_cons (valueField pb stream) (hstore stream _ s.lines) true []
  rw [decodeAttrValueData_of_run hrun, hlines]
  rfl

mutual

/-- Every value is printed, whatever is in it. -/
theorem prints (h : pb.FollowsWireFormat) : ∀ t : AttrTree, Prints pb t
  | .subtype ts => prints_subtype h (prints_of_mem h ts)
  | .str b => prints_str h b
  | .flt v =>
    prints_of_field { AttrValueData.zero with flt := some v } (h.flt v) (fun _ _ _ ↦ rfl) rfl
  | .sint v =>
    prints_of_field { AttrValueData.zero with sint := some v.toInt } (h.sint v) (fun _ _ _ ↦ rfl)
      rfl
  | .boolean v =>
    prints_of_field { AttrValueData.zero with boolean := some v } (h.boolean v) (fun _ _ _ ↦ rfl)
      rfl

theorem prints_of_mem (h : pb.FollowsWireFormat) : ∀ ts : List AttrTree, ∀ t ∈ ts, Prints pb t
  | [] => nofun
  | t :: ts => List.forall_mem_cons.2 ⟨prints h t, prints_of_mem h ts⟩

end

/-- An attribute is printed. -/
theorem handleAttributeEvent_run (h : pb.FollowsWireFormat) (a : Int32 × List AttrTree)
    (hbytes : stream.bytes = attrBytes a.1 (a.2.map AttrTree.bytes)) (s : Printed τ) :
    handleAttributeEvent pb stream s = (.ok true, s.add (AttributeEvent.attrLines a)) := by
  have hfound := h.attr a.1 (a.2.map AttrTree.bytes)
  obtain ⟨pre, hpre⟩ := QshPb.exists_prefix_attrBytes a.1 (a.2.map AttrTree.bytes)
  have hps := forall₂_parts (hbytes.trans hpre)
  rw [← hbytes] at hfound
  have hrun : pbDecode pb.attr (storeAttr pb) stream ⟨0, s.lines⟩ =
      (.ok true, (⟨a.1.toInt, s.lines⟩ : Printed ℤ).add (a.2.flatMap AttrTree.lines)) := by
    rw [pbDecode, hfound]
    exact (Decoding.runFields_cons (storeAttr pb stream) rfl true _).trans
      (runFields_values (storeAttr pb stream) .value (prints_of_mem h a.2) (fun _ ↦ rfl) hps _)
  rw [handleAttributeEvent, Prog.bind_ok (withValue_ok hrun)]
  dsimp only
  rw [if_neg (by decide), printLines_bind_run, AttributeEvent.attrLines, ← Printed.add_add]
  rfl

/-- An event is printed. -/
theorem decodeAttributeEvent_run (h : pb.FollowsWireFormat) (e : AttributeEvent)
    (hbytes : stream.bytes = e.bytes) (s : Printed τ) :
    decodeAttributeEvent pb stream s = (.ok true, s.add e.lines) := by
  cases e with
  | attributes timestamp attrs =>
    obtain ⟨-, data, hdata, hevent⟩ := clientEvent_of_bytes h hbytes
    have hfound := h.attrEvent (attrs.map fun a ↦ attrBytes a.1 (a.2.map AttrTree.bytes))
    have hps := @forall₂_parts data _ [] attrs _ hdata
    rw [hdata, Nat.sub_self] at hps
    rw [← hdata] at hfound
    have hrun : pbDecode pb.attrEvent (fun stream p ↦ handleAttributeEvent pb (stream.sub p)) data
        s = (.ok true, s.add (attrs.flatMap AttributeEvent.attrLines)) := by
      rw [pbDecode, hfound, ← Printed.foldl_add]
      exact Decoding.run_forall₂ (d := ⟨_, true⟩) (fun p ↦ handleAttributeEvent pb (data.sub p))
        (fun s a ↦ s.add (AttributeEvent.attrLines a))
        (hps.flip.imp fun p a hp s ↦ handleAttributeEvent_run h a hp s) s
    rw [decodeAttributeEvent, Prog.bind_ok (Prog.withLocal_ok hevent s)]
    dsimp only
    rw [if_neg (by decide), QshPb.initialized_some_bind, if_pos rfl, Prog.bind_ok hrun]
    rfl
  | other msgId ne timestamp payload =>
    obtain ⟨-, data, -, hevent⟩ := clientEvent_of_bytes h hbytes
    rw [decodeAttributeEvent, Prog.bind_ok (Prog.withLocal_ok hevent s)]
    dsimp only
    rw [if_neg (by decide), QshPb.initialized_some_bind, if_neg ne, AttributeEvent.lines,
      Printed.add_nil]
    rfl

/-- **Attributes are printed from the inside out**: of every message with attributes, for each value
first the values in it, to any depth, then its member, and behind the values of an attribute its id;
the events, their attributes and the values are in order, and events of other kinds are passed
over. -/
theorem attributeEvent_prints (h : pb.FollowsWireFormat) (uid : Suid)
    (events : List AttributeEvent)
    (hbytes : stream.bytes = clientEventMsgBytes uid (events.map AttributeEvent.bytes))
    (s : Printed τ) :
    attributeEvent pb stream s =
      (.ok (), s.add (.gotAttributeEvent :: events.flatMap AttributeEvent.lines)) := by
  have hfound := h.clientEventMsg uid (events.map AttributeEvent.bytes)
  have hevents := List.forall₂_map_right_iff.1 (forall₂_events hbytes)
  rw [← hbytes] at hfound
  have hrun : pbDecode pb.clientEventMsg
      (fun stream p ↦ decodeAttributeEvent pb (stream.sub p)) stream (s.add [.gotAttributeEvent]) =
      (.ok true, (s.add [.gotAttributeEvent]).add (events.flatMap AttributeEvent.lines)) := by
    rw [pbDecode, hfound, ← Printed.foldl_add]
    exact Decoding.run_forall₂ (d := ⟨_, true⟩) (fun p ↦ decodeAttributeEvent pb (stream.sub p))
      (fun s e ↦ s.add (AttributeEvent.lines e))
      (hevents.imp fun p e he s ↦ decodeAttributeEvent_run h e he s) _
  rw [attributeEvent, printLines_bind_run, Prog.bind_ok hrun, Printed.add_add]
  rfl

end

/-- A resolution within a range within another, with the name behind it, and an event that is none
of attributes. -/
def nestedAttributes : List AttributeEvent :=
  [.attributes 7 [(-1, [.subtype [.subtype [.flt 3], .boolean true], .str [97, 0, 98]]), (2, [])],
    .other 769 (by decide) 8 []]

theorem attributeEvent_prints_nestedAttributes :
    attributeEvent protoClient
        (.ofBytes (clientEventMsgBytes ⟨1, 2⟩ (nestedAttributes.map AttributeEvent.bytes)))
        (⟨(), []⟩ : Printed Unit) =
      (.ok (), ⟨(), [.gotAttributeEvent, .flt 3, .hasSubtype false, .hasSubtype true, .boolean true,
        .hasSubtype false, .hasSubtype true, .str [97], .hasSubtype false, .attrId (-1),
        .attrId 2]⟩) :=
  attributeEvent_prints protoClient_followsWireFormat ⟨1, 2⟩ nestedAttributes
    (QshPb.bytes_ofBytes _) _

end SensingHub.Client
