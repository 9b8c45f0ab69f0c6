import SensingHub.Json.Hub

/-!
# Items in any order

What a group says of its hub and in which order: `updateSensingHubInfo` is called for one item after
another and makes an entry once it knows enough for one. Most items may come in any order. The
number of a service or of channels is only taken when the type of the communication is known; that
of channels only behind an attribute of `.client_comm`; and the name of a link is entered for the
hub whose id has been read, while it is being read.

Where a group keeps to that, the tables hold what it says when it has been read, and the scratch
members are back where they started but for the two flags.
-/

namespace SensingHub.Json

open CLib (str atoi)

/-! ### What a group says -/

/-- The value of an item that has data. -/
def Call.value (c : Call) : Bytes :=
  c.data.getD []

/-- The values of the items with a key. -/
def valuesOf (key : Bytes) (cs : List Call) : List Bytes :=
  (cs.filter fun c ↦ c.key = key).map Call.value

/-- A hub as the tables hold it. -/
structure HubEntry where
  platform : Bytes
  hubId : ℤ
  commType : Bytes
  attrs : ℤ
  link : Option Bytes
  deriving DecidableEq, Repr

namespace HubEntry

/-- The values are none that stand for something missing. -/
structure Valid (e : HubEntry) : Prop where
  platform_ne : e.platform ≠ []
  hubId_ne : e.hubId ≠ -1
  commType : e.commType = COMM_TYPE_QMI ∨ e.commType = COMM_TYPE_GLINK
  attrs_ne : e.attrs ≠ -1

/-- The key of the item with the service or the number of channels. -/
def attrsKey (e : HubEntry) : Bytes :=
  if e.commType = COMM_TYPE_QMI then str "service_id" else str "no_of_channels"

/-- The items describe the hub, whatever order they stand in and whatever other items there are. -/
structure SaidBy (e : HubEntry) (cs : List Call) : Prop where
  platform : valuesOf (str "platform_id") cs = [e.platform]
  hubId : (valuesOf (str "sensing_hub_id") cs).map atoi = [e.hubId]
  commType : valuesOf (str "client_comm_type") cs = [e.commType]
  attrs : (valuesOf e.attrsKey cs).map atoi = [e.attrs]
  link : (valuesOf (str "link_name") cs).filter (· ≠ str "apps") = e.link.toList
  clientComm : ∀ c ∈ cs, c.key = str "service_id" ∨ c.key = str "link_name" →
    c.grpName = str ".client_comm"
  channels : e.commType = COMM_TYPE_GLINK → ∀ c ∈ cs, c.key ≠ str "service_id" ∧
    (c.key = str "no_of_channels" → c.grpName ≠ str ".client_comm")

instance (e : HubEntry) : Decidable e.Valid :=
  decidable_of_iff (e.platform ≠ [] ∧ e.hubId ≠ -1 ∧
      (e.commType = COMM_TYPE_QMI ∨ e.commType = COMM_TYPE_GLINK) ∧ e.attrs ≠ -1)
    ⟨fun h ↦ ⟨h.1, h.2.1, h.2.2.1, h.2.2.2⟩,
      fun h ↦ ⟨h.platform_ne, h.hubId_ne, h.commType, h.attrs_ne⟩⟩

end HubEntry

/-! ### In which order -/

/-- The keys of items. -/
def keysOf (cs : List Call) : List Bytes :=
  cs.map Call.key

/-- An item that the parser takes for an attribute of the communication. -/
def Call.IsAttribute (c : Call) : Prop :=
  c.key ∉ knownKeys ∧ c.value ≠ str "apps"

instance (c : Call) : Decidable c.IsAttribute := inferInstanceAs (Decidable (_ ∧ _))

/-- Whether there is an attribute from the last item of `.client_comm` on, if there is such an
item. -/
def attributeRead (cs : List Call) : Option Bool :=
  cs.foldl (fun read c ↦ if c.grpName = str ".client_comm" then some (decide c.IsAttribute)
    else read.map (· || decide c.IsAttribute)) none

namespace HubEntry

/-- An item can be used behind some others. -/
structure Fits (e : HubEntry) (pre : List Call) (c : Call) : Prop where
  /-- The service comes behind the type, and the number of channels behind an attribute as well. -/
  attrs : c.key = e.attrsKey → str "client_comm_type" ∈ keysOf pre ∧
    (e.commType = COMM_TYPE_GLINK → attributeRead pre = some true)
  /-- The link comes behind the id, and before all that is wanted of the hub has been read. -/
  link : c.key = str "link_name" → c.value ≠ str "apps" → str "sensing_hub_id" ∈ keysOf pre ∧
    ¬ (str "platform_id" ∈ keysOf pre ∧ e.attrsKey ∈ keysOf pre)

instance (e : HubEntry) (pre : List Call) (c : Call) : Decidable (e.Fits pre c) :=
  decidable_of_iff
    ((c.key = e.attrsKey → str "client_comm_type" ∈ keysOf pre ∧
        (e.commType = COMM_TYPE_GLINK → attributeRead pre = some true)) ∧
      (c.key = str "link_name" → c.value ≠ str "apps" → str "sensing_hub_id" ∈ keysOf pre ∧
        ¬ (str "platform_id" ∈ keysOf pre ∧ e.attrsKey ∈ keysOf pre)))
    ⟨fun h ↦ ⟨h.1, h.2⟩, fun h ↦ ⟨h.attrs, h.link⟩⟩

/-- The items stand in an order the parser can use. -/
def InOrder (e : HubEntry) (cs : List Call) : Prop :=
  ∀ pre c post, cs = pre ++ c :: post → e.Fits pre c

theorem inOrder_iff {e : HubEntry} {cs : List Call} :
    e.InOrder cs ↔ ∀ i (h : i < cs.length), e.Fits (cs.take i) cs[i] := by
  constructor
  · intro horder i hi
    exact horder (cs.take i) cs[i] (cs.drop (i + 1)) (by simp)
  · rintro hfits pre c post rfl
    simpa using hfits pre.length (by simp)

instance (e : HubEntry) (cs : List Call) : Decidable (e.InOrder cs) :=
  decidable_of_iff _ inOrder_iff.symm

end HubEntry

/-- The tables with a hub added to them. -/
def QshJsonParser.addEntry (p : QshJsonParser) (e : HubEntry) : QshJsonParser :=
  { p with
    mHubIds := p.mHubIds ++ [e.hubId]
    mSensingHubNameIdMap := p.mSensingHubNameIdMap.insert e.platform e.hubId
    mSensingHubIdNameMap :=
      match e.link with
      | none => p.mSensingHubIdNameMap
      | some link => p.mSensingHubIdNameMap.assign e.hubId link
    mSensingHubCommMap := p.mSensingHubCommMap.insert e.hubId (e.commType, e.attrs) }

/-! ### What has been read so far -/

/-- The items of a hub that have been read. -/
structure ItemsRead where
  platform : Bool
  hubId : Bool
  commType : Bool
  attrs : Bool
  link : Bool
  deriving DecidableEq, Repr

namespace ItemsRead

/-- There is an entry for the name table. -/
def named (s : ItemsRead) : Bool :=
  s.platform && s.hubId

/-- There is an entry for the communication table. -/
def connected (s : ItemsRead) : Bool :=
  s.hubId && s.attrs

/-- Both tables have their entries. -/
def complete (s : ItemsRead) : Bool :=
  s.named && s.connected

theorem complete_of_attrs {s : ItemsRead} (h : s.attrs = false) : s.complete = false := by
  rw [complete, connected, h, Bool.and_false, Bool.and_false]

end ItemsRead

namespace HubEntry

/-- The scratch members while the items of `s` are known. -/
def scratch (e : HubEntry) (s : ItemsRead) (nameFilled commFilled grp attr : Bool) : Scratch where
  mReadCommAttr := attr
  mIsClientCommGrp := grp
  mSensingHubId := if s.hubId then e.hubId else -1
  mPlatformId := if s.platform then e.platform else []
  mClientCommType := if s.commType then e.commType else []
  mClientCommValue := if s.attrs then e.attrs else -1
  mSensingHubNameIdMapFilled := nameFilled
  mCommMapFilled := commFilled

/-- The parser object while the items of `s` are known. -/
def pending (e : HubEntry) (p : QshJsonParser) (s : ItemsRead)
    (nameFilled commFilled grp attr : Bool) : QshJsonParser :=
  { p with
    mHubIds := if s.hubId then p.mHubIds ++ [e.hubId] else p.mHubIds
    mSensingHubNameIdMap :=
      if nameFilled then p.mSensingHubNameIdMap.insert e.platform e.hubId
      else p.mSensingHubNameIdMap
    mSensingHubIdNameMap :=
      match s.link, e.link with
      | true, some link => p.mSensingHubIdNameMap.assign e.hubId link
      | _, _ => p.mSensingHubIdNameMap
    mSensingHubCommMap :=
      if commFilled then p.mSensingHubCommMap.insert e.hubId (e.commType, e.attrs)
      else p.mSensingHubCommMap
    scratch := e.scratch s nameFilled commFilled grp attr }

/-- The scratch members at the start but for the two flags. -/
def started (grp attr : Bool) : Scratch :=
  { Scratch.initial with mIsClientCommGrp := grp, mReadCommAttr := attr }

/-- The parser object when the items of `s` have been read. -/
def state (e : HubEntry) (p : QshJsonParser) (s : ItemsRead) (grp attr : Bool) : QshJsonParser :=
  if s.complete then { e.pending p s true true grp attr with scratch := started grp attr }
  else e.pending p s s.named s.connected grp attr

variable {e : HubEntry} {p : QshJsonParser} {s : ItemsRead}

/-- The entry of the name table is made once both ids are known. -/
theorem fillNameIdMap_pending (hv : e.Valid) {nameFilled : Bool}
    (h : nameFilled = true → s.named = true) (commFilled grp attr : Bool) :
    (e.pending p s nameFilled commFilled grp attr).fillNameIdMap =
      e.pending p s s.named commFilled grp attr := by
  have hplatform := hv.platform_ne
  have hid := hv.hubId_ne
  obtain ⟨platform, hubId, commType, attrs, link⟩ := s
  unfold QshJsonParser.fillNameIdMap pending scratch ItemsRead.named at *
  cases platform <;> cases hubId <;> cases nameFilled <;> simp_all [Scratch.HasName]

/-- The entry of the communication table is made once the id and the number are known. -/
theorem fillCommMap_pending (hv : e.Valid) (hs : s.attrs = true → s.commType = true)
    {commFilled : Bool} (h : commFilled = true → s.connected = true) (nameFilled grp attr : Bool) :
    (e.pending p s nameFilled commFilled grp attr).fillCommMap =
      e.pending p s nameFilled s.connected grp attr := by
  have hid := hv.hubId_ne
  have hattrs := hv.attrs_ne
  have htype : e.commType ≠ [] := by
    rcases hv.commType with h | h <;> rw [h] <;> decide
  obtain ⟨platform, hubId, commType, attrs, link⟩ := s
  unfold QshJsonParser.fillCommMap pending scratch ItemsRead.connected at *
  cases hubId <;> cases attrs <;> cases commFilled <;> simp_all [Scratch.HasComm]

/-- What follows the cases on the key: the tables are filled, and the scratch members start over
when both have been. -/
theorem settle (hv : e.Valid) (hs : s.attrs = true → s.commType = true)
    {nameFilled commFilled : Bool} (hname : nameFilled = true → s.named = true)
    (hcomm : commFilled = true → s.connected = true) (grp attr : Bool) :
    (e.pending p s nameFilled commFilled grp attr).fillNameIdMap.fillCommMap.startOver =
      e.state p s grp (attr && !s.complete) := by
  rw [fillNameIdMap_pending hv hname, fillCommMap_pending hv hs hcomm]
  unfold state QshJsonParser.startOver ItemsRead.complete pending scratch started
  cases s.named <;> cases s.connected <;> simp [Scratch.initial]

/-! ### One item -/

/-- The first item of `.client_comm` sets the flag. -/
def enter (grpName : Bytes) (grp : Bool) : Bool :=
  grp || decide (grpName = str ".client_comm")

/-- An item while not all is known: `readKey`, and what follows it. -/
theorem updateSensingHubInfo_pending {t : ItemsRead}
    {nameFilled commFilled grp attr grp' attr' : Bool} {grpName key value : Bytes} (hv : e.Valid)
    (hread : (e.pending p s nameFilled commFilled (enter grpName grp) attr).readKey key value =
      e.pending p t nameFilled commFilled grp' attr')
    (ht : t.attrs = true → t.commType = true) (hname : nameFilled = true → t.named = true)
    (hcomm : commFilled = true → t.connected = true) :
    (e.pending p s nameFilled commFilled grp attr).updateSensingHubInfo grpName key value =
      e.state p t grp' (attr' && !t.complete) := by
  have henter : (if grpName = str ".client_comm" then
      { e.pending p s nameFilled commFilled grp attr with scratch.mIsClientCommGrp := true }
      else e.pending p s nameFilled commFilled grp attr) =
      e.pending p s nameFilled commFilled (enter grpName grp) attr := by
    unfold enter
    split_ifs with hgrp
    · rw [decide_eq_true hgrp, Bool.or_true]
      rfl
    · rw [decide_eq_false hgrp, Bool.or_false]
  rw [QshJsonParser.updateSensingHubInfo, henter, hread, settle hv ht hname hcomm]

section

variable {nameFilled commFilled grp attr : Bool} {value : Bytes}

theorem readKey_platform :
    (e.pending p s nameFilled commFilled grp attr).readKey (str "platform_id") e.platform =
      e.pending p { s with platform := true } nameFilled commFilled grp attr := by
  rw [QshJsonParser.readKey, if_pos rfl]
  rfl

theorem readKey_hubId (hs : s.hubId = false) (hvalue : atoi value = e.hubId) :
    (e.pending p s nameFilled commFilled grp attr).readKey (str "sensing_hub_id") value =
      e.pending p { s with hubId := true } nameFilled commFilled grp attr := by
  rw [QshJsonParser.readKey, if_neg (by decide), if_pos rfl, hvalue]
  simp [pending, scratch, hs]

theorem readKey_commType :
    (e.pending p s nameFilled commFilled grp attr).readKey (str "client_comm_type") e.commType =
      e.pending p { s with commType := true } nameFilled commFilled grp attr := by
  rw [QshJsonParser.readKey, if_neg (by decide), if_neg (by decide), if_pos rfl]
  rfl

/-- The service of a hub whose type is known. -/
theorem readKey_service (hs : s.commType = true) (htype : e.commType = COMM_TYPE_QMI)
    (hvalue : atoi value = e.attrs) :
    (e.pending p s nameFilled commFilled true attr).readKey (str "service_id") value =
      e.pending p { s with attrs := true } nameFilled commFilled false attr := by
  rw [QshJsonParser.readKey, if_neg (by decide), if_neg (by decide), if_neg (by decide),
    if_pos ⟨rfl, rfl⟩, if_pos (by simp [pending, scratch, hs, htype]), hvalue]
  rfl

/-- The channels of a hub whose type is known, behind an attribute. -/
theorem readKey_channels (hs : s.commType = true) (htype : e.commType = COMM_TYPE_GLINK)
    (hvalue : atoi value = e.attrs) :
    (e.pending p s nameFilled commFilled false true).readKey (str "no_of_channels") value =
      e.pending p { s with attrs := true } nameFilled commFilled false true := by
  rw [QshJsonParser.readKey, if_neg (by decide), if_neg (by decide), if_neg (by decide),
    if_neg (by simp +decide), if_neg (by simp +decide), if_neg (by simp [pending, scratch]),
    if_pos ⟨rfl, rfl⟩, if_pos (by simp [pending, scratch, hs, htype]), hvalue]
  rfl

/-- The link of a hub whose id is known. -/
theorem readKey_link (hs : s.hubId = true) (hlink : s.link = false)
    (hvalue : e.link = some value) (hne : value ≠ str "apps") :
    (e.pending p s nameFilled commFilled true attr).readKey (str "link_name") value =
      e.pending p { s with link := true } nameFilled commFilled true attr := by
  rw [QshJsonParser.readKey, if_neg (by decide), if_neg (by decide), if_neg (by decide),
    if_neg (by simp +decide), if_pos ⟨rfl, rfl, hne⟩]
  simp [pending, scratch, hs, hlink, hvalue]

end

/-- An item with nothing in it for the tables. -/
structure Idle (e : HubEntry) (key value : Bytes) : Prop where
  key_ne : key ≠ str "platform_id" ∧ key ≠ str "sensing_hub_id" ∧ key ≠ str "client_comm_type" ∧
    key ≠ str "service_id"
  link : key = str "link_name" → value = str "apps"
  channels : key = str "no_of_channels" → e.commType ≠ COMM_TYPE_GLINK

/-- Such an item can only be taken for an attribute. -/
theorem readKey_idle {q : QshJsonParser} {key value : Bytes} (h : e.Idle key value)
    (htype : q.scratch.mClientCommType = [] ∨ q.scratch.mClientCommType = e.commType) :
    q.readKey key value =
      if q.scratch.mIsClientCommGrp = true ∧ value ≠ str "apps" ∧ key ≠ str "link_name" then
        { q with scratch.mReadCommAttr := true, scratch.mIsClientCommGrp := false }
      else q := by
  obtain ⟨hplatform, hid, hcomm, hservice⟩ := h.key_ne
  rw [QshJsonParser.readKey, if_neg hplatform, if_neg hid, if_neg hcomm,
    if_neg fun hkey ↦ hservice hkey.2, if_neg fun hlink ↦ hlink.2.2 (h.link hlink.2.1)]
  congr 1
  split_ifs with hchannels hglink
  · rcases htype with htype | htype
    · rw [htype] at hglink
      exact absurd hglink (by decide)
    · exact absurd (htype.symm.trans hglink.symm) (h.channels hchannels.1)
  · rfl
  · rfl

/-- Whether an item that is idle is taken for an attribute when the flag is set. -/
def closes (key value : Bytes) : Bool :=
  decide (value ≠ str "apps" ∧ key ≠ str "link_name")

theorem readKey_idle_pending {nameFilled commFilled grp attr : Bool} {key value : Bytes}
    (h : e.Idle key value) :
    (e.pending p s nameFilled commFilled grp attr).readKey key value =
      e.pending p s nameFilled commFilled (grp && !closes key value)
        (attr || grp && closes key value) := by
  rw [readKey_idle h]
  · unfold closes pending scratch
    by_cases hcloses : value ≠ str "apps" ∧ key ≠ str "link_name"
    · cases grp <;> simp [hcloses]
    · cases grp <;> simp [hcloses]
  · unfold pending scratch
    cases s.commType <;> simp

theorem updateSensingHubInfo_started {q : QshJsonParser} {grp attr : Bool} {key value : Bytes}
    (hq : q.scratch = started grp attr) (h : e.Idle key value) (grpName : Bytes) :
    q.updateSensingHubInfo grpName key value =
      { q with
        scratch := started (enter grpName grp && !closes key value)
          (attr || enter grpName grp && closes key value) } := by
  have henter : (if grpName = str ".client_comm" then { q with scratch.mIsClientCommGrp := true }
      else q) = { q with scratch := started (enter grpName grp) attr } := by
    unfold enter
    split_ifs with hgrp
    · rw [hq, decide_eq_true hgrp, Bool.or_true]
      rfl
    · rw [decide_eq_false hgrp, Bool.or_false, ← hq]
  rw [QshJsonParser.updateSensingHubInfo, henter, readKey_idle h (Or.inl rfl)]
  unfold closes
  generalize enter grpName grp = grp
  by_cases hcloses : value ≠ str "apps" ∧ key ≠ str "link_name" <;> cases grp <;>
    simp [hcloses, started, Scratch.initial, QshJsonParser.fillNameIdMap,
      QshJsonParser.fillCommMap, QshJsonParser.startOver, Scratch.HasName, Scratch.HasComm]

/-- An item with nothing in it for the tables changes the flags at most. -/
theorem updateSensingHubInfo_idle {grp attr : Bool} {grpName key value : Bytes} (hv : e.Valid)
    (hs : s.attrs = true → s.commType = true) (h : e.Idle key value) :
    ∃ attr', (e.state p s grp attr).updateSensingHubInfo grpName key value =
        e.state p s (enter grpName grp && !closes key value) attr' ∧
      (s.complete = false → attr' = (attr || enter grpName grp && closes key value)) := by
  unfold state
  cases hcomplete : s.complete with
  | false =>
    rw [if_neg Bool.false_ne_true,
      updateSensingHubInfo_pending hv (readKey_idle_pending h) hs id id, state, hcomplete]
    exact ⟨_, rfl, fun _ ↦ by simp⟩
  | true =>
    refine ⟨attr || enter grpName grp && closes key value, ?_, fun h ↦ by cases h⟩
    rw [if_pos rfl, if_pos rfl, updateSensingHubInfo_started rfl h]
    rfl

/-! ### What items have been read -/

theorem valuesOf_append (key : Bytes) (cs cs' : List Call) :
    valuesOf key (cs ++ cs') = valuesOf key cs ++ valuesOf key cs' := by
  rw [valuesOf, List.filter_append, List.map_append]
  rfl

theorem mem_keysOf_iff {key : Bytes} {cs : List Call} :
    key ∈ keysOf cs ↔ valuesOf key cs ≠ [] := by
  simp [keysOf, valuesOf]

theorem valuesOf_cons {c : Call} {key : Bytes} (h : c.key = key) (cs : List Call) :
    valuesOf key (c :: cs) = c.value :: valuesOf key cs := by
  rw [valuesOf, List.filter_cons_of_pos (by simp [h])]
  rfl

/-- The only item with a key. -/
theorem of_valuesOf_eq {pre post : List Call} {c : Call} {key v : Bytes}
    (h : valuesOf key (pre ++ c :: post) = [v]) (hkey : c.key = key) :
    key ∉ keysOf pre ∧ c.value = v := by
  rw [valuesOf_append, valuesOf_cons hkey] at h
  rw [mem_keysOf_iff, not_not]
  rcases hpre : valuesOf key pre with _ | ⟨w, ws⟩ <;> rw [hpre] at h
  · exact ⟨rfl, (List.cons.inj h).1⟩
  · simp at h

/-- The only item with a key, its value being a number. -/
theorem of_map_valuesOf_eq {pre post : List Call} {c : Call} {key : Bytes} {n : ℤ}
    (h : (valuesOf key (pre ++ c :: post)).map atoi = [n]) (hkey : c.key = key) :
    key ∉ keysOf pre ∧ atoi c.value = n := by
  obtain ⟨v, hv, rfl⟩ := List.map_eq_singleton_iff.1 h
  obtain ⟨hpre, rfl⟩ := of_valuesOf_eq hv hkey
  exact ⟨hpre, rfl⟩

/-- The only item with the name of a link other than `apps`. -/
theorem SaidBy.link_of_append {pre post : List Call} {c : Call} (h : e.SaidBy (pre ++ c :: post))
    (hkey : c.key = str "link_name") (hvalue : c.value ≠ str "apps") :
    ((valuesOf (str "link_name") pre).any (· ≠ str "apps")) = false ∧ e.link = some c.value := by
  have hlink := h.link
  rw [valuesOf_append, valuesOf_cons hkey, List.filter_append,
    List.filter_cons_of_pos (by simp [hvalue])] at hlink
  rcases htold : e.link with _ | link <;> rw [htold] at hlink
  · simp at hlink
  · obtain ⟨hpre, hrest⟩ | ⟨-, hrest⟩ := List.append_eq_singleton_iff.1 hlink
    · have hnone := List.filter_eq_nil_iff.1 hpre
      exact ⟨List.any_eq_false.2 hnone, congrArg some (List.cons.inj hrest).1.symm⟩
    · cases hrest

/-- What has been read of the hub behind some items. -/
def itemsRead (e : HubEntry) (cs : List Call) : ItemsRead where
  platform := decide (str "platform_id" ∈ keysOf cs)
  hubId := decide (str "sensing_hub_id" ∈ keysOf cs)
  commType := decide (str "client_comm_type" ∈ keysOf cs)
  attrs := decide (e.attrsKey ∈ keysOf cs)
  link := (valuesOf (str "link_name") cs).any (· ≠ str "apps")

theorem itemsRead_concat (cs : List Call) (c : Call) :
    e.itemsRead (cs ++ [c]) =
      ⟨(e.itemsRead cs).platform || decide (c.key = str "platform_id"),
        (e.itemsRead cs).hubId || decide (c.key = str "sensing_hub_id"),
        (e.itemsRead cs).commType || decide (c.key = str "client_comm_type"),
        (e.itemsRead cs).attrs || decide (c.key = e.attrsKey),
        (e.itemsRead cs).link || decide (c.key = str "link_name" ∧ c.value ≠ str "apps")⟩ := by
  unfold itemsRead keysOf
  rw [valuesOf_append, List.any_append]
  simp only [List.map_append, List.mem_append, List.map_cons, List.map_nil, List.mem_singleton,
    Bool.decide_or, eq_comm (b := c.key), valuesOf]
  by_cases hlink : c.key = str "link_name" <;> simp [hlink]

/-- The flags behind some items: before the number of channels is read the one is set unless an
attribute has been read, and then the other is. -/
def FlagsAfter (e : HubEntry) (cs : List Call) (grp attr : Bool) : Prop :=
  e.commType = COMM_TYPE_GLINK → (e.itemsRead cs).attrs = false →
    ∀ read, attributeRead cs = some read → grp = !read ∧ (read = true → attr = true)

theorem FlagsAfter.concat {cs : List Call} {c : Call} {grp attr grp' attr' : Bool}
    (h : e.FlagsAfter cs grp attr)
    (hgrp : e.commType = COMM_TYPE_GLINK → (e.itemsRead (cs ++ [c])).attrs = false →
      grp' = (enter c.grpName grp && !decide c.IsAttribute))
    (hattr : e.commType = COMM_TYPE_GLINK → (e.itemsRead (cs ++ [c])).attrs = false →
      attr' = (attr || enter c.grpName grp && decide c.IsAttribute)) :
    e.FlagsAfter (cs ++ [c]) grp' attr' := by
  intro hglink hattrs read hread
  rw [hgrp hglink hattrs, hattr hglink hattrs]
  have hbefore : (e.itemsRead cs).attrs = false := by
    rw [itemsRead_concat] at hattrs
    exact (Bool.or_eq_false_iff.1 hattrs).1
  rw [attributeRead, List.foldl_append, List.foldl_cons, List.foldl_nil] at hread
  unfold enter
  split_ifs at hread with hcomm
  · obtain rfl := Option.some.inj hread
    refine ⟨by simp [hcomm], fun hattribute ↦ ?_⟩
    simp [hcomm, hattribute]
  · obtain ⟨read₀, hread₀, rfl⟩ := Option.map_eq_some_iff.1 hread
    obtain ⟨rfl, hset⟩ := h hglink hbefore read₀ hread₀
    cases read₀ <;> simp_all

/-! ### Item after item -/

/-- The key of the service or the number of channels. -/
theorem attrsKey_eq (hv : e.Valid) :
    e.commType = COMM_TYPE_QMI ∧ e.attrsKey = str "service_id" ∨
      e.commType = COMM_TYPE_GLINK ∧ e.attrsKey = str "no_of_channels" := by
  unfold attrsKey
  rcases hv.commType with h | h
  · exact Or.inl ⟨h, if_pos h⟩
  · exact Or.inr ⟨h, if_neg (by rw [h]; decide)⟩

/-- The number has a key of its own. -/
theorem attrsKey_ne (hv : e.Valid) :
    str "platform_id" ≠ e.attrsKey ∧ str "sensing_hub_id" ≠ e.attrsKey ∧
      str "client_comm_type" ≠ e.attrsKey ∧ str "link_name" ≠ e.attrsKey := by
  rcases attrsKey_eq hv with ⟨-, h⟩ | ⟨-, h⟩ <;> rw [h] <;> decide

theorem Idle.key_ne_attrsKey {key value : Bytes} (h : e.Idle key value) (hv : e.Valid) :
    key ≠ e.attrsKey := by
  rcases attrsKey_eq hv with ⟨-, hkey⟩ | ⟨hglink, hkey⟩ <;> rw [hkey]
  · exact h.key_ne.2.2.2
  · exact fun hchannels ↦ h.channels hchannels hglink

/-- Behind GLINK such an item closes the group when it is taken for an attribute. -/
theorem Idle.closes_eq {c : Call} (h : e.Idle c.key c.value)
    (hglink : e.commType = COMM_TYPE_GLINK) :
    closes c.key c.value = decide c.IsAttribute := by
  obtain ⟨hplatform, hid, hcomm, hservice⟩ := h.key_ne
  have hchannels : c.key ≠ str "no_of_channels" := fun hkey ↦ h.channels hkey hglink
  unfold closes Call.IsAttribute knownKeys
  simp [hplatform, hid, hcomm, hservice, hchannels, and_comm]

theorem InOrder.left {cs cs' : List Call} (h : e.InOrder (cs ++ cs')) : e.InOrder cs := by
  rintro pre c post rfl
  exact h pre c (post ++ cs') (List.append_assoc ..)

/-- The type is known when the number is. -/
theorem InOrder.commType_of_attrs {pre : List Call} (h : e.InOrder pre)
    (hattrs : (e.itemsRead pre).attrs = true) : (e.itemsRead pre).commType = true := by
  obtain ⟨c, hc, hkey⟩ := List.mem_map.1 (of_decide_eq_true hattrs)
  obtain ⟨before, after, rfl⟩ := List.append_of_mem hc
  refine decide_eq_true ?_
  rw [keysOf, List.map_append]
  exact List.mem_append_left _ ((h before c after rfl).attrs hkey).1

/-- What has been read of the hub is what has been read before and the item. -/
def Reads (e : HubEntry) (p : QshJsonParser) (pre : List Call) (c : Call) (grp attr : Bool) :
    Prop :=
  ∃ grp' attr', (e.state p (e.itemsRead pre) grp attr).readCall c =
      e.state p (e.itemsRead (pre ++ [c])) grp' attr' ∧ e.FlagsAfter (pre ++ [c]) grp' attr'

section

variable {pre post : List Call} {c : Call} {grp attr : Bool}

/-- An item that is read while not all is known. -/
theorem readCall_pending (hv : e.Valid) (hincomplete : (e.itemsRead pre).complete = false)
    {grp' attr' : Bool} {t : ItemsRead} (hnext : e.itemsRead (pre ++ [c]) = t)
    (hread : (e.pending p (e.itemsRead pre) (e.itemsRead pre).named (e.itemsRead pre).connected
        (enter c.grpName grp) attr).readKey c.key c.value =
      e.pending p t (e.itemsRead pre).named (e.itemsRead pre).connected grp' attr')
    (ht : t.attrs = true → t.commType = true) :
    (e.state p (e.itemsRead pre) grp attr).readCall c =
      e.state p (e.itemsRead (pre ++ [c])) grp' (attr' && !t.complete) := by
  have hmono : ∀ a b : Bool, a = true → (a || b) = true := fun a b ha ↦ by rw [ha, Bool.true_or]
  rw [state, hincomplete, if_neg Bool.false_ne_true, hnext]
  refine updateSensingHubInfo_pending hv hread ht (fun hname ↦ ?_) fun hcomm ↦ ?_
  · rw [ItemsRead.named, Bool.and_eq_true] at hname ⊢
    rw [← hnext, itemsRead_concat]
    exact ⟨hmono _ _ hname.1, hmono _ _ hname.2⟩
  · rw [ItemsRead.connected, Bool.and_eq_true] at hcomm ⊢
    rw [← hnext, itemsRead_concat]
    exact ⟨hmono _ _ hcomm.1, hmono _ _ hcomm.2⟩

/-- An item with a known key that is read and leaves the flags. -/
theorem reads_known (hv : e.Valid) (hincomplete : (e.itemsRead pre).complete = false)
    (hknown : c.key ∈ knownKeys) {t : ItemsRead} (hnext : e.itemsRead (pre ++ [c]) = t)
    (hread : (e.pending p (e.itemsRead pre) (e.itemsRead pre).named (e.itemsRead pre).connected
        (enter c.grpName grp) attr).readKey c.key c.value =
      e.pending p t (e.itemsRead pre).named (e.itemsRead pre).connected (enter c.grpName grp) attr)
    (ht : t.attrs = true → t.commType = true) (hflags : e.FlagsAfter pre grp attr) :
    e.Reads p pre c grp attr := by
  have hattribute : decide c.IsAttribute = false := decide_eq_false fun h ↦ h.1 hknown
  refine ⟨_, _, readCall_pending hv hincomplete hnext hread ht, hflags.concat ?_ ?_⟩
  · intro _ _
    rw [hattribute, Bool.not_false, Bool.and_true]
  · intro _ hattrs
    rw [hattribute, Bool.and_false, Bool.or_false, ← hnext,
      ItemsRead.complete_of_attrs hattrs, Bool.not_false, Bool.and_true]

/-- An item with nothing in it for the tables. -/
theorem reads_idle (hv : e.Valid) (horder : e.InOrder pre)
    (hidle : e.Idle c.key c.value) (hflags : e.FlagsAfter pre grp attr) :
    e.Reads p pre c grp attr := by
  obtain ⟨attr', hread, hattr⟩ :=
    @updateSensingHubInfo_idle e p (e.itemsRead pre) grp attr c.grpName c.key c.value hv
      horder.commType_of_attrs hidle
  have hsame : e.itemsRead (pre ++ [c]) = e.itemsRead pre := by
    rw [itemsRead_concat, decide_eq_false hidle.key_ne.1, decide_eq_false hidle.key_ne.2.1,
      decide_eq_false hidle.key_ne.2.2.1, decide_eq_false (hidle.key_ne_attrsKey hv),
      decide_eq_false fun hlink ↦ hlink.2 (hidle.link hlink.1)]
    simp only [Bool.or_false]
  refine ⟨_, _, by rw [hsame]; exact hread, hflags.concat ?_ ?_⟩
  · intro hglink _
    rw [← hidle.closes_eq hglink]
  · intro hglink hattrs
    rw [hsame] at hattrs
    rw [hattr (ItemsRead.complete_of_attrs hattrs), ← hidle.closes_eq hglink]

theorem reads_platform (hv : e.Valid) (hsaid : e.SaidBy (pre ++ c :: post))
    (horder : e.InOrder pre) (hflags : e.FlagsAfter pre grp attr)
    (hkey : c.key = str "platform_id") : e.Reads p pre c grp attr := by
  obtain ⟨hnew, hvalue⟩ := of_valuesOf_eq hsaid.platform hkey
  have hunread : (e.itemsRead pre).platform = false := decide_eq_false hnew
  have hnext : e.itemsRead (pre ++ [c]) = { e.itemsRead pre with platform := true } := by
    rw [itemsRead_concat, hkey]
    simp +decide [attrsKey_ne hv]
  refine reads_known hv ?_ (by simp [hkey, knownKeys]) hnext ?_ horder.commType_of_attrs hflags
  · simp [hunread, ItemsRead.complete, ItemsRead.named]
  · rw [hkey, hvalue]
    exact readKey_platform

theorem reads_hubId (hv : e.Valid) (hsaid : e.SaidBy (pre ++ c :: post))
    (horder : e.InOrder pre) (hflags : e.FlagsAfter pre grp attr)
    (hkey : c.key = str "sensing_hub_id") : e.Reads p pre c grp attr := by
  obtain ⟨hnew, hvalue⟩ := of_map_valuesOf_eq hsaid.hubId hkey
  have hunread : (e.itemsRead pre).hubId = false := decide_eq_false hnew
  have hnext : e.itemsRead (pre ++ [c]) = { e.itemsRead pre with hubId := true } := by
    rw [itemsRead_concat, hkey]
    simp +decide [attrsKey_ne hv]
  refine reads_known hv ?_ (by simp [hkey, knownKeys]) hnext ?_ horder.commType_of_attrs hflags
  · simp [hunread, ItemsRead.complete, ItemsRead.named]
  · rw [hkey]
    exact readKey_hubId hunread hvalue

theorem reads_commType (hv : e.Valid) (hsaid : e.SaidBy (pre ++ c :: post))
    (horder : e.InOrder pre) (hflags : e.FlagsAfter pre grp attr)
    (hkey : c.key = str "client_comm_type") : e.Reads p pre c grp attr := by
  obtain ⟨hnew, hvalue⟩ := of_valuesOf_eq hsaid.commType hkey
  -- the number would have come behind the type
  have hunread : (e.itemsRead pre).attrs = false :=
    Bool.eq_false_iff.2 fun hattrs ↦ hnew (of_decide_eq_true (horder.commType_of_attrs hattrs))
  have hnext : e.itemsRead (pre ++ [c]) = { e.itemsRead pre with commType := true } := by
    rw [itemsRead_concat, hkey]
    simp +decide [attrsKey_ne hv]
  refine reads_known hv (ItemsRead.complete_of_attrs hunread) (by simp [hkey, knownKeys]) hnext ?_
    (fun _ ↦ rfl) hflags
  rw [hkey, hvalue]
  exact readKey_commType

theorem reads_attrs (hv : e.Valid) (hsaid : e.SaidBy (pre ++ c :: post))
    (hfits : e.Fits pre c) (hflags : e.FlagsAfter pre grp attr)
    (hkey : c.key = e.attrsKey) : e.Reads p pre c grp attr := by
  obtain ⟨hnew, hvalue⟩ := of_map_valuesOf_eq hsaid.attrs hkey
  obtain ⟨htype, hattribute⟩ := hfits.attrs hkey
  have hunread : (e.itemsRead pre).attrs = false := decide_eq_false hnew
  have hnext : e.itemsRead (pre ++ [c]) = { e.itemsRead pre with attrs := true } := by
    obtain ⟨hplatform, hid, hcomm, hlink⟩ := attrsKey_ne hv
    rw [itemsRead_concat, hkey]
    simp [hplatform.symm, hid.symm, hcomm.symm, hlink.symm]
  have hread : ∃ grp' attr', (e.pending p (e.itemsRead pre) (e.itemsRead pre).named
      (e.itemsRead pre).connected (enter c.grpName grp) attr).readKey c.key c.value =
        e.pending p { e.itemsRead pre with attrs := true } (e.itemsRead pre).named
          (e.itemsRead pre).connected grp' attr' := by
    rcases attrsKey_eq hv with ⟨hqmi, hattrs⟩ | ⟨hglink, hattrs⟩
    · have hgrp := hsaid.clientComm c (by simp) (Or.inl (hkey.trans hattrs))
      rw [enter, hgrp, decide_eq_true rfl, Bool.or_true, hkey.trans hattrs]
      exact ⟨_, _, readKey_service (decide_eq_true htype) hqmi hvalue⟩
    · have hgrp := (hsaid.channels hglink c (by simp)).2 (hkey.trans hattrs)
      obtain ⟨rfl, hset⟩ := hflags hglink hunread true (hattribute hglink)
      obtain rfl := hset rfl
      rw [enter, decide_eq_false hgrp, hkey.trans hattrs]
      exact ⟨_, _, readKey_channels (decide_eq_true htype) hglink hvalue⟩
  obtain ⟨grp', attr', hread⟩ := hread
  refine ⟨_, _, readCall_pending hv (ItemsRead.complete_of_attrs hunread) hnext hread
    fun _ ↦ decide_eq_true htype, fun _ hattrs ↦ ?_⟩
  rw [hnext] at hattrs
  cases hattrs

theorem reads_link (hv : e.Valid) (hsaid : e.SaidBy (pre ++ c :: post))
    (horder : e.InOrder pre) (hfits : e.Fits pre c) (hflags : e.FlagsAfter pre grp attr)
    (hkey : c.key = str "link_name") (hvalue : c.value ≠ str "apps") :
    e.Reads p pre c grp attr := by
  obtain ⟨hid, hincomplete⟩ := hfits.link hkey hvalue
  obtain ⟨hunread, htold⟩ := hsaid.link_of_append hkey hvalue
  have hnext : e.itemsRead (pre ++ [c]) = { e.itemsRead pre with link := true } := by
    rw [itemsRead_concat, hkey]
    simp +decide [attrsKey_ne hv, hvalue]
  have hgrp := hsaid.clientComm c (by simp) (Or.inr hkey)
  refine reads_known hv ?_ (by simp [hkey, knownKeys]) hnext ?_ horder.commType_of_attrs hflags
  · simpa [itemsRead, ItemsRead.complete, ItemsRead.named, ItemsRead.connected, hid]
      using hincomplete
  · rw [enter, hgrp, decide_eq_true rfl, Bool.or_true, hkey]
    exact readKey_link (decide_eq_true hid) hunread htold hvalue

/-- **One item**: what has been read of the hub is what has been read before and the item. -/
theorem reads_item (hv : e.Valid) (hsaid : e.SaidBy (pre ++ c :: post))
    (horder : e.InOrder pre) (hfits : e.Fits pre c) (hflags : e.FlagsAfter pre grp attr) :
    e.Reads p pre c grp attr := by
  by_cases hplatform : c.key = str "platform_id"
  · exact reads_platform hv hsaid horder hflags hplatform
  by_cases hid : c.key = str "sensing_hub_id"
  · exact reads_hubId hv hsaid horder hflags hid
  by_cases hcomm : c.key = str "client_comm_type"
  · exact reads_commType hv hsaid horder hflags hcomm
  by_cases hattrs : c.key = e.attrsKey
  · exact reads_attrs hv hsaid hfits hflags hattrs
  by_cases hlink : c.key = str "link_name" ∧ c.value ≠ str "apps"
  · exact reads_link hv hsaid horder hfits hflags hlink.1 hlink.2
  · refine reads_idle hv horder ⟨⟨hplatform, hid, hcomm, fun hservice ↦ ?_⟩,
      fun hkey ↦ not_not.1 fun hne ↦ hlink ⟨hkey, hne⟩, fun hchannels hglink ↦ ?_⟩ hflags
    · rcases attrsKey_eq hv with ⟨-, hkey⟩ | ⟨hglink, -⟩
      · exact hattrs (hservice.trans hkey.symm)
      · exact (hsaid.channels hglink c (by simp)).1 hservice
    · rcases attrsKey_eq hv with ⟨hqmi, -⟩ | ⟨-, hkey⟩
      · exact absurd (hqmi.symm.trans hglink) (by decide)
      · exact hattrs (hchannels.trans hkey.symm)

/-- **Item after item**: what has been read of the hub is what stands in the items. -/
theorem readCalls_state {rest : List Call} (hv : e.Valid) (hsaid : e.SaidBy (pre ++ post ++ rest))
    (horder : e.InOrder (pre ++ post)) (hflags : e.FlagsAfter pre grp attr) :
    ∃ grp' attr', (e.state p (e.itemsRead pre) grp attr).readCalls post =
      e.state p (e.itemsRead (pre ++ post)) grp' attr' ∧ e.FlagsAfter (pre ++ post) grp' attr' := by
  induction post generalizing pre grp attr with
  | nil =>
    rw [List.append_nil]
    exact ⟨grp, attr, rfl, hflags⟩
  | cons c post ih =>
    have hsaid' : e.SaidBy (pre ++ c :: (post ++ rest)) := by
      rwa [List.append_assoc, List.cons_append] at hsaid
    obtain ⟨grp', attr', hread, hflags'⟩ := reads_item (p := p) hv hsaid' horder.left
      (horder pre c post rfl) hflags
    rw [List.append_cons] at hsaid horder ⊢
    obtain ⟨grp'', attr'', hrest, hflags''⟩ := ih hsaid horder hflags'
    exact ⟨grp'', attr'', by rw [← hrest, ← hread]; rfl, hflags''⟩

end

/-- All items are read in the end. -/
theorem SaidBy.itemsRead_eq {cs : List Call} (h : e.SaidBy cs) :
    e.itemsRead cs = ⟨true, true, true, true, e.link.isSome⟩ := by
  have hread {key : Bytes} (hne : valuesOf key cs ≠ []) : decide (key ∈ keysOf cs) = true :=
    decide_eq_true (mem_keysOf_iff.2 hne)
  have hnumber {key : Bytes} {n : ℤ} (hn : (valuesOf key cs).map atoi = [n]) :
      valuesOf key cs ≠ [] := by
    rintro hnil
    rw [hnil] at hn
    cases hn
  have hlink : (valuesOf (str "link_name") cs).any (· ≠ str "apps") = e.link.isSome := by
    have htold := h.link
    rcases hnone : e.link with _ | link <;> rw [hnone] at htold
    · exact List.any_eq_false.2 (List.filter_eq_nil_iff.1 htold)
    · have hmem : link ∈ (valuesOf (str "link_name") cs).filter (· ≠ str "apps") := by
        rw [htold]
        exact List.mem_singleton_self link
      exact List.any_eq_true.2 ⟨link, List.mem_filter.1 hmem⟩
  rw [itemsRead, hread (by rw [h.platform]; exact List.cons_ne_nil _ _), hread (hnumber h.hubId),
    hread (by rw [h.commType]; exact List.cons_ne_nil _ _), hread (hnumber h.attrs), hlink]

/-- Items from the start on. -/
theorem readCalls_start {cs rest : List Call} {grp attr : Bool} (hv : e.Valid)
    (hsaid : e.SaidBy (cs ++ rest)) (horder : e.InOrder cs) (hp : p.scratch = started grp attr) :
    ∃ grp' attr', p.readCalls cs = e.state p (e.itemsRead cs) grp' attr' ∧
      e.FlagsAfter cs grp' attr' := by
  have hstart : e.state p (e.itemsRead []) grp attr = p := by
    obtain ⟨soc, socs, jsonSoc, names, comms, hubNames, ids, scratch, parsed⟩ := p
    obtain rfl : scratch = started grp attr := hp
    rfl
  have hflags : e.FlagsAfter [] grp attr := fun _ _ read hread ↦ by cases hread
  obtain ⟨grp', attr', hread, hflags'⟩ :=
    @readCalls_state e p [] cs grp attr rest hv hsaid horder hflags
  rw [hstart] at hread
  exact ⟨grp', attr', hread, hflags'⟩

/-- **The items of a hub enter it into the tables**, whatever order they stand in of those the
parser can use. -/
theorem readCalls_entry {cs : List Call} {grp attr : Bool} (hv : e.Valid) (hsaid : e.SaidBy cs)
    (horder : e.InOrder cs) (hp : p.scratch = started grp attr) :
    ∃ grp' attr', p.readCalls cs = { p.addEntry e with scratch := started grp' attr' } := by
  have hall : e.SaidBy (cs ++ []) := by rwa [List.append_nil]
  obtain ⟨grp', attr', hread, -⟩ := readCalls_start hv hall horder hp
  refine ⟨grp', attr', ?_⟩
  rw [hread, hsaid.itemsRead_eq]
  unfold state pending QshJsonParser.addEntry
  cases e.link <;> rfl

/-! ### Any order says the same -/

theorem perm_valuesOf {cs cs' : List Call} (h : cs.Perm cs') (key : Bytes) :
    (valuesOf key cs).Perm (valuesOf key cs') :=
  (h.filter _).map _

/-- What items say does not depend on their order. -/
theorem SaidBy.perm {cs cs' : List Call} (h : e.SaidBy cs) (hperm : cs.Perm cs') :
    e.SaidBy cs' where
  platform := List.singleton_perm.1 (h.platform ▸ perm_valuesOf hperm _) |>.symm
  hubId := List.singleton_perm.1 (h.hubId ▸ (perm_valuesOf hperm _).map atoi) |>.symm
  commType := List.singleton_perm.1 (h.commType ▸ perm_valuesOf hperm _) |>.symm
  attrs := List.singleton_perm.1 (h.attrs ▸ (perm_valuesOf hperm _).map atoi) |>.symm
  link := by
    have hlink := (perm_valuesOf hperm (str "link_name")).filter (· ≠ str "apps")
    rw [h.link] at hlink
    cases htold : e.link with
    | none => exact List.perm_nil.1 (htold ▸ hlink).symm
    | some link => exact List.perm_singleton.1 (htold ▸ hlink).symm
  clientComm c hc := h.clientComm c (hperm.mem_iff.2 hc)
  channels hglink c hc := h.channels hglink c (hperm.mem_iff.2 hc)

end HubEntry

/-! ### Group after group -/

/-- The items say nothing of a hub. -/
def SayNothing (cs : List Call) : Prop :=
  ∀ c ∈ cs, c.key ∉ [str "platform_id", str "sensing_hub_id", str "client_comm_type",
    str "service_id"] ∧ (c.key = str "link_name" → c.value = str "apps")

/-- The items say all of a hub, or nothing. -/
def Tell : Option HubEntry → List Call → Prop
  | none, cs => SayNothing cs
  | some e, cs => e.Valid ∧ e.SaidBy cs

/-- The items stand in an order the parser can use, if they say something. -/
def Ordered : Option HubEntry → List Call → Prop
  | none, _ => True
  | some e, cs => e.InOrder cs

theorem Tell.perm {told : Option HubEntry} {cs cs' : List Call} (h : Tell told cs)
    (hperm : cs.Perm cs') : Tell told cs' := by
  cases told with
  | none => exact fun c hc ↦ h c (hperm.mem_iff.2 hc)
  | some e => exact ⟨h.1, h.2.perm hperm⟩

/-- The tables with hubs added to them. -/
def QshJsonParser.addEntries (p : QshJsonParser) (es : List HubEntry) : QshJsonParser :=
  es.foldl QshJsonParser.addEntry p

theorem addEntries_scratch (p : QshJsonParser) (s : Scratch) (es : List HubEntry) :
    { p with scratch := s }.addEntries es = { p.addEntries es with scratch := s } := by
  induction es generalizing p with
  | nil => rfl
  | cons e es ih => exact ih (p.addEntry e)

/-- Items that say nothing of a hub change the flags at most. -/
theorem readCalls_nothing {p : QshJsonParser} {cs : List Call} (h : SayNothing cs) {grp attr : Bool}
    (hp : p.scratch = HubEntry.started grp attr) :
    ∃ grp' attr', p.readCalls cs = { p with scratch := HubEntry.started grp' attr' } := by
  induction cs generalizing p grp attr with
  | nil => exact ⟨grp, attr, by rw [← hp]; rfl⟩
  | cons c cs ih =>
    obtain ⟨⟨hkey, hlink⟩, hcs⟩ := List.forall_mem_cons.1 h
    have hidle : HubEntry.Idle ⟨[], 0, COMM_TYPE_QMI, 0, none⟩ c.key c.value :=
      ⟨by simpa using hkey, hlink, fun _ ↦ by decide⟩
    have hread := HubEntry.updateSensingHubInfo_started hp hidle c.grpName
    obtain ⟨grp', attr', hrest⟩ := ih (p := p.readCall c) hcs
      (congrArg QshJsonParser.scratch hread)
    refine ⟨grp', attr', ?_⟩
    rw [QshJsonParser.readCalls, List.foldl_cons]
    refine hrest.trans ?_
    rw [show p.readCall c = _ from hread]

/-- **Groups of items enter their hubs into the tables**, whatever order the items of a group stand
in of those the parser can use. -/
theorem readCalls_groups {p : QshJsonParser} {grp attr : Bool} {told : List (Option HubEntry)}
    {groups : List (List Call)} (htell : List.Forall₂ Tell told groups)
    (horder : List.Forall₂ Ordered told groups) (hp : p.scratch = HubEntry.started grp attr) :
    ∃ grp' attr', p.readCalls groups.flatten =
      { p.addEntries told.reduceOption with scratch := HubEntry.started grp' attr' } := by
  induction htell generalizing p grp attr with
  | nil => exact ⟨grp, attr, by rw [← hp]; rfl⟩
  | @cons entry cs told groups hcs htell ih =>
    obtain ⟨hfirst, horder⟩ := List.forall₂_cons.1 horder
    have hgroup : ∃ grp' attr', p.readCalls cs =
        { p.addEntries entry.toList with scratch := HubEntry.started grp' attr' } := by
      cases entry with
      | none => exact readCalls_nothing hcs hp
      | some e => exact HubEntry.readCalls_entry hcs.1 hcs.2 hfirst hp
    obtain ⟨grp₁, attr₁, hgroup⟩ := hgroup
    obtain ⟨grp₂, attr₂, hrest⟩ := ih (p := p.readCalls cs) horder (by rw [hgroup])
    refine ⟨grp₂, attr₂, ?_⟩
    rw [List.flatten_cons, QshJsonParser.readCalls_append, hrest, hgroup, addEntries_scratch]
    cases entry <;> rfl

end SensingHub.Json
