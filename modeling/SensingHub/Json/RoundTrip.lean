import SensingHub.Json.FileRefinement
import SensingHub.Json.Hub

/-!
# The round trip of a configuration

A file that describes hubs is read back as these hubs: the hub list holds their ids in the order of
the file, and the tables answer for each of them what the file says.

The scratch members are what the proof turns on. A group that describes a hub leads them through a
short cycle, from their initial values to the moment both tables have their entry and they start
over; so every group is read from the same scratch members, and the hubs do not meet but in the
tables.
-/

namespace SensingHub.Json

open CLib (str atoi isspace isDigit digitsValue strlcpy stoi)

/-! ### What a hub adds to the tables -/

/-- The id of a hub. -/
def Hub.hubId (h : Hub) : ℤ :=
  digitsValue h.id

/-- The number of a transport. -/
def Transport.commType : Transport → ℕ
  | .qmi _ => 0
  | .glink .. => 1

/-- The string of a transport. -/
def Transport.typeData : Transport → Bytes
  | .qmi _ => COMM_TYPE_QMI
  | .glink .. => COMM_TYPE_GLINK

/-- The service or the number of channels. -/
def Transport.attrs : Transport → ℕ
  | .qmi service => digitsValue service
  | .glink _ _ _ _ channels => digitsValue channels

/-- The name a transport gives a hub, if any. -/
def Transport.hubName : Transport → Bytes
  | .qmi _ => []
  | .glink link _ _ _ _ => link

/-- The tables with a hub added to them. -/
def QshJsonParser.addHub (p : QshJsonParser) (h : Hub) : QshJsonParser :=
  { p with
    mHubIds := p.mHubIds ++ [h.hubId]
    mSensingHubNameIdMap := p.mSensingHubNameIdMap.insert h.platform h.hubId
    mSensingHubIdNameMap :=
      match h.transport with
      | .qmi _ => p.mSensingHubIdNameMap
      | .glink link _ _ _ _ => p.mSensingHubIdNameMap.assign h.hubId link
    mSensingHubCommMap :=
      p.mSensingHubCommMap.insert h.hubId (h.transport.typeData, h.transport.attrs) }

/-! ### The cycle of the scratch members -/

/-- The scratch members behind the two ids of a hub. -/
def Hub.named (h : Hub) : Scratch :=
  { Scratch.initial with
    mSensingHubId := h.hubId
    mPlatformId := h.platform
    mSensingHubNameIdMapFilled := true }

theorem IsDecimal.atoi_eq {s : Bytes} (h : IsDecimal s) : atoi s = digitsValue s :=
  CLib.atoi_digits h.ne_nil h.digits h.lt

theorem Hub.hubId_ne (h : Hub) : h.hubId ≠ -1 := by
  unfold Hub.hubId
  omega

/-- The calls for the two ids of a hub. -/
def Hub.idCalls (h : Hub) : List Call :=
  [⟨h.name, str "platform_id", some h.platform⟩, ⟨h.name, str "sensing_hub_id", some h.id⟩]

/-- The two ids of a hub, in either order, fill the name table. -/
theorem readCalls_ids {p : QshJsonParser} {h : Hub} (hp : p.scratch = Scratch.initial)
    (hv : h.Valid) {cs : List Call} (hcs : cs = h.idCalls ∨ cs = h.idCalls.reverse) :
    p.readCalls cs =
      { p with
        mHubIds := p.mHubIds ++ [h.hubId]
        mSensingHubNameIdMap := p.mSensingHubNameIdMap.insert h.platform h.hubId
        scratch := h.named } := by
  have hid := h.hubId_ne
  have hplatform := hv.platform_ne
  have hatoi : atoi h.id = h.hubId := hv.id.atoi_eq
  rcases hcs with rfl | rfl <;>
  · simp only [Hub.idCalls, List.reverse_cons, List.reverse_nil, List.nil_append,
      List.singleton_append, QshJsonParser.readCalls, List.foldl_cons, List.foldl_nil,
      QshJsonParser.readCall, Option.getD_some, QshJsonParser.updateSensingHubInfo_eq, hp]
    simp +decide [QshJsonParser.NamesHub, Scratch.read, Scratch.readKey, Scratch.initial,
      Scratch.update, Scratch.noteFilled, Scratch.startOver, Scratch.HasName, Scratch.HasComm,
      hv.name_ne.2, hatoi, hid, hplatform, Hub.named]

/-- The calls for a transport. -/
def Transport.calls : Transport → List Call
  | .qmi service =>
    [⟨str ".client_comm", str "client_comm_type", some (str "0")⟩,
      ⟨str ".client_comm", str "service_id", some service⟩]
  | .glink link key value groupKey channels =>
    [⟨str ".client_comm", str "client_comm_type", some (str "1")⟩,
      ⟨str ".client_comm", str "link_name", some link⟩, ⟨str ".client_comm", key, some value⟩,
      ⟨groupKey, str "no_of_channels", some channels⟩]

/-- The transport of a hub fills the communication table, and the scratch members start over. -/
theorem readCalls_transport {p : QshJsonParser} {h : Hub} (hp : p.scratch = h.named)
    (hname : p.mSensingHubNameIdMap.insert h.platform h.hubId = p.mSensingHubNameIdMap)
    (hv : h.Valid) :
    p.readCalls h.transport.calls =
      { p with
        mSensingHubIdNameMap :=
          match h.transport with
          | .qmi _ => p.mSensingHubIdNameMap
          | .glink link _ _ _ _ => p.mSensingHubIdNameMap.assign h.hubId link
        mSensingHubCommMap :=
          p.mSensingHubCommMap.insert h.hubId (h.transport.typeData, h.transport.attrs)
        scratch := Scratch.initial } := by
  have hid := h.hubId_ne
  have hplatform := hv.platform_ne
  have htransport := hv.transport
  rcases hkind : h.transport with service | ⟨link, key, value, groupKey, channels⟩ <;>
    rw [hkind] at htransport
  · -- QMI: the service id is the attribute
    have hatoi : atoi service = digitsValue service := htransport.atoi_eq
    have hne : (digitsValue service : ℤ) ≠ -1 := by omega
    simp only [Transport.calls, QshJsonParser.readCalls, List.foldl_cons, List.foldl_nil,
      QshJsonParser.readCall, Option.getD_some, QshJsonParser.updateSensingHubInfo_eq, hp]
    simp +decide [QshJsonParser.NamesHub, Scratch.read, Scratch.readKey, Scratch.initial,
      Scratch.update, Scratch.noteFilled, Scratch.startOver, Scratch.HasName, Scratch.HasComm,
      hatoi, hid, hplatform, hne, Hub.named, hname, Transport.typeData, Transport.attrs]
    rfl
  · -- GLINK: the link is named, and the number of channels is the attribute
    obtain ⟨⟨-, hlink⟩, ⟨hkey, -⟩, ⟨-, hvalue⟩, ⟨-, hgroup⟩, hchannels⟩ := htransport
    have hatoi : atoi channels = digitsValue channels := hchannels.atoi_eq
    have hne : (digitsValue channels : ℤ) ≠ -1 := by omega
    simp only [knownKeys, List.mem_cons, List.not_mem_nil, or_false, not_or] at hkey
    simp only [Transport.calls, QshJsonParser.readCalls, List.foldl_cons, List.foldl_nil,
      QshJsonParser.readCall, Option.getD_some, QshJsonParser.updateSensingHubInfo_eq, hp]
    simp +decide [QshJsonParser.NamesHub, Scratch.read, Scratch.readKey, Scratch.initial,
      Scratch.update, Scratch.noteFilled, Scratch.startOver, Scratch.HasName, Scratch.HasComm,
      hatoi, hid, hplatform, hne, Hub.named, hname, hlink, hkey, hvalue, hgroup,
      Transport.typeData, Transport.attrs]
    rfl

/-! ### Reading the group of a hub -/

theorem strlcpy_of_length_le {s : Bytes} (h : s.length ≤ 14) : strlcpy s MAX_DATA_VALUE_LEN = s :=
  List.take_of_length_le h

theorem calls_dataItem_of_length_le (grpName key : Bytes) {value : Bytes}
    (h : value.length ≤ 14) :
    (dataItem key value).calls grpName = [⟨grpName, key, some value⟩] := by
  rw [calls_dataItem, strlcpy_of_length_le h]

theorem Transport.Valid.calls {t : Transport} (hv : t.Valid) :
    membersCalls (str ".client_comm") t.members = t.calls := by
  cases t with
  | qmi service =>
    simp only [Transport.members, membersCalls, List.append_nil]
    rw [calls_dataItem_of_length_le _ _ (by decide),
      calls_dataItem_of_length_le _ _ (IsDecimal.length_le hv)]
    rfl
  | glink link key value groupKey channels =>
    obtain ⟨⟨hlink, -⟩, -, ⟨hvalue, -⟩, -, hchannels⟩ := hv
    simp only [Transport.members, membersCalls, Member.calls, List.append_nil]
    rw [calls_dataItem_of_length_le _ _ (by decide), calls_dataItem_of_length_le _ _ hlink,
      calls_dataItem_of_length_le _ _ hvalue, calls_dataItem_of_length_le _ _ hchannels.length_le]
    rfl

/-- The calls of a group that describes a hub. -/
theorem Hub.Describes.calls {h : Hub} (hv : h.Valid) {members : List Member}
    (hd : h.Describes members) :
    ∃ cs, (cs = h.idCalls ∨ cs = h.idCalls.reverse) ∧
      TopGroup.calls ⟨h.name, members⟩ = cs ++ h.transport.calls := by
  have hplatform := calls_dataItem_of_length_le h.name (str "platform_id") hv.platform_le
  have hid := calls_dataItem_of_length_le h.name (str "sensing_hub_id") hv.id.length_le
  have htransport : membersCalls h.name [h.clientComm] = h.transport.calls := by
    rw [membersCalls, membersCalls, List.append_nil, Hub.clientComm, Member.calls,
      hv.transport.calls]
  unfold TopGroup.calls
  rw [← membersCalls_strip]
  rcases hd with hd | hd
  · refine ⟨h.idCalls, Or.inl rfl, ?_⟩
    rw [hd, membersCalls, membersCalls, hplatform, hid, htransport]
    rfl
  · refine ⟨h.idCalls.reverse, Or.inr rfl, ?_⟩
    rw [hd, membersCalls, membersCalls, hplatform, hid, htransport]
    rfl

/-- **The group of a hub adds the hub and nothing else**, and leaves the scratch members as they
were. -/
theorem readCalls_hub {p : QshJsonParser} {h : Hub} (hp : p.scratch = Scratch.initial)
    (hv : h.Valid) {members : List Member} (hd : h.Describes members) :
    p.readCalls (TopGroup.calls ⟨h.name, members⟩) = p.addHub h := by
  obtain ⟨cs, hcs, hcalls⟩ := hd.calls hv
  rw [hcalls, QshJsonParser.readCalls_append, readCalls_ids hp hv hcs,
    readCalls_transport rfl (Table.insert_insert ..) hv, QshJsonParser.addHub, hp]

/-! ### The hubs one after another -/

/-- The tables hold what a hub is. -/
structure QshJsonParser.Knows (p : QshJsonParser) (h : Hub) : Prop where
  name : p.mSensingHubNameIdMap h.platform = some h.hubId
  comm : p.mSensingHubCommMap h.hubId = some (h.transport.typeData, (h.transport.attrs : ℤ))
  hubName : p.getHubName h.hubId = h.transport.hubName

/-- The tables hold nothing of a hub. -/
structure QshJsonParser.Lacks (p : QshJsonParser) (h : Hub) : Prop where
  name : p.mSensingHubNameIdMap h.platform = none
  comm : p.mSensingHubCommMap h.hubId = none
  hubName : p.mSensingHubIdNameMap h.hubId = none

/-- Two hubs share neither id. -/
def Hub.Apart (h h' : Hub) : Prop :=
  h.hubId ≠ h'.hubId ∧ h.platform ≠ h'.platform

theorem addHub_mSensingHubIdNameMap (p : QshJsonParser) {h h' : Hub} (hne : h'.hubId ≠ h.hubId) :
    (p.addHub h).mSensingHubIdNameMap h'.hubId = p.mSensingHubIdNameMap h'.hubId := by
  unfold QshJsonParser.addHub
  rcases h.transport with service | ⟨link, key, value, groupKey, channels⟩
  · rfl
  · exact Table.assign_of_ne _ hne link

theorem QshJsonParser.Lacks.addHub {p : QshJsonParser} {h h' : Hub} (hl : p.Lacks h')
    (hapart : h.Apart h') : (p.addHub h).Lacks h' where
  name := (Table.insert_of_ne _ hapart.2.symm _).trans hl.name
  comm := (Table.insert_of_ne _ hapart.1.symm _).trans hl.comm
  hubName := (addHub_mSensingHubIdNameMap p hapart.1.symm).trans hl.hubName

theorem QshJsonParser.Knows.addHub {p : QshJsonParser} {h h' : Hub} (hk : p.Knows h')
    (hapart : h.Apart h') : (p.addHub h).Knows h' where
  name := (Table.insert_of_ne _ hapart.2.symm _).trans hk.name
  comm := (Table.insert_of_ne _ hapart.1.symm _).trans hk.comm
  hubName := by
    have hname := hk.hubName
    unfold QshJsonParser.getHubName at hname ⊢
    rw [addHub_mSensingHubIdNameMap p hapart.1.symm]
    exact hname

/-- A hub that is added is known. -/
theorem QshJsonParser.Lacks.knows {p : QshJsonParser} {h : Hub} (hl : p.Lacks h) :
    (p.addHub h).Knows h where
  name := by simp [QshJsonParser.addHub, hl.name]
  comm := by simp [QshJsonParser.addHub, hl.comm]
  hubName := by
    unfold QshJsonParser.getHubName QshJsonParser.addHub Transport.hubName
    rcases h.transport with service | ⟨link, key, value, groupKey, channels⟩
    · simp [hl.hubName]
    · simp

/-- The hubs of a list are added one after another. -/
def QshJsonParser.addHubs (p : QshJsonParser) (hubs : List Hub) : QshJsonParser :=
  hubs.foldl QshJsonParser.addHub p

theorem mHubIds_addHubs (p : QshJsonParser) (hubs : List Hub) :
    (p.addHubs hubs).mHubIds = p.mHubIds ++ hubs.map Hub.hubId := by
  induction hubs generalizing p with
  | nil => simp [QshJsonParser.addHubs]
  | cons h hubs ih =>
    have hrest := ih (p.addHub h)
    simp only [QshJsonParser.addHubs, List.foldl_cons, List.map_cons] at hrest ⊢
    rw [hrest]
    simp [QshJsonParser.addHub]

/-- What is known stays known. -/
theorem QshJsonParser.Knows.addHubs {p : QshJsonParser} {h : Hub} (hk : p.Knows h)
    {hubs : List Hub} (hapart : ∀ h' ∈ hubs, h.Apart h') : (p.addHubs hubs).Knows h := by
  induction hubs generalizing p with
  | nil => exact hk
  | cons h' hubs ih =>
    have hne := hapart h' (List.mem_cons_self ..)
    exact ih (hk.addHub ⟨hne.1.symm, hne.2.symm⟩) fun h'' hmem ↦
      hapart h'' (List.mem_cons_of_mem _ hmem)

/-- Hubs that are apart from each other are all known when they have been added. -/
theorem knows_addHubs {p : QshJsonParser} {hubs : List Hub} (hapart : hubs.Pairwise Hub.Apart)
    (hl : ∀ h ∈ hubs, p.Lacks h) : ∀ h ∈ hubs, (p.addHubs hubs).Knows h := by
  induction hubs generalizing p with
  | nil => exact fun h hmem ↦ by cases hmem
  | cons h hubs ih =>
    obtain ⟨hhead, htail⟩ := List.pairwise_cons.1 hapart
    intro h' hmem
    rcases List.mem_cons.1 hmem with rfl | hmem
    · exact (hl h' (List.mem_cons_self ..)).knows.addHubs hhead
    · refine ih htail (fun h'' hmem'' ↦ ?_) h' hmem
      exact (hl h'' (List.mem_cons_of_mem _ hmem'')).addHub (hhead h'' hmem'')

/-- Groups that describe hubs add them in order. -/
theorem readCalls_hubs {p : QshJsonParser} (hp : p.scratch = Scratch.initial) {hubs : List Hub}
    {groups : List TopGroup} (hv : ∀ h ∈ hubs, h.Valid)
    (hd : List.Forall₂ (fun h g ↦ g.name = h.name ∧ h.Describes g.members) hubs groups) :
    p.readCalls (groups.flatMap TopGroup.calls) = p.addHubs hubs := by
  induction hd generalizing p with
  | nil => rfl
  | @cons h g hubs groups hg hd ih =>
    obtain ⟨name, members⟩ := g
    obtain ⟨rfl, hdescribes⟩ := hg
    have hhead := readCalls_hub hp (hv h (List.mem_cons_self ..)) hdescribes
    have hscratch : (p.addHub h).scratch = Scratch.initial := hp
    rw [List.flatMap_cons, QshJsonParser.readCalls_append, hhead,
      ih hscratch fun h' hmem ↦ hv h' (List.mem_cons_of_mem _ hmem)]
    rfl

/-! ### The file -/

/-- An object of groups is loaded: unless it is 4 GiB long or more, the parser object behind it is
that behind the loop over its members. -/
theorem loadFile_object {before body c : Bytes} (hbefore : ∀ b ∈ before, isspace b = true)
    (hc : c = before ++ 123 :: body) (hlt : c.length < 2 ^ 32) {fuel : ℕ} {stale : ℕ → Bytes}
    {p : QshJsonParser} {ls : List Lexeme} {s : Progress}
    (hrun : Format.fileLoop stale fuel (lex body) ⟨p.resetParserState, 0⟩ = some (.ended ls, s))
    (hkeys : str "config" ∉ Format.memberKeys fuel (lex body)) :
    (p.loadFile fuel stale (.content c)).ret = .ok 0 ∧
      (p.loadFile fuel stale (.content c)).parser = { s.parser with mIsFileParsed := true } := by
  have hskip : c.dropWhile isspace = 123 :: body := by
    rw [hc, List.dropWhile_append_of_pos hbefore, List.dropWhile_cons_of_neg (by decide)]
  obtain ⟨gap, hlex⟩ := lex_of_dropWhile hskip (by decide) (by decide)
  have hfile : Format.file stale fuel (lex c) ⟨p.resetParserState, 0⟩ = some (.ended ls, s) := by
    rw [hlex]
    exact hrun
  have hconfig : str "config" ∉ Format.fileKeys fuel (lex c) := by
    rw [hlex]
    exact hkeys
  have hload := loadFile_run fuel stale c p hlt fun h ↦ absurd h hconfig
  rw [hfile] at hload
  exact ⟨hload.1, hload.2.1.trans (if_pos rfl)⟩

/-- **A file of groups is loaded**: unless it is 4 GiB long or more, the parser object behind it is
that behind the calls of its groups. -/
theorem loadFile_groups {gs : List TopGroup} {texts : List Bytes}
    (htexts : List.Forall₂ GroupText gs texts) (hne : gs ≠ []) (hgs : ∀ g ∈ gs, g.WellFormed)
    {before after c : Bytes} (hbefore : ∀ b ∈ before, isspace b = true)
    (hafter : tokens after = [.byte 125])
    (hc : c = before ++ 123 :: commaSeparated texts after) (hlt : c.length < 2 ^ 32) {fuel : ℕ}
    (hfuel : c.length < fuel) (stale : ℕ → Bytes) (p : QshJsonParser) :
    (p.loadFile fuel stale (.content c)).ret = .ok 0 ∧
      (p.loadFile fuel stale (.content c)).parser =
        { (Progress.calls stale ⟨p.resetParserState, 0⟩ (gs.flatMap TopGroup.calls)).parser with
          mIsFileParsed := true } := by
  have hlen : (lex (commaSeparated texts after)).length < fuel := by
    have := length_lex_le (commaSeparated texts after)
    simp only [hc, List.length_append, List.length_cons] at hfuel
    omega
  obtain ⟨hrun, hkeys⟩ := Format.fileLoop_groups stale htexts hne hgs hafter hlen
    ⟨p.resetParserState, 0⟩
  refine loadFile_object hbefore hc hlt hrun ?_
  -- no group is named as a config section is
  rw [hkeys]
  intro hmem
  obtain ⟨g, hg, hname⟩ := List.mem_map.1 hmem
  exact (hgs g hg).name_ne hname

/-- A text that describes hubs: an object of groups, one for each hub, with white space between any
two tokens but before the commas that separate the groups. -/
def Configures (hubs : List Hub) (c : Bytes) : Prop :=
  ∃ groups texts before after,
    List.Forall₂ (fun (h : Hub) g ↦ g.name = h.name ∧ h.Describes g.members) hubs groups ∧
      List.Forall₂ GroupText groups texts ∧ (∀ b ∈ before, isspace b = true) ∧
      tokens after = [.byte 125] ∧ c = before ++ 123 :: commaSeparated texts after

/-- The queries answer for hubs what they were described as. -/
structure Answers (p : QshJsonParser) (hubs : List Hub) : Prop where
  getHubIdList : p.getHubIdList = hubs.map Hub.hubId
  getHubId : ∀ h ∈ hubs, p.getHubId h.platform = h.hubId
  getCommType : ∀ h ∈ hubs, p.getCommType h.hubId = h.transport.commType
  getCommHandleAttrs : ∀ h ∈ hubs, p.getCommHandleAttrs h.hubId = h.transport.attrs
  getHubName : ∀ h ∈ hubs, p.getHubName h.hubId = h.transport.hubName

theorem stoi_typeData (t : Transport) : stoi t.typeData = .ok (t.commType : ℤ) := by
  have hqmi : stoi COMM_TYPE_QMI = .ok 0 := by decide +kernel
  have hglink : stoi COMM_TYPE_GLINK = .ok 1 := by decide +kernel
  cases t
  · exact hqmi
  · exact hglink

/-- The queries answer from what is known. -/
theorem answers_of_knows {p : QshJsonParser} {hubs : List Hub}
    (hids : p.getHubIdList = hubs.map Hub.hubId) (hknows : ∀ h ∈ hubs, p.Knows h) :
    Answers p hubs where
  getHubIdList := hids
  getHubId h hmem := by
    rw [QshJsonParser.getHubId, (hknows h hmem).name]
  getCommType h hmem := by
    rw [QshJsonParser.getCommType, (hknows h hmem).comm]
    simp only [stoi_typeData]
  getCommHandleAttrs h hmem := by
    rw [QshJsonParser.getCommHandleAttrs, (hknows h hmem).comm]
  getHubName h hmem := (hknows h hmem).hubName

theorem Hub.Describes.isSome_data {h : Hub} (hv : h.Valid) {members : List Member}
    (hd : h.Describes members) : ∀ c ∈ TopGroup.calls ⟨h.name, members⟩, c.data.isSome := by
  obtain ⟨cs, hcs, hcalls⟩ := hd.calls hv
  have hids : ∀ c ∈ cs, c.data.isSome := by
    rcases hcs with rfl | rfl <;> simp [Hub.idCalls]
  have htransport : ∀ c ∈ h.transport.calls, c.data.isSome := by
    cases h.transport <;> simp [Transport.calls]
  rw [hcalls]
  intro c hc
  exact (List.mem_append.1 hc).elim (hids c) (htransport c)

/-- The groups that describe hubs are read, and all their items have data. -/
theorem groups_of_hubs {hubs : List Hub} {groups : List TopGroup} (hv : ∀ h ∈ hubs, h.Valid)
    (hd : List.Forall₂ (fun h g ↦ g.name = h.name ∧ h.Describes g.members) hubs groups) :
    ∀ g ∈ groups, g.WellFormed ∧ ∀ c ∈ g.calls, c.data.isSome := by
  induction hd with
  | nil => exact fun g hg ↦ by cases hg
  | @cons h g hubs groups hg hd ih =>
    have hhead := hv h (List.mem_cons_self ..)
    have htail := ih fun h' hmem ↦ hv h' (List.mem_cons_of_mem _ hmem)
    obtain ⟨name, members⟩ := g
    obtain ⟨rfl, hdescribes⟩ := hg
    exact List.forall_mem_cons.2
      ⟨⟨hhead.wellFormed hdescribes, hdescribes.isSome_data hhead⟩, htail⟩

/-- **The round trip of a configuration**: a file that describes hubs is read back as these
hubs. -/
theorem loadFile_hubs {hubs : List Hub} {c : Bytes} (hc : Configures hubs c) (hne : hubs ≠ [])
    (hv : ∀ h ∈ hubs, h.Valid) (hids : (hubs.map Hub.hubId).Nodup)
    (hplatforms : (hubs.map Hub.platform).Nodup) (hlt : c.length < 2 ^ 32) {fuel : ℕ}
    (hfuel : c.length < fuel) (stale : ℕ → Bytes) (deviceSocId : ℤ) :
    ((QshJsonParser.fresh deviceSocId).loadFile fuel stale (.content c)).ret = .ok 0 ∧
      Answers ((QshJsonParser.fresh deviceSocId).loadFile fuel stale (.content c)).parser
        hubs := by
  obtain ⟨groups, texts, before, after, hd, htexts, hbefore, hafter, htext⟩ := hc
  have hgroups := groups_of_hubs hv hd
  have hgne : groups ≠ [] := by
    rintro rfl
    cases hd
    exact hne rfl
  obtain ⟨hret, hparser⟩ := loadFile_groups htexts hgne (fun g hg ↦ (hgroups g hg).1) hbefore
    hafter htext hlt hfuel stale (QshJsonParser.fresh deviceSocId)
  refine ⟨hret, ?_⟩
  have hdata : ∀ c ∈ groups.flatMap TopGroup.calls, c.data.isSome := by
    intro c hmem
    obtain ⟨g, hg, hcg⟩ := List.mem_flatMap.1 hmem
    exact (hgroups g hg).2 c hcg
  rw [Progress.parser_calls stale _ hdata, readCalls_hubs rfl hv hd] at hparser
  have hapart : hubs.Pairwise Hub.Apart :=
    (List.pairwise_map.1 hids).and (List.pairwise_map.1 hplatforms)
  have hknows := knows_addHubs (p := (QshJsonParser.fresh deviceSocId).resetParserState) hapart
    fun _ _ ↦ ⟨rfl, rfl, rfl⟩
  have hlist := mHubIds_addHubs (QshJsonParser.fresh deviceSocId).resetParserState hubs
  rw [hparser]
  exact answers_of_knows hlist fun h hmem ↦
    ⟨(hknows h hmem).name, (hknows h hmem).comm, (hknows h hmem).hubName⟩

/-! ### Two hubs -/

/-- A hub behind QMI. -/
def slpi : Hub :=
  ⟨str "slpi", str "slpi", str "1", .qmi (str "400")⟩

/-- A hub behind GLINK. -/
def adsp : Hub :=
  ⟨str "adsp", str "adsp", str "2",
    .glink (str "lpass") (str "channel_name") (str "sns") (str ".attributes") (str "3")⟩

/-- The group of a hub, with its owner. -/
def Hub.group (h : Hub) : TopGroup :=
  ⟨h.name, [.string (str "owner") (str "hub"), dataItem (str "platform_id") h.platform,
    dataItem (str "sensing_hub_id") h.id, h.clientComm]⟩

/-- The text of a top-level group without white space. -/
def TopGroup.text (g : TopGroup) : Bytes :=
  render (Member.group g.name g.members).tokens

/-- A file for hubs, with a line break before the closing bracket. -/
def hubsFile (hubs : List Hub) : Bytes :=
  123 :: commaSeparated (hubs.map fun h ↦ h.group.text) [10, 125]

theorem slpi_valid : slpi.Valid :=
  ⟨by decide +kernel, by decide +kernel, by decide +kernel,
    ⟨by decide +kernel, by decide +kernel, by decide +kernel, by decide +kernel⟩,
    ⟨by decide +kernel, by decide +kernel, by decide +kernel, by decide +kernel⟩⟩

theorem adsp_valid : adsp.Valid :=
  ⟨by decide +kernel, by decide +kernel, by decide +kernel,
    ⟨by decide +kernel, by decide +kernel, by decide +kernel, by decide +kernel⟩,
    by decide +kernel, by decide +kernel, by decide +kernel, by decide +kernel,
    ⟨by decide +kernel, by decide +kernel, by decide +kernel, by decide +kernel⟩⟩

theorem configures_hubsFile : Configures [slpi, adsp] (hubsFile [slpi, adsp]) :=
  ⟨[slpi.group, adsp.group], [slpi.group.text, adsp.group.text], [], [10, 125],
    .cons ⟨rfl, Or.inl rfl⟩ (.cons ⟨rfl, Or.inl rfl⟩ .nil),
    .cons ⟨by decide +kernel, by decide +kernel⟩
      (.cons ⟨by decide +kernel, by decide +kernel⟩ .nil),
    fun _ h ↦ absurd h List.not_mem_nil, by decide +kernel, rfl⟩

theorem loadFile_hubs_hubsFile :
    ((QshJsonParser.fresh 0).loadFile 1000 (fun _ ↦ []) (.content (hubsFile [slpi, adsp]))).ret =
        .ok 0 ∧
      Answers ((QshJsonParser.fresh 0).loadFile 1000 (fun _ ↦ [])
        (.content (hubsFile [slpi, adsp]))).parser [slpi, adsp] :=
  loadFile_hubs configures_hubsFile (List.cons_ne_nil _ _)
    (List.forall_mem_cons.2 ⟨slpi_valid, List.forall_mem_singleton.2 adsp_valid⟩)
    (by decide +kernel) (by decide)
    (by decide +kernel) (by decide +kernel) (fun _ ↦ []) 0

/-- A file whose length is 0 in 32 bits is taken for an empty one. -/
theorem loadFile_of_length_mod {c : Bytes} (h : c.length % 2 ^ 32 = 0) (fuel : ℕ)
    (stale : ℕ → Bytes) (p : QshJsonParser) :
    (p.loadFile fuel stale (.content c)).ret = .ok (-1) := by
  simp only [QshJsonParser.loadFile, h]
  rfl

/-- The round trip fails without hubs, an object without groups being rejected, and for a file of
4 GiB. -/
theorem not_loadFile_hubs_all :
    (∃ c, Configures [] c ∧
      ((QshJsonParser.fresh 0).loadFile 1000 (fun _ ↦ []) (.content c)).ret = .ok (-1)) ∧
    ∃ hubs c, hubs ≠ [] ∧ (∀ h ∈ hubs, h.Valid) ∧ (hubs.map Hub.hubId).Nodup ∧
      (hubs.map Hub.platform).Nodup ∧ Configures hubs c ∧ ∀ fuel,
        ((QshJsonParser.fresh 0).loadFile fuel (fun _ ↦ []) (.content c)).ret = .ok (-1) := by
  refine ⟨⟨[123, 125], ?_, by decide +kernel⟩, ?_⟩
  · exact ⟨[], [], [], [125], .nil, .nil, fun _ h ↦ absurd h List.not_mem_nil,
      by decide +kernel, rfl⟩
  · obtain ⟨groups, texts, before, after, hd, htexts, hbefore, hafter, htext⟩ := configures_hubsFile
    have hlen : (hubsFile [slpi, adsp]).length ≤ 2 ^ 32 := by decide +kernel
    set padding := List.replicate (2 ^ 32 - (hubsFile [slpi, adsp]).length) (32 : UInt8)
      with hpadding
    refine ⟨[slpi, adsp], padding ++ hubsFile [slpi, adsp], List.cons_ne_nil _ _,
      List.forall_mem_cons.2 ⟨slpi_valid, List.forall_mem_singleton.2 adsp_valid⟩,
      by decide +kernel, by decide, ⟨groups, texts, padding ++ before, after, hd, htexts, ?_,
        hafter, by rw [htext, List.append_assoc]⟩,
      fun fuel ↦ loadFile_of_length_mod ?_ _ _ _⟩
    · intro b hb
      rcases List.mem_append.1 hb with hb | hb
      · rw [List.eq_of_mem_replicate hb]
        decide
      · exact hbefore b hb
    · rw [List.length_append, hpadding, List.length_replicate, Nat.sub_add_cancel hlen,
        Nat.mod_self]

end SensingHub.Json
