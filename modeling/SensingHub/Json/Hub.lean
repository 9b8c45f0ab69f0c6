import SensingHub.Json.Document

/-!
# Hubs

A hub as a configuration describes it: a name for its group, an id, a platform id, and how a client
communicates with it. The group that describes it holds these as items, in the order the parser
needs them in, and any further strings anywhere in it; reading such a group adds the hub to the
tables and leaves the scratch members as they were before it, so that hubs can be read one after
another.
-/

namespace SensingHub.Json

open CLib (str atoi isDigit digitsValue strlcpy stoi)

/-! ### Descriptions -/

/-- How a client communicates with a hub, with the strings that say so. -/
inductive Transport
  | qmi (service : Bytes)
  | glink (link key value groupKey channels : Bytes)

/-- A hub. -/
structure Hub where
  name : Bytes
  platform : Bytes
  id : Bytes
  transport : Transport

/-- A decimal that fits the buffer and an `int`. -/
structure IsDecimal (s : Bytes) : Prop where
  ne_nil : s ≠ []
  digits : ∀ b ∈ s, isDigit b = true
  length_le : s.length ≤ 14
  lt : digitsValue s < 2 ^ 31

/-- The keys that `updateSensingHubInfo` knows. -/
def knownKeys : List Bytes :=
  [str "platform_id", str "sensing_hub_id", str "client_comm_type", str "service_id",
    str "link_name", str "no_of_channels"]

/-- The strings of a transport can be told from what the parser treats specially. -/
def Transport.Valid : Transport → Prop
  | .qmi service => IsDecimal service
  | .glink link key value groupKey channels =>
    (link.length ≤ 14 ∧ link ≠ str "apps") ∧
    (key ∉ knownKeys ∧ key.head? ≠ some 46) ∧
    (value.length ≤ 14 ∧ value ≠ str "apps") ∧
    (groupKey.head? = some 46 ∧ groupKey ≠ str ".client_comm") ∧
    IsDecimal channels

/-- A hub whose strings fit the buffer. -/
structure Hub.Valid (h : Hub) : Prop where
  name_ne : h.name ≠ str "config" ∧ h.name ≠ str ".client_comm"
  platform_ne : h.platform ≠ []
  platform_le : h.platform.length ≤ 14
  id : IsDecimal h.id
  transport : h.transport.Valid

/-- An item that holds one string. -/
def dataItem (key value : Bytes) : Member :=
  .item key [(str "data", value)]

/-- The members of the group `.client_comm`. -/
def Transport.members : Transport → List Member
  | .qmi service =>
    [dataItem (str "client_comm_type") (str "0"), dataItem (str "service_id") service]
  | .glink link key value groupKey channels =>
    [dataItem (str "client_comm_type") (str "1"), dataItem (str "link_name") link,
      dataItem key value, .group groupKey [dataItem (str "no_of_channels") channels]]

/-- The group `.client_comm`. -/
def Hub.clientComm (h : Hub) : Member :=
  .group (str ".client_comm") h.transport.members

mutual

/-- A member without the strings that are of no consequence. -/
def Member.strip : Member → List Member
  | .string _ _ => []
  | .item key strings => [.item key (strings.filter fun s ↦ s.1 = str "data")]
  | .group key members => [.group key (stripMembers members)]

/-- Members without the strings that are of no consequence. -/
def stripMembers : List Member → List Member
  | [] => []
  | m :: ms => m.strip ++ stripMembers ms

end

/-- The members of a group describe a hub: but for further strings they are its two ids, in either
order, and its transport. -/
def Hub.Describes (h : Hub) (members : List Member) : Prop :=
  stripMembers members =
      [dataItem (str "platform_id") h.platform, dataItem (str "sensing_hub_id") h.id,
        h.clientComm] ∨
    stripMembers members =
      [dataItem (str "sensing_hub_id") h.id, dataItem (str "platform_id") h.platform,
        h.clientComm]

/-- The call of an item that holds one string. -/
theorem calls_dataItem (grpName key value : Bytes) :
    (dataItem key value).calls grpName =
      [⟨grpName, key, some (strlcpy value MAX_DATA_VALUE_LEN)⟩] := by
  rw [dataItem, Member.calls, stringsData, stringsData, Format.itemData, if_pos rfl]

/-! ### Strings of no consequence -/

theorem stringsData_filter (strings : List (Bytes × Bytes)) (data : Option Bytes) :
    stringsData (strings.filter fun s ↦ s.1 = str "data") data = stringsData strings data := by
  induction strings generalizing data with
  | nil => rfl
  | cons s strings ih =>
    obtain ⟨key, value⟩ := s
    by_cases hkey : key = str "data"
    · rw [List.filter_cons_of_pos (by simp [hkey]), stringsData, stringsData, ih]
    · rw [List.filter_cons_of_neg (by simp [hkey]), ih, stringsData, Format.itemData, if_neg hkey]

theorem membersCalls_append (grpName : Bytes) (ms ms' : List Member) :
    membersCalls grpName (ms ++ ms') = membersCalls grpName ms ++ membersCalls grpName ms' := by
  induction ms with
  | nil => rfl
  | cons m ms ih => simp [membersCalls, ih]

mutual

/-- Further strings make no call. -/
theorem Member.calls_strip (grpName : Bytes) (m : Member) :
    membersCalls grpName m.strip = m.calls grpName := by
  match m with
  | .string key value => rfl
  | .item key strings =>
    simp [Member.strip, membersCalls, Member.calls, stringsData_filter]
  | .group key members =>
    simp [Member.strip, membersCalls, Member.calls, membersCalls_strip key members]

theorem membersCalls_strip (grpName : Bytes) (ms : List Member) :
    membersCalls grpName (stripMembers ms) = membersCalls grpName ms := by
  match ms with
  | [] => rfl
  | m :: ms =>
    rw [stripMembers, membersCalls_append, m.calls_strip grpName, membersCalls_strip grpName ms,
      membersCalls]

end

mutual

/-- Further strings leave a tree well formed. -/
theorem Member.wellFormed_of_strip (m : Member) (h : MembersWellFormed m.strip) :
    m.WellFormed := by
  match m with
  | .string key value => trivial
  | .item key strings =>
    obtain ⟨⟨hkey, hne⟩, -⟩ := h
    exact ⟨hkey, fun hnil ↦ hne (by rw [hnil]; rfl)⟩
  | .group key members =>
    obtain ⟨⟨hkey, hne, hmembers⟩, -⟩ := h
    exact ⟨hkey, fun hnil ↦ hne (by rw [hnil]; rfl), membersWellFormed_of_strip members hmembers⟩

theorem membersWellFormed_of_strip (ms : List Member) (h : MembersWellFormed (stripMembers ms)) :
    MembersWellFormed ms := by
  match ms with
  | [] => trivial
  | m :: ms =>
    rw [stripMembers, membersWellFormed_append] at h
    exact ⟨m.wellFormed_of_strip h.1, membersWellFormed_of_strip ms h.2⟩

end

theorem dataItem_wellFormed {key : Bytes} (hkey : key.head? ≠ some 46) (value : Bytes) :
    (dataItem key value).WellFormed :=
  ⟨hkey, List.cons_ne_nil _ _⟩

theorem Transport.Valid.members {t : Transport} (h : t.Valid) :
    t.members ≠ [] ∧ MembersWellFormed t.members := by
  cases t with
  | qmi service =>
    exact ⟨List.cons_ne_nil _ _, dataItem_wellFormed (by decide) _,
      dataItem_wellFormed (by decide) _, trivial⟩
  | glink link key value groupKey channels =>
    exact ⟨List.cons_ne_nil _ _, dataItem_wellFormed (by decide) _,
      dataItem_wellFormed (by decide) _, dataItem_wellFormed h.2.1.2 _,
      ⟨h.2.2.2.1.1, List.cons_ne_nil _ _, dataItem_wellFormed (by decide) _, trivial⟩, trivial⟩

/-- A group that describes a hub is one the parser reads. -/
theorem Hub.Valid.wellFormed {h : Hub} (hv : h.Valid) {members : List Member}
    (hd : h.Describes members) : TopGroup.WellFormed ⟨h.name, members⟩ := by
  have hcomm : h.clientComm.WellFormed :=
    ⟨by decide, hv.transport.members.1, hv.transport.members.2⟩
  have hplatform : (dataItem (str "platform_id") h.platform).WellFormed :=
    dataItem_wellFormed (by decide) h.platform
  have hid : (dataItem (str "sensing_hub_id") h.id).WellFormed :=
    dataItem_wellFormed (by decide) h.id
  refine ⟨hv.name_ne.1, fun hnil ↦ ?_, membersWellFormed_of_strip members ?_⟩
  · dsimp only at hnil
    subst hnil
    rcases hd with hd | hd <;> cases hd
  · rcases hd with hd | hd
    · rw [hd]
      exact ⟨hplatform, hid, hcomm, trivial⟩
    · rw [hd]
      exact ⟨hid, hplatform, hcomm, trivial⟩

end SensingHub.Json
