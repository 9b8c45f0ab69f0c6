import SensingHub.Json.Rearranged

/-!
# Names that are too long

A platform id is copied into a buffer of 15 bytes before it becomes a key of the name table, and an
entry that is there already stays. So a hub is found under the first 14 bytes of its platform id,
and not at all under a longer one. Where those 14 bytes are the whole platform id of a hub further
on in the file, the name of that hub resolves to the first.

Here are hubs behind QMI with platform ids of any length. What `getHubId` answers for them is the
first entry of the table under cut keys.
-/

namespace SensingHub.Json

open CLib (str atoi strlcpy)

/-! ### Hubs with names of any length -/

/-- A hub behind QMI, its strings of any length. -/
structure QmiHub where
  platform : Bytes
  id : Bytes
  service : Bytes

namespace QmiHub

/-- The id as the parser reads it. -/
def hubId (h : QmiHub) : ℤ :=
  atoi (strlcpy h.id MAX_DATA_VALUE_LEN)

/-- The hub as the tables hold it. -/
def entry (h : QmiHub) : HubEntry where
  platform := strlcpy h.platform MAX_DATA_VALUE_LEN
  hubId := h.hubId
  commType := COMM_TYPE_QMI
  attrs := atoi (strlcpy h.service MAX_DATA_VALUE_LEN)
  link := none

/-- The strings are none that stand for something missing. -/
structure Complete (h : QmiHub) : Prop where
  platform_ne : h.platform ≠ []
  hubId_ne : h.hubId ≠ -1
  attrs_ne : h.entry.attrs ≠ -1

/-- The items of a hub in their order. -/
def members (h : QmiHub) : List Member :=
  [dataItem (str "platform_id") h.platform, dataItem (str "sensing_hub_id") h.id,
    .group (str ".client_comm") (Transport.qmi h.service).members]

/-- A group describes a hub, with further strings anywhere in it. -/
structure DescribedBy (h : QmiHub) (g : TopGroup) : Prop where
  name_ne : g.name ≠ str "config"
  members : stripMembers g.members = h.members

end QmiHub

/-! ### Their groups -/

theorem membersHaveData_append {ms ms' : List Member} :
    MembersHaveData (ms ++ ms') ↔ MembersHaveData ms ∧ MembersHaveData ms' := by
  induction ms with
  | nil => simp [MembersHaveData]
  | cons m ms ih => simp [MembersHaveData, ih, and_assoc]

mutual

/-- Further strings leave every item its data. -/
theorem Member.hasData_of_strip (m : Member) (h : MembersHaveData m.strip) : m.HasData := by
  match m with
  | .string key value => trivial
  | .item key strings =>
    have hone := h.1
    rw [Member.HasData, List.filter_filter] at hone
    simpa only [Member.HasData, Bool.and_self] using hone
  | .group key members => exact membersHaveData_of_strip members h.1

theorem membersHaveData_of_strip (ms : List Member) (h : MembersHaveData (stripMembers ms)) :
    MembersHaveData ms := by
  match ms with
  | [] => trivial
  | m :: ms =>
    rw [stripMembers, membersHaveData_append] at h
    exact ⟨m.hasData_of_strip h.1, membersHaveData_of_strip ms h.2⟩

end

namespace QmiHub

variable {h : QmiHub} {g : TopGroup}

theorem DescribedBy.calls (hd : h.DescribedBy g) :
    g.calls = [⟨g.name, str "platform_id", some (strlcpy h.platform MAX_DATA_VALUE_LEN)⟩,
      ⟨g.name, str "sensing_hub_id", some (strlcpy h.id MAX_DATA_VALUE_LEN)⟩,
      ⟨str ".client_comm", str "client_comm_type", some COMM_TYPE_QMI⟩,
      ⟨str ".client_comm", str "service_id", some (strlcpy h.service MAX_DATA_VALUE_LEN)⟩] := by
  rw [TopGroup.calls, ← membersCalls_strip, hd.members]
  simp only [QmiHub.members, Transport.members, membersCalls, Member.calls, calls_dataItem]
  rfl

theorem DescribedBy.wellFormed (hd : h.DescribedBy g) : g.WellFormed := by
  refine ⟨hd.name_ne, fun hnil ↦ ?_, membersWellFormed_of_strip _ ?_⟩
  · have hstrip := hd.members
    rw [hnil] at hstrip
    cases hstrip
  · rw [hd.members]
    exact ⟨dataItem_wellFormed (by decide) _, dataItem_wellFormed (by decide) _,
      ⟨by decide, List.cons_ne_nil _ _, dataItem_wellFormed (by decide) _,
        dataItem_wellFormed (by decide) _, trivial⟩, trivial⟩

theorem DescribedBy.hasData (hd : h.DescribedBy g) : MembersHaveData g.members := by
  refine membersHaveData_of_strip _ ?_
  rw [hd.members]
  exact ⟨rfl, rfl, ⟨rfl, rfl, trivial⟩, trivial⟩

theorem Complete.entry_valid (hc : h.Complete) : h.entry.Valid where
  platform_ne := by
    have hne := hc.platform_ne
    rcases hplatform : h.platform with _ | ⟨b, bs⟩
    · exact absurd hplatform hne
    · simp [entry, strlcpy, hplatform, MAX_DATA_VALUE_LEN]
  hubId_ne := hc.hubId_ne
  commType := Or.inl rfl
  attrs_ne := hc.attrs_ne

theorem DescribedBy.saidBy (hd : h.DescribedBy g) : h.entry.SaidBy g.calls := by
  rw [hd.calls]
  refine ⟨rfl, rfl, rfl, rfl, rfl, ?_, fun hglink ↦ by cases hglink⟩
  simp +decide

theorem DescribedBy.inOrder (hd : h.DescribedBy g) : h.entry.InOrder g.calls := by
  rw [hd.calls, HubEntry.inOrder_iff]
  have hkey : h.entry.attrsKey = str "service_id" := rfl
  have hqmi : h.entry.commType ≠ COMM_TYPE_GLINK := by
    show COMM_TYPE_QMI ≠ _
    decide
  intro i hi
  match i with
  | 0 | 1 | 2 => exact ⟨by rw [hkey]; simp +decide, by simp +decide⟩
  | 3 => exact ⟨fun _ ↦ ⟨by simp [keysOf], fun hglink ↦ absurd hglink hqmi⟩, by simp +decide⟩

end QmiHub

/-- Groups that describe complete hubs can be read as they are. -/
theorem describe_qmiHubs {hubs : List QmiHub} {gs : List TopGroup}
    (hd : List.Forall₂ QmiHub.DescribedBy hubs gs) (hc : ∀ h ∈ hubs, h.Complete) :
    Describe (hubs.map fun h ↦ some h.entry) gs ∧
      List.Forall₂ Ordered (hubs.map fun h ↦ some h.entry) (gs.map TopGroup.calls) := by
  induction hd with
  | nil => exact ⟨⟨List.forall_mem_nil _, List.forall_mem_nil _, .nil⟩, .nil⟩
  | cons hg _ ih =>
    obtain ⟨hc, hcs⟩ := List.forall_mem_cons.1 hc
    obtain ⟨⟨hwf, hdata, htell⟩, horder⟩ := ih hcs
    exact ⟨⟨List.forall_mem_cons.2 ⟨hg.wellFormed, hwf⟩, List.forall_mem_cons.2 ⟨hg.hasData, hdata⟩,
      .cons ⟨hc.entry_valid, hg.saidBy⟩ htell⟩, .cons hg.inOrder horder⟩

/-! ### Finding them by name -/

/-- The entry of a hub in the name table. -/
def HubEntry.named (e : HubEntry) : Bytes × ℤ :=
  (e.platform, e.hubId)

theorem names_addEntries (p : QshJsonParser) (es : List HubEntry) :
    (p.addEntries es).mSensingHubNameIdMap =
      p.mSensingHubNameIdMap.insertAll (es.map HubEntry.named) := by
  induction es generalizing p with
  | nil => rfl
  | cons e es ih => exact ih (p.addEntry e)

/-- A name with its hub. -/
def QmiHub.named (h : QmiHub) : Bytes × ℤ :=
  (h.platform, h.hubId)

/-- The buffer cuts a string that it has cut no further. -/
theorem strlcpy_strlcpy (s : Bytes) (size : ℕ) :
    strlcpy (strlcpy s size) size = strlcpy s size := by
  rw [strlcpy, strlcpy, List.take_take, Nat.min_self]

/-- **A name resolves to the first hub that is cut to it**, of those that are read. -/
theorem names_loadFile {hubs : List QmiHub} {gs : List TopGroup} {gaps : List Bytes} {c : Bytes}
    (hd : List.Forall₂ QmiHub.DescribedBy hubs gs) (hcomplete : ∀ h ∈ hubs, h.Complete)
    (hc : IsText gs gaps c) (hne : hubs ≠ []) (hlt : c.length < 2 ^ 32) {fuel : ℕ}
    (hfuel : c.length < fuel) (stale : ℕ → Bytes) (deviceSocId : ℤ) (name : Bytes) :
    ((QshJsonParser.fresh deviceSocId).loadFile fuel stale (.content c)).parser.mSensingHubNameIdMap
        name =
      Table.firstFor (Table.mapKeys (strlcpy · MAX_DATA_VALUE_LEN)
        ((hubs.map QmiHub.named).take (groupsRead gaps))) name := by
  obtain ⟨hdescribe, horder⟩ := describe_qmiHubs hd hcomplete
  have hgs : gs ≠ [] := by
    rintro rfl
    exact hne (List.forall₂_nil_right_iff.1 hd)
  obtain ⟨-, scratch, hparser⟩ :=
    loadFile_describe hdescribe horder hc hgs hlt hfuel stale deviceSocId
  have hread : ((hubs.map fun h ↦ some h.entry).take (groupsRead gaps)).reduceOption =
      (hubs.take (groupsRead gaps)).map QmiHub.entry := by
    rw [← List.map_take]
    show ((hubs.take (groupsRead gaps)).map fun h ↦ some h.entry).filterMap id = _
    rw [List.filterMap_map]
    exact congrFun (List.filterMap_eq_map (f := QmiHub.entry)) _
  rw [hparser, hread]
  show ((QshJsonParser.fresh deviceSocId).addEntries _).mSensingHubNameIdMap name = _
  rw [names_addEntries, Table.insertAll_apply, Table.mapKeys, ← List.map_take, List.map_map,
    List.map_map]
  rfl

/-- No name of a hub resolves to another hub. -/
def NeverMistaken (p : QshJsonParser) (hubs : List QmiHub) : Prop :=
  ∀ h ∈ hubs, p.getHubId h.platform = h.hubId ∨ p.getHubId h.platform = -1

instance (p : QshJsonParser) (hubs : List QmiHub) : Decidable (NeverMistaken p hubs) :=
  inferInstanceAs (Decidable (∀ h ∈ hubs, _))

/-- No hub that is read is cut to the name of a hub further on. -/
def CutApart (hubs : List QmiHub) (gaps : List Bytes) : Prop :=
  ∀ pre a post, hubs = pre ++ a :: post → pre.length < groupsRead gaps →
    ∀ b ∈ post, strlcpy a.platform MAX_DATA_VALUE_LEN ≠ b.platform

theorem cutApart_iff {hubs : List QmiHub} {gaps : List Bytes} :
    CutApart hubs gaps ↔
      ∀ pre a post, hubs.map QmiHub.named = pre ++ a :: post → pre.length < groupsRead gaps →
        ∀ b ∈ post, strlcpy a.1 MAX_DATA_VALUE_LEN ≠ b.1 := by
  constructor
  · intro h pre a post hsplit hread b hb
    obtain ⟨pre, rest, rfl, rfl, hrest⟩ := List.map_eq_append_iff.1 hsplit
    obtain ⟨a, post, rfl, rfl, rfl⟩ := List.map_eq_cons_iff.1 hrest
    obtain ⟨b, hmem, rfl⟩ := List.mem_map.1 hb
    exact h pre a post rfl (by rwa [List.length_map] at hread) b hmem
  · rintro h pre a post rfl hread b hb
    exact h _ a.named _ (List.map_append ..) (by rwa [List.length_map]) b.named
      (List.mem_map_of_mem hb)

/-- **When no name resolves to another hub**: exactly where no hub that is read is cut to the name
of a hub further on. -/
theorem neverMistaken_iff {hubs : List QmiHub} {gs : List TopGroup} {gaps : List Bytes} {c : Bytes}
    (hd : List.Forall₂ QmiHub.DescribedBy hubs gs) (hcomplete : ∀ h ∈ hubs, h.Complete)
    (hids : (hubs.map QmiHub.hubId).Nodup) (hc : IsText gs gaps c) (hlt : c.length < 2 ^ 32)
    {fuel : ℕ} (hfuel : c.length < fuel) (stale : ℕ → Bytes) (deviceSocId : ℤ) :
    NeverMistaken ((QshJsonParser.fresh deviceSocId).loadFile fuel stale (.content c)).parser hubs ↔
      CutApart hubs gaps := by
  by_cases hne : hubs = []
  · subst hne
    refine ⟨fun _ pre a post hsplit ↦ ?_, fun _ h hh ↦ absurd hh List.not_mem_nil⟩
    exact absurd hsplit.symm (List.append_ne_nil_of_right_ne_nil pre (List.cons_ne_nil a post))
  have hvalues : ((hubs.map QmiHub.named).map Prod.snd).Nodup := by
    rw [List.map_map]
    exact hids
  have hnames := names_loadFile hd hcomplete hc hne hlt hfuel stale deviceSocId
  rw [cutApart_iff, ← Table.firstFor_mapKeys_iff (fun name ↦ strlcpy_strlcpy name _) hvalues]
  simp only [← hnames, NeverMistaken, List.forall_mem_map, QshJsonParser.getHubId, QmiHub.named]
  refine forall₂_congr fun h hh ↦ ?_
  rcases hname : ((QshJsonParser.fresh deviceSocId).loadFile fuel stale
      (.content c)).parser.mSensingHubNameIdMap h.platform with _ | v
  · exact iff_of_true (Or.inr rfl) fun v hv ↦ by cases hv
  · -- -1 is no id of a hub
    have hv : v ≠ -1 := by
      rw [hnames] at hname
      obtain ⟨e, he, -, rfl⟩ := Table.mem_mapKeys.1 (Table.mem_of_firstFor hname)
      obtain ⟨a, ha, rfl⟩ := List.mem_map.1 (List.mem_of_mem_take he)
      exact (hcomplete a ha).hubId_ne
    constructor
    · rintro (rfl | hmissing) _ ⟨⟩
      · rfl
      · exact absurd hmissing hv
    · exact fun hfound ↦ Or.inl (hfound v rfl)

/-! ### A name that is a cut of another -/

/-- A hub whose platform id is too long. -/
def islandOne : QmiHub :=
  ⟨str "sensing_island_1", str "1", str "400"⟩

/-- A hub whose platform id is what the buffer keeps of that. -/
def island : QmiHub :=
  ⟨str "sensing_island", str "2", str "401"⟩

/-- A group for a hub behind QMI. -/
def QmiHub.group (h : QmiHub) : TopGroup :=
  ⟨str "hub", h.members⟩

theorem islandOne_complete : islandOne.Complete :=
  ⟨by decide +kernel, by decide +kernel, by decide +kernel⟩

theorem island_complete : island.Complete :=
  ⟨by decide +kernel, by decide +kernel, by decide +kernel⟩

theorem QmiHub.describedBy_group (h : QmiHub) : h.DescribedBy h.group :=
  ⟨by show str "hub" ≠ _; decide, rfl⟩

theorem groupText_islandOne : GroupText islandOne.group islandOne.group.text :=
  ⟨by decide +kernel, by decide +kernel⟩

theorem groupText_island : GroupText island.group island.group.text :=
  ⟨by decide +kernel, by decide +kernel⟩

/-- With the shorter name in front neither hub is mistaken. -/
theorem neverMistaken_islands :
    NeverMistaken ((QshJsonParser.fresh 0).loadFile 1000 (fun _ ↦ [])
      (.content (groupsFile [island.group, islandOne.group] []))).parser [island, islandOne] := by
  have htext : IsText [island.group, islandOne.group] [[], []]
      (groupsFile [island.group, islandOne.group] []) :=
    isText_groupsFile (.cons groupText_island (.cons groupText_islandOne .nil))
      (List.forall_mem_nil _)
  have hapart : CutApart [island, islandOne] [[], []] := by
    rintro (_ | ⟨a', pre⟩) a post hsplit - b hb
    · cases hsplit
      rw [List.mem_singleton.1 hb]
      decide +kernel
    · -- behind the second hub there is none
      have hlen := congrArg List.length hsplit
      simp only [List.length_append, List.length_cons, List.length_nil] at hlen
      have := List.length_pos_of_mem hb
      omega
  exact (neverMistaken_iff (.cons island.describedBy_group (.cons islandOne.describedBy_group .nil))
    (List.forall_mem_cons.2 ⟨island_complete, List.forall_mem_singleton.2 islandOne_complete⟩)
    (by decide +kernel) htext (by decide +kernel) (by decide +kernel) (fun _ ↦ []) 0).2 hapart

theorem isText_islands :
    IsText [islandOne.group, island.group] [[], []]
      (groupsFile [islandOne.group, island.group] []) :=
  isText_groupsFile (.cons groupText_islandOne (.cons groupText_island .nil))
    (List.forall_mem_nil _)

/-- A hub is found under the name of another. -/
theorem not_neverMistaken_islands :
    (List.Forall₂ QmiHub.DescribedBy [islandOne, island] [islandOne.group, island.group] ∧
        (islandOne.Complete ∧ island.Complete) ∧ islandOne.hubId ≠ island.hubId ∧
        islandOne.platform ≠ island.platform ∧
        IsText [islandOne.group, island.group] [[], []]
          (groupsFile [islandOne.group, island.group] [])) ∧
      ((QshJsonParser.fresh 0).loadFile 1000 (fun _ ↦ [])
          (.content (groupsFile [islandOne.group, island.group] []))).parser.getHubId
        island.platform = islandOne.hubId ∧
      ¬ NeverMistaken ((QshJsonParser.fresh 0).loadFile 1000 (fun _ ↦ [])
        (.content (groupsFile [islandOne.group, island.group] []))).parser [islandOne, island] := by
  have hfound : ((QshJsonParser.fresh 0).loadFile 1000 (fun _ ↦ [])
      (.content (groupsFile [islandOne.group, island.group] []))).parser.getHubId
        island.platform = islandOne.hubId := by decide +kernel
  refine ⟨⟨.cons islandOne.describedBy_group (.cons island.describedBy_group .nil),
    ⟨islandOne_complete, island_complete⟩, by decide +kernel, by decide, isText_islands⟩, hfound,
    fun h ↦ ?_⟩
  have hisland := h island (List.mem_cons_of_mem _ (List.mem_singleton_self _))
  rw [hfound] at hisland
  exact absurd hisland (by decide +kernel)

end SensingHub.Json
