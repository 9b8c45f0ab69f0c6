import SensingHub.Json.History
import SensingHub.Json.Rearranged

/-!
# Ids in the tables and in the hub list

The id of an item `sensing_hub_id` goes into the hub list where it is read, and the entries of the
name table and of the communication table are made for such an id only. The third table is written
without that test: a `link_name` that comes before the id of its hub, or behind the item that has
completed the hub, is entered under -1.
-/

namespace SensingHub.Json

open CLib (str atoi)

/-! ### What the tables refer to -/

/-- The tables refer to hubs of the hub list only, and no communication entry lacks anything. -/
structure QshJsonParser.RefersToListed (p : QshJsonParser) : Prop where
  names : ∀ name hubId, p.mSensingHubNameIdMap name = some hubId → hubId ∈ p.getHubIdList
  comms : ∀ hubId comm, p.mSensingHubCommMap hubId = some comm →
    hubId ∈ p.getHubIdList ∧ comm.1 ≠ [] ∧ comm.2 ≠ -1
  hubNames : ∀ hubId name, p.mSensingHubIdNameMap hubId = some name → hubId ∈ p.getHubIdList

/-- The same but for the hub name under -1. -/
structure QshJsonParser.RefersAlmost (p : QshJsonParser) : Prop where
  names : ∀ name hubId, p.mSensingHubNameIdMap name = some hubId → hubId ∈ p.getHubIdList
  comms : ∀ hubId comm, p.mSensingHubCommMap hubId = some comm →
    hubId ∈ p.getHubIdList ∧ comm.1 ≠ [] ∧ comm.2 ≠ -1
  hubNames : ∀ hubId name, p.mSensingHubIdNameMap hubId = some name →
    hubId = -1 ∨ hubId ∈ p.getHubIdList

namespace QshJsonParser

variable {p : QshJsonParser}

theorem refersToListed_iff_almost :
    p.RefersToListed ↔
      p.RefersAlmost ∧ ∀ name, p.mSensingHubIdNameMap (-1) = some name → -1 ∈ p.getHubIdList := by
  constructor
  · intro h
    exact ⟨⟨h.names, h.comms, fun hubId name hname ↦ Or.inr (h.hubNames hubId name hname)⟩,
      h.hubNames (-1)⟩
  · rintro ⟨h, hunknown⟩
    refine ⟨h.names, h.comms, fun hubId name hname ↦ ?_⟩
    rcases h.hubNames hubId name hname with rfl | hmem
    · exact hunknown name hname
    · exact hmem

/-- A communication entry behind an item was there or lacks nothing. -/
theorem comm_updateSensingHubInfo {grpName key value : Bytes} {hubId : ℤ} {comm : Bytes × ℤ}
    (h : (p.updateSensingHubInfo grpName key value).mSensingHubCommMap hubId = some comm) :
    p.mSensingHubCommMap hubId = some comm ∨ comm.1 ≠ [] ∧ comm.2 ≠ -1 := by
  rw [updateSensingHubInfo_eq] at h
  dsimp only at h
  split_ifs at h with hcomm
  · rcases Table.eq_some_of_insert h with hold | ⟨-, rfl⟩
    · exact Or.inl hold
    · exact Or.inr hcomm.2
  · exact Or.inl h

/-- An item keeps the tables to listed hubs, but for the hub name under -1. -/
theorem RefersAlmost.update (h : p.RefersAlmost) (hp : HubListed p) (grpName key value : Bytes) :
    (p.updateSensingHubInfo grpName key value).RefersAlmost := by
  obtain ⟨-, hreads⟩ := readsOn_updateSensingHubInfo hp grpName key value
  refine ⟨fun name hubId hname ↦ ?_, fun hubId comm hcomm ↦ ?_, fun hubId name hname ↦ ?_⟩
  · rcases hreads.names name with hold | ⟨-, hubId', hmem, hnew⟩
    · exact hreads.hubIds (h.names name hubId (hold.symm.trans hname))
    · obtain rfl := Option.some.inj (hnew.symm.trans hname)
      exact hmem
  · constructor
    · rcases hreads.comms hubId with hold | ⟨-, hmem⟩
      · exact hreads.hubIds (h.comms hubId comm (hold.symm.trans hcomm)).1
      · exact hmem
    · rcases comm_updateSensingHubInfo hcomm with hold | hnew
      · exact (h.comms hubId comm hold).2
      · exact hnew
  · rcases hreads.hubNames hubId with hold | hunknown
    · exact (h.hubNames hubId name (hold.symm.trans hname)).imp_right fun hmem ↦ hreads.hubIds hmem
    · exact hunknown

end QshJsonParser

/-! ### Whatever is loaded -/

instance : ReadsWithin fun p q ↦
    HubListed p ∧ p.RefersAlmost → HubListed q ∧ q.RefersAlmost where
  refl _ h := h
  trans h₁ h₂ h := h₂ (h₁ h)
  update _ grpName key value h :=
    ⟨(readsOn_updateSensingHubInfo h.1 grpName key value).1, h.2.update h.1 grpName key value⟩
  soc _ _ _ h := ⟨h.1, h.2.names, h.2.comms, h.2.hubNames⟩

theorem refersAlmost_fresh (deviceSocId : ℤ) :
    (QshJsonParser.fresh deviceSocId).resetParserState.RefersAlmost :=
  ⟨by rintro _ _ ⟨⟩, by rintro _ _ ⟨⟩, by rintro _ _ ⟨⟩⟩

/-- **But for the hub name under -1 the tables refer to listed hubs**, whatever is loaded into a new
parser and however that ends. -/
theorem refersAlmost_loadFile (fuel : ℕ) (stale : ℕ → Bytes) (file : FileOutcome)
    (deviceSocId : ℤ) :
    ((QshJsonParser.fresh deviceSocId).loadFile fuel stale file).parser.RefersAlmost := by
  have hfresh := refersAlmost_fresh deviceSocId
  cases file with
  | content c =>
    have hrun := within_parseFile
      (R := fun p q ↦ HubListed p ∧ p.RefersAlmost → HubListed q ∧ q.RefersAlmost) fuel 0
      (c.length % 2 ^ 32) (Machine.start (QshJsonParser.fresh deviceSocId).resetParserState c stale)
    obtain ⟨-, hread⟩ := hrun ⟨Or.inl rfl, hfresh⟩
    simp only [QshJsonParser.loadFile]
    generalize parseFile fuel 0 (c.length % 2 ^ 32)
      (Machine.start (QshJsonParser.fresh deviceSocId).resetParserState c stale) = x at hread ⊢
    rcases x with ⟨stop | ⟨ret, cursor⟩, m⟩
    · exact hread
    · dsimp only
      split_ifs
      · exact ⟨hread.names, hread.comms, hread.hubNames⟩
      · exact hread
  | _ => exact hfresh

/-! ### Names for no hub -/

/-- Some item names a hub while the id of the hub is not known. -/
def NamesUnknownHub (cs : List Call) : Prop :=
  ∃ pre c post, cs = pre ++ c :: post ∧ (Scratch.initial.readCalls pre).mSensingHubId = -1 ∧
    (c.grpName = str ".client_comm" ∨ (Scratch.initial.readCalls pre).mIsClientCommGrp = true) ∧
      c.key = str "link_name" ∧ c.data.getD [] ≠ str "apps"

/-- The names that are entered under -1. -/
theorem exists_mem_hubNames_iff {cs : List Call} :
    (∃ name, (-1, name) ∈ (entriesOf cs).hubNames) ↔ NamesUnknownHub cs := by
  constructor
  · rintro ⟨name, hmem⟩
    obtain ⟨pre, c, post, hcs, hentry⟩ := Scratch.mem_along_iff.1 hmem
    unfold Scratch.hubNameEntry at hentry
    split_ifs at hentry with hlink
    exact ⟨pre, c, post, hcs, congrArg Prod.fst (Option.some.inj hentry), hlink⟩
  · rintro ⟨pre, c, post, hcs, hid, hlink⟩
    refine ⟨c.data.getD [], Scratch.mem_along_iff.2 ⟨pre, c, post, hcs, ?_⟩⟩
    rw [Scratch.hubNameEntry, if_pos hlink, hid]

/-- The ids that are listed. -/
theorem mem_hubIds_iff {cs : List Call} {hubId : ℤ} :
    hubId ∈ (entriesOf cs).hubIds ↔ MentionsHub cs hubId := by
  constructor
  · intro hmem
    obtain ⟨pre, c, post, rfl, hentry⟩ := Scratch.mem_along_iff.1 hmem
    unfold Scratch.hubIdEntry at hentry
    split_ifs at hentry with hkey
    exact ⟨c, by simp, hkey, Option.some.inj hentry⟩
  · rintro ⟨c, hc, hkey, rfl⟩
    obtain ⟨pre, post, rfl⟩ := List.append_of_mem hc
    refine Scratch.mem_along_iff.2 ⟨pre, c, post, rfl, ?_⟩
    rw [Scratch.hubIdEntry, if_pos hkey]

/-- **When the tables refer to listed hubs only**: exactly where no item names a hub while its id is
not known, or -1 is listed as an id. -/
theorem refersToListed_iff {deviceSocId : ℤ} {c : Bytes} {fuel : ℕ} (hfits : FitsCursors fuel c)
    {o : Outline} (ho : Format.outline deviceSocId fuel (lex c) = some o) (stale : ℕ → Bytes) :
    ((QshJsonParser.fresh deviceSocId).loadFile fuel stale (.content c)).parser.RefersToListed ↔
      (NamesUnknownHub (fillCalls stale 0 o.calls) →
        MentionsHub (fillCalls stale 0 o.calls) (-1)) := by
  have halmost := refersAlmost_loadFile fuel stale (.content c) deviceSocId
  obtain ⟨hadded, -⟩ :=
    loadFile_entries (p := QshJsonParser.fresh deviceSocId) hfits ho stale
  have hunknown : (∃ name, ((QshJsonParser.fresh deviceSocId).loadFile fuel stale
      (.content c)).parser.mSensingHubIdNameMap (-1) = some name) ↔
        NamesUnknownHub (fillCalls stale 0 o.calls) := by
    rw [← exists_mem_hubNames_iff, hadded.hubNames]
    simp only [Table.assignAll_apply, QshJsonParser.fresh, Table.empty_apply, Option.or_none]
    constructor
    · rintro ⟨name, hname⟩
      exact ⟨name, List.mem_reverse.1 (Table.mem_of_firstFor hname)⟩
    · rintro ⟨name, hmem⟩
      exact Table.exists_firstFor_of_mem (List.mem_reverse.2 hmem)
  rw [QshJsonParser.refersToListed_iff_almost, ← hunknown, ← mem_hubIds_iff, ← hadded.hubIds]
  exact ⟨fun h ⟨name, hname⟩ ↦ h.2 name hname, fun h ↦ ⟨halmost, fun name hname ↦ h ⟨name, hname⟩⟩⟩

theorem refersToListed_hubsFile :
    ((QshJsonParser.fresh 0).loadFile 1000 (fun _ ↦ [])
      (.content (hubsFile [slpi, adsp]))).parser.RefersToListed := by
  have hlen : (hubsFile [slpi, adsp]).length ≤ 1000 := by decide +kernel
  have hnames : ∀ o ∈ Format.outline 0 1000 (lex (hubsFile [slpi, adsp])),
      ∀ e ∈ (entriesOf (fillCalls (fun _ ↦ []) 0 o.calls)).hubNames, e.1 ≠ -1 := by
    decide +kernel
  obtain ⟨o, ho⟩ : ∃ o, Format.outline 0 1000 (lex (hubsFile [slpi, adsp])) = some o :=
    Format.outline_isSome ((length_lex_le _).trans hlen)
  refine (refersToListed_iff (fitsCursors_of_lt (by omega)) ho _).2 fun hunknown ↦ ?_
  obtain ⟨name, hmem⟩ := exists_mem_hubNames_iff.2 hunknown
  exact absurd rfl (hnames o ho _ hmem)

/-! ### A link ahead of its hub -/

/-- A hub whose transport comes before its ids. -/
def linkFirst : TopGroup :=
  ⟨str "adsp", [.group (str ".client_comm") [dataItem (str "client_comm_type") (str "1"),
      dataItem (str "link_name") (str "lpass")],
    dataItem (str "platform_id") (str "adsp"), dataItem (str "sensing_hub_id") (str "2")]⟩

/-- A link ahead of the id of its hub is entered under -1, which is no hub. -/
theorem not_refersToListed_linkFirst :
    (MembersHaveData linkFirst.members ∧
        IsText [linkFirst] [[]] (groupsFile [linkFirst] [])) ∧
      ¬ ((QshJsonParser.fresh 0).loadFile 1000 (fun _ ↦ [])
        (.content (groupsFile [linkFirst] []))).parser.RefersToListed := by
  refine ⟨⟨⟨⟨rfl, rfl, trivial⟩, rfl, rfl, trivial⟩, isText_groupsFile
    (.cons ⟨by decide +kernel, by decide +kernel⟩ .nil) (List.forall_mem_nil _)⟩, fun h ↦ ?_⟩
  have hname : ((QshJsonParser.fresh 0).loadFile 1000 (fun _ ↦ [])
      (.content (groupsFile [linkFirst] []))).parser.mSensingHubIdNameMap (-1) =
        some (str "lpass") := by decide +kernel
  exact absurd (h.hubNames (-1) (str "lpass") hname) (by decide +kernel)

end SensingHub.Json
