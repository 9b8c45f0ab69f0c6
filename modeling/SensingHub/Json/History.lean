import SensingHub.Json.Entries
import SensingHub.Json.FailedLoad

/-!
# Loading one file after another

`resetParserState` empties the hub list but leaves the three tables alone. So a load adds its
entries to those of all loads before it: in the name table and in the communication table an old
entry wins over a new one, in the table of hub names the new one wins. What a file is loaded behind
does not show exactly if the file itself makes every entry that is there already.
-/

namespace SensingHub.Json

open CLib (str stoi)

/-! ### What a load does to the tables -/

/-- The entries that items make on a parser object that has been reset. -/
structure Entries where
  names : List (Bytes × ℤ)
  comms : List (ℤ × Bytes × ℤ)
  hubNames : List (ℤ × Bytes)
  hubIds : List ℤ

/-- The entries of some calls. -/
def entriesOf (cs : List Call) : Entries where
  names := Scratch.initial.along Scratch.nameEntry cs
  comms := Scratch.initial.along Scratch.commEntry cs
  hubNames := Scratch.initial.along Scratch.hubNameEntry cs
  hubIds := Scratch.initial.along Scratch.hubIdEntry cs

/-- `q` is `p` with the hub list replaced and entries added. -/
structure Entries.AddedTo (e : Entries) (p q : QshJsonParser) : Prop where
  names : q.mSensingHubNameIdMap = p.mSensingHubNameIdMap.insertAll e.names
  comms : q.mSensingHubCommMap = p.mSensingHubCommMap.insertAll e.comms
  hubNames : q.mSensingHubIdNameMap = p.mSensingHubIdNameMap.assignAll e.hubNames
  hubIds : q.mHubIds = e.hubIds

/-- **A load adds the entries of its calls**, and sets `mIsFileParsed` if its result is 0. -/
theorem loadFile_entries {p : QshJsonParser} {c : Bytes} {fuel : ℕ} (hfits : FitsCursors fuel c)
    {o : Outline} (ho : Format.outline p.mDeviceSocId fuel (lex c) = some o)
    (stale : ℕ → Bytes) :
    (entriesOf (fillCalls stale 0 o.calls)).AddedTo p
        (p.loadFile fuel stale (.content c)).parser ∧
      (p.loadFile fuel stale (.content c)).parser.mIsFileParsed =
        (p.mIsFileParsed || decide (o.ending.result = .ok 0)) := by
  obtain ⟨-, socIds, socId, hparser⟩ := loadFile_outline hfits ho stale
  rw [hparser, parser_calls_fill]
  refine ⟨⟨?_, ?_, ?_, ?_⟩, rfl⟩
  · exact names_readCalls p.resetParserState _
  · exact comms_readCalls p.resetParserState _
  · exact hubNames_readCalls p.resetParserState _
  · exact (hubIds_readCalls p.resetParserState _).trans (List.nil_append _)

/-! ### Parser objects that loads have left -/

/-- No table holds the answer for an entry that is missing. -/
structure QshJsonParser.Proper (p : QshJsonParser) : Prop where
  names : ∀ name, p.mSensingHubNameIdMap name ≠ some (-1)
  comms : ∀ hubId comm, p.mSensingHubCommMap hubId = some comm → comm.2 ≠ -1

theorem proper_updateSensingHubInfo {p : QshJsonParser} (hp : p.Proper)
    (grpName key value : Bytes) : (p.updateSensingHubInfo grpName key value).Proper := by
  rw [QshJsonParser.updateSensingHubInfo_eq]
  refine ⟨fun name ↦ ?_, fun hubId comm hentry ↦ ?_⟩
  · dsimp only
    split_ifs with hname
    · intro hentry
      rcases Table.eq_some_of_insert hentry with hold | ⟨-, hnew⟩
      · exact hp.names name hold
      · exact hname.1 hnew.symm
    · exact hp.names name
  · dsimp only at hentry
    split_ifs at hentry with hcomm
    · rcases Table.eq_some_of_insert hentry with hold | ⟨-, hnew⟩
      · exact hp.comms hubId comm hold
      · rw [hnew]
        exact hcomm.2.2
    · exact hp.comms hubId comm hentry

instance : ReadsWithin fun p q ↦
    q.mDeviceSocId = p.mDeviceSocId ∧ (p.Proper → q.Proper) where
  refl _ := ⟨rfl, id⟩
  trans h₁ h₂ := ⟨h₂.1.trans h₁.1, h₂.2 ∘ h₁.2⟩
  update p _ _ _ := ⟨by rw [QshJsonParser.updateSensingHubInfo_eq],
    fun hp ↦ proper_updateSensingHubInfo hp _ _ _⟩
  soc _ _ _ := ⟨rfl, fun hp ↦ ⟨hp.names, hp.comms⟩⟩

/-- What any loads, with any outcomes, leave of a new parser object. -/
theorem proper_of_run {device : ℤ} {history : List Load} {p : QshJsonParser}
    (h : session.Run (QshJsonParser.fresh device) history p) :
    p.mDeviceSocId = device ∧ p.Proper := by
  refine TransitionSystem.Preserves.of_run (P := fun p ↦ p.mDeviceSocId = device ∧ p.Proper)
    ?_ ⟨rfl, ⟨fun _ h ↦ (by cases h), fun _ _ h ↦ (by cases h)⟩⟩ h
  rintro p l q ⟨hdevice, hp⟩ - rfl
  have hload := within_loadFile
    (R := fun p q ↦ q.mDeviceSocId = p.mDeviceSocId ∧ (p.Proper → q.Proper))
    (fun _ ↦ ⟨rfl, fun hp ↦ ⟨hp.names, hp.comms⟩⟩)
    (fun _ _ ↦ ⟨rfl, fun hp ↦ ⟨hp.names, hp.comms⟩⟩) p l.fuel l.stale l.file
  exact ⟨hload.1.trans hdevice, hload.2 hp⟩

/-! ### The answers -/

/-- Two parser objects answer every query about hubs alike. -/
structure SameHubs (p q : QshJsonParser) : Prop where
  getHubIdList : q.getHubIdList = p.getHubIdList
  getHubId : ∀ name, q.getHubId name = p.getHubId name
  getCommType : ∀ hubId, q.getCommType hubId = p.getCommType hubId
  getCommHandleAttrs : ∀ hubId, q.getCommHandleAttrs hubId = p.getCommHandleAttrs hubId
  getHubName : ∀ hubId, q.getHubName hubId = p.getHubName hubId

/-- The answer that a communication type gives. -/
def commTypeAnswer (commType : Bytes) : ℤ :=
  match stoi commType with
  | .ok n => n
  | .error _ => -1

theorem getCommType_eq (p : QshJsonParser) (hubId : ℤ) :
    p.getCommType hubId =
      ((p.mSensingHubCommMap hubId).map fun comm ↦ commTypeAnswer comm.1).getD (-1) := by
  unfold QshJsonParser.getCommType
  rcases p.mSensingHubCommMap hubId with _ | ⟨commType, value⟩ <;> rfl

theorem getCommHandleAttrs_eq (p : QshJsonParser) (hubId : ℤ) :
    p.getCommHandleAttrs hubId = ((p.mSensingHubCommMap hubId).map Prod.snd).getD (-1) := by
  unfold QshJsonParser.getCommHandleAttrs
  rcases p.mSensingHubCommMap hubId with _ | ⟨commType, value⟩ <;> rfl

theorem getHubId_eq (p : QshJsonParser) (name : Bytes) :
    p.getHubId name = (p.mSensingHubNameIdMap name).getD (-1) := by
  unfold QshJsonParser.getHubId
  cases p.mSensingHubNameIdMap name <;> rfl

theorem getHubName_eq (p : QshJsonParser) (hubId : ℤ) :
    p.getHubName hubId = (p.mSensingHubIdNameMap hubId).getD [] := by
  unfold QshJsonParser.getHubName
  cases p.mSensingHubIdNameMap hubId <;> rfl

/-- Every entry that a parser object holds, and that shows, is among some entries: for each name and
each hub id the first of them is the same, and for each hub id with a name there is a new name. -/
structure QshJsonParser.CoveredBy (p : QshJsonParser) (e : Entries) : Prop where
  names : ∀ name hubId, p.mSensingHubNameIdMap name = some hubId →
    Table.firstFor e.names name = some hubId
  comms : ∀ hubId comm, p.mSensingHubCommMap hubId = some comm →
    ∃ commType, Table.firstFor e.comms hubId = some (commType, comm.2) ∧
      commTypeAnswer commType = commTypeAnswer comm.1
  hubNames : ∀ hubId name, p.mSensingHubIdNameMap hubId = some name → name ≠ [] →
    ∃ name', Table.firstFor e.hubNames.reverse hubId = some name'

/-- Old entries do not show exactly if the new ones cover them. -/
theorem sameHubs_iff_coveredBy {p q r : QshJsonParser} {e : Entries} (hp : p.Proper)
    (hq : e.AddedTo (QshJsonParser.fresh p.mDeviceSocId) q) (hr : e.AddedTo p r) :
    SameHubs q r ↔ p.CoveredBy e := by
  have hqnames (name : Bytes) : q.mSensingHubNameIdMap name = Table.firstFor e.names name := by
    rw [hq.names, Table.insertAll_apply]
    rfl
  have hrnames (name : Bytes) : r.mSensingHubNameIdMap name =
      (p.mSensingHubNameIdMap name).or (Table.firstFor e.names name) := by
    rw [hr.names, Table.insertAll_apply]
  have hqcomms (hubId : ℤ) : q.mSensingHubCommMap hubId = Table.firstFor e.comms hubId := by
    rw [hq.comms, Table.insertAll_apply]
    rfl
  have hrcomms (hubId : ℤ) : r.mSensingHubCommMap hubId =
      (p.mSensingHubCommMap hubId).or (Table.firstFor e.comms hubId) := by
    rw [hr.comms, Table.insertAll_apply]
  have hqhubNames (hubId : ℤ) :
      q.mSensingHubIdNameMap hubId = Table.firstFor e.hubNames.reverse hubId := by
    rw [hq.hubNames, Table.assignAll_apply]
    exact Option.or_none ..
  have hrhubNames (hubId : ℤ) : r.mSensingHubIdNameMap hubId =
      (Table.firstFor e.hubNames.reverse hubId).or (p.mSensingHubIdNameMap hubId) := by
    rw [hr.hubNames, Table.assignAll_apply]
  constructor
  · intro hsame
    refine ⟨fun name hubId hname ↦ ?_, fun hubId comm hcomm ↦ ?_, fun hubId name hname hne ↦ ?_⟩
    · -- `insert` keeps an old entry, so it shows wherever the new entries say otherwise
      have hanswer := hsame.getHubId name
      rw [getHubId_eq, getHubId_eq, hrnames, hqnames, hname, Option.some_or, Option.getD_some]
        at hanswer
      rcases hfirst : Table.firstFor e.names name with _ | hubId'
      · rw [hfirst] at hanswer
        exact absurd (hname.trans (congrArg some hanswer)) (hp.names name)
      · rw [hfirst] at hanswer
        exact congrArg some hanswer.symm
    · have htype := hsame.getCommType hubId
      have hvalue := hsame.getCommHandleAttrs hubId
      rw [getCommType_eq, getCommType_eq, hrcomms, hqcomms, hcomm] at htype
      rw [getCommHandleAttrs_eq, getCommHandleAttrs_eq, hrcomms, hqcomms, hcomm] at hvalue
      rcases hfirst : Table.firstFor e.comms hubId with _ | ⟨commType, value⟩
      · rw [hfirst] at hvalue
        exact absurd hvalue (hp.comms hubId comm hcomm)
      · rw [hfirst] at htype hvalue
        obtain rfl : comm.2 = value := hvalue
        exact ⟨commType, rfl, htype.symm⟩
    · -- a name is assigned: an old one shows only where there is no new one
      have hanswer := hsame.getHubName hubId
      rw [getHubName_eq, getHubName_eq, hrhubNames, hqhubNames, hname] at hanswer
      rcases hlast : Table.firstFor e.hubNames.reverse hubId with _ | name'
      · rw [hlast] at hanswer
        exact absurd hanswer hne
      · exact ⟨name', rfl⟩
  · intro hcovered
    refine ⟨hr.hubIds.trans hq.hubIds.symm, fun name ↦ ?_, fun hubId ↦ ?_, fun hubId ↦ ?_,
      fun hubId ↦ ?_⟩
    · rw [getHubId_eq, getHubId_eq, hrnames, hqnames]
      rcases hname : p.mSensingHubNameIdMap name with _ | hubId
      · rfl
      · rw [hcovered.names name hubId hname]
        rfl
    · rw [getCommType_eq, getCommType_eq, hrcomms, hqcomms]
      rcases hcomm : p.mSensingHubCommMap hubId with _ | comm
      · rfl
      · obtain ⟨commType, hlookup, htype⟩ := hcovered.comms hubId comm hcomm
        rw [hlookup]
        exact htype.symm
    · rw [getCommHandleAttrs_eq, getCommHandleAttrs_eq, hrcomms, hqcomms]
      rcases hcomm : p.mSensingHubCommMap hubId with _ | comm
      · rfl
      · obtain ⟨commType, hlookup, -⟩ := hcovered.comms hubId comm hcomm
        rw [hlookup]
        rfl
    · rw [getHubName_eq, getHubName_eq, hrhubNames, hqhubNames]
      rcases hlookup : Table.firstFor e.hubNames.reverse hubId with _ | name'
      · rcases hname : p.mSensingHubIdNameMap hubId with _ | name
        · rfl
        · by_contra hne
          obtain ⟨name', hsome⟩ := hcovered.hubNames hubId name hname hne
          rw [hlookup] at hsome
          cases hsome
      · rfl

/-- **A load does not depend on history exactly if its file makes every entry that is left**: after
any loads, with any outcomes, the answers behind the last load are those of a new parser that has
loaded only that file if and only if the entries of the file cover those in the tables. -/
theorem sameHubs_iff {device : ℤ} {history : List Load} {p : QshJsonParser}
    (hp : session.Run (QshJsonParser.fresh device) history p) {c : Bytes} {fuel : ℕ}
    (hfits : FitsCursors fuel c) {o : Outline}
    (ho : Format.outline device fuel (lex c) = some o) (stale : ℕ → Bytes) :
    SameHubs ((QshJsonParser.fresh device).loadFile fuel stale (.content c)).parser
        (p.loadFile fuel stale (.content c)).parser ↔
      p.CoveredBy (entriesOf (fillCalls stale 0 o.calls)) := by
  obtain ⟨rfl, hproper⟩ := proper_of_run hp
  have hfresh := loadFile_entries (p := QshJsonParser.fresh p.mDeviceSocId) hfits ho stale
  exact sameHubs_iff_coveredBy hproper hfresh.1 (loadFile_entries hfits ho stale).1

/-- Entries cover what a new parser object has got from the first of them. -/
theorem coveredBy_of_firstEntries {device : ℤ} {p : QshJsonParser} {e e' : Entries}
    (hp : e.AddedTo (QshJsonParser.fresh device) p) (hnames : e.names <+: e'.names)
    (hcomms : e.comms <+: e'.comms) (hhubNames : e.hubNames <+: e'.hubNames) :
    p.CoveredBy e' := by
  refine ⟨fun name hubId hname ↦ ?_, fun hubId comm hcomm ↦ ?_, fun hubId name hname _ ↦ ?_⟩
  · obtain ⟨more, hmore⟩ := hnames
    rw [hp.names, Table.insertAll_apply] at hname
    rw [← hmore, Table.firstFor_append, show Table.firstFor e.names name = _ from hname]
    rfl
  · obtain ⟨more, hmore⟩ := hcomms
    rw [hp.comms, Table.insertAll_apply] at hcomm
    refine ⟨comm.1, ?_, rfl⟩
    rw [← hmore, Table.firstFor_append, show Table.firstFor e.comms hubId = _ from hcomm]
    rfl
  · -- the names of hubs are looked for from the end
    obtain ⟨more, hmore⟩ := hhubNames
    rw [hp.hubNames, Table.assignAll_apply] at hname
    rw [← hmore, List.reverse_append, Table.firstFor_append]
    rcases Table.firstFor more.reverse hubId with _ | name'
    · exact ⟨name, (Option.or_none ..).symm.trans hname⟩
    · exact ⟨name', rfl⟩

/-- A load of a file with some hubs. -/
def hubsLoad (hubs : List Hub) : Load :=
  ⟨1000, fun _ ↦ [], .content (hubsFile hubs)⟩

theorem run_hubsLoad (hubs : List Hub) :
    session.Run (QshJsonParser.fresh 0) [hubsLoad hubs]
      ((QshJsonParser.fresh 0).loadFile 1000 (fun _ ↦ []) (.content (hubsFile hubs))).parser :=
  .single trivial rfl

/-- A hub that is loaded again with another one behind it. -/
theorem sameHubs_hubsLoad :
    SameHubs
      ((QshJsonParser.fresh 0).loadFile 1000 (fun _ ↦ []) (.content (hubsFile [slpi, adsp]))).parser
      (((QshJsonParser.fresh 0).loadFile 1000 (fun _ ↦ [])
        (.content (hubsFile [slpi]))).parser.loadFile 1000 (fun _ ↦ [])
          (.content (hubsFile [slpi, adsp]))).parser := by
  have hlen : (hubsFile [slpi]).length ≤ 1000 ∧ (hubsFile [slpi, adsp]).length ≤ 1000 := by
    decide +kernel
  obtain ⟨o, ho⟩ : ∃ o, Format.outline 0 1000 (lex (hubsFile [slpi])) = some o :=
    Format.outline_isSome ((length_lex_le _).trans hlen.1)
  obtain ⟨o', ho'⟩ : ∃ o, Format.outline 0 1000 (lex (hubsFile [slpi, adsp])) = some o :=
    Format.outline_isSome ((length_lex_le _).trans hlen.2)
  have hprefix : ∀ o ∈ Format.outline 0 1000 (lex (hubsFile [slpi])),
      ∀ o' ∈ Format.outline 0 1000 (lex (hubsFile [slpi, adsp])),
        (entriesOf (fillCalls (fun _ ↦ []) 0 o.calls)).names <+:
            (entriesOf (fillCalls (fun _ ↦ []) 0 o'.calls)).names ∧
          (entriesOf (fillCalls (fun _ ↦ []) 0 o.calls)).comms <+:
            (entriesOf (fillCalls (fun _ ↦ []) 0 o'.calls)).comms ∧
          (entriesOf (fillCalls (fun _ ↦ []) 0 o.calls)).hubNames <+:
            (entriesOf (fillCalls (fun _ ↦ []) 0 o'.calls)).hubNames := by
    decide +kernel
  obtain ⟨hnames, hcomms, hhubNames⟩ := hprefix o ho o' ho'
  have hfirst := loadFile_entries (p := .fresh 0) (fitsCursors_of_lt (by omega)) ho fun _ ↦ []
  exact (sameHubs_iff (run_hubsLoad [slpi]) (fitsCursors_of_lt (by omega)) ho' _).2
    (coveredBy_of_firstEntries hfirst.1 hnames hcomms hhubNames)

/-- Behind a load of another file the hub of that file is still known. -/
theorem not_sameHubs_hubsLoad :
    ∃ p, session.Run (QshJsonParser.fresh 0) [hubsLoad [slpi]] p ∧
      ((QshJsonParser.fresh 0).loadFile 1000 (fun _ ↦ []) (.content (hubsFile [adsp]))).ret =
        .ok 0 ∧
      ¬ ((QshJsonParser.fresh 0).loadFile 1000 (fun _ ↦ [])
        (.content (hubsFile [adsp]))).parser.Skips ∧
      ¬ SameHubs
        ((QshJsonParser.fresh 0).loadFile 1000 (fun _ ↦ []) (.content (hubsFile [adsp]))).parser
        (p.loadFile 1000 (fun _ ↦ []) (.content (hubsFile [adsp]))).parser := by
  refine ⟨_, run_hubsLoad [slpi], by decide +kernel, by decide +kernel, fun hsame ↦ ?_⟩
  exact absurd (hsame.getHubId slpi.platform) (by decide +kernel)

end SensingHub.Json
