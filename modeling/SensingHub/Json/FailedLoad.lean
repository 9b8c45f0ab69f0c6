import SensingHub.Json.Document
import SensingHub.Json.Frame
import SensingHub.Lib.TransitionSystem

/-!
# A load that fails

`loadFile` clears the hub list before it opens the file, and the tables are filled item by item
while the text is still being parsed; nothing is taken back when the parse fails. What a failed
load leaves is bounded all the same: entries that the name table and the communication table had
stay as they were, and whatever else has changed belongs to a hub that the file named, one that the
new hub list holds.

This is proved on the in-place parser for every content and every amount of fuel, by a relation
between parser objects that every function of the parser stays within.
-/

namespace SensingHub.Json

open CLib (str atoi)

/-! ### Loading files one after another -/

/-- A call of `loadFile`. -/
structure Load where
  fuel : ℕ
  stale : ℕ → Bytes
  file : FileOutcome

/-- A parser object and the calls of `loadFile` made on it. -/
def session : TransitionSystem QshJsonParser Load where
  init p := ∃ deviceSocId, p = QshJsonParser.fresh deviceSocId
  step p l q := q = (p.loadFile l.fuel l.stale l.file).parser

/-- Two parser objects answer every query alike. -/
structure SameAnswers (p q : QshJsonParser) : Prop where
  getHubIdList : q.getHubIdList = p.getHubIdList
  getHubId : ∀ name, q.getHubId name = p.getHubId name
  getCommType : ∀ hubId, q.getCommType hubId = p.getCommType hubId
  getCommHandleAttrs : ∀ hubId, q.getCommHandleAttrs hubId = p.getCommHandleAttrs hubId
  getHubName : ∀ hubId, q.getHubName hubId = p.getHubName hubId
  isFileParsed : q.isFileParsed = p.isFileParsed

/-! ### What reading does to the tables -/

/-- The hub being read is in the hub list. -/
def HubListed (p : QshJsonParser) : Prop :=
  p.scratch.mSensingHubId = -1 ∨ p.scratch.mSensingHubId ∈ p.mHubIds

/-- `q` has come from `p` by reading items: entries have been added for hubs that are listed. -/
structure ReadsOn (p q : QshJsonParser) : Prop where
  isFileParsed : q.mIsFileParsed = p.mIsFileParsed
  hubIds : p.mHubIds ⊆ q.mHubIds
  names : ∀ name, q.mSensingHubNameIdMap name = p.mSensingHubNameIdMap name ∨
    p.mSensingHubNameIdMap name = none ∧
      ∃ hubId ∈ q.mHubIds, q.mSensingHubNameIdMap name = some hubId
  comms : ∀ hubId, q.mSensingHubCommMap hubId = p.mSensingHubCommMap hubId ∨
    p.mSensingHubCommMap hubId = none ∧ hubId ∈ q.mHubIds
  hubNames : ∀ hubId, q.mSensingHubIdNameMap hubId = p.mSensingHubIdNameMap hubId ∨
    hubId = -1 ∨ hubId ∈ q.mHubIds

theorem ReadsOn.refl (p : QshJsonParser) : ReadsOn p p :=
  ⟨rfl, fun _ h ↦ h, fun _ ↦ Or.inl rfl, fun _ ↦ Or.inl rfl, fun _ ↦ Or.inl rfl⟩

/-- What is known of the device's id is of no consequence. -/
theorem ReadsOn.soc (p : QshJsonParser) (socIds : List ℤ) (socId : ℤ) :
    ReadsOn p { p with mJsonSocIdList := socIds, mJsonSocId := socId } :=
  ⟨rfl, fun _ h ↦ h, fun _ ↦ Or.inl rfl, fun _ ↦ Or.inl rfl, fun _ ↦ Or.inl rfl⟩

theorem ReadsOn.trans {p q r : QshJsonParser} (h₁ : ReadsOn p q) (h₂ : ReadsOn q r) :
    ReadsOn p r where
  isFileParsed := h₂.isFileParsed.trans h₁.isFileParsed
  hubIds := fun _ h ↦ h₂.hubIds (h₁.hubIds h)
  names := by
    intro name
    rcases h₁.names name with hq | ⟨hp, hubId, hmem, hq⟩
    · rw [← hq]
      exact h₂.names name
    · rcases h₂.names name with hr | ⟨hnone, -⟩
      · exact Or.inr ⟨hp, hubId, h₂.hubIds hmem, hr.trans hq⟩
      · rw [hq] at hnone
        cases hnone
  comms := by
    intro hubId
    rcases h₁.comms hubId with hq | ⟨hp, hmem⟩
    · rw [← hq]
      exact h₂.comms hubId
    · exact Or.inr ⟨hp, h₂.hubIds hmem⟩
  hubNames := by
    intro hubId
    rcases h₁.hubNames hubId with hq | hq | hq
    · rw [← hq]
      exact h₂.hubNames hubId
    · exact Or.inr (Or.inl hq)
    · exact Or.inr (Or.inr (h₂.hubIds hq))

/-- Reading an item. -/
theorem readsOn_updateSensingHubInfo {p : QshJsonParser} (hp : HubListed p)
    (grpName key value : Bytes) :
    HubListed (p.updateSensingHubInfo grpName key value) ∧
      ReadsOn p (p.updateSensingHubInfo grpName key value) := by
  rw [p.updateSensingHubInfo_eq grpName key value]
  set hubIds := if key = str "sensing_hub_id" then p.mHubIds ++ [atoi value] else p.mHubIds
    with hhubIds
  set s := p.scratch.read grpName key value with hs
  have hsub : p.mHubIds ⊆ hubIds := by
    rw [hhubIds]
    split_ifs
    · exact List.subset_append_left _ _
    · exact List.Subset.refl _
  -- the hub the item is read for is listed by now
  have hlisted : s.mSensingHubId = -1 ∨ s.mSensingHubId ∈ hubIds := by
    rw [hs, mSensingHubId_read, hhubIds]
    split_ifs
    · exact Or.inr (by simp)
    · exact hp
  refine ⟨?_, rfl, hsub, ?_, ?_, ?_⟩
  · unfold HubListed
    rcases mSensingHubId_update p.scratch grpName key value with h | h
    · exact Or.inl h
    · simp only [h]
      exact hlisted
  · intro name
    simp only
    split_ifs with hname
    · by_cases heq : name = s.mPlatformId
      · subst heq
        rcases hold : p.mSensingHubNameIdMap s.mPlatformId with _ | hubId
        · exact Or.inr ⟨rfl, s.mSensingHubId, hlisted.resolve_left hname.1, by simp [hold]⟩
        · exact Or.inl (Table.insert_eq_of_eq_some hold _ _)
      · exact Or.inl (Table.insert_of_ne _ heq _)
    · exact Or.inl rfl
  · intro hubId
    simp only
    split_ifs with hcomm
    · by_cases heq : hubId = s.mSensingHubId
      · subst heq
        rcases hold : p.mSensingHubCommMap s.mSensingHubId with _ | comm
        · exact Or.inr ⟨rfl, hlisted.resolve_left hcomm.1⟩
        · exact Or.inl (Table.insert_eq_of_eq_some hold _ _)
      · exact Or.inl (Table.insert_of_ne _ heq _)
    · exact Or.inl rfl
  · intro hubId
    simp only
    split_ifs
    · by_cases heq : hubId = p.scratch.mSensingHubId
      · subst heq
        exact Or.inr (hp.imp_right fun h ↦ hsub h)
      · exact Or.inl (Table.assign_of_ne _ heq _)
    · exact Or.inl rfl

/-! ### No function of the parser does anything else to them -/

/-- What every function of the parser does to the parser object. -/
def Keeps (m m' : Machine) : Prop :=
  HubListed m.parser → HubListed m'.parser ∧ ReadsOn m.parser m'.parser

instance : ReadsWithin fun p q ↦ HubListed p → HubListed q ∧ ReadsOn p q where
  refl p h := ⟨h, ReadsOn.refl p⟩
  trans h₁ h₂ h :=
    have h' := h₁ h
    have h'' := h₂ h'.1
    ⟨h''.1, h'.2.trans h''.2⟩
  update _ _ _ _ h := readsOn_updateSensingHubInfo h _ _ _
  soc p _ _ h := ⟨h, ReadsOn.soc p _ _⟩

theorem keeps_parseFile (fuel json jsonlen : ℕ) :
    Prog.Within Keeps (parseFile fuel json jsonlen) :=
  within_parseFile (R := fun p q ↦ HubListed p → HubListed q ∧ ReadsOn p q) fuel json jsonlen

/-! ### What a failed load leaves -/

/-- No query but that for the hub list answers differently, except about hubs that the hub list
holds afterwards. -/
structure AddsListed (p q : QshJsonParser) : Prop where
  isFileParsed : q.isFileParsed = p.isFileParsed
  getHubId : ∀ name, q.getHubId name = p.getHubId name ∨
    p.mSensingHubNameIdMap name = none ∧ q.getHubId name ∈ q.getHubIdList
  getCommType : ∀ hubId, q.getCommType hubId = p.getCommType hubId ∨
    p.mSensingHubCommMap hubId = none ∧ hubId ∈ q.getHubIdList
  getCommHandleAttrs : ∀ hubId, q.getCommHandleAttrs hubId = p.getCommHandleAttrs hubId ∨
    p.mSensingHubCommMap hubId = none ∧ hubId ∈ q.getHubIdList
  getHubName : ∀ hubId, q.getHubName hubId = p.getHubName hubId ∨
    hubId = -1 ∨ hubId ∈ q.getHubIdList

theorem ReadsOn.addsListed {p q : QshJsonParser} (h : ReadsOn p q) : AddsListed p q where
  isFileParsed := h.isFileParsed
  getHubId := by
    intro name
    unfold QshJsonParser.getHubId
    rcases h.names name with hname | ⟨hnone, hubId, hmem, hsome⟩
    · exact Or.inl (by rw [hname])
    · exact Or.inr ⟨hnone, by rw [hsome]; exact hmem⟩
  getCommType := by
    intro hubId
    unfold QshJsonParser.getCommType
    exact (h.comms hubId).imp_left fun hcomm ↦ by rw [hcomm]
  getCommHandleAttrs := by
    intro hubId
    unfold QshJsonParser.getCommHandleAttrs
    exact (h.comms hubId).imp_left fun hcomm ↦ by rw [hcomm]
  getHubName := by
    intro hubId
    unfold QshJsonParser.getHubName
    exact (h.hubNames hubId).imp_left fun hname ↦ by rw [hname]

/-- The file was not opened and read. -/
def FileOutcome.Unread : FileOutcome → Prop
  | .content _ => False
  | _ => True

theorem readsOn_parseFile (fuel : ℕ) (p : QshJsonParser) (c : Bytes) (stale : ℕ → Bytes)
    (jsonlen : ℕ) :
    ReadsOn p.resetParserState
      (parseFile fuel 0 jsonlen (Machine.start p.resetParserState c stale)).2.parser :=
  (keeps_parseFile fuel 0 jsonlen (Machine.start p.resetParserState c stale) (Or.inl rfl)).2

/-- **A failed load only adds entries for the hubs it lists**, and if the file could not be read it
leaves all tables as they were, with the hub list empty. -/
theorem loadFile_failed (p : QshJsonParser) (fuel : ℕ) (stale : ℕ → Bytes) (file : FileOutcome)
    (hfailed : (p.loadFile fuel stale file).ret = .ok (-1)) :
    AddsListed p (p.loadFile fuel stale file).parser ∧
      (file.Unread → (p.loadFile fuel stale file).parser = p.resetParserState) := by
  have hreset : AddsListed p p.resetParserState :=
    ⟨rfl, fun _ ↦ Or.inl rfl, fun _ ↦ Or.inl rfl, fun _ ↦ Or.inl rfl, fun _ ↦ Or.inl rfl⟩
  cases file with
  | statFailed => exact ⟨hreset, fun _ ↦ rfl⟩
  | mallocFailed => exact ⟨hreset, fun _ ↦ rfl⟩
  | fopenFailed => exact ⟨hreset, fun _ ↦ rfl⟩
  | freadShort => exact ⟨hreset, fun _ ↦ rfl⟩
  | content c =>
    refine ⟨?_, False.elim⟩
    have hreads := readsOn_parseFile fuel p c stale (c.length % 2 ^ 32)
    simp only [QshJsonParser.loadFile] at hfailed ⊢
    generalize parseFile fuel 0 (c.length % 2 ^ 32) (Machine.start p.resetParserState c stale) = x
      at hfailed hreads ⊢
    obtain ⟨_ | ⟨ret, cursor⟩, m⟩ := x
    · cases hfailed
    · simp only at hfailed hreads ⊢
      split_ifs at hfailed ⊢
      · cases hfailed
      · have hadds := hreads.addsListed
        exact ⟨hadds.isFileParsed, hadds.getHubId, hadds.getCommType, hadds.getCommHandleAttrs,
          hadds.getHubName⟩

/-- A file that breaks off behind the comma that follows its first hub. -/
def brokenFile : Bytes :=
  render (.byte 123 :: (Member.group (str "adsp")
    [.item (str "platform_id") [(str "data", str "adsp")],
      .item (str "sensing_hub_id") [(str "data", str "1")]]).tokens ++ [.byte 44])

theorem loadFile_failed_brokenFile :
    AddsListed (QshJsonParser.fresh 0)
        ((QshJsonParser.fresh 0).loadFile 20 (fun _ ↦ []) (.content brokenFile)).parser ∧
      (FileOutcome.Unread (.content brokenFile) →
        ((QshJsonParser.fresh 0).loadFile 20 (fun _ ↦ []) (.content brokenFile)).parser =
          (QshJsonParser.fresh 0).resetParserState) :=
  loadFile_failed (QshJsonParser.fresh 0) 20 (fun _ ↦ []) (.content brokenFile)
    (by decide +kernel)

/-- A failed load can change what the parser answers: the first hub of the broken file is known
afterwards. -/
theorem not_loadFile_failed_sameAnswers :
    ¬ ∀ p, session.Reachable p → ∀ fuel stale file,
      (p.loadFile fuel stale file).ret = .ok (-1) →
        SameAnswers p (p.loadFile fuel stale file).parser := by
  intro h
  have hreachable : session.Reachable (QshJsonParser.fresh 0) :=
    ⟨QshJsonParser.fresh 0, [], ⟨0, rfl⟩, .nil⟩
  have hsame := h _ hreachable 20 (fun _ ↦ []) (.content brokenFile) (by decide +kernel)
  exact absurd (hsame.getHubId (str "adsp")) (by decide +kernel)

end SensingHub.Json
