import SensingHub.Json.RoundTrip

/-!
# What a group leaves behind

Every group is read from the scratch members that the group before it has left. They start over only
when an entry has gone into both tables, and `mIsClientCommGrp` not even then; so a group that
lacks an item, or has one too many, hands what it has collected on to the next group.

`Scratch.Harmless` says which leftovers do not matter. Behind a harmless one a hub is entered as it
would be from a fresh parser (`agree_of_harmless`); behind any other there is a group that would
describe a hub and does not (`exists_leak`).
-/

namespace SensingHub.Json

open CLib (str atoi)

/-! ### The ids that are mentioned -/

/-- An item mentions a hub id. -/
def MentionsHub (cs : List Call) (h : ℤ) : Prop :=
  ∃ c ∈ cs, c.key = str "sensing_hub_id" ∧ atoi (c.data.getD []) = h

/-- An item mentions a platform id. -/
def MentionsPlatform (cs : List Call) (p : Bytes) : Prop :=
  ∃ c ∈ cs, c.key = str "platform_id" ∧ c.data.getD [] = p

/-- The items of two groups have neither a hub id nor a platform id in common. -/
structure Apart (cs cs' : List Call) : Prop where
  hub : ∀ h, MentionsHub cs h → ¬ MentionsHub cs' h
  platform : ∀ p, MentionsPlatform cs p → ¬ MentionsPlatform cs' p

theorem mentionsHub_cons {c : Call} {cs : List Call} {h : ℤ} :
    MentionsHub (c :: cs) h ↔
      (c.key = str "sensing_hub_id" ∧ atoi (c.data.getD []) = h) ∨ MentionsHub cs h := by
  simp only [MentionsHub, List.exists_mem_cons_iff]

theorem mentionsPlatform_cons {c : Call} {cs : List Call} {p : Bytes} :
    MentionsPlatform (c :: cs) p ↔
      (c.key = str "platform_id" ∧ c.data.getD [] = p) ∨ MentionsPlatform cs p := by
  simp only [MentionsPlatform, List.exists_mem_cons_iff]

/-! ### The scratch members along calls -/

/-- The scratch members behind calls. -/
def Scratch.readCalls (s : Scratch) (cs : List Call) : Scratch :=
  cs.foldl (fun s c ↦ s.update c.grpName c.key (c.data.getD [])) s

theorem Scratch.readCalls_cons (s : Scratch) (c : Call) (cs : List Call) :
    s.readCalls (c :: cs) = (s.update c.grpName c.key (c.data.getD [])).readCalls cs := rfl

theorem scratch_readCall (p : QshJsonParser) (c : Call) :
    (p.readCall c).scratch = p.scratch.update c.grpName c.key (c.data.getD []) := by
  rw [QshJsonParser.readCall, QshJsonParser.updateSensingHubInfo_eq]

/-- The scratch members do not depend on the tables. -/
theorem scratch_readCalls (p : QshJsonParser) (cs : List Call) :
    (p.readCalls cs).scratch = p.scratch.readCalls cs := by
  induction cs generalizing p with
  | nil => rfl
  | cons c cs ih =>
    have hcs := ih (p.readCall c)
    rw [scratch_readCall] at hcs
    exact hcs

/-! ### Entries that stay -/

section

variable {q q' : QshJsonParser} {c : Call} {cs cs' : List Call} {h : ℤ} {p : Bytes}

/-- An entry of the name table is never changed. -/
theorem name_readCalls {h' : ℤ} (hq : q.mSensingHubNameIdMap p = some h') (cs : List Call) :
    (q.readCalls cs).mSensingHubNameIdMap p = some h' := by
  induction cs generalizing q with
  | nil => exact hq
  | cons c cs ih =>
    refine ih (q := q.readCall c) ?_
    rw [QshJsonParser.readCall, QshJsonParser.updateSensingHubInfo_eq]
    dsimp only
    split_ifs
    · exact Table.insert_eq_of_eq_some hq ..
    · exact hq

/-- An entry of the communication table is never changed. -/
theorem comm_readCalls {e : Bytes × ℤ} (hq : q.mSensingHubCommMap h = some e) (cs : List Call) :
    (q.readCalls cs).mSensingHubCommMap h = some e := by
  induction cs generalizing q with
  | nil => exact hq
  | cons c cs ih =>
    refine ih (q := q.readCall c) ?_
    rw [QshJsonParser.readCall, QshJsonParser.updateSensingHubInfo_eq]
    dsimp only
    split_ifs
    · exact Table.insert_eq_of_eq_some hq ..
    · exact hq

/-! ### Entries that are not made -/

/-- What the tables hold under a hub id, and that it is not the id being read. -/
structure HubFrame (q q' : QshJsonParser) (h : ℤ) : Prop where
  comm : q'.mSensingHubCommMap h = q.mSensingHubCommMap h
  hubName : q'.mSensingHubIdNameMap h = q.mSensingHubIdNameMap h
  scratch : q'.scratch.mSensingHubId ≠ h

/-- What the name table holds under a platform id, and that it is not the id being read. -/
structure PlatformFrame (q q' : QshJsonParser) (p : Bytes) : Prop where
  name : q'.mSensingHubNameIdMap p = q.mSensingHubNameIdMap p
  scratch : q'.scratch.mPlatformId ≠ p

theorem hubFrame_readCall (hne : h ≠ -1) (hq : q.scratch.mSensingHubId ≠ h)
    (hc : ¬ (c.key = str "sensing_hub_id" ∧ atoi (c.data.getD []) = h)) :
    HubFrame q (q.readCall c) h := by
  have hread : (q.scratch.read c.grpName c.key (c.data.getD [])).mSensingHubId ≠ h := by
    rw [mSensingHubId_read]
    split_ifs with hkey
    · exact fun heq ↦ hc ⟨hkey, heq⟩
    · exact hq
  rw [QshJsonParser.readCall, QshJsonParser.updateSensingHubInfo_eq]
  refine ⟨?_, ?_, ?_⟩
  · dsimp only
    split_ifs
    · exact Table.insert_of_ne _ hread.symm _
    · rfl
  · dsimp only
    split_ifs
    · exact Table.assign_of_ne _ hq.symm _
    · rfl
  · rcases mSensingHubId_update q.scratch c.grpName c.key (c.data.getD []) with heq | heq
    · exact fun h' ↦ hne (h'.symm.trans heq)
    · exact fun h' ↦ hread (heq.symm.trans h')

/-- **Nothing is entered under a hub id that is not mentioned.** -/
theorem hubFrame_readCalls (hne : h ≠ -1) (hq : q.scratch.mSensingHubId ≠ h)
    (hcs : ¬ MentionsHub cs h) : HubFrame q (q.readCalls cs) h := by
  induction cs generalizing q with
  | nil => exact ⟨rfl, rfl, hq⟩
  | cons c cs ih =>
    rw [mentionsHub_cons, not_or] at hcs
    have hhead : HubFrame q (q.readCall c) h := hubFrame_readCall hne hq hcs.1
    have htail : HubFrame (q.readCall c) ((q.readCall c).readCalls cs) h := ih hhead.scratch hcs.2
    exact ⟨htail.comm.trans hhead.comm, htail.hubName.trans hhead.hubName, htail.scratch⟩

theorem platformFrame_readCall (hne : p ≠ []) (hq : q.scratch.mPlatformId ≠ p)
    (hc : ¬ (c.key = str "platform_id" ∧ c.data.getD [] = p)) :
    PlatformFrame q (q.readCall c) p := by
  have hread : (q.scratch.read c.grpName c.key (c.data.getD [])).mPlatformId ≠ p := by
    rw [mPlatformId_read]
    split_ifs with hkey
    · exact fun heq ↦ hc ⟨hkey, heq⟩
    · exact hq
  rw [QshJsonParser.readCall, QshJsonParser.updateSensingHubInfo_eq]
  refine ⟨?_, ?_⟩
  · dsimp only
    split_ifs
    · exact Table.insert_of_ne _ hread.symm _
    · rfl
  · rcases mPlatformId_update q.scratch c.grpName c.key (c.data.getD []) with heq | heq
    · exact fun h' ↦ hne (h'.symm.trans heq)
    · exact fun h' ↦ hread (heq.symm.trans h')

/-- **Nothing is entered under a platform id that is not mentioned.** -/
theorem platformFrame_readCalls (hne : p ≠ []) (hq : q.scratch.mPlatformId ≠ p)
    (hcs : ¬ MentionsPlatform cs p) : PlatformFrame q (q.readCalls cs) p := by
  induction cs generalizing q with
  | nil => exact ⟨rfl, hq⟩
  | cons c cs ih =>
    rw [mentionsPlatform_cons, not_or] at hcs
    have hhead : PlatformFrame q (q.readCall c) p := platformFrame_readCall hne hq hcs.1
    have htail : PlatformFrame (q.readCall c) ((q.readCall c).readCalls cs) p :=
      ih hhead.scratch hcs.2
    exact ⟨htail.name.trans hhead.name, htail.scratch⟩

/-- Nothing is entered without a hub id, nor without a platform id. -/
theorem empty_readCalls (q : QshJsonParser) (cs : List Call) :
    (q.readCalls cs).mSensingHubCommMap (-1) = q.mSensingHubCommMap (-1) ∧
      (q.readCalls cs).mSensingHubNameIdMap [] = q.mSensingHubNameIdMap [] := by
  induction cs generalizing q with
  | nil => exact ⟨rfl, rfl⟩
  | cons c cs ih =>
    have hhead : (q.readCall c).mSensingHubCommMap (-1) = q.mSensingHubCommMap (-1) ∧
        (q.readCall c).mSensingHubNameIdMap [] = q.mSensingHubNameIdMap [] := by
      rw [QshJsonParser.readCall, QshJsonParser.updateSensingHubInfo_eq]
      dsimp only
      constructor
      · split_ifs with hcomm
        · exact Table.insert_of_ne _ hcomm.1.symm _
        · rfl
      · split_ifs with hname
        · exact Table.insert_of_ne _ hname.2.symm _
        · rfl
    exact ⟨(ih _).1.trans hhead.1, (ih _).2.trans hhead.2⟩

/-! ### Hubs that are described -/

/-- The tables hold a hub under its platform id and its hub id. -/
structure QshJsonParser.Holds (q : QshJsonParser) (p : Bytes) (h : ℤ) : Prop where
  name : q.mSensingHubNameIdMap p = some h
  comm : (q.mSensingHubCommMap h).isSome

/-- A hub that calls have entered is one they mention. -/
theorem mentions_of_holds {device : ℤ}
    (hq : ((QshJsonParser.fresh device).readCalls cs).Holds p h) :
    h ≠ -1 ∧ p ≠ [] ∧ MentionsHub cs h ∧ MentionsPlatform cs p := by
  have hempty := empty_readCalls (QshJsonParser.fresh device) cs
  have hname := hq.name
  have hcomm := hq.comm
  have hhub : h ≠ -1 := by
    rintro rfl
    rw [hempty.1] at hcomm
    cases hcomm
  have hplatform : p ≠ [] := by
    rintro rfl
    rw [hempty.2] at hname
    cases hname
  refine ⟨hhub, hplatform, not_not.1 fun hnot ↦ ?_, not_not.1 fun hnot ↦ ?_⟩
  · rw [(hubFrame_readCalls hhub hhub.symm hnot).comm] at hcomm
    cases hcomm
  · rw [(platformFrame_readCalls hplatform hplatform.symm hnot).name] at hname
    cases hname

end

/-! ### Leftovers that do not matter -/

/-- A communication type that is neither of the two there are. -/
def Foreign (commType : Bytes) : Prop :=
  commType ≠ COMM_TYPE_QMI ∧ commType ≠ COMM_TYPE_GLINK

instance (commType : Bytes) : Decidable (Foreign commType) := inferInstanceAs (Decidable (_ ∧ _))

/-- The scratch members are as at the start, but for a foreign communication type. -/
structure Scratch.Harmless (s : Scratch) : Prop where
  initial : s = { Scratch.initial with mClientCommType := s.mClientCommType }
  foreign : Foreign s.mClientCommType

instance (s : Scratch) : Decidable s.Harmless :=
  decidable_of_iff (_ ∧ _) ⟨fun h ↦ ⟨h.1, h.2⟩, fun h ↦ ⟨h.initial, h.foreign⟩⟩

namespace Scratch

/-- The scratch members differ in their communication types only, both of them foreign, and there is
no value yet for an entry of the communication table. -/
structure TypesDiffer (s s' : Scratch) : Prop where
  eq : s' = { s with mClientCommType := s'.mClientCommType }
  foreign : Foreign s.mClientCommType
  foreign' : Foreign s'.mClientCommType
  value : s.mClientCommValue = -1
  filled : s.mCommMapFilled = false

/-- With a foreign communication type an item sets no value. -/
theorem readKey_of_foreign {s : Scratch} (hs : Foreign s.mClientCommType) {key : Bytes}
    (hkey : key ≠ str "client_comm_type") (value : Bytes) :
    (s.readKey key value).mClientCommType = s.mClientCommType ∧
      (s.readKey key value).mClientCommValue = s.mClientCommValue ∧
      (s.readKey key value).mCommMapFilled = s.mCommMapFilled ∧
      ∀ t, Foreign t → { s with mClientCommType := t }.readKey key value =
        { s.readKey key value with mClientCommType := t } := by
  have hqmi : ¬ COMM_TYPE_QMI = s.mClientCommType := hs.1.symm
  have hglink : ¬ COMM_TYPE_GLINK = s.mClientCommType := hs.2.symm
  unfold readKey
  simp only [if_neg hkey, if_neg hqmi, if_neg hglink]
  refine ⟨?_, ?_, ?_, fun t ht ↦ ?_⟩
  · split_ifs <;> rfl
  · split_ifs <;> rfl
  · split_ifs <;> rfl
  · have hqmi' : ¬ COMM_TYPE_QMI = t := ht.1.symm
    have hglink' : ¬ COMM_TYPE_GLINK = t := ht.2.symm
    simp only [if_neg hqmi', if_neg hglink']
    split_ifs <;> rfl

/-- An item leaves the difference as it is, or ends it by setting the type. -/
theorem TypesDiffer.read {s s' : Scratch} (h : s.TypesDiffer s') (grpName key value : Bytes) :
    s'.read grpName key value = s.read grpName key value ∨
      (s.read grpName key value).TypesDiffer (s'.read grpName key value) := by
  obtain ⟨heq, hs, hs', hvalue, hfilled⟩ := h
  set t := s'.mClientCommType with ht
  -- `mIsClientCommGrp` is set in both or in neither
  set u := if grpName = str ".client_comm" then { s with mIsClientCommGrp := true } else s with hu
  have hread : s.read grpName key value = u.readKey key value := rfl
  have hread' : s'.read grpName key value = { u with mClientCommType := t }.readKey key value := by
    rw [heq, Scratch.read, hu]
    split_ifs <;> rfl
  have htype : u.mClientCommType = s.mClientCommType := by rw [hu]; split_ifs <;> rfl
  have hvalue' : u.mClientCommValue = -1 := by rw [hu]; split_ifs <;> exact hvalue
  have hfilled' : u.mCommMapFilled = false := by rw [hu]; split_ifs <;> exact hfilled
  rw [hread, hread']
  by_cases hkey : key = str "client_comm_type"
  · left
    subst hkey
    rfl
  · right
    obtain ⟨hkeyType, hkeyValue, hkeyFilled, hsame⟩ :=
      readKey_of_foreign (htype ▸ hs : Foreign u.mClientCommType) hkey value
    rw [hsame t hs']
    exact ⟨rfl, by rw [hkeyType, htype]; exact hs, hs', hkeyValue.trans hvalue',
      hkeyFilled.trans hfilled'⟩

/-- Where the types differ the two make the same entries: none in the communication table. -/
theorem TypesDiffer.hasName_iff {s s' : Scratch} (h : s.TypesDiffer s') :
    s'.HasName ↔ s.HasName := by
  rw [h.eq]
  exact Iff.rfl

theorem TypesDiffer.not_hasComm {s s' : Scratch} (h : s.TypesDiffer s') :
    ¬ s.HasComm ∧ ¬ s'.HasComm := by
  rw [h.eq]
  exact ⟨fun hc ↦ hc.2.2 h.value, fun hc ↦ hc.2.2 h.value⟩

theorem TypesDiffer.noteFilled {s s' : Scratch} (h : s.TypesDiffer s') :
    s.noteFilled.startOver.TypesDiffer s'.noteFilled.startOver := by
  have hstart {u : Scratch} (hu : u.mCommMapFilled = false) : u.startOver = u := by
    rw [Scratch.startOver, if_neg]
    rw [hu]
    exact fun hfilled ↦ absurd hfilled.2 (by decide)
  have hfilled : s.noteFilled.mCommMapFilled = false := by
    rw [Scratch.noteFilled, h.filled, decide_eq_false h.not_hasComm.1]
    rfl
  have hfilled' : s'.noteFilled.mCommMapFilled = false := by
    have hs' : s'.mCommMapFilled = false := by
      rw [h.eq]
      exact h.filled
    rw [Scratch.noteFilled, hs', decide_eq_false h.not_hasComm.2]
    rfl
  rw [hstart hfilled, hstart hfilled']
  refine ⟨?_, h.foreign, h.foreign', h.value, hfilled⟩
  have heq : s'.noteFilled = { s.noteFilled with
      mClientCommType := s'.mClientCommType
      mCommMapFilled := s'.noteFilled.mCommMapFilled } := by
    rw [h.eq]
    rfl
  rw [heq, hfilled', ← hfilled]

/-- The scratch members are the same, or differ in a way that does not matter. -/
def Close (s s' : Scratch) : Prop :=
  s' = s ∨ s.TypesDiffer s'

theorem Close.read {s s' : Scratch} (h : s.Close s') (grpName key value : Bytes) :
    (s.read grpName key value).Close (s'.read grpName key value) := by
  rcases h with rfl | h
  · exact Or.inl rfl
  · exact h.read grpName key value

theorem Close.update {s s' : Scratch} (h : s.Close s') (grpName key value : Bytes) :
    (s.update grpName key value).Close (s'.update grpName key value) := by
  rcases h.read grpName key value with heq | hdiffer
  · left
    rw [Scratch.update, Scratch.update, heq]
  · exact Or.inr hdiffer.noteFilled

/-- A harmless leftover is close to a fresh start. -/
theorem Harmless.close {s : Scratch} (h : s.Harmless) : Scratch.initial.Close s :=
  Or.inr ⟨h.initial, ⟨by decide, by decide⟩, h.foreign, rfl, rfl⟩

end Scratch

/-! ### The same entries -/

/-- Two parsers hold the same of a hub. -/
structure Agree (q q' : QshJsonParser) (p : Bytes) (h : ℤ) : Prop where
  name : q'.mSensingHubNameIdMap p = q.mSensingHubNameIdMap p
  comm : q'.mSensingHubCommMap h = q.mSensingHubCommMap h
  hubName : q'.mSensingHubIdNameMap h = q.mSensingHubIdNameMap h

section

variable {q q' : QshJsonParser} {cs cs' : List Call} {p : Bytes} {h : ℤ}

/-- An item makes the same entries from scratch members that are close. -/
theorem Agree.readCall (hq : Agree q q' p h) (hs : q.scratch.Close q'.scratch) (c : Call) :
    Agree (q.readCall c) (q'.readCall c) p h := by
  have hnames : q'.NamesHub c.grpName c.key (c.data.getD []) ↔
      q.NamesHub c.grpName c.key (c.data.getD []) := by
    unfold QshJsonParser.NamesHub
    rcases hs with heq | hdiffer
    · rw [heq]
    · rw [hdiffer.eq]
  have hhub : q'.scratch.mSensingHubId = q.scratch.mSensingHubId := by
    rcases hs with heq | hdiffer
    · rw [heq]
    · rw [hdiffer.eq]
  rw [QshJsonParser.readCall, QshJsonParser.readCall, QshJsonParser.updateSensingHubInfo_eq,
    QshJsonParser.updateSensingHubInfo_eq]
  rcases hs.read c.grpName c.key (c.data.getD []) with heq | hdiffer
  · -- the scratch members are the same behind the item
    refine ⟨?_, ?_, ?_⟩
    · dsimp only
      rw [heq]
      split_ifs
      · exact Table.insert_congr hq.name ..
      · exact hq.name
    · dsimp only
      rw [heq]
      split_ifs
      · exact Table.insert_congr hq.comm ..
      · exact hq.comm
    · dsimp only
      rw [hhub, if_congr hnames rfl rfl]
      split_ifs
      · exact Table.assign_congr hq.hubName ..
      · exact hq.hubName
  · -- they differ, and neither makes an entry in the communication table
    refine ⟨?_, ?_, ?_⟩
    · dsimp only
      rw [if_congr hdiffer.hasName_iff rfl rfl, hdiffer.eq]
      split_ifs
      · exact Table.insert_congr hq.name ..
      · exact hq.name
    · dsimp only
      rw [if_neg hdiffer.not_hasComm.1, if_neg hdiffer.not_hasComm.2]
      exact hq.comm
    · dsimp only
      rw [hhub, if_congr hnames rfl rfl]
      split_ifs
      · exact Table.assign_congr hq.hubName ..
      · exact hq.hubName

theorem Agree.readCalls (hq : Agree q q' p h) (hs : q.scratch.Close q'.scratch) (cs : List Call) :
    Agree (q.readCalls cs) (q'.readCalls cs) p h := by
  induction cs generalizing q q' with
  | nil => exact hq
  | cons c cs ih =>
    have hnext : (q.readCall c).scratch.Close (q'.readCall c).scratch := by
      rw [scratch_readCall, scratch_readCall]
      exact hs.update ..
    exact ih (hq.readCall hs c) hnext

/-- **Behind a harmless leftover a hub is entered as from a fresh parser.** -/
theorem agree_of_harmless {device : ℤ} (hs : (Scratch.initial.readCalls cs).Harmless)
    (hapart : Apart cs cs') (hq : ((QshJsonParser.fresh device).readCalls cs').Holds p h) :
    Agree ((QshJsonParser.fresh device).readCalls cs')
      (((QshJsonParser.fresh device).readCalls cs).readCalls cs') p h := by
  obtain ⟨hhub, hplatform, hmentionsHub, hmentionsPlatform⟩ := mentions_of_holds hq
  have hhubFrame : HubFrame (QshJsonParser.fresh device)
      ((QshJsonParser.fresh device).readCalls cs) h :=
    hubFrame_readCalls hhub hhub.symm fun hcs ↦ hapart.hub h hcs hmentionsHub
  have hplatformFrame : PlatformFrame (QshJsonParser.fresh device)
      ((QshJsonParser.fresh device).readCalls cs) p :=
    platformFrame_readCalls hplatform hplatform.symm fun hcs ↦
      hapart.platform p hcs hmentionsPlatform
  refine Agree.readCalls ⟨hplatformFrame.name, hhubFrame.comm, hhubFrame.hubName⟩ ?_ cs'
  rw [scratch_readCalls]
  exact hs.close

end

/-! ### The same answers -/

/-- Two parsers answer alike for the platform id and the hub id of a hub. -/
structure SameHub (q q' : QshJsonParser) (p : Bytes) (h : ℤ) : Prop where
  getHubId : q'.getHubId p = q.getHubId p
  getCommType : q'.getCommType h = q.getCommType h
  getCommHandleAttrs : q'.getCommHandleAttrs h = q.getCommHandleAttrs h
  getHubName : q'.getHubName h = q.getHubName h

theorem Agree.sameHub {q q' : QshJsonParser} {p : Bytes} {h : ℤ} (hq : Agree q q' p h) :
    SameHub q q' p h where
  getHubId := by rw [QshJsonParser.getHubId, QshJsonParser.getHubId, hq.name]
  getCommType := by rw [QshJsonParser.getCommType, QshJsonParser.getCommType, hq.comm]
  getCommHandleAttrs := by
    rw [QshJsonParser.getCommHandleAttrs, QshJsonParser.getCommHandleAttrs, hq.comm]
  getHubName := by rw [QshJsonParser.getHubName, QshJsonParser.getHubName, hq.hubName]

end SensingHub.Json
