import SensingHub.Lib.CString
import SensingHub.Lib.Table
import Mathlib.Tactic.SplitIfs

/-!
# The members of `qshJsonParser`

The parser collects what it reads into three tables and a list. Item by item it fills a set of
scratch members, from which it makes a table entry as soon as they hold one; when an entry has gone
into both the name table and the communication table the scratch members start over.

The scratch members are kept in a record of their own. What `updateSensingHubInfo` does to them
depends on nothing else, which is what lets a sequence of items be followed without the tables.
-/

namespace SensingHub.Json

open CLib (str atoi stoi)

/-- `COMM_TYPE_QMI` -/
def COMM_TYPE_QMI : Bytes := str "0"

/-- `COMM_TYPE_GLINK` -/
def COMM_TYPE_GLINK : Bytes := str "1"

/-- `MAX_DATA_VALUE_LEN` -/
def MAX_DATA_VALUE_LEN : ℕ := 15

/-- What is known of the hub being read. -/
structure Scratch where
  mReadCommAttr : Bool
  mIsClientCommGrp : Bool
  mSensingHubId : ℤ
  mPlatformId : Bytes
  mClientCommType : Bytes
  mClientCommValue : ℤ
  mSensingHubNameIdMapFilled : Bool
  mCommMapFilled : Bool
  deriving DecidableEq, Repr

/-- The values the scratch members start from. -/
def Scratch.initial : Scratch :=
  ⟨false, false, -1, [], [], -1, false, false⟩

/-- The parser object. -/
structure QshJsonParser where
  mDeviceSocId : ℤ
  mJsonSocIdList : List ℤ
  mJsonSocId : ℤ
  mSensingHubNameIdMap : Table Bytes ℤ
  mSensingHubCommMap : Table ℤ (Bytes × ℤ)
  mSensingHubIdNameMap : Table ℤ Bytes
  mHubIds : List ℤ
  scratch : Scratch
  mIsFileParsed : Bool

namespace QshJsonParser

/-- `readSocId`: the first line of the `soc_id` file, `none` if it cannot be opened or read; at most
15 bytes of it are looked at. -/
def readSocId (line : Option Bytes) : ℤ :=
  match line with
  | none => -1
  | some s => atoi (s.take 15)

/-- The constructor, on a device with the given `soc_id`. -/
def fresh (deviceSocId : ℤ) : QshJsonParser where
  mDeviceSocId := deviceSocId
  mJsonSocIdList := []
  mJsonSocId := -1
  mSensingHubNameIdMap := Table.empty
  mSensingHubCommMap := Table.empty
  mSensingHubIdNameMap := Table.empty
  mHubIds := []
  scratch := Scratch.initial
  mIsFileParsed := false

/-- `resetParserState`: everything but the three tables, the device's id and `mIsFileParsed`. -/
def resetParserState (p : QshJsonParser) : QshJsonParser :=
  { p with
    scratch := Scratch.initial
    mJsonSocId := -1
    mJsonSocIdList := []
    mHubIds := [] }

/-! ### The queries -/

/-- `getHubName` -/
def getHubName (p : QshJsonParser) (hubID : ℤ) : Bytes :=
  match p.mSensingHubIdNameMap hubID with
  | none => []
  | some name => name

/-- `getCommType`: whatever `stoi` throws is caught. -/
def getCommType (p : QshJsonParser) (hubID : ℤ) : ℤ :=
  match p.mSensingHubCommMap hubID with
  | none => -1
  | some (commType, _) =>
    match stoi commType with
    | .ok n => n
    | .error _ => -1

/-- `getCommHandleAttrs` -/
def getCommHandleAttrs (p : QshJsonParser) (hubID : ℤ) : ℤ :=
  match p.mSensingHubCommMap hubID with
  | none => -1
  | some (_, value) => value

/-- `getHubIdList` -/
def getHubIdList (p : QshJsonParser) : List ℤ :=
  p.mHubIds

/-- `getHubId` -/
def getHubId (p : QshJsonParser) (hubName : Bytes) : ℤ :=
  match p.mSensingHubNameIdMap hubName with
  | none => -1
  | some hubId => hubId

/-- `isFileParsed` -/
def isFileParsed (p : QshJsonParser) : Bool :=
  p.mIsFileParsed

/-! ### The device's id -/

/-- The search for the device's id behind a config section. -/
def matchSocId (p : QshJsonParser) : QshJsonParser :=
  if p.mDeviceSocId ∈ p.mJsonSocIdList then { p with mJsonSocId := p.mDeviceSocId } else p

/-- The file names its devices and this one has not been among them. -/
def Skips (p : QshJsonParser) : Prop :=
  p.mJsonSocIdList ≠ [] ∧ p.mJsonSocId = -1

instance (p : QshJsonParser) : Decidable p.Skips := inferInstanceAs (Decidable (_ ∧ _))

end QshJsonParser

/-! ### One item -/

/-- The scratch members hold an entry of the name table. -/
def Scratch.HasName (s : Scratch) : Prop :=
  s.mSensingHubId ≠ -1 ∧ s.mPlatformId ≠ []

/-- The scratch members hold an entry of the communication table. -/
def Scratch.HasComm (s : Scratch) : Prop :=
  s.mSensingHubId ≠ -1 ∧ s.mClientCommType ≠ [] ∧ s.mClientCommValue ≠ -1

instance (s : Scratch) : Decidable s.HasName := inferInstanceAs (Decidable (_ ∧ _))

instance (s : Scratch) : Decidable s.HasComm := inferInstanceAs (Decidable (_ ∧ _))

namespace QshJsonParser

/-- The cases of `updateSensingHubInfo` on the key. -/
def readKey (p : QshJsonParser) (key value : Bytes) : QshJsonParser :=
  if key = str "platform_id" then
    { p with scratch.mPlatformId := value }
  else if key = str "sensing_hub_id" then
    { p with scratch.mSensingHubId := atoi value, mHubIds := p.mHubIds ++ [atoi value] }
  else if key = str "client_comm_type" then
    { p with scratch.mClientCommType := value }
  else if p.scratch.mIsClientCommGrp ∧ key = str "service_id" then
    if COMM_TYPE_QMI = p.scratch.mClientCommType then
      { p with scratch.mClientCommValue := atoi value, scratch.mIsClientCommGrp := false }
    else { p with scratch.mIsClientCommGrp := false }
  else if p.scratch.mIsClientCommGrp ∧ key = str "link_name" ∧ value ≠ str "apps" then
    { p with mSensingHubIdNameMap := p.mSensingHubIdNameMap.assign p.scratch.mSensingHubId value }
  else if p.scratch.mIsClientCommGrp ∧ value ≠ str "apps" ∧ key ≠ str "link_name" then
    { p with scratch.mReadCommAttr := true, scratch.mIsClientCommGrp := false }
  else if key = str "no_of_channels" ∧ p.scratch.mReadCommAttr then
    if COMM_TYPE_GLINK = p.scratch.mClientCommType then
      { p with scratch.mClientCommValue := atoi value }
    else p
  else p

/-- The entry of the name table, once there is one. -/
def fillNameIdMap (p : QshJsonParser) : QshJsonParser :=
  if p.scratch.HasName then
    { p with
      mSensingHubNameIdMap :=
        p.mSensingHubNameIdMap.insert p.scratch.mPlatformId p.scratch.mSensingHubId
      scratch.mSensingHubNameIdMapFilled := true }
  else p

/-- The entry of the communication table, once there is one. -/
def fillCommMap (p : QshJsonParser) : QshJsonParser :=
  if p.scratch.HasComm then
    { p with
      mSensingHubCommMap := p.mSensingHubCommMap.insert p.scratch.mSensingHubId
        (p.scratch.mClientCommType, p.scratch.mClientCommValue)
      scratch.mCommMapFilled := true }
  else p

/-- The scratch members start over once both tables have been filled; `mIsClientCommGrp` is not
among them. -/
def startOver (p : QshJsonParser) : QshJsonParser :=
  if p.scratch.mSensingHubNameIdMapFilled ∧ p.scratch.mCommMapFilled then
    { p with scratch := { Scratch.initial with mIsClientCommGrp := p.scratch.mIsClientCommGrp } }
  else p

/-- `updateSensingHubInfo` -/
def updateSensingHubInfo (p : QshJsonParser) (grpName key value : Bytes) : QshJsonParser :=
  let p := if grpName = str ".client_comm" then { p with scratch.mIsClientCommGrp := true } else p
  (p.readKey key value).fillNameIdMap.fillCommMap.startOver

end QshJsonParser

/-! ### The scratch members on their own -/

namespace Scratch

/-- The cases on the key, as far as they write scratch members. -/
def readKey (s : Scratch) (key value : Bytes) : Scratch :=
  if key = str "platform_id" then { s with mPlatformId := value }
  else if key = str "sensing_hub_id" then { s with mSensingHubId := atoi value }
  else if key = str "client_comm_type" then { s with mClientCommType := value }
  else if s.mIsClientCommGrp ∧ key = str "service_id" then
    if COMM_TYPE_QMI = s.mClientCommType then
      { s with mClientCommValue := atoi value, mIsClientCommGrp := false }
    else { s with mIsClientCommGrp := false }
  else if s.mIsClientCommGrp ∧ key = str "link_name" ∧ value ≠ str "apps" then s
  else if s.mIsClientCommGrp ∧ value ≠ str "apps" ∧ key ≠ str "link_name" then
    { s with mReadCommAttr := true, mIsClientCommGrp := false }
  else if key = str "no_of_channels" ∧ s.mReadCommAttr then
    if COMM_TYPE_GLINK = s.mClientCommType then { s with mClientCommValue := atoi value } else s
  else s

/-- The scratch members when the tables are filled. -/
def read (s : Scratch) (grpName key value : Bytes) : Scratch :=
  (if grpName = str ".client_comm" then { s with mIsClientCommGrp := true } else s).readKey key
    value

/-- The two `Filled` flags. -/
def noteFilled (s : Scratch) : Scratch :=
  { s with
    mSensingHubNameIdMapFilled := s.mSensingHubNameIdMapFilled || decide s.HasName
    mCommMapFilled := s.mCommMapFilled || decide s.HasComm }

/-- Starting over. -/
def startOver (s : Scratch) : Scratch :=
  if s.mSensingHubNameIdMapFilled ∧ s.mCommMapFilled then
    { Scratch.initial with mIsClientCommGrp := s.mIsClientCommGrp }
  else s

/-- The scratch members after an item. -/
def update (s : Scratch) (grpName key value : Bytes) : Scratch :=
  (s.read grpName key value).noteFilled.startOver

end Scratch

namespace QshJsonParser

/-- An item names the hub being read: the `link_name` case. -/
def NamesHub (p : QshJsonParser) (grpName key value : Bytes) : Prop :=
  (grpName = str ".client_comm" ∨ p.scratch.mIsClientCommGrp = true) ∧ key = str "link_name" ∧
    value ≠ str "apps"

instance (p : QshJsonParser) (grpName key value : Bytes) :
    Decidable (p.NamesHub grpName key value) :=
  inferInstanceAs (Decidable (_ ∧ _))

theorem readKey_eq (p : QshJsonParser) (key value : Bytes) :
    p.readKey key value =
      { p with
        mHubIds := if key = str "sensing_hub_id" then p.mHubIds ++ [atoi value] else p.mHubIds
        mSensingHubIdNameMap :=
          if p.scratch.mIsClientCommGrp = true ∧ key = str "link_name" ∧ value ≠ str "apps" then
            p.mSensingHubIdNameMap.assign p.scratch.mSensingHubId value
          else p.mSensingHubIdNameMap
        scratch := p.scratch.readKey key value } := by
  unfold readKey Scratch.readKey
  by_cases hplatform : key = str "platform_id"
  · subst hplatform
    simp +decide
  by_cases hhub : key = str "sensing_hub_id"
  · subst hhub
    simp +decide
  by_cases htype : key = str "client_comm_type"
  · subst htype
    simp +decide
  by_cases hservice : key = str "service_id"
  · subst hservice
    simp only [hplatform, hhub, htype, if_false]
    split_ifs <;> simp_all +decide
  simp only [hplatform, hhub, htype, hservice, and_false, if_false]
  split_ifs <;> rfl

theorem fillNameIdMap_eq (p : QshJsonParser) :
    p.fillNameIdMap =
      { p with
        mSensingHubNameIdMap :=
          if p.scratch.HasName then
            p.mSensingHubNameIdMap.insert p.scratch.mPlatformId p.scratch.mSensingHubId
          else p.mSensingHubNameIdMap
        scratch.mSensingHubNameIdMapFilled :=
          p.scratch.mSensingHubNameIdMapFilled || decide p.scratch.HasName } := by
  unfold fillNameIdMap
  split_ifs with h <;> simp [h]

theorem fillCommMap_eq (p : QshJsonParser) :
    p.fillCommMap =
      { p with
        mSensingHubCommMap :=
          if p.scratch.HasComm then
            p.mSensingHubCommMap.insert p.scratch.mSensingHubId
              (p.scratch.mClientCommType, p.scratch.mClientCommValue)
          else p.mSensingHubCommMap
        scratch.mCommMapFilled := p.scratch.mCommMapFilled || decide p.scratch.HasComm } := by
  unfold fillCommMap
  split_ifs with h <;> simp [h]

theorem startOver_eq (p : QshJsonParser) :
    p.startOver = { p with scratch := p.scratch.startOver } := by
  unfold startOver Scratch.startOver
  split_ifs <;> rfl

/-- What an item does to each member. -/
theorem updateSensingHubInfo_eq (p : QshJsonParser) (grpName key value : Bytes) :
    p.updateSensingHubInfo grpName key value =
      { p with
        mHubIds := if key = str "sensing_hub_id" then p.mHubIds ++ [atoi value] else p.mHubIds
        mSensingHubIdNameMap :=
          if p.NamesHub grpName key value then
            p.mSensingHubIdNameMap.assign p.scratch.mSensingHubId value
          else p.mSensingHubIdNameMap
        mSensingHubNameIdMap :=
          if (p.scratch.read grpName key value).HasName then
            p.mSensingHubNameIdMap.insert (p.scratch.read grpName key value).mPlatformId
              (p.scratch.read grpName key value).mSensingHubId
          else p.mSensingHubNameIdMap
        mSensingHubCommMap :=
          if (p.scratch.read grpName key value).HasComm then
            p.mSensingHubCommMap.insert (p.scratch.read grpName key value).mSensingHubId
              ((p.scratch.read grpName key value).mClientCommType,
                (p.scratch.read grpName key value).mClientCommValue)
          else p.mSensingHubCommMap
        scratch := p.scratch.update grpName key value } := by
  unfold updateSensingHubInfo
  simp only [readKey_eq, fillNameIdMap_eq, fillCommMap_eq, startOver_eq]
  unfold NamesHub Scratch.update Scratch.read
  by_cases hgroup : grpName = str ".client_comm"
  · simp only [hgroup, if_true, true_or, true_and]
    rfl
  · simp only [hgroup, if_false, false_or]
    rfl

end QshJsonParser

/-! ### The ids among the scratch members -/

theorem mSensingHubId_readKey (s : Scratch) (key value : Bytes) :
    (s.readKey key value).mSensingHubId =
      if key = str "sensing_hub_id" then atoi value else s.mSensingHubId := by
  unfold Scratch.readKey
  by_cases hhub : key = str "sensing_hub_id"
  · have hne : key ≠ str "platform_id" := by
      rw [hhub]
      decide
    rw [if_neg hne, if_pos hhub, if_pos hhub]
  · rw [if_neg hhub]
    split_ifs <;> rfl

theorem mSensingHubId_read (s : Scratch) (grpName key value : Bytes) :
    (s.read grpName key value).mSensingHubId =
      if key = str "sensing_hub_id" then atoi value else s.mSensingHubId := by
  rw [Scratch.read, mSensingHubId_readKey]
  split_ifs <;> rfl

theorem mPlatformId_readKey (s : Scratch) (key value : Bytes) :
    (s.readKey key value).mPlatformId =
      if key = str "platform_id" then value else s.mPlatformId := by
  unfold Scratch.readKey
  split_ifs <;> rfl

theorem mPlatformId_read (s : Scratch) (grpName key value : Bytes) :
    (s.read grpName key value).mPlatformId =
      if key = str "platform_id" then value else s.mPlatformId := by
  rw [Scratch.read, mPlatformId_readKey]
  split_ifs <;> rfl

theorem mSensingHubId_update (s : Scratch) (grpName key value : Bytes) :
    (s.update grpName key value).mSensingHubId = -1 ∨
      (s.update grpName key value).mSensingHubId = (s.read grpName key value).mSensingHubId := by
  unfold Scratch.update Scratch.startOver
  split_ifs
  · exact Or.inl rfl
  · exact Or.inr rfl

theorem mPlatformId_update (s : Scratch) (grpName key value : Bytes) :
    (s.update grpName key value).mPlatformId = [] ∨
      (s.update grpName key value).mPlatformId = (s.read grpName key value).mPlatformId := by
  unfold Scratch.update Scratch.startOver
  split_ifs
  · exact Or.inl rfl
  · exact Or.inr rfl

end SensingHub.Json
