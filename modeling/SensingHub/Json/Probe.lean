import SensingHub.Json.Leftover

/-!
# Groups that show a leftover

A probe is a group that describes a hub, with its items in an order, or with an item too many, that
makes no difference to a fresh parser but does to one with something left over. Each component
of the scratch members that `Scratch.Harmless` asks about has its probe.
-/

namespace SensingHub.Json

open CLib (str atoi)

/-- The probes, each for some of the scratch members: `mSensingHubId`, `mClientCommValue` and
`mCommMapFilled` with either of two services; `mPlatformId` and `mSensingHubNameIdMapFilled`;
`mIsClientCommGrp`; `mReadCommAttr`; `mClientCommType`. -/
inductive Probe
  | ordered (other : Bool)
  | platformLast
  | earlyService
  | earlyChannels
  | typeless

namespace Probe

/-- The service of an ordered probe. -/
def service : Bool → Bytes
  | false => str "2"
  | true => str "1"

/-- The number that a probe gives for its hub. -/
def attrs : Probe → ℤ
  | .ordered true => 1
  | _ => 2

/-! ### The text of a probe -/

/-- The members of a probe for the hub with the string `d` for both its ids. -/
def members (d : Bytes) : Probe → List Member
  | .ordered other =>
    [dataItem (str "platform_id") d, dataItem (str "sensing_hub_id") d,
      .group (str ".client_comm") (Transport.qmi (service other)).members]
  | .platformLast =>
    [dataItem (str "sensing_hub_id") d,
      .group (str ".client_comm") (Transport.qmi (str "2")).members,
      dataItem (str "platform_id") d]
  | .earlyService =>
    [dataItem (str "platform_id") d, dataItem (str "sensing_hub_id") d,
      dataItem (str "client_comm_type") (str "0"), dataItem (str "service_id") (str "1"),
      .group (str ".client_comm") [dataItem (str "service_id") (str "2")]]
  | .earlyChannels =>
    [dataItem (str "platform_id") d, dataItem (str "sensing_hub_id") d,
      dataItem (str "client_comm_type") (str "1"), dataItem (str "no_of_channels") (str "1"),
      .group (str ".client_comm") [dataItem (str "channel_name") (str "c")],
      dataItem (str "no_of_channels") (str "2")]
  | .typeless =>
    [dataItem (str "platform_id") d, dataItem (str "sensing_hub_id") d,
      .group (str ".client_comm")
        [dataItem (str "service_id") (str "1"), dataItem (str "channel_name") (str "c")],
      dataItem (str "no_of_channels") (str "1"), dataItem (str "client_comm_type") (str "0"),
      .group (str ".client_comm") [dataItem (str "service_id") (str "2")]]

/-- The group of a probe. -/
def group (d : Bytes) (π : Probe) : TopGroup :=
  ⟨str "hub", π.members d⟩

theorem wellFormed (d : Bytes) (π : Probe) : (π.group d).WellFormed := by
  have hname : str "hub" ≠ str "config" := by decide
  refine ⟨hname, ?_, ?_⟩
  · cases π <;> exact List.cons_ne_nil _ _
  · cases π <;>
      simp +decide [group, members, Transport.members, dataItem, MembersWellFormed,
        Member.WellFormed]

theorem plain {d : Bytes} (hquote : 34 ∉ d) (hnul : 0 ∉ d) (π : Probe) :
    ∀ t ∈ (Member.group (π.group d).name (π.group d).members).tokens, t.Plain := by
  have hservice (other : Bool) : 34 ∉ service other ∧ 0 ∉ service other := by
    cases other <;> decide
  cases π <;>
    simp +decide [group, members, Transport.members, dataItem, Member.tokens, membersTokens,
      stringsTokens, keyTokens, Token.Plain, hquote, hnul, hservice]

/-- The text of a probe. -/
theorem groupText {d : Bytes} (hquote : 34 ∉ d) (hnul : 0 ∉ d) (π : Probe) :
    GroupText (π.group d) (π.group d).text where
  tokens := tokens_render (π.plain hquote hnul)
  closed := by
    rw [TopGroup.text, Member.tokens, ← List.cons_append, ← List.append_assoc, render,
      List.flatMap_append]
    exact List.getLast?_concat

/-- The length of the text depends on the length of the string only. -/
theorem length_text_congr {d d' : Bytes} (h : d.length = d'.length) (π : Probe) :
    (π.group d).text.length = (π.group d').text.length := by
  cases π <;>
    simp only [group, TopGroup.text, render, Token.bytes, members, Transport.members, dataItem,
      Member.tokens, membersTokens, stringsTokens, keyTokens, List.cons_append, List.nil_append,
      List.append_assoc, List.flatMap_cons, List.flatMap_nil,
      List.length_append, List.length_cons, h]

theorem length_text {d : Bytes} (hd : d.length = 10) (π : Probe) :
    (π.group d).text.length ≤ 300 := by
  have hsame : _ = (π.group (List.replicate 10 48)).text.length := length_text_congr hd π
  rw [hsame]
  rcases π with ⟨_ | _⟩ | _ | _ | _ | _ <;> decide +kernel

/-! ### The calls of a probe -/

/-- The call for the platform id. -/
def platformCall (d : Bytes) : Call :=
  ⟨str "hub", str "platform_id", some d⟩

/-- The call for the hub id. -/
def hubCall (d : Bytes) : Call :=
  ⟨str "hub", str "sensing_hub_id", some d⟩

/-- The calls of a probe. -/
def calls (d : Bytes) : Probe → List Call
  | .ordered other => platformCall d :: hubCall d :: (Transport.qmi (service other)).calls
  | .platformLast => hubCall d :: ((Transport.qmi (str "2")).calls ++ [platformCall d])
  | .earlyService =>
    [platformCall d, hubCall d, ⟨str "hub", str "client_comm_type", some (str "0")⟩,
      ⟨str "hub", str "service_id", some (str "1")⟩,
      ⟨str ".client_comm", str "service_id", some (str "2")⟩]
  | .earlyChannels =>
    [platformCall d, hubCall d, ⟨str "hub", str "client_comm_type", some (str "1")⟩,
      ⟨str "hub", str "no_of_channels", some (str "1")⟩,
      ⟨str ".client_comm", str "channel_name", some (str "c")⟩,
      ⟨str "hub", str "no_of_channels", some (str "2")⟩]
  | .typeless =>
    [platformCall d, hubCall d, ⟨str ".client_comm", str "service_id", some (str "1")⟩,
      ⟨str ".client_comm", str "channel_name", some (str "c")⟩,
      ⟨str "hub", str "no_of_channels", some (str "1")⟩,
      ⟨str "hub", str "client_comm_type", some (str "0")⟩,
      ⟨str ".client_comm", str "service_id", some (str "2")⟩]

theorem calls_group {d : Bytes} (hd : d.length ≤ 14) (π : Probe) :
    (π.group d).calls = π.calls d := by
  have hplatform := calls_dataItem_of_length_le (str "hub") (str "platform_id") hd
  have hhub := calls_dataItem_of_length_le (str "hub") (str "sensing_hub_id") hd
  unfold TopGroup.calls
  rcases π with ⟨_ | _⟩ | _ | _ | _ | _ <;>
  · simp only [group, members, membersCalls, hplatform, hhub]
    rfl

theorem isSome_data (d : Bytes) (π : Probe) : ∀ c ∈ π.calls d, c.data.isSome := by
  cases π <;> simp [calls, platformCall, hubCall, Transport.calls]

theorem mentions (d : Bytes) (π : Probe) :
    (∀ h, MentionsHub (π.calls d) h → h = atoi d) ∧
      ∀ p, MentionsPlatform (π.calls d) p → p = d := by
  cases π <;>
  · refine ⟨fun h ↦ ?_, fun p ↦ ?_⟩ <;>
      simp +decide [MentionsHub, MentionsPlatform, calls, platformCall, hubCall, Transport.calls,
        eq_comm]

/-! ### A fresh parser -/

variable {d : Bytes} {n : ℤ}

/-- A fresh parser enters the hub of a probe. -/
theorem readCalls_fresh (hd : d ≠ []) (hatoi : atoi d = n) (hn : n ≠ -1) (device : ℤ)
    (π : Probe) :
    ((QshJsonParser.fresh device).readCalls (π.calls d)).mSensingHubNameIdMap d = some n ∧
      ∃ t, ((QshJsonParser.fresh device).readCalls (π.calls d)).mSensingHubCommMap n =
        some (t, π.attrs) := by
  have h1 : atoi (str "1") = 1 := by decide +kernel
  have h2 : atoi (str "2") = 2 := by decide +kernel
  rcases π with ⟨_ | _⟩ | _ | _ | _ | _ <;>
  · simp only [calls, service, Transport.calls, platformCall, hubCall, QshJsonParser.readCalls,
      List.foldl_cons, List.foldl_nil, List.foldl_append, QshJsonParser.readCall, Option.getD_some,
      QshJsonParser.updateSensingHubInfo_eq, QshJsonParser.fresh]
    simp +decide [Scratch.read, Scratch.readKey, Scratch.initial, Scratch.update,
      Scratch.noteFilled, Scratch.startOver, Scratch.HasName, Scratch.HasComm, hatoi, hd, hn, h1,
      h2, attrs]

/-- What a fresh parser answers for the hub of a probe. -/
theorem answers_fresh (hd : d ≠ []) (hatoi : atoi d = n) (hn : n ≠ -1) (device : ℤ) (π : Probe) :
    ((QshJsonParser.fresh device).readCalls (π.calls d)).getHubId d = n ∧
      ((QshJsonParser.fresh device).readCalls (π.calls d)).getCommHandleAttrs n = π.attrs := by
  obtain ⟨hname, t, hcomm⟩ := π.readCalls_fresh hd hatoi hn device
  exact ⟨by rw [QshJsonParser.getHubId, hname], by rw [QshJsonParser.getCommHandleAttrs, hcomm]⟩

end Probe

/-! ### A parser with something left over -/

/-- The parser has nothing of a hub, neither in its tables nor as the hub being read. -/
structure QshJsonParser.Unaware (q : QshJsonParser) (p : Bytes) (h : ℤ) : Prop where
  name : q.mSensingHubNameIdMap p = none
  comm : q.mSensingHubCommMap h = none
  mSensingHubId : q.scratch.mSensingHubId ≠ h
  mPlatformId : q.scratch.mPlatformId ≠ p

namespace Probe

theorem readCalls_cons (q : QshJsonParser) (c : Call) (cs : List Call) :
    q.readCalls (c :: cs) = (q.readCall c).readCalls cs := rfl

section

variable {q : QshJsonParser} {s : Scratch} {d : Bytes} {n : ℤ}

/-- A hub id left over is entered under the platform id. -/
theorem name_of_mSensingHubId (hd : d ≠ []) (hname : q.mSensingHubNameIdMap d = none)
    (hhub : q.scratch.mSensingHubId ≠ -1) (other : Bool) :
    (q.readCalls ((ordered other).calls d)).mSensingHubNameIdMap d =
      some q.scratch.mSensingHubId := by
  rw [calls, readCalls_cons]
  apply name_readCalls
  rw [QshJsonParser.readCall, QshJsonParser.updateSensingHubInfo_eq, platformCall]
  simp +decide [Scratch.read, Scratch.readKey, Scratch.HasName, hd, hhub, hname]

/-- Without a new one there is no hub id. -/
theorem mSensingHubId_readCalls (hhub : s.mSensingHubId = -1) {cs : List Call}
    (hcs : ∀ c ∈ cs, c.key ≠ str "sensing_hub_id") : (s.readCalls cs).mSensingHubId = -1 := by
  induction cs generalizing s with
  | nil => exact hhub
  | cons c cs ih =>
    refine ih ?_ fun c' hc' ↦ hcs c' (List.mem_cons_of_mem _ hc')
    have hread := mSensingHubId_read s c.grpName c.key (c.data.getD [])
    rw [if_neg (hcs c (List.mem_cons_self ..)), hhub] at hread
    exact (mSensingHubId_update s c.grpName c.key (c.data.getD [])).elim id (·.trans hread)

/-- A transport makes the scratch members start over if the name table is filled. -/
theorem mSensingHubId_transport (hhub : s.mSensingHubId ≠ -1)
    (hname : s.mSensingHubNameIdMapFilled = true) (hcomm : s.mCommMapFilled = false) :
    (s.readCalls (Transport.qmi (str "2")).calls).mSensingHubId = -1 := by
  have h2 : atoi (str "2") = 2 := by decide +kernel
  by_cases hvalue : s.mClientCommValue = -1 <;>
    simp +decide [Transport.calls, Scratch.readCalls, Scratch.read, Scratch.readKey,
      Scratch.initial, Scratch.update, Scratch.noteFilled, Scratch.startOver, Scratch.HasName,
      Scratch.HasComm, hhub, hname, hcomm, hvalue, h2]

/-- A hub id that comes when there is a platform id, or the name table counts as filled, does not
last until a platform id behind the transport. -/
theorem mSensingHubId_platformLast (hatoi : atoi d = n) (hn : n ≠ -1)
    (hs : s.mPlatformId ≠ [] ∨ s.mSensingHubNameIdMapFilled = true) :
    (s.readCalls (hubCall d :: (Transport.qmi (str "2")).calls)).mSensingHubId = -1 := by
  have hread : s.read (hubCall d).grpName (hubCall d).key ((hubCall d).data.getD []) =
      { s with mSensingHubId := n } := by
    rw [← hatoi]
    rfl
  have hfilled : Scratch.mSensingHubNameIdMapFilled
      (Scratch.noteFilled { s with mSensingHubId := n }) = true := by
    rcases hs with hs | hs <;> simp [Scratch.noteFilled, Scratch.HasName, hn, hs]
  rw [Scratch.readCalls_cons, Scratch.update, hread, Scratch.startOver]
  split_ifs with hboth
  · exact mSensingHubId_readCalls rfl (by decide)
  · exact mSensingHubId_transport hn hfilled (Bool.eq_false_iff.2 fun h ↦ hboth ⟨hfilled, h⟩)

/-- The platform id is then not entered. -/
theorem name_of_mPlatformId (hd : d ≠ []) (hatoi : atoi d = n) (hn : n ≠ -1)
    (hq : q.Unaware d n)
    (hs : q.scratch.mPlatformId ≠ [] ∨ q.scratch.mSensingHubNameIdMapFilled = true) :
    (q.readCalls (platformLast.calls d)).mSensingHubNameIdMap d = none := by
  have hcalls : platformLast.calls d =
      (hubCall d :: (Transport.qmi (str "2")).calls) ++ [platformCall d] := rfl
  have hframe : PlatformFrame q (q.readCalls (hubCall d :: (Transport.qmi (str "2")).calls)) d := by
    refine platformFrame_readCalls hd hq.mPlatformId ?_
    simp +decide [MentionsPlatform, Transport.calls, hubCall]
  have hhub := mSensingHubId_platformLast hatoi hn hs
  rw [← scratch_readCalls] at hhub
  rw [hcalls, QshJsonParser.readCalls_append, readCalls_cons, QshJsonParser.readCall,
    QshJsonParser.updateSensingHubInfo_eq]
  show (if _ then _ else _ : Table Bytes ℤ) d = none
  rw [if_neg, hframe.name, hq.name]
  rintro ⟨hread, -⟩
  rw [mSensingHubId_read] at hread
  exact hread hhub

/-- What the two ids do behind a leftover without ids. -/
theorem readCalls_ids_leftover (hd : d ≠ []) (hatoi : atoi d = n) (hn : n ≠ -1)
    (hcomm : q.mSensingHubCommMap n = none) (hhub : q.scratch.mSensingHubId = -1)
    (hname : q.scratch.mSensingHubNameIdMapFilled = false) :
    (q.readCalls [platformCall d, hubCall d]).mSensingHubCommMap n =
        (if q.scratch.mClientCommType ≠ [] ∧ q.scratch.mClientCommValue ≠ -1 then
          some (q.scratch.mClientCommType, q.scratch.mClientCommValue) else none) ∧
      (q.readCalls [platformCall d, hubCall d]).scratch = Scratch.startOver { q.scratch with
        mPlatformId := d
        mSensingHubId := n
        mSensingHubNameIdMapFilled := true
        mCommMapFilled := q.scratch.mCommMapFilled ||
          decide (q.scratch.mClientCommType ≠ [] ∧ q.scratch.mClientCommValue ≠ -1) } := by
  obtain ⟨hcomm₁, hscratch₁⟩ :
      (q.readCall (platformCall d)).mSensingHubCommMap = q.mSensingHubCommMap ∧
        (q.readCall (platformCall d)).scratch = { q.scratch with mPlatformId := d } := by
    rw [QshJsonParser.readCall, QshJsonParser.updateSensingHubInfo_eq]
    simp +decide [platformCall, Scratch.read, Scratch.readKey, Scratch.update, Scratch.noteFilled,
      Scratch.startOver, Scratch.HasName, Scratch.HasComm, hhub, hname]
  have hread : Scratch.read { q.scratch with mPlatformId := d } (hubCall d).grpName (hubCall d).key
      ((hubCall d).data.getD []) = { q.scratch with mPlatformId := d, mSensingHubId := n } := by
    rw [← hatoi]
    rfl
  rw [readCalls_cons, readCalls_cons]
  generalize q.readCall (platformCall d) = q₁ at *
  constructor
  · show (q₁.readCall (hubCall d)).mSensingHubCommMap n = _
    rw [QshJsonParser.readCall, QshJsonParser.updateSensingHubInfo_eq, hscratch₁, hcomm₁]
    show (if (Scratch.read _ _ _ _).HasComm then _ else _ : Table ℤ (Bytes × ℤ)) n = _
    rw [hread]
    by_cases hentry : q.scratch.mClientCommType ≠ [] ∧ q.scratch.mClientCommValue ≠ -1
    · rw [if_pos hentry, if_pos ⟨hn, hentry⟩, Table.insert_self, hcomm]
      rfl
    · rw [if_neg hentry, if_neg fun h ↦ hentry h.2, hcomm]
  · show (q₁.readCall (hubCall d)).scratch = _
    rw [scratch_readCall, hscratch₁]
    simp +decide [hubCall, Scratch.read, Scratch.readKey, Scratch.update, Scratch.noteFilled,
      Scratch.HasName, Scratch.HasComm, hatoi, hn, hd]

/-- A value left over is entered for the hub, and a communication table that counts as filled keeps
an entry from being made. -/
theorem attrs_of_mClientCommValue (hd : d ≠ []) (hatoi : atoi d = n) (hn : n ≠ -1)
    (hcomm : q.mSensingHubCommMap n = none) (hhub : q.scratch.mSensingHubId = -1)
    (hname : q.scratch.mSensingHubNameIdMapFilled = false)
    (hs : q.scratch.mCommMapFilled = true ∨ q.scratch.mClientCommValue ≠ -1) (other : Bool) :
    (q.readCalls ((ordered other).calls d)).getCommHandleAttrs n = -1 ∨
      (q.readCalls ((ordered other).calls d)).getCommHandleAttrs n =
        q.scratch.mClientCommValue := by
  obtain ⟨hentry₂, hscratch₂⟩ := readCalls_ids_leftover hd hatoi hn hcomm hhub hname
  have hcalls : (ordered other).calls d =
      [platformCall d, hubCall d] ++ (Transport.qmi (service other)).calls := rfl
  rw [hcalls, QshJsonParser.readCalls_append]
  generalize q.readCalls [platformCall d, hubCall d] = q₂ at *
  by_cases hentry : q.scratch.mClientCommType ≠ [] ∧ q.scratch.mClientCommValue ≠ -1
  · -- the leftover is whole: the hub id enters it
    rw [if_pos hentry] at hentry₂
    right
    rw [QshJsonParser.getCommHandleAttrs, comm_readCalls hentry₂]
  rw [if_neg hentry] at hentry₂
  rw [decide_eq_false hentry, Bool.or_false] at hscratch₂
  by_cases hfilled : q.scratch.mCommMapFilled = true
  · -- the scratch members start over before the transport
    have hhub₂ : q₂.scratch.mSensingHubId = -1 := by
      rw [hscratch₂, Scratch.startOver, if_pos ⟨rfl, hfilled⟩]
      rfl
    have hframe : HubFrame q₂ (q₂.readCalls (Transport.qmi (service other)).calls) n := by
      refine hubFrame_readCalls hn (hhub₂ ▸ hn.symm) ?_
      simp +decide [MentionsHub, Transport.calls]
    left
    rw [QshJsonParser.getCommHandleAttrs, hframe.comm, hentry₂]
  · -- the type of the transport meets the value that is left over
    have hvalue : q.scratch.mClientCommValue ≠ -1 := hs.resolve_left hfilled
    have hstart : q₂.scratch = { q.scratch with
        mPlatformId := d
        mSensingHubId := n
        mSensingHubNameIdMapFilled := true } := by
      rw [hscratch₂, Scratch.startOver, if_neg fun h ↦ hfilled h.2]
    have hcomm₃ : (q₂.readCall ⟨str ".client_comm", str "client_comm_type",
        some (str "0")⟩).mSensingHubCommMap n = some (str "0", q.scratch.mClientCommValue) := by
      rw [QshJsonParser.readCall, QshJsonParser.updateSensingHubInfo_eq, hstart]
      simp +decide [Scratch.read, Scratch.readKey, Scratch.HasComm, hn, hvalue, hentry₂]
    right
    rw [Transport.calls, readCalls_cons, QshJsonParser.getCommHandleAttrs, comm_readCalls hcomm₃]

/-- The group counts as `.client_comm` from the start, and an early service is taken. -/
theorem attrs_of_mIsClientCommGrp (hd : d ≠ []) (hatoi : atoi d = n) (hn : n ≠ -1)
    (hcomm : q.mSensingHubCommMap n = none)
    (hq : q.scratch = { Scratch.initial with
      mClientCommType := s.mClientCommType
      mReadCommAttr := s.mReadCommAttr
      mIsClientCommGrp := true }) :
    (q.readCalls (earlyService.calls d)).getCommHandleAttrs n = 1 := by
  have h1 : atoi (str "1") = 1 := by decide +kernel
  simp only [QshJsonParser.getCommHandleAttrs, calls, platformCall, hubCall,
    QshJsonParser.readCalls, List.foldl_cons, List.foldl_nil, QshJsonParser.readCall,
    Option.getD_some, QshJsonParser.updateSensingHubInfo_eq, hq]
  simp +decide [Scratch.read, Scratch.readKey, Scratch.initial, Scratch.update, Scratch.noteFilled,
    Scratch.startOver, Scratch.HasName, Scratch.HasComm, hatoi, hd, hn, h1, hcomm]

/-- An early number of channels is taken. -/
theorem attrs_of_mReadCommAttr (hd : d ≠ []) (hatoi : atoi d = n) (hn : n ≠ -1)
    (hcomm : q.mSensingHubCommMap n = none)
    (hq : q.scratch = { Scratch.initial with
      mClientCommType := s.mClientCommType
      mReadCommAttr := true }) :
    (q.readCalls (earlyChannels.calls d)).getCommHandleAttrs n = 1 := by
  have h1 : atoi (str "1") = 1 := by decide +kernel
  simp only [QshJsonParser.getCommHandleAttrs, calls, platformCall, hubCall,
    QshJsonParser.readCalls, List.foldl_cons, List.foldl_nil, QshJsonParser.readCall,
    Option.getD_some, QshJsonParser.updateSensingHubInfo_eq, hq]
  simp +decide [Scratch.read, Scratch.readKey, Scratch.initial, Scratch.update, Scratch.noteFilled,
    Scratch.startOver, Scratch.HasName, Scratch.HasComm, hatoi, hd, hn, h1, hcomm]

/-- A value is taken before its type has come. -/
theorem attrs_of_mClientCommType (hd : d ≠ []) (hatoi : atoi d = n) (hn : n ≠ -1)
    (hcomm : q.mSensingHubCommMap n = none) {t : Bytes} (ht : ¬ Foreign t)
    (hq : q.scratch = { Scratch.initial with mClientCommType := t }) :
    (q.readCalls (typeless.calls d)).getCommHandleAttrs n = 1 := by
  have h1 : atoi (str "1") = 1 := by decide +kernel
  have htype : t = COMM_TYPE_QMI ∨ t = COMM_TYPE_GLINK := by
    by_contra hnot
    exact ht (not_or.1 hnot)
  rcases htype with rfl | rfl <;>
  · simp only [QshJsonParser.getCommHandleAttrs, calls, platformCall, hubCall,
      QshJsonParser.readCalls, List.foldl_cons, List.foldl_nil, QshJsonParser.readCall,
      Option.getD_some, QshJsonParser.updateSensingHubInfo_eq, hq]
    simp +decide [Scratch.read, Scratch.readKey, Scratch.initial, Scratch.update,
      Scratch.noteFilled, Scratch.startOver, Scratch.HasName, Scratch.HasComm, hatoi, hd, hn, h1,
      hcomm]

/-- Scratch members of which but three are as at the start. -/
theorem eq_of_initial (hhub : s.mSensingHubId = -1) (hplatform : s.mPlatformId = [])
    (hvalue : s.mClientCommValue = -1) (hname : s.mSensingHubNameIdMapFilled = false)
    (hcomm : s.mCommMapFilled = false) :
    s = { Scratch.initial with
      mClientCommType := s.mClientCommType
      mReadCommAttr := s.mReadCommAttr
      mIsClientCommGrp := s.mIsClientCommGrp } := by
  obtain ⟨readCommAttr, isClientCommGrp, hub, platform, commType, value, nameFilled,
    commFilled⟩ := s
  cases hhub
  cases hplatform
  cases hvalue
  cases hname
  cases hcomm
  rfl

/-- **Behind any leftover that is not harmless one of the probes is entered differently.** -/
theorem exists_leak (hd : d ≠ []) (hatoi : atoi d = n) (hn : n ≠ -1) (hq : q.Unaware d n)
    (hs : ¬ q.scratch.Harmless) (device : ℤ) :
    ∃ π : Probe, ¬ SameHub ((QshJsonParser.fresh device).readCalls (π.calls d))
      (q.readCalls (π.calls d)) d n := by
  have hfresh (π : Probe) := π.answers_fresh hd hatoi hn device
  by_contra hnone
  have hsame (π : Probe) : SameHub ((QshJsonParser.fresh device).readCalls (π.calls d))
      (q.readCalls (π.calls d)) d n := by
    by_contra h
    exact hnone ⟨π, h⟩
  have hattrs (π : Probe) : (q.readCalls (π.calls d)).getCommHandleAttrs n = π.attrs :=
    (hsame π).getCommHandleAttrs.trans (hfresh π).2
  have hid (π : Probe) : (q.readCalls (π.calls d)).getHubId d = n :=
    (hsame π).getHubId.trans (hfresh π).1
  have hhub : q.scratch.mSensingHubId = -1 := by
    by_contra hhub
    have := hid (.ordered false)
    rw [QshJsonParser.getHubId, name_of_mSensingHubId hd hq.name hhub] at this
    exact hq.mSensingHubId this
  have hplatform : ¬ (q.scratch.mPlatformId ≠ [] ∨
      q.scratch.mSensingHubNameIdMapFilled = true) := by
    intro h
    have := hid .platformLast
    rw [QshJsonParser.getHubId, name_of_mPlatformId hd hatoi hn hq h] at this
    exact hn this.symm
  rw [not_or, not_not, Bool.not_eq_true] at hplatform
  have hvalue : ¬ (q.scratch.mCommMapFilled = true ∨ q.scratch.mClientCommValue ≠ -1) := by
    intro h
    have hother (other : Bool) : (ordered other).attrs = -1 ∨
        (ordered other).attrs = q.scratch.mClientCommValue := by
      rw [← hattrs]
      exact attrs_of_mClientCommValue hd hatoi hn hq.comm hhub hplatform.2 h other
    -- the value left over is the service of at most one of the two
    have h1 := (hother true).resolve_left (by decide)
    have h2 := (hother false).resolve_left (by decide)
    exact absurd (h1.trans h2.symm) (by decide)
  rw [not_or, not_not, Bool.not_eq_true] at hvalue
  have hscratch : q.scratch = { Scratch.initial with
      mClientCommType := q.scratch.mClientCommType
      mReadCommAttr := q.scratch.mReadCommAttr
      mIsClientCommGrp := q.scratch.mIsClientCommGrp } :=
    eq_of_initial hhub hplatform.1 hvalue.2 hplatform.2 hvalue.1
  have hgrp : q.scratch.mIsClientCommGrp = false := by
    by_contra h
    rw [Bool.not_eq_false] at h
    rw [h] at hscratch
    have := attrs_of_mIsClientCommGrp hd hatoi hn hq.comm hscratch
    rw [hattrs] at this
    exact absurd this (by decide)
  rw [hgrp] at hscratch
  have hread : q.scratch.mReadCommAttr = false := by
    by_contra h
    rw [Bool.not_eq_false] at h
    rw [h] at hscratch
    have := attrs_of_mReadCommAttr hd hatoi hn hq.comm hscratch
    rw [hattrs] at this
    exact absurd this (by decide)
  rw [hread] at hscratch
  have htype : ¬ Foreign q.scratch.mClientCommType := fun h ↦ hs ⟨hscratch, h⟩
  have := attrs_of_mClientCommType hd hatoi hn hq.comm htype hscratch
  rw [hattrs] at this
  exact absurd this (by decide)

end

end Probe

end SensingHub.Json
