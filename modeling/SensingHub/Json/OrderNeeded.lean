import SensingHub.Json.MemberOrder
import Mathlib.Data.List.Induction

/-!
# The order that is needed

Where the items of a hub are not in an order the parser can use, the first item that does not fit
goes astray. A number that is not taken leaves the hub without its entry in the communication table,
as there is no other number; a link is entered for the hub `-1`. So the tables hold what the items
say only if they are in order.
-/

namespace SensingHub.Json

open CLib (str atoi)

/-! ### A number that is not taken -/

namespace Scratch

theorem readKey_mClientCommType (s : Scratch) (key value : Bytes) :
    (s.readKey key value).mClientCommType =
      if key = str "client_comm_type" then value else s.mClientCommType := by
  unfold readKey
  by_cases htype : key = str "client_comm_type"
  · subst htype
    simp +decide
  · simp only [htype, if_false]
    split_ifs <;> rfl

/-- A number is only taken for the type that has been read, that of channels only behind an
attribute and outside of `.client_comm`. -/
theorem readKey_mClientCommValue {s : Scratch} {key value : Bytes}
    (hservice : key = str "service_id" → s.mIsClientCommGrp = true →
      s.mClientCommType ≠ COMM_TYPE_QMI)
    (hchannels : key = str "no_of_channels" → s.mReadCommAttr = true →
      (s.mIsClientCommGrp = true → value = str "apps") → s.mClientCommType ≠ COMM_TYPE_GLINK) :
    (s.readKey key value).mClientCommValue = s.mClientCommValue := by
  unfold readKey
  split_ifs with _ _ _ hkey htype _ hattribute hkey' htype'
  · rfl
  · rfl
  · rfl
  · exact absurd htype.symm (hservice hkey.2 hkey.1)
  · rfl
  · rfl
  · rfl
  · refine absurd htype'.symm (hchannels hkey'.1 hkey'.2 fun hgrp ↦ ?_)
    refine not_not.1 fun hvalue ↦ hattribute ⟨hgrp, hvalue, ?_⟩
    rw [hkey'.1]
    decide
  · rfl
  · rfl

theorem read_mClientCommType (s : Scratch) (grpName key value : Bytes) :
    (s.read grpName key value).mClientCommType =
      if key = str "client_comm_type" then value else s.mClientCommType := by
  rw [read, readKey_mClientCommType]
  congr 1
  split_ifs <;> rfl

theorem read_mClientCommValue {s : Scratch} {grpName key value : Bytes}
    (hservice : key = str "service_id" → s.mClientCommType ≠ COMM_TYPE_QMI)
    (hchannels : key = str "no_of_channels" → s.mReadCommAttr = true →
      (s.mIsClientCommGrp = true → value = str "apps") → s.mClientCommType ≠ COMM_TYPE_GLINK) :
    (s.read grpName key value).mClientCommValue = s.mClientCommValue := by
  unfold read
  split_ifs
  · refine readKey_mClientCommValue (fun hkey _ ↦ hservice hkey) fun hkey hattr hgrp ↦ ?_
    exact hchannels hkey hattr fun _ ↦ hgrp rfl
  · exact readKey_mClientCommValue (fun hkey _ ↦ hservice hkey) hchannels

/-- Outside of `.client_comm` the flags are not set. -/
theorem update_flags {s : Scratch} (hflag : s.mIsClientCommGrp = false)
    (hattr : s.mReadCommAttr = false) {grpName : Bytes} (hgrp : grpName ≠ str ".client_comm")
    (key value : Bytes) :
    (s.update grpName key value).mIsClientCommGrp = false ∧
      (s.update grpName key value).mReadCommAttr = false := by
  have hread : (s.read grpName key value).mIsClientCommGrp = false ∧
      (s.read grpName key value).mReadCommAttr = false := by
    rw [read, if_neg hgrp]
    unfold readKey
    simp only [hflag, hattr, Bool.false_eq_true, false_and, and_false, if_false]
    split_ifs <;> simp [hflag, hattr]
  rw [update, startOver]
  split_ifs
  · exact ⟨hread.1, rfl⟩
  · exact hread

end Scratch

namespace HubEntry

variable {e : HubEntry} {q : QshJsonParser}

/-- No number has been taken, and no entry made with one. -/
structure Unset (e : HubEntry) (q : QshJsonParser) : Prop where
  value : q.scratch.mClientCommValue = -1
  commType : q.scratch.mClientCommType = [] ∨ q.scratch.mClientCommType = e.commType
  comms : q.mSensingHubCommMap = Table.empty

/-- An item whose number is not taken. -/
theorem Unset.update {grpName key value : Bytes} (h : e.Unset q)
    (htype : key = str "client_comm_type" → value = e.commType)
    (hvalue : (q.scratch.read grpName key value).mClientCommValue = -1) :
    e.Unset (q.updateSensingHubInfo grpName key value) := by
  have hread : (q.scratch.read grpName key value).mClientCommType = [] ∨
      (q.scratch.read grpName key value).mClientCommType = e.commType := by
    rw [Scratch.read_mClientCommType]
    split_ifs with hkey
    · exact Or.inr (htype hkey)
    · exact h.commType
  rw [QshJsonParser.updateSensingHubInfo_eq]
  refine ⟨?_, ?_, ?_⟩
  · show (q.scratch.update grpName key value).mClientCommValue = -1
    rw [Scratch.update, Scratch.startOver]
    split_ifs
    · rfl
    · exact hvalue
  · show (q.scratch.update grpName key value).mClientCommType = [] ∨
      (q.scratch.update grpName key value).mClientCommType = e.commType
    rw [Scratch.update, Scratch.startOver]
    split_ifs
    · exact Or.inl rfl
    · exact hread
  · exact (if_neg fun hcomm ↦ hcomm.2.2 hvalue).trans h.comms

/-- An item that is not the number. -/
theorem Unset.readCall_of_ne {c : Call} (h : e.Unset q) (hv : e.Valid)
    (htype : c.key = str "client_comm_type" → c.value = e.commType)
    (hservice : e.commType = COMM_TYPE_GLINK → c.key ≠ str "service_id")
    (hkey : c.key ≠ e.attrsKey) : e.Unset (q.readCall c) := by
  have hne : COMM_TYPE_QMI ≠ COMM_TYPE_GLINK := by decide
  refine h.update htype (.trans (Scratch.read_mClientCommValue ?_ ?_) h.value)
  · intro hkey'
    rcases attrsKey_eq hv with ⟨-, hattrs⟩ | ⟨hglink, -⟩
    · exact absurd (hkey'.trans hattrs.symm) hkey
    · exact absurd hkey' (hservice hglink)
  · intro hkey' _ _
    rcases attrsKey_eq hv with ⟨hqmi, -⟩ | ⟨-, hattrs⟩
    · rcases h.commType with hnone | hcomm
      · rw [hnone]
        decide
      · rwa [hcomm, hqmi]
    · exact absurd (hkey'.trans hattrs.symm) hkey

/-- Items without the number. -/
theorem Unset.readCalls {cs : List Call} (h : e.Unset q) (hv : e.Valid)
    (htype : ∀ c ∈ cs, c.key = str "client_comm_type" → c.value = e.commType)
    (hservice : e.commType = COMM_TYPE_GLINK → ∀ c ∈ cs, c.key ≠ str "service_id")
    (hkeys : e.attrsKey ∉ keysOf cs) : e.Unset (q.readCalls cs) := by
  induction cs generalizing q with
  | nil => exact h
  | cons c cs ih =>
    obtain ⟨hfirst, htype⟩ := List.forall_mem_cons.1 htype
    have hkey : e.attrsKey ≠ c.key ∧ e.attrsKey ∉ keysOf cs := by
      simpa [keysOf] using hkeys
    refine ih (h.readCall_of_ne hv hfirst (fun hglink ↦ ?_) hkey.1.symm) htype
      (fun hglink c' hc' ↦ ?_) hkey.2
    · exact hservice hglink c (List.mem_cons_self ..)
    · exact hservice hglink c' (List.mem_cons_of_mem _ hc')

/-- As long as the number is not among the items that have been read, it has not been taken. -/
theorem unset_state {p : QshJsonParser} (hp : p.mSensingHubCommMap = Table.empty) {s : ItemsRead}
    (hattrs : s.attrs = false) (grp attr : Bool) : e.Unset (e.state p s grp attr) := by
  rw [state, ItemsRead.complete_of_attrs hattrs, if_neg Bool.false_ne_true]
  refine ⟨if_neg (by simp [hattrs]), ?_, ?_⟩
  · show (if s.commType = true then e.commType else []) = [] ∨
      (if s.commType = true then e.commType else []) = e.commType
    split_ifs
    · exact Or.inr rfl
    · exact Or.inl rfl
  · exact (if_neg (by simp [ItemsRead.connected, hattrs])).trans hp

/-! ### The flags outside of `.client_comm` -/

theorem attributeRead_concat (cs : List Call) (c : Call) :
    attributeRead (cs ++ [c]) =
      if c.grpName = str ".client_comm" then some (decide c.IsAttribute)
      else (attributeRead cs).map (· || decide c.IsAttribute) := by
  rw [attributeRead, List.foldl_append]
  rfl

/-- Before the first item of `.client_comm` neither flag is set. -/
theorem flags_readCalls {p : QshJsonParser} (hp : p.scratch = started false false) {cs : List Call}
    (h : attributeRead cs = none) :
    (p.readCalls cs).scratch.mIsClientCommGrp = false ∧
      (p.readCalls cs).scratch.mReadCommAttr = false := by
  induction cs using List.reverseRecOn with
  | nil =>
    show p.scratch.mIsClientCommGrp = false ∧ p.scratch.mReadCommAttr = false
    rw [hp]
    exact ⟨rfl, rfl⟩
  | append_singleton cs c ih =>
    rw [attributeRead_concat] at h
    split_ifs at h with hgrp
    obtain ⟨hflag, hattr⟩ := ih (Option.map_eq_none_iff.1 h)
    rw [QshJsonParser.readCalls_append]
    have hscratch : ((p.readCalls cs).readCall c).scratch =
        (p.readCalls cs).scratch.update c.grpName c.key c.value := by
      rw [QshJsonParser.readCall, QshJsonParser.updateSensingHubInfo_eq]
      rfl
    show ((p.readCalls cs).readCall c).scratch.mIsClientCommGrp = false ∧
      ((p.readCalls cs).readCall c).scratch.mReadCommAttr = false
    rw [hscratch]
    exact Scratch.update_flags hflag hattr hgrp c.key c.value

/-! ### The first item that does not fit -/

section

variable {p : QshJsonParser} {pre post : List Call} {c : Call}

/-- A number that does not fit is not taken. -/
theorem unset_of_not_fits (hv : e.Valid) (hsaid : e.SaidBy (pre ++ c :: post))
    (horder : e.InOrder pre) (hp : p.scratch = started false false)
    (hcomms : p.mSensingHubCommMap = Table.empty) (hkey : c.key = e.attrsKey)
    (happs : e.commType = COMM_TYPE_GLINK → c.value ≠ str "apps")
    (hfits : ¬ (str "client_comm_type" ∈ keysOf pre ∧
      (e.commType = COMM_TYPE_GLINK → attributeRead pre = some true))) :
    e.Unset (p.readCalls (pre ++ [c])) := by
  obtain ⟨hnew, -⟩ := of_map_valuesOf_eq hsaid.attrs hkey
  have hunread : (e.itemsRead pre).attrs = false := decide_eq_false hnew
  obtain ⟨grp, attr, hread, hflags⟩ := readCalls_start hv hsaid horder hp
  have hunset : e.Unset (p.readCalls pre) := by
    rw [hread]
    exact unset_state hcomms hunread grp attr
  -- the type is only known if it has been read
  have htype : (p.readCalls pre).scratch.mClientCommType ≠ [] →
      str "client_comm_type" ∈ keysOf pre := by
    intro hne
    by_contra hmissing
    refine hne ?_
    rw [hread, state, ItemsRead.complete_of_attrs hunread, if_neg Bool.false_ne_true]
    exact if_neg (by simp [itemsRead, hmissing])
  have hgrp : (p.readCalls pre).scratch.mIsClientCommGrp = grp ∧
      (p.readCalls pre).scratch.mReadCommAttr = attr := by
    rw [hread, state, ItemsRead.complete_of_attrs hunread, if_neg Bool.false_ne_true]
    exact ⟨rfl, rfl⟩
  rw [QshJsonParser.readCalls_append]
  refine hunset.update (fun hkey' ↦ ?_) (.trans (Scratch.read_mClientCommValue ?_ ?_) hunset.value)
  · exact absurd (hkey'.symm.trans hkey) (attrsKey_ne hv).2.2.1
  · intro hservice hqmi
    refine hfits ⟨htype (by rw [hqmi]; decide), fun hglink ↦ ?_⟩
    exact absurd hservice (hsaid.channels hglink c (by simp)).1
  · intro hchannels hattr hvalue hglink
    have hknown := htype (by rw [hglink]; decide)
    rcases attrsKey_eq hv with ⟨-, hservice⟩ | ⟨hcomm, -⟩
    · exact absurd ((hchannels.symm.trans hkey).trans hservice) (by decide)
    · refine hfits ⟨hknown, fun _ ↦ ?_⟩
      rcases hattribute : attributeRead pre with _ | read
      · rw [(flags_readCalls hp hattribute).2] at hattr
        cases hattr
      · obtain ⟨hflag, -⟩ := hflags hcomm hunread read hattribute
        cases read with
        | true => rfl
        | false => exact absurd (hvalue (hgrp.1.trans hflag)) (happs hcomm)

/-- A link that does not fit is entered for the hub `-1`. -/
theorem hubName_of_not_fits (hv : e.Valid) (hsaid : e.SaidBy (pre ++ c :: post))
    (horder : e.InOrder pre) (hp : p.scratch = started false false)
    (hkey : c.key = str "link_name") (hvalue : c.value ≠ str "apps")
    (hfits : ¬ (str "sensing_hub_id" ∈ keysOf pre ∧
      ¬ (str "platform_id" ∈ keysOf pre ∧ e.attrsKey ∈ keysOf pre))) :
    (p.readCalls (pre ++ [c])).mSensingHubIdNameMap (-1) = some c.value := by
  obtain ⟨grp, attr, hread, -⟩ := readCalls_start hv hsaid horder hp
  have hid : (p.readCalls pre).scratch.mSensingHubId = -1 := by
    rw [hread, state]
    split_ifs with hcomplete
    · rfl
    · refine if_neg fun hid ↦ hfits ⟨of_decide_eq_true hid, fun hall ↦ hcomplete ?_⟩
      have hplatform : (e.itemsRead pre).platform = true := decide_eq_true hall.1
      have hattrs : (e.itemsRead pre).attrs = true := decide_eq_true hall.2
      have hhub : (e.itemsRead pre).hubId = true := hid
      rw [ItemsRead.complete, ItemsRead.named, ItemsRead.connected, hhub, hplatform, hattrs]
      rfl
  have hnames : (p.readCalls pre).NamesHub c.grpName c.key c.value :=
    ⟨Or.inl (hsaid.clientComm c (by simp) (Or.inr hkey)), hkey, hvalue⟩
  rw [QshJsonParser.readCalls_append]
  show ((p.readCalls pre).updateSensingHubInfo c.grpName c.key c.value).mSensingHubIdNameMap (-1) =
    _
  rw [QshJsonParser.updateSensingHubInfo_eq]
  simp only [if_pos hnames, hid, Table.assign_self]

/-- Items without a link leave the names of the hubs as they are. -/
theorem hubNames_readCalls_of_no_link {q : QshJsonParser} {cs : List Call}
    (h : ∀ c ∈ cs, c.key = str "link_name" → c.value = str "apps") :
    (q.readCalls cs).mSensingHubIdNameMap = q.mSensingHubIdNameMap := by
  induction cs generalizing q with
  | nil => rfl
  | cons c cs ih =>
    obtain ⟨hlink, hcs⟩ := List.forall_mem_cons.1 h
    have hnames : ¬ q.NamesHub c.grpName c.key c.value := fun hn ↦ hn.2.2 (hlink hn.2.1)
    refine (ih hcs).trans ?_
    rw [QshJsonParser.readCall, QshJsonParser.updateSensingHubInfo_eq]
    exact if_neg hnames

end

theorem inOrder_of_fits {cs : List Call}
    (h : ∀ pre c post, cs = pre ++ c :: post → e.InOrder pre → e.Fits pre c) : e.InOrder cs := by
  intro pre
  induction hlen : pre.length using Nat.strong_induction_on generalizing pre with
  | _ n ih =>
    intro c post hcs
    refine h pre c post hcs fun before d after hpre ↦ ?_
    have hlt : before.length < n := by
      rw [← hlen, hpre, List.length_append, List.length_cons]
      omega
    refine ih before.length hlt before rfl d (after ++ c :: post) ?_
    rw [hcs, hpre, List.append_assoc, List.cons_append]

/-- **The order is needed**: from the start and empty tables, the items of a hub leave an entry in
the communication table and no name for the hub `-1` only if they are in order. -/
theorem inOrder_of_readCalls {p : QshJsonParser} {cs : List Call} (hv : e.Valid)
    (hsaid : e.SaidBy cs) (hlink : e.link ≠ some [])
    (happs : e.commType = COMM_TYPE_GLINK → ∀ c ∈ cs, c.key = e.attrsKey → c.value ≠ str "apps")
    (hp : p.scratch = started false false) (hcomms : p.mSensingHubCommMap = Table.empty)
    (hentry : (p.readCalls cs).mSensingHubCommMap ≠ Table.empty)
    (hname : (p.readCalls cs).getHubName (-1) = []) : e.InOrder cs := by
  refine inOrder_of_fits ?_
  rintro pre c post rfl horder
  have hsplit : p.readCalls (pre ++ c :: post) = (p.readCalls (pre ++ [c])).readCalls post := by
    rw [List.append_cons, QshJsonParser.readCalls_append]
  have hmem : ∀ c' ∈ post, c' ∈ pre ++ c :: post := fun c' hc' ↦
    List.mem_append_right _ (List.mem_cons_of_mem _ hc')
  constructor
  · -- attributes that come too early are never entered
    intro hkey
    by_contra hfits
    have hunset := unset_of_not_fits hv hsaid horder hp hcomms hkey
      (fun hglink ↦ happs hglink c (by simp) hkey) hfits
    refine hentry ?_
    rw [hsplit]
    refine (hunset.readCalls hv ?_ ?_ ?_).comms
    · intro c' hc' hkey'
      have hvalue : c'.value ∈ valuesOf (str "client_comm_type") (pre ++ c :: post) :=
        List.mem_map_of_mem (List.mem_filter.2 ⟨hmem c' hc', decide_eq_true hkey'⟩)
      rw [hsaid.commType] at hvalue
      exact List.mem_singleton.1 hvalue
    · exact fun hglink c' hc' ↦ (hsaid.channels hglink c' (hmem c' hc')).1
    · intro hagain
      obtain ⟨c', hc', hkey'⟩ := List.mem_map.1 hagain
      obtain ⟨between, after, rfl⟩ := List.append_of_mem hc'
      rw [← List.cons_append, ← List.append_assoc] at hsaid
      refine (of_map_valuesOf_eq hsaid.attrs hkey').1 (List.mem_map.2 ⟨c, ?_, hkey⟩)
      simp
  · -- a link name that comes too early is entered for the hub -1
    intro hkey hvalue
    by_contra hfits
    have hgone := hubName_of_not_fits hv hsaid horder hp hkey hvalue hfits
    have htold := (hsaid.link_of_append hkey hvalue).2
    have hrest : ∀ c' ∈ post, c'.key = str "link_name" → c'.value = str "apps" := by
      intro c' hc' hkey'
      by_contra hvalue'
      obtain ⟨between, after, rfl⟩ := List.append_of_mem hc'
      rw [← List.cons_append, ← List.append_assoc] at hsaid
      refine List.any_eq_false.1 (hsaid.link_of_append hkey' hvalue').1 c.value ?_
        (decide_eq_true hvalue)
      exact List.mem_map_of_mem (List.mem_filter.2 ⟨by simp, decide_eq_true hkey⟩)
    rw [hsplit, QshJsonParser.getHubName, hubNames_readCalls_of_no_link hrest, hgone] at hname
    exact hlink (htold.trans (congrArg some hname))

end HubEntry

end SensingHub.Json
