import SensingHub.Json.History

/-!
# Items without data

`parseGroup` hands its array `localValue` to `updateSensingHubInfo` after every item, also when
`parseItem` has found no `data` to write into it. What such an item does depends on what the array
happened to hold, unless the item is one that does not look at its value; and whether it does is a
matter of its key and of the scratch members it is read with (`inert_iff`). A load whose items
without data are all of this kind gives the same for all contents of the array.
-/

namespace SensingHub.Json

open CLib (str atoi)

/-- What loads of a file give does not depend on what the uninitialised array holds. -/
structure Independent (p : QshJsonParser) (fuel : ℕ) (c : Bytes) : Prop where
  ret : ∀ stale stale' : ℕ → Bytes,
    (p.loadFile fuel stale' (.content c)).ret = (p.loadFile fuel stale (.content c)).ret
  hubIds : ∀ stale stale' : ℕ → Bytes, (p.loadFile fuel stale' (.content c)).parser.mHubIds =
    (p.loadFile fuel stale (.content c)).parser.mHubIds
  names : ∀ stale stale' : ℕ → Bytes,
    (p.loadFile fuel stale' (.content c)).parser.mSensingHubNameIdMap =
      (p.loadFile fuel stale (.content c)).parser.mSensingHubNameIdMap
  comms : ∀ stale stale' : ℕ → Bytes,
    (p.loadFile fuel stale' (.content c)).parser.mSensingHubCommMap =
      (p.loadFile fuel stale (.content c)).parser.mSensingHubCommMap
  hubNames : ∀ stale stale' : ℕ → Bytes,
    (p.loadFile fuel stale' (.content c)).parser.mSensingHubIdNameMap =
      (p.loadFile fuel stale (.content c)).parser.mSensingHubIdNameMap

namespace Scratch

/-! ### Items that do not look at their value -/

/-- The scratch members as an item of a group finds them. -/
def enter (s : Scratch) (grpName : Bytes) : Scratch :=
  if grpName = str ".client_comm" then { s with mIsClientCommGrp := true } else s

theorem read_eq (s : Scratch) (grpName key value : Bytes) :
    s.read grpName key value = (s.enter grpName).readKey key value := rfl

/-- The case of `updateSensingHubInfo` for a key does not look at the value. -/
def Ignores (s : Scratch) (key : Bytes) : Prop :=
  key ≠ str "platform_id" ∧ key ≠ str "sensing_hub_id" ∧ key ≠ str "client_comm_type" ∧
    if s.mIsClientCommGrp then key = str "service_id" ∧ s.mClientCommType ≠ COMM_TYPE_QMI
    else ¬ (key = str "no_of_channels" ∧ s.mReadCommAttr = true ∧
      s.mClientCommType = COMM_TYPE_GLINK)

instance (s : Scratch) (key : Bytes) : Decidable (s.Ignores key) :=
  inferInstanceAs (Decidable (_ ∧ _ ∧ _ ∧ _))

/-- An item has data, or its value is not looked at. -/
def Inert (s : Scratch) (c : Call) : Prop :=
  c.data = none → (s.enter c.grpName).Ignores c.key

instance (s : Scratch) (c : Call) : Decidable (s.Inert c) :=
  inferInstanceAs (Decidable (_ → _))

/-- Two items do the same to the scratch members and make the same entries. -/
structure SameEffect (s : Scratch) (c c' : Call) : Prop where
  update : s.update c'.grpName c'.key (c'.data.getD []) = s.update c.grpName c.key (c.data.getD [])
  nameEntry : s.nameEntry c' = s.nameEntry c
  commEntry : s.commEntry c' = s.commEntry c
  hubNameEntry : s.hubNameEntry c' = s.hubNameEntry c
  hubIdEntry : s.hubIdEntry c' = s.hubIdEntry c

theorem SameEffect.refl (s : Scratch) (c : Call) : s.SameEffect c c :=
  ⟨rfl, rfl, rfl, rfl, rfl⟩

theorem readKey_of_ignores {s : Scratch} {key : Bytes} (h : s.Ignores key) (v w : Bytes) :
    s.readKey key w = s.readKey key v := by
  obtain ⟨hplatform, hhub, htype, hcase⟩ := h
  split_ifs at hcase with hgroup
  · have hread (x : Bytes) : s.readKey key x = { s with mIsClientCommGrp := false } := by
      rw [readKey, if_neg hplatform, if_neg hhub, if_neg htype, if_pos ⟨hgroup, hcase.1⟩,
        if_neg hcase.2.symm]
    rw [hread, hread]
  · have hread (x : Bytes) : s.readKey key x = s := by
      rw [readKey, if_neg hplatform, if_neg hhub, if_neg htype, if_neg fun h ↦ hgroup h.1,
        if_neg fun h ↦ hgroup h.1, if_neg fun h ↦ hgroup h.1]
      split_ifs with hchannels hglink
      · exact absurd ⟨hchannels.1, hchannels.2, hglink.symm⟩ hcase
      · rfl
      · rfl
    rw [hread, hread]

/-- An item whose value is not looked at does the same with every value. -/
theorem Inert.sameEffect {s : Scratch} {c : Call} (h : s.Inert c) (v w : Bytes) :
    s.SameEffect (c.fill v) (c.fill w) := by
  rcases hdata : c.data with _ | data
  · -- an item without a string: the value read is what the stack holds
    have hignores := h hdata
    have hread : s.readCall (c.fill w) = s.readCall (c.fill v) := by
      simp only [readCall, read_eq, Call.fill, hdata]
      exact readKey_of_ignores hignores v w
    have hupdate : s.update c.grpName c.key w = s.update c.grpName c.key v := by
      rw [update, update, read_eq, read_eq, readKey_of_ignores hignores v w]
    refine ⟨?_, ?_, ?_, ?_, ?_⟩
    · simp only [Call.fill, hdata]
      exact hupdate
    · rw [nameEntry, nameEntry, hread]
    · rw [commEntry, commEntry, hread]
    · have hlink : ¬ ((c.grpName = str ".client_comm" ∨ s.mIsClientCommGrp = true) ∧
          c.key = str "link_name") := by
        rintro ⟨hgroup, hkey⟩
        have hentered : (s.enter c.grpName).mIsClientCommGrp = true := by
          unfold enter
          split_ifs with hcomm
          · rfl
          · exact hgroup.resolve_left hcomm
        have hservice := hignores.2.2.2
        rw [if_pos hentered, hkey] at hservice
        exact absurd hservice.1 (by decide)
      unfold hubNameEntry
      rw [if_neg fun hcond ↦ hlink ⟨hcond.1, hcond.2.1⟩,
        if_neg fun hcond ↦ hlink ⟨hcond.1, hcond.2.1⟩]
    · unfold hubIdEntry
      rw [if_neg (by exact hignores.2.1), if_neg (by exact hignores.2.1)]
  · -- a string is read as it is
    have hfill : c.fill w = c.fill v := by
      unfold Call.fill
      rw [hdata]
      rfl
    rw [hfill]
    exact SameEffect.refl s _

/-! ### Items that look at their value -/

/-- The entries that the scratch members hold have been noted, and they have not both been. -/
structure Settled (s : Scratch) : Prop where
  name : s.HasName → s.mSensingHubNameIdMapFilled = true
  comm : s.HasComm → s.mCommMapFilled = true
  notBoth : ¬ (s.mSensingHubNameIdMapFilled = true ∧ s.mCommMapFilled = true)

theorem settled_initial : initial.Settled :=
  ⟨by decide, by decide, by decide⟩

/-- Every item settles the scratch members. -/
theorem settled_update (s : Scratch) (grpName key value : Bytes) :
    (s.update grpName key value).Settled := by
  unfold update startOver
  split_ifs with hfilled
  · exact ⟨fun h ↦ absurd rfl h.1, fun h ↦ absurd rfl h.1, fun h ↦ by cases h.1⟩
  · refine ⟨fun h ↦ ?_, fun h ↦ ?_, hfilled⟩
    · have hname : (s.read grpName key value).HasName := h
      simp [noteFilled, hname]
    · have hcomm : (s.read grpName key value).HasComm := h
      simp [noteFilled, hcomm]

theorem filled_readKey (s : Scratch) (key value : Bytes) :
    (s.readKey key value).mSensingHubNameIdMapFilled = s.mSensingHubNameIdMapFilled ∧
      (s.readKey key value).mCommMapFilled = s.mCommMapFilled := by
  unfold readKey
  split_ifs <;> exact ⟨rfl, rfl⟩

theorem filled_read (s : Scratch) (grpName key value : Bytes) :
    (s.read grpName key value).mSensingHubNameIdMapFilled = s.mSensingHubNameIdMapFilled ∧
      (s.read grpName key value).mCommMapFilled = s.mCommMapFilled := by
  have hentered : (s.enter grpName).mSensingHubNameIdMapFilled = s.mSensingHubNameIdMapFilled ∧
      (s.enter grpName).mCommMapFilled = s.mCommMapFilled := by
    unfold enter
    split_ifs <;> exact ⟨rfl, rfl⟩
  rw [read_eq, ← hentered.1, ← hentered.2]
  exact filled_readKey (s.enter grpName) key value

/-- An item that makes no new entry leaves the scratch members as it has read them. -/
theorem update_eq_read {s : Scratch} (hs : s.Settled) {grpName key value : Bytes}
    (hname : (s.read grpName key value).HasName → s.mSensingHubNameIdMapFilled = true)
    (hcomm : ¬ (s.read grpName key value).HasComm) :
    s.update grpName key value = s.read grpName key value := by
  obtain ⟨hnameFilled, hcommFilled⟩ := filled_read s grpName key value
  have hnote : (s.read grpName key value).noteFilled = s.read grpName key value := by
    unfold noteFilled
    rw [decide_eq_false hcomm, Bool.or_false]
    by_cases h : (s.read grpName key value).HasName
    · have hfilled := hnameFilled.trans (hname h)
      rw [hfilled, Bool.true_or, ← hfilled]
    · rw [decide_eq_false h, Bool.or_false]
  rw [update, hnote, startOver, if_neg]
  rw [hnameFilled, hcommFilled]
  exact hs.notBoth

variable {s : Scratch} {c : Call}

theorem getD_fill (hdata : c.data = none) (v : Bytes) : (c.fill v).data.getD [] = v := by
  rw [Call.fill, hdata]
  rfl

theorem readCall_fill (hdata : c.data = none) (v : Bytes) :
    s.readCall (c.fill v) = s.read c.grpName c.key v := by
  rw [readCall, getD_fill hdata]
  rfl

/-- Items with the same effect that make no new entries are read alike. -/
theorem SameEffect.read_eq {v w : Bytes} (h : s.SameEffect (c.fill v) (c.fill w)) (hs : s.Settled)
    (hdata : c.data = none)
    (hname : ∀ x, (s.read c.grpName c.key x).HasName → s.mSensingHubNameIdMapFilled = true)
    (hv : ¬ (s.read c.grpName c.key v).HasComm) (hw : ¬ (s.read c.grpName c.key w).HasComm) :
    s.read c.grpName c.key w = s.read c.grpName c.key v := by
  have hupdate := h.update
  rw [getD_fill hdata, getD_fill hdata] at hupdate
  calc s.read c.grpName c.key w
      = s.update c.grpName c.key w := (update_eq_read hs (hname w) hw).symm
    _ = s.update c.grpName c.key v := hupdate
    _ = s.read c.grpName c.key v := update_eq_read hs (hname v) hv

theorem not_sameEffect_platform (hs : s.Settled) (hdata : c.data = none)
    (hkey : c.key = str "platform_id") : ¬ s.SameEffect (c.fill []) (c.fill [120]) := by
  intro h
  have hplatform (v : Bytes) : (s.read c.grpName c.key v).mPlatformId = v := by
    rw [mPlatformId_read, if_pos hkey]
  have hhub (v w : Bytes) : (s.read c.grpName c.key v).mSensingHubId =
      (s.read c.grpName c.key w).mSensingHubId := by
    rw [mSensingHubId_read, mSensingHubId_read, hkey, if_neg (by decide), if_neg (by decide)]
  have hempty : ¬ (s.read c.grpName c.key []).HasName := fun hname ↦ hname.2 (hplatform [])
  have hentry := h.nameEntry
  rw [nameEntry, nameEntry, readCall_fill hdata, readCall_fill hdata, if_neg hempty] at hentry
  -- without an entry there is no hub id
  have hnone : (s.read c.grpName c.key [120]).mSensingHubId = -1 := by
    by_contra hne
    rw [if_pos ⟨hne, by rw [hplatform]; decide⟩] at hentry
    cases hentry
  have hread := h.read_eq hs hdata (fun x hname ↦ absurd ((hhub x [120]).trans hnone) hname.1)
    (fun hcomm ↦ hcomm.1 ((hhub [] [120]).trans hnone)) (fun hcomm ↦ hcomm.1 hnone)
  have hfield := congrArg mPlatformId hread
  rw [hplatform, hplatform] at hfield
  cases hfield

theorem not_sameEffect_hub (hdata : c.data = none) (hkey : c.key = str "sensing_hub_id") :
    ¬ s.SameEffect (c.fill (str "1")) (c.fill (str "2")) := by
  intro h
  have hentry := h.hubIdEntry
  rw [hubIdEntry, hubIdEntry, getD_fill hdata, getD_fill hdata, if_pos (by exact hkey),
    if_pos (by exact hkey)] at hentry
  exact absurd hentry (by decide)

theorem not_sameEffect_type (hs : s.Settled) (hdata : c.data = none)
    (hkey : c.key = str "client_comm_type") : ¬ s.SameEffect (c.fill []) (c.fill [120]) := by
  intro h
  have htype (v : Bytes) : (s.read c.grpName c.key v).mClientCommType = v := by
    rw [read_eq, hkey]
    rfl
  have hname (v : Bytes) : (s.read c.grpName c.key v).HasName ↔ s.HasName := by
    rw [HasName, mSensingHubId_read, mPlatformId_read, hkey, if_neg (by decide),
      if_neg (by decide)]
    rfl
  have hempty : ¬ (s.read c.grpName c.key []).HasComm := fun hcomm ↦ hcomm.2.1 (htype [])
  have hentry := h.commEntry
  rw [commEntry, commEntry, readCall_fill hdata, readCall_fill hdata, if_neg hempty] at hentry
  have hnone : ¬ (s.read c.grpName c.key [120]).HasComm := by
    intro hcomm
    rw [if_pos hcomm] at hentry
    cases hentry
  have hread := h.read_eq hs hdata (fun x hx ↦ hs.name ((hname x).1 hx)) hempty hnone
  have hfield := congrArg mClientCommType hread
  rw [htype, htype] at hfield
  cases hfield

theorem readKey_service (hgroup : s.mIsClientCommGrp = true)
    (hqmi : s.mClientCommType = COMM_TYPE_QMI) (v : Bytes) :
    s.readKey (str "service_id") v =
      { s with mClientCommValue := atoi v, mIsClientCommGrp := false } := by
  rw [readKey, if_neg (by decide), if_neg (by decide), if_neg (by decide), if_pos ⟨hgroup, rfl⟩,
    if_pos hqmi.symm]

theorem readKey_channels (hgroup : ¬ s.mIsClientCommGrp = true) (hattr : s.mReadCommAttr = true)
    (hglink : s.mClientCommType = COMM_TYPE_GLINK) (v : Bytes) :
    s.readKey (str "no_of_channels") v = { s with mClientCommValue := atoi v } := by
  rw [readKey, if_neg (by decide), if_neg (by decide), if_neg (by decide),
    if_neg fun h ↦ hgroup h.1, if_neg fun h ↦ hgroup h.1, if_neg fun h ↦ hgroup h.1,
    if_pos ⟨rfl, hattr⟩, if_pos hglink.symm]

/-- An item that sets the communication value. -/
theorem not_sameEffect_value (hs : s.Settled) (hdata : c.data = none)
    (hkey : c.key ≠ str "sensing_hub_id")
    (hvalue : ∀ v, (s.read c.grpName c.key v).mClientCommValue = atoi v)
    (htype : ∀ v, (s.read c.grpName c.key v).mClientCommType ≠ []) :
    ¬ s.SameEffect (c.fill (str "1")) (c.fill (str "2")) := by
  intro h
  have hhub (v : Bytes) : (s.read c.grpName c.key v).mSensingHubId = s.mSensingHubId := by
    rw [mSensingHubId_read, if_neg hkey]
  by_cases hnone : s.mSensingHubId = -1
  · have hread := h.read_eq hs hdata (fun x hname ↦ absurd ((hhub x).trans hnone) hname.1)
      (fun hcomm ↦ hcomm.1 ((hhub _).trans hnone)) (fun hcomm ↦ hcomm.1 ((hhub _).trans hnone))
    have hfield := congrArg mClientCommValue hread
    rw [hvalue, hvalue] at hfield
    exact absurd hfield (by decide)
  · have hcomm {v : Bytes} (hv : atoi v ≠ -1) : (s.read c.grpName c.key v).HasComm :=
      ⟨by rwa [hhub], htype v, by rwa [hvalue]⟩
    have hentry := h.commEntry
    rw [commEntry, commEntry, readCall_fill hdata, readCall_fill hdata,
      if_pos (hcomm (by decide)), if_pos (hcomm (by decide))] at hentry
    have hfield := congrArg (fun entry ↦ entry.map fun e ↦ e.2.2) hentry
    simp only [Option.map_some, hvalue] at hfield
    exact absurd hfield (by decide)

theorem not_sameEffect_link (hdata : c.data = none)
    (hgroup : c.grpName = str ".client_comm" ∨ s.mIsClientCommGrp = true)
    (hkey : c.key = str "link_name") : ¬ s.SameEffect (c.fill (str "apps")) (c.fill []) := by
  intro h
  have hentry := h.hubNameEntry
  rw [hubNameEntry, hubNameEntry, getD_fill hdata, getD_fill hdata,
    if_pos (by exact ⟨hgroup, hkey, by decide⟩), if_neg (fun hcond ↦ hcond.2.2 rfl)] at hentry
  cases hentry

theorem mIsClientCommGrp_update (s : Scratch) (grpName key value : Bytes) :
    (s.update grpName key value).mIsClientCommGrp =
      (s.read grpName key value).mIsClientCommGrp := by
  unfold update startOver
  split_ifs <;> rfl

/-- An item of a `.client_comm` group with a key of its own. -/
theorem not_sameEffect_attribute (hdata : c.data = none)
    (hgroup : (s.enter c.grpName).mIsClientCommGrp = true) (hplatform : c.key ≠ str "platform_id")
    (hhub : c.key ≠ str "sensing_hub_id") (htype : c.key ≠ str "client_comm_type")
    (hservice : c.key ≠ str "service_id") (hlink : c.key ≠ str "link_name") :
    ¬ s.SameEffect (c.fill (str "apps")) (c.fill []) := by
  intro h
  have hfield := congrArg mIsClientCommGrp h.update
  rw [getD_fill hdata, getD_fill hdata, mIsClientCommGrp_update, mIsClientCommGrp_update] at hfield
  have hother : (s.read c.grpName c.key []).mIsClientCommGrp = false := by
    rw [read_eq, readKey, if_neg hplatform, if_neg hhub, if_neg htype, if_neg fun h ↦ hservice h.2,
      if_neg fun h ↦ hlink h.2.1, if_pos ⟨hgroup, by decide, hlink⟩]
  have happs : (s.read c.grpName c.key (str "apps")).mIsClientCommGrp = true := by
    rw [read_eq, readKey, if_neg hplatform, if_neg hhub, if_neg htype, if_neg fun h ↦ hservice h.2,
      if_neg fun h ↦ hlink h.2.1, if_neg fun h ↦ h.2.1 rfl]
    split_ifs
    · exact hgroup
    · exact hgroup
    · exact hgroup
  have hfalse : (s.read c.grpName c.key []).mIsClientCommGrp =
      (s.read c.grpName c.key (str "apps")).mIsClientCommGrp := hfield
  rw [hother, happs] at hfalse
  cases hfalse

/-- **An item without data does the same for all values exactly if its case ignores the value.** -/
theorem inert_iff (hs : s.Settled) (hdata : c.data = none) :
    s.Inert c ↔ ∀ v w, s.SameEffect (c.fill v) (c.fill w) := by
  refine ⟨fun h v w ↦ h.sameEffect v w, fun h _ ↦ ?_⟩
  have hplatform : c.key ≠ str "platform_id" :=
    fun hkey ↦ not_sameEffect_platform hs hdata hkey (h _ _)
  have hhub : c.key ≠ str "sensing_hub_id" := fun hkey ↦ not_sameEffect_hub hdata hkey (h _ _)
  have htype : c.key ≠ str "client_comm_type" :=
    fun hkey ↦ not_sameEffect_type hs hdata hkey (h _ _)
  refine ⟨hplatform, hhub, htype, ?_⟩
  split_ifs with hgroup
  · have hgroup' : c.grpName = str ".client_comm" ∨ s.mIsClientCommGrp = true := by
      unfold enter at hgroup
      split_ifs at hgroup with hcomm
      · exact Or.inl hcomm
      · exact Or.inr hgroup
    have hlink : c.key ≠ str "link_name" :=
      fun hkey ↦ not_sameEffect_link hdata hgroup' hkey (h _ _)
    have hservice : c.key = str "service_id" := by
      by_contra hservice
      exact not_sameEffect_attribute hdata hgroup hplatform hhub htype hservice hlink (h _ _)
    refine ⟨hservice, fun hqmi ↦ not_sameEffect_value hs hdata hhub (fun v ↦ ?_) (fun v ↦ ?_)
      (h _ _)⟩
    · rw [read_eq, hservice, readKey_service hgroup hqmi]
    · rw [read_eq, hservice, readKey_service hgroup hqmi]
      exact ne_of_eq_of_ne hqmi (by decide)
  · rintro ⟨hkey, hattr, hglink⟩
    refine not_sameEffect_value hs hdata hhub (fun v ↦ ?_) (fun v ↦ ?_) (h _ _)
    · rw [read_eq, hkey, readKey_channels hgroup hattr hglink]
    · rw [read_eq, hkey, readKey_channels hgroup hattr hglink]
      exact ne_of_eq_of_ne hglink (by decide)

/-! ### Items in a row -/

/-- The items without data among some items are inert where they are reached. -/
def InertAlong : Scratch → List Call → Prop
  | _, [] => True
  | s, c :: cs => s.Inert c ∧ (s.update c.grpName c.key (c.data.getD [])).InertAlong cs

/-- Whether items are inert can be found out by reading them. -/
def decidableInertAlong : (s : Scratch) → (cs : List Call) → Decidable (s.InertAlong cs)
  | _, [] => inferInstanceAs (Decidable True)
  | s, c :: cs =>
    have := decidableInertAlong (s.update c.grpName c.key (c.data.getD [])) cs
    inferInstanceAs (Decidable (_ ∧ _))

instance (s : Scratch) (cs : List Call) : Decidable (s.InertAlong cs) :=
  decidableInertAlong s cs

/-- What inert items make does not depend on the values they find. -/
theorem InertAlong.along_eq {α : Type} {entry : Scratch → Call → Option α}
    (hentry : ∀ s c c', SameEffect s c c' → entry s c' = entry s c) {s : Scratch} {cs : List Call}
    (h : s.InertAlong cs) (stale stale' : ℕ → Bytes) (n : ℕ) :
    s.along entry (fillCalls stale' n cs) = s.along entry (fillCalls stale n cs) := by
  induction cs generalizing s n with
  | nil => rfl
  | cons c cs ih =>
    obtain ⟨hinert, hrest⟩ := h
    -- the value only fills in for missing data
    have hupdate (v : Bytes) : s.update c.grpName c.key ((c.fill v).data.getD []) =
        s.update c.grpName c.key (c.data.getD []) :=
      (hinert.sameEffect [] v).update
    have hstep := hentry s _ _ (hinert.sameEffect (stale n) (stale' n))
    rw [fillCalls, fillCalls, along, along, hstep]
    simp only [show (c.fill (stale n)).grpName = c.grpName from rfl,
      show (c.fill (stale' n)).grpName = c.grpName from rfl,
      show (c.fill (stale n)).key = c.key from rfl,
      show (c.fill (stale' n)).key = c.key from rfl, hupdate, ih hrest]

end Scratch

/-- Inert items make the same entries whatever the array holds. -/
theorem entriesOf_fillCalls {cs : List Call} (h : Scratch.initial.InertAlong cs)
    (stale stale' : ℕ → Bytes) :
    entriesOf (fillCalls stale' 0 cs) = entriesOf (fillCalls stale 0 cs) := by
  unfold entriesOf
  rw [h.along_eq (fun s c c' he ↦ he.nameEntry) stale stale',
    h.along_eq (fun s c c' he ↦ he.commEntry) stale stale',
    h.along_eq (fun s c c' he ↦ he.hubNameEntry) stale stale',
    h.along_eq (fun s c c' he ↦ he.hubIdEntry) stale stale']

/-- The hub ids that items list show the value that an item without data finds. -/
theorem data_of_hubIds_eq {s t : Scratch} {cs : List Call} {n : ℕ}
    (h : s.along Scratch.hubIdEntry (fillCalls (fun _ ↦ str "1") n cs) =
      t.along Scratch.hubIdEntry (fillCalls (fun _ ↦ str "2") n cs)) :
    ∀ c ∈ cs, c.key = str "sensing_hub_id" → c.data ≠ none := by
  induction cs generalizing s t n with
  | nil => exact fun _ h ↦ by cases h
  | cons c cs ih =>
    have hentry (u : Scratch) (v : Bytes) : u.hubIdEntry (c.fill v) =
        if c.key = str "sensing_hub_id" then some (atoi (c.data.getD v)) else none := rfl
    rw [fillCalls, fillCalls, Scratch.along, Scratch.along, hentry, hentry] at h
    rw [List.forall_mem_cons]
    split_ifs at h with hkey
    · obtain ⟨hhead, htail⟩ := List.cons.inj h
      refine ⟨fun _ hdata ↦ ?_, ih htail⟩
      rw [hdata] at hhead
      exact absurd hhead (by decide)
    · exact ⟨fun h ↦ absurd h hkey, ih h⟩

/-! ### Loads -/

/-- **What a load gives does not depend on uninitialised memory if the items without data that it
reads are inert**, and it does depend on it if one of them is a `sensing_hub_id`. -/
theorem independent_of_inertAlong (p : QshJsonParser) {c : Bytes} {fuel : ℕ}
    (hfits : FitsCursors fuel c) {o : Outline}
    (ho : Format.outline p.mDeviceSocId fuel (lex c) = some o) :
    (Scratch.initial.InertAlong o.calls → Independent p fuel c) ∧
      (Independent p fuel c → ∀ call ∈ o.calls, call.key = str "sensing_hub_id" →
        call.data ≠ none) := by
  have hret (stale : ℕ → Bytes) := (loadFile_outline hfits ho stale).1
  have hentries (stale : ℕ → Bytes) := (loadFile_entries hfits ho stale).1
  constructor
  · intro hinert
    have hsame (stale stale' : ℕ → Bytes) :
        (entriesOf (fillCalls stale 0 o.calls)).AddedTo p
          (p.loadFile fuel stale' (.content c)).parser := by
      rw [← entriesOf_fillCalls hinert stale stale']
      exact hentries stale'
    refine ⟨fun stale stale' ↦ ?_, fun stale stale' ↦ ?_, fun stale stale' ↦ ?_,
      fun stale stale' ↦ ?_, fun stale stale' ↦ ?_⟩
    · rw [hret, hret]
    · rw [(hsame stale stale').hubIds, (hentries stale).hubIds]
    · rw [(hsame stale stale').names, (hentries stale).names]
    · rw [(hsame stale stale').comms, (hentries stale).comms]
    · rw [(hsame stale stale').hubNames, (hentries stale).hubNames]
  · intro hindependent
    have hlist := hindependent.hubIds (fun _ ↦ str "2") (fun _ ↦ str "1")
    rw [(hentries _).hubIds, (hentries _).hubIds] at hlist
    exact data_of_hubIds_eq hlist

/-- A hub, the first item of whose group has no data. -/
def ownedHubFile : Bytes :=
  render (.byte 123 :: ((Member.group slpi.name
    (.item (str "owner_id") [(str "note", str "1")] :: slpi.group.members)).tokens ++ [.byte 125]))

theorem independent_ownedHubFile : Independent (QshJsonParser.fresh 0) 400 ownedHubFile := by
  have hlen : ownedHubFile.length ≤ 400 := by decide +kernel
  have hinert : ∀ o ∈ Format.outline 0 400 (lex ownedHubFile),
      Scratch.initial.InertAlong o.calls := by
    decide +kernel
  obtain ⟨o, ho⟩ : ∃ o, Format.outline 0 400 (lex ownedHubFile) = some o :=
    Format.outline_isSome ((length_lex_le _).trans hlen)
  exact (independent_of_inertAlong (QshJsonParser.fresh 0)
    (fitsCursors_of_lt (hlen.trans_lt (by decide))) ho).1 (hinert o ho)

/-- A file with one item, which has no data. -/
def datalessFile (key : Bytes) : Bytes :=
  render (.byte 123 :: ((Member.group (str "g") [.item key [(str "note", str "1")]]).tokens ++
    [.byte 125]))

/-- A hub id without data is read from the uninitialised array. -/
theorem not_independent_datalessFile :
    ¬ Independent (QshJsonParser.fresh 0) 100 (datalessFile (str "sensing_hub_id")) := by
  intro h
  exact absurd (h.hubIds (fun _ ↦ str "1") (fun _ ↦ str "2")) (by decide +kernel)

end SensingHub.Json
