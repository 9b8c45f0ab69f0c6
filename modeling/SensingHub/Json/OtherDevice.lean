import SensingHub.Json.History

/-!
# A file for another device

Whether a file is for this device is decided in the middle of it, behind its config section. By then
the groups in front of it are in the tables, and the result 0 of a file that is skipped makes
`loadFile` set `mIsFileParsed`. Nothing of such a file shows exactly if a file has been loaded
before and the groups that are read tell nothing new.
-/

namespace SensingHub.Json

open CLib (str getlines)

/-! ### Files for other devices -/

/-- A complete file with one config section, which names devices but not this one; `before` are the
groups in front of it. -/
structure ForOthers (device : ℤ) (before : List (List Call)) (c : Bytes) : Prop where
  document : ∃ gap ls ids after, lex c = ⟨gap, .byte 123⟩ :: ls ∧ ids ≠ [] ∧ device ∉ ids ∧
    Members (before.map Section.group ++ .config ids :: after) (ls.map Lexeme.token) [.byte 125]

namespace Format

variable {device : ℤ} {fuel : ℕ} {ls : List Lexeme} {ids : List ℤ}

/-- The first of some members is read. -/
theorem reads_of_members {m : Section} {ms : List Section} {ts rest : List Token}
    (h : Members (m :: ms) ts rest) :
    ∃ next, Reads m ts next ∧
      (ms = [] ∨ ∃ ts', next = .byte 44 :: ts' ∧ Members ms ts' rest) := by
  cases h with
  | last h => exact ⟨_, h, Or.inl rfl⟩
  | comma h hms => exact ⟨_, h, Or.inr ⟨_, rfl, hms⟩⟩

/-- Of a file for other devices only groups in front of the config section are read, and the result
is 0. -/
theorem outlineLoop_forOthers {before : List (List Call)} {after : List Section} {rest : List Token}
    (hms : Members (before.map Section.group ++ .config ids :: after) (ls.map Lexeme.token) rest)
    (hfuel : ls.length < fuel) (hne : ids ≠ []) (hdevice : device ∉ ids) :
    ∃ groups, groups <+: before ∧ ∃ ending, ending.result = .ok 0 ∧
      outlineLoop device fuel ls [] = some ⟨groups.flatten, ending⟩ := by
  have hnil : ¬ Mismatch device [] := fun h ↦ h.1 rfl
  induction before generalizing fuel ls with
  | nil =>
    obtain ⟨fuel, rfl⟩ : ∃ n, fuel = n + 1 := ⟨fuel - 1, by omega⟩
    obtain ⟨next, hreads, -⟩ := reads_of_members hms
    obtain ⟨ls', hsuffix, rfl⟩ := exists_lexemes hreads.closed.suffix
    have hmismatch : Mismatch device ([] ++ (Section.config ids).ids) := ⟨hne, Or.inl hdevice⟩
    refine ⟨[], List.nil_prefix, .skipped, rfl, ?_⟩
    rw [outlineLoop_reads hreads hsuffix (Nat.le_of_lt_succ hfuel) hnil, if_pos hmismatch]
    rfl
  | cons calls before ih =>
    obtain ⟨fuel, rfl⟩ : ∃ n, fuel = n + 1 := ⟨fuel - 1, by omega⟩
    obtain ⟨next, hreads, hlast | ⟨ts', rfl, hrest⟩⟩ := reads_of_members hms
    · exact absurd hlast (List.append_ne_nil_of_right_ne_nil _ (List.cons_ne_nil _ _))
    obtain ⟨ls', hsuffix, hls'⟩ := exists_lexemes hreads.closed.suffix
    rw [← hls'] at hreads
    rw [outlineLoop_reads hreads hsuffix (Nat.le_of_lt_succ hfuel) hnil, if_neg (by exact hnil)]
    rcases ls' with _ | ⟨⟨_ | _, token⟩, ls'⟩
    · cases hls'
    · -- the comma stands directly behind the group
      obtain ⟨rfl, rfl⟩ := List.cons.inj hls'
      have hlen := hsuffix.length_le
      rw [List.length_cons] at hlen
      have hfuel' : ls'.length < fuel := by omega
      obtain ⟨groups, hgroups, ending, hresult, hread⟩ := ih hrest hfuel'
      refine ⟨calls :: groups, List.cons_prefix_cons.2 ⟨rfl, hgroups⟩, ending, hresult, ?_⟩
      have hnext : outlineLoop device fuel ls' ([] ++ (Section.group calls).ids) = _ := hread
      rw [fileNext, hnext]
      rfl
    · -- behind white space the comma ends the file
      refine ⟨[calls], List.cons_prefix_cons.2 ⟨rfl, List.nil_prefix⟩,
        .ended (⟨true, token⟩ :: ls'), rfl, ?_⟩
      rw [fileNext_of_head? (by simp)]
      rfl

/-- The calls that are made of a file for other devices are those of groups in front of the config
section. -/
theorem outline_forOthers {before : List (List Call)} {c : Bytes}
    (hc : ForOthers device before c) {o : Outline}
    (ho : outline device fuel (lex c) = some o) (hfuel : c.length ≤ fuel) :
    (∃ groups, groups <+: before ∧ o.calls = groups.flatten) ∧ o.ending.result = .ok 0 := by
  obtain ⟨gap, ls, ids, after, hlex, hne, hdevice, hms⟩ := hc
  have hlen := length_lex_le c
  rw [hlex, List.length_cons] at hlen
  have hls : ls.length < fuel := by omega
  obtain ⟨groups, hgroups, ending, hresult, hread⟩ := outlineLoop_forOthers hms hls hne hdevice
  have houtline : outline device fuel (lex c) = some ⟨groups.flatten, ending⟩ := by
    rw [hlex]
    exact hread
  cases ho.symm.trans houtline
  exact ⟨⟨groups, hgroups, rfl⟩, hresult⟩

end Format

/-! ### What shows of a load -/

/-- The answers of `q`, the hub list apart, are those of `p`. -/
structure Unaffected (p q : QshJsonParser) : Prop where
  getHubId : ∀ name, q.getHubId name = p.getHubId name
  getCommType : ∀ hubId, q.getCommType hubId = p.getCommType hubId
  getCommHandleAttrs : ∀ hubId, q.getCommHandleAttrs hubId = p.getCommHandleAttrs hubId
  getHubName : ∀ hubId, q.getHubName hubId = p.getHubName hubId
  isFileParsed : q.isFileParsed = p.isFileParsed

/-- Some entries tell a parser object nothing new: it has entries already where they would be
inserted, and the names they would assign are those that hubs have. -/
structure Entries.KnownTo (e : Entries) (p : QshJsonParser) : Prop where
  names : ∀ name hubId, Table.firstFor e.names name = some hubId →
    ∃ hubId', p.mSensingHubNameIdMap name = some hubId'
  comms : ∀ hubId comm, Table.firstFor e.comms hubId = some comm →
    ∃ comm', p.mSensingHubCommMap hubId = some comm'
  hubNames : ∀ hubId name, Table.firstFor e.hubNames.reverse hubId = some name →
    p.getHubName hubId = name

/-- Entries that have been added are known. -/
theorem Entries.AddedTo.knownTo {e : Entries} {p q : QshJsonParser} (h : e.AddedTo p q) :
    e.KnownTo q := by
  refine ⟨fun name hubId hfirst ↦ ?_, fun hubId comm hfirst ↦ ?_, fun hubId name hfirst ↦ ?_⟩
  · rw [h.names, Table.insertAll_apply, hfirst]
    rcases p.mSensingHubNameIdMap name with _ | hubId' <;> exact ⟨_, rfl⟩
  · rw [h.comms, Table.insertAll_apply, hfirst]
    rcases p.mSensingHubCommMap hubId with _ | comm' <;> exact ⟨_, rfl⟩
  · rw [getHubName_eq, h.hubNames, Table.assignAll_apply, hfirst]
    rfl

/-- An entry is one that some item has made. -/
theorem Scratch.mem_along {α : Type} {entry : Scratch → Call → Option α} {s : Scratch}
    {cs : List Call} {a : α} (h : a ∈ s.along entry cs) : ∃ t c, entry t c = some a := by
  obtain ⟨pre, c, -, -, hentry⟩ := Scratch.mem_along_iff.1 h
  exact ⟨s.readCalls pre, c, hentry⟩

/-- The entries that calls make never hold the answer for a missing one. -/
theorem ne_of_firstFor_names {cs : List Call} {name : Bytes} {hubId : ℤ}
    (h : Table.firstFor (entriesOf cs).names name = some hubId) : hubId ≠ -1 := by
  obtain ⟨s, c, hentry⟩ := Scratch.mem_along (Table.mem_of_firstFor h)
  unfold Scratch.nameEntry at hentry
  split_ifs at hentry with hname
  cases hentry
  exact hname.1

theorem ne_of_firstFor_comms {cs : List Call} {hubId : ℤ} {comm : Bytes × ℤ}
    (h : Table.firstFor (entriesOf cs).comms hubId = some comm) : comm.2 ≠ -1 := by
  obtain ⟨s, c, hentry⟩ := Scratch.mem_along (Table.mem_of_firstFor h)
  unfold Scratch.commEntry at hentry
  split_ifs at hentry with hcomm
  cases hentry
  exact hcomm.2.2

/-- Entries that are added do not show exactly if they tell nothing new. -/
theorem unaffected_iff_knows {p q : QshJsonParser} {cs : List Call}
    (hq : (entriesOf cs).AddedTo p q) (hparsed : q.mIsFileParsed = true) :
    Unaffected p q ↔ p.isFileParsed = true ∧ (entriesOf cs).KnownTo p := by
  have hnames (name : Bytes) : q.mSensingHubNameIdMap name =
      (p.mSensingHubNameIdMap name).or (Table.firstFor (entriesOf cs).names name) := by
    rw [hq.names, Table.insertAll_apply]
  have hcomms (hubId : ℤ) : q.mSensingHubCommMap hubId =
      (p.mSensingHubCommMap hubId).or (Table.firstFor (entriesOf cs).comms hubId) := by
    rw [hq.comms, Table.insertAll_apply]
  have hhubNames (hubId : ℤ) : q.mSensingHubIdNameMap hubId =
      (Table.firstFor (entriesOf cs).hubNames.reverse hubId).or
        (p.mSensingHubIdNameMap hubId) := by
    rw [hq.hubNames, Table.assignAll_apply]
  constructor
  · intro hsame
    refine ⟨hsame.isFileParsed.symm.trans hparsed, fun name hubId hfirst ↦ ?_,
      fun hubId comm hfirst ↦ ?_, fun hubId name hfirst ↦ ?_⟩
    · have hanswer := hsame.getHubId name
      rw [getHubId_eq, getHubId_eq, hnames, hfirst] at hanswer
      rcases hold : p.mSensingHubNameIdMap name with _ | hubId'
      · rw [hold] at hanswer
        exact absurd hanswer (ne_of_firstFor_names hfirst)
      · exact ⟨hubId', rfl⟩
    · have hanswer := hsame.getCommHandleAttrs hubId
      rw [getCommHandleAttrs_eq, getCommHandleAttrs_eq, hcomms, hfirst] at hanswer
      rcases hold : p.mSensingHubCommMap hubId with _ | comm'
      · rw [hold] at hanswer
        exact absurd hanswer (ne_of_firstFor_comms hfirst)
      · exact ⟨comm', rfl⟩
    · have hanswer := hsame.getHubName hubId
      rw [getHubName_eq, hhubNames, hfirst] at hanswer
      exact hanswer.symm
  · rintro ⟨hbefore, hknows⟩
    -- the maps that `insert` fills stay: every name and hub id is there already
    have hnames' (name : Bytes) : q.mSensingHubNameIdMap name = p.mSensingHubNameIdMap name := by
      rw [hnames]
      rcases hfirst : Table.firstFor (entriesOf cs).names name with _ | hubId
      · exact Option.or_none ..
      · obtain ⟨hubId', hold⟩ := hknows.names name hubId hfirst
        rw [hold, Option.some_or]
    have hcomms' (hubId : ℤ) : q.mSensingHubCommMap hubId = p.mSensingHubCommMap hubId := by
      rw [hcomms]
      rcases hfirst : Table.firstFor (entriesOf cs).comms hubId with _ | comm
      · exact Option.or_none ..
      · obtain ⟨comm', hold⟩ := hknows.comms hubId comm hfirst
        rw [hold, Option.some_or]
    refine ⟨fun name ↦ ?_, fun hubId ↦ ?_, fun hubId ↦ ?_, fun hubId ↦ ?_,
      hparsed.trans hbefore.symm⟩
    · rw [getHubId_eq, getHubId_eq, hnames']
    · rw [getCommType_eq, getCommType_eq, hcomms']
    · rw [getCommHandleAttrs_eq, getCommHandleAttrs_eq, hcomms']
    · rw [getHubName_eq, hhubNames]
      rcases hfirst : Table.firstFor (entriesOf cs).hubNames.reverse hubId with _ | name
      · exact (getHubName_eq p hubId).symm
      · exact (hknows.hubNames hubId name hfirst).symm

/-- **A file for other devices shows unless it tells nothing new**: the calls it makes are those of
groups in front of its config section, and a load of it changes no answer and not `isFileParsed`
exactly if a file has been parsed before and the entries of these groups are known. -/
theorem unaffected_iff {device : ℤ} {history : List Load} {p : QshJsonParser}
    (hp : session.Run (QshJsonParser.fresh device) history p) {before : List (List Call)}
    {c : Bytes} {fuel : ℕ} (hc : ForOthers device before c) (hfits : FitsCursors fuel c)
    (hfuel : c.length ≤ fuel) {o : Outline}
    (ho : Format.outline device fuel (lex c) = some o) (stale : ℕ → Bytes) :
    (∃ groups, groups <+: before ∧ o.calls = groups.flatten) ∧
      (Unaffected p (p.loadFile fuel stale (.content c)).parser ↔
        p.isFileParsed = true ∧ (entriesOf (fillCalls stale 0 o.calls)).KnownTo p) := by
  obtain ⟨rfl, -⟩ := proper_of_run hp
  obtain ⟨hgroups, hresult⟩ := Format.outline_forOthers hc ho hfuel
  obtain ⟨hadded, hparsed⟩ := loadFile_entries hfits ho stale
  rw [hresult, decide_eq_true rfl, Bool.or_true] at hparsed
  exact ⟨hgroups, unaffected_iff_knows hadded hparsed⟩

/-! ### A file for device 5 -/

/-- A config section with a list of ids. -/
def configTokens (socIds : Bytes) : List Token :=
  (Member.item (str "config") [(str "soc_id", socIds)]).tokens

theorem reads_configTokens {value : Bytes} {ids : List ℤ}
    (h : Format.socIds (getlines 44 value) = (ids, none)) (rest : List Token) :
    Reads (.config ids) (configTokens value ++ rest) rest := by
  have hconfig : Format.config 1
      (.byte 123 :: .quoted (str "soc_id") :: .byte 58 :: .quoted value :: .byte 125 :: rest) =
        some ⟨ids, .read rest⟩ := by
    simp [Format.config, Format.configLoop, Format.pair, Format.pairValue, Format.memberIds, h,
      Format.configEnd]
  exact .config hconfig

/-- A file that describes a hub, for the devices in a list. -/
def slpiFileFor (socIds : Bytes) : Bytes :=
  render (.byte 123 :: ((Member.group slpi.group.name slpi.group.members).tokens ++
    .byte 44 :: (configTokens socIds ++ [.byte 125])))

theorem forOthers_slpiFileFor : ForOthers 0 [slpi.group.calls] (slpiFileFor (str "5")) := by
  have hgroup : Format.group 100 slpi.group.name
      (.byte 123 :: (membersTokens slpi.group.members ++
        .byte 125 :: .byte 44 :: (configTokens (str "5") ++ [.byte 125]))) =
        some ⟨slpi.group.calls, some (.byte 44 :: (configTokens (str "5") ++ [.byte 125]))⟩ := by
    decide +kernel
  refine ⟨false, (lex (slpiFileFor (str "5"))).tail, [5], [], by decide +kernel, by decide,
    by decide, ?_⟩
  have htokens : (lex (slpiFileFor (str "5"))).tail.map Lexeme.token =
      .quoted slpi.group.name :: .byte 58 :: .byte 123 ::
        (membersTokens slpi.group.members ++
          .byte 125 :: .byte 44 :: (configTokens (str "5") ++ [.byte 125])) := by
    decide +kernel
  rw [htokens]
  exact .comma (.group (by decide +kernel) hgroup)
    (.last (reads_configTokens (by decide +kernel) [.byte 125]))

/-- Behind a load of the hub's file, one for device 5 that describes the same hub does not show. -/
theorem unaffected_slpiFileFor :
    Unaffected
      ((QshJsonParser.fresh 0).loadFile 1000 (fun _ ↦ []) (.content (hubsFile [slpi]))).parser
      (((QshJsonParser.fresh 0).loadFile 1000 (fun _ ↦ [])
        (.content (hubsFile [slpi]))).parser.loadFile 1000 (fun _ ↦ [])
          (.content (slpiFileFor (str "5")))).parser := by
  have hlen : (hubsFile [slpi]).length ≤ 1000 ∧ (slpiFileFor (str "5")).length ≤ 1000 := by
    decide +kernel
  have hcalls : ∀ o ∈ Format.outline 0 1000 (lex (hubsFile [slpi])),
      ∀ o' ∈ Format.outline 0 1000 (lex (slpiFileFor (str "5"))), o'.calls = o.calls := by
    decide +kernel
  obtain ⟨o, ho⟩ : ∃ o, Format.outline 0 1000 (lex (hubsFile [slpi])) = some o :=
    Format.outline_isSome ((length_lex_le _).trans hlen.1)
  obtain ⟨o', ho'⟩ : ∃ o, Format.outline 0 1000 (lex (slpiFileFor (str "5"))) = some o :=
    Format.outline_isSome ((length_lex_le _).trans hlen.2)
  have hfirst := (loadFile_entries (p := .fresh 0) (fitsCursors_of_lt (by omega)) ho fun _ ↦ []).1
  have hsecond := unaffected_iff (run_hubsLoad [slpi]) forOthers_slpiFileFor
    (fitsCursors_of_lt (by omega)) hlen.2 ho' fun _ ↦ []
  rw [hcalls o ho o' ho'] at hsecond
  exact hsecond.2.2 ⟨by decide +kernel, hfirst.knownTo⟩

/-- A new parser knows the hub of a file for device 5, and that a file has been parsed. -/
theorem not_unaffected_slpiFileFor :
    session.Run (QshJsonParser.fresh 0) [] (QshJsonParser.fresh 0) ∧
      ForOthers 0 [slpi.group.calls] (slpiFileFor (str "5")) ∧
      ¬ Unaffected (QshJsonParser.fresh 0)
        ((QshJsonParser.fresh 0).loadFile 1000 (fun _ ↦ [])
          (.content (slpiFileFor (str "5")))).parser := by
  refine ⟨.nil, forOthers_slpiFileFor, fun hsame ↦ ?_⟩
  exact absurd (hsame.getHubId slpi.platform) (by decide +kernel)

end SensingHub.Json
