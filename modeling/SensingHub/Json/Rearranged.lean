import SensingHub.Json.FailedLoad
import SensingHub.Json.MemberOrder
import SensingHub.Json.RoundTrip
import Mathlib.Data.List.Forall2

/-!
# Documents with their members rearranged

The members of an object may be written in another order, at every depth. The items of a group are
then called for in another order, but they are the same items; so where both orders are such as the
parser can use, the tables hold the same when the file has been read.
-/

namespace SensingHub.Json

open CLib (str isspace)

/-! ### Rearranged trees -/

/-- The same members in another order, and so within each of them. -/
inductive Rearranged : List Member → List Member → Prop
  | nil : Rearranged [] []
  | string (key value : Bytes) {ms ms' : List Member} :
    Rearranged ms ms' → Rearranged (.string key value :: ms) (.string key value :: ms')
  | item (key : Bytes) {strings strings' : List (Bytes × Bytes)} {ms ms' : List Member} :
    strings.Perm strings' → Rearranged ms ms' →
      Rearranged (.item key strings :: ms) (.item key strings' :: ms')
  | group (key : Bytes) {members members' ms ms' : List Member} :
    Rearranged members members' → Rearranged ms ms' →
      Rearranged (.group key members :: ms) (.group key members' :: ms')
  | swap (m m' : Member) (ms : List Member) : Rearranged (m :: m' :: ms) (m' :: m :: ms)
  | trans {ms ms' ms'' : List Member} :
    Rearranged ms ms' → Rearranged ms' ms'' → Rearranged ms ms''

mutual

/-- Every item has its data, once. -/
def Member.HasData : Member → Prop
  | .string _ _ => True
  | .item _ strings => (strings.filter fun s ↦ s.1 = str "data").length = 1
  | .group _ members => MembersHaveData members

/-- Every item of some members has its data, once. -/
def MembersHaveData : List Member → Prop
  | [] => True
  | m :: ms => m.HasData ∧ MembersHaveData ms

end

/-- The data of an item does not depend on the order of its strings. -/
theorem stringsData_perm {strings strings' : List (Bytes × Bytes)} (hperm : strings.Perm strings')
    (h : (strings.filter fun s ↦ s.1 = str "data").length = 1) :
    stringsData strings' none = stringsData strings none := by
  have hfilter := hperm.filter fun s ↦ s.1 = str "data"
  obtain ⟨s, hs⟩ := List.length_eq_one_iff.1 h
  rw [hs, List.singleton_perm] at hfilter
  rw [← stringsData_filter strings', ← stringsData_filter strings, hs, ← hfilter]

/-- An item that has its data has data. -/
theorem isSome_stringsData {strings : List (Bytes × Bytes)}
    (h : (strings.filter fun s ↦ s.1 = str "data").length = 1) :
    (stringsData strings none).isSome := by
  obtain ⟨⟨key, value⟩, hs⟩ := List.length_eq_one_iff.1 h
  have hkey : key = str "data" := by
    have hmem : (key, value) ∈ strings.filter fun s ↦ s.1 = str "data" := by
      rw [hs]
      exact List.mem_singleton_self _
    exact of_decide_eq_true (List.mem_filter.1 hmem).2
  rw [← stringsData_filter, hs, stringsData, stringsData, Format.itemData, if_pos hkey]
  rfl

mutual

theorem Member.HasData.isSome {m : Member} (h : m.HasData) (grpName : Bytes) :
    ∀ c ∈ m.calls grpName, c.data.isSome := by
  match m with
  | .string key value => exact fun c hc ↦ absurd hc List.not_mem_nil
  | .item key strings =>
    rw [Member.calls]
    exact List.forall_mem_singleton.2 (isSome_stringsData h)
  | .group key members => exact MembersHaveData.isSome h key

/-- All items have data. -/
theorem MembersHaveData.isSome {ms : List Member} (h : MembersHaveData ms) (grpName : Bytes) :
    ∀ c ∈ membersCalls grpName ms, c.data.isSome := by
  match ms with
  | [] => exact fun c hc ↦ absurd hc List.not_mem_nil
  | m :: ms =>
    rw [membersCalls]
    intro c hc
    exact (List.mem_append.1 hc).elim (Member.HasData.isSome h.1 grpName c)
      (MembersHaveData.isSome h.2 grpName c)

end

namespace Rearranged

variable {ms ms' : List Member}

theorem length_eq (h : Rearranged ms ms') : ms'.length = ms.length := by
  induction h with
  | nil => rfl
  | string key value _ ih => simp [ih]
  | item key _ _ ih => simp [ih]
  | group key _ _ _ ih => simp [ih]
  | swap m m' ms => rfl
  | trans _ _ ih₁ ih₂ => exact ih₂.trans ih₁

theorem ne_nil (h : Rearranged ms ms') (hne : ms ≠ []) : ms' ≠ [] := by
  rw [← List.length_pos_iff] at hne ⊢
  exact h.length_eq ▸ hne

theorem wellFormed (h : Rearranged ms ms') (hwf : MembersWellFormed ms) :
    MembersWellFormed ms' := by
  induction h with
  | nil => exact hwf
  | string key value _ ih => exact ⟨trivial, ih hwf.2⟩
  | item key hperm _ ih =>
    obtain ⟨⟨hkey, hne⟩, hms⟩ := hwf
    refine ⟨⟨hkey, fun hnil ↦ hne ?_⟩, ih hms⟩
    rw [hnil] at hperm
    exact hperm.eq_nil
  | group key hmembers _ ihmembers ih =>
    obtain ⟨⟨hkey, hne, hwf⟩, hms⟩ := hwf
    exact ⟨⟨hkey, hmembers.ne_nil hne, ihmembers hwf⟩, ih hms⟩
  | swap m m' ms => exact ⟨hwf.2.1, hwf.1, hwf.2.2⟩
  | trans _ _ ih₁ ih₂ => exact ih₂ (ih₁ hwf)

theorem hasData (h : Rearranged ms ms') (hdata : MembersHaveData ms) : MembersHaveData ms' := by
  induction h with
  | nil => exact hdata
  | string key value _ ih => exact ⟨trivial, ih hdata.2⟩
  | item key hperm _ ih => exact ⟨(hperm.filter _).length_eq.symm.trans hdata.1, ih hdata.2⟩
  | group key _ _ ihmembers ih => exact ⟨ihmembers hdata.1, ih hdata.2⟩
  | swap m m' ms => exact ⟨hdata.2.1, hdata.1, hdata.2.2⟩
  | trans _ _ ih₁ ih₂ => exact ih₂ (ih₁ hdata)

/-- **The items of rearranged members are the same but for their order.** -/
theorem calls_perm (h : Rearranged ms ms') (hdata : MembersHaveData ms) (grpName : Bytes) :
    (membersCalls grpName ms).Perm (membersCalls grpName ms') := by
  induction h generalizing grpName with
  | nil => exact .refl _
  | string key value _ ih => exact ih hdata.2 grpName
  | item key hperm _ ih =>
    simp only [membersCalls, Member.calls, List.singleton_append]
    rw [stringsData_perm hperm hdata.1]
    exact (ih hdata.2 grpName).cons _
  | group key _ _ ihmembers ih =>
    exact (ihmembers hdata.1 key).append (ih hdata.2 grpName)
  | swap m m' ms =>
    simp only [membersCalls, ← List.append_assoc]
    exact List.perm_append_comm.append_right _
  | trans h₁ _ ih₁ ih₂ => exact (ih₁ hdata grpName).trans (ih₂ (h₁.hasData hdata) grpName)

end Rearranged

/-! ### Their text -/

/-- Texts, each with white space behind it, separated by commas, and what stands behind them. -/
def spaced : List (Bytes × Bytes) → Bytes → Bytes
  | [], after => after
  | [(t, gap)], after => t ++ (gap ++ after)
  | (t, gap) :: ts, after => t ++ (gap ++ 44 :: spaced ts after)

/-- The text of an object of groups, with white space between any two tokens: `gaps` is that behind
the groups. -/
def IsText (gs : List TopGroup) (gaps : List Bytes) (c : Bytes) : Prop :=
  ∃ texts before after, List.Forall₂ GroupText gs texts ∧ gaps.length = gs.length ∧
    (∀ gap ∈ gaps, ∀ b ∈ gap, isspace b = true) ∧ (∀ b ∈ before, isspace b = true) ∧
      tokens after = [.byte 125] ∧ c = before ++ 123 :: spaced (texts.zip gaps) after

/-- How many groups are read: those up to the first with white space behind it. -/
def groupsRead : List Bytes → ℕ
  | [] => 0
  | gap :: gaps => if gap = [] then groupsRead gaps + 1 else 1

theorem lex_spaces {gap : Bytes} (h : ∀ b ∈ gap, isspace b = true) (r : Bytes) :
    lex (gap ++ r) = if gap = [] then lex r else behindSpace (lex r) := by
  induction gap with
  | nil => rfl
  | cons b gap ih =>
    obtain ⟨hb, hgap⟩ := List.forall_mem_cons.1 h
    rw [List.cons_append, lex_space hb, ih hgap, if_neg (List.cons_ne_nil b gap)]
    split_ifs
    · rfl
    · rcases lex r with _ | ⟨l, ls⟩ <;> rfl

theorem tokens_spaces {gap : Bytes} (h : ∀ b ∈ gap, isspace b = true) (r : Bytes) :
    tokens (gap ++ r) = tokens r := by
  unfold tokens
  rw [lex_spaces h]
  split_ifs
  · rfl
  · rcases lex r with _ | ⟨l, ls⟩ <;> rfl

namespace Format

/-- Groups are read up to the first with white space behind it. -/
theorem fileLoop_spaced (stale : ℕ → Bytes) {gs : List TopGroup} {texts gaps : List Bytes}
    (htexts : List.Forall₂ GroupText gs texts) (hne : gs ≠ []) (hgs : ∀ g ∈ gs, g.WellFormed)
    (hlen : gaps.length = gs.length) (hgaps : ∀ gap ∈ gaps, ∀ b ∈ gap, isspace b = true)
    {after : Bytes} (hafter : tokens after = [.byte 125]) {fuel : ℕ}
    (hfuel : (lex (spaced (texts.zip gaps) after)).length < fuel) (s : Progress) :
    (∃ ls, fileLoop stale fuel (lex (spaced (texts.zip gaps) after)) s =
        some (.ended ls, s.calls stale ((gs.take (groupsRead gaps)).flatMap TopGroup.calls))) ∧
      memberKeys fuel (lex (spaced (texts.zip gaps) after)) =
        (gs.take (groupsRead gaps)).map TopGroup.name := by
  induction htexts generalizing gaps fuel s with
  | nil => exact absurd rfl hne
  | @cons g t gs texts hg htexts ih =>
    obtain ⟨fuel, rfl⟩ : ∃ n, fuel = n + 1 := ⟨fuel - 1, by omega⟩
    obtain ⟨gap, gaps, rfl⟩ : ∃ gap gaps', gaps = gap :: gaps' :=
      List.exists_cons_of_length_eq_add_one hlen
    obtain ⟨hgap, hgaps⟩ := List.forall_mem_cons.1 hgaps
    obtain ⟨hwf, hgs⟩ := List.forall_mem_cons.1 hgs
    have hlen : gaps.length = gs.length := Nat.succ.inj hlen
    cases htexts with
    | nil =>
      -- the last group: the closing bracket ends the loop
      obtain rfl := List.length_eq_zero_iff.1 hlen
      obtain ⟨hrun, hkeys⟩ := fileLoop_groupText stale hg hwf (r := gap ++ after)
        (Nat.le_of_lt_succ hfuel) s
      have hclosing : tokens (gap ++ after) = [.byte 125] := by rw [tokens_spaces hgap, hafter]
      have htake : [g].take (groupsRead [gap]) = [g] := by
        unfold groupsRead
        split_ifs <;> rfl
      rw [fileNext_closing hclosing] at hrun hkeys
      rw [htake, List.flatMap_singleton]
      exact ⟨⟨_, hrun⟩, hkeys⟩
    | @cons g' t' gs texts hg' htexts =>
      obtain ⟨gap', gaps, rfl⟩ : ∃ gap' gaps', gaps = gap' :: gaps' :=
        List.exists_cons_of_length_eq_add_one hlen
      set rest := spaced ((t' :: texts).zip (gap' :: gaps)) after with hrest
      have hspaced : spaced ((t :: t' :: texts).zip (gap :: gap' :: gaps)) after =
          t ++ (gap ++ 44 :: rest) := rfl
      have hcomma : lex (44 :: rest) = ⟨false, .byte 44⟩ :: lex rest :=
        lex_byte (by decide) (by decide) rest
      rw [hspaced] at hfuel ⊢
      obtain ⟨hrun, hkeys⟩ := fileLoop_groupText stale hg hwf (r := gap ++ 44 :: rest)
        (Nat.le_of_lt_succ hfuel) s
      rw [hrun, hkeys, lex_spaces hgap, hcomma, groupsRead]
      -- only a comma right behind the group goes on
      split_ifs with hnone
      · have hlen' : (lex rest).length < fuel := by
          rw [hnone, List.nil_append, hg.lex_append, hcomma] at hfuel
          simp only [List.length_append, List.length_cons] at hfuel
          omega
        obtain ⟨⟨ls, hend⟩, hnames⟩ := ih (List.cons_ne_nil _ _) hgs hlen hgaps hlen'
          (s.calls stale g.calls)
        refine ⟨⟨ls, ?_⟩, ?_⟩
        · simp only [fileNext]
          rw [hend, List.take_succ_cons, List.flatMap_cons, Progress.calls, Progress.calls,
            Progress.calls, List.foldl_append]
        · simp only [fileNext]
          rw [hnames, List.take_succ_cons, List.map_cons]
      · rw [List.take_succ_cons, List.take_zero, List.flatMap_singleton]
        exact ⟨⟨_, rfl⟩, rfl⟩

end Format

/-! ### Their files -/

/-- **A file of groups is loaded** as far as the first group with white space behind it. -/
theorem loadFile_isText {gs : List TopGroup} {gaps : List Bytes} {c : Bytes} (hc : IsText gs gaps c)
    (hne : gs ≠ []) (hgs : ∀ g ∈ gs, g.WellFormed) (hlt : c.length < 2 ^ 32) {fuel : ℕ}
    (hfuel : c.length < fuel) (stale : ℕ → Bytes) (p : QshJsonParser) :
    (p.loadFile fuel stale (.content c)).ret = .ok 0 ∧
      (p.loadFile fuel stale (.content c)).parser =
        { (Progress.calls stale ⟨p.resetParserState, 0⟩
            ((gs.take (groupsRead gaps)).flatMap TopGroup.calls)).parser with
          mIsFileParsed := true } := by
  obtain ⟨texts, before, after, htexts, hlen, hgaps, hbefore, hafter, rfl⟩ := hc
  have hlex : (lex (spaced (texts.zip gaps) after)).length < fuel := by
    have := length_lex_le (spaced (texts.zip gaps) after)
    simp only [List.length_append, List.length_cons] at hfuel
    omega
  obtain ⟨⟨ls, hrun⟩, hkeys⟩ := Format.fileLoop_spaced stale htexts hne hgs hlen hgaps hafter hlex
    ⟨p.resetParserState, 0⟩
  refine loadFile_object hbefore rfl hlt hrun ?_
  -- no group is named as a config section is
  rw [hkeys]
  intro hmem
  obtain ⟨g, hg, hname⟩ := List.mem_map.1 hmem
  exact (hgs g (List.mem_of_mem_take hg)).name_ne hname

/-- An object without groups is rejected. -/
theorem loadFile_isText_nil {gaps : List Bytes} {c : Bytes} (hc : IsText [] gaps c)
    (hlt : c.length < 2 ^ 32) {fuel : ℕ} (hfuel : c.length < fuel) (stale : ℕ → Bytes)
    (p : QshJsonParser) :
    (p.loadFile fuel stale (.content c)).ret = .ok (-1) ∧
      (p.loadFile fuel stale (.content c)).parser = p.resetParserState := by
  obtain ⟨fuel, rfl⟩ : ∃ n, fuel = n + 1 := ⟨fuel - 1, by omega⟩
  obtain ⟨texts, before, after, htexts, -, -, hbefore, hafter, htext⟩ := hc
  obtain rfl := List.forall₂_nil_left_iff.1 htexts
  obtain rfl : c = before ++ 123 :: after := htext
  have hskip : (before ++ 123 :: after).dropWhile isspace = 123 :: after := by
    rw [List.dropWhile_append_of_pos hbefore, List.dropWhile_cons_of_neg (by decide)]
  obtain ⟨gap, hlex⟩ := lex_of_dropWhile hskip (by decide) (by decide)
  have hpair : Format.pair ((lex after).map Lexeme.token) = none := by
    rw [show (lex after).map Lexeme.token = _ from hafter]
    rfl
  have hkeys : str "config" ∉ Format.fileKeys (fuel + 1) (lex (before ++ 123 :: after)) := by
    rw [hlex, Format.fileKeys, Format.memberKeys, hpair]
    exact List.not_mem_nil
  have hload := loadFile_run (fuel + 1) stale _ p hlt fun h ↦ absurd h hkeys
  rw [hlex, Format.file, Format.fileLoop, hpair] at hload
  exact ⟨hload.1, hload.2.1⟩

/-- The groups tell of hubs, all their items with their data, and in an order the parser can use. -/
structure Describe (told : List (Option HubEntry)) (gs : List TopGroup) : Prop where
  wellFormed : ∀ g ∈ gs, g.WellFormed
  hasData : ∀ g ∈ gs, MembersHaveData g.members
  tell : List.Forall₂ Tell told (gs.map TopGroup.calls)

/-- The tables behind a file of groups that tell of hubs. -/
theorem loadFile_describe {told : List (Option HubEntry)} {gs : List TopGroup} {gaps : List Bytes}
    {c : Bytes} (hd : Describe told gs)
    (horder : List.Forall₂ Ordered told (gs.map TopGroup.calls))
    (hc : IsText gs gaps c) (hne : gs ≠ []) (hlt : c.length < 2 ^ 32) {fuel : ℕ}
    (hfuel : c.length < fuel) (stale : ℕ → Bytes) (deviceSocId : ℤ) :
    ((QshJsonParser.fresh deviceSocId).loadFile fuel stale (.content c)).ret = .ok 0 ∧
      ∃ scratch, ((QshJsonParser.fresh deviceSocId).loadFile fuel stale (.content c)).parser =
        { (QshJsonParser.fresh deviceSocId).addEntries
            (told.take (groupsRead gaps)).reduceOption with
          scratch := scratch
          mIsFileParsed := true } := by
  obtain ⟨hret, hparser⟩ := loadFile_isText hc hne hd.wellFormed hlt hfuel stale
    (QshJsonParser.fresh deviceSocId)
  refine ⟨hret, ?_⟩
  have hdata : ∀ c ∈ (gs.take (groupsRead gaps)).flatMap TopGroup.calls, c.data.isSome := by
    intro c hmem
    obtain ⟨g, hg, hcg⟩ := List.mem_flatMap.1 hmem
    exact (hd.hasData g (List.mem_of_mem_take hg)).isSome g.name c hcg
  have htell := List.forall₂_take (groupsRead gaps) hd.tell
  have horder := List.forall₂_take (groupsRead gaps) horder
  have hstart : (QshJsonParser.fresh deviceSocId).resetParserState.scratch =
      HubEntry.started false false := rfl
  obtain ⟨grp, attr, hread⟩ := readCalls_groups htell horder hstart
  rw [Progress.parser_calls stale _ hdata, List.flatMap_def, List.map_take, hread] at hparser
  exact ⟨_, hparser⟩

/-- The members of groups are rearranged, but not the groups. -/
def RearrangedGroups : List TopGroup → List TopGroup → Prop :=
  List.Forall₂ fun g g' ↦ g'.name = g.name ∧ Rearranged g.members g'.members

/-- Rearranged groups tell of the same hubs. -/
theorem Describe.rearranged {told : List (Option HubEntry)} {gs gs' : List TopGroup}
    (hd : Describe told gs) (h : RearrangedGroups gs gs') : Describe told gs' := by
  induction h generalizing told with
  | nil => exact hd
  | @cons g g' gs gs' hg h ih =>
    obtain ⟨name, members⟩ := g
    obtain ⟨name', members'⟩ := g'
    obtain ⟨rfl, hmembers⟩ := hg
    obtain ⟨hwf, hdata, htell⟩ := hd
    obtain ⟨hwf, hwfs⟩ := List.forall_mem_cons.1 hwf
    obtain ⟨hdata, hdatas⟩ := List.forall_mem_cons.1 hdata
    cases htell with
    | cons htell htells =>
      have hrest := ih ⟨hwfs, hdatas, htells⟩
      exact ⟨List.forall_mem_cons.2 ⟨⟨hwf.name_ne, hmembers.ne_nil hwf.members_ne,
          hmembers.wellFormed hwf.members⟩, hrest.wellFormed⟩,
        List.forall_mem_cons.2 ⟨hmembers.hasData hdata, hrest.hasData⟩,
        .cons (htell.perm (hmembers.calls_perm hdata _)) hrest.tell⟩

/-- **The order of the members does not matter** as long as it is one that the parser can use:
files of the same hubs with their members rearranged are both loaded, and answer alike. -/
theorem loadFile_rearranged {told : List (Option HubEntry)} {gs gs' : List TopGroup}
    {gaps : List Bytes} {c c' : Bytes} (hd : Describe told gs) (h : RearrangedGroups gs gs')
    (horder : List.Forall₂ Ordered told (gs.map TopGroup.calls))
    (horder' : List.Forall₂ Ordered told (gs'.map TopGroup.calls))
    (hc : IsText gs gaps c) (hc' : IsText gs' gaps c') (hlt : c.length < 2 ^ 32)
    (hlt' : c'.length < 2 ^ 32) {fuel fuel' : ℕ} (hfuel : c.length < fuel)
    (hfuel' : c'.length < fuel') (stale stale' : ℕ → Bytes) (deviceSocId : ℤ) :
    ((QshJsonParser.fresh deviceSocId).loadFile fuel' stale' (.content c')).ret =
        ((QshJsonParser.fresh deviceSocId).loadFile fuel stale (.content c)).ret ∧
      SameAnswers ((QshJsonParser.fresh deviceSocId).loadFile fuel stale (.content c)).parser
        ((QshJsonParser.fresh deviceSocId).loadFile fuel' stale' (.content c')).parser := by
  by_cases hne : gs = []
  · subst hne
    obtain rfl := List.forall₂_nil_left_iff.1 h
    have hload := loadFile_isText_nil hc hlt hfuel stale (QshJsonParser.fresh deviceSocId)
    have hload' := loadFile_isText_nil hc' hlt' hfuel' stale' (QshJsonParser.fresh deviceSocId)
    rw [hload.1, hload.2, hload'.1, hload'.2]
    exact ⟨rfl, rfl, fun _ ↦ rfl, fun _ ↦ rfl, fun _ ↦ rfl, fun _ ↦ rfl, rfl⟩
  have hne' : gs' ≠ [] := by
    rintro rfl
    cases h
    exact hne rfl
  obtain ⟨hret, scratch, hparser⟩ := loadFile_describe hd horder hc hne hlt hfuel stale deviceSocId
  obtain ⟨hret', scratch', hparser'⟩ :=
    loadFile_describe (hd.rearranged h) horder' hc' hne' hlt' hfuel' stale' deviceSocId
  rw [hret, hret', hparser, hparser']
  exact ⟨rfl, rfl, fun _ ↦ rfl, fun _ ↦ rfl, fun _ ↦ rfl, fun _ ↦ rfl, rfl⟩

/-! ### A hub described twice -/

theorem Rearranged.refl (ms : List Member) : Rearranged ms ms := by
  match ms with
  | [] => exact .nil
  | .string key value :: ms => exact .string key value (refl ms)
  | .item key _ :: ms => exact .item key (.refl _) (refl ms)
  | .group key members :: ms => exact .group key (refl members) (refl ms)

theorem Rearranged.cons (m : Member) {ms ms' : List Member} (h : Rearranged ms ms') :
    Rearranged (m :: ms) (m :: ms') := by
  cases m with
  | string key value => exact .string key value h
  | item key strings => exact .item key (.refl strings) h
  | group key members => exact .group key (.refl members) h

theorem Rearranged.of_perm {ms ms' : List Member} (h : ms.Perm ms') : Rearranged ms ms' := by
  induction h with
  | nil => exact .nil
  | cons m _ ih => exact ih.cons m
  | swap m m' ms => exact .swap m' m ms
  | trans _ _ ih₁ ih₂ => exact ih₁.trans ih₂

/-- The entry of a hub. -/
def Hub.entry (h : Hub) : HubEntry where
  platform := h.platform
  hubId := h.hubId
  commType := h.transport.typeData
  attrs := h.transport.attrs
  link :=
    match h.transport with
    | .qmi _ => none
    | .glink link _ _ _ _ => some link

/-- The hub `slpi`, its members in reverse order. -/
def slpiReversed : TopGroup :=
  ⟨slpi.name, slpi.group.members.reverse⟩

/-- The hub `adsp`, its platform id behind its transport and the link ahead of the type. -/
def adspRearranged : TopGroup :=
  ⟨adsp.name, [dataItem (str "sensing_hub_id") adsp.id,
    .group (str ".client_comm") [dataItem (str "link_name") (str "lpass"),
      dataItem (str "client_comm_type") (str "1"), dataItem (str "channel_name") (str "sns"),
      .group (str ".attributes") [dataItem (str "no_of_channels") (str "3")]],
    .string (str "owner") (str "hub"), dataItem (str "platform_id") adsp.platform]⟩

/-- The hub `slpi`, its service ahead of the type. -/
def slpiServiceFirst : TopGroup :=
  ⟨slpi.name, [.string (str "owner") (str "hub"), dataItem (str "platform_id") slpi.platform,
    dataItem (str "sensing_hub_id") slpi.id,
    .group (str ".client_comm") [dataItem (str "service_id") (str "400"),
      dataItem (str "client_comm_type") (str "0")]]⟩

/-- A file of groups, with white space in it only behind the last group. -/
def groupsFile (gs : List TopGroup) (space : Bytes) : Bytes :=
  123 :: spaced ((gs.map TopGroup.text).zip (gs.map fun _ ↦ [])) (space ++ [125])

theorem isText_groupsFile {gs : List TopGroup}
    (htexts : List.Forall₂ GroupText gs (gs.map TopGroup.text)) {space : Bytes}
    (hspace : ∀ b ∈ space, isspace b = true) :
    IsText gs (gs.map fun _ ↦ []) (groupsFile gs space) := by
  refine ⟨_, [], space ++ [125], htexts, List.length_map .., ?_, ?_, ?_, rfl⟩
  · rintro gap hgap b hb
    obtain ⟨-, -, rfl⟩ := List.mem_map.1 hgap
    cases hb
  · exact fun b hb ↦ absurd hb List.not_mem_nil
  · rw [tokens_spaces hspace]
    decide

theorem tell_slpi : Tell (some slpi.entry) slpi.group.calls :=
  ⟨by decide +kernel, by constructor <;> decide +kernel⟩

theorem tell_adsp : Tell (some adsp.entry) adsp.group.calls :=
  ⟨by decide +kernel, by constructor <;> decide +kernel⟩

theorem inOrder_slpi : slpi.entry.InOrder slpi.group.calls := by
  decide +kernel

theorem describe_slpi : Describe [some slpi.entry] [slpi.group] where
  wellFormed := List.forall_mem_singleton.2 (slpi_valid.wellFormed (Or.inl rfl))
  hasData := List.forall_mem_singleton.2 ⟨trivial, rfl, rfl, ⟨rfl, rfl, trivial⟩, trivial⟩
  tell := .cons tell_slpi .nil

theorem describe_slpi_adsp :
    Describe [some slpi.entry, some adsp.entry] [slpi.group, adsp.group] where
  wellFormed := List.forall_mem_cons.2 ⟨slpi_valid.wellFormed (Or.inl rfl),
    List.forall_mem_singleton.2 (adsp_valid.wellFormed (Or.inl rfl))⟩
  hasData := List.forall_mem_cons.2 ⟨⟨trivial, rfl, rfl, ⟨rfl, rfl, trivial⟩, trivial⟩,
    List.forall_mem_singleton.2
      ⟨trivial, rfl, rfl, ⟨rfl, rfl, rfl, ⟨rfl, trivial⟩, trivial⟩, trivial⟩⟩
  tell := .cons tell_slpi (.cons tell_adsp .nil)

theorem groupText_slpi : GroupText slpi.group slpi.group.text :=
  ⟨by decide +kernel, by decide +kernel⟩

theorem rearranged_slpi_adsp :
    RearrangedGroups [slpi.group, adsp.group] [slpiReversed, adspRearranged] := by
  refine .cons ⟨rfl, .of_perm (List.reverse_perm _).symm⟩ (.cons ⟨rfl, ?_⟩ .nil)
  refine .trans (.of_perm (@List.perm_append_comm _ [_, _] [_, _])) (.cons _ ?_)
  exact .group _ (.swap ..) (.refl _)

theorem loadFile_rearranged_slpi_adsp :
    ((QshJsonParser.fresh 0).loadFile 1000 (fun _ ↦ [])
        (.content (groupsFile [slpiReversed, adspRearranged] [10]))).ret =
        ((QshJsonParser.fresh 0).loadFile 1000 (fun _ ↦ [])
          (.content (groupsFile [slpi.group, adsp.group] [10]))).ret ∧
      SameAnswers
        ((QshJsonParser.fresh 0).loadFile 1000 (fun _ ↦ [])
          (.content (groupsFile [slpi.group, adsp.group] [10]))).parser
        ((QshJsonParser.fresh 0).loadFile 1000 (fun _ ↦ [])
          (.content (groupsFile [slpiReversed, adspRearranged] [10]))).parser :=
  loadFile_rearranged describe_slpi_adsp rearranged_slpi_adsp
    (.cons inOrder_slpi (.cons (by decide +kernel : adsp.entry.InOrder _) .nil))
    (.cons (by decide +kernel : slpi.entry.InOrder _)
      (.cons (by decide +kernel : adsp.entry.InOrder _) .nil))
    (isText_groupsFile (.cons groupText_slpi
      (.cons ⟨by decide +kernel, by decide +kernel⟩ .nil))
      (List.forall_mem_singleton.2 (by decide)))
    (isText_groupsFile (.cons ⟨by decide +kernel, by decide +kernel⟩
      (.cons ⟨by decide +kernel, by decide +kernel⟩ .nil))
      (List.forall_mem_singleton.2 (by decide)))
    (by decide +kernel) (by decide +kernel) (by decide +kernel) (by decide +kernel)
    (fun _ ↦ []) (fun _ ↦ []) 0

/-- The order does matter where the service comes ahead of the type, which is then not known yet;
and white space does where it makes the file 4 GiB long. -/
theorem not_loadFile_rearranged_all :
    (∃ told gs gs' gaps c c', Describe told gs ∧ RearrangedGroups gs gs' ∧
      List.Forall₂ Ordered told (gs.map TopGroup.calls) ∧ IsText gs gaps c ∧ IsText gs' gaps c' ∧
      c.length < 2 ^ 32 ∧ c'.length < 2 ^ 32 ∧
        ¬ SameAnswers ((QshJsonParser.fresh 0).loadFile 1000 (fun _ ↦ []) (.content c)).parser
          ((QshJsonParser.fresh 0).loadFile 1000 (fun _ ↦ []) (.content c')).parser) ∧
    ∃ told gs gaps c c', Describe told gs ∧ List.Forall₂ Ordered told (gs.map TopGroup.calls) ∧
      IsText gs gaps c ∧ IsText gs gaps c' ∧
        ∀ fuel, ((QshJsonParser.fresh 0).loadFile fuel (fun _ ↦ []) (.content c')).ret ≠
          ((QshJsonParser.fresh 0).loadFile 1000 (fun _ ↦ []) (.content c)).ret := by
  have hslpi : List.Forall₂ GroupText [slpi.group] [slpi.group.text] := .cons groupText_slpi .nil
  have hfirst : List.Forall₂ GroupText [slpiServiceFirst] [slpiServiceFirst.text] :=
    .cons ⟨by decide +kernel, by decide +kernel⟩ .nil
  have horder : List.Forall₂ Ordered [some slpi.entry] ([slpi.group].map TopGroup.calls) :=
    .cons inOrder_slpi .nil
  have hline : ∀ b ∈ [(10 : UInt8)], isspace b = true := List.forall_mem_singleton.2 (by decide)
  have htext : IsText [slpi.group] [[]] (groupsFile [slpi.group] [10]) :=
    isText_groupsFile hslpi hline
  have htext' : IsText [slpiServiceFirst] [[]] (groupsFile [slpiServiceFirst] [10]) :=
    isText_groupsFile hfirst hline
  refine ⟨⟨_, _, _, _, _, _, describe_slpi, ?_, horder, htext, htext', by decide +kernel,
    by decide +kernel, fun h ↦ absurd (h.getCommType 1) (by decide +kernel)⟩, ?_⟩
  · refine .cons ⟨rfl, .cons _ (.cons _ (.cons _ (.group _ (.swap ..) .nil)))⟩ .nil
  · set space := List.replicate (2 ^ 32 - (groupsFile [slpi.group] []).length) (32 : UInt8)
      with hspace
    refine ⟨_, _, _, _, groupsFile [slpi.group] space, describe_slpi, horder, htext,
      isText_groupsFile hslpi fun b hb ↦ ?_, fun fuel ↦ ?_⟩
    · rw [List.eq_of_mem_replicate hb]
      decide
    · have hlen : (groupsFile [slpi.group] space).length = 2 ^ 32 := by
        have hle : (groupsFile [slpi.group] []).length ≤ 2 ^ 32 := by decide +kernel
        have hadd : (groupsFile [slpi.group] space).length =
            space.length + (groupsFile [slpi.group] []).length := by
          simp only [groupsFile, List.map_cons, List.map_nil, List.zip_cons_cons,
            List.zip_nil_right, spaced, List.length_cons, List.length_append, List.length_nil]
          omega
        rw [hadd, hspace, List.length_replicate, Nat.sub_add_cancel hle]
      rw [loadFile_of_length_mod (by rw [hlen, Nat.mod_self])]
      decide +kernel

end SensingHub.Json
