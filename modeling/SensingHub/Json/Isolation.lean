import SensingHub.Json.Probe
import SensingHub.Json.Sections
import Mathlib.Data.List.Perm.Subperm

/-!
# Isolation of hubs

Two groups that have no id in common should not affect each other: behind the first, the second is
entered as it would be on its own. `isolates_iff` says for which first groups this is so: those with
no white space behind them that leave nothing but a foreign communication type.
-/

namespace SensingHub.Json

open CLib (str atoi isspace isDigit digitsValue decimal)

/-! ### Groups as text -/

/-- The text of a group that is accepted, up to its closing bracket, with the calls it makes, all of
them with data. -/
structure AcceptedGroup (t : Bytes) (cs : List Call) : Prop where
  reads : Reads (.group cs) (tokens t) []
  data : ∀ c ∈ cs, c.data.isSome
  closed : t.getLast? = some 125

theorem AcceptedGroup.lex_append {t : Bytes} {cs : List Call} (h : AcceptedGroup t cs)
    (r : Bytes) : lex (t ++ r) = lex t ++ lex r := by
  refine Json.lex_append (b := 125) ?_ h.closed (by decide) r
  obtain ⟨ts, hts⟩ : [Token.byte 125] <:+ tokens t := h.reads.closed
  rw [← hts]
  exact List.getLast?_concat

/-- An accepted group is read, and what follows its text decides how the file goes on. -/
theorem AcceptedGroup.fileLoop {t : Bytes} {cs : List Call} (h : AcceptedGroup t cs)
    (stale : ℕ → Bytes) {r : Bytes} {fuel : ℕ} (hfuel : (lex (t ++ r)).length ≤ fuel)
    (s : Progress) :
    ∃ key, key ≠ str "config" ∧
      Format.fileLoop stale (fuel + 1) (lex (t ++ r)) s =
        Format.fileNext (fun ls ↦ Format.fileLoop stale fuel ls (s.calls stale cs))
          (fun ls ↦ some (.ended ls, s.calls stale cs)) (lex r) ∧
      Format.memberKeys (fuel + 1) (lex (t ++ r)) =
        Format.fileNext (fun ls ↦ key :: Format.memberKeys fuel ls) (fun _ ↦ [key]) (lex r) := by
  have hlex := h.lex_append r
  have htokens : (lex (t ++ r)).map Lexeme.token = tokens t ++ tokens r := by
    rw [hlex, List.map_append]
    rfl
  have hsuffix : lex r <:+ lex (t ++ r) := by
    rw [hlex]
    exact List.suffix_append ..
  have hreads := h.reads
  generalize tokens t = ts at htokens hreads
  cases hreads with
  | @group fuel' key ts _ _ hkey hgroup =>
    obtain ⟨body, rfl⟩ := Format.byte_of_group hgroup
    have happend : Format.group fuel' key (.byte 123 :: (body ++ tokens r)) = _ :=
      Format.group_append hgroup (tokens r)
    have hlen : (body ++ tokens r).length + 1 ≤ fuel := by
      have := congrArg List.length htokens
      simp only [List.length_map, List.length_append, List.length_cons] at this ⊢
      omega
    have hisSome : (Format.group fuel key (.byte 123 :: (body ++ tokens r))).isSome :=
      Format.group_isSome key hlen
    obtain ⟨x, hx⟩ := Option.isSome_iff_exists.1 hisSome
    rw [Format.group_unique hx happend] at hx
    exact ⟨key, hkey, Format.fileLoop_group hkey htokens hx hsuffix s,
      Format.memberKeys_group hkey htokens hx hsuffix⟩

/-- A comma with white space before it. -/
theorem lex_gap {gap : Bytes} (hgap : ∀ b ∈ gap, isspace b = true) (r : Bytes) :
    lex (gap ++ 44 :: r) = ⟨decide (gap ≠ []), .byte 44⟩ :: lex r := by
  have hcomma : lex (44 :: r) = ⟨false, .byte 44⟩ :: lex r := lex_byte (by decide) (by decide) r
  rcases gap with _ | ⟨b, gap⟩
  · exact hcomma
  · have hskip : (gap ++ 44 :: r).dropWhile isspace = 44 :: r := by
      rw [List.dropWhile_append_of_pos fun b hb ↦ hgap b (List.mem_cons_of_mem _ hb),
        List.dropWhile_cons_of_neg (by decide)]
    obtain ⟨gap', hlex⟩ := lex_of_dropWhile hskip (by decide) (by decide)
    rw [List.cons_append, lex_space (hgap b (List.mem_cons_self ..)), hlex]
    rfl

/-! ### Files of one and of two groups -/

/-- A file with one group. -/
def aloneFile (before b after : Bytes) : Bytes :=
  before ++ 123 :: (b ++ after)

/-- A file with two groups, and white space before the comma that separates them. -/
def pairFile (before a gap b after : Bytes) : Bytes :=
  before ++ 123 :: (a ++ (gap ++ 44 :: (b ++ after)))

section

variable {before a gap b after : Bytes} {cs cs' : List Call} {fuel : ℕ}

theorem loadFile_aloneFile (hb : AcceptedGroup b cs) (hbefore : ∀ x ∈ before, isspace x = true)
    (hafter : tokens after = [.byte 125]) (hlt : (aloneFile before b after).length < 2 ^ 32)
    (hfuel : (aloneFile before b after).length < fuel) (stale : ℕ → Bytes) (device : ℤ) :
    ((QshJsonParser.fresh device).loadFile fuel stale
        (.content (aloneFile before b after))).parser =
      { (QshJsonParser.fresh device).readCalls cs with mIsFileParsed := true } := by
  have hlen := length_lex_le (b ++ after)
  have hfuel' := hfuel
  rw [aloneFile, List.length_append, List.length_cons] at hfuel'
  obtain ⟨fuel, rfl⟩ : ∃ n, fuel = n + 1 := ⟨fuel - 1, by omega⟩
  have hle : (lex (b ++ after)).length ≤ fuel := by omega
  obtain ⟨key, hkey, hrun, hkeys⟩ := hb.fileLoop stale hle
    ⟨(QshJsonParser.fresh device).resetParserState, 0⟩
  rw [Format.fileNext_closing hafter] at hrun hkeys
  have hconfig : str "config" ∉ Format.memberKeys (fuel + 1) (lex (b ++ after)) := by
    rw [hkeys, List.mem_singleton]
    exact hkey.symm
  refine (loadFile_object hbefore rfl hlt hrun hconfig).2.trans ?_
  rw [Progress.parser_calls stale _ hb.data]
  rfl

/-- Behind white space the second group is not read; else it is read from what the first has
left. -/
theorem loadFile_pairFile (ha : AcceptedGroup a cs) (hb : AcceptedGroup b cs')
    (hgap : ∀ x ∈ gap, isspace x = true) (hbefore : ∀ x ∈ before, isspace x = true)
    (hafter : tokens after = [.byte 125]) (hlt : (pairFile before a gap b after).length < 2 ^ 32)
    (hfuel : (pairFile before a gap b after).length < fuel) (stale : ℕ → Bytes) (device : ℤ) :
    ((QshJsonParser.fresh device).loadFile fuel stale
        (.content (pairFile before a gap b after))).parser =
      { (QshJsonParser.fresh device).readCalls (if gap = [] then cs ++ cs' else cs) with
        mIsFileParsed := true } := by
  have hlenA := length_lex_le (a ++ (gap ++ 44 :: (b ++ after)))
  have hlenB := length_lex_le (b ++ after)
  have hfuel' := hfuel
  simp only [pairFile, List.length_append, List.length_cons] at hfuel' hlenA hlenB
  obtain ⟨fuel, rfl⟩ : ∃ n, fuel = n + 2 := ⟨fuel - 2, by omega⟩
  have hleA : (lex (a ++ (gap ++ 44 :: (b ++ after)))).length ≤ fuel + 1 := by omega
  have hleB : (lex (b ++ after)).length ≤ fuel := by omega
  obtain ⟨key, hkey, hrun, hkeys⟩ := ha.fileLoop stale hleA
    ⟨(QshJsonParser.fresh device).resetParserState, 0⟩
  rw [lex_gap hgap] at hrun hkeys
  by_cases hnil : gap = []
  · -- the second group is read from what the first has left
    obtain ⟨key', hkey', hrun', hkeys'⟩ := hb.fileLoop stale hleB
      (Progress.calls stale ⟨(QshJsonParser.fresh device).resetParserState, 0⟩ cs)
    rw [Format.fileNext_closing hafter] at hrun' hkeys'
    simp only [hnil, ne_eq, not_true, decide_false, Format.fileNext] at hrun hkeys
    rw [hrun'] at hrun
    rw [hkeys'] at hkeys
    have hconfig : str "config" ∉ Format.memberKeys (fuel + 2)
        (lex (a ++ (gap ++ 44 :: (b ++ after)))) := by
      rw [hnil, hkeys]
      simp [hkey.symm, hkey'.symm]
    rw [← hnil] at hrun
    refine (loadFile_object hbefore rfl hlt hrun hconfig).2.trans ?_
    rw [if_pos hnil, Progress.parser_calls stale _ hb.data, Progress.parser_calls stale _ ha.data,
      QshJsonParser.readCalls_append]
    rfl
  · -- the file ends behind the first group
    simp only [hnil, ne_eq, not_false_eq_true, decide_true, Format.fileNext] at hrun hkeys
    have hconfig : str "config" ∉ Format.memberKeys (fuel + 2)
        (lex (a ++ (gap ++ 44 :: (b ++ after)))) := by
      rw [hkeys, List.mem_singleton]
      exact hkey.symm
    refine (loadFile_object hbefore rfl hlt hrun hconfig).2.trans ?_
    rw [if_neg hnil, Progress.parser_calls stale _ ha.data]
    rfl

end

/-! ### A hub that is not mentioned -/

namespace Format

/-- A call takes three tokens at least. -/
theorem length_calls_of_member {loop : Bytes → List Token → Option GroupRead} {fuel : ℕ}
    {grpName : Bytes} {ts rest : List Token} {calls : List Call}
    (hloop : ∀ g ts calls rest, loop g ts = some ⟨calls, some rest⟩ →
      3 * calls.length + rest.length < ts.length)
    (h : member loop fuel grpName ts = some ⟨calls, some rest⟩) :
    3 * calls.length + rest.length ≤ ts.length := by
  unfold member at h
  rcases hpair : pair ts with _ | ⟨key, _ | value, next⟩ <;> rw [hpair] at h
  · cases h
  · have hlen : next.length + 2 ≤ ts.length := length_of_pair hpair
    simp only at h
    split_ifs at h
    · unfold groupWith at h
      split at h
      · have := hloop _ _ _ _ h
        simp only [List.length_cons] at hlen
        omega
      · cases h
    · obtain ⟨⟨data, rest'⟩, hi, hcalls⟩ := Option.map_eq_some_iff.1 h
      obtain ⟨rfl, hrest⟩ := GroupRead.mk.inj hcalls
      have := length_of_item hi hrest
      simp only [List.length_singleton]
      omega
  · have hlen : next.length + 2 ≤ ts.length := length_of_pair hpair
    cases h
    simp only [List.length_nil]
    omega

theorem length_calls_of_groupLoop {fuel : ℕ} {grpName : Bytes} {ts rest : List Token}
    {calls : List Call} (h : groupLoop fuel grpName ts = some ⟨calls, some rest⟩) :
    3 * calls.length + rest.length < ts.length := by
  induction fuel generalizing grpName ts rest calls with
  | zero => cases h
  | succ fuel ih =>
    obtain ⟨before, after, next, rfl, hm, hsep⟩ := groupLoop_cases h
    have hmember := length_calls_of_member (fun g ts calls rest ↦ ih) hm
    rw [List.length_append]
    rcases separator_cases hsep with ⟨ts', rfl, hloop⟩ | ⟨rfl, rfl⟩
    · have := ih hloop
      simp only [List.length_cons] at hmember
      omega
    · simp only [List.length_cons, List.length_nil] at hmember ⊢
      omega

theorem length_calls_of_group {fuel : ℕ} {key : Bytes} {ts rest : List Token} {calls : List Call}
    (h : group fuel key ts = some ⟨calls, some rest⟩) : 3 * calls.length ≤ ts.length := by
  unfold group groupWith at h
  split at h
  · have := length_calls_of_groupLoop h
    simp only [List.length_cons]
    omega
  · cases h

end Format

theorem AcceptedGroup.length_le {t : Bytes} {cs : List Call} (h : AcceptedGroup t cs) :
    3 * cs.length ≤ t.length := by
  have hlen : (tokens t).length ≤ t.length := by
    rw [tokens, List.length_map]
    exact length_lex_le t
  have hreads := h.reads
  generalize tokens t = ts at hlen hreads
  cases hreads with
  | group _ hgroup =>
    have := Format.length_calls_of_group hgroup
    simp only [List.length_cons] at hlen
    omega

/-- The number that a call mentions, whether as a hub id or as a platform id. -/
def Call.number (c : Call) : ℕ :=
  if c.key = str "sensing_hub_id" then (atoi (c.data.getD [])).toNat
  else digitsValue (c.data.getD [])

/-- There are more ids than calls to mention them. -/
theorem exists_unmentioned {cs : List Call} (h : cs.length < 2 ^ 31) :
    ∃ n : ℕ, n < 2 ^ 31 ∧ ¬ MentionsHub cs n ∧ ¬ MentionsPlatform cs (decimal 10 n) := by
  obtain ⟨n, hn, hnot⟩ : ∃ n ≤ cs.length, n ∉ cs.map Call.number := by
    by_contra hnone
    have hsub : List.range (cs.length + 1) ⊆ cs.map Call.number := by
      intro n hn
      by_contra hnot
      exact hnone ⟨n, Nat.le_of_lt_succ (List.mem_range.1 hn), hnot⟩
    have hlen := (List.nodup_range.subperm hsub).length_le
    rw [List.length_range, List.length_map] at hlen
    omega
  refine ⟨n, by omega, ?_, ?_⟩
  · rintro ⟨c, hc, hkey, hvalue⟩
    refine hnot (List.mem_map.2 ⟨c, hc, ?_⟩)
    rw [Call.number, if_pos hkey, hvalue, Int.toNat_natCast]
  · rintro ⟨c, hc, hkey, hvalue⟩
    have hne : c.key ≠ str "sensing_hub_id" := by
      rw [hkey]
      decide
    refine hnot (List.mem_map.2 ⟨c, hc, ?_⟩)
    rw [Call.number, if_neg hne, hvalue, CLib.digitsValue_decimal (by omega)]

/-! ### Isolation -/

/-- Whatever group comes behind the group `a`, if the two have no id in common and the second on its
own describes a hub, the answers for this hub are those of the second on its own. -/
def Isolates (device : ℤ) (stale : ℕ → Bytes) (a gap : Bytes) (cs : List Call) : Prop :=
  ∀ (before b after : Bytes) (cs' : List Call) (p : Bytes) (h : ℤ) (fuel : ℕ),
    (∀ x ∈ before, isspace x = true) → AcceptedGroup b cs' → tokens after = [.byte 125] →
    Apart cs cs' → (pairFile before a gap b after).length < 2 ^ 32 →
    (pairFile before a gap b after).length < fuel →
    ((QshJsonParser.fresh device).loadFile fuel stale
      (.content (aloneFile before b after))).parser.Holds p h →
    SameHub
      ((QshJsonParser.fresh device).loadFile fuel stale
        (.content (aloneFile before b after))).parser
      ((QshJsonParser.fresh device).loadFile fuel stale
        (.content (pairFile before a gap b after))).parser p h

theorem length_aloneFile_le (before a gap b after : Bytes) :
    (aloneFile before b after).length ≤ (pairFile before a gap b after).length := by
  simp only [aloneFile, pairFile, List.length_append, List.length_cons]
  omega

/-- A group that leaves nothing that matters isolates what comes behind it. -/
theorem isolates_of_harmless {a : Bytes} {cs : List Call} (ha : AcceptedGroup a cs)
    (hs : (Scratch.initial.readCalls cs).Harmless) (device : ℤ) (stale : ℕ → Bytes) :
    Isolates device stale a [] cs := by
  intro before b after cs' p h fuel hbefore hb hafter hapart hlt hfuel hholds
  have hle := length_aloneFile_le before a [] b after
  rw [loadFile_aloneFile hb hbefore hafter (by omega) (by omega)] at hholds ⊢
  rw [loadFile_pairFile ha hb (fun x hx ↦ absurd hx List.not_mem_nil) hbefore hafter hlt hfuel,
    if_pos rfl, QshJsonParser.readCalls_append]
  have hagree : Agree ((QshJsonParser.fresh device).readCalls cs') _ p h :=
    agree_of_harmless hs hapart ⟨hholds.name, hholds.comm⟩
  exact Agree.sameHub ⟨hagree.name, hagree.comm, hagree.hubName⟩

/-- The text of a group as a tree is one of an accepted group. -/
theorem GroupText.acceptedGroup {g : TopGroup} {t : Bytes} (h : GroupText g t) (hg : g.WellFormed)
    (hdata : ∀ c ∈ g.calls, c.data.isSome) : AcceptedGroup t g.calls where
  reads := by
    have hgroup : Format.group ((membersTokens g.members).length + 1) g.name
        (.byte 123 :: (membersTokens g.members ++ .byte 125 :: [])) = _ :=
      Format.group_members g.name hg.members_ne hg.members [] (Nat.lt_succ_self _)
    rw [h.tokens]
    exact Reads.group hg.name_ne hgroup
  data := hdata
  closed := h.closed

theorem Probe.acceptedGroup {d : Bytes} (hd : d.length ≤ 14) (hquote : 34 ∉ d) (hnul : 0 ∉ d)
    (π : Probe) : AcceptedGroup (π.group d).text (π.calls d) := by
  rw [← π.calls_group hd]
  refine (π.groupText hquote hnul).acceptedGroup (π.wellFormed d) ?_
  rw [π.calls_group hd]
  exact π.isSome_data d

/-- A parser that has read a group knows nothing of a hub the group does not mention. -/
theorem unaware_readCalls {device : ℤ} {cs : List Call} {p : Bytes} {h : ℤ} (hp : p ≠ [])
    (hh : h ≠ -1) (hplatform : ¬ MentionsPlatform cs p) (hhub : ¬ MentionsHub cs h) :
    ((QshJsonParser.fresh device).readCalls cs).Unaware p h := by
  have hplatformFrame : PlatformFrame (QshJsonParser.fresh device)
      ((QshJsonParser.fresh device).readCalls cs) p :=
    platformFrame_readCalls hp hp.symm hplatform
  have hhubFrame : HubFrame (QshJsonParser.fresh device)
      ((QshJsonParser.fresh device).readCalls cs) h := hubFrame_readCalls hh hh.symm hhub
  exact ⟨hplatformFrame.name, hhubFrame.comm, hhubFrame.scratch, hplatformFrame.scratch⟩

/-- A group that leaves anything else, or is followed by white space, does not. -/
theorem harmless_of_isolates {a gap : Bytes} {cs : List Call} (ha : AcceptedGroup a cs)
    (hgap : ∀ x ∈ gap, isspace x = true) (hroom : a.length + gap.length + 400 ≤ 2 ^ 32)
    {device : ℤ} {stale : ℕ → Bytes} (h : Isolates device stale a gap cs) :
    gap = [] ∧ (Scratch.initial.readCalls cs).Harmless := by
  have hcount : cs.length < 2 ^ 31 := by
    have := ha.length_le
    omega
  obtain ⟨n, hn, hhub, hplatform⟩ := exists_unmentioned hcount
  set d := decimal 10 n with hd
  have hdlen : d.length = 10 := CLib.length_decimal 10 n
  have hdne : d ≠ [] := by
    rintro hnil
    rw [hnil] at hdlen
    cases hdlen
  have hdigit : ∀ b ∈ d, isDigit b = true := fun b hb ↦ CLib.isDigit_of_mem_decimal hb
  have hatoi : atoi d = (n : ℤ) := by
    have hvalue : digitsValue d = n := CLib.digitsValue_decimal (by omega)
    rw [CLib.atoi_digits hdne hdigit (by omega), hvalue]
  have hne : (n : ℤ) ≠ -1 := by omega
  have hunaware : ((QshJsonParser.fresh device).readCalls cs).Unaware d n :=
    unaware_readCalls hdne hne hplatform hhub
  -- each probe for this hub is isolated
  have hsame (π : Probe) : SameHub ((QshJsonParser.fresh device).readCalls (π.calls d))
      ((QshJsonParser.fresh device).readCalls (if gap = [] then cs ++ π.calls d else cs)) d n := by
    have hquote : 34 ∉ d := fun hmem ↦ absurd (hdigit 34 hmem) (by decide)
    have hnul : 0 ∉ d := fun hmem ↦ absurd (hdigit 0 hmem) (by decide)
    have hb := π.acceptedGroup (by omega) hquote hnul
    have hapart : Apart cs (π.calls d) := by
      refine ⟨fun h' hcs hπ ↦ hhub ?_, fun p hcs hπ ↦ hplatform ?_⟩
      · rw [← hatoi, ← (π.mentions d).1 h' hπ]
        exact hcs
      · rw [← (π.mentions d).2 p hπ]
        exact hcs
    have htext := π.length_text hdlen
    have hlt : (pairFile [] a gap (π.group d).text [125]).length < 2 ^ 32 := by
      simp only [pairFile, List.length_append, List.length_cons, List.length_nil]
      omega
    have hle := length_aloneFile_le [] a gap (π.group d).text [125]
    have hafter : tokens [125] = [.byte 125] := by decide
    have hspaces : ∀ x ∈ ([] : Bytes), isspace x = true := fun x hx ↦ absurd hx List.not_mem_nil
    have halone := loadFile_aloneFile hb hspaces hafter (by omega)
      (Nat.lt_succ_of_le hle) stale device
    have hpair := loadFile_pairFile ha hb hgap hspaces hafter hlt (Nat.lt_succ_self _) stale device
    have hisolated := h [] (π.group d).text [125] (π.calls d) d n _ hspaces hb hafter hapart hlt
      (Nat.lt_succ_self _)
    rw [halone, hpair] at hisolated
    obtain ⟨hname, t, hcomm⟩ := π.readCalls_fresh hdne hatoi hne device
    have hq := hisolated ⟨hname, by rw [hcomm]; rfl⟩
    exact ⟨hq.getHubId, hq.getCommType, hq.getCommHandleAttrs, hq.getHubName⟩
  have hnil : gap = [] := by
    by_contra hgapne
    have hid := (hsame .platformLast).getHubId
    rw [if_neg hgapne, ((Probe.platformLast).answers_fresh hdne hatoi hne device).1,
      QshJsonParser.getHubId, hunaware.name] at hid
    exact hne hid.symm
  refine ⟨hnil, ?_⟩
  by_contra hs
  have hscratch :
      ((QshJsonParser.fresh device).readCalls cs).scratch = Scratch.initial.readCalls cs :=
    scratch_readCalls ..
  rw [← hscratch] at hs
  obtain ⟨π, hπ⟩ := Probe.exists_leak hdne hatoi hne hunaware hs device
  have hq := hsame π
  rw [if_pos hnil, QshJsonParser.readCalls_append] at hq
  exact hπ hq

/-- **A group isolates what comes behind it exactly if there is no white space behind it and it
leaves nothing but a foreign communication type**: this is enough, and it is needed if there is room
in the file for another group. -/
theorem isolates_iff {a gap : Bytes} {cs : List Call} (ha : AcceptedGroup a cs)
    (hgap : ∀ x ∈ gap, isspace x = true) (device : ℤ) (stale : ℕ → Bytes) :
    (gap = [] ∧ (Scratch.initial.readCalls cs).Harmless → Isolates device stale a gap cs) ∧
      (a.length + gap.length + 400 ≤ 2 ^ 32 → Isolates device stale a gap cs →
        gap = [] ∧ (Scratch.initial.readCalls cs).Harmless) := by
  refine ⟨?_, fun hroom h ↦ harmless_of_isolates ha hgap hroom h⟩
  rintro ⟨rfl, hs⟩
  exact isolates_of_harmless ha hs device stale

theorem acceptedGroup_slpi : AcceptedGroup slpi.group.text slpi.group.calls :=
  GroupText.acceptedGroup ⟨by decide +kernel, by decide +kernel⟩
    (slpi_valid.wellFormed (Or.inl rfl)) (by decide +kernel)

/-- A complete hub isolates what comes behind it. -/
theorem isolates_slpi : Isolates 0 (fun _ ↦ []) slpi.group.text [] slpi.group.calls :=
  (isolates_iff acceptedGroup_slpi (fun _ h ↦ absurd h List.not_mem_nil) 0 (fun _ ↦ [])).1
    ⟨rfl, by decide +kernel⟩

/-- The group of a hub whose platform id has been left out. -/
def namelessGroup : TopGroup :=
  ⟨slpi.name, [dataItem (str "sensing_hub_id") slpi.id, slpi.clientComm]⟩

/-- Its hub id is entered for the platform id of the hub behind it. -/
theorem not_sameHub_namelessGroup :
    AcceptedGroup namelessGroup.text namelessGroup.calls ∧
      AcceptedGroup adsp.group.text adsp.group.calls ∧
      Apart namelessGroup.calls adsp.group.calls ∧
      ((QshJsonParser.fresh 0).loadFile 1000 (fun _ ↦ [])
        (.content (aloneFile [] adsp.group.text [125]))).parser.Holds adsp.platform adsp.hubId ∧
      ¬ SameHub
        ((QshJsonParser.fresh 0).loadFile 1000 (fun _ ↦ [])
          (.content (aloneFile [] adsp.group.text [125]))).parser
        ((QshJsonParser.fresh 0).loadFile 1000 (fun _ ↦ [])
          (.content (pairFile [] namelessGroup.text [] adsp.group.text [125]))).parser
        adsp.platform adsp.hubId := by
  refine ⟨?_, ?_, ?_, ⟨by decide +kernel, by decide +kernel⟩, fun h ↦ ?_⟩
  · have hcomm : slpi.clientComm.WellFormed := ⟨by decide, slpi_valid.transport.members⟩
    exact GroupText.acceptedGroup ⟨by decide +kernel, by decide +kernel⟩
      ⟨by decide +kernel, List.cons_ne_nil _ _, dataItem_wellFormed (by decide) _, hcomm, trivial⟩
      (by decide +kernel)
  · exact GroupText.acceptedGroup ⟨by decide +kernel, by decide +kernel⟩
      (adsp_valid.wellFormed (Or.inl rfl)) (by decide +kernel)
  · have hdiffer : ∀ c ∈ namelessGroup.calls, ∀ c' ∈ adsp.group.calls, c.key = c'.key →
        c.key = str "sensing_hub_id" → atoi (c.data.getD []) ≠ atoi (c'.data.getD []) := by
      decide +kernel
    have hnameless : ∀ c ∈ namelessGroup.calls, c.key ≠ str "platform_id" := by decide +kernel
    constructor
    · rintro h ⟨c, hc, hkey, hvalue⟩ ⟨c', hc', hkey', hvalue'⟩
      exact hdiffer c hc c' hc' (hkey.trans hkey'.symm) hkey (hvalue.trans hvalue'.symm)
    · rintro p ⟨c, hc, hkey, -⟩
      exact absurd hkey (hnameless c hc)
  · exact absurd h.getHubId (by decide +kernel)

end SensingHub.Json
