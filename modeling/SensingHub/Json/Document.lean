import SensingHub.Json.Format

/-!
# Documents

The members of a group as a tree: a string, an item with strings in it, or a group within the group.
A tree is written down as tokens, and reading them back makes one call of `updateSensingHubInfo` for
every item, in the order of the tree.
-/

namespace SensingHub.Json

open CLib (str)

/-- A member of a group. -/
inductive Member
  | string (key value : Bytes)
  | item (key : Bytes) (strings : List (Bytes × Bytes))
  | group (key : Bytes) (members : List Member)

/-! ### Tokens -/

/-- A key and its colon. -/
def keyTokens (key : Bytes) : List Token :=
  [.quoted key, .byte 58]

/-- The strings of an item, separated by commas. -/
def stringsTokens : List (Bytes × Bytes) → List Token
  | [] => []
  | [(key, value)] => keyTokens key ++ [.quoted value]
  | (key, value) :: strings => keyTokens key ++ .quoted value :: .byte 44 :: stringsTokens strings

mutual

/-- The tokens of a member. -/
def Member.tokens : Member → List Token
  | .string key value => keyTokens key ++ [.quoted value]
  | .item key strings => keyTokens key ++ .byte 123 :: (stringsTokens strings ++ [.byte 125])
  | .group key members => keyTokens key ++ .byte 123 :: (membersTokens members ++ [.byte 125])

/-- The tokens of the members of a group, separated by commas. -/
def membersTokens : List Member → List Token
  | [] => []
  | [m] => m.tokens
  | m :: ms => m.tokens ++ .byte 44 :: membersTokens ms

end

/-! ### Well-formed trees -/

mutual

/-- No object is empty, and the keys of groups, but not of items, begin with a dot. -/
def Member.WellFormed : Member → Prop
  | .string _ _ => True
  | .item key strings => key.head? ≠ some 46 ∧ strings ≠ []
  | .group key members => key.head? = some 46 ∧ members ≠ [] ∧ MembersWellFormed members

/-- Well-formed members of a group. -/
def MembersWellFormed : List Member → Prop
  | [] => True
  | m :: ms => m.WellFormed ∧ MembersWellFormed ms

end

theorem membersWellFormed_append {ms ms' : List Member} :
    MembersWellFormed (ms ++ ms') ↔ MembersWellFormed ms ∧ MembersWellFormed ms' := by
  induction ms with
  | nil => simp [MembersWellFormed]
  | cons m ms ih => simp [MembersWellFormed, ih, and_assoc]

/-! ### Calls -/

/-- What the strings of an item write into `itemValue`. -/
def stringsData : List (Bytes × Bytes) → Option Bytes → Option Bytes
  | [], data => data
  | (key, value) :: strings, data => stringsData strings (Format.itemData key value data)

mutual

/-- The calls of `updateSensingHubInfo` that a member of the group `grpName` makes. -/
def Member.calls (grpName : Bytes) : Member → List Call
  | .string _ _ => []
  | .item key strings => [⟨grpName, key, stringsData strings none⟩]
  | .group key members => membersCalls key members

/-- The calls that the members of a group make. -/
def membersCalls (grpName : Bytes) : List Member → List Call
  | [] => []
  | m :: ms => m.calls grpName ++ membersCalls grpName ms

end

/-! ### Calls that all have data -/

/-- A call of `updateSensingHubInfo` that has data. -/
def QshJsonParser.readCall (p : QshJsonParser) (c : Call) : QshJsonParser :=
  p.updateSensingHubInfo c.grpName c.key (c.data.getD [])

/-- Such calls in order. -/
def QshJsonParser.readCalls (p : QshJsonParser) (cs : List Call) : QshJsonParser :=
  cs.foldl QshJsonParser.readCall p

theorem QshJsonParser.readCalls_append (p : QshJsonParser) (cs cs' : List Call) :
    p.readCalls (cs ++ cs') = (p.readCalls cs).readCalls cs' :=
  List.foldl_append ..

/-- The uninitialised array does not matter where every item has data. -/
theorem Progress.parser_calls (stale : ℕ → Bytes) (s : Progress) {cs : List Call}
    (h : ∀ c ∈ cs, c.data.isSome) : (s.calls stale cs).parser = s.parser.readCalls cs := by
  induction cs generalizing s with
  | nil => rfl
  | cons c cs ih =>
    obtain ⟨data, hdata⟩ := Option.isSome_iff_exists.1 (h c (List.mem_cons_self ..))
    have hcall : (s.call stale c).parser = s.parser.readCall c := by
      rw [Progress.call, QshJsonParser.readCall, hdata]
      rfl
    have hcs := ih (s.call stale c) fun c' hc' ↦ h c' (List.mem_cons_of_mem _ hc')
    rw [hcall] at hcs
    exact hcs

/-! ### Reading a tree back -/

namespace Format

theorem pair_object (key : Bytes) (rest : List Token) :
    pair (keyTokens key ++ .byte 123 :: rest) = some ⟨key, none, .byte 123 :: rest⟩ := rfl

theorem itemLoop_strings {fuel : ℕ} {strings : List (Bytes × Bytes)} (hne : strings ≠ [])
    {rest : List Token} (hfuel : (stringsTokens strings).length < fuel) (data : Option Bytes) :
    itemLoop fuel (stringsTokens strings ++ .byte 125 :: rest) data =
      some ⟨stringsData strings data, some rest⟩ := by
  induction strings generalizing fuel data with
  | nil => exact absurd rfl hne
  | cons s strings ih =>
    obtain ⟨fuel, rfl⟩ : ∃ n, fuel = n + 1 := ⟨fuel - 1, by omega⟩
    obtain ⟨key, value⟩ := s
    rcases strings with _ | ⟨s', strings⟩
    · rfl
    · have hlen : (stringsTokens (s' :: strings)).length < fuel := by
        simp only [stringsTokens, keyTokens, List.length_append, List.length_cons] at hfuel ⊢
        omega
      exact ih (List.cons_ne_nil _ _) hlen (itemData key value data)

/-- What follows the tokens of a member decides how the group goes on. -/
theorem groupLoop_succ {fuel : ℕ} {grpName : Bytes} {ts rest : List Token} {calls : List Call}
    (h : member (groupLoop fuel) fuel grpName ts = some ⟨calls, some rest⟩) :
    groupLoop (fuel + 1) grpName ts =
      (separator (groupLoop fuel grpName) rest).map fun r ↦ ⟨calls ++ r.calls, r.rest⟩ := by
  rw [groupLoop, h]
  rfl

mutual

/-- A member is read. -/
theorem member_tokens {fuel : ℕ} (grpName : Bytes) (m : Member) (hm : m.WellFormed)
    (rest : List Token) (hfuel : m.tokens.length ≤ fuel) :
    member (groupLoop fuel) fuel grpName (m.tokens ++ rest) =
      some ⟨m.calls grpName, some rest⟩ := by
  match m with
  | .string key value => simp [member, Member.tokens, Member.calls, keyTokens, pair, pairValue]
  | .item key strings =>
    have hlen : (stringsTokens strings).length < fuel := by
      simp only [Member.tokens, keyTokens, List.length_append, List.length_cons] at hfuel
      omega
    have hitem : itemLoop fuel (stringsTokens strings ++ .byte 125 :: rest) none = _ :=
      itemLoop_strings hm.2 hlen none
    rw [Member.tokens, List.append_assoc, List.cons_append, List.append_assoc, member, pair_object]
    simp only [if_neg hm.1, item]
    rw [List.singleton_append, hitem]
    simp [Member.calls]
  | .group key members =>
    have hlen : (membersTokens members).length < fuel := by
      simp only [Member.tokens, keyTokens, List.length_append, List.length_cons] at hfuel
      omega
    rw [Member.tokens, List.append_assoc, List.cons_append, List.append_assoc, member, pair_object]
    simp only [if_pos hm.1, groupWith]
    rw [List.singleton_append, groupLoop_members key members hm.2.1 hm.2.2 rest hlen, Member.calls]

/-- The members of a group are read. -/
theorem groupLoop_members {fuel : ℕ} (grpName : Bytes) (members : List Member)
    (hne : members ≠ []) (hmembers : MembersWellFormed members) (rest : List Token)
    (hfuel : (membersTokens members).length < fuel) :
    groupLoop fuel grpName (membersTokens members ++ .byte 125 :: rest) =
      some ⟨membersCalls grpName members, some rest⟩ := by
  obtain ⟨fuel, rfl⟩ : ∃ n, fuel = n + 1 := ⟨fuel - 1, by omega⟩
  match members with
  | [] => exact absurd rfl hne
  | [m] =>
    rw [membersTokens] at hfuel ⊢
    rw [groupLoop_succ (member_tokens grpName m hmembers.1 _ (by omega))]
    simp [separator, membersCalls]
  | m :: m' :: ms =>
    have hm : membersTokens (m :: m' :: ms) = m.tokens ++ .byte 44 :: membersTokens (m' :: ms) := by
      rw [membersTokens]
      exact fun h ↦ by cases h
    rw [hm, List.length_append, List.length_cons] at hfuel
    rw [hm, List.append_assoc, List.cons_append,
      groupLoop_succ (member_tokens grpName m hmembers.1 _ (by omega))]
    simp only [separator]
    rw [groupLoop_members grpName (m' :: ms) (List.cons_ne_nil _ _) hmembers.2 rest (by omega)]
    simp [membersCalls]

end

/-- **The members of a group are read back as they were written.** -/
theorem group_members {fuel : ℕ} (grpName : Bytes) {members : List Member} (hne : members ≠ [])
    (hmembers : MembersWellFormed members) (rest : List Token)
    (hfuel : (membersTokens members).length < fuel) :
    group fuel grpName (.byte 123 :: (membersTokens members ++ .byte 125 :: rest)) =
      some ⟨membersCalls grpName members, some rest⟩ :=
  groupLoop_members grpName members hne hmembers rest hfuel

end Format

/-! ### Files of groups -/

/-- A top-level group. -/
structure TopGroup where
  name : Bytes
  members : List Member

/-- A top-level group that is no config section and has no empty object in it. -/
structure TopGroup.WellFormed (g : TopGroup) : Prop where
  name_ne : g.name ≠ str "config"
  members_ne : g.members ≠ []
  members : MembersWellFormed g.members

/-- The calls a top-level group makes. -/
def TopGroup.calls (g : TopGroup) : List Call :=
  membersCalls g.name g.members

/-- The text of a top-level group, from its name to its closing bracket. -/
structure GroupText (g : TopGroup) (t : Bytes) : Prop where
  tokens : tokens t = (Member.group g.name g.members).tokens
  /-- There is no white space behind the closing bracket. -/
  closed : t.getLast? = some 125

/-- Texts separated by commas, and what stands behind them. -/
def commaSeparated : List Bytes → Bytes → Bytes
  | [], after => after
  | [t], after => t ++ after
  | t :: ts, after => t ++ 44 :: commaSeparated ts after

theorem GroupText.lex_append {g : TopGroup} {t : Bytes} (h : GroupText g t) (r : Bytes) :
    lex (t ++ r) = lex t ++ lex r := by
  refine Json.lex_append (b := 125) ?_ h.closed (by decide) r
  rw [h.tokens, Member.tokens, ← List.cons_append, ← List.append_assoc]
  exact List.getLast?_concat

namespace Format

/-- Before a closing bracket the loop over the top-level members ends. -/
theorem fileNext_closing {α : Type*} {after : Bytes} (hafter : tokens after = [.byte 125])
    (next done : List Lexeme → α) : fileNext next done (lex after) = done (lex after) := by
  unfold fileNext
  split
  · next heq =>
    rw [tokens, heq] at hafter
    cases hafter
  · rfl

/-- A top-level group is read, and what follows its text decides how the file goes on. -/
theorem fileLoop_groupText (stale : ℕ → Bytes) {g : TopGroup} {t : Bytes} (h : GroupText g t)
    (hg : g.WellFormed) {r : Bytes} {fuel : ℕ} (hfuel : (lex (t ++ r)).length ≤ fuel)
    (s : Progress) :
    fileLoop stale (fuel + 1) (lex (t ++ r)) s =
        fileNext (fun ls ↦ fileLoop stale fuel ls (s.calls stale g.calls))
          (fun ls ↦ some (.ended ls, s.calls stale g.calls)) (lex r) ∧
      memberKeys (fuel + 1) (lex (t ++ r)) =
        fileNext (fun ls ↦ g.name :: memberKeys fuel ls) (fun _ ↦ [g.name]) (lex r) := by
  have hlex := h.lex_append r
  have htokens : (lex (t ++ r)).map Lexeme.token =
      .quoted g.name :: .byte 58 :: .byte 123 ::
        (membersTokens g.members ++ .byte 125 :: (lex r).map Lexeme.token) := by
    rw [hlex, List.map_append, show (lex t).map Lexeme.token = _ from h.tokens, Member.tokens]
    simp [keyTokens]
  have hlen := congrArg List.length htokens
  simp only [List.length_map, List.length_cons, List.length_append] at hlen
  have hgroup : group fuel g.name (.byte 123 :: (membersTokens g.members ++
      .byte 125 :: (lex r).map Lexeme.token)) = _ :=
    group_members g.name hg.members_ne hg.members ((lex r).map Lexeme.token) (by omega)
  have hsuffix : lex r <:+ lex (t ++ r) := by
    rw [hlex]
    exact List.suffix_append _ _
  exact ⟨fileLoop_group hg.name_ne htokens hgroup hsuffix s,
    memberKeys_group hg.name_ne htokens hgroup hsuffix⟩

/-- **A file of groups is read to its end.** -/
theorem fileLoop_groups (stale : ℕ → Bytes) {gs : List TopGroup} {texts : List Bytes}
    (htexts : List.Forall₂ GroupText gs texts) (hne : gs ≠ []) (hgs : ∀ g ∈ gs, g.WellFormed)
    {after : Bytes} (hafter : tokens after = [.byte 125]) {fuel : ℕ}
    (hfuel : (lex (commaSeparated texts after)).length < fuel) (s : Progress) :
    fileLoop stale fuel (lex (commaSeparated texts after)) s =
        some (.ended (lex after), s.calls stale (gs.flatMap TopGroup.calls)) ∧
      memberKeys fuel (lex (commaSeparated texts after)) = gs.map TopGroup.name := by
  induction htexts generalizing fuel s with
  | nil => exact absurd rfl hne
  | @cons g t gs texts hg htexts ih =>
    obtain ⟨fuel, rfl⟩ : ∃ n, fuel = n + 1 := ⟨fuel - 1, by omega⟩
    have hwf := hgs g (List.mem_cons_self ..)
    cases htexts with
    | nil =>
      obtain ⟨hrun, hkeys⟩ :=
        fileLoop_groupText stale hg hwf (r := after) (Nat.le_of_lt_succ hfuel) s
      rw [commaSeparated, hrun, hkeys, fileNext_closing hafter, fileNext_closing hafter]
      simp
    | @cons g' t' gs texts hg' htexts =>
      have hcomma (r : Bytes) : lex (44 :: r) = ⟨false, .byte 44⟩ :: lex r :=
        lex_byte (by decide) (by decide) r
      obtain ⟨hrun, hkeys⟩ := fileLoop_groupText stale hg hwf
        (r := 44 :: commaSeparated (t' :: texts) after) (Nat.le_of_lt_succ hfuel) s
      have hlen : (lex (commaSeparated (t' :: texts) after)).length < fuel := by
        rw [commaSeparated, hg.lex_append, hcomma] at hfuel
        · simp only [List.length_append, List.length_cons] at hfuel
          omega
        · exact fun h ↦ by cases h
      obtain ⟨hrest, hrestKeys⟩ := ih (List.cons_ne_nil _ _)
        (fun g hg ↦ hgs g (List.mem_cons_of_mem _ hg)) hlen (s.calls stale g.calls)
      rw [commaSeparated, hrun, hkeys, hcomma]
      · simp only [fileNext]
        rw [hrest, hrestKeys]
        simp [Progress.calls, List.foldl_append]
      · exact fun h ↦ by cases h

end Format

end SensingHub.Json
