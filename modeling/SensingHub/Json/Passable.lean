import SensingHub.Json.Document
import SensingHub.Json.Locality

/-!
# What the parser passes as a group

Besides the members that a group should have, the parser passes two things that are none. An item
that is not closed: `parseItem` returns the length it has read when no string follows an opening
bracket or a comma, and its caller goes on there. And an opening square bracket, on which
`parseItem` returns 1. `Passable` is the grammar of the members that are passed, and it says what
the parser over tokens reads: whatever is read as a group is passable (`passable_of_group`), and
whatever is passable is read (`Passable.group`).
-/

namespace SensingHub.Json

/-! ### The grammar -/

/-- Strings with a comma behind each of them. -/
def openTokens (strings : List (Bytes × Bytes)) : List Token :=
  strings.flatMap fun s ↦ keyTokens s.1 ++ [.quoted s.2, .byte 44]

@[simp] theorem openTokens_nil : openTokens [] = [] := rfl

@[simp] theorem openTokens_cons (key value : Bytes) (strings : List (Bytes × Bytes)) :
    openTokens ((key, value) :: strings) =
      .quoted key :: .byte 58 :: .quoted value :: .byte 44 :: openTokens strings := rfl

/-- Members that are passed in a group, separated by commas. -/
inductive Passable : List Token → Prop
  | string (key value : Bytes) : Passable (keyTokens key ++ [.quoted value])
  | item {key : Bytes} {strings : List (Bytes × Bytes)} (hkey : key.head? ≠ some 46)
      (hne : strings ≠ []) :
      Passable (keyTokens key ++ .byte 123 :: (stringsTokens strings ++ [.byte 125]))
  | openItem {key : Bytes} (strings : List (Bytes × Bytes)) (hkey : key.head? ≠ some 46) :
      Passable (keyTokens key ++ .byte 123 :: openTokens strings)
  | square {key : Bytes} (hkey : key.head? ≠ some 46) : Passable (keyTokens key ++ [.byte 91])
  | group {key : Bytes} {ts : List Token} (hkey : key.head? = some 46) (h : Passable ts) :
      Passable (keyTokens key ++ .byte 123 :: (ts ++ [.byte 125]))
  | comma {ts us : List Token} (h : Passable ts) (h' : Passable us) :
      Passable (ts ++ .byte 44 :: us)

/-- Strings separated by commas, the last of which another comma would follow. -/
theorem stringsTokens_concat (strings : List (Bytes × Bytes)) (key value : Bytes) :
    stringsTokens (strings ++ [(key, value)]) =
      openTokens strings ++ (keyTokens key ++ [.quoted value]) := by
  induction strings with
  | nil => rfl
  | cons s strings ih =>
    obtain ⟨s', strings', hs⟩ := List.exists_cons_of_ne_nil
      (List.append_ne_nil_of_right_ne_nil strings (List.cons_ne_nil (key, value) []))
    rw [hs] at ih
    rw [List.cons_append, hs, stringsTokens, ih]
    · rfl
    · exact fun h ↦ by cases h

namespace Format

/-- What stands behind a member of a group that is read. -/
def Ends (y : Token) : Prop :=
  y = .byte 44 ∨ y = .byte 125

/-- A pair without a string is followed by neither a comma nor a closing bracket. -/
theorem not_ends_of_pair {ts ls : List Token} {key : Bytes} {y : Token}
    (h : pair ts = some ⟨key, none, y :: ls⟩) : ¬ Ends y := by
  rcases rest_of_pair h with hnil | ⟨b, rest, hrest, hb⟩
  · cases hnil
  · cases hrest
    rcases hb with rfl | rfl <;> simp [Ends]

/-! ### What is read is passable -/

/-- An item passes strings up to its closing bracket, or it is left directly behind its opening
bracket or a comma. -/
theorem tokens_of_itemLoop {fuel : ℕ} {ts ls : List Token} {y : Token} {data : Option Bytes}
    {i : ItemRead} (h : itemLoop fuel ts data = some i) (hrest : i.rest = some (y :: ls))
    (hy : Ends y) :
    (∃ strings ≠ [], ts = stringsTokens strings ++ .byte 125 :: y :: ls) ∨
      ∃ strings, ts = openTokens strings ++ y :: ls := by
  induction fuel generalizing ts data with
  | zero => cases h
  | succ fuel ih =>
    rw [itemLoop] at h
    rcases hpair : pair ts with _ | ⟨key, _ | value, next⟩ <;> rw [hpair] at h
    · cases h
      cases hrest
      exact Or.inr ⟨[], rfl⟩
    · cases h
      cases hrest
      exact absurd hy (not_ends_of_pair hpair)
    · have hts := tokens_of_pair hpair
      simp only at h
      split at h
      · -- another round, behind the comma
        subst hts
        rcases ih h with ⟨strings, hne, rfl⟩ | ⟨strings, rfl⟩
        · obtain ⟨s, strings, rfl⟩ := List.exists_cons_of_ne_nil hne
          exact Or.inl ⟨(key, value) :: s :: strings, List.cons_ne_nil _ _, rfl⟩
        · exact Or.inr ⟨(key, value) :: strings, rfl⟩
      · cases h
        cases hrest
        exact Or.inl ⟨[(key, value)], List.cons_ne_nil _ _, hts⟩
      · cases h
        cases hrest

theorem passable_of_item {fuel : ℕ} {key : Bytes} {ts ls : List Token} {y : Token} {i : ItemRead}
    (hkey : key.head? ≠ some 46) (h : item fuel ts = some i) (hrest : i.rest = some (y :: ls))
    (hy : Ends y) (hts : ∃ b ts', ts = .byte b :: ts' ∧ (b = 123 ∨ b = 91)) :
    ∃ us, ts = us ++ y :: ls ∧ Passable (keyTokens key ++ us) := by
  obtain ⟨b, ts, rfl, rfl | rfl⟩ := hts
  · rw [item] at h
    rcases tokens_of_itemLoop h hrest hy with ⟨strings, hne, rfl⟩ | ⟨strings, rfl⟩
    · exact ⟨.byte 123 :: (stringsTokens strings ++ [.byte 125]), by simp, .item hkey hne⟩
    · exact ⟨.byte 123 :: openTokens strings, rfl, .openItem strings hkey⟩
  · cases h
    cases hrest
    exact ⟨[.byte 91], rfl, .square hkey⟩

theorem passable_of_member {loop : Bytes → List Token → Option GroupRead} {fuel : ℕ}
    {grpName : Bytes} {ts ls : List Token} {calls : List Call} {y : Token}
    (hloop : ∀ g ts calls rest, loop g ts = some ⟨calls, some rest⟩ →
      ∃ us, ts = us ++ .byte 125 :: rest ∧ Passable us)
    (h : member loop fuel grpName ts = some ⟨calls, some (y :: ls)⟩) (hy : Ends y) :
    ∃ us, ts = us ++ y :: ls ∧ Passable us := by
  rw [member] at h
  rcases hpair : pair ts with _ | ⟨key, _ | value, next⟩ <;> rw [hpair] at h
  · cases h
  · have hts : ts = keyTokens key ++ next := tokens_of_pair hpair
    suffices hvalue : ∃ us, next = us ++ y :: ls ∧ Passable (keyTokens key ++ us) by
      obtain ⟨us, rfl, hus⟩ := hvalue
      exact ⟨keyTokens key ++ us, hts, hus⟩
    simp only at h
    split_ifs at h with hkey
    · unfold groupWith at h
      split at h
      · obtain ⟨us, rfl, hus⟩ := hloop _ _ _ _ h
        exact ⟨.byte 123 :: (us ++ [.byte 125]), by simp, .group hkey hus⟩
      · cases h
    · obtain ⟨i, hi, hcalls⟩ := Option.map_eq_some_iff.1 h
      refine passable_of_item hkey hi (GroupRead.mk.inj hcalls).2 hy ?_
      rcases rest_of_pair hpair with rfl | hopen
      · cases hi
        cases hcalls
      · exact hopen
  · cases h
    exact ⟨_, tokens_of_pair hpair, .string key value⟩

theorem passable_of_groupLoop {fuel : ℕ} {grpName : Bytes} {ts rest : List Token}
    {calls : List Call} (h : groupLoop fuel grpName ts = some ⟨calls, some rest⟩) :
    ∃ us, ts = us ++ .byte 125 :: rest ∧ Passable us := by
  induction fuel generalizing grpName ts rest calls with
  | zero => cases h
  | succ fuel ih =>
    obtain ⟨before, after, next, -, hm, hsep⟩ := groupLoop_cases h
    rcases separator_cases hsep with ⟨ts', rfl, hnext⟩ | ⟨rfl, -⟩
    · obtain ⟨us, rfl, hus⟩ := passable_of_member (fun _ _ _ _ ↦ ih) hm (Or.inl rfl)
      obtain ⟨vs, rfl, hvs⟩ := ih hnext
      exact ⟨us ++ .byte 44 :: vs, by simp, hus.comma hvs⟩
    · exact passable_of_member (fun _ _ _ _ ↦ ih) hm (Or.inr rfl)

/-- **What is read as a group is passable.** -/
theorem passable_of_group {fuel : ℕ} {key : Bytes} {ts rest : List Token} {calls : List Call}
    (h : group fuel key ts = some ⟨calls, some rest⟩) :
    ∃ us, ts = .byte 123 :: (us ++ .byte 125 :: rest) ∧ Passable us := by
  unfold group groupWith at h
  split at h
  · obtain ⟨us, rfl, hus⟩ := passable_of_groupLoop h
    exact ⟨us, rfl, hus⟩
  · cases h

/-! ### What is passable is read -/

section

variable {fuel : ℕ} {grpName : Bytes} {ts rest : List Token}

theorem separator_mono {fuel' : ℕ} (hle : fuel ≤ fuel') {r : GroupRead}
    (h : separator (groupLoop fuel grpName) ts = some r) :
    separator (groupLoop fuel' grpName) ts = some r := by
  unfold separator at h ⊢
  split at h
  · exact groupLoop_mono hle h
  · exact h
  · exact h

/-- A member that is read from some fuel on, and what follows it. -/
theorem exists_groupLoop {k : ℕ} {calls : List Call} {r : GroupRead}
    (hm : ∀ n, k ≤ n → member (groupLoop n) n grpName ts = some ⟨calls, some rest⟩)
    (hsep : separator (groupLoop fuel grpName) rest = some r) :
    ∃ n, groupLoop n grpName ts = some ⟨calls ++ r.calls, r.rest⟩ := by
  refine ⟨max fuel k + 1, ?_⟩
  rw [groupLoop_succ (hm _ (le_max_right ..)), separator_mono (le_max_left ..) hsep]
  rfl

/-- An item that is left before a comma or a closing bracket. -/
theorem itemLoop_open {strings : List (Bytes × Bytes)} {y : Token} {ls : List Token} (hy : Ends y)
    (hfuel : strings.length < fuel) (data : Option Bytes) :
    itemLoop fuel (openTokens strings ++ y :: ls) data =
      some ⟨stringsData strings data, some (y :: ls)⟩ := by
  induction strings generalizing fuel data with
  | nil =>
    obtain ⟨fuel, rfl⟩ : ∃ n, fuel = n + 1 := ⟨fuel - 1, by omega⟩
    rcases hy with rfl | rfl <;> rfl
  | cons s strings ih =>
    obtain ⟨fuel, rfl⟩ : ∃ n, fuel = n + 1 := ⟨fuel - 1, by omega⟩
    obtain ⟨key, value⟩ := s
    exact ih (Nat.lt_of_succ_lt_succ hfuel) (itemData key value data)

/-- What stands behind members that are passable decides how the group goes on. -/
theorem exists_groupLoop_passable {us : List Token} (h : Passable us) (grpName : Bytes) :
    ∃ calls, ∀ (fuel : ℕ) (y : Token) (ls : List Token) (r : GroupRead), Ends y →
      separator (groupLoop fuel grpName) (y :: ls) = some r →
        ∃ n, groupLoop n grpName (us ++ y :: ls) = some ⟨calls ++ r.calls, r.rest⟩ := by
  induction h generalizing grpName with
  | string key value =>
    exact ⟨[], fun _ _ _ _ _ hsep ↦ exists_groupLoop (k := 0) (fun n _ ↦ rfl) hsep⟩
  | @item key strings hkey hne =>
    refine ⟨(Member.item key strings).calls grpName, fun _ y ls _ _ hsep ↦
      exists_groupLoop (k := (Member.item key strings).tokens.length) (fun n hn ↦ ?_) hsep⟩
    exact member_tokens grpName (.item key strings) ⟨hkey, hne⟩ (y :: ls) hn
  | @openItem key strings hkey =>
    refine ⟨[⟨grpName, key, stringsData strings none⟩], fun _ y ls _ hy hsep ↦
      exists_groupLoop (k := strings.length + 1) (fun n hn ↦ ?_) hsep⟩
    rw [List.append_assoc, List.cons_append, member, pair_object]
    simp only [if_neg hkey, item]
    rw [itemLoop_open hy hn]
    rfl
  | @square key hkey =>
    refine ⟨[⟨grpName, key, none⟩], fun _ y ls _ _ hsep ↦
      exists_groupLoop (k := 0) (fun n _ ↦ ?_) hsep⟩
    show member (groupLoop n) n grpName (.quoted key :: .byte 58 :: .byte 91 :: y :: ls) = _
    simp only [member, pair, pairValue, if_true, or_true, if_neg hkey, item]
    rfl
  | @group key ts hkey h ih =>
    obtain ⟨calls, hcalls⟩ := ih key
    refine ⟨calls, fun _ y ls _ _ hsep ↦ ?_⟩
    obtain ⟨k, hk⟩ := hcalls 0 (.byte 125) (y :: ls) ⟨[], some (y :: ls)⟩ (Or.inr rfl) rfl
    rw [List.append_nil] at hk
    refine exists_groupLoop (k := k) (fun n hn ↦ ?_) hsep
    rw [List.append_assoc, List.cons_append, List.append_assoc, member, pair_object]
    simp only [if_pos hkey, groupWith]
    exact groupLoop_mono hn hk
  | @comma ts us h h' ih ih' =>
    obtain ⟨calls, hcalls⟩ := ih grpName
    obtain ⟨calls', hcalls'⟩ := ih' grpName
    refine ⟨calls ++ calls', fun fuel y ls r hy hsep ↦ ?_⟩
    obtain ⟨k, hk⟩ := hcalls' fuel y ls r hy hsep
    obtain ⟨n, hn⟩ := hcalls k (.byte 44) _ _ (Or.inl rfl) hk
    exact ⟨n, by rw [List.append_assoc, List.append_assoc]; exact hn⟩

/-- **What is passable is read as a group.** -/
theorem exists_group_passable {us : List Token} (h : Passable us) (key : Bytes) :
    ∃ calls, ∀ rest, ∃ fuel,
      group fuel key (.byte 123 :: (us ++ .byte 125 :: rest)) = some ⟨calls, some rest⟩ := by
  obtain ⟨calls, hcalls⟩ := exists_groupLoop_passable h key
  refine ⟨calls, fun rest ↦ ?_⟩
  obtain ⟨n, hn⟩ := hcalls 0 (.byte 125) rest ⟨[], some rest⟩ (Or.inr rfl) rfl
  exact ⟨n, by rw [List.append_nil] at hn; exact hn⟩

end

end Format

end SensingHub.Json
