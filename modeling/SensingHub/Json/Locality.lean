import SensingHub.Json.Format

/-!
# What a member is read from

A member that has been read is a stretch of tokens: more fuel does not change what has been read,
tokens behind the stretch do not, and what is left over is what stands behind it. A group that has
been read ends with its closing bracket.
-/

namespace SensingHub.Json.Format

open CLib (str)

/-! ### More fuel -/

theorem itemLoop_mono {fuel fuel' : ℕ} (hle : fuel ≤ fuel') {ts : List Token} {data : Option Bytes}
    {i : ItemRead} (h : itemLoop fuel ts data = some i) : itemLoop fuel' ts data = some i := by
  induction fuel generalizing fuel' ts data with
  | zero => cases h
  | succ fuel ih =>
    obtain ⟨fuel', rfl⟩ : ∃ n, fuel' = n + 1 := ⟨fuel' - 1, by omega⟩
    rw [itemLoop] at h ⊢
    rcases hpair : pair ts with _ | ⟨key, _ | value, rest⟩ <;> rw [hpair] at h
    · exact h
    · exact h
    · simp only at h ⊢
      split at h
      · exact ih (Nat.le_of_succ_le_succ hle) h
      · exact h
      · exact h

theorem item_mono {fuel fuel' : ℕ} (hle : fuel ≤ fuel') {ts : List Token} {i : ItemRead}
    (h : item fuel ts = some i) : item fuel' ts = some i := by
  unfold item at h ⊢
  split at h
  · exact h
  · exact itemLoop_mono hle h
  · exact h

theorem member_mono {loop loop' : Bytes → List Token → Option GroupRead}
    (hloop : ∀ g ts r, loop g ts = some r → loop' g ts = some r) {fuel fuel' : ℕ}
    (hle : fuel ≤ fuel') {grpName : Bytes} {ts : List Token} {r : GroupRead}
    (h : member loop fuel grpName ts = some r) : member loop' fuel' grpName ts = some r := by
  unfold member at h ⊢
  rcases hpair : pair ts with _ | ⟨key, _ | value, rest⟩ <;> rw [hpair] at h
  · exact h
  · simp only at h ⊢
    split_ifs at h ⊢
    · unfold groupWith at h ⊢
      split at h
      · exact hloop _ _ _ h
      · exact h
    · obtain ⟨i, hi, rfl⟩ := Option.map_eq_some_iff.1 h
      rw [item_mono hle hi]
      rfl
  · exact h

theorem groupLoop_mono {fuel fuel' : ℕ} (hle : fuel ≤ fuel') {grpName : Bytes} {ts : List Token}
    {r : GroupRead} (h : groupLoop fuel grpName ts = some r) :
    groupLoop fuel' grpName ts = some r := by
  induction fuel generalizing fuel' grpName ts r with
  | zero => cases h
  | succ fuel ih =>
    obtain ⟨fuel', rfl⟩ : ∃ n, fuel' = n + 1 := ⟨fuel' - 1, by omega⟩
    have hle' := Nat.le_of_succ_le_succ hle
    rw [groupLoop, Option.bind_eq_some_iff] at h ⊢
    obtain ⟨m, hm, hthen⟩ := h
    refine ⟨m, member_mono (fun g ts r ↦ ih hle') hle' hm, ?_⟩
    unfold GroupRead.andThen at hthen ⊢
    split at hthen
    · exact hthen
    · obtain ⟨r', hr', rfl⟩ := Option.map_eq_some_iff.1 hthen
      refine Option.map_eq_some_iff.2 ⟨r', ?_, rfl⟩
      unfold separator at hr' ⊢
      split at hr'
      · exact ih hle' hr'
      · exact hr'
      · exact hr'

theorem group_mono {fuel fuel' : ℕ} (hle : fuel ≤ fuel') {key : Bytes} {ts : List Token}
    {r : GroupRead} (h : group fuel key ts = some r) : group fuel' key ts = some r := by
  unfold group groupWith at h ⊢
  split at h
  · exact groupLoop_mono hle h
  · exact h

theorem configLoop_mono {fuel fuel' : ℕ} (hle : fuel ≤ fuel') {ts : List Token}
    {r : ConfigItemRead} (h : configLoop fuel ts = some r) : configLoop fuel' ts = some r := by
  induction fuel generalizing fuel' ts r with
  | zero => cases h
  | succ fuel ih =>
    obtain ⟨fuel', rfl⟩ : ∃ n, fuel' = n + 1 := ⟨fuel' - 1, by omega⟩
    rw [configLoop] at h ⊢
    rcases hpair : pair ts with _ | ⟨key, value, rest⟩ <;> rw [hpair] at h
    · exact h
    · simp only at h ⊢
      rcases hids : memberIds key value with ⟨ids, _ | e⟩ <;> rw [hids] at h
      · simp only at h ⊢
        split at h
        · obtain ⟨r', hr', rfl⟩ := Option.map_eq_some_iff.1 h
          rw [ih (Nat.le_of_succ_le_succ hle) hr']
          rfl
        · exact h
      · exact h

theorem config_mono {fuel fuel' : ℕ} (hle : fuel ≤ fuel') {ts : List Token} {r : ConfigRead}
    (h : config fuel ts = some r) : config fuel' ts = some r := by
  unfold config at h ⊢
  split at h
  · obtain ⟨r', hr', rfl⟩ := Option.map_eq_some_iff.1 h
    rw [configLoop_mono hle hr']
    rfl
  · exact h

/-- **What is read of a group does not depend on the fuel.** -/
theorem group_unique {fuel fuel' : ℕ} {key : Bytes} {ts : List Token} {r r' : GroupRead}
    (h : group fuel key ts = some r) (h' : group fuel' key ts = some r') : r = r' := by
  rcases le_total fuel fuel' with hle | hle
  · exact Option.some.inj ((group_mono hle h).symm.trans h')
  · exact Option.some.inj (h.symm.trans (group_mono hle h'))

/-- **What is read of a config section does not depend on the fuel.** -/
theorem config_unique {fuel fuel' : ℕ} {ts : List Token} {r r' : ConfigRead}
    (h : config fuel ts = some r) (h' : config fuel' ts = some r') : r = r' := by
  rcases le_total fuel fuel' with hle | hle
  · exact Option.some.inj ((config_mono hle h).symm.trans h')
  · exact Option.some.inj (h.symm.trans (config_mono hle h'))

/-! ### What is left over -/

theorem suffix_of_pair {ts : List Token} {p : Pair} (h : pair ts = some p) : p.rest <:+ ts := by
  rw [tokens_of_pair h]
  exact (List.suffix_append ..).trans ((List.suffix_cons ..).trans (List.suffix_cons ..))

theorem suffix_of_itemLoop {fuel : ℕ} {ts : List Token} {data : Option Bytes} {i : ItemRead}
    {rest : List Token} (h : itemLoop fuel ts data = some i) (hrest : i.rest = some rest) :
    rest <:+ ts := by
  induction fuel generalizing ts data with
  | zero => cases h
  | succ fuel ih =>
    rw [itemLoop] at h
    rcases hpair : pair ts with _ | ⟨key, _ | value, next⟩ <;> rw [hpair] at h
    · cases h
      cases hrest
      exact List.suffix_rfl
    · cases h
      cases hrest
      exact suffix_of_pair hpair
    · have hnext : next <:+ ts := suffix_of_pair hpair
      simp only at h
      split at h
      · exact ((ih h).trans (List.suffix_cons ..)).trans hnext
      · cases h
        cases hrest
        exact (List.suffix_cons ..).trans hnext
      · cases h
        cases hrest

theorem suffix_of_item {fuel : ℕ} {ts : List Token} {i : ItemRead} {rest : List Token}
    (h : item fuel ts = some i) (hrest : i.rest = some rest) : rest <:+ ts := by
  unfold item at h
  split at h
  · cases h
    cases hrest
  · exact (suffix_of_itemLoop h hrest).trans (List.suffix_cons ..)
  · cases h
    cases hrest
    exact List.suffix_cons ..

/-- A part of the text that ends with a closing bracket, with `rest` behind it. -/
def Closed (ts rest : List Token) : Prop :=
  .byte 125 :: rest <:+ ts

theorem Closed.suffix {ts rest : List Token} (h : Closed ts rest) : rest <:+ ts :=
  (List.suffix_cons ..).trans h

/-- What follows a member of a group that has been read. -/
theorem separator_cases {loop : List Token → Option GroupRead} {ts rest : List Token}
    {calls : List Call} (h : separator loop ts = some ⟨calls, some rest⟩) :
    (∃ ts', ts = .byte 44 :: ts' ∧ loop ts' = some ⟨calls, some rest⟩) ∨
      ts = .byte 125 :: rest ∧ calls = [] := by
  unfold separator at h
  split at h
  · exact Or.inl ⟨_, rfl, h⟩
  · cases h
    exact Or.inr ⟨rfl, rfl⟩
  · cases h

/-- A round of the loop of a group that has been read: a member, and a separator behind it. -/
theorem groupLoop_cases {fuel : ℕ} {grpName : Bytes} {ts rest : List Token} {calls : List Call}
    (h : groupLoop (fuel + 1) grpName ts = some ⟨calls, some rest⟩) :
    ∃ before after next, calls = before ++ after ∧
      member (groupLoop fuel) fuel grpName ts = some ⟨before, some next⟩ ∧
      separator (groupLoop fuel grpName) next = some ⟨after, some rest⟩ := by
  rw [groupLoop, Option.bind_eq_some_iff] at h
  obtain ⟨⟨before, _ | next⟩, hm, hthen⟩ := h
  · cases hthen
  · obtain ⟨⟨after, rest'⟩, hsep, hcalls⟩ := Option.map_eq_some_iff.1 hthen
    cases hcalls
    exact ⟨before, after, next, rfl, hm, hsep⟩

theorem suffix_of_member {loop : Bytes → List Token → Option GroupRead} {fuel : ℕ}
    {grpName : Bytes} {ts rest : List Token} {calls : List Call}
    (hloop : ∀ g ts calls rest, loop g ts = some ⟨calls, some rest⟩ → Closed ts rest)
    (h : member loop fuel grpName ts = some ⟨calls, some rest⟩) : rest <:+ ts := by
  unfold member at h
  rcases hpair : pair ts with _ | ⟨key, _ | value, next⟩ <;> rw [hpair] at h
  · cases h
  · have hnext : next <:+ ts := suffix_of_pair hpair
    simp only at h
    split_ifs at h
    · unfold groupWith at h
      split at h
      · exact ((hloop _ _ _ _ h).suffix.trans (List.suffix_cons ..)).trans hnext
      · cases h
    · obtain ⟨i, hi, hcalls⟩ := Option.map_eq_some_iff.1 h
      exact (suffix_of_item hi (GroupRead.mk.inj hcalls).2).trans hnext
  · cases h
    exact suffix_of_pair hpair

theorem closed_of_groupLoop {fuel : ℕ} {grpName : Bytes} {ts rest : List Token}
    {calls : List Call} (h : groupLoop fuel grpName ts = some ⟨calls, some rest⟩) :
    Closed ts rest := by
  induction fuel generalizing grpName ts rest calls with
  | zero => cases h
  | succ fuel ih =>
    obtain ⟨before, after, next, -, hm, hsep⟩ := groupLoop_cases h
    have hnext := suffix_of_member (fun g ts calls rest ↦ ih) hm
    rcases separator_cases hsep with ⟨ts', rfl, hloop⟩ | ⟨rfl, -⟩
    · exact ((ih hloop).trans (List.suffix_cons ..)).trans hnext
    · exact hnext

/-- **A group that has been read ends with its closing bracket.** -/
theorem closed_of_group {fuel : ℕ} {key : Bytes} {ts rest : List Token} {calls : List Call}
    (h : group fuel key ts = some ⟨calls, some rest⟩) : Closed ts rest := by
  unfold group groupWith at h
  split at h
  · exact List.IsSuffix.trans (closed_of_groupLoop h) (List.suffix_cons ..)
  · cases h

theorem suffix_of_configLoop {fuel : ℕ} {ts : List Token} {r : ConfigItemRead} {rest : List Token}
    (h : configLoop fuel ts = some r) (hrest : r.rest = .ok rest) : rest <:+ ts := by
  induction fuel generalizing ts r with
  | zero => cases h
  | succ fuel ih =>
    rw [configLoop] at h
    rcases hpair : pair ts with _ | ⟨key, value, next⟩ <;> rw [hpair] at h
    · cases h
      cases hrest
      exact List.suffix_rfl
    · have hnext : next <:+ ts := suffix_of_pair hpair
      simp only at h
      rcases hids : memberIds key value with ⟨ids, _ | e⟩ <;> rw [hids] at h
      · simp only at h
        split at h
        · obtain ⟨r', hr', rfl⟩ := Option.map_eq_some_iff.1 h
          exact ((ih hr' hrest).trans (List.suffix_cons ..)).trans hnext
        · cases h
          cases hrest
          exact hnext
      · cases h
        cases hrest

/-- **A config section that has been read ends with its closing bracket.** -/
theorem closed_of_config {fuel : ℕ} {ts rest : List Token} {ids : List ℤ}
    (h : config fuel ts = some ⟨ids, .read rest⟩) : Closed ts rest := by
  unfold config at h
  split at h
  · obtain ⟨r, hr, hread⟩ := Option.map_eq_some_iff.1 h
    obtain ⟨-, hend⟩ := ConfigRead.mk.inj hread
    unfold configEnd at hend
    split at hend
    · cases hend
    · next hok =>
      cases hend
      exact (suffix_of_configLoop hr hok).trans (List.suffix_cons ..)
    · cases hend
  · cases h

/-! ### More tokens behind -/

theorem pair_append {ts rest : List Token} {key : Bytes} {value : Option Bytes}
    (h : pair ts = some ⟨key, value, rest⟩) (hrest : value = none → rest ≠ [])
    (more : List Token) : pair (ts ++ more) = some ⟨key, value, rest ++ more⟩ := by
  unfold pair at h
  split at h
  · split_ifs at h with hcolon
    subst hcolon
    simp only [List.cons_append, pair, if_true]
    unfold pairValue at h
    split at h
    · cases h
      exact absurd rfl (hrest rfl)
    · cases h
      rfl
    · next hb =>
      split_ifs at h with hopen
      cases h
      simp only [List.cons_append, pairValue, if_pos hopen]
    · cases h
  · cases h

/-- No pair is read where a single byte stands. -/
theorem pair_byte (b : UInt8) (ts : List Token) : pair (.byte b :: ts) = none := by
  rw [pair]
  rintro key b' ts' ⟨⟩

theorem itemLoop_append {fuel : ℕ} {ts rest : List Token} {b : UInt8} {data data' : Option Bytes}
    (h : itemLoop fuel ts data = some ⟨data', some (.byte b :: rest)⟩) (more : List Token) :
    itemLoop fuel (ts ++ more) data = some ⟨data', some (.byte b :: rest ++ more)⟩ := by
  induction fuel generalizing ts data with
  | zero => cases h
  | succ fuel ih =>
    rw [itemLoop] at h ⊢
    rcases hpair : pair ts with _ | ⟨key, _ | value, next⟩ <;> rw [hpair] at h
    · cases h
      rw [List.cons_append, pair_byte]
    · cases h
      rw [pair_append hpair (fun _ ↦ List.cons_ne_nil _ _)]
    · rw [pair_append hpair (fun h ↦ by cases h)]
      simp only at h ⊢
      split at h
      · exact ih h
      · cases h
        rfl
      · cases h

theorem item_append {fuel : ℕ} {ts rest : List Token} {b : UInt8} {data : Option Bytes}
    (h : item fuel ts = some ⟨data, some (.byte b :: rest)⟩) (more : List Token) :
    item fuel (ts ++ more) = some ⟨data, some (.byte b :: rest ++ more)⟩ := by
  unfold item at h
  split at h
  · cases h
  · exact itemLoop_append h more
  · next hne =>
    cases h
    rw [List.cons_append, item]
    exact hne

theorem member_append {loop : Bytes → List Token → Option GroupRead} {fuel : ℕ} {grpName : Bytes}
    {ts rest more : List Token} {b : UInt8} {calls : List Call}
    (hloop : ∀ g ts calls rest, loop g ts = some ⟨calls, some rest⟩ →
      loop g (ts ++ more) = some ⟨calls, some (rest ++ more)⟩)
    (h : member loop fuel grpName ts = some ⟨calls, some (.byte b :: rest)⟩) :
    member loop fuel grpName (ts ++ more) = some ⟨calls, some (.byte b :: rest ++ more)⟩ := by
  unfold member at h ⊢
  rcases hpair : pair ts with _ | ⟨key, _ | value, next⟩ <;> rw [hpair] at h
  · cases h
  · have hnext : next ≠ [] := by
      rintro rfl
      simp only at h
      split_ifs at h <;> cases h
    rw [pair_append hpair (fun _ ↦ hnext)]
    simp only at h ⊢
    split_ifs at h ⊢
    · unfold groupWith at h
      split at h
      · exact hloop _ _ _ _ h
      · cases h
    · obtain ⟨⟨data, rest'⟩, hi, hcalls⟩ := Option.map_eq_some_iff.1 h
      obtain ⟨rfl, hrest⟩ := GroupRead.mk.inj hcalls
      dsimp only at hrest
      subst hrest
      rw [item_append hi]
      rfl
  · cases h
    rw [pair_append hpair (fun h ↦ by cases h)]

theorem groupLoop_append {fuel : ℕ} {grpName : Bytes} {ts rest : List Token} {calls : List Call}
    (h : groupLoop fuel grpName ts = some ⟨calls, some rest⟩) (more : List Token) :
    groupLoop fuel grpName (ts ++ more) = some ⟨calls, some (rest ++ more)⟩ := by
  induction fuel generalizing grpName ts rest calls with
  | zero => cases h
  | succ fuel ih =>
    have hloop : ∀ g ts calls rest, groupLoop fuel g ts = some ⟨calls, some rest⟩ →
        groupLoop fuel g (ts ++ more) = some ⟨calls, some (rest ++ more)⟩ := fun _ _ _ _ ↦ ih
    obtain ⟨before, after, next, rfl, hm, hsep⟩ := groupLoop_cases h
    rw [groupLoop]
    rcases separator_cases hsep with ⟨ts', rfl, hnext⟩ | ⟨rfl, rfl⟩
    · rw [member_append hloop hm]
      simp only [Option.bind_some, GroupRead.andThen, List.cons_append, separator]
      rw [ih hnext]
      rfl
    · rw [member_append hloop hm]
      rfl

/-- **A group that has been read is read in front of more tokens.** -/
theorem group_append {fuel : ℕ} {key : Bytes} {ts rest : List Token} {calls : List Call}
    (h : group fuel key ts = some ⟨calls, some rest⟩) (more : List Token) :
    group fuel key (ts ++ more) = some ⟨calls, some (rest ++ more)⟩ := by
  unfold group groupWith at h
  split at h
  · exact groupLoop_append h more
  · cases h

end SensingHub.Json.Format
