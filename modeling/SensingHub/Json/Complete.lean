import SensingHub.Json.Braces
import SensingHub.Json.Sections

/-!
# Complete files

What a configuration should look like is said by trees: a file is an object of groups and config
sections, written down as tokens. What the parser passes as a top-level member is more, and it is
given by a grammar (`Passes`), as is a config section on which `parseConfig` fails
(`MalformedConfig`). The two meet where the text is tidy: what is passed is written by trees exactly
if its brackets are balanced, none is square, and no comma stands directly before a closing one.
-/

namespace SensingHub.Json

open CLib (str)
open Depth

/-! ### The format -/

/-- A top-level member of the format: a group with no empty object in it, or a config section, which
holds strings only, if any. -/
def Member.TopLevel : Member → Prop
  | .string _ _ => False
  | .item key _ => key = str "config"
  | .group key members => key ≠ str "config" ∧ members ≠ [] ∧ MembersWellFormed members

/-- The text up to the cursor is one object of the format but for its closing bracket, before which
the cursor stands. -/
def CompleteUpTo (c : Bytes) (cursor : ℕ) : Prop :=
  ∃ ms rest, ms ≠ [] ∧ (∀ m ∈ ms, m.TopLevel) ∧
    tokens c = .byte 123 :: (membersTokens ms ++ .byte 125 :: rest) ∧
      tokens (c.drop cursor) = .byte 125 :: rest

/-- Brackets are balanced and none is square, and no comma stands directly before a closing one. -/
structure Tidy (ts : List Token) : Prop where
  balanced : depth Token.weight ts = 0
  notSquare : .byte 91 ∉ ts
  noComma : ts.IsChain fun x y ↦ x = .byte 44 → y ≠ .byte 125

theorem membersTokens_cons (m : Member) {ms : List Member} (hne : ms ≠ []) :
    membersTokens (m :: ms) = m.tokens ++ .byte 44 :: membersTokens ms := by
  rw [membersTokens]
  exact hne

theorem membersTokens_append {ms ms' : List Member} (hne : ms ≠ []) (hne' : ms' ≠ []) :
    membersTokens (ms ++ ms') = membersTokens ms ++ .byte 44 :: membersTokens ms' := by
  induction ms with
  | nil => exact absurd rfl hne
  | cons m ms ih =>
    rcases ms with _ | ⟨m₂, ms⟩
    · rw [List.singleton_append, membersTokens_cons m hne', membersTokens]
    · have hrest : m₂ :: ms ++ ms' ≠ [] := List.cons_ne_nil _ _
      rw [List.cons_append, membersTokens_cons m hrest, ih (List.cons_ne_nil _ _),
        membersTokens_cons m (List.cons_ne_nil _ _), List.append_assoc, List.cons_append]

/-! ### Members of a group -/

/-- Members that are passed and are as they should be. -/
structure Orderly (us : List Token) : Prop where
  passable : Passable us
  balanced : depth Token.weight us = 0
  notSquare : .byte 91 ∉ us

theorem Passable.depth_nonneg {us : List Token} (h : Passable us) :
    0 ≤ depth Token.weight us := by
  obtain ⟨n, hspan⟩ := h.spans (.byte 123) (Or.inr rfl)
  rw [hspan.depth_eq]
  exact hspan.nonneg

theorem Orderly.noComma {us : List Token} (h : Orderly us) :
    (.byte 123 :: (us ++ [.byte 125])).IsChain fun x y ↦ x = .byte 44 → y ≠ .byte 125 := by
  obtain ⟨n, hspan⟩ := h.passable.spans (.byte 123) (Or.inr rfl)
  have hzero : n = 0 := hspan.depth_eq.symm.trans h.balanced
  exact (hspan.follows.2 hzero).imp fun x y hfollows hx ↦ (hfollows (Or.inr hx)).2

theorem Orderly.comma {us vs : List Token} (h : Orderly us) (h' : Orderly vs) :
    Orderly (us ++ .byte 44 :: vs) := by
  refine ⟨h.passable.comma h'.passable, ?_, ?_⟩
  · rw [depth_append, depth_cons, h.balanced, h'.balanced]
    rfl
  · simp [h.notSquare, h'.notSquare]

theorem not_square_stringsTokens (strings : List (Bytes × Bytes)) :
    .byte 91 ∉ stringsTokens strings := by
  induction strings with
  | nil => simp [stringsTokens]
  | cons s strings ih =>
    rcases strings with _ | ⟨s', strings⟩
    · simp [stringsTokens, keyTokens]
    · simpa [stringsTokens, keyTokens] using ih

theorem depth_stringsTokens (strings : List (Bytes × Bytes)) :
    depth Token.weight (stringsTokens strings) = 0 := by
  rcases strings with _ | ⟨s, strings⟩
  · rfl
  · exact (spans_stringsTokens (List.cons_ne_nil _ _) (.byte 123) (.byte 125)).depth_eq

theorem depth_openTokens (strings : List (Bytes × Bytes)) :
    depth Token.weight (openTokens strings) = 0 := by
  induction strings with
  | nil => rfl
  | cons s strings ih =>
    obtain ⟨key, value⟩ := s
    rw [openTokens_cons, depth_cons, depth_cons, depth_cons, depth_cons, ih]
    rfl

/-- A name and a pair of brackets add nothing. -/
theorem depth_object (key : Bytes) (us : List Token) :
    depth Token.weight (keyTokens key ++ .byte 123 :: (us ++ [.byte 125])) =
      depth Token.weight us := by
  simp [keyTokens, Token.weight, braceWeight]

theorem Orderly.group {key : Bytes} {us : List Token} (hkey : key.head? = some 46)
    (h : Orderly us) : Orderly (keyTokens key ++ .byte 123 :: (us ++ [.byte 125])) := by
  refine ⟨.group hkey h.passable, ?_, ?_⟩
  · rw [depth_object, h.balanced]
  · simp [keyTokens, h.notSquare]

theorem Orderly.item {key : Bytes} {strings : List (Bytes × Bytes)} (hkey : key.head? ≠ some 46)
    (hne : strings ≠ []) : Orderly (Member.item key strings).tokens := by
  refine ⟨.item hkey hne, ?_, ?_⟩
  · rw [Member.tokens, depth_object, depth_stringsTokens]
  · simp [Member.tokens, keyTokens, not_square_stringsTokens]

mutual

theorem orderly_tokens (m : Member) (hm : m.WellFormed) : Orderly m.tokens := by
  match m with
  | .string key value =>
    exact ⟨.string key value, rfl, by simp [Member.tokens, keyTokens]⟩
  | .item key strings => exact .item hm.1 hm.2
  | .group key members => exact .group hm.1 (orderly_membersTokens members hm.2.1 hm.2.2)

theorem orderly_membersTokens (ms : List Member) (hne : ms ≠ []) (hms : MembersWellFormed ms) :
    Orderly (membersTokens ms) := by
  match ms with
  | [] => exact absurd rfl hne
  | [m] => exact orderly_tokens m hms.1
  | m :: m' :: ms =>
    have hrest := orderly_membersTokens (m' :: ms) (List.cons_ne_nil _ _) hms.2
    rw [membersTokens_cons m (List.cons_ne_nil _ _)]
    exact (orderly_tokens m hms.1).comma hrest

end

/-- **Members that are passed are those of a group exactly if they are balanced and none of their
brackets is square.** -/
theorem orderly_iff {us : List Token} :
    Orderly us ↔ ∃ ms ≠ [], MembersWellFormed ms ∧ us = membersTokens ms := by
  constructor
  · rintro ⟨hus, hdepth, hsquare⟩
    induction hus with
    | string key value =>
      exact ⟨[.string key value], List.cons_ne_nil _ _, ⟨trivial, trivial⟩, rfl⟩
    | @item key strings hkey hne =>
      exact ⟨[.item key strings], List.cons_ne_nil _ _, ⟨⟨hkey, hne⟩, trivial⟩, rfl⟩
    | openItem strings hkey =>
      -- its opening bracket is not closed
      simp [keyTokens, depth_openTokens, Token.weight, braceWeight] at hdepth
    | square hkey => simp at hsquare
    | @group key ts hkey h ih =>
      simp only [List.mem_append, List.mem_cons, not_or] at hsquare
      rw [depth_object] at hdepth
      obtain ⟨ms, hne, hms, rfl⟩ := ih hdepth hsquare.2.2.1
      exact ⟨[.group key ms], List.cons_ne_nil _ _, ⟨⟨hkey, hne, hms⟩, trivial⟩, rfl⟩
    | @comma ts us h h' ih ih' =>
      simp only [List.mem_append, List.mem_cons, not_or] at hsquare
      rw [depth_append, depth_cons, show (Token.byte 44).weight = 0 from rfl, zero_add] at hdepth
      have hts := h.depth_nonneg
      have hus := h'.depth_nonneg
      obtain ⟨ms, hne, hms, rfl⟩ := ih (by omega) hsquare.1
      obtain ⟨ms', hne', hms', rfl⟩ := ih' (by omega) hsquare.2.2
      exact ⟨ms ++ ms', by simp [hne], membersWellFormed_append.2 ⟨hms, hms'⟩,
        (membersTokens_append hne hne').symm⟩
  · rintro ⟨ms, hne, hms, rfl⟩
    exact orderly_membersTokens ms hne hms

/-! ### Config sections -/

/-- Each `soc_id` among the strings lists numbers, or `std::stoi` would throw. -/
def Numbers (strings : List (Bytes × Bytes)) : Prop :=
  ∀ s ∈ strings, (Format.memberIds s.1 (some s.2)).2 = none

instance (strings : List (Bytes × Bytes)) : Decidable (Numbers strings) :=
  inferInstanceAs (Decidable (∀ s ∈ strings, _ = _))

/-- The ids that the strings list. -/
def stringsIds (strings : List (Bytes × Bytes)) : List ℤ :=
  strings.flatMap fun s ↦ (Format.memberIds s.1 (some s.2)).1

/-- Where the loop over the strings of a config section stops, having listed `ids`: no key with its
colon and a value stands there, or it is the value and no string, or no comma stands there. -/
inductive ConfigStops : (ids : List ℤ) → (ts rest : List Token) → Prop
  | noPair {strings : List (Bytes × Bytes)} {rest : List Token} (hids : Numbers strings)
      (hpair : Format.pair rest = none) :
      ConfigStops (stringsIds strings) (openTokens strings ++ rest) rest
  | noString {strings : List (Bytes × Bytes)} {key : Bytes} {rest : List Token}
      (hids : Numbers strings) (hrest : ∀ t ∈ rest.head?, t = .byte 123 ∨ t = .byte 91) :
      ConfigStops (stringsIds strings) (openTokens strings ++ (keyTokens key ++ rest)) rest
  | noComma {strings : List (Bytes × Bytes)} {rest : List Token} (hids : Numbers strings)
      (hne : strings ≠ []) (hcomma : rest.head? ≠ some (.byte 44)) :
      ConfigStops (stringsIds strings) (stringsTokens strings ++ rest) rest

theorem stringsTokens_cons (key value : Bytes) {strings : List (Bytes × Bytes)}
    (hne : strings ≠ []) :
    stringsTokens ((key, value) :: strings) =
      .quoted key :: .byte 58 :: .quoted value :: .byte 44 :: stringsTokens strings := by
  rw [stringsTokens]
  · rfl
  · exact hne

/-- Another string in front. -/
theorem ConfigStops.cons {key value : Bytes} {ids : List ℤ} {ts rest : List Token}
    (hvalue : (Format.memberIds key (some value)).2 = none) (h : ConfigStops ids ts rest) :
    ConfigStops ((Format.memberIds key (some value)).1 ++ ids)
      (.quoted key :: .byte 58 :: .quoted value :: .byte 44 :: ts) rest := by
  have hnumbers {strings : List (Bytes × Bytes)} (hids : Numbers strings) :
      Numbers ((key, value) :: strings) := List.forall_mem_cons.2 ⟨hvalue, hids⟩
  cases h with
  | noPair hids hpair => exact .noPair (hnumbers hids) hpair
  | noString hids hrest => exact .noString (hnumbers hids) hrest
  | noComma hids hne hcomma =>
    have hstops := ConfigStops.noComma (hnumbers hids) (List.cons_ne_nil _ _) hcomma
    rw [stringsTokens_cons key value hne] at hstops
    exact hstops

namespace Format

/-- A round of the loop over the strings of a config section, unless `stoi` throws. -/
theorem configLoop_cases {fuel : ℕ} {ts rest : List Token} {ids : List ℤ}
    (h : configLoop (fuel + 1) ts = some ⟨ids, .ok rest⟩) :
    (pair ts = none ∧ ids = [] ∧ rest = ts) ∨
      ∃ key value next, pair ts = some ⟨key, value, next⟩ ∧ (memberIds key value).2 = none ∧
        ((∃ next' ids', next = .byte 44 :: next' ∧
            configLoop fuel next' = some ⟨ids', .ok rest⟩ ∧
            ids = (memberIds key value).1 ++ ids') ∨
          next.head? ≠ some (.byte 44) ∧ ids = (memberIds key value).1 ∧ rest = next) := by
  rw [configLoop] at h
  rcases hpair : pair ts with _ | ⟨key, value, next⟩ <;> rw [hpair] at h
  · cases h
    exact Or.inl ⟨rfl, rfl, rfl⟩
  · rcases hids : memberIds key value with ⟨ids', _ | e⟩ <;> simp only [hids] at h
    · refine Or.inr ⟨key, value, next, rfl, by rw [hids], ?_⟩
      rw [hids]
      split at h
      · obtain ⟨⟨ids₂, rest₂⟩, hr, heq⟩ := Option.map_eq_some_iff.1 h
        cases heq
        exact Or.inl ⟨_, ids₂, rfl, hr, rfl⟩
      · next hne =>
        cases h
        refine Or.inr ⟨fun hhead ↦ ?_, rfl, rfl⟩
        obtain ⟨next', rfl⟩ := List.head?_eq_some_iff.1 hhead
        exact hne next' rfl
    · cases h

theorem configStops_of_configLoop {fuel : ℕ} {ts rest : List Token} {ids : List ℤ}
    (h : configLoop fuel ts = some ⟨ids, .ok rest⟩) : ConfigStops ids ts rest := by
  have hnil : Numbers [] := List.forall_mem_nil _
  induction fuel generalizing ts ids with
  | zero => cases h
  | succ fuel ih =>
    rcases configLoop_cases h with ⟨hpair, rfl, rfl⟩ |
      ⟨key, value, next, hpair, hvalue, hnext⟩
    · exact .noPair hnil hpair
    rw [tokens_of_pair hpair]
    rcases value with _ | value
    · -- what is no string begins with an opening bracket
      have hopen : ∀ t ∈ next.head?, t = .byte 123 ∨ t = .byte 91 := by
        rcases rest_of_pair hpair with rfl | ⟨b, next, rfl, hb⟩
        · simp
        · simpa using hb
      rcases hnext with ⟨next', ids', rfl, -, -⟩ | ⟨-, rfl, rfl⟩
      · have hcomma := hopen _ rfl
        simp at hcomma
      · exact .noString hnil hopen
    · rcases hnext with ⟨next', ids', rfl, hloop, rfl⟩ | ⟨hcomma, rfl, rfl⟩
      · exact (ih hloop).cons hvalue
      · have hone : Numbers [(key, value)] := List.forall_mem_singleton.2 hvalue
        have hstops := ConfigStops.noComma hone (List.cons_ne_nil _ _) hcomma
        rw [stringsIds, List.flatMap_singleton] at hstops
        exact hstops

/-- A string in front that is followed by a comma. -/
theorem configLoop_succ {fuel : ℕ} {key value : Bytes} {ts : List Token}
    (hvalue : (memberIds key (some value)).2 = none) :
    configLoop (fuel + 1) (.quoted key :: .byte 58 :: .quoted value :: .byte 44 :: ts) =
      (configLoop fuel ts).map fun r ↦ ⟨(memberIds key (some value)).1 ++ r.ids, r.rest⟩ := by
  rcases hids : memberIds key (some value) with ⟨ids, _ | e⟩
  · simp [configLoop, pair, pairValue, hids]
  · rw [hids] at hvalue
    cases hvalue

/-- A string that no comma follows. -/
theorem configLoop_last {fuel : ℕ} {key value : Bytes} {rest : List Token}
    (hvalue : (memberIds key (some value)).2 = none) (hcomma : rest.head? ≠ some (.byte 44)) :
    configLoop (fuel + 1) (.quoted key :: .byte 58 :: .quoted value :: rest) =
      some ⟨(memberIds key (some value)).1, .ok rest⟩ := by
  rcases hids : memberIds key (some value) with ⟨ids, _ | e⟩
  · simp only [configLoop, pair, pairValue, if_true, hids]
    split
    · exact absurd rfl hcomma
    · rfl
  · rw [hids] at hvalue
    cases hvalue

theorem configLoop_openTokens {strings : List (Bytes × Bytes)} (hids : Numbers strings) (fuel : ℕ)
    (ts : List Token) :
    configLoop (fuel + strings.length) (openTokens strings ++ ts) =
      (configLoop fuel ts).map fun r ↦ ⟨stringsIds strings ++ r.ids, r.rest⟩ := by
  induction strings with
  | nil => simp [stringsIds]
  | cons s strings ih =>
    obtain ⟨key, value⟩ := s
    obtain ⟨hvalue, hids⟩ := List.forall_mem_cons.1 hids
    show configLoop (fuel + strings.length + 1) (.quoted key :: .byte 58 :: .quoted value ::
      .byte 44 :: (openTokens strings ++ ts)) = _
    rw [configLoop_succ hvalue, ih hids, Option.map_map]
    simp [stringsIds, Function.comp_def]

theorem exists_configLoop {ids : List ℤ} {ts rest : List Token} (h : ConfigStops ids ts rest) :
    ∃ fuel, configLoop fuel ts = some ⟨ids, .ok rest⟩ := by
  cases h with
  | @noPair strings rest hids hpair =>
    have hlast : configLoop 1 rest = some ⟨[], .ok rest⟩ := by simp [configLoop, hpair]
    refine ⟨_, (configLoop_openTokens hids 1 rest).trans ?_⟩
    simp [hlast]
  | @noString strings key rest hids hrest =>
    have hlast : configLoop 1 (keyTokens key ++ rest) = some ⟨[], .ok rest⟩ := by
      rcases rest with _ | ⟨t, rest⟩
      · rfl
      · rcases hrest t rfl with rfl | rfl <;> rfl
    refine ⟨_, (configLoop_openTokens hids 1 _).trans ?_⟩
    simp [hlast]
  | @noComma strings rest hids hne hcomma =>
    obtain ⟨strings, ⟨key, value⟩, rfl⟩ := (List.eq_nil_or_concat' strings).resolve_left hne
    obtain ⟨hids, hvalue⟩ := List.forall_mem_append.1 hids
    have hlast : configLoop 1 (keyTokens key ++ [.quoted value] ++ rest) = _ :=
      configLoop_last (hvalue _ (List.mem_singleton_self _)) hcomma
    refine ⟨1 + strings.length, ?_⟩
    rw [stringsTokens_concat, List.append_assoc]
    refine (configLoop_openTokens hids 1 _).trans ?_
    rw [hlast]
    simp [stringsIds]

end Format

/-! ### What passes as a top-level member -/

/-- What the parser passes as a top-level member: a group, or a config section, which it also passes
with a comma before its closing bracket. -/
inductive Passes : (ids : List ℤ) → List Token → Prop
  | group {key : Bytes} {ts : List Token} (hkey : key ≠ str "config") (h : Passable ts) :
      Passes [] (keyTokens key ++ .byte 123 :: (ts ++ [.byte 125]))
  | config {strings : List (Bytes × Bytes)} (hids : Numbers strings) :
      Passes (stringsIds strings) (Member.item (str "config") strings).tokens
  | trailingComma {strings : List (Bytes × Bytes)} (hids : Numbers strings) :
      Passes (stringsIds strings)
        (keyTokens (str "config") ++ .byte 123 :: (openTokens strings ++ [.byte 125]))

/-- A config section on which `parseConfig` fails: what stands behind its name is no object, or no
closing bracket stands where the loop over its strings stops. -/
inductive MalformedConfig : (ids : List ℤ) → List Token → Prop
  | noObject {rest : List Token} (hrest : ∀ t ∈ rest.head?, t = .byte 91) :
      MalformedConfig [] (keyTokens (str "config") ++ rest)
  | notClosed {ids : List ℤ} {ts rest : List Token} (h : ConfigStops ids ts rest)
      (hclose : rest.head? ≠ some (.byte 125)) :
      MalformedConfig ids (keyTokens (str "config") ++ .byte 123 :: ts)

/-- A config section whose strings stop at a closing bracket. -/
theorem ConfigStops.passes {ids : List ℤ} {ts rest : List Token}
    (h : ConfigStops ids ts (.byte 125 :: rest)) :
    ∃ us, keyTokens (str "config") ++ .byte 123 :: ts = us ++ rest ∧ Passes ids us := by
  cases h with
  | noPair hids _ => exact ⟨_, by simp, .trailingComma hids⟩
  | noString _ hrest =>
    have hopen := hrest _ rfl
    simp at hopen
  | noComma hids _ _ => exact ⟨_, by simp [Member.tokens], .config hids⟩

/-- What is read as a top-level member passes as one. -/
theorem Reads.passes {m : Section} {ts rest : List Token} (h : Reads m ts rest) :
    ∃ us, ts = us ++ rest ∧ Passes m.ids us := by
  cases h with
  | @group _ key _ _ _ hkey hgroup =>
    obtain ⟨us, rfl, hus⟩ := Format.passable_of_group hgroup
    have hpasses := Passes.group hkey hus
    exact ⟨_, by simp [keyTokens], hpasses⟩
  | config hconfig =>
    unfold Format.config at hconfig
    split at hconfig
    · obtain ⟨⟨ids, ending⟩, hr, hread⟩ := Option.map_eq_some_iff.1 hconfig
      obtain ⟨rfl, hend⟩ := Format.ConfigRead.mk.inj hread
      unfold Format.configEnd at hend
      split at hend
      · cases hend
      · next hok =>
        cases hok
        cases hend
        exact (Format.configStops_of_configLoop hr).passes
      · cases hend
    · cases hconfig

/-- What passes as a top-level member is read as one. -/
theorem Passes.reads {ids : List ℤ} {us : List Token} (h : Passes ids us) :
    ∃ m, m.ids = ids ∧ ∀ rest, Reads m (us ++ rest) rest := by
  have hconfig {ids : List ℤ} {ts : List Token}
      (hstops : ∀ rest, ConfigStops ids (ts ++ .byte 125 :: rest) (.byte 125 :: rest))
      (rest : List Token) :
      Reads (.config ids)
        (keyTokens (str "config") ++ .byte 123 :: (ts ++ [.byte 125]) ++ rest) rest := by
    obtain ⟨fuel, hfuel⟩ := Format.exists_configLoop (hstops rest)
    have hread : Format.config fuel (.byte 123 :: (ts ++ .byte 125 :: rest)) =
        some ⟨ids, .read rest⟩ := by rw [Format.config, hfuel]; rfl
    simpa [keyTokens] using Reads.config hread
  cases h with
  | @group key ts hkey h =>
    obtain ⟨calls, hcalls⟩ := Format.exists_group_passable h key
    refine ⟨.group calls, rfl, fun rest ↦ ?_⟩
    obtain ⟨fuel, hfuel⟩ := hcalls rest
    simpa [keyTokens] using Reads.group hkey hfuel
  | @config strings hids =>
    refine ⟨.config (stringsIds strings), rfl, hconfig fun rest ↦ ?_⟩
    rcases strings with _ | ⟨s, strings⟩
    · exact .noPair hids (Format.pair_byte ..)
    · exact .noComma hids (List.cons_ne_nil _ _) (by simp)
  | @trailingComma strings hids =>
    exact ⟨.config (stringsIds strings), rfl, hconfig fun rest ↦ .noPair hids (Format.pair_byte ..)⟩

theorem malformedConfig_iff {ids : List ℤ} {ts : List Token} :
    MalformedConfig ids ts ↔ ∃ fuel body, Format.pair ts = some ⟨str "config", none, body⟩ ∧
      Format.config fuel body = some ⟨ids, .failed⟩ := by
  constructor
  · intro h
    cases h with
    | @noObject rest hrest =>
      rcases rest with _ | ⟨t, rest⟩
      · exact ⟨0, [], rfl, rfl⟩
      · rw [hrest t rfl]
        exact ⟨0, .byte 91 :: rest, rfl, rfl⟩
    | @notClosed ids ts rest h hclose =>
      obtain ⟨fuel, hfuel⟩ := Format.exists_configLoop h
      refine ⟨fuel, .byte 123 :: ts, rfl, ?_⟩
      rw [Format.config, hfuel, Option.map_some]
      unfold Format.configEnd
      split
      · next hok => cases hok
      · next hok =>
        cases hok
        exact absurd rfl hclose
      · rfl
  · rintro ⟨fuel, body, hpair, hconfig⟩
    rw [Format.tokens_of_pair hpair]
    rcases Format.rest_of_pair hpair with rfl | ⟨b, body, rfl, rfl | rfl⟩
    · cases hconfig
      exact .noObject (by simp)
    · obtain ⟨⟨ids, ending⟩, hr, hread⟩ := Option.map_eq_some_iff.1 hconfig
      obtain ⟨rfl, hend⟩ := Format.ConfigRead.mk.inj hread
      unfold Format.configEnd at hend
      split at hend
      · cases hend
      · cases hend
      · next rest hne hok =>
        cases hok
        refine .notClosed (Format.configStops_of_configLoop hr) fun hhead ↦ ?_
        obtain ⟨next, rfl⟩ := List.head?_eq_some_iff.1 hhead
        exact hne next rfl
    · cases hconfig
      exact .noObject (by simp)

/-! ### Top-level members of the format -/

theorem Tidy.comma {us vs : List Token} (h : Tidy us) (h' : Tidy vs)
    (hhead : vs.head? ≠ some (.byte 125)) : Tidy (us ++ .byte 44 :: vs) := by
  refine ⟨?_, ?_, ?_⟩
  · rw [depth_append, depth_cons, h.balanced, h'.balanced]
    rfl
  · simp [h.notSquare, h'.notSquare]
  · refine h.noComma.append (List.isChain_cons.2 ⟨fun y hy _ ↦ ?_, h'.noComma⟩) (by simp)
    rintro rfl
    exact hhead hy

theorem Tidy.of_comma {us vs : List Token} (h : Tidy (us ++ .byte 44 :: vs))
    (hus : 0 ≤ depth Token.weight us) (hvs : 0 ≤ depth Token.weight vs) : Tidy us ∧ Tidy vs := by
  obtain ⟨hdepth, hsquare, hchain⟩ := h
  rw [depth_append, depth_cons, show (Token.byte 44).weight = 0 from rfl, zero_add] at hdepth
  simp only [List.mem_append, List.mem_cons, not_or] at hsquare
  exact ⟨⟨by omega, hsquare.1, hchain.left_of_append⟩,
    ⟨by omega, hsquare.2.2, hchain.right_of_append.tail⟩⟩

/-- Behind a name stands a tidy object. -/
theorem tidy_object {key : Bytes} {us : List Token} (hdepth : depth Token.weight us = 0)
    (hsquare : .byte 91 ∉ us)
    (hchain : (.byte 123 :: (us ++ [.byte 125])).IsChain fun x y ↦ x = .byte 44 → y ≠ .byte 125) :
    Tidy (keyTokens key ++ .byte 123 :: (us ++ [.byte 125])) := by
  refine ⟨?_, ?_, ?_⟩
  · rw [depth_object, hdepth]
  · simp [keyTokens, hsquare]
  · show (Token.quoted key :: .byte 58 :: .byte 123 :: (us ++ [.byte 125])).IsChain _
    rw [List.isChain_cons_cons, List.isChain_cons_cons]
    simp [hchain]

theorem Member.TopLevel.tidy {m : Member} (hm : m.TopLevel) : Tidy m.tokens := by
  cases m with
  | string key value => exact hm.elim
  | item key strings =>
    refine tidy_object (depth_stringsTokens strings) (not_square_stringsTokens strings) ?_
    rcases strings with _ | ⟨s, strings⟩
    · simp [stringsTokens]
    · have hspan := spans_stringsTokens (List.cons_ne_nil s strings) (.byte 123) (.byte 125)
      exact (hspan.follows.2 trivial).imp fun x y hfollows hx ↦ (hfollows (Or.inr hx)).2
  | group key members =>
    have hmembers := orderly_membersTokens members hm.2.1 hm.2.2
    exact tidy_object hmembers.balanced hmembers.notSquare hmembers.noComma

/-- Top-level members of the format are tidy. -/
theorem tidy_membersTokens {ms : List Member} (hne : ms ≠ []) (hms : ∀ m ∈ ms, m.TopLevel) :
    Tidy (membersTokens ms) := by
  induction ms with
  | nil => exact absurd rfl hne
  | cons m ms ih =>
    obtain ⟨hm, hms⟩ := List.forall_mem_cons.1 hms
    rcases ms with _ | ⟨m', ms⟩
    · exact hm.tidy
    · rw [membersTokens_cons m (List.cons_ne_nil _ _)]
      refine hm.tidy.comma (ih (List.cons_ne_nil _ _) hms) ?_
      cases m' <;> cases ms <;> simp [membersTokens, Member.tokens, keyTokens]

theorem Passes.depth_nonneg {ids : List ℤ} {us : List Token} (h : Passes ids us) :
    0 ≤ depth Token.weight us := by
  cases h with
  | group hkey h =>
    rw [depth_object]
    exact h.depth_nonneg
  | config hids => rw [Member.tokens, depth_object, depth_stringsTokens]
  | trailingComma hids => rw [depth_object, depth_openTokens]

/-- A tidy text that passes as a top-level member is one of the format. -/
theorem Passes.exists_member {ids : List ℤ} {us : List Token} (h : Passes ids us)
    (htidy : Tidy us) : ∃ m : Member, m.TopLevel ∧ us = m.tokens := by
  cases h with
  | @group key ts hkey h =>
    have hdepth : depth Token.weight ts = 0 := depth_object key ts ▸ htidy.balanced
    have hsquare : .byte 91 ∉ ts := fun hmem ↦ htidy.notSquare (by simp [hmem])
    obtain ⟨ms, hne, hms, rfl⟩ := orderly_iff.1 ⟨h, hdepth, hsquare⟩
    exact ⟨.group key ms, ⟨hkey, hne, hms⟩, rfl⟩
  | @config strings hids => exact ⟨.item (str "config") strings, rfl, rfl⟩
  | @trailingComma strings hids =>
    rcases List.eq_nil_or_concat' strings with rfl | ⟨strings, ⟨key, value⟩, rfl⟩
    · exact ⟨.item (str "config") [], rfl, rfl⟩
    · -- its last comma stands before the closing bracket
      have hchain := htidy.noComma
      have hlast : keyTokens (str "config") ++ .byte 123 ::
          (openTokens (strings ++ [(key, value)]) ++ [.byte 125]) =
          keyTokens (str "config") ++ .byte 123 :: (openTokens strings ++ keyTokens key ++
            [.quoted value]) ++ .byte 44 :: .byte 125 :: [] := by
        simp [openTokens, keyTokens]
      rw [hlast, List.isChain_append_cons_cons] at hchain
      exact absurd rfl (hchain.2.1 rfl)

/-! ### Top-level members of the format, as they are read -/

namespace Format

theorem configLoop_strings {fuel : ℕ} {strings : List (Bytes × Bytes)} {rest : List Token}
    {r : ConfigItemRead}
    (h : configLoop fuel (stringsTokens strings ++ .byte 125 :: rest) = some r) :
    (∃ e, r.rest = .error e) ∨ r.rest = .ok (.byte 125 :: rest) := by
  induction strings generalizing fuel r with
  | nil =>
    rcases fuel with _ | fuel <;> cases h
    exact Or.inr rfl
  | cons s strings ih =>
    obtain ⟨key, value⟩ := s
    rcases r with ⟨ids, e | rest'⟩
    · exact Or.inl ⟨e, rfl⟩
    rcases fuel with _ | fuel
    · cases h
    rcases configLoop_cases h with ⟨hpair, -⟩ | ⟨key', value', next, hpair, -, hnext⟩
    · rcases strings with _ | ⟨s, strings⟩ <;> cases hpair
    rcases strings with _ | ⟨s, strings⟩
    · cases hpair
      rcases hnext with ⟨next', ids', hcomma, -⟩ | ⟨-, -, rfl⟩
      · cases hcomma
      · exact Or.inr rfl
    · rw [stringsTokens_cons key value (List.cons_ne_nil _ _)] at hpair
      cases hpair
      rcases hnext with ⟨next', ids', hcomma, hloop, rfl⟩ | ⟨hcomma, -⟩
      · cases hcomma
        simpa using ih hloop
      · exact absurd rfl hcomma

/-- A config section with strings only is read, or `stoi` throws. -/
theorem config_strings {fuel : ℕ} {strings : List (Bytes × Bytes)} {rest : List Token}
    {r : ConfigRead}
    (h : config fuel (.byte 123 :: (stringsTokens strings ++ .byte 125 :: rest)) = some r) :
    (∃ e, r.ending = .threw e) ∨ r.ending = .read rest := by
  obtain ⟨r', hr', rfl⟩ := Option.map_eq_some_iff.1 h
  rcases configLoop_strings hr' with ⟨e, he⟩ | hread
  · exact Or.inl ⟨e, by rw [he]; rfl⟩
  · exact Or.inr (by rw [hread]; rfl)

end Format

theorem Member.tokens_item (key : Bytes) (strings : List (Bytes × Bytes)) (rest : List Token) :
    (Member.item key strings).tokens ++ rest =
      .quoted key :: .byte 58 :: .byte 123 :: (stringsTokens strings ++ .byte 125 :: rest) := by
  simp [Member.tokens, keyTokens]

/-- What is read of a member of the format is all of it. -/
theorem Member.TopLevel.rest_eq {m : Member} (hm : m.TopLevel) {s : Section}
    {rest rest' : List Token} (h : Reads s (m.tokens ++ rest) rest') : rest' = rest := by
  cases m with
  | string key value => exact hm.elim
  | item key strings =>
    rw [Member.tokens_item] at h
    cases h with
    | group hkey hgroup => exact absurd hm hkey
    | config hconfig =>
      rcases Format.config_strings hconfig with ⟨e, he⟩ | hread
      · cases he
      · cases hread
        rfl
  | group key members =>
    have hmembers := orderly_membersTokens members hm.2.1 hm.2.2
    obtain ⟨s', -, hreads⟩ := (Passes.group hm.1 hmembers.passable).reads
    exact (h.unique (hreads rest)).2

/-- A member of the format is no broken config section. -/
theorem Member.TopLevel.not_malformedConfig {m : Member} (hm : m.TopLevel) {ids : List ℤ}
    (rest : List Token) : ¬ MalformedConfig ids (m.tokens ++ rest) := by
  intro h
  obtain ⟨fuel, body, hpair, hconfig⟩ := malformedConfig_iff.1 h
  cases m with
  | string key value => exact hm
  | item key strings =>
    rw [Member.tokens_item] at hpair
    cases hpair
    rcases Format.config_strings hconfig with ⟨e, he⟩ | hread
    · cases he
    · cases hread
  | group key members =>
    cases hpair
    exact hm.1 rfl

end SensingHub.Json
