import SensingHub.Json.Complete
import SensingHub.Json.FileRefinement
import SensingHub.Json.Hub

/-!
# What a result 0 says about a file

A result 0 of `loadFile` should mean that the text up to the final cursor is a complete object of
the format, unless the file was skipped for another device. It does except in four cases.
`parseFile` compares the result of `parseConfig` with 0 where a failure is -1, and it never looks at
the byte that ends its loop, where `parseItem` and `parseGroup` ask for the closing bracket.
`parseItem` returns a length other than 0 on an item that it cannot read, and `parseConfigItem`
leaves its loop in the same way at a pair that it cannot read and behind the last one. `Misread`
describes the files in which one of these happens and the result is 0.
-/

namespace SensingHub.Json

open CLib (str)
open Depth

/-- If the result is 0 and the file was not skipped, it is complete up to the final cursor. -/
def AcceptanceSound (l : Loaded) (c : Bytes) : Prop :=
  l.ret = .ok 0 → ¬ l.parser.Skips → CompleteUpTo c l.cursor

/-- The top-level members are misread. Some pass that are separated by commas without white space
before them; then one is followed by no such comma, and what has been passed is not tidy or no
closing bracket stands there; or there is a malformed config section. The file has not named
other devices up to there; `passed` is what has been passed of it before, `ids` what that lists. -/
inductive Misread (device : ℤ) : (passed : List Token) → (ids : List ℤ) → List Lexeme → Prop
  | ended {passed : List Token} {ids ids' : List ℤ} {ls ls' : List Lexeme}
      (h : Passes ids' (ls.map Lexeme.token)) (hids : ¬ Mismatch device (ids ++ ids'))
      (hcomma : ls'.head? ≠ some ⟨false, .byte 44⟩)
      (hend : Tidy (passed ++ ls.map Lexeme.token) →
        (ls'.map Lexeme.token).head? ≠ some (.byte 125)) : Misread device passed ids (ls ++ ls')
  | malformedConfig {passed : List Token} {ids ids' : List ℤ} {ls : List Lexeme}
      (h : MalformedConfig ids' (ls.map Lexeme.token)) (hids : ¬ Mismatch device (ids ++ ids')) :
      Misread device passed ids ls
  | later {passed : List Token} {ids ids' : List ℤ} {ls ls' : List Lexeme}
      (h : Passes ids' (ls.map Lexeme.token)) (hids : ¬ Mismatch device (ids ++ ids'))
      (hrest : Misread device (passed ++ (ls.map Lexeme.token ++ [.byte 44])) (ids ++ ids') ls') :
      Misread device passed ids (ls ++ ⟨false, .byte 44⟩ :: ls')

/-- The file is an object whose members are misread. -/
def FileMisread (device : ℤ) (c : Bytes) : Prop :=
  ∃ gap ls, lex c = ⟨gap, .byte 123⟩ :: ls ∧ Misread device [] [] ls

/-! ### The rounds of the loop -/

/-- The rounds of the loop over the top-level members and how they end, without fuel. -/
inductive Rounds (stale : ℕ → Bytes) (device : ℤ) :
    (ids : List ℤ) → List Lexeme → Progress → Format.FileEnd → Progress → Prop
  | next {ids : List ℤ} {m : Section} {ls ls' : List Lexeme} {s s' : Progress}
      {e : Format.FileEnd} (h : Reads m (ls.map Lexeme.token) (.byte 44 :: ls'.map Lexeme.token))
      (hsuffix : ⟨false, .byte 44⟩ :: ls' <:+ ls) (hids : ¬ Mismatch device (ids ++ m.ids))
      (hrest : Rounds stale device (ids ++ m.ids) ls' (s.member stale m) e s') :
      Rounds stale device ids ls s e s'
  | ended {ids : List ℤ} {m : Section} {ls ls' : List Lexeme} {s : Progress}
      (h : Reads m (ls.map Lexeme.token) (ls'.map Lexeme.token)) (hsuffix : ls' <:+ ls)
      (hids : ¬ Mismatch device (ids ++ m.ids)) (hcomma : ls'.head? ≠ some ⟨false, .byte 44⟩) :
      Rounds stale device ids ls s (.ended ls') (s.member stale m)
  | brokenConfig {fuel : ℕ} {ids ids' : List ℤ} {ls : List Lexeme} {ts : List Token}
      {s : Progress}
      (hpair : Format.pair (ls.map Lexeme.token) = some ⟨str "config", none, ts⟩)
      (hconfig : Format.config fuel ts = some ⟨ids', .failed⟩)
      (hids : ¬ Mismatch device (ids ++ ids')) :
      Rounds stale device ids ls s .brokenConfig (s.addIds ids').matchSocId
  | skipped {ids ids' : List ℤ} {ls : List Lexeme} {s s' : Progress}
      (hs : SocState device ids' s'.parser) (hids : Mismatch device ids') :
      Rounds stale device ids ls s .skipped s'
  | failed {ids : List ℤ} {ls : List Lexeme} {s s' : Progress} :
      Rounds stale device ids ls s .failed s'
  | threw {ids : List ℤ} {ls : List Lexeme} {s s' : Progress} (e : CLib.StoiError) :
      Rounds stale device ids ls s (.threw e) s'

section

variable {stale : ℕ → Bytes} {fuel : ℕ} {ls : List Lexeme} {s s' : Progress} {device : ℤ}
  {ids : List ℤ} {e : Format.FileEnd}

/-- **The loop makes these rounds.** -/
theorem rounds_of_fileLoop (h : Format.fileLoop stale fuel ls s = some (e, s'))
    (hfuel : ls.length < fuel) (hs : SocState device ids s.parser)
    (hids : ¬ Mismatch device ids) : Rounds stale device ids ls s e s' := by
  induction fuel generalizing ids ls s with
  | zero => exact absurd hfuel (Nat.not_lt_zero _)
  | succ fuel ih =>
    rcases Format.fileLoop_cases h with ⟨m, ls', hm, hsuffix⟩ | rfl | ⟨e', rfl⟩ |
      ⟨ts, ids', hpair, hconfig, rfl, rfl⟩
    · have hmember := hs.member stale m
      rw [Format.fileLoop_reads hm hsuffix (Nat.le_of_lt_succ hfuel) hs hids] at h
      by_cases hmismatch : Mismatch device (ids ++ m.ids)
      · rw [if_pos (hmember.skips_iff.2 hmismatch)] at h
        cases h
        exact .skipped hmember hmismatch
      rw [if_neg fun h ↦ hmismatch (hmember.skips_iff.1 h)] at h
      rcases Format.fileNext_cases (fun ls ↦ Format.fileLoop stale fuel ls (s.member stale m))
        (fun ls ↦ some (.ended ls, s.member stale m)) ls' with ⟨ls'', rfl, hnext⟩ | ⟨hcomma, hdone⟩
      · rw [hnext] at h
        have hlen := hsuffix.length_le
        simp only [List.length_cons] at hlen
        exact .next hm hsuffix hmismatch (ih h (by omega) hmember hmismatch)
      · rw [hdone] at h
        cases h
        exact .ended hm hsuffix hmismatch hcomma
    · exact .failed
    · exact .threw e'
    · have hadd := hs.addIds ids'
      by_cases hmismatch : Mismatch device (ids ++ ids')
      · rw [if_pos (hadd.skips_iff.2 hmismatch)]
        exact .skipped hadd hmismatch
      · rw [if_neg fun h ↦ hmismatch (hadd.skips_iff.1 h)]
        exact .brokenConfig hpair hconfig hmismatch

/-- The parser object tells whether the file was skipped. -/
def TellsSkip (p : QshJsonParser) : Format.FileEnd → Prop
  | .skipped => p.Skips
  | .brokenConfig | .ended _ => ¬ p.Skips
  | .failed | .threw _ => True

theorem Rounds.tellsSkip (h : Rounds stale device ids ls s e s')
    (hs : SocState device ids s.parser) : TellsSkip s'.parser e := by
  induction h with
  | @next ids m ls ls' s s' e _ _ _ _ ih => exact ih (hs.member stale m)
  | @ended ids m ls ls' s _ _ hids _ =>
    exact fun h ↦ hids ((hs.member stale m).skips_iff.1 h)
  | @brokenConfig fuel ids ids' ls ts s _ _ hids =>
    exact fun h ↦ hids ((hs.addIds ids').skips_iff.1 h)
  | skipped hs' hids => exact hs'.skips_iff.2 hids
  | failed => trivial
  | threw => trivial

/-- The lexemes of a top-level member that is read. -/
theorem Reads.exists_passes {m : Section} {ls' : List Lexeme}
    (h : Reads m (ls.map Lexeme.token) (ls'.map Lexeme.token)) (hsuffix : ls' <:+ ls) :
    ∃ ls₁, ls = ls₁ ++ ls' ∧ Passes m.ids (ls₁.map Lexeme.token) := by
  obtain ⟨ls₁, rfl⟩ := hsuffix
  obtain ⟨us, hus, hpasses⟩ := h.passes
  rw [List.map_append] at hus
  exact ⟨ls₁, rfl, List.append_cancel_right hus ▸ hpasses⟩

/-- Where the loop comes to an end, what it has passed is made of members of the format if it is
tidy. -/
theorem Rounds.exists_members {ls' : List Lexeme} (h : Rounds stale device ids ls s e s')
    (he : e = .ended ls') :
    ∃ us, ls.map Lexeme.token = us ++ ls'.map Lexeme.token ∧ 0 ≤ depth Token.weight us ∧
      (Tidy us → ∃ ms ≠ [], (∀ m ∈ ms, m.TopLevel) ∧ us = membersTokens ms) := by
  induction h with
  | @next ids m ls ls₂ s s' e hm hsuffix _ _ ih =>
    obtain ⟨ls₁, rfl, hls₁⟩ := Reads.exists_passes hm hsuffix
    obtain ⟨us, hus, hdepth, hmembers⟩ := ih he
    refine ⟨ls₁.map Lexeme.token ++ .byte 44 :: us, by simp [hus], ?_, fun htidy ↦ ?_⟩
    · rw [depth_append, depth_cons, show (Token.byte 44).weight = 0 from rfl, zero_add]
      exact add_nonneg hls₁.depth_nonneg hdepth
    · obtain ⟨htidy₁, htidy⟩ := htidy.of_comma hls₁.depth_nonneg hdepth
      obtain ⟨m', hm', heq⟩ := hls₁.exists_member htidy₁
      obtain ⟨ms, hne, hms, rfl⟩ := hmembers htidy
      exact ⟨m' :: ms, List.cons_ne_nil _ _, List.forall_mem_cons.2 ⟨hm', hms⟩,
        by rw [membersTokens_cons m' hne, heq]⟩
  | @ended ids m ls ls₂ s hm hsuffix _ _ =>
    cases he
    obtain ⟨ls₁, rfl, hls₁⟩ := Reads.exists_passes hm hsuffix
    refine ⟨ls₁.map Lexeme.token, List.map_append, hls₁.depth_nonneg, fun htidy ↦ ?_⟩
    obtain ⟨m', hm', heq⟩ := hls₁.exists_member htidy
    exact ⟨[m'], List.cons_ne_nil _ _, List.forall_mem_singleton.2 hm', heq⟩
  | _ => cases he

/-- A loop that ends behind a broken config section has not read members of the format up to a
closing bracket, wherever that may be. -/
theorem Rounds.not_members (h : Rounds stale device ids ls s e s') (he : e = .brokenConfig)
    {ms : List Member} (hne : ms ≠ []) (hms : ∀ m ∈ ms, m.TopLevel) {rest : List Token} :
    ls.map Lexeme.token ≠ membersTokens ms ++ .byte 125 :: rest := by
  obtain ⟨m, ms, rfl⟩ := List.exists_cons_of_ne_nil hne
  induction h generalizing m ms with
  | @next ids s ls ls' _ _ e hm _ _ _ ih =>
    intro htokens
    obtain ⟨htop, hms⟩ := List.forall_mem_cons.1 hms
    rw [htokens] at hm
    rcases ms with _ | ⟨m', ms⟩
    · have hcomma := htop.rest_eq hm
      cases hcomma
    · rw [membersTokens_cons m (List.cons_ne_nil _ _), List.append_assoc] at hm
      have hcomma := htop.rest_eq hm
      exact ih he m' ms (List.cons_ne_nil _ _) hms (List.cons.inj hcomma).2
  | brokenConfig hpair hconfig _ =>
    intro htokens
    have htop := hms m (List.mem_cons_self ..)
    have hbroken := malformedConfig_iff.2 ⟨_, _, hpair, hconfig⟩
    rw [htokens] at hbroken
    rcases ms with _ | ⟨m', ms⟩
    · exact htop.not_malformedConfig _ hbroken
    · rw [membersTokens_cons m (List.cons_ne_nil _ _), List.append_assoc] at hbroken
      exact htop.not_malformedConfig _ hbroken
  | _ => cases he

/-- The loop over the tokens `ts` ends where it should not. -/
def EndsAmiss (ts : List Token) : Format.FileEnd → Prop
  | .brokenConfig => True
  | .ended ls => ∀ us, ts = us ++ ls.map Lexeme.token → Tidy us →
      (ls.map Lexeme.token).head? ≠ some (.byte 125)
  | .failed | .skipped | .threw _ => False

theorem Rounds.misread (h : Rounds stale device ids ls s e s') (passed : List Token)
    (he : EndsAmiss (passed ++ ls.map Lexeme.token) e) : Misread device passed ids ls := by
  induction h generalizing passed with
  | next hm hsuffix hids _ ih =>
    obtain ⟨ls₁, rfl, hls₁⟩ := Reads.exists_passes hm hsuffix
    exact .later hls₁ hids (ih _ (by simpa using he))
  | ended hm hsuffix hids hcomma =>
    obtain ⟨ls₁, rfl, hls₁⟩ := Reads.exists_passes hm hsuffix
    exact .ended hls₁ hids hcomma fun htidy ↦ he _ (by simp) htidy
  | brokenConfig hpair hconfig hids =>
    exact .malformedConfig (malformedConfig_iff.2 ⟨_, _, hpair, hconfig⟩) hids
  | _ => exact he.elim

/-- Where the members are misread the loop ends amiss. -/
theorem Misread.endsAmiss {passed : List Token} (h : Misread device passed ids ls)
    (hrun : Format.fileLoop stale fuel ls s = some (e, s')) (hfuel : ls.length < fuel)
    (hs : SocState device ids s.parser) (hids : ¬ Mismatch device ids) :
    EndsAmiss (passed ++ ls.map Lexeme.token) e := by
  induction h generalizing fuel s with
  | @ended passed ids _ ls ls' hpasses hids' hcomma hend =>
    obtain ⟨fuel, rfl⟩ : ∃ n, fuel = n + 1 := ⟨fuel - 1, by omega⟩
    obtain ⟨m, rfl, hreads⟩ := hpasses.reads
    have hm : Reads m ((ls ++ ls').map Lexeme.token) (ls'.map Lexeme.token) := by
      rw [List.map_append]
      exact hreads _
    rw [Format.fileLoop_reads hm (List.suffix_append ..) (Nat.le_of_lt_succ hfuel) hs hids,
      if_neg fun h ↦ hids' ((hs.member stale m).skips_iff.1 h),
      Format.fileNext_of_head? hcomma] at hrun
    cases hrun
    intro us hus htidy
    rw [List.map_append, ← List.append_assoc] at hus
    exact hend (List.append_cancel_right hus ▸ htidy)
  | @malformedConfig passed ids ids' ls hconfig hids' =>
    obtain ⟨fuel, rfl⟩ : ∃ n, fuel = n + 1 := ⟨fuel - 1, by omega⟩
    obtain ⟨fuel', ts, hpair, hfailed⟩ := malformedConfig_iff.1 hconfig
    have hlen := Format.length_of_pair hpair
    simp only [List.length_map] at hlen
    have hisSome : (Format.config fuel ts).isSome := Format.config_isSome (by omega)
    obtain ⟨r, hr⟩ := Option.isSome_iff_exists.1 hisSome
    rw [Format.fileLoop, hpair] at hrun
    simp only [Format.fileMember, if_true, hr, Format.config_unique hr hfailed, Option.map_some,
      Option.bind_some] at hrun
    rw [if_neg fun h ↦ hids' ((hs.addIds ids').skips_iff.1 h)] at hrun
    cases hrun
    trivial
  | @later passed ids _ ls ls' hpasses hids' hrest ih =>
    obtain ⟨fuel, rfl⟩ : ∃ n, fuel = n + 1 := ⟨fuel - 1, by omega⟩
    obtain ⟨m, rfl, hreads⟩ := hpasses.reads
    have hm : Reads m ((ls ++ ⟨false, .byte 44⟩ :: ls').map Lexeme.token)
        (.byte 44 :: ls'.map Lexeme.token) := by
      rw [List.map_append]
      exact hreads _
    have hround : Format.fileLoop stale (fuel + 1) (ls ++ ⟨false, .byte 44⟩ :: ls') s = _ :=
      Format.fileLoop_comma hm (List.suffix_append ..) (Nat.le_of_lt_succ hfuel) hs hids hids'
    rw [hround] at hrun
    simp only [List.length_append, List.length_cons] at hfuel
    have hend := ih hrun (by omega) (hs.member stale m) hids'
    simpa using hend

end

/-! ### Acceptance -/

/-- A file that opens with a bracket is misread exactly if the loop over its members ends amiss. -/
theorem fileMisread_iff {device : ℤ} {c : Bytes} {gap : Bool} {ls : List Lexeme}
    (hlex : lex c = ⟨gap, .byte 123⟩ :: ls) {stale : ℕ → Bytes} {fuel : ℕ} {s s' : Progress}
    {e : Format.FileEnd} (hrun : Format.fileLoop stale fuel ls s = some (e, s'))
    (hfuel : ls.length < fuel) (hs : SocState device [] s.parser) :
    FileMisread device c ↔ EndsAmiss (ls.map Lexeme.token) e := by
  have hnil := not_mismatch_nil device
  constructor
  · rintro ⟨gap', ls', hlex', hmisread⟩
    rw [hlex] at hlex'
    cases hlex'
    exact hmisread.endsAmiss hrun hfuel hs hnil
  · exact fun he ↦ ⟨gap, ls, hlex, (rounds_of_fileLoop hrun hfuel hs hnil).misread [] he⟩

/-- What a load has read is complete exactly if the loop has not ended amiss. -/
theorem acceptanceSound_iff_endsAmiss {device : ℤ} {c : Bytes} {gap : Bool} {ls : List Lexeme}
    (hlex : lex c = ⟨gap, .byte 123⟩ :: ls) {stale : ℕ → Bytes} {s s' : Progress}
    {e : Format.FileEnd} (hrounds : Rounds stale device [] ls s e s')
    (htells : TellsSkip s'.parser e) {l : Loaded} (hret : l.ret = e.result)
    (hskips : l.parser.Skips ↔ s'.parser.Skips)
    (hcursor : ∀ ls', e = .ended ls' → lex (c.drop l.cursor) = ls') :
    AcceptanceSound l c ↔ ¬ EndsAmiss (ls.map Lexeme.token) e := by
  have htokens : tokens c = .byte 123 :: ls.map Lexeme.token := by rw [tokens, hlex]; rfl
  rw [AcceptanceSound, hret, hskips]
  cases e with
  | failed => exact ⟨fun _ h ↦ h, fun _ h ↦ by cases h⟩
  | threw e' => exact ⟨fun _ h ↦ h, fun _ h ↦ by cases e' <;> cases h⟩
  | skipped => exact ⟨fun _ h ↦ h, fun _ _ h ↦ absurd htells h⟩
  | brokenConfig =>
    refine ⟨fun hsound _ ↦ ?_, fun h ↦ absurd trivial h⟩
    obtain ⟨ms, rest, hne, hms, hts, -⟩ := hsound rfl htells
    rw [htokens] at hts
    exact hrounds.not_members rfl hne hms (List.cons.inj hts).2
  | ended ls' =>
    have hrest : tokens (c.drop l.cursor) = ls'.map Lexeme.token := by
      rw [tokens, hcursor ls' rfl]
    constructor
    · intro hsound hamiss
      obtain ⟨ms, rest, hne, hms, hts, hclose⟩ := hsound rfl htells
      rw [htokens, ← hclose, hrest] at hts
      refine hamiss _ (List.cons.inj hts).2 (tidy_membersTokens hne hms) ?_
      rw [← hrest, hclose]
      rfl
    · intro hnot _ _
      obtain ⟨us, hus, -, hmembers⟩ := hrounds.exists_members rfl
      obtain ⟨htidy, hclose⟩ : Tidy us ∧ (ls'.map Lexeme.token).head? = some (.byte 125) := by
        by_contra hor
        refine hnot fun us' hus' htidy hclose ↦ hor ⟨?_, hclose⟩
        exact List.append_cancel_right (hus.symm.trans hus') ▸ htidy
      obtain ⟨ms, hne, hms, rfl⟩ := hmembers htidy
      obtain ⟨rest, hls'⟩ := List.head?_eq_some_iff.1 hclose
      exact ⟨ms, rest, hne, hms, by rw [htokens, hus, hls'], hrest.trans hls'⟩

/-- **A result 0 is sound exactly for the files that are not misread.** -/
theorem acceptanceSound_iff (p : QshJsonParser) {c : Bytes} {fuel : ℕ} (hfits : FitsCursors fuel c)
    (hfuel : c.length < fuel) (stale : ℕ → Bytes) :
    AcceptanceSound (p.loadFile fuel stale (.content c)) c ↔ ¬ FileMisread p.mDeviceSocId c := by
  have hload := loadFile_run fuel stale c p hfits.1 hfits.2
  have hlen := (length_lex_le c).trans_lt hfuel
  by_cases hopen : ∃ gap ls, lex c = ⟨gap, .byte 123⟩ :: ls
  · obtain ⟨gap, ls, hlex⟩ := hopen
    have hstart := socState_resetParserState p
    rw [hlex, List.length_cons] at hlen
    have hls : ls.length < fuel := by omega
    obtain ⟨⟨e, s⟩, hrun⟩ := Option.isSome_iff_exists.1
      (Format.fileLoop_isSome stale ⟨p.resetParserState, 0⟩ hls)
    rw [hlex, Format.file, hrun] at hload
    obtain ⟨hret, hparser, hcursor⟩ := hload
    have hskips : (p.loadFile fuel stale (.content c)).parser.Skips ↔ s.parser.Skips := by
      rw [hparser]
      split_ifs <;> exact Iff.rfl
    have hrounds := rounds_of_fileLoop hrun hls hstart (not_mismatch_nil _)
    rw [fileMisread_iff hlex hrun hls hstart]
    exact acceptanceSound_iff_endsAmiss hlex hrounds (hrounds.tellsSkip hstart) hret hskips hcursor
  · rw [Format.file_of_not_open hopen] at hload
    refine iff_of_true (fun hzero ↦ ?_) ?_
    · rw [hload.1] at hzero
      cases hzero
    · rintro ⟨gap, ls, hlex, -⟩
      exact hopen ⟨gap, ls, hlex⟩

/-- A file with an empty item, and with a hub behind the group that has it. -/
def unreadHubFile : Bytes :=
  str "\x7b\"g\":\x7b\"x\":\x7b\x7d\x7d,\"h\":\x7b\"sensing_hub_id\":\x7b\"data\":\"1\"\x7d\x7d\x7d"

/-- A file whose config section has a comma behind its last string. -/
def trailingCommaFile : Bytes :=
  str "\x7b\"config\":\x7b\"soc_id\":\"1\",\x7d\x7d"

/-- The first group ends with the bracket of its item, and the file with that of the group. -/
theorem fileMisread_unreadHubFile : FileMisread 0 unreadHubFile := by
  have hitem : Passable (keyTokens (str "x") ++ .byte 123 :: openTokens []) :=
    .openItem [] (by decide)
  have hpasses : Passes [] (((lex unreadHubFile).tail.take 7).map Lexeme.token) := by
    have hkey : str "g" ≠ str "config" := by decide
    have hgroup := Passes.group hkey hitem
    convert hgroup using 1
    decide +kernel
  have hmisread : Misread 0 [] [] ((lex unreadHubFile).tail.take 7 ++
      (lex unreadHubFile).tail.drop 7) :=
    .ended hpasses (by decide) (by decide +kernel) fun htidy ↦
      absurd htidy.balanced (by decide +kernel)
  rw [List.take_append_drop] at hmisread
  exact ⟨false, _, by decide +kernel, hmisread⟩

theorem fileMisread_trailingCommaFile : FileMisread 1 trailingCommaFile := by
  have hids : Numbers [(str "soc_id", str "1")] := by decide +kernel
  have hpasses : Passes [1] (((lex trailingCommaFile).tail.take 8).map Lexeme.token) := by
    have hconfig := Passes.trailingComma hids
    convert hconfig using 1 <;> decide +kernel
  have hmisread : Misread 1 [] [] ((lex trailingCommaFile).tail.take 8 ++
      (lex trailingCommaFile).tail.drop 8) :=
    .ended hpasses (by decide) (by decide +kernel) fun htidy ↦
      absurd htidy.noComma (by decide +kernel)
  rw [List.take_append_drop] at hmisread
  exact ⟨false, _, by decide +kernel, hmisread⟩

/-- The second group of the one file is never read, the comma in the other is passed over. -/
theorem not_acceptanceSound_misread :
    ¬ AcceptanceSound
        ((QshJsonParser.fresh 0).loadFile 100 (fun _ ↦ []) (.content unreadHubFile))
        unreadHubFile ∧
      ¬ AcceptanceSound
        ((QshJsonParser.fresh 1).loadFile 100 (fun _ ↦ []) (.content trailingCommaFile))
        trailingCommaFile := by
  have hfits {c : Bytes} (h : c.length < 100) : FitsCursors 100 c :=
    fitsCursors_of_lt (h.trans (by decide))
  have hunread : unreadHubFile.length < 100 := by decide +kernel
  have htrailing : trailingCommaFile.length < 100 := by decide +kernel
  exact ⟨fun hsound ↦ (acceptanceSound_iff (.fresh 0) (hfits hunread) hunread _).1 hsound
      fileMisread_unreadHubFile,
    fun hsound ↦ (acceptanceSound_iff (.fresh 1) (hfits htrailing) htrailing _).1 hsound
      fileMisread_trailingCommaFile⟩

/-- A file that ends behind its first group, without its last bracket. -/
def truncatedFile : Bytes :=
  render (.byte 123 :: (Member.group (str "g") [dataItem (str "k") (str "1")]).tokens)

/-- A truncated file is reported as parsed. -/
theorem not_acceptanceSound_truncatedFile :
    ¬ AcceptanceSound
      ((QshJsonParser.fresh 0).loadFile 100 (fun _ ↦ []) (.content truncatedFile))
      truncatedFile := by
  intro hsound
  obtain ⟨ms, rest, -, -, -, hclose⟩ := hsound (by decide +kernel) (by decide +kernel)
  have hnil : tokens (truncatedFile.drop
      ((QshJsonParser.fresh 0).loadFile 100 (fun _ ↦ [])
        (.content truncatedFile)).cursor) = [] := by
    decide +kernel
  cases hnil.symm.trans hclose

end SensingHub.Json
