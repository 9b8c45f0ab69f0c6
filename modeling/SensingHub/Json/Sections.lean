import SensingHub.Json.Locality

/-!
# The top-level members of a file

A file is an object of top-level members, each a group or a config section. `Reads` says that a
member stands at the start of some tokens and is read without an error, `Members` that members
separated by commas do; neither depends on fuel, nor on what the parser object holds. A round of the
loop of `parseFile` is then the reading of one member (`fileLoop_reads`) or one of the ways in which
the loop ends (`fileLoop_cases`).
-/

namespace SensingHub.Json

open CLib (str)

/-! ### Members -/

/-- A top-level member: a group with the calls it makes, or a config section with the ids it
lists. -/
inductive Section
  | group (calls : List Call)
  | config (ids : List ℤ)

/-- The ids a top-level member lists. -/
def Section.ids : Section → List ℤ
  | .group _ => []
  | .config ids => ids

/-- A top-level member at the start of some tokens is read, up to `rest`. -/
inductive Reads : Section → (ts rest : List Token) → Prop
  | group {fuel : ℕ} {key : Bytes} {ts rest : List Token} {calls : List Call}
      (hkey : key ≠ str "config")
      (hgroup : Format.group fuel key ts = some ⟨calls, some rest⟩) :
      Reads (.group calls) (.quoted key :: .byte 58 :: ts) rest
  | config {fuel : ℕ} {ts rest : List Token} {ids : List ℤ}
      (hconfig : Format.config fuel ts = some ⟨ids, .read rest⟩) :
      Reads (.config ids) (.quoted (str "config") :: .byte 58 :: ts) rest

/-- Top-level members separated by commas are read, up to `rest`. -/
inductive Members : List Section → (ts rest : List Token) → Prop
  | last {m : Section} {ts rest : List Token} (h : Reads m ts rest) : Members [m] ts rest
  | comma {m : Section} {ms : List Section} {ts ts' rest : List Token}
      (h : Reads m ts (.byte 44 :: ts')) (hms : Members ms ts' rest) : Members (m :: ms) ts rest

/-- What is read of a top-level member is determined. -/
theorem Reads.unique {m m' : Section} {ts rest rest' : List Token} (h : Reads m ts rest)
    (h' : Reads m' ts rest') : m = m' ∧ rest = rest' := by
  cases h with
  | group hkey hgroup =>
    cases h' with
    | group _ hgroup' =>
      cases Format.group_unique hgroup hgroup'
      exact ⟨rfl, rfl⟩
    | config _ => exact absurd rfl hkey
  | config hconfig =>
    cases h' with
    | group hkey' _ => exact absurd rfl hkey'
    | config hconfig' =>
      cases Format.config_unique hconfig hconfig'
      exact ⟨rfl, rfl⟩

theorem Reads.closed {m : Section} {ts rest : List Token} (h : Reads m ts rest) :
    Format.Closed ts rest := by
  have htwo (t t' : Token) (ts : List Token) : ts <:+ t :: t' :: ts :=
    (List.suffix_cons ..).trans (List.suffix_cons ..)
  cases h with
  | group _ hgroup => exact (Format.closed_of_group hgroup).trans (htwo ..)
  | config hconfig => exact (Format.closed_of_config hconfig).trans (htwo ..)

/-- The lexemes at which some of the tokens stand. -/
theorem exists_lexemes {ls : List Lexeme} {rest : List Token}
    (h : rest <:+ ls.map Lexeme.token) : ∃ ls', ls' <:+ ls ∧ ls'.map Lexeme.token = rest := by
  refine ⟨ls.drop (ls.length - rest.length), List.drop_suffix .., ?_⟩
  rw [List.map_drop, ← List.length_map Lexeme.token]
  exact (List.suffix_iff_eq_drop.1 h).symm

/-- The cursors reach all of a file: those of `parseFile` are unsigned, that of `parseConfig` is
not. -/
def FitsCursors (fuel : ℕ) (c : Bytes) : Prop :=
  c.length < 2 ^ 32 ∧ (str "config" ∈ Format.fileKeys fuel (lex c) → c.length < 2 ^ 31)

theorem fitsCursors_of_lt {fuel : ℕ} {c : Bytes} (h : c.length < 2 ^ 31) : FitsCursors fuel c :=
  ⟨by omega, fun _ ↦ h⟩

/-! ### The parser object behind a member -/

/-- The parser object behind a top-level member. -/
def Progress.member (stale : ℕ → Bytes) (s : Progress) : Section → Progress
  | .group calls => s.calls stale calls
  | .config ids => (s.addIds ids).matchSocId

/-- A file that names devices does not name this one, or it has none. -/
def Mismatch (device : ℤ) (ids : List ℤ) : Prop :=
  ids ≠ [] ∧ (device ∉ ids ∨ device = -1)

instance (device : ℤ) (ids : List ℤ) : Decidable (Mismatch device ids) :=
  inferInstanceAs (Decidable (_ ∧ _))

/-- What the parser object holds about the device, the file having listed `ids`. -/
structure SocState (device : ℤ) (ids : List ℤ) (p : QshJsonParser) : Prop where
  mDeviceSocId : p.mDeviceSocId = device
  mJsonSocIdList : p.mJsonSocIdList = ids
  mJsonSocId : p.mJsonSocId = if device ∈ ids then device else -1

theorem socState_resetParserState (p : QshJsonParser) :
    SocState p.mDeviceSocId [] p.resetParserState :=
  ⟨rfl, rfl, (if_neg List.not_mem_nil).symm⟩

theorem not_mismatch_nil (device : ℤ) : ¬ Mismatch device [] :=
  fun h ↦ h.1 rfl

section

variable {device : ℤ} {ids : List ℤ} {s : Progress}

theorem SocState.skips_iff {p : QshJsonParser} (h : SocState device ids p) :
    p.Skips ↔ Mismatch device ids := by
  rw [QshJsonParser.Skips, Mismatch, h.mJsonSocIdList, h.mJsonSocId]
  split_ifs with hmem <;> simp [hmem]

theorem SocState.call (h : SocState device ids s.parser) (stale : ℕ → Bytes) (c : Call) :
    SocState device ids (s.call stale c).parser := by
  rw [Progress.call, QshJsonParser.updateSensingHubInfo_eq]
  exact ⟨h.mDeviceSocId, h.mJsonSocIdList, h.mJsonSocId⟩

theorem SocState.calls (h : SocState device ids s.parser) (stale : ℕ → Bytes) (cs : List Call) :
    SocState device ids (s.calls stale cs).parser := by
  induction cs generalizing s with
  | nil => exact h
  | cons c cs ih => exact ih (h.call stale c)

theorem SocState.addIds (h : SocState device ids s.parser) (ids' : List ℤ) :
    SocState device (ids ++ ids') (s.addIds ids').matchSocId.parser := by
  have hdevice := h.mDeviceSocId
  have hlist : (s.addIds ids').parser.mJsonSocIdList = ids ++ ids' :=
    congrArg (· ++ ids') h.mJsonSocIdList
  rw [Progress.matchSocId, QshJsonParser.matchSocId, hlist,
    show (s.addIds ids').parser.mDeviceSocId = device from hdevice]
  by_cases hmem : device ∈ ids ++ ids'
  · rw [if_pos hmem]
    exact ⟨rfl, rfl, (if_pos hmem).symm⟩
  · rw [if_neg hmem]
    refine ⟨hdevice, hlist, h.mJsonSocId.trans ?_⟩
    rw [if_neg hmem, if_neg fun h ↦ hmem (List.mem_append_left _ h)]

theorem SocState.member (h : SocState device ids s.parser) (stale : ℕ → Bytes) (m : Section) :
    SocState device (ids ++ m.ids) (s.member stale m).parser := by
  cases m with
  | group calls =>
    rw [Section.ids, List.append_nil]
    exact h.calls stale calls
  | config ids' => exact h.addIds ids'

end

/-! ### A round of the loop -/

namespace Format

variable {stale : ℕ → Bytes} {fuel : ℕ} {ls ls' : List Lexeme} {s : Progress} {device : ℤ}
  {ids : List ℤ}

theorem byte_of_group {key : Bytes} {ts rest : List Token} {calls : List Call}
    (h : group fuel key ts = some ⟨calls, some rest⟩) : ∃ body, ts = .byte 123 :: body := by
  unfold group groupWith at h
  split at h
  · exact ⟨_, rfl⟩
  · cases h

theorem byte_of_config {ts rest : List Token} {ids : List ℤ}
    (h : config fuel ts = some ⟨ids, .read rest⟩) : ∃ body, ts = .byte 123 :: body := by
  unfold config at h
  split at h
  · exact ⟨_, rfl⟩
  · cases h

/-- The first tokens of a member that is read. -/
theorem pair_of_reads {m : Section} {ts rest : List Token} (h : Reads m ts rest) :
    ∃ key body, pair ts = some ⟨key, none, body⟩ ∧ ts = .quoted key :: .byte 58 :: body := by
  cases h with
  | group _ hgroup =>
    obtain ⟨body, rfl⟩ := byte_of_group hgroup
    exact ⟨_, _, rfl, rfl⟩
  | config hconfig =>
    obtain ⟨body, rfl⟩ := byte_of_config hconfig
    exact ⟨_, _, rfl, rfl⟩

/-- A member that is read, as the parser over tokens reads it. -/
theorem fileMember_reads {m : Section} {key : Bytes} {body rest : List Token}
    (h : Reads m (.quoted key :: .byte 58 :: body) rest) (hfuel : body.length ≤ fuel)
    (hs : SocState device ids s.parser) (hids : ¬ Mismatch device ids) :
    fileMember stale fuel key body s =
      some (if (s.member stale m).parser.Skips then .error .skipped else .ok rest,
        s.member stale m) := by
  cases h with
  | @group fuel' _ _ _ calls hkey hgroup =>
    obtain ⟨r, hr⟩ := Option.isSome_iff_exists.1 (group_isSome key hfuel)
    have hskips : ¬ (s.calls stale calls).parser.Skips :=
      fun h ↦ hids ((hs.calls stale calls).skips_iff.1 h)
    rw [fileMember, if_neg hkey, hr, group_unique hr hgroup]
    rw [Progress.member, if_neg hskips]
    rfl
  | config hconfig =>
    obtain ⟨r, hr⟩ := Option.isSome_iff_exists.1 (config_isSome hfuel)
    rw [fileMember, if_pos rfl, hr, config_unique hr hconfig]
    rfl

/-- The lexemes behind a member, found by counting the tokens left. -/
theorem drop_of_suffix (hsuffix : ls' <:+ ls) :
    ls.drop (ls.length - (ls'.map Lexeme.token).length) = ls' := by
  rw [List.length_map]
  exact (List.suffix_iff_eq_drop.1 hsuffix).symm

/-- What follows a member that has been read. -/
theorem fileNext_cases {α : Type*} (next done : List Lexeme → α) (ls : List Lexeme) :
    (∃ ls', ls = ⟨false, .byte 44⟩ :: ls' ∧ fileNext next done ls = next ls') ∨
      ls.head? ≠ some ⟨false, .byte 44⟩ ∧ fileNext next done ls = done ls := by
  unfold fileNext
  split
  · exact Or.inl ⟨_, rfl, rfl⟩
  · next hne =>
    refine Or.inr ⟨fun hhead ↦ ?_, rfl⟩
    obtain ⟨ls', hls'⟩ := List.head?_eq_some_iff.1 hhead
    exact hne _ hls'

theorem fileNext_of_head? {α : Type*} {next done : List Lexeme → α} {ls : List Lexeme}
    (h : ls.head? ≠ some ⟨false, .byte 44⟩) : fileNext next done ls = done ls := by
  rcases fileNext_cases next done ls with ⟨ls', rfl, -⟩ | ⟨-, hdone⟩
  · exact absurd rfl h
  · exact hdone

/-- A member that is read: the loop ends there if the file is not for this device, and else goes on
behind it. -/
theorem fileLoop_reads {m : Section}
    (h : Reads m (ls.map Lexeme.token) (ls'.map Lexeme.token)) (hsuffix : ls' <:+ ls)
    (hfuel : ls.length ≤ fuel) (hs : SocState device ids s.parser)
    (hids : ¬ Mismatch device ids) :
    fileLoop stale (fuel + 1) ls s =
      if (s.member stale m).parser.Skips then some (.skipped, s.member stale m)
      else fileNext (fun ls ↦ fileLoop stale fuel ls (s.member stale m))
        (fun ls ↦ some (.ended ls, s.member stale m)) ls' := by
  obtain ⟨key, body, hpair, htokens⟩ := pair_of_reads h
  have hlen : body.length ≤ fuel := by
    have := congrArg List.length htokens
    simp only [List.length_map, List.length_cons] at this
    omega
  rw [htokens] at h
  rw [fileLoop, hpair]
  simp only [fileMember_reads h hlen hs hids, Option.bind_some]
  split_ifs
  · rfl
  · simp only [drop_of_suffix hsuffix]

/-- A member with a comma behind it: white space before the comma ends the loop. -/
theorem fileLoop_comma {m : Section} {gap : Bool} {ls' : List Lexeme}
    (h : Reads m (ls.map Lexeme.token) (.byte 44 :: ls'.map Lexeme.token))
    (hsuffix : ⟨gap, .byte 44⟩ :: ls' <:+ ls) (hfuel : ls.length ≤ fuel)
    (hs : SocState device ids s.parser) (hids : ¬ Mismatch device ids)
    (hids' : ¬ Mismatch device (ids ++ m.ids)) :
    fileLoop stale (fuel + 1) ls s =
      if gap then some (.ended (⟨gap, .byte 44⟩ :: ls'), s.member stale m)
      else fileLoop stale fuel ls' (s.member stale m) := by
  have hround : fileLoop stale (fuel + 1) ls s = _ := fileLoop_reads h hsuffix hfuel hs hids
  rw [hround, if_neg fun h ↦ hids' ((hs.member stale m).skips_iff.1 h)]
  cases gap <;> rfl

/-- A member is read, or the loop ends because none is. -/
theorem fileMember_cases {ts body : List Token} {key : Bytes}
    {r : Except FileEnd (List Token)} {s' : Progress}
    (hpair : pair ts = some ⟨key, none, body⟩)
    (h : fileMember stale fuel key body s = some (r, s')) :
    (∃ m rest, Reads m ts rest) ∨ r = .error .failed ∨ (∃ e, r = .error (.threw e)) ∨
      ∃ ids, key = str "config" ∧ config fuel body = some ⟨ids, .failed⟩ ∧
        s' = (s.addIds ids).matchSocId ∧
        r = .error (if s'.parser.Skips then .skipped else .brokenConfig) := by
  unfold fileMember at h
  split_ifs at h with hkey
  · subst hkey
    obtain ⟨⟨ids, ending⟩, hconfig, hr⟩ := Option.map_eq_some_iff.1 h
    cases ending with
    | read next =>
      obtain ⟨body', rfl⟩ := byte_of_config hconfig
      have htokens := tokens_of_pair hpair
      exact Or.inl ⟨_, next, htokens ▸ Reads.config hconfig⟩
    | failed =>
      cases hr
      exact Or.inr (Or.inr (Or.inr ⟨ids, rfl, hconfig, rfl, rfl⟩))
    | threw e =>
      cases hr
      exact Or.inr (Or.inr (Or.inl ⟨e, rfl⟩))
  · obtain ⟨⟨calls, _ | next⟩, hgroup, hr⟩ := Option.map_eq_some_iff.1 h
    · cases hr
      exact Or.inr (Or.inl rfl)
    · obtain ⟨body', rfl⟩ := byte_of_group hgroup
      have htokens := tokens_of_pair hpair
      exact Or.inl ⟨_, next, htokens ▸ Reads.group hkey hgroup⟩

/-- **A round of the loop**: a member is read, or the loop ends because none is. -/
theorem fileLoop_cases {e : FileEnd} {s' : Progress}
    (h : fileLoop stale (fuel + 1) ls s = some (e, s')) :
    (∃ m ls', Reads m (ls.map Lexeme.token) (ls'.map Lexeme.token) ∧ ls' <:+ ls) ∨
      e = .failed ∨ (∃ e', e = .threw e') ∨
      ∃ ts ids, pair (ls.map Lexeme.token) = some ⟨str "config", none, ts⟩ ∧
        config fuel ts = some ⟨ids, .failed⟩ ∧ s' = (s.addIds ids).matchSocId ∧
        e = if s'.parser.Skips then .skipped else .brokenConfig := by
  rw [fileLoop] at h
  split at h
  · next key body hpair =>
    rw [Option.bind_eq_some_iff] at h
    obtain ⟨⟨r, s₁⟩, hmember, hnext⟩ := h
    rcases fileMember_cases hpair hmember with ⟨m, rest, hm⟩ | rfl | ⟨e', rfl⟩ |
      ⟨ids, rfl, hconfig, rfl, rfl⟩
    · obtain ⟨ls', hsuffix, rfl⟩ := exists_lexemes hm.closed.suffix
      exact Or.inl ⟨m, ls', hm, hsuffix⟩
    · cases hnext
      exact Or.inr (Or.inl rfl)
    · cases hnext
      exact Or.inr (Or.inr (Or.inl ⟨e', rfl⟩))
    · cases hnext
      exact Or.inr (Or.inr (Or.inr ⟨body, ids, hpair, hconfig, rfl, rfl⟩))
  · cases h
    exact Or.inr (Or.inl rfl)

/-- Where no member is read the loop ends in the same way for all lexemes with these tokens. -/
theorem fileLoop_of_not_reads (hreads : ∀ m rest, ¬ Reads m (ls.map Lexeme.token) rest)
    (htokens : ls'.map Lexeme.token = ls.map Lexeme.token) :
    fileLoop stale (fuel + 1) ls' s = fileLoop stale (fuel + 1) ls s := by
  rw [fileLoop, fileLoop, htokens]
  rcases hpair : pair (ls.map Lexeme.token) with _ | ⟨key, _ | value, body⟩
  · rfl
  · simp only
    rcases hmember : fileMember stale fuel key body s with _ | ⟨r, s'⟩
    · rfl
    · rcases fileMember_cases hpair hmember with ⟨m, rest, hm⟩ | rfl | ⟨e', rfl⟩ |
        ⟨ids, -, -, -, rfl⟩
      · exact absurd hm (hreads m rest)
      · rfl
      · rfl
      · rfl
  · rfl

end Format

end SensingHub.Json
