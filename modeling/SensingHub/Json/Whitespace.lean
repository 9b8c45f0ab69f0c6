import SensingHub.Json.FailedLoad
import SensingHub.Json.FileRefinement
import SensingHub.Json.RoundTrip
import SensingHub.Json.Sections

/-!
# White space between tokens

Two texts with the same tokens differ in the white space between them. All loops of the parser skip
it but one: `parseFile` wants the comma that separates two top-level members directly behind the
first, and takes anything else for the end of the file. So texts are loaded alike if the first of
these commas with white space before it is the same in both.

Conversely a text that is read further than another lists more hubs, if every member behind the
first is a group with a hub in it.
-/

namespace SensingHub.Json

open CLib (str)

/-- Along the top-level members, white space stands before a separating comma of one text and not of
the other, and before no earlier one of either. -/
inductive GapsDiffer (device : ℤ) : (ids : List ℤ) → (ls₁ ls₂ : List Lexeme) → Prop
  | here {ids : List ℤ} {m : Section} {gap : Bool} {ls₁ ls₂ ls₁' ls₂' : List Lexeme}
      (h : Reads m (ls₁.map Lexeme.token) (.byte 44 :: ls₁'.map Lexeme.token))
      (htokens : ls₂'.map Lexeme.token = ls₁'.map Lexeme.token)
      (hsuffix₁ : ⟨gap, .byte 44⟩ :: ls₁' <:+ ls₁) (hsuffix₂ : ⟨!gap, .byte 44⟩ :: ls₂' <:+ ls₂)
      (hids : ¬ Mismatch device (ids ++ m.ids)) : GapsDiffer device ids ls₁ ls₂
  | later {ids : List ℤ} {m : Section} {ls₁ ls₂ ls₁' ls₂' : List Lexeme}
      (h : Reads m (ls₁.map Lexeme.token) (.byte 44 :: ls₁'.map Lexeme.token))
      (htokens : ls₂'.map Lexeme.token = ls₁'.map Lexeme.token)
      (hsuffix₁ : ⟨false, .byte 44⟩ :: ls₁' <:+ ls₁) (hsuffix₂ : ⟨false, .byte 44⟩ :: ls₂' <:+ ls₂)
      (hids : ¬ Mismatch device (ids ++ m.ids))
      (hrest : GapsDiffer device (ids ++ m.ids) ls₁' ls₂') : GapsDiffer device ids ls₁ ls₂

/-- The commas of two files differ. -/
def FilesDiffer (device : ℤ) (c₁ c₂ : Bytes) : Prop :=
  ∃ gap₁ gap₂ ls₁ ls₂, lex c₁ = ⟨gap₁, .byte 123⟩ :: ls₁ ∧ lex c₂ = ⟨gap₂, .byte 123⟩ :: ls₂ ∧
    GapsDiffer device [] ls₁ ls₂

section

variable {stale : ℕ → Bytes} {fuel : ℕ} {ls ls₁ ls₂ : List Lexeme} {s s' s₁ s₂ : Progress}
  {device : ℤ} {ids : List ℤ} {e e₁ e₂ : Format.FileEnd}

/-! ### Texts that are read alike -/

/-- A comma, whether or not white space stands before it. -/
theorem comma_of_tokens {gap : Bool} {ls₁ ls₂ : List Lexeme}
    (htokens : ls₂.map Lexeme.token = (⟨gap, .byte 44⟩ :: ls₁ : List Lexeme).map Lexeme.token) :
    ∃ gap' ls₂', ls₂ = ⟨gap', .byte 44⟩ :: ls₂' ∧
      ls₂'.map Lexeme.token = ls₁.map Lexeme.token := by
  rcases ls₂ with _ | ⟨⟨gap', t⟩, ls₂'⟩
  · cases htokens
  · obtain ⟨rfl, hrest⟩ := List.cons.inj htokens
    exact ⟨gap', ls₂', rfl, hrest⟩

/-- **If the commas do not differ the loop reads the same of both texts.** -/
theorem fileLoop_sameTokens (stale : ℕ → Bytes)
    (htokens : ls₂.map Lexeme.token = ls₁.map Lexeme.token)
    (hgaps : ¬ GapsDiffer device ids ls₁ ls₂) (hfuel : ls₁.length < fuel)
    (hs : SocState device ids s.parser) (hids : ¬ Mismatch device ids) :
    ∃ e₁ e₂ s', Format.fileLoop stale fuel ls₁ s = some (e₁, s') ∧
      Format.fileLoop stale fuel ls₂ s = some (e₂, s') ∧ e₂.result = e₁.result := by
  -- on the rounds left: both texts have as many lexemes
  induction fuel generalizing ids ls₁ ls₂ s with
  | zero => exact absurd hfuel (Nat.not_lt_zero _)
  | succ fuel ih =>
    have hlen : ls₂.length = ls₁.length := by
      rw [← List.length_map Lexeme.token, htokens, List.length_map]
    by_cases hreads : ∃ m rest, Reads m (ls₁.map Lexeme.token) rest
    · obtain ⟨m, rest, hm⟩ := hreads
      obtain ⟨ls₁', hsuffix₁, rfl⟩ := exists_lexemes hm.closed.suffix
      obtain ⟨ls₂', hsuffix₂, htokens'⟩ := exists_lexemes (htokens ▸ hm.closed.suffix)
      have hmember := hs.member stale m
      have hm₂ : Reads m (ls₂.map Lexeme.token) (ls₂'.map Lexeme.token) := by
        rw [htokens, htokens']
        exact hm
      have hrun₁ : Format.fileLoop stale (fuel + 1) ls₁ s = _ :=
        Format.fileLoop_reads hm hsuffix₁ (Nat.le_of_lt_succ hfuel) hs hids
      have hrun₂ : Format.fileLoop stale (fuel + 1) ls₂ s = _ :=
        Format.fileLoop_reads hm₂ hsuffix₂ (by omega) hs hids
      by_cases hmismatch : Mismatch device (ids ++ m.ids)
      · rw [if_pos (hmember.skips_iff.2 hmismatch)] at hrun₁ hrun₂
        exact ⟨_, _, _, hrun₁, hrun₂, rfl⟩
      rw [if_neg fun h ↦ hmismatch (hmember.skips_iff.1 h)] at hrun₁ hrun₂
      have hlen₁ := hsuffix₁.length_le
      -- a comma on one side is one on the other, with or without white space before it
      rcases Format.fileNext_cases (fun ls ↦ Format.fileLoop stale fuel ls (s.member stale m))
          (fun ls ↦ some (.ended ls, s.member stale m)) ls₁' with
        ⟨l₁, rfl, hnext₁⟩ | ⟨hcomma₁, hdone₁⟩ <;>
      rcases Format.fileNext_cases (fun ls ↦ Format.fileLoop stale fuel ls (s.member stale m))
          (fun ls ↦ some (.ended ls, s.member stale m)) ls₂' with
        ⟨l₂, rfl, hnext₂⟩ | ⟨hcomma₂, hdone₂⟩
      · have hrest := (List.cons.inj htokens').2
        simp only [List.length_cons] at hlen₁
        rw [hrun₁, hrun₂, hnext₁, hnext₂]
        exact ih hrest (fun h ↦ hgaps (.later hm hrest hsuffix₁ hsuffix₂ hmismatch h)) (by omega)
          hmember hmismatch
      · obtain ⟨gap, l₂, rfl, hrest⟩ := comma_of_tokens htokens'
        have hgap : gap = true := eq_true_of_ne_false fun h ↦ hcomma₂ (by rw [h]; rfl)
        subst hgap
        exact absurd (.here hm hrest hsuffix₁ hsuffix₂ hmismatch) hgaps
      · obtain ⟨gap, l₁, rfl, hrest⟩ := comma_of_tokens htokens'.symm
        have hgap : gap = true := eq_true_of_ne_false fun h ↦ hcomma₁ (by rw [h]; rfl)
        subst hgap
        exact absurd (.here hm hrest.symm hsuffix₁ hsuffix₂ hmismatch) hgaps
      · rw [hrun₁, hrun₂, hdone₁, hdone₂]
        exact ⟨_, _, _, rfl, rfl, rfl⟩
    · -- no member is read: the round depends on the tokens alone
      obtain ⟨⟨e, s'⟩, hrun⟩ := Option.isSome_iff_exists.1
        (Format.fileLoop_isSome stale s hfuel)
      have hrun' : Format.fileLoop stale (fuel + 1) ls₂ s = _ :=
        Format.fileLoop_of_not_reads (fun m rest h ↦ hreads ⟨m, rest, h⟩) htokens
      exact ⟨e, e, s', hrun, hrun'.trans hrun, rfl⟩

/-! ### Texts that are not read alike -/

/-- A member that is a group with a hub in it. -/
def Section.ListsHub : Section → Prop
  | .group calls => ∃ c ∈ calls, c.key = str "sensing_hub_id"
  | .config _ => False

/-- Every group lists a hub for each of its items that names one. -/
theorem length_mHubIds_calls (stale : ℕ → Bytes) (s : Progress) (cs : List Call) :
    (s.calls stale cs).parser.mHubIds.length =
      s.parser.mHubIds.length + cs.countP fun c ↦ c.key = str "sensing_hub_id" := by
  induction cs generalizing s with
  | nil => rfl
  | cons c cs ih =>
    have hcall : (s.call stale c).parser.mHubIds.length =
        s.parser.mHubIds.length + if c.key = str "sensing_hub_id" then 1 else 0 := by
      rw [Progress.call, QshJsonParser.updateSensingHubInfo_eq]
      dsimp only
      split_ifs
      · rw [List.length_append, List.length_singleton]
      · rfl
    rw [List.countP_cons]
    refine (ih (s.call stale c)).trans ?_
    rw [hcall]
    by_cases hkey : c.key = str "sensing_hub_id"
    · simp only [hkey, if_true, decide_true]
      omega
    · simp [hkey]

/-- A config section lists no hub. -/
theorem mHubIds_addIds (s : Progress) (ids : List ℤ) :
    (s.addIds ids).matchSocId.parser.mHubIds = s.parser.mHubIds := by
  rw [Progress.matchSocId, QshJsonParser.matchSocId]
  split_ifs <;> rfl

theorem length_mHubIds_member (stale : ℕ → Bytes) (s : Progress) {m : Section}
    (hm : m.ListsHub) : s.parser.mHubIds.length < (s.member stale m).parser.mHubIds.length := by
  cases m with
  | group calls =>
    obtain ⟨c, hc, hkey⟩ := hm
    rw [Progress.member, length_mHubIds_calls]
    exact Nat.lt_add_of_pos_right (List.countP_pos_iff.2 ⟨c, hc, decide_eq_true hkey⟩)
  | config ids => exact hm.elim

/-- The hub list only grows. -/
theorem length_mHubIds_fileLoop (h : Format.fileLoop stale fuel ls s = some (e, s')) :
    s.parser.mHubIds.length ≤ s'.parser.mHubIds.length := by
  induction fuel generalizing ls s with
  | zero => cases h
  | succ fuel ih =>
    rw [Format.fileLoop] at h
    split at h
    · rw [Option.bind_eq_some_iff] at h
      obtain ⟨⟨r, t⟩, hmember, hnext⟩ := h
      have hlen : s.parser.mHubIds.length ≤ t.parser.mHubIds.length := by
        unfold Format.fileMember at hmember
        split_ifs at hmember
        · obtain ⟨⟨ids, ending⟩, -, hr⟩ := Option.map_eq_some_iff.1 hmember
          have hadd := congrArg List.length (mHubIds_addIds s ids)
          cases ending <;> cases hr
          · exact hadd.ge
          · exact hadd.ge
          · exact le_rfl
        · obtain ⟨⟨calls, rest⟩, -, hr⟩ := Option.map_eq_some_iff.1 hmember
          cases hr
          rw [length_mHubIds_calls]
          exact Nat.le_add_right _ _
      cases r with
      | error e' =>
        cases hnext
        exact hlen
      | ok rest =>
        rcases Format.fileNext_cases (fun ls ↦ Format.fileLoop stale fuel ls t)
            (fun ls ↦ some (.ended ls, t)) (ls.drop (ls.length - rest.length)) with
          ⟨ls', -, hgo⟩ | ⟨-, hdone⟩
        · exact hlen.trans (ih (hgo.symm.trans hnext))
        · cases hdone.symm.trans hnext
          exact hlen
    · cases h
      exact le_rfl

/-- A text that begins with a group with a hub in it lists a hub. -/
theorem length_mHubIds_of_listsHub {m : Section} {rest : List Token} (hm : m.ListsHub)
    (h : Reads m (ls.map Lexeme.token) rest)
    (hrun : Format.fileLoop stale fuel ls s = some (e, s')) (hfuel : ls.length < fuel)
    (hs : SocState device ids s.parser) (hids : ¬ Mismatch device ids) :
    s.parser.mHubIds.length < s'.parser.mHubIds.length := by
  obtain ⟨fuel, rfl⟩ : ∃ n, fuel = n + 1 := ⟨fuel - 1, by omega⟩
  obtain ⟨ls', hsuffix, rfl⟩ := exists_lexemes h.closed.suffix
  have hlt := length_mHubIds_member stale s hm
  rw [Format.fileLoop_reads h hsuffix (Nat.le_of_lt_succ hfuel) hs hids] at hrun
  split_ifs at hrun
  · cases hrun
    exact hlt
  · rcases Format.fileNext_cases (fun ls ↦ Format.fileLoop stale fuel ls (s.member stale m))
        (fun ls ↦ some (.ended ls, s.member stale m)) ls' with ⟨ls'', -, hgo⟩ | ⟨-, hdone⟩
    · exact hlt.trans_le (length_mHubIds_fileLoop (hgo.symm.trans hrun))
    · cases hdone.symm.trans hrun
      exact hlt

/-- Every member behind the first is a group with a hub in it. -/
def HubsBehindFirst (ts : List Token) : Prop :=
  ∃ ms rest, Members ms ts (.byte 125 :: rest) ∧ ∀ m ∈ ms.tail, m.ListsHub

/-- The first member behind a comma. -/
theorem HubsBehindFirst.comma {m : Section} {ts ts' : List Token} (h : HubsBehindFirst ts)
    (hm : Reads m ts (.byte 44 :: ts')) :
    HubsBehindFirst ts' ∧ ∃ m' rest, m'.ListsHub ∧ Reads m' ts' rest := by
  obtain ⟨ms, rest, hms, hhubs⟩ := h
  cases hms with
  | last h => cases (h.unique hm).2
  | @comma _ ms _ _ _ h hms =>
    rw [(List.cons.inj (h.unique hm).2).2] at hms
    have hhubs' : ∀ m ∈ ms, m.ListsHub := hhubs
    refine ⟨⟨ms, rest, hms, fun m hmem ↦ hhubs' m (List.mem_of_mem_tail hmem)⟩, ?_⟩
    cases hms with
    | last h => exact ⟨_, _, hhubs' _ (List.mem_singleton_self _), h⟩
    | comma h _ => exact ⟨_, _, hhubs' _ (List.mem_cons_self ..), h⟩

/-- Where the commas differ one text lists a hub more than the other. -/
theorem GapsDiffer.length_ne (h : GapsDiffer device ids ls₁ ls₂)
    (htokens : ls₂.map Lexeme.token = ls₁.map Lexeme.token)
    (hhubs : HubsBehindFirst (ls₁.map Lexeme.token))
    (hrun₁ : Format.fileLoop stale fuel ls₁ s = some (e₁, s₁))
    (hrun₂ : Format.fileLoop stale fuel ls₂ s = some (e₂, s₂)) (hfuel : ls₁.length < fuel)
    (hs : SocState device ids s.parser) (hids : ¬ Mismatch device ids) :
    s₁.parser.mHubIds.length ≠ s₂.parser.mHubIds.length := by
  induction h generalizing fuel s with
  | @here ids m gap ls₁ ls₂ ls₁' ls₂' hm htokens' hsuffix₁ hsuffix₂ hids' =>
    obtain ⟨fuel, rfl⟩ : ∃ n, fuel = n + 1 := ⟨fuel - 1, by omega⟩
    have hlen : ls₂.length = ls₁.length := by simpa using congrArg List.length htokens
    have hlen₁ := hsuffix₁.length_le
    have hlen₂ := hsuffix₂.length_le
    simp only [List.length_cons] at hlen₁ hlen₂
    have hmember := hs.member stale m
    obtain ⟨-, m', rest, hlists, hm'⟩ := hhubs.comma hm
    rw [Format.fileLoop_comma hm hsuffix₁ (Nat.le_of_lt_succ hfuel) hs hids hids'] at hrun₁
    rw [Format.fileLoop_comma (by rw [htokens, htokens']; exact hm) hsuffix₂ (by omega) hs hids
      hids']
      at hrun₂
    -- the text without white space goes on, and lists a hub
    cases gap with
    | false =>
      cases hrun₂
      exact (length_mHubIds_of_listsHub hlists hm' hrun₁ (by omega) hmember hids').ne'
    | true =>
      cases hrun₁
      rw [← htokens'] at hm'
      exact (length_mHubIds_of_listsHub hlists hm' hrun₂ (by omega) hmember hids').ne
  | @later ids m ls₁ ls₂ ls₁' ls₂' hm htokens' hsuffix₁ hsuffix₂ hids' _ ih =>
    obtain ⟨fuel, rfl⟩ : ∃ n, fuel = n + 1 := ⟨fuel - 1, by omega⟩
    have hlen : ls₂.length = ls₁.length := by simpa using congrArg List.length htokens
    have hlen₁ := hsuffix₁.length_le
    simp only [List.length_cons] at hlen₁
    rw [Format.fileLoop_comma hm hsuffix₁ (Nat.le_of_lt_succ hfuel) hs hids hids'] at hrun₁
    rw [Format.fileLoop_comma (by rw [htokens, htokens']; exact hm) hsuffix₂ (by omega) hs hids
      hids']
      at hrun₂
    exact ih htokens' (hhubs.comma hm).1 hrun₁ hrun₂ (by omega) (hs.member stale m) hids'

end

/-! ### Loading -/

/-- Texts with the same tokens open with a bracket both or neither. -/
theorem lex_open_of_tokens {c₁ c₂ : Bytes} (htokens : tokens c₂ = tokens c₁) {gap₁ : Bool}
    {ls₁ : List Lexeme} (hlex₁ : lex c₁ = ⟨gap₁, .byte 123⟩ :: ls₁) :
    ∃ gap₂ ls₂, lex c₂ = ⟨gap₂, .byte 123⟩ :: ls₂ ∧
      ls₂.map Lexeme.token = ls₁.map Lexeme.token := by
  unfold tokens at htokens
  rw [hlex₁] at htokens
  rcases hls : lex c₂ with _ | ⟨⟨gap₂, t⟩, ls₂⟩ <;> rw [hls] at htokens
  · cases htokens
  · obtain ⟨rfl, hrest⟩ := List.cons.inj htokens
    exact ⟨gap₂, ls₂, rfl, hrest⟩

theorem filesDiffer_iff {device : ℤ} {c₁ c₂ : Bytes} {gap₁ gap₂ : Bool} {ls₁ ls₂ : List Lexeme}
    (hlex₁ : lex c₁ = ⟨gap₁, .byte 123⟩ :: ls₁) (hlex₂ : lex c₂ = ⟨gap₂, .byte 123⟩ :: ls₂) :
    FilesDiffer device c₁ c₂ ↔ GapsDiffer device [] ls₁ ls₂ := by
  constructor
  · rintro ⟨gap₁', gap₂', ls₁', ls₂', hlex₁', hlex₂', hgaps⟩
    rw [hlex₁] at hlex₁'
    rw [hlex₂] at hlex₂'
    cases hlex₁'
    cases hlex₂'
    exact hgaps
  · exact fun hgaps ↦ ⟨gap₁, gap₂, ls₁, ls₂, hlex₁, hlex₂, hgaps⟩

/-- A load of a file that opens with a bracket ends as the loop over its members does. -/
theorem loadFile_run_of_open {p : QshJsonParser} {c : Bytes} {fuel : ℕ} (hfits : FitsCursors fuel c)
    {gap : Bool} {ls : List Lexeme} (hlex : lex c = ⟨gap, .byte 123⟩ :: ls) {stale : ℕ → Bytes}
    {e : Format.FileEnd} {s : Progress}
    (hrun : Format.fileLoop stale fuel ls ⟨p.resetParserState, 0⟩ = some (e, s)) :
    (p.loadFile fuel stale (.content c)).ret = e.result ∧
      (p.loadFile fuel stale (.content c)).parser =
        if e.result = .ok 0 then { s.parser with mIsFileParsed := true } else s.parser := by
  have hload := loadFile_run fuel stale c p hfits.1 hfits.2
  rw [hlex, Format.file, hrun] at hload
  exact ⟨hload.1, hload.2.1⟩

/-- A load of a file that does not open with a bracket fails and leaves what `resetParserState`
does. -/
theorem loadFile_of_not_open (p : QshJsonParser) {c : Bytes} {fuel : ℕ} (hfits : FitsCursors fuel c)
    (h : ¬ ∃ gap ls, lex c = ⟨gap, .byte 123⟩ :: ls) (stale : ℕ → Bytes) :
    (p.loadFile fuel stale (.content c)).ret = .ok (-1) ∧
      (p.loadFile fuel stale (.content c)).parser = p.resetParserState := by
  have hload := loadFile_run fuel stale c p hfits.1 hfits.2
  rw [Format.file_of_not_open h] at hload
  exact ⟨hload.1, hload.2.1⟩

theorem SameAnswers.refl (p : QshJsonParser) : SameAnswers p p :=
  ⟨rfl, fun _ ↦ rfl, fun _ ↦ rfl, fun _ ↦ rfl, fun _ ↦ rfl, rfl⟩

/-- **Texts with the same tokens are loaded alike if their commas do not differ**, and only then if
every member behind the first is a group with a hub in it. -/
theorem loadFile_sameTokens (p : QshJsonParser) {c₁ c₂ : Bytes} (htokens : tokens c₂ = tokens c₁)
    {fuel : ℕ} (hfits₁ : FitsCursors fuel c₁) (hfits₂ : FitsCursors fuel c₂)
    (hfuel₁ : c₁.length < fuel) (hfuel₂ : c₂.length < fuel) (stale : ℕ → Bytes) :
    (¬ FilesDiffer p.mDeviceSocId c₁ c₂ →
      (p.loadFile fuel stale (.content c₂)).ret = (p.loadFile fuel stale (.content c₁)).ret ∧
        SameAnswers (p.loadFile fuel stale (.content c₁)).parser
          (p.loadFile fuel stale (.content c₂)).parser) ∧
    (HubsBehindFirst (tokens c₁).tail →
      SameAnswers (p.loadFile fuel stale (.content c₁)).parser
          (p.loadFile fuel stale (.content c₂)).parser →
        ¬ FilesDiffer p.mDeviceSocId c₁ c₂) := by
  by_cases hopen : ∃ gap ls, lex c₁ = ⟨gap, .byte 123⟩ :: ls
  · obtain ⟨gap₁, ls₁, hlex₁⟩ := hopen
    obtain ⟨gap₂, ls₂, hlex₂, htokens'⟩ := lex_open_of_tokens htokens hlex₁
    have hlen₁ := (length_lex_le c₁).trans_lt hfuel₁
    have hlen₂ := (length_lex_le c₂).trans_lt hfuel₂
    rw [hlex₁, List.length_cons] at hlen₁
    rw [hlex₂, List.length_cons] at hlen₂
    have htail : (tokens c₁).tail = ls₁.map Lexeme.token := by rw [tokens, hlex₁]; rfl
    have hstart := socState_resetParserState p
    have hnil := not_mismatch_nil p.mDeviceSocId
    rw [filesDiffer_iff hlex₁ hlex₂, htail]
    constructor
    · intro hgaps
      obtain ⟨e₁, e₂, s', hrun₁, hrun₂, he⟩ := fileLoop_sameTokens stale
        (s := ⟨p.resetParserState, 0⟩) htokens' hgaps (Nat.lt_of_succ_lt hlen₁) hstart hnil
      have hload₁ := loadFile_run_of_open hfits₁ hlex₁ hrun₁
      have hload₂ := loadFile_run_of_open hfits₂ hlex₂ hrun₂
      refine ⟨by rw [hload₁.1, hload₂.1, he], ?_⟩
      rw [hload₁.2, hload₂.2, he]
      exact SameAnswers.refl _
    · intro hhubs hsame hgaps
      obtain ⟨⟨e₁, s₁⟩, hrun₁⟩ := Option.isSome_iff_exists.1
        (Format.fileLoop_isSome stale ⟨p.resetParserState, 0⟩ (Nat.lt_of_succ_lt hlen₁))
      obtain ⟨⟨e₂, s₂⟩, hrun₂⟩ := Option.isSome_iff_exists.1
        (Format.fileLoop_isSome stale ⟨p.resetParserState, 0⟩ (Nat.lt_of_succ_lt hlen₂))
      have hne := hgaps.length_ne htokens' hhubs hrun₁ hrun₂ (Nat.lt_of_succ_lt hlen₁) hstart hnil
      have hlist := hsame.getHubIdList
      rw [(loadFile_run_of_open hfits₁ hlex₁ hrun₁).2, (loadFile_run_of_open hfits₂ hlex₂ hrun₂).2]
        at hlist
      refine hne (congrArg List.length ?_)
      split_ifs at hlist <;> exact hlist.symm
  · have hopen₂ : ¬ ∃ gap ls, lex c₂ = ⟨gap, .byte 123⟩ :: ls := by
      rintro ⟨gap, ls, hlex⟩
      obtain ⟨gap₁, ls₁, hlex₁, -⟩ := lex_open_of_tokens htokens.symm hlex
      exact hopen ⟨gap₁, ls₁, hlex₁⟩
    have hload₁ := loadFile_of_not_open p hfits₁ hopen stale
    have hload₂ := loadFile_of_not_open p hfits₂ hopen₂ stale
    refine ⟨fun _ ↦ ⟨by rw [hload₁.1, hload₂.1], ?_⟩, fun _ _ hdiffer ↦ ?_⟩
    · rw [hload₁.2, hload₂.2]
      exact SameAnswers.refl _
    · obtain ⟨gap₁, gap₂, ls₁, ls₂, hlex₁, hlex₂, hgaps⟩ := hdiffer
      exact hopen ⟨gap₁, ls₁, hlex₁⟩

/-- Commas without white space before them do not differ. -/
theorem not_gapsDiffer {device : ℤ} {ids : List ℤ} {ls₁ ls₂ : List Lexeme}
    (h₁ : ⟨true, .byte 44⟩ ∉ ls₁) (h₂ : ⟨true, .byte 44⟩ ∉ ls₂) :
    ¬ GapsDiffer device ids ls₁ ls₂ := by
  intro h
  induction h with
  | @here ids m gap _ _ _ _ _ _ hsuffix₁ hsuffix₂ _ =>
    cases gap with
    | false => exact h₂ (hsuffix₂.subset (List.mem_cons_self ..))
    | true => exact h₁ (hsuffix₁.subset (List.mem_cons_self ..))
  | later _ _ hsuffix₁ hsuffix₂ _ _ ih =>
    exact ih (fun h ↦ h₁ (hsuffix₁.subset (List.mem_cons_of_mem _ h)))
      fun h ↦ h₂ (hsuffix₂.subset (List.mem_cons_of_mem _ h))

theorem not_filesDiffer {device : ℤ} {c₁ c₂ : Bytes} (h₁ : ⟨true, .byte 44⟩ ∉ lex c₁)
    (h₂ : ⟨true, .byte 44⟩ ∉ lex c₂) : ¬ FilesDiffer device c₁ c₂ := by
  rintro ⟨gap₁, gap₂, ls₁, ls₂, hlex₁, hlex₂, hgaps⟩
  rw [hlex₁] at h₁
  rw [hlex₂] at h₂
  exact not_gapsDiffer (fun h ↦ h₁ (List.mem_cons_of_mem _ h))
    (fun h ↦ h₂ (List.mem_cons_of_mem _ h)) hgaps

/-- The file of two hubs, with what stands before and behind the comma that separates them. -/
def twoHubs (before behind : Bytes) : Bytes :=
  123 :: (slpi.group.text ++ before ++ 44 :: (behind ++ adsp.group.text ++ [125]))

/-- A line break behind the comma does not matter. -/
theorem loadFile_sameTokens_twoHubs :
    ((QshJsonParser.fresh 0).loadFile 1000 (fun _ ↦ []) (.content (twoHubs [] [10]))).ret =
        ((QshJsonParser.fresh 0).loadFile 1000 (fun _ ↦ []) (.content (twoHubs [] []))).ret ∧
      SameAnswers
        ((QshJsonParser.fresh 0).loadFile 1000 (fun _ ↦ []) (.content (twoHubs [] []))).parser
        ((QshJsonParser.fresh 0).loadFile 1000 (fun _ ↦ []) (.content (twoHubs [] [10]))).parser :=
  (loadFile_sameTokens (QshJsonParser.fresh 0) (by decide +kernel)
    (fitsCursors_of_lt (by decide +kernel)) (fitsCursors_of_lt (by decide +kernel))
    (by decide +kernel) (by decide +kernel) (fun _ ↦ [])).1
      (not_filesDiffer (by decide +kernel) (by decide +kernel))

/-- A line break before the comma does: the second hub is lost. -/
theorem not_sameAnswers_twoHubs :
    tokens (twoHubs [10] []) = tokens (twoHubs [] []) ∧
      ¬ SameAnswers
        ((QshJsonParser.fresh 0).loadFile 1000 (fun _ ↦ []) (.content (twoHubs [] []))).parser
        ((QshJsonParser.fresh 0).loadFile 1000 (fun _ ↦ []) (.content (twoHubs [10] []))).parser :=
  ⟨by decide +kernel, fun h ↦ absurd h.getHubIdList (by decide +kernel)⟩

end SensingHub.Json
