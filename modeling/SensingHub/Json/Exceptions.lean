import SensingHub.Json.OtherDevice

/-!
# Exceptions

`parseConfigItem` gives every piece of a `soc_id` string to `std::stoi` and catches nothing. So a
load ends with 0 or -1 and frees the buffer exactly if `stoi` takes every piece of every such string
that is reached; with any other piece an exception leaves `loadFile`, and the buffer is lost.
-/

namespace SensingHub.Json

open CLib (str getlines stoi StoiError)

/-- A load returns 0 or -1 with the buffer freed. -/
def EndsCleanly (l : Loaded) : Prop :=
  (l.ret = .ok 0 ∨ l.ret = .ok (-1)) ∧ l.released = true

/-- `stoi` does not take a piece of a string. -/
def Rejected (token : Bytes) : Prop :=
  ∃ e, stoi token = .error e

/-- Among the members of a config section that are reached there is a `soc_id` string with a piece
that `stoi` does not take. -/
inductive ConfigThrows : List Token → Prop
  | here {ts rest : List Token} {value token : Bytes}
      (hpair : Format.pair ts = some ⟨str "soc_id", some value, rest⟩)
      (htoken : token ∈ getlines 44 value) (hrejected : Rejected token) : ConfigThrows ts
  | later {ts rest : List Token} {key : Bytes} {value : Option Bytes}
      (hpair : Format.pair ts = some ⟨key, value, .byte 44 :: rest⟩)
      (hrest : ConfigThrows rest) : ConfigThrows ts

/-- Among the top-level members that are reached there is such a config section; `ids` are those
listed before. -/
inductive MembersThrow (device : ℤ) : (ids : List ℤ) → List Lexeme → Prop
  | here {ids : List ℤ} {ls : List Lexeme} {ts : List Token}
      (hpair : Format.pair (ls.map Lexeme.token) = some ⟨str "config", none, .byte 123 :: ts⟩)
      (hconfig : ConfigThrows ts) : MembersThrow device ids ls
  | later {ids : List ℤ} {m : Section} {ls ls' : List Lexeme}
      (h : Reads m (ls.map Lexeme.token) (.byte 44 :: ls'.map Lexeme.token))
      (hsuffix : ⟨false, .byte 44⟩ :: ls' <:+ ls) (hids : ¬ Mismatch device (ids ++ m.ids))
      (hrest : MembersThrow device (ids ++ m.ids) ls') : MembersThrow device ids ls

/-- A file that is read reaches a piece of a `soc_id` string that `stoi` does not take. -/
def FileThrows (device : ℤ) (file : FileOutcome) : Prop :=
  ∃ c gap ls, file = .content c ∧ lex c = ⟨gap, .byte 123⟩ :: ls ∧ MembersThrow device [] ls

/-! ### Config sections -/

namespace Format

theorem socIds_eq_none_iff (tokens : List Bytes) :
    (socIds tokens).2 = none ↔ ∀ token ∈ tokens, ¬ Rejected token := by
  induction tokens with
  | nil => simp [socIds]
  | cons token tokens ih =>
    rw [socIds, List.forall_mem_cons]
    rcases hstoi : stoi token with e | n
    · have hrejected : Rejected token := ⟨e, hstoi⟩
      simp [hrejected]
    · have haccepted : ¬ Rejected token := by
        rintro ⟨e, he⟩
        cases hstoi.symm.trans he
      simp only [haccepted, not_false_eq_true, true_and]
      exact ih

/-- A member of a config section throws exactly if it is a `soc_id` string with a rejected piece. -/
theorem memberIds_eq_none_iff (key : Bytes) (value : Option Bytes) :
    (memberIds key value).2 = none ↔
      ∀ v, key = str "soc_id" → value = some v → ∀ token ∈ getlines 44 v, ¬ Rejected token := by
  rcases value with _ | v
  · exact iff_of_true rfl fun v _ h ↦ by cases h
  · rw [memberIds]
    split_ifs with hkey
    · rw [socIds_eq_none_iff]
      exact ⟨fun h v' _ hv ↦ by cases hv; exact h, fun h ↦ h v hkey rfl⟩
    · exact iff_of_true rfl fun v h ↦ absurd h hkey

/-- The loop over the members of a config section throws exactly if a rejected piece is reached. -/
theorem configLoop_threw_iff {fuel : ℕ} {ts : List Token} {r : ConfigItemRead}
    (h : configLoop fuel ts = some r) : (∃ e, r.rest = .error e) ↔ ConfigThrows ts := by
  induction fuel generalizing ts r with
  | zero => cases h
  | succ fuel ih =>
    rw [configLoop] at h
    rcases hpair : pair ts with _ | ⟨key, value, rest⟩
    · -- no pair: the loop ends without an exception
      rw [hpair] at h
      cases h
      refine iff_of_false (by rintro ⟨e, ⟨⟩⟩) fun hthrows ↦ ?_
      cases hthrows with
      | here hpair' _ _ => cases hpair.symm.trans hpair'
      | later hpair' _ => cases hpair.symm.trans hpair'
    rw [hpair] at h
    have hnone := memberIds_eq_none_iff key value
    rcases hids : memberIds key value with ⟨ids, _ | e⟩
    · -- the member itself does not throw
      rw [hids] at hnone
      simp only [hids] at h
      have hhere := hnone.1 rfl
      have hlater : ConfigThrows ts ↔ ∃ rest', rest = .byte 44 :: rest' ∧ ConfigThrows rest' := by
        constructor
        · intro hthrows
          cases hthrows with
          | here hpair' htoken hrejected =>
            cases hpair.symm.trans hpair'
            exact absurd hrejected (hhere _ rfl rfl _ htoken)
          | later hpair' hrest =>
            cases hpair.symm.trans hpair'
            exact ⟨_, rfl, hrest⟩
        · rintro ⟨rest', rfl, hrest⟩
          exact .later hpair hrest
      rw [hlater]
      split at h
      · next rest' =>
        obtain ⟨r', hr', rfl⟩ := Option.map_eq_some_iff.1 h
        refine (ih hr').trans ⟨fun hrest ↦ ⟨rest', rfl, hrest⟩, ?_⟩
        rintro ⟨rest'', heq, hrest⟩
        cases heq
        exact hrest
      · next hcomma =>
        cases h
        refine iff_of_false (by rintro ⟨e, ⟨⟩⟩) ?_
        rintro ⟨rest', rfl, -⟩
        exact hcomma rest' rfl
    · -- the exception leaves the loop from this member
      rw [hids] at hnone
      simp only [hids] at h
      cases h
      have hsome : ¬ ∀ v, key = str "soc_id" → value = some v →
          ∀ token ∈ getlines 44 v, ¬ Rejected token := fun hall ↦ by cases hnone.2 hall
      push Not at hsome
      obtain ⟨v, rfl, rfl, token, htoken, hrejected⟩ := hsome
      exact iff_of_true ⟨e, rfl⟩ (.here hpair htoken hrejected)

/-- A config section throws exactly if a rejected piece is reached. -/
theorem config_threw_iff {fuel : ℕ} {ts : List Token} {r : ConfigRead}
    (h : config fuel ts = some r) :
    (∃ e, r.ending = .threw e) ↔ ∃ ts', ts = .byte 123 :: ts' ∧ ConfigThrows ts' := by
  unfold config at h
  split at h
  · next ts' =>
    obtain ⟨r', hr', rfl⟩ := Option.map_eq_some_iff.1 h
    have hending : (∃ e, configEnd r'.rest = .threw e) ↔ ∃ e, r'.rest = .error e := by
      rcases r'.rest with e | rest
      · exact iff_of_true ⟨e, rfl⟩ ⟨e, rfl⟩
      · refine iff_of_false ?_ (by rintro ⟨e, ⟨⟩⟩)
        rintro ⟨e, he⟩
        unfold configEnd at he
        split at he
        · next heq => cases heq
        · cases he
        · cases he
    rw [hending, configLoop_threw_iff hr']
    refine ⟨fun hthrows ↦ ⟨ts', rfl, hthrows⟩, ?_⟩
    rintro ⟨ts'', heq, hthrows⟩
    cases heq
    exact hthrows
  · next hopen =>
    cases h
    refine iff_of_false (by rintro ⟨e, ⟨⟩⟩) ?_
    rintro ⟨ts', rfl, -⟩
    exact hopen ts' rfl

/-! ### Files -/

variable {device : ℤ} {fuel : ℕ} {ls : List Lexeme} {ids : List ℤ} {o : Outline}

/-- A member that throws is a config section that does. -/
theorem configThrows_of_outlineMember {key : Bytes} {ts : List Token} {e : StoiError} {m : Section}
    (h : outlineMember device fuel key ts ids = some (.error (.threw e), m)) :
    key = str "config" ∧ ∃ ts', ts = .byte 123 :: ts' ∧ ConfigThrows ts' := by
  unfold outlineMember at h
  split_ifs at h with hkey
  · refine ⟨hkey, ?_⟩
    obtain ⟨⟨ids', ending⟩, hconfig, heq⟩ := Option.map_eq_some_iff.1 h
    refine (config_threw_iff hconfig).1 ?_
    rcases ending with rest | _ | e'
    · simp only [Prod.mk.injEq] at heq
      split_ifs at heq
      · cases heq.1
      · cases heq.1
    · simp only [Prod.mk.injEq, Except.error.injEq] at heq
      split_ifs at heq
      · cases heq.1
      · cases heq.1
    · exact ⟨e', rfl⟩
  · obtain ⟨⟨calls, _ | next⟩, -, heq⟩ := Option.map_eq_some_iff.1 h
    · cases heq
    · cases heq

/-- The loop over the top-level members throws only where a rejected piece is reached. -/
theorem membersThrow_of_outlineLoop (h : outlineLoop device fuel ls ids = some o)
    (hids : ¬ Mismatch device ids) {e : StoiError} (he : o.ending = .threw e) :
    MembersThrow device ids ls := by
  induction fuel generalizing ls ids o with
  | zero => cases h
  | succ fuel ih =>
    rw [outlineLoop] at h
    rcases hpair : pair (ls.map Lexeme.token) with _ | ⟨key, _ | value, body⟩
    · rw [hpair] at h
      cases h
      cases he
    · rw [hpair] at h
      obtain ⟨⟨r, m⟩, hmember, hnext⟩ := Option.bind_eq_some_iff.1 h
      rcases r with e' | rest
      · cases hnext
        obtain rfl : e' = .threw e := he
        obtain ⟨rfl, ts', rfl, hthrows⟩ := configThrows_of_outlineMember hmember
        exact .here hpair hthrows
      · obtain ⟨hreads, hids'⟩ := reads_of_outlineMember hpair hmember hids
        obtain ⟨ls', hsuffix, rfl⟩ := exists_lexemes hreads.closed.suffix
        simp only [drop_of_suffix hsuffix] at hnext
        obtain ⟨o', ho', rfl⟩ := Option.map_eq_some_iff.1 hnext
        rcases fileNext_cases (fun ls ↦ outlineLoop device fuel ls (ids ++ m.ids))
          (fun ls ↦ some (Outline.mk [] (.ended ls))) ls' with ⟨ls'', rfl, hgo⟩ | ⟨-, hdone⟩
        · exact .later hreads hsuffix hids' (ih (hgo.symm.trans ho') hids' he)
        · cases hdone.symm.trans ho'
          cases he
    · rw [hpair] at h
      cases h
      cases he

/-- And there it does throw. -/
theorem outlineLoop_threw (h : MembersThrow device ids ls) (hids : ¬ Mismatch device ids)
    (hfuel : ls.length < fuel) :
    ∃ calls e, outlineLoop device fuel ls ids = some ⟨calls, .threw e⟩ := by
  induction h generalizing fuel with
  | @here ids ls ts hpair hthrows =>
    obtain ⟨fuel, rfl⟩ : ∃ n, fuel = n + 1 := ⟨fuel - 1, by omega⟩
    have hlen := length_of_pair hpair
    simp only [List.length_map] at hlen
    have hfuel' : (Token.byte 123 :: ts).length ≤ fuel := by omega
    obtain ⟨r, hr⟩ := Option.isSome_iff_exists.1 (config_isSome hfuel')
    obtain ⟨e, he⟩ := (config_threw_iff hr).2 ⟨ts, rfl, hthrows⟩
    refine ⟨[], e, ?_⟩
    rw [outlineLoop, hpair]
    simp only [outlineMember, if_true, hr, Option.map_some, he, Option.bind_some]
    rfl
  | @later ids m ls ls' hm hsuffix hids' _ ih =>
    obtain ⟨fuel, rfl⟩ : ∃ n, fuel = n + 1 := ⟨fuel - 1, by omega⟩
    have hlen := hsuffix.length_le
    rw [List.length_cons] at hlen
    have hfuel' : ls'.length < fuel := by omega
    obtain ⟨calls, e, hrest⟩ := ih hids' hfuel'
    have hround : outlineLoop device (fuel + 1) ls ids = _ :=
      outlineLoop_reads hm hsuffix (Nat.le_of_lt_succ hfuel) hids
    refine ⟨m.calls ++ calls, e, ?_⟩
    rw [hround, if_neg hids', fileNext, hrest]
    rfl

end Format

/-! ### Loads -/

theorem fileThrows_content {device : ℤ} {c : Bytes} {fuel : ℕ} (hfuel : c.length < fuel)
    {o : Outline} (ho : Format.outline device fuel (lex c) = some o) :
    FileThrows device (.content c) ↔ ∃ e, o.ending = .threw e := by
  have hlen := (length_lex_le c).trans_lt hfuel
  have hnil := not_mismatch_nil device
  constructor
  · rintro ⟨c', gap, ls, hc', hlex, hthrows⟩
    cases hc'
    rw [hlex, List.length_cons] at hlen
    obtain ⟨calls, e, hloop⟩ := Format.outlineLoop_threw hthrows hnil (Nat.lt_of_succ_lt hlen)
    rw [hlex] at ho
    cases hloop.symm.trans ho
    exact ⟨e, rfl⟩
  · rintro ⟨e, he⟩
    unfold Format.outline at ho
    split at ho
    · next gap ls hlex =>
      exact ⟨c, gap, ls, rfl, hlex, Format.membersThrow_of_outlineLoop ho hnil he⟩
    · cases ho
      cases he

/-- The buffer is freed exactly if `loadFile` returns. -/
theorem released_iff (p : QshJsonParser) (fuel : ℕ) (stale : ℕ → Bytes) (file : FileOutcome) :
    (p.loadFile fuel stale file).released = true ↔
      ∃ n, (p.loadFile fuel stale file).ret = .ok n := by
  unfold QshJsonParser.loadFile
  cases file with
  | content c =>
    simp only
    rcases parseFile fuel 0 (c.length % 2 ^ 32) (Machine.start p.resetParserState c stale) with
      ⟨stop | ⟨ret, cursor⟩, m⟩
    · exact iff_of_false (fun h ↦ by cases h) (by rintro ⟨n, ⟨⟩⟩)
    · simp only
      split_ifs
      · exact iff_of_true rfl ⟨0, rfl⟩
      · exact iff_of_true rfl ⟨-1, rfl⟩
  | _ => exact iff_of_true rfl ⟨-1, rfl⟩

theorem Format.FileEnd.result_cases (e : Format.FileEnd) :
    (e.result = .ok 0 ∨ e.result = .ok (-1)) ↔ ¬ ∃ e', e = .threw e' := by
  cases e with
  | failed => exact iff_of_true (Or.inr rfl) (by rintro ⟨e', ⟨⟩⟩)
  | skipped => exact iff_of_true (Or.inl rfl) (by rintro ⟨e', ⟨⟩⟩)
  | brokenConfig => exact iff_of_true (Or.inl rfl) (by rintro ⟨e', ⟨⟩⟩)
  | ended ls => exact iff_of_true (Or.inl rfl) (by rintro ⟨e', ⟨⟩⟩)
  | threw e' => exact iff_of_false (by rintro (h | h) <;> cases h) (not_not_intro ⟨e', rfl⟩)

/-- **A load ends cleanly exactly if no rejected piece of a `soc_id` string is reached**, whatever
has become of the file and whatever the parser object holds. -/
theorem endsCleanly_iff (p : QshJsonParser) {file : FileOutcome} {fuel : ℕ}
    (hfile : ∀ c, file = .content c → FitsCursors fuel c ∧ c.length < fuel) (stale : ℕ → Bytes) :
    EndsCleanly (p.loadFile fuel stale file) ↔ ¬ FileThrows p.mDeviceSocId file := by
  cases file with
  | content c =>
    obtain ⟨hfits, hfuel⟩ := hfile c rfl
    obtain ⟨o, ho⟩ : ∃ o, Format.outline p.mDeviceSocId fuel (lex c) = some o :=
      Format.outline_isSome ((length_lex_le c).trans hfuel.le)
    rw [fileThrows_content hfuel ho, ← o.ending.result_cases, EndsCleanly, released_iff,
      (loadFile_outline hfits ho stale).1]
    refine ⟨fun h ↦ h.1, fun h ↦ ⟨h, ?_⟩⟩
    rcases h with h | h
    · exact ⟨0, h⟩
    · exact ⟨-1, h⟩
  | _ =>
    refine iff_of_true ⟨Or.inr rfl, rfl⟩ ?_
    rintro ⟨c, gap, ls, hc, -⟩
    cases hc

theorem endsCleanly_slpiFileFor :
    EndsCleanly ((QshJsonParser.fresh 0).loadFile 1000 (fun _ ↦ [])
      (.content (slpiFileFor (str "5,0")))) := by
  have hlen : (slpiFileFor (str "5,0")).length < 1000 := by decide +kernel
  have hresult : ∀ o ∈ Format.outline 0 1000 (lex (slpiFileFor (str "5,0"))),
      o.ending.result = .ok 0 := by
    decide +kernel
  obtain ⟨o, ho⟩ : ∃ o, Format.outline 0 1000 (lex (slpiFileFor (str "5,0"))) = some o :=
    Format.outline_isSome ((length_lex_le _).trans hlen.le)
  refine (endsCleanly_iff (QshJsonParser.fresh 0) (fun c hc ↦ ?_) (fun _ ↦ [])).2 ?_
  · cases hc
    exact ⟨fitsCursors_of_lt (hlen.trans (by decide)), hlen⟩
  · intro hthrows
    obtain ⟨e, he⟩ := (fileThrows_content hlen ho).1 hthrows
    have hread := hresult o ho
    rw [he] at hread
    cases e <;> cases hread

/-- A file with nothing but a config section. -/
def configFile (socIds : Bytes) : Bytes :=
  render (.byte 123 :: (configTokens socIds ++ [.byte 125]))

/-- An empty piece of the list is enough for an exception, and the buffer is lost. -/
theorem not_endsCleanly_configFile :
    ¬ EndsCleanly ((QshJsonParser.fresh 0).loadFile 1000 (fun _ ↦ [])
      (.content (configFile (str "5,,7")))) := by
  have hlost : ((QshJsonParser.fresh 0).loadFile 1000 (fun _ ↦ [])
      (.content (configFile (str "5,,7")))).released = false := by decide +kernel
  intro hclean
  rw [hclean.2] at hlost
  cases hlost

end SensingHub.Json
