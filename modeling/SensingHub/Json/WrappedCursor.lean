import SensingHub.Json.Exceptions
import SensingHub.Json.FileUpkeep

/-!
# The cursor that wraps

`parseConfig` returns -1 for a section that is broken, and `parseFile`, which tests for 0, adds that
to its cursor: an unsigned addition that leaves 32 bits and moves the cursor back by one, while
`parseFile` goes on and returns 0. It is the one operation of its kind. So the cursors of a load are
sound exactly if no broken config section is reached.
-/

namespace SensingHub.Json

open CLib (str isspace getlines)

/-! ### Broken config sections -/

/-- No piece of a member is rejected by `stoi`. -/
def Accepted (key : Bytes) (value : Option Bytes) : Prop :=
  ∀ v, key = str "soc_id" → value = some v → ∀ token ∈ getlines 44 v, ¬ Rejected token

/-- The members of a config section end at something else than its closing bracket: at what is no
pair, or behind a pair that no comma follows. -/
inductive ConfigBreaks : List Token → Prop
  | noPair {ts : List Token} (hpair : Format.pair ts = none)
      (hclose : ts.head? ≠ some (.byte 125)) : ConfigBreaks ts
  | noComma {ts rest : List Token} {key : Bytes} {value : Option Bytes}
      (hpair : Format.pair ts = some ⟨key, value, rest⟩) (haccepted : Accepted key value)
      (hcomma : rest.head? ≠ some (.byte 44)) (hclose : rest.head? ≠ some (.byte 125)) :
      ConfigBreaks ts
  | later {ts rest : List Token} {key : Bytes} {value : Option Bytes}
      (hpair : Format.pair ts = some ⟨key, value, .byte 44 :: rest⟩)
      (haccepted : Accepted key value) (hrest : ConfigBreaks rest) : ConfigBreaks ts

/-- A config section that does not open with a bracket, or whose members do not end before the
closing one. -/
def BrokenConfig (ts : List Token) : Prop :=
  ∀ ts', ts = .byte 123 :: ts' → ConfigBreaks ts'

/-- Among the top-level members that are reached there is a broken config section; `ids` are those
listed before. -/
inductive MeetsBrokenConfig (device : ℤ) : (ids : List ℤ) → List Lexeme → Prop
  | here {ids : List ℤ} {ls : List Lexeme} {ts : List Token}
      (hpair : Format.pair (ls.map Lexeme.token) = some ⟨str "config", none, ts⟩)
      (hbroken : BrokenConfig ts) : MeetsBrokenConfig device ids ls
  | later {ids : List ℤ} {m : Section} {ls ls' : List Lexeme}
      (h : Reads m (ls.map Lexeme.token) (.byte 44 :: ls'.map Lexeme.token))
      (hsuffix : ⟨false, .byte 44⟩ :: ls' <:+ ls) (hids : ¬ Mismatch device (ids ++ m.ids))
      (hrest : MeetsBrokenConfig device (ids ++ m.ids) ls') : MeetsBrokenConfig device ids ls

/-- A file in which a broken config section is reached. -/
def FileMeetsBrokenConfig (device : ℤ) (c : Bytes) : Prop :=
  ∃ gap ls, lex c = ⟨gap, .byte 123⟩ :: ls ∧ MeetsBrokenConfig device [] ls

namespace Format

/-- The loop over the members of a config section ends before something else than its closing
bracket exactly if they break. -/
theorem configLoop_breaks_iff {fuel : ℕ} {ts : List Token} {r : ConfigItemRead}
    (h : configLoop fuel ts = some r) :
    (∃ rest, r.rest = .ok rest ∧ rest.head? ≠ some (.byte 125)) ↔ ConfigBreaks ts := by
  induction fuel generalizing ts r with
  | zero => cases h
  | succ fuel ih =>
    rw [configLoop] at h
    rcases hpair : pair ts with _ | ⟨key, value, rest⟩
    · -- no pair: the loop ends there
      rw [hpair] at h
      cases h
      constructor
      · rintro ⟨rest, hrest, hclose⟩
        cases hrest
        exact .noPair hpair hclose
      · intro hbreaks
        cases hbreaks with
        | noPair _ hclose => exact ⟨ts, rfl, hclose⟩
        | noComma hpair' _ _ _ => cases hpair.symm.trans hpair'
        | later hpair' _ _ => cases hpair.symm.trans hpair'
    rw [hpair] at h
    have haccepted := memberIds_eq_none_iff key value
    rcases hids : memberIds key value with ⟨ids, _ | e⟩
    · -- an accepted member: behind a comma the loop goes on
      rw [hids] at haccepted
      replace haccepted := haccepted.1 rfl
      simp only [hids] at h
      split at h
      · next rest =>
        obtain ⟨r', hr', rfl⟩ := Option.map_eq_some_iff.1 h
        refine (ih hr').trans ⟨fun hrest ↦ .later hpair haccepted hrest, fun hbreaks ↦ ?_⟩
        cases hbreaks with
        | noPair hpair' _ => cases hpair.symm.trans hpair'
        | noComma hpair' _ hcomma _ =>
          cases hpair.symm.trans hpair'
          exact absurd rfl hcomma
        | later hpair' _ hrest =>
          cases hpair.symm.trans hpair'
          exact hrest
      · next hcomma =>
        cases h
        have hhead : rest.head? ≠ some (.byte 44) := fun hhead ↦ by
          obtain ⟨rest', rfl⟩ := List.head?_eq_some_iff.1 hhead
          exact hcomma rest' rfl
        constructor
        · rintro ⟨rest', hrest, hclose⟩
          cases hrest
          exact .noComma hpair haccepted hhead hclose
        · intro hbreaks
          cases hbreaks with
          | noPair hpair' _ => cases hpair.symm.trans hpair'
          | noComma hpair' _ _ hclose =>
            cases hpair.symm.trans hpair'
            exact ⟨rest, rfl, hclose⟩
          | later hpair' _ _ =>
            cases hpair.symm.trans hpair'
            exact absurd rfl hhead
    · -- a rejected id: the exception leaves the loop, and no cursor is advanced
      rw [hids] at haccepted
      simp only [hids] at h
      cases h
      have hrejected : ¬ Accepted key value := fun h ↦ by cases haccepted.2 h
      refine iff_of_false (by rintro ⟨rest, ⟨⟩, -⟩) fun hbreaks ↦ ?_
      cases hbreaks with
      | noPair hpair' _ => cases hpair.symm.trans hpair'
      | noComma hpair' haccepted' _ _ =>
        cases hpair.symm.trans hpair'
        exact hrejected haccepted'
      | later hpair' haccepted' _ =>
        cases hpair.symm.trans hpair'
        exact hrejected haccepted'

theorem configEnd_eq_failed_iff (rest : Except CLib.StoiError (List Token)) :
    configEnd rest = .failed ↔ ∃ rest', rest = .ok rest' ∧ rest'.head? ≠ some (.byte 125) := by
  unfold configEnd
  split
  · exact iff_of_false (fun h ↦ by cases h) (by rintro ⟨rest', ⟨⟩, -⟩)
  · refine iff_of_false (fun h ↦ by cases h) ?_
    rintro ⟨rest', heq, hclose⟩
    cases heq
    exact hclose rfl
  · next rest' hclose =>
    refine iff_of_true rfl ⟨rest', rfl, fun hhead ↦ ?_⟩
    obtain ⟨rest'', rfl⟩ := List.head?_eq_some_iff.1 hhead
    exact hclose rest'' rfl

/-- **A config section fails exactly if it is broken.** -/
theorem config_failed_iff {fuel : ℕ} {ts : List Token} {r : ConfigRead}
    (h : config fuel ts = some r) : r.ending = .failed ↔ BrokenConfig ts := by
  unfold config at h
  split at h
  · next ts' =>
    obtain ⟨r', hr', rfl⟩ := Option.map_eq_some_iff.1 h
    refine ((configEnd_eq_failed_iff _).trans (configLoop_breaks_iff hr')).trans ⟨?_, ?_⟩
    · rintro hbreaks _ ⟨⟩
      exact hbreaks
    · exact fun hbroken ↦ hbroken ts' rfl
  · next hopen =>
    cases h
    exact iff_of_true rfl fun ts' hts ↦ absurd hts (hopen ts')

end Format

/-! ### Members that are reached -/

section

variable {device : ℤ} {ids : List ℤ} {ls ls' : List Lexeme}

theorem MeetsBrokenConfig.pair (h : MeetsBrokenConfig device ids ls) :
    ∃ key ts, Format.pair (ls.map Lexeme.token) = some ⟨key, none, ts⟩ := by
  cases h with
  | here hpair _ => exact ⟨_, _, hpair⟩
  | later h _ _ _ =>
    obtain ⟨key, body, hpair, -⟩ := Format.pair_of_reads h
    exact ⟨key, body, hpair⟩

/-- A member that is read is no broken config section. -/
theorem not_brokenConfig_of_reads {m : Section} {key : Bytes} {ts body rest : List Token}
    (h : Reads m ts rest) (hpair : Format.pair ts = some ⟨key, none, body⟩) :
    ¬ (key = str "config" ∧ BrokenConfig body) := by
  rintro ⟨rfl, hbroken⟩
  obtain ⟨key, body', hpair', rfl⟩ := Format.pair_of_reads h
  cases hpair.symm.trans hpair'
  cases h with
  | group hkey _ => exact hkey rfl
  | config hconfig => cases (Format.config_failed_iff hconfig).2 hbroken

/-- Behind a member that is read a broken config section is reached only past a comma. -/
theorem meetsBrokenConfig_of_reads {m : Section}
    (h : Reads m (ls.map Lexeme.token) (ls'.map Lexeme.token)) (hsuffix : ls' <:+ ls) :
    MeetsBrokenConfig device ids ls ↔ ¬ Mismatch device (ids ++ m.ids) ∧
      ∃ ls'', ls' = ⟨false, .byte 44⟩ :: ls'' ∧ MeetsBrokenConfig device (ids ++ m.ids) ls'' := by
  constructor
  · intro hmeets
    cases hmeets with
    | here hpair hbroken => exact absurd ⟨rfl, hbroken⟩ (not_brokenConfig_of_reads h hpair)
    | @later _ m' _ ls'' h' hsuffix' hids hrest =>
      obtain ⟨rfl, hls⟩ := h.unique h'
      have hlen : ls'.length = ls''.length + 1 := by
        simpa only [List.length_map, List.length_cons] using congrArg List.length hls
      have heq : ls' = ⟨false, .byte 44⟩ :: ls'' :=
        (List.suffix_of_suffix_length_le hsuffix hsuffix' hlen.le).eq_of_length hlen
      exact ⟨hids, ls'', heq, hrest⟩
  · rintro ⟨hids, ls'', rfl, hrest⟩
    exact .later h hsuffix hids hrest

/-- Where no member is read a broken config section is reached only if it stands there. -/
theorem meetsBrokenConfig_of_not_reads {key : Bytes} {body : List Token}
    (hpair : Format.pair (ls.map Lexeme.token) = some ⟨key, none, body⟩)
    (hreads : ∀ m rest, ¬ Reads m (ls.map Lexeme.token) rest) :
    MeetsBrokenConfig device ids ls ↔ key = str "config" ∧ BrokenConfig body := by
  constructor
  · intro hmeets
    cases hmeets with
    | here hpair' hbroken =>
      cases hpair.symm.trans hpair'
      exact ⟨rfl, hbroken⟩
    | later h _ _ _ => exact absurd h (hreads _ _)
  · rintro ⟨rfl, hbroken⟩
    exact .here hpair hbroken

end

/-! ### What the machine notices -/

section

variable {m : Machine} {json jsonlen cidx : ℕ} {t : Bytes}

/-- A top-level member wraps the cursor exactly if it is a broken config section. -/
theorem parseMember_wrapped {fuel keyAt : ℕ} {key : Bytes}
    (hkey : CStr m.json (json + (cidx + 1)) keyAt key)
    (h : Standing m.json json jsonlen (cidx + 1) t) (ht : t.dropWhile isspace = t)
    (hsize : jsonlen < 2 ^ 31) (hfuel : (tokens t).length ≤ fuel) (hw : m.wrapped = false) :
    (parseMember fuel keyAt json jsonlen (cidx + 1) m).2.wrapped = true ↔
      key = str "config" ∧ BrokenConfig (tokens t) := by
  have hlen := h.le
  have hcall := h.call
  rw [parseMember, Prog.bind_ok (cStringAt_run hkey)]
  by_cases hconfig : key = str "config"
  · -- only the failure of a config section is added to the cursor: `cidx += (uint32_t)-1`
    have hrun := parseConfig_run fuel hcall (by omega) ht
    obtain ⟨⟨ids, ending⟩, hread⟩ := Option.isSome_iff_exists.1 (Format.config_isSome hfuel)
    rw [← Format.config_failed_iff hread, if_pos hconfig, Prog.bind_ok (sub_run hlen h.lt m)]
    rw [hread] at hrun
    rcases ending with rest | _ | e
    · obtain ⟨json', len, r, hx, -, -, hst, -⟩ := hrun
      have hle := (hst.return hlen h.lt).le
      refine iff_of_false ?_ fun hfailed ↦ by cases hfailed.2
      rw [Prog.bind_ok hx, if_neg (by omega), toUInt32_of_lt (by omega),
        Prog.bind_ok (add_run (by omega) _), Prog.modify_bind_run, Prog.read_bind_run]
      rw [Bool.not_eq_true]
      split <;> exact hw
    · obtain ⟨json', hx, -⟩ := hrun
      refine iff_of_true ?_ ⟨hconfig, rfl⟩
      rw [Prog.bind_ok hx, if_neg (by decide), Prog.bind_ok (add_neg_one_run (by omega) _),
        Prog.modify_bind_run, Prog.read_bind_run]
      split <;> rfl
    · obtain ⟨json', hx⟩ := hrun
      refine iff_of_false ?_ fun hfailed ↦ by cases hfailed.2
      rw [Prog.bind_error hx, Bool.not_eq_true]
      exact hw
  · -- the result of a group is compared with -1 before it is added
    have hrun := parseGroup_run fuel (hkey.mono le_rfl) hcall ht
    obtain ⟨⟨calls, rest⟩, hread⟩ := Option.isSome_iff_exists.1 (Format.group_isSome key hfuel)
    rw [if_neg hconfig, Prog.bind_ok (sub_run hlen h.lt m)]
    rw [hread] at hrun
    refine iff_of_false ?_ fun hbroken ↦ hconfig hbroken.1
    rw [Bool.not_eq_true]
    rcases rest with _ | rest
    · obtain ⟨json', hx⟩ := hrun
      rw [Prog.bind_ok hx]
      exact hw
    · obtain ⟨json', len, r, hx, -, -, hst, -⟩ := hrun
      have hle := (hst.return hlen h.lt).le
      rw [Prog.bind_ok hx]
      simp only
      rw [Prog.bind_ok (add_run (by omega) _)]
      exact hw

/-- The loop over the top-level members wraps a cursor exactly if a broken config section is
reached. -/
theorem parseFileLoop_wrapped (fuel : ℕ) {device : ℤ} {ids : List ℤ}
    (h : Standing m.json json jsonlen cidx t) (hsize : jsonlen < 2 ^ 31)
    (hfuel : (lex t).length < fuel) (hs : SocState device ids m.parser)
    (hids : ¬ Mismatch device ids) (hw : m.wrapped = false) :
    (parseFileLoop fuel json jsonlen cidx m).2.wrapped = true ↔
      MeetsBrokenConfig device ids (lex t) := by
  -- on the rounds left, for every cursor and every list of ids
  induction fuel generalizing m cidx t ids with
  | zero => exact absurd hfuel (Nat.not_lt_zero _)
  | succ fuel ih =>
    rcases nextPair_cases h with ⟨key, r, json', c, len, keyAt, hpair, hx, hle, hst, htight, hreach,
      hkey, hbefore⟩ | ⟨hne, json', c, pair, hx, hend⟩
    · have hlen := hst.le
      have hcount := Format.length_of_pair hpair
      simp only [tokens, List.length_map] at hcount
      have hfuel' : (tokens r).length ≤ fuel := by
        simp only [tokens, List.length_map]
        omega
      have hmember : FileMemberRun { m with json := json' } json jsonlen (c + (len + 1)) r
          (parseMember fuel keyAt json jsonlen (c + (len + 1)) { m with json := json' })
          (Format.fileMember m.stale fuel key (tokens r) ⟨m.parser, m.items⟩) :=
        parseMember_run fuel hkey hst htight hbefore fun _ ↦ hsize
      have hwrapped : (parseMember fuel keyAt json jsonlen (c + (len + 1))
          { m with json := json' }).2.wrapped = true ↔
          key = str "config" ∧ BrokenConfig (tokens r) :=
        parseMember_wrapped hkey hst htight hsize hfuel' hw
      rw [parseFileLoop, Prog.bind_ok hx]
      simp only
      rw [Prog.bind_ok (add_run (by omega) _)]
      rcases hrun : parseMember fuel keyAt json jsonlen (c + (len + 1))
        { m with json := json' } with ⟨round, m'⟩
      rw [hrun] at hmember hwrapped
      -- only behind a member that is read does the loop go on
      by_cases hreads : ∃ mem rest, Reads mem (tokens t) rest
      · -- its ids decide whether the file is skipped
        obtain ⟨mem, rest, hm⟩ := hreads
        obtain ⟨ls', hsuffix, rfl⟩ := exists_lexemes hm.closed.suffix
        have hclear : m'.wrapped = false :=
          Bool.eq_false_iff.2 fun h ↦ not_brokenConfig_of_reads hm hpair (hwrapped.1 h)
        have hmem := SocState.member (s := ⟨m.parser, m.items⟩) hs m.stale mem
        obtain ⟨key', body, hpair', htokens⟩ := Format.pair_of_reads hm
        cases hpair.symm.trans hpair'
        rw [Format.fileMember_reads (htokens ▸ hm) hfuel' hs hids] at hmember
        rw [meetsBrokenConfig_of_reads hm hsuffix]
        by_cases hskip : Mismatch device (ids ++ mem.ids)
        · rw [if_pos (hmem.skips_iff.2 hskip)] at hmember
          obtain rfl : round = .ok .skipped := hmember.1
          rw [Prog.bind_ok hrun]
          exact iff_of_false (Bool.not_eq_true _ ▸ hclear) fun hmeets ↦ hmeets.1 hskip
        rw [if_neg fun h ↦ hskip (hmem.skips_iff.1 h)] at hmember
        obtain ⟨json'', c', r', hx', hle', hst', hls', hpast⟩ := hmember
        cases hx'
        have hlex : ls' = lex r' := by
          rw [← (hreach _ hpast).lex_eq, hls', Format.drop_of_suffix hsuffix]
        rw [Prog.bind_ok hrun]
        simp only
        by_cases hcomma : ∃ r'', r' = 44 :: r''
        · obtain ⟨r'', rfl⟩ := hcomma
          have hlex' : lex (44 :: r'') = ⟨false, .byte 44⟩ :: lex r'' :=
            lex_byte (by decide) (by decide) r''
          rw [hlex, hlex'] at hsuffix ⊢
          have hcount' := hsuffix.length_le
          rw [List.length_cons] at hcount'
          rw [Prog.bind_ok (commaWithin_run hst' (by omega))]
          refine (ih hst'.cons (by omega) hmem hskip hclear).trans ⟨fun hmeets ↦ ?_, ?_⟩
          · exact ⟨hskip, _, rfl, hmeets⟩
          · rintro ⟨-, ls'', hls'', hmeets⟩
            cases hls''
            exact hmeets
        · rw [Prog.bind_ok (commaWithin_run_of_not hst' hcomma)]
          refine iff_of_false (Bool.not_eq_true _ ▸ hclear) ?_
          rintro ⟨-, ls'', hls'', -⟩
          obtain ⟨r'', hr', -⟩ := lex_eq_comma (hlex ▸ hls'')
          exact hcomma ⟨r'', hr'⟩
      · push Not at hreads
        rw [meetsBrokenConfig_of_not_reads hpair hreads, ← hwrapped]
        obtain ⟨⟨e | rest, s⟩, hread⟩ := Option.isSome_iff_exists.1
          (Format.fileMember_isSome m.stale key ⟨m.parser, m.items⟩ hfuel')
        · -- the loop ends there, and leaves the machine as it is
          rw [hread] at hmember
          rcases e with _ | _ | _ | ls | e
          · obtain rfl : round = .ok .failed := hmember.1
            rw [Prog.bind_ok hrun]
            exact Iff.rfl
          · obtain rfl : round = .ok .skipped := hmember.1
            rw [Prog.bind_ok hrun]
            exact Iff.rfl
          · obtain ⟨k, b, hret, -, hbyte, hne⟩ := hmember
            obtain rfl : round = .ok (.read k) := hret
            rw [Prog.bind_ok hrun]
            simp only
            rw [Prog.bind_ok (commaWithin_run_of_ne hbyte hne)]
            exact Iff.rfl
          · exact hmember.elim
          · obtain rfl : round = .error (.ofStoi e) := hmember.1
            rw [Prog.bind_error hrun]
        · rcases Format.fileMember_cases hpair hread with ⟨mem, rest', hm⟩ | hr | ⟨e, hr⟩ |
            ⟨ids', -, -, -, hr⟩
          · exact absurd hm (hreads mem rest')
          all_goals cases hr
    · -- no pair, or a string in the place of a member: `parseFile` fails
      have hends : (parseFileLoop (fuel + 1) json jsonlen cidx m).2 = { m with json := json' } := by
        rw [parseFileLoop, Prog.bind_ok hx]
        rcases pair with ⟨len, key, value⟩
        rcases hend with rfl | ⟨len, keyAt, valueAt, hpair⟩
        · rfl
        · cases hpair
          rfl
      rw [hends]
      refine iff_of_false (Bool.not_eq_true _ ▸ hw) fun hmeets ↦ ?_
      obtain ⟨key, ts, hpair⟩ := hmeets.pair
      exact hne key ts hpair

/-- Reading a file wraps a cursor exactly if a broken config section is reached. -/
theorem parseFile_wrapped (fuel : ℕ) {device : ℤ} (h : Standing m.json json jsonlen 0 t)
    (hsize : jsonlen < 2 ^ 31) (hfuel : t.length < fuel) (hs : SocState device [] m.parser)
    (hw : m.wrapped = false) :
    (parseFile fuel json jsonlen m).2.wrapped = true ↔ FileMeetsBrokenConfig device t := by
  have htight := dropWhile_dropWhile_isspace t
  obtain ⟨w, hrun, hst⟩ : ∃ w, getWhitespaceLen json jsonlen m = (.ok w, m) ∧
      Standing m.json json jsonlen (0 + w) (t.dropWhile isspace) :=
    getWhitespaceLen_run h
  rw [Nat.zero_add] at hst
  have hbyte := (hst.seen htight).byte
  rw [parseFile, Prog.bind_ok hrun]
  by_cases hopen : firstByte (tokens (t.dropWhile isspace)) = 123
  · obtain ⟨r, hskip, -, hspace⟩ := cons_of_firstByte htight hopen (by decide) (by decide)
    obtain ⟨gap, hlex⟩ := lex_of_dropWhile hskip hspace (by decide)
    have hcount := length_lex_le t
    rw [hlex, List.length_cons] at hcount
    rw [hopen] at hbyte
    rw [hskip] at hst
    have hle := hst.cons.le
    rw [if_neg (by omega), Prog.bind_ok (byteAt_of_getElem? hbyte), if_neg (not_not_intro rfl),
      Prog.bind_ok (add_run (by omega) m)]
    refine (parseFileLoop_wrapped fuel hst.cons hsize (by omega) hs (not_mismatch_nil _) hw).trans
      ⟨fun hmeets ↦ ⟨gap, lex r, hlex, hmeets⟩, ?_⟩
    rintro ⟨gap', ls, hls, hmeets⟩
    cases hlex.symm.trans hls
    exact hmeets
  · rw [tokens_dropWhile] at hopen hbyte
    refine iff_of_false ?_ ?_
    · rw [Bool.not_eq_true]
      split_ifs
      · exact hw
      · rw [Prog.bind_ok (byteAt_of_getElem? hbyte), if_pos hopen]
        exact hw
    · rintro ⟨gap, ls, hls, -⟩
      exact hopen (by rw [tokens, hls]; rfl)

end

/-! ### Loads -/

theorem Journal.wrapped_iff (p : QshJsonParser) {c : Bytes} {fuel : ℕ} (hlt : c.length < 2 ^ 31)
    (hfuel : c.length < fuel) (stale : ℕ → Bytes) :
    (Journal.run fuel p c stale).2.state.wrapped = true ↔
      FileMeetsBrokenConfig p.mDeviceSocId c := by
  have hstart : Standing (Machine.start p.resetParserState c stale).json 0 c.length 0 c :=
    ⟨rfl, Nat.zero_add _, hlt.trans (by decide)⟩
  rw [← parseFile_wrapped fuel hstart hlt hfuel (socState_resetParserState p) rfl,
    ← Nat.mod_eq_of_lt hstart.lt, Journal.erase_run]

/-- **The cursors of a load are sound exactly if no broken config section is reached.** -/
theorem cursorsSound_iff (p : QshJsonParser) {c : Bytes} {fuel : ℕ} (hlt : c.length < 2 ^ 31)
    (hfuel : c.length < fuel) (stale : ℕ → Bytes) :
    CursorsSound ((Journal.run fuel p c stale).2.log.map Step.event) ↔
      ¬ FileMeetsBrokenConfig p.mDeviceSocId c := by
  obtain ⟨hkept, -⟩ := Journal.kept_run (fitsCursors_of_lt hlt) p stale
  rw [← Journal.wrapped_iff p hlt hfuel stale, Bool.not_eq_true]
  refine ⟨fun hsound ↦ ?_, hkept.sound⟩
  by_contra hw
  obtain ⟨s, hs, hover⟩ := hkept.overflow (Bool.of_not_eq_false hw)
  exact hsound.not_overflows _ (List.mem_map_of_mem hs) hover

theorem cursorsSound_slpiFileFor :
    CursorsSound
      ((Journal.run 1000 (.fresh 0) (slpiFileFor (str "5,0")) fun _ ↦ []).2.log.map
        Step.event) := by
  have hlen : (slpiFileFor (str "5,0")).length < 1000 := by decide +kernel
  have hlt : (slpiFileFor (str "5,0")).length < 2 ^ 31 := hlen.trans (by decide)
  refine (cursorsSound_iff (.fresh 0) hlt hlen _).2 fun hmeets ↦ ?_
  exact absurd ((Journal.wrapped_iff (.fresh 0) hlt hlen fun _ ↦ []).2 hmeets) (by decide +kernel)

/-- The cursor of `parseFile` wraps behind a config section that is an array. -/
theorem not_cursorsSound_backwardFile :
    ¬ CursorsSound
      ((Journal.run 100 (.fresh 0) backwardFile fun _ ↦ []).2.log.map Step.event) := by
  intro hsound
  refine hsound.not_overflows (.advance 10 4294967295) (by decide +kernel) ?_
  show 2 ^ 32 ≤ 10 + 4294967295
  decide

end SensingHub.Json
