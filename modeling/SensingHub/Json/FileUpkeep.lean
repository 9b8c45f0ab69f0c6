import SensingHub.Json.FileRefinement
import SensingHub.Json.Sections
import SensingHub.Json.Upkeep

/-!
# What reading a file in place keeps

The config sections, whose signed cursor asks for one bit less, and the loop over the top-level
members. The one operation that leaves 32 bits is the addition of the result -1 of `parseConfig`;
the cursor is then on the byte before the section, which is neither a quote nor a comma, and the
loop ends there.

Whether a config section is reached is a question about the text, so that the loop is followed here
together with the tokens it reads.
-/

namespace SensingHub.Json

open CLib (str isspace cString getlines)

namespace Journal

variable {file buf : Bytes} {α : Type} {q : α → Bytes → Prop}

/-! ### Config sections -/

section

variable {json jsonlen cidx : ℕ} (hlt : file.length < 2 ^ 31) (hn : json + jsonlen = file.length)

theorem does_pushSocIds (tokens : List Bytes) :
    Does file buf (Prog.quietly (pushSocIds tokens)) fun _ buf' ↦ buf' = buf := by
  refine does_quietly ?_
  rintro m rfl
  rw [pushSocIds_run]
  exact ⟨rfl, refl_of _ _, fun _ _ ↦ rfl⟩

theorem does_readSocIds {key : ℕ} {value : Option ℕ} (hkey : IsString file buf key)
    (hvalue : ∀ v, value = some v → IsString file buf v) :
    Does file buf (readSocIds key value) fun _ buf' ↦ buf' = buf := by
  cases value with
  | none => exact does_note_use hkey
  | some value =>
    refine (does_cStringAt hkey).bind ?_
    rintro _ buf - ⟨-, rfl⟩
    refine .ite (fun _ ↦ ?_) fun _ ↦ .pure rfl
    refine (does_cStringAt (hvalue value rfl)).bind ?_
    rintro ids _ - ⟨-, rfl⟩
    exact does_pushSocIds _

include hlt hn

theorem does_parseConfigItemLoop (fuel : ℕ) (hle : cidx ≤ jsonlen)
    (hclean : Clean file buf (json + cidx)) :
    Does file buf (parseConfigItemLoop fuel json jsonlen cidx) fun k buf' ↦
      k ≤ jsonlen ∧ Ready file buf' (json + k) := by
  induction fuel generalizing cidx buf with
  | zero => exact .stop _
  | succ fuel ih =>
    refine .ite (fun _ ↦ .pure ⟨hle, Or.inl hclean⟩) fun _ ↦ ?_
    refine (does_nextPair (by omega) hn hle hclean).bind ?_
    rintro ⟨k, len, key, value⟩ buf - ⟨-, hk, hpair⟩
    have hlen : len ≤ jsonlen - k := hpair.le
    rcases len with _ | len
    · exact .pure ⟨hk, hpair.ready rfl⟩
    · obtain ⟨key, rfl, hkey⟩ := hpair.key (Nat.succ_pos len)
      have hback := hpair.clean (Nat.succ_pos len)
      have hk' : json + k + (len + 1) = json + (k + (len + 1)) := Nat.add_assoc ..
      simp only [hk'] at hback
      refine (does_advance (n := len + 1) (by omega)).bind ?_
      rintro _ buf - ⟨rfl, rfl⟩
      refine (does_readSocIds hkey (hpair.value (Nat.succ_pos len))).bind ?_
      rintro _ _ - rfl
      refine (does_skipWhitespace (by omega) hn (by omega) (Or.inl hback)).bind ?_
      rintro k' _ - ⟨rfl, -, hk', hready, -⟩
      refine (does_byteAt (hready.untouched (by omega))).bind ?_
      rintro b _ - ⟨hb, rfl⟩
      refine .ite (fun _ ↦ .pure ⟨hk', hready⟩) fun hcomma ↦ ?_
      rw [not_not.1 hcomma] at hb
      have hbyte := (List.getElem?_eq_some_iff.1 (getElem?_of_ne_zero hb (by decide))).1
      refine (does_advance (by omega)).bind ?_
      rintro _ _ - ⟨rfl, rfl⟩
      exact ih (by omega) ((hready.clean hb (by decide)).mono (by omega))

theorem does_parseConfigItem (fuel : ℕ) (hclean : Clean file buf json) :
    Does file buf (parseConfigItem fuel json jsonlen) fun k buf' ↦
      k ≤ jsonlen ∧ Ready file buf' (json + k) := by
  refine does_call ((does_byteAt (hclean.untouched (by omega))).bind ?_)
  rintro b _ - ⟨hb, rfl⟩
  refine (does_note_advance (by omega)).bind ?_
  rintro _ _ - rfl
  refine .ite (fun _ ↦ .pure ⟨Nat.zero_le _, Or.inl hclean⟩) fun hopen ↦ ?_
  rw [not_not.1 hopen] at hb
  have hbyte := (List.getElem?_eq_some_iff.1 (getElem?_of_ne_zero hb (by decide))).1
  exact does_parseConfigItemLoop hlt hn fuel (by omega) (hclean.mono (Nat.le_succ json))

/-- Behind a config section that has been read the text is untouched. -/
theorem does_parseConfig (fuel : ℕ) (hclean : Clean file buf json) :
    Does file buf (parseConfig fuel json jsonlen) fun ret buf' ↦
      ret = -1 ∨ ∃ len : ℕ, ret = len ∧ len ≤ jsonlen ∧ Clean file buf' (json + len) := by
  refine does_call ((does_getWhitespaceLen (by omega) (Or.inl hclean)).bind ?_)
  rintro start _ - ⟨rfl, hstart, -, -⟩
  replace hclean := hclean.mono (Nat.le_add_right json start)
  refine (@does_advanceInt file _ 0 start (by omega)).bind ?_
  rintro _ _ - ⟨rfl, rfl⟩
  rw [Nat.zero_add]
  refine (does_pointer json start).bind ?_
  rintro _ _ - ⟨rfl, rfl⟩
  refine (does_byteAt (hclean.untouched (by omega))).bind ?_
  rintro b _ - ⟨-, rfl⟩
  refine .ite (fun _ ↦ .pure (Or.inl rfl)) fun _ ↦ (does_pointer json start).bind ?_
  rintro _ _ - ⟨rfl, rfl⟩
  rw [toUInt32_of_lt (by omega)]
  refine (does_remaining hstart (by omega)).bind ?_
  rintro _ _ - ⟨rfl, rfl⟩
  refine (does_parseConfigItem hlt (by omega) fuel hclean).bind ?_
  rintro len buf - ⟨hlen, hready⟩
  rw [Nat.add_assoc] at hready
  refine (does_advanceInt (by omega)).bind ?_
  rintro _ _ - ⟨rfl, rfl⟩
  refine (does_pointer json (start + len)).bind ?_
  rintro _ _ - ⟨rfl, rfl⟩
  rw [toUInt32_of_lt (by omega)]
  refine (does_remaining (by omega) (by omega)).bind ?_
  rintro _ _ - ⟨rfl, rfl⟩
  refine (does_getWhitespaceLen (by omega) hready).bind ?_
  rintro spaces _ - ⟨rfl, hspaces, hready, -⟩
  rw [Nat.add_assoc] at hready
  refine (does_advanceInt (by omega)).bind ?_
  rintro _ _ - ⟨rfl, rfl⟩
  refine (does_pointer json (start + len + spaces)).bind ?_
  rintro _ _ - ⟨rfl, rfl⟩
  refine (does_byteAt (hready.untouched (by omega))).bind ?_
  rintro b _ - ⟨hb, rfl⟩
  -- the byte behind the section is its closing bracket, or nothing is said of the cursor
  refine .ite (fun _ ↦ ?_) fun hclose ↦ ?_
  · rw [toUInt32_of_lt (by omega)]
    refine (does_note_advance (by omega)).bind ?_
    rintro _ _ - rfl
    exact .pure (Or.inl rfl)
  rw [not_not.1 hclose] at hb
  have hbyte := (List.getElem?_eq_some_iff.1 (getElem?_of_ne_zero hb (by decide))).1
  refine (does_advanceInt (by omega)).mono ?_
  rintro _ _ - ⟨rfl, rfl⟩
  exact Or.inr ⟨_, rfl, by omega, (hready.clean hb (by decide)).mono (by omega)⟩

end

/-! ### Files -/

/-- The result -1 of `parseConfig` moves the cursor back, out of 32 bits and in again. -/
theorem does_advance_neg_one {cidx : ℕ} (h : cidx + 1 < 2 ^ 32) :
    Does file buf (advance (cidx + 1) (toUInt32 (-1))) fun k buf' ↦ k = cidx ∧ buf' = buf := by
  rintro t ht rfl
  have hrun : advance (cidx + 1) (toUInt32 (-1)) t = (.ok cidx,
      ⟨{ t.state with wrapped := true },
        t.log ++ [⟨.advance (cidx + 1) (toUInt32 (-1)), t.state.json⟩]⟩) := by
    rw [advance, note, Prog.modify_bind_run, Prog.quietly, add_neg_one_run h]
  rw [hrun]
  refine ⟨⟨ht.buffer, ?_, fun h ↦ absurd h (by simp),
    fun _ ↦ ⟨_, List.mem_append_right _ (List.mem_singleton_self _), ?_⟩⟩, refl_of _ _, ?_⟩
  · intro s hs
    rcases List.mem_append.1 hs with hs | hs
    · exact ht.steps s hs
    · rw [List.mem_singleton.1 hs]
      exact ⟨ht.buffer, trivial⟩
  · show 2 ^ 32 ≤ cidx + 1 + 4294967295
    omega
  · rintro _ ⟨⟩
    exact ⟨rfl, rfl⟩

section

variable {json jsonlen cidx : ℕ} (hlt : file.length < 2 ^ 32) (hn : json + jsonlen = file.length)

include hlt hn

omit hlt hn in
/-- Where a round goes on, a comma is looked for at a byte that is as it was, and none is found
unless the text from there on is. -/
def RoundAt (file : Bytes) (json jsonlen : ℕ) (round : Round) (buf : Bytes) : Prop :=
  ∀ k, round = .read k → k ≤ jsonlen ∧ Untouched file buf (json + k) (json + k) ∧
    (file[json + k]? = some 44 → Clean file buf (json + k))

omit hlt in
theorem RoundAt.of_clean {k : ℕ} (hk : k ≤ jsonlen) (hclean : Clean file buf (json + k)) :
    RoundAt file json jsonlen (.read k) buf := by
  rintro _ ⟨⟩
  exact ⟨hk, hclean.untouched (by omega), fun _ ↦ hclean⟩

omit hlt hn in
/-- The search for the device's id behind a config section. -/
theorem does_matchSocId {k : ℕ} (h : RoundAt file json jsonlen (.read k) buf) :
    Does file buf (do
      Prog.quietly (Prog.modify fun m ↦ { m with parser := m.parser.matchSocId })
      if ← Prog.quietly (Prog.read fun m ↦ decide m.parser.Skips) then return Round.skipped
      return Round.read k) (RoundAt file json jsonlen) := by
  refine (does_modify (f := fun m ↦ { m with parser := m.parser.matchSocId }) (fun _ ↦ rfl)
    fun _ ↦ rfl).bind ?_
  rintro _ _ - rfl
  refine does_read.bind ?_
  rintro skips _ - rfl
  exact .ite (fun _ ↦ .pure (by rintro _ ⟨⟩)) fun _ ↦ .pure h

theorem does_parseMember (fuel : ℕ) {key : ℕ} (hkey : IsString file buf key)
    (hsize : cString (buf.drop key) = some (str "config") → file.length < 2 ^ 31) (hpos : 0 < cidx)
    (hle : cidx ≤ jsonlen) (hclean : Clean file buf (json + cidx))
    (hbefore : ∃ b, file[json + cidx - 1]? = some b ∧ b ≠ 34 ∧ b ≠ 44) :
    Does file buf (parseMember fuel key json jsonlen cidx) (RoundAt file json jsonlen) := by
  refine (does_cStringAt hkey).bind ?_
  rintro name _ - ⟨hname, rfl⟩
  refine .ite (fun hconfig ↦ ?_) fun _ ↦ ?_
  · rw [hconfig] at hname
    refine (does_remaining hle (by omega)).bind ?_
    rintro _ _ - ⟨rfl, rfl⟩
    refine (does_parseConfig (hsize hname) (by omega) fuel hclean).bind ?_
    rintro ret buf - hret
    refine .ite (fun _ ↦ .pure (by rintro _ ⟨⟩)) fun _ ↦ ?_
    rcases hret with rfl | ⟨len, rfl, hlen, hback⟩
    · -- the cursor is back on the byte before the section, which is neither a quote nor a comma
      obtain ⟨b, hb, hquote, hcomma⟩ := hbefore
      obtain ⟨k, rfl⟩ := Nat.exists_eq_succ_of_ne_zero hpos.ne'
      refine (does_advance_neg_one (by omega)).bind ?_
      rintro k buf - ⟨rfl, rfl⟩
      have hbyte : file[json + k]? = some b := hb
      refine does_of_buffer fun hbuffer ↦ does_matchSocId ?_
      rintro _ ⟨⟩
      refine ⟨by omega, ⟨by omega, fun i hi hi' ↦ ?_⟩, fun h ↦ ?_⟩
      · obtain rfl : json + k = i := le_antisymm hi hi'
        refine hbuffer.getElem? ?_
        rw [hbyte]
        exact fun h ↦ hquote (Option.some.inj h)
      · rw [hbyte] at h
        exact absurd (Option.some.inj h) hcomma
    · rw [toUInt32_of_lt (by omega)]
      refine (does_advance (by omega)).bind ?_
      rintro _ _ - ⟨rfl, rfl⟩
      rw [Nat.add_assoc] at hback
      exact does_matchSocId (.of_clean hn (by omega) hback)
  · -- any other key names a group
    refine (does_remaining hle (by omega)).bind ?_
    rintro _ _ - ⟨rfl, rfl⟩
    refine (does_parseGroup hlt fuel hkey (by omega) hclean).bind ?_
    rintro next buf hnulled hnext
    cases next with
    -- the key is read once more, for the message of the failure
    | none =>
      refine (does_note_use (hkey.mono hnulled)).bind ?_
      rintro _ _ - rfl
      exact .pure (by rintro _ ⟨⟩)
    | some len =>
      obtain ⟨hlen, -, hback⟩ := hnext len rfl
      refine (does_advance (by omega)).bind ?_
      rintro _ _ - ⟨rfl, rfl⟩
      rw [Nat.add_assoc] at hback
      exact .pure (.of_clean hn (by omega) hback)

omit hlt hn in
/-- The first byte of a text that stands in the buffer. -/
theorem cons_of_getElem? {b : UInt8} {t : Bytes} (hst : Standing buf json jsonlen cidx t)
    (hbyte : buf[json + cidx]? = some b) (hnul : b ≠ 0) : ∃ r, t = b :: r := by
  rw [hst.text.getElem?] at hbyte
  rcases t with _ | ⟨b', r⟩
  · exact absurd (Option.some.inj hbyte).symm hnul
  · exact ⟨r, by rw [← Option.some.inj hbyte]; rfl⟩

omit hlt hn in
/-- Behind a member with a comma the text goes on, in the buffer and in what is left of the
tokens. -/
theorem standing_of_round {m m' : Machine} {k : ℕ} {t : Bytes}
    {f : Option (Except Format.FileEnd (List Token) × Progress)}
    (hrun : FileMemberRun m json jsonlen cidx t (.ok (.read k), m') f)
    (hcomma : m'.json[json + k]? = some 44) :
    ∃ r s, f = some (.ok (tokens (44 :: r)), s) ∧ Standing m'.json json jsonlen (k + 1) r ∧
      Past t (44 :: r) := by
  rcases f with _ | ⟨(_ | _ | _ | _ | e) | rest, s⟩
  · cases hrun
  · cases hrun.1
  · cases hrun.1
  · obtain ⟨k', b, hret, -, hbyte, hne⟩ := hrun
    cases hret
    rw [hcomma] at hbyte
    exact absurd (Option.some.inj hbyte).symm hne
  · exact hrun.elim
  · cases hrun.1
  · obtain ⟨json', k', r, hx, -, hst, rfl, hpast⟩ := hrun
    cases hx
    obtain ⟨r, rfl⟩ := cons_of_getElem? hst hcomma (by decide)
    exact ⟨r, s, rfl, hst.cons, hpast⟩

omit hlt hn in
/-- The keys of the members behind a comma are among those of the file. -/
theorem memberKeys_of_comma {stale : ℕ → Bytes} {fuel : ℕ} {key t t' r : Bytes} {s s' : Progress}
    (hpair : Format.pair (tokens t) = some ⟨key, none, tokens t'⟩) (hreach : Reaches t t')
    (hmember : Format.fileMember stale fuel key (tokens t') s = some (.ok (tokens (44 :: r)), s'))
    (hpast : Past t' (44 :: r)) (hconfig : key ≠ str "config")
    (hmem : str "config" ∈ Format.memberKeys fuel (lex r)) :
    str "config" ∈ Format.memberKeys (fuel + 1) (lex t) := by
  obtain ⟨calls, hgroup⟩ := group_of_fileMember hconfig hmember
  have hlex : lex (44 :: r) = ⟨false, .byte 44⟩ :: lex r := lex_byte (by decide) (by decide) r
  rw [Format.memberKeys, show (lex t).map Lexeme.token = tokens t from rfl, hpair]
  simp only [if_neg hconfig, hgroup, (hreach _ hpast).lex_eq, hlex, Format.fileNext]
  exact List.mem_cons_of_mem _ hmem

theorem does_parseFileLoop (fuel : ℕ) {t : Bytes} (hst : Standing buf json jsonlen cidx t)
    (hpos : 0 < cidx) (hclean : Clean file buf (json + cidx))
    (hsize : str "config" ∈ Format.memberKeys fuel (lex t) → file.length < 2 ^ 31) :
    Does file buf (parseFileLoop fuel json jsonlen cidx) fun _ _ ↦ True := by
  induction fuel generalizing buf cidx t with
  | zero => exact .stop _
  | succ fuel ih =>
    refine (does_with_run (erases_nextPair json jsonlen cidx)
      (does_nextPair hlt hn hst.le hclean)).bind ?_
    rintro ⟨k, len, keyAt, valueAt⟩ buf' - ⟨⟨hle, hk, hpairAt⟩, m, m', rfl, hrun, rfl⟩
    have hlen : len ≤ jsonlen - k := hpairAt.le
    rcases len with _ | len <;> rcases keyAt with _ | keyAt <;> rcases valueAt with _ | valueAt
    case succ.some.none =>
      -- the pair that has been found is the one at the start of the tokens
      have hnext := nextPair_run hst
      rw [hrun] at hnext
      rcases hpair : Format.pair (tokens t) with _ | ⟨key, value, rest⟩
      · rw [hpair] at hnext
        obtain ⟨json', k', key, value, hx, -⟩ := hnext
        cases hx
      rw [hpair] at hnext
      obtain ⟨json', k', len', keyAt', valueAt', r, hx, -, -, hst', htight, rfl, hreach, hkey,
        hvalue, hbyte⟩ := hnext
      cases hx
      cases hvalue
      have hback := hpairAt.clean (Nat.succ_pos len)
      obtain ⟨b, hb, hquote, hcomma⟩ := hpairAt.before (Nat.succ_pos len) rfl
      have hk' : json + k + (len + 1) = json + (k + (len + 1)) := Nat.add_assoc ..
      simp only [hk'] at hback hb
      have hsize' (hconfig : key = str "config") : file.length < 2 ^ 31 := by
        refine hsize ?_
        rw [Format.memberKeys, show (lex t).map Lexeme.token = tokens t from rfl, hpair]
        simp only [hconfig, if_true, List.mem_singleton]
      refine (does_advance (n := len + 1) (by omega)).bind ?_
      rintro _ _ - ⟨rfl, rfl⟩
      refine (does_with_run (erases_parseMember fuel keyAt json jsonlen _)
        (does_parseMember hlt hn fuel (hpairAt.isString (Nat.succ_pos len) rfl) ?_ (by omega)
          hst'.le hback ⟨b, hb, hquote, hcomma⟩)).bind ?_
      · intro hconfig
        rw [hkey.eq_append, CLib.cString_append hkey.nul_notMem] at hconfig
        exact hsize' (Option.some.inj hconfig)
      rintro round buf'' - ⟨hround, m₁, m₁', hm₁, hrun₁, rfl⟩
      cases round with
      | failed => exact .pure trivial
      | skipped => exact .pure trivial
      | read k' =>
        obtain ⟨hk', hbyte', hclean'⟩ := hround k' rfl
        refine (does_commaWithin hlt hn hk' hbyte').bind ?_
        rintro ⟨more, k''⟩ _ - ⟨rfl, hat⟩
        refine .ite (fun h ↦ ?_) fun _ ↦ .pure trivial
        obtain ⟨hcomma', rfl⟩ := hat.more h
        have hbyte₁ : m₁'.json[json + k']? = some 44 := by
          rw [hbyte'.2 _ le_rfl le_rfl,
            List.getElem?_append_left (List.getElem?_eq_some_iff.1 hcomma').1, hcomma']
        have hmember : FileMemberRun m₁ json jsonlen (k + (len + 1)) r
            (Json.parseMember fuel keyAt json jsonlen (k + (len + 1)) m₁)
            (Format.fileMember m₁.stale fuel key (tokens r) ⟨m₁.parser, m₁.items⟩) :=
          parseMember_run fuel (by rw [hm₁]; exact hkey) (by rw [hm₁]; exact hst') htight
            (by rw [hm₁]; exact hbyte rfl) (fun hconfig ↦ by have := hsize' hconfig; omega)
        rw [hrun₁] at hmember
        obtain ⟨r', s, hf, hst'', hpast⟩ := standing_of_round hmember hbyte₁
        refine ih hst'' (Nat.succ_pos k') ((hclean' hcomma').mono (by omega)) fun hmem ↦ ?_
        by_cases hconfig : key = str "config"
        · exact hsize' hconfig
        · exact hsize (memberKeys_of_comma hpair hreach hf hpast hconfig hmem)
    all_goals exact .pure trivial

/-- **Reading a file keeps the invariant.** -/
theorem does_parseFile (fuel : ℕ) {t : Bytes} (hst : Standing buf json jsonlen 0 t)
    (hclean : Clean file buf json)
    (hsize : str "config" ∈ Format.fileKeys fuel (lex t) → file.length < 2 ^ 31) :
    Does file buf (parseFile fuel json jsonlen) fun _ _ ↦ True := by
  refine does_call ((does_with_run (erases_getWhitespaceLen json jsonlen)
    (does_getWhitespaceLen (by omega) (Or.inl hclean))).bind ?_)
  rintro k _ - ⟨⟨rfl, hk, -, -⟩, m, m', rfl, hrun, -⟩
  have hclean' := hclean.mono (Nat.le_add_right json k)
  refine (does_note_advance (by omega)).bind ?_
  rintro _ _ - rfl
  refine .ite (fun _ ↦ .pure trivial) fun _ ↦ ?_
  refine (does_byteAt (hclean'.untouched (by omega))).bind ?_
  rintro b _ - ⟨hb, rfl⟩
  refine .ite (fun _ ↦ ?_) fun hopen ↦ ?_
  · refine (does_note_advance (by omega)).bind ?_
    rintro _ _ - rfl
    exact .pure trivial
  rw [not_not.1 hopen] at hb
  replace hb := getElem?_of_ne_zero hb (by decide)
  have hlt' := (List.getElem?_eq_some_iff.1 hb).1
  obtain ⟨w, hrun', hst'⟩ : ∃ w, Json.getWhitespaceLen json jsonlen m = (.ok w, m) ∧
      Standing m.json json jsonlen (0 + w) (t.dropWhile isspace) := getWhitespaceLen_run hst
  rw [hrun] at hrun'
  obtain rfl : k = w := Except.ok.inj (congrArg Prod.fst hrun')
  rw [Nat.zero_add] at hst'
  obtain ⟨r, hskip⟩ := cons_of_getElem? hst' (b := 123) (by
    rw [hclean' _ le_rfl, List.getElem?_append_left hlt', hb]) (by decide)
  obtain ⟨gap, hlex⟩ := lex_of_dropWhile hskip (by decide) (by decide)
  rw [hlex] at hsize
  rw [hskip] at hst'
  refine (does_advance (by omega)).bind ?_
  rintro _ _ - ⟨rfl, rfl⟩
  exact does_parseFileLoop hlt hn fuel hst'.cons (Nat.succ_pos k) (hclean'.mono (by omega)) hsize

end

/-! ### Loads -/

/-- The parser on the buffer that `loadFile` has filled. -/
def run (fuel : ℕ) (p : QshJsonParser) (fileContent : Bytes) (stale : ℕ → Bytes) :
    Except Stop (ℤ × ℕ) × Journaled :=
  parseFile fuel 0 (fileContent.length % 2 ^ 32)
    ⟨Machine.start p.resetParserState fileContent stale, []⟩

/-- Without the journal it is the run that `loadFile` makes. -/
theorem erase_run (fuel : ℕ) (p : QshJsonParser) (file : Bytes) (stale : ℕ → Bytes) :
    Json.parseFile fuel 0 (file.length % 2 ^ 32) (Machine.start p.resetParserState file stale) =
      ((run fuel p file stale).1, (run fuel p file stale).2.state) :=
  erases_parseFile fuel 0 _ ⟨Machine.start p.resetParserState file stale, []⟩

theorem kept_start (p : QshJsonParser) (file : Bytes) (stale : ℕ → Bytes) :
    Kept file ⟨Machine.start p file stale, []⟩ :=
  ⟨refl_of _ _, fun _ hs ↦ (List.not_mem_nil hs).elim, fun _ ↦ .nil, fun h ↦ by cases h⟩

/-- **A load keeps the invariant.** -/
theorem kept_run {fuel : ℕ} (hfits : FitsCursors fuel file) (p : QshJsonParser)
    (stale : ℕ → Bytes) : Kept file (run fuel p file stale).2 ∧
      Nulled file (file ++ [0]) (run fuel p file stale).2.state.json := by
  have hstart : Standing (file ++ [0]) 0 file.length 0 file := ⟨rfl, Nat.zero_add _, hfits.1⟩
  have hclean : Clean file (file ++ [0]) 0 := fun _ _ ↦ rfl
  have hdoes := does_parseFile hfits.1 (Nat.zero_add _) fuel hstart hclean hfits.2
  rw [run, Nat.mod_eq_of_lt hfits.1]
  obtain ⟨hkept, hnulled, -⟩ := hdoes _ (kept_start p.resetParserState file stale) rfl
  exact ⟨hkept, hnulled⟩

end Journal

end SensingHub.Json
