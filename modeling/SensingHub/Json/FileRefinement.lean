import SensingHub.Json.Refinement

/-!
# Reading a file in place

The config sections and the loop over the top-level members. A config section that fails returns -1,
which the loop of `parseFile` adds to its cursor: the byte it then tests for a comma is the colon or
white space before the section, and the loop ends.

The cursor of `parseConfig` is an `int32_t`. So texts of up to `2 ^ 31` bytes are read as their
tokens are, and longer ones, up to the range of the other cursors, if they have no config section.
-/

namespace SensingHub.Json

open CLib (str isspace StoiError stoi getlines)

variable {m : Machine} {json jsonlen cidx : ℕ} {t : Bytes}

/-- The stop that an exception of `stoi` is. -/
def Stop.ofStoi : StoiError → Stop
  | .invalidArgument => .invalidArgument
  | .outOfRange => .outOfRange

/-! ### Config sections -/

/-- The machine with another buffer and more ids listed. -/
def Machine.withIds (m : Machine) (json' : Bytes) (ids : List ℤ) : Machine :=
  { m with
    json := json'
    parser := { m.parser with mJsonSocIdList := m.parser.mJsonSocIdList ++ ids } }

theorem Machine.withIds_nil (m : Machine) (json' : Bytes) :
    m.withIds json' [] = { m with json := json' } := by
  simp [Machine.withIds]

theorem Machine.withIds_withIds (m : Machine) (json' json'' : Bytes) (ids ids' : List ℤ) :
    (m.withIds json' ids).withIds json'' ids' = m.withIds json'' (ids ++ ids') := by
  simp [Machine.withIds]

/-- The ids are listed up to the token that is none. -/
theorem pushSocIds_run (tokens : List Bytes) :
    pushSocIds tokens m =
      (match (Format.socIds tokens).2 with
        | none => .ok ()
        | some e => .error (.ofStoi e),
        m.withIds m.json (Format.socIds tokens).1) := by
  induction tokens generalizing m with
  | nil => simp [pushSocIds, Format.socIds, Machine.withIds_nil]
  | cons token tokens ih =>
    rw [pushSocIds, Format.socIds]
    rcases stoi token with (_ | _) | socId
    · simp [Machine.withIds_nil, Stop.ofStoi]
    · simp [Machine.withIds_nil, Stop.ofStoi]
    · simp only
      rw [Prog.modify_bind_run, ih]
      refine Prod.ext rfl ?_
      simp [Machine.withIds]

/-- The ids in a member of a config section. -/
theorem readSocIds_run {bound keyAt : ℕ} {key : Bytes} {valueAt : Option ℕ} {value : Option Bytes}
    (hkey : CStr m.json bound keyAt key) (hvalue : Option.Rel (CStr m.json bound) valueAt value) :
    readSocIds keyAt valueAt m =
      (match (Format.memberIds key value).2 with
        | none => .ok ()
        | some e => .error (.ofStoi e),
        m.withIds m.json (Format.memberIds key value).1) := by
  cases hvalue with
  | none => simp [readSocIds, Format.memberIds, Machine.withIds_nil]
  | some hvalue =>
    rw [readSocIds, Prog.bind_ok (cStringAt_run hkey), Format.memberIds]
    split_ifs
    · rw [Prog.bind_ok (cStringAt_run hvalue), pushSocIds_run]
    · simp [Machine.withIds_nil]

/-- What `parseConfigItem` does when the section is read as `r` from the tokens of `t`. -/
def ConfigItemRun (m : Machine) (json jsonlen cidx : ℕ) (t : Bytes)
    (x : Except Stop ℕ × Machine) : Option Format.ConfigItemRead → Prop
  | none => x.1 = .error .outOfFuel
  | some ⟨ids, .error e⟩ => ∃ json', x = (.error (.ofStoi e), m.withIds json' ids)
  | some ⟨ids, .ok rest⟩ =>
    ∃ json' c r, x = (.ok c, m.withIds json' ids) ∧ cidx ≤ c ∧
      SameBelow (json + cidx) m.json json' ∧ tokens r = rest ∧ Behind json' json jsonlen c r ∧
      Reaches t r

theorem ConfigItemRun.of_withIds {m' : Machine} {json' t r : Bytes} {c : ℕ} {ids : List ℤ}
    {x : Except Stop ℕ × Machine} {i : Option Format.ConfigItemRead}
    (hm : m' = m.withIds json' ids) (hsame : SameBelow (json + cidx) m.json json') (hle : cidx ≤ c)
    (hreach : Reaches t r) (h : ConfigItemRun m' json jsonlen c r x i) :
    ConfigItemRun m json jsonlen cidx t x (i.map fun i ↦ ⟨ids ++ i.ids, i.rest⟩) := by
  subst hm
  rcases i with _ | ⟨ids', _ | rest⟩
  · exact h
  · obtain ⟨json'', hx⟩ := h
    rw [Machine.withIds_withIds] at hx
    exact ⟨json'', hx⟩
  · obtain ⟨json'', c', r', hx, hle', hs, htokens, hbehind, hr'⟩ := h
    rw [Machine.withIds_withIds] at hx
    exact ⟨json'', c', r', hx, hle.trans hle', hsame.trans (hs.mono (Nat.add_le_add_left hle json)),
      htokens, hbehind, hreach.trans hr'⟩

/-- The loop of `parseConfigItem`. -/
theorem parseConfigItemLoop_run (fuel : ℕ) (h : Standing m.json json jsonlen cidx t)
    (hpos : 0 < cidx) :
    ConfigItemRun m json jsonlen cidx t (parseConfigItemLoop fuel json jsonlen cidx m)
      (Format.configLoop fuel (tokens t)) := by
  induction fuel generalizing m cidx t with
  | zero => rfl
  | succ fuel ih =>
    have hlt := h.lt
    rw [parseConfigItemLoop, Format.configLoop]
    by_cases hend : jsonlen ≤ cidx
    · obtain rfl : t = [] := List.eq_nil_of_length_eq_zero (by have := h.length; omega)
      rw [if_pos hend]
      exact ⟨m.json, cidx, [], by rw [Machine.withIds_nil]; rfl, le_rfl, SameBelow.refl _ _, rfl,
        Or.inl h, Reaches.refl []⟩
    · rw [if_neg hend]
      have hnext := nextPair_run h
      rcases hpair : Format.pair (tokens t) with _ | ⟨key, value, rest⟩
      · rw [hpair] at hnext
        obtain ⟨json', c, key, value, hx, hle, hsame, hseen⟩ := hnext
        rw [Prog.bind_ok hx]
        exact ⟨json', c, t.dropWhile isspace, by rw [Machine.withIds_nil]; rfl, hle, hsame,
          tokens_dropWhile t, Or.inr hseen, reaches_dropWhile t⟩
      · rw [hpair] at hnext
        obtain ⟨json', c, len, keyAt, valueAt, r, hx, hle, hsame, hst, htight, htokens, hreach,
          hkey, hvalue, -⟩ := hnext
        obtain rfl : tokens r = rest := htokens
        have hlen := hst.le
        have hids := readSocIds_run (m := { m with json := json' }) hkey hvalue
        rw [Prog.bind_ok hx]
        simp only
        rw [Prog.bind_ok (add_run (by omega) _)]
        rcases hmember : Format.memberIds key value with ⟨ids, _ | e⟩
        · rw [hmember] at hids
          simp only at hids ⊢
          rw [Prog.bind_ok hids]
          -- the ids are listed; the rest of the round leaves them alone
          have hwith : ({ m with json := json' } : Machine).withIds json' ids =
              m.withIds json' ids := rfl
          rw [hwith]
          obtain ⟨c', hskip, hle', hseen⟩ :=
            skipWhitespace_run_of_behind (m := m.withIds json' ids) (Or.inl hst)
          rw [htight] at hseen
          have hlen' := hseen.le
          rw [Prog.bind_ok hskip, Prog.bind_ok (byteAt_of_getElem? hseen.byte)]
          by_cases hcomma : firstByte (tokens r) = 44
          · obtain ⟨-, r', htokens, hpast, hst'⟩ := commaAt_run hseen (by omega) hcomma
            have hlen'' := hst'.le
            rw [if_neg (not_not_intro hcomma), Prog.bind_ok (add_run (by omega) _), htokens]
            exact (ih hst' (Nat.succ_pos _)).of_withIds rfl hsame (by omega)
              (hreach.trans hpast.reaches)
          · rw [if_pos hcomma]
            split
            · next heq => rw [heq] at hcomma; exact absurd rfl hcomma
            · exact ⟨json', c', r, rfl, by omega, hsame, rfl, Or.inr hseen, hreach⟩
        · rw [hmember] at hids
          simp only at hids ⊢
          rw [Prog.bind_error hids]
          exact ⟨json', rfl⟩

/-- What `parseConfig` does when the section is read as `r` from the tokens of `t`. -/
def ConfigRun (m : Machine) (json jsonlen : ℕ) (t : Bytes) (x : Except Stop ℤ × Machine) :
    Option Format.ConfigRead → Prop
  | none => x.1 = .error .outOfFuel
  | some ⟨ids, .threw e⟩ => ∃ json', x = (.error (.ofStoi e), m.withIds json' ids)
  | some ⟨ids, .failed⟩ =>
    ∃ json', x = (.ok (-1), m.withIds json' ids) ∧ SameBelow json m.json json'
  | some ⟨ids, .read rest⟩ =>
    ∃ json' len r, x = (.ok ((len + 1 : ℕ) : ℤ), m.withIds json' ids) ∧
      SameBelow json m.json json' ∧ tokens r = rest ∧ Standing json' json jsonlen (len + 1) r ∧
      Past t r

/-- `parseConfig` -/
theorem parseConfig_run (fuel : ℕ) (h : Standing m.json json jsonlen 0 t) (hlt : jsonlen < 2 ^ 31)
    (ht : t.dropWhile isspace = t) :
    ConfigRun m json jsonlen t (parseConfig fuel json jsonlen m)
      (Format.config fuel (tokens t)) := by
  -- the text begins with no whitespace, so both prologues read its first byte
  have hws : getWhitespaceLen json jsonlen m = (.ok 0, m) := by
    obtain ⟨w, hrun, hst⟩ := getWhitespaceLen_run h
    rw [ht] at hst
    have hlen := h.length
    have hlen' := hst.length
    obtain rfl : w = 0 := by omega
    exact hrun
  have hbyte : byteAt json m = (.ok (firstByte (tokens t)), m) := by
    rw [← headD_of_tight ht]
    exact byteAt_run h.text
  have hpointer : pointer json (0 : ℕ) m = (.ok json, m) := pointer_run json 0 m
  rw [parseConfig, Prog.bind_ok hws, Prog.bind_ok (addInt_run (c := 0) rfl (by omega) m),
    Prog.bind_ok hpointer, Prog.bind_ok hbyte]
  by_cases hopen : firstByte (tokens t) = 123
  · obtain ⟨r, rfl, htokens, hspace⟩ := cons_of_firstByte ht hopen (by decide) (by decide)
    have hpast := Past.byte hspace (by decide) r
    have hitem : ConfigItemRun m json jsonlen 1 r (parseConfigItem fuel json jsonlen m)
        (Format.configLoop fuel (tokens r)) := by
      rw [parseConfigItem, Prog.bind_ok hbyte, if_neg (not_not_intro hopen)]
      exact parseConfigItemLoop_run fuel h.cons Nat.one_pos
    rw [if_neg (not_not_intro hopen), Prog.bind_ok hpointer,
      toUInt32_of_lt (Nat.two_pow_pos 32), Prog.bind_ok (sub_run (Nat.zero_le _) h.lt m), htokens,
      Format.config]
    rcases hread : Format.configLoop fuel (tokens r) with _ | ⟨ids, e | rest⟩
    · rw [hread] at hitem
      exact Prog.bind_fst_error hitem
    · rw [hread] at hitem
      obtain ⟨json', hx⟩ := hitem
      exact ⟨json', Prog.bind_error hx⟩
    · rw [hread] at hitem
      obtain ⟨json', c, r', hx, hle, hsame, rfl, hbehind, hreach⟩ := hitem
      have hlen := hbehind.le
      obtain ⟨w, hrun, hseen⟩ :=
        getWhitespaceLen_run_of_behind (m := m.withIds json' ids) hbehind
      have hlen' := hseen.le
      have hsame' := hsame.mono (Nat.le_succ json)
      have hbyte' := byteAt_of_getElem? (m := m.withIds json' ids) hseen.byte
      rw [tokens_dropWhile] at hbyte'
      rw [Nat.sub_zero]
      rw [Prog.bind_ok hx, Prog.bind_ok (addInt_run (c := c) (by omega) (by omega) _),
        Prog.bind_ok (pointer_run json c _),
        toUInt32_of_lt (by omega), Prog.bind_ok (sub_run hlen h.lt _), Prog.bind_ok hrun,
        Prog.bind_ok (addInt_run (c := c + w) (by omega) (by omega) _),
        Prog.bind_ok (pointer_run json (c + w) _), Prog.bind_ok hbyte']
      -- what stands behind the last member is read again by `parseConfig`
      by_cases hbracket : firstByte (tokens r') = 125
      · rw [← tokens_dropWhile] at hbracket
        obtain ⟨-, r'', htokens', hpast', hst⟩ := closingBracket_run hseen hbracket
        have hlen'' := hst.le
        rw [tokens_dropWhile] at hbracket htokens'
        rw [if_neg (not_not_intro hbracket), htokens']
        refine ⟨json', c + w, r'', addInt_run (by omega) (by omega) _, hsame', rfl, hst, ?_⟩
        exact hpast.trans (hreach _ (reaches_dropWhile r' _ hpast'))
      · rw [if_pos hbracket]
        simp only [Option.map_some, Format.configEnd]
        split
        · next heq => cases heq
        · next heq => rw [Except.ok.inj heq] at hbracket; exact absurd rfl hbracket
        · exact ⟨json', rfl, hsame'⟩
  · rw [if_pos hopen]
    unfold Format.config
    split
    · next heq => rw [heq] at hopen; exact absurd rfl hopen
    · exact ⟨m.json, by rw [Machine.withIds_nil]; rfl, SameBelow.refl _ _⟩

/-! ### Top-level members -/

/-- The machine with another buffer and what has been read of the file. -/
def Machine.reading (m : Machine) (json' : Bytes) (s : Progress) : Machine :=
  { m with json := json', parser := s.parser, items := s.items }

/-- What reading a top-level member does when it is read as `r` from the tokens of `t`. -/
def FileMemberRun (m : Machine) (json jsonlen cidx : ℕ) (t : Bytes)
    (x : Except Stop Round × Machine) :
    Option (Except Format.FileEnd (List Token) × Progress) → Prop
  | none => x.1 = .error .outOfFuel
  | some (.error .failed, s) => x.1 = .ok .failed ∧ x.2.parser = s.parser
  | some (.error .skipped, s) => x.1 = .ok .skipped ∧ x.2.parser = s.parser
  | some (.error .brokenConfig, s) =>
    ∃ c b, x.1 = .ok (.read c) ∧ x.2.parser = s.parser ∧ x.2.json[json + c]? = some b ∧ b ≠ 44
  | some (.error (.threw e), s) => x.1 = .error (.ofStoi e) ∧ x.2.parser = s.parser
  | some (.error (.ended _), _) => False
  | some (.ok rest, s) =>
    ∃ json' c r, x = (.ok (.read c), m.reading json' s) ∧ cidx ≤ c ∧
      Standing json' json jsonlen c r ∧ tokens r = rest ∧ Past t r

/-- A top-level member. -/
theorem parseMember_run (fuel : ℕ) {keyAt : ℕ} {key : Bytes}
    (hkey : CStr m.json (json + (cidx + 1)) keyAt key)
    (h : Standing m.json json jsonlen (cidx + 1) t) (ht : t.dropWhile isspace = t)
    (hbefore : ∃ b, m.json[json + cidx]? = some b ∧ b ≠ 44)
    (hsize : key = str "config" → jsonlen < 2 ^ 31) :
    FileMemberRun m json jsonlen (cidx + 1) t (parseMember fuel keyAt json jsonlen (cidx + 1) m)
      (Format.fileMember m.stale fuel key (tokens t) ⟨m.parser, m.items⟩) := by
  have hlt := h.lt
  have hlen := h.le
  rw [parseMember, Prog.bind_ok (cStringAt_run hkey), Format.fileMember]
  by_cases hconfig : key = str "config"
  · -- a config section: its ids are compared with the device even when it has failed
    have hrun := parseConfig_run fuel h.call (by have := hsize hconfig; omega) ht
    rw [if_pos hconfig, if_pos hconfig, Prog.bind_ok (sub_run hlen hlt m)]
    rcases hread : Format.config fuel (tokens t) with _ | ⟨ids, rest | _ | e⟩
    · rw [hread] at hrun
      exact Prog.bind_fst_error hrun
    · rw [hread] at hrun
      obtain ⟨json', len, r, hx, hsame, htokens, hst, hpast⟩ := hrun
      have hback := hst.return hlen hlt
      have hle := hback.le
      rw [Prog.bind_ok hx, if_neg (by omega), toUInt32_of_lt (by omega),
        Prog.bind_ok (add_run (by omega) _), Prog.modify_bind_run, Prog.read_bind_run]
      simp only [Option.map_some, decide_eq_true_eq]
      by_cases hskip : ((Progress.mk m.parser m.items).addIds ids).matchSocId.parser.Skips
      · rw [if_pos hskip, if_pos (by exact hskip)]
        exact ⟨rfl, rfl⟩
      · rw [if_neg hskip, if_neg (by exact hskip)]
        exact ⟨json', _, r, rfl, by omega, hback, htokens, hpast⟩
    · rw [hread] at hrun
      obtain ⟨json', hx, hsame⟩ := hrun
      rw [Prog.bind_ok hx, if_neg (by decide), Prog.bind_ok (add_neg_one_run (by omega) _),
        Prog.modify_bind_run, Prog.read_bind_run]
      simp only [Option.map_some, decide_eq_true_eq]
      by_cases hskip : ((Progress.mk m.parser m.items).addIds ids).matchSocId.parser.Skips
      · rw [if_pos hskip, if_pos (by exact hskip)]
        exact ⟨rfl, rfl⟩
      · -- the cursor is back on the byte before the value, where no comma stands
        obtain ⟨b, hb, hne⟩ := hbefore
        have hb' : json'[json + cidx]? = some b := by
          have htake := congrArg (fun l : Bytes ↦ l[json + cidx]?) hsame
          simp only [List.getElem?_take_of_lt (show json + cidx < json + (cidx + 1) by omega)]
            at htake
          rw [htake, hb]
        rw [if_neg hskip, if_neg (by exact hskip)]
        exact ⟨cidx, b, rfl, rfl, hb', hne⟩
    · rw [hread] at hrun
      obtain ⟨json', hx⟩ := hrun
      rw [Prog.bind_error hx]
      exact ⟨rfl, rfl⟩
  · -- any other key names a group
    have hgroup := parseGroup_run fuel (hkey.mono le_rfl) h.call ht
    rw [if_neg hconfig, if_neg hconfig, Prog.bind_ok (sub_run hlen hlt m)]
    rcases hread : Format.group fuel key (tokens t) with _ | ⟨calls, _ | rest⟩
    · rw [hread] at hgroup
      exact Prog.bind_fst_error hgroup
    · rw [hread] at hgroup
      obtain ⟨json', hx⟩ := hgroup
      rw [Prog.bind_ok hx]
      exact ⟨rfl, rfl⟩
    · rw [hread] at hgroup
      obtain ⟨json', len, r, hx, hsame, htokens, hst, hpast⟩ := hgroup
      have hback := hst.return hlen hlt
      have hle := hback.le
      rw [Prog.bind_ok hx]
      simp only
      rw [Prog.bind_ok (add_run (by omega) _)]
      exact ⟨json', _, r, rfl, by omega, hback, htokens, hpast⟩

/-! ### Files -/

/-- A comma is the first lexeme of a text without a gap when it is the first byte. -/
theorem lex_eq_comma {ls : List Lexeme} (h : lex t = ⟨false, .byte 44⟩ :: ls) :
    ∃ r, t = 44 :: r ∧ lex r = ls := by
  rcases t with _ | ⟨b, r⟩
  · cases h
  · by_cases hspace : isspace b = true
    · rw [lex_space hspace] at h
      rcases hr : lex r with _ | ⟨l, ls'⟩ <;> rw [hr] at h <;> cases h
    · by_cases hquote : b = 34
      · subst hquote
        rw [lex_quote] at h
        split at h <;> cases h
      · rw [lex_byte (eq_false_of_ne_true hspace) hquote] at h
        cases h
        exact ⟨r, rfl, rfl⟩

/-- What the loop of `parseFile` does when the file is read as `r` from the lexemes of `t`. Where
the loop ends without an error the cursor stands before what is left of the text. -/
def FileRun (jsonlen : ℕ) (t : Bytes) (x : Except Stop (ℤ × ℕ) × Machine) :
    Option (Format.FileEnd × Progress) → Prop
  | none => x.1 = .error .outOfFuel
  | some (.failed, s) => (∃ c, x.1 = .ok (-1, c)) ∧ x.2.parser = s.parser
  | some (.skipped, s) => (∃ c, x.1 = .ok (0, c)) ∧ x.2.parser = s.parser
  | some (.brokenConfig, s) => (∃ c, x.1 = .ok (0, c)) ∧ x.2.parser = s.parser
  | some (.ended ls, s) =>
    (∃ c r, x.1 = .ok (0, c) ∧ c + r.length = jsonlen ∧ r <:+ t ∧ lex r = ls) ∧
      x.2.parser = s.parser
  | some (.threw e, s) => x.1 = .error (.ofStoi e) ∧ x.2.parser = s.parser

theorem FileRun.of_suffix {r : Bytes} {x : Except Stop (ℤ × ℕ) × Machine}
    {f : Option (Format.FileEnd × Progress)} (hr : r <:+ t) (h : FileRun jsonlen r x f) :
    FileRun jsonlen t x f := by
  rcases f with _ | ⟨_ | _ | _ | ls | e, s⟩
  · exact h
  · exact h
  · exact h
  · exact h
  · obtain ⟨⟨c, r', hx, hlen, hr', hls⟩, hs⟩ := h
    exact ⟨⟨c, r', hx, hlen, hr'.trans hr, hls⟩, hs⟩
  · exact h

/-- A comma that follows a member directly. -/
theorem commaWithin_run (h : Standing m.json json jsonlen cidx (44 :: t)) (hpos : 0 < cidx) :
    commaWithin json jsonlen cidx m = (.ok (true, cidx + 1), m) := by
  have hlt := h.lt
  have hlen := h.length
  simp only [List.length_cons] at hlen
  rw [commaWithin, if_pos (by omega), commaAt, Prog.bind_ok (byteAt_cons h.text), if_pos rfl,
    Prog.bind_ok (add_run (by omega) _), decide_eq_true hpos.ne']
  rfl

theorem commaWithin_run_of_not (h : Standing m.json json jsonlen cidx t)
    (hcomma : ¬ ∃ r, t = 44 :: r) : commaWithin json jsonlen cidx m = (.ok (false, cidx), m) := by
  rw [commaWithin]
  split_ifs
  · rw [commaAt, Prog.bind_ok (byteAt_run h.text), if_neg fun hhead ↦ hcomma ?_]
    · rfl
    · rcases t with _ | ⟨b, r⟩
      · cases hhead
      · exact ⟨r, by rw [← hhead]; rfl⟩
  · rfl

/-- Before another byte there is none. -/
theorem commaWithin_run_of_ne {b : UInt8} (hbyte : m.json[json + cidx]? = some b) (hne : b ≠ 44) :
    commaWithin json jsonlen cidx m = (.ok (false, cidx), m) := by
  rw [commaWithin]
  split_ifs
  · rw [commaAt, Prog.bind_ok (byteAt_of_getElem? hbyte), if_neg hne]
    rfl
  · rfl

theorem group_of_fileMember {stale : ℕ → Bytes} {fuel : ℕ} {key : Bytes} {ts rest : List Token}
    {s s' : Progress} (hconfig : key ≠ str "config")
    (h : Format.fileMember stale fuel key ts s = some (.ok rest, s')) :
    ∃ calls, Format.group fuel key ts = some ⟨calls, some rest⟩ := by
  rw [Format.fileMember, if_neg hconfig, Option.map_eq_some_iff] at h
  obtain ⟨⟨calls, _ | rest'⟩, hgroup, heq⟩ := h
  · cases heq
  · cases heq
    exact ⟨calls, hgroup⟩

/-- What a round begins with: a key whose value is no string, or something at which `parseFile`
ends. -/
theorem nextPair_cases (h : Standing m.json json jsonlen cidx t) :
    (∃ key r json' c len keyAt, Format.pair (tokens t) = some ⟨key, none, tokens r⟩ ∧
      nextPair json jsonlen cidx m =
        (.ok (c, ⟨len + 1, some keyAt, none⟩), { m with json := json' }) ∧ cidx ≤ c ∧
      Standing json' json jsonlen (c + (len + 1)) r ∧ r.dropWhile isspace = r ∧ Reaches t r ∧
      CStr json' (json + (c + (len + 1))) keyAt key ∧
      ∃ b, json'[json + (c + len)]? = some b ∧ b ≠ 44) ∨
    (∀ key rest, Format.pair (tokens t) ≠ some ⟨key, none, rest⟩) ∧
      ∃ json' c pair, nextPair json jsonlen cidx m = (.ok (c, pair), { m with json := json' }) ∧
        (pair.len = 0 ∨ ∃ len key value, pair = ⟨len + 1, some key, some value⟩) := by
  have hnext := nextPair_run h
  rcases hpair : Format.pair (tokens t) with _ | ⟨key, _ | value, rest⟩ <;> rw [hpair] at hnext
  · obtain ⟨json', c, key, value, hx, -⟩ := hnext
    exact Or.inr ⟨by rintro _ _ ⟨⟩, json', c, _, hx, Or.inl rfl⟩
  · obtain ⟨json', c, len, keyAt, value, r, hx, hle, -, hst, htight, rfl, hreach, hkey, hvalue,
      hbefore⟩ := hnext
    cases hvalue
    exact Or.inl ⟨key, r, json', c, len, keyAt, rfl, hx, hle, hst, htight, hreach, hkey,
      hbefore rfl⟩
  · obtain ⟨json', c, len, keyAt, value, r, hx, -, -, -, -, -, -, -, hvalue, -⟩ := hnext
    obtain ⟨valueAt, rfl, -⟩ := exists_of_rel_some hvalue
    exact Or.inr ⟨by rintro _ _ ⟨⟩, json', c, _, hx, Or.inr ⟨len, keyAt, valueAt, rfl⟩⟩

/-- The loop of `parseFile`. -/
theorem parseFileLoop_run (fuel : ℕ) (h : Standing m.json json jsonlen cidx t) (hpos : 0 < cidx)
    (hsize : str "config" ∈ Format.memberKeys fuel (lex t) → jsonlen < 2 ^ 31) :
    FileRun jsonlen t (parseFileLoop fuel json jsonlen cidx m)
      (Format.fileLoop m.stale fuel (lex t) ⟨m.parser, m.items⟩) := by
  -- on the rounds left; a comma begins a new round
  induction fuel generalizing m cidx t with
  | zero => rfl
  | succ fuel ih =>
    have hlt := h.lt
    have hnext := nextPair_run h
    rw [parseFileLoop, Format.fileLoop, show (lex t).map Lexeme.token = tokens t from rfl]
    rw [Format.memberKeys, show (lex t).map Lexeme.token = tokens t from rfl] at hsize
    rcases hpair : Format.pair (tokens t) with _ | ⟨key, _ | value, rest⟩
    · -- no pair
      rw [hpair] at hnext
      obtain ⟨json', c, key, value, hx, -⟩ := hnext
      rw [Prog.bind_ok hx]
      exact ⟨⟨c, rfl⟩, rfl⟩
    · rw [hpair] at hnext hsize
      obtain ⟨json', c, len, keyAt, value, r, hx, hle, hsame, hst, htight, htokens, hreach, hkey,
        hvalue, hbefore⟩ := hnext
      obtain rfl : tokens r = rest := htokens
      have hlen := hst.le
      cases hvalue
      simp only at hsize hkey
      have hsize' (hconfig : key = str "config") : jsonlen < 2 ^ 31 :=
        hsize (by rw [if_pos hconfig, hconfig]; exact List.mem_singleton_self _)
      have hmember : FileMemberRun { m with json := json' } json jsonlen (c + (len + 1)) r
          (parseMember fuel keyAt json jsonlen (c + (len + 1)) { m with json := json' })
          (Format.fileMember m.stale fuel key (tokens r) ⟨m.parser, m.items⟩) :=
        parseMember_run fuel hkey hst htight (hbefore rfl) hsize'
      rw [Prog.bind_ok hx]
      simp only
      rw [Prog.bind_ok (add_run (by omega) _)]
      rcases hread : Format.fileMember m.stale fuel key (tokens r) ⟨m.parser, m.items⟩ with
        _ | ⟨(_ | _ | _ | _ | e) | rest, s⟩
      · rw [hread] at hmember
        exact Prog.bind_fst_error hmember
      · rw [hread] at hmember
        rw [Prog.bind_fst_ok hmember.1]
        exact ⟨⟨_, rfl⟩, hmember.2⟩
      · rw [hread] at hmember
        rw [Prog.bind_fst_ok hmember.1]
        exact ⟨⟨_, rfl⟩, hmember.2⟩
      · rw [hread] at hmember
        obtain ⟨c', b, hret, hparser, hbyte, hne⟩ := hmember
        rw [Prog.bind_fst_ok hret]
        simp only
        rw [Prog.bind_ok (commaWithin_run_of_ne hbyte hne)]
        exact ⟨⟨_, rfl⟩, hparser⟩
      · rw [hread] at hmember
        exact hmember.elim
      · rw [hread] at hmember
        obtain ⟨herror, hparser⟩ := hmember
        rw [Prog.bind_error (Prod.ext herror rfl)]
        exact ⟨rfl, hparser⟩
      · rw [hread] at hmember
        obtain ⟨json'', c', r', hx', hle', hst', rfl, hpast⟩ := hmember
        have hpast' := hreach _ hpast
        have hlen' := hst'.length
        have hmachine : ({ m with json := json' } : Machine).reading json'' s =
            m.reading json'' s := rfl
        rw [Prog.bind_ok hx', hmachine, Option.bind_some]
        simp only [hpast'.lex_eq]
        by_cases hcomma : ∃ r'', r' = 44 :: r''
        · -- behind a comma the next member is read
          obtain ⟨r'', rfl⟩ := hcomma
          have hback := hst'.cons
          have hlex : lex (44 :: r'') = ⟨false, .byte 44⟩ :: lex r'' :=
            lex_byte (by decide) (by decide) r''
          rw [Prog.bind_ok (commaWithin_run (m := m.reading json'' s) hst' (by omega)), hlex]
          simp only [if_true, Format.fileNext]
          refine FileRun.of_suffix ((List.suffix_cons 44 r'').trans hpast'.suffix)
            (ih (m := m.reading json'' s) hback (Nat.succ_pos _) fun hmem ↦ ?_)
          by_cases hconfig : key = str "config"
          · exact hsize' hconfig
          · obtain ⟨calls, hgroup⟩ := group_of_fileMember hconfig hread
            refine hsize ?_
            rw [if_neg hconfig, hgroup]
            simp only [hpast'.lex_eq, hlex, Format.fileNext]
            exact List.mem_cons_of_mem _ hmem
        · -- no comma: the file ends there, whatever follows
          have hended : FileRun jsonlen t (.ok (0, c'), m.reading json'' s)
              (some (.ended (lex r'), s)) :=
            ⟨⟨c', r', rfl, hlen', hpast'.suffix, rfl⟩, rfl⟩
          rw [Prog.bind_ok (commaWithin_run_of_not (m := m.reading json'' s) hst' hcomma)]
          simp only [Bool.false_eq_true, if_false, Format.fileNext]
          split
          · next heq =>
            obtain ⟨r'', hr', -⟩ := lex_eq_comma heq
            exact absurd ⟨r'', hr'⟩ hcomma
          · exact hended
    · rw [hpair] at hnext
      obtain ⟨json', c, len, keyAt, value, r, hx, -, -, -, -, -, -, -, hvalue, -⟩ := hnext
      obtain ⟨valueAt, rfl, -⟩ := exists_of_rel_some hvalue
      rw [Prog.bind_ok hx]
      exact ⟨⟨c, rfl⟩, rfl⟩

/-- `parseFile` -/
theorem parseFile_run (fuel : ℕ) (h : Standing m.json json jsonlen 0 t)
    (hsize : str "config" ∈ Format.fileKeys fuel (lex t) → jsonlen < 2 ^ 31) :
    FileRun jsonlen t (parseFile fuel json jsonlen m)
      (Format.file m.stale fuel (lex t) ⟨m.parser, m.items⟩) := by
  have htight := dropWhile_dropWhile_isspace t
  obtain ⟨w, hrun, hst⟩ : ∃ w, getWhitespaceLen json jsonlen m = (.ok w, m) ∧
      Standing m.json json jsonlen (0 + w) (t.dropWhile isspace) :=
    getWhitespaceLen_run h
  rw [Nat.zero_add] at hst
  have hbyte := (hst.seen htight).byte
  rw [parseFile, Prog.bind_ok hrun]
  by_cases hopen : firstByte (tokens (t.dropWhile isspace)) = 123
  · obtain ⟨r, hskip, htokens, hspace⟩ := cons_of_firstByte htight hopen (by decide) (by decide)
    obtain ⟨gap, hlex⟩ := lex_of_dropWhile hskip hspace (by decide)
    have hsuffix : r <:+ t := by
      have := List.dropWhile_suffix (l := t) isspace
      rw [hskip] at this
      exact (List.suffix_cons 123 r).trans this
    rw [hopen] at hbyte
    rw [hskip] at hst
    have hle := hst.cons.le
    have hlt := h.lt
    rw [if_neg (by omega), Prog.bind_ok (byteAt_of_getElem? hbyte), if_neg (not_not_intro rfl),
      Prog.bind_ok (add_run (by omega) m), hlex]
    rw [hlex] at hsize
    exact (parseFileLoop_run fuel hst.cons (Nat.succ_pos _) hsize).of_suffix hsuffix
  · -- the check of the opening brace fails, or nothing but whitespace is there
    have hfailed : FileRun jsonlen t (.ok (-1, w), m) (some (.failed, ⟨m.parser, m.items⟩)) :=
      ⟨⟨w, rfl⟩, rfl⟩
    rw [tokens_dropWhile] at hopen hbyte
    have hfile : Format.file m.stale fuel (lex t) ⟨m.parser, m.items⟩ =
        some (.failed, ⟨m.parser, m.items⟩) := by
      unfold Format.file
      split
      · next heq => exact absurd (by rw [tokens, heq]; rfl) hopen
      · rfl
    rw [hfile]
    split_ifs
    · exact hfailed
    · rw [Prog.bind_ok (byteAt_of_getElem? hbyte), if_pos hopen]
      exact hfailed

/-- The result of `parseFile`, or the stop. -/
def Format.FileEnd.result : Format.FileEnd → Except Stop ℤ
  | .failed => .ok (-1)
  | .skipped | .brokenConfig | .ended _ => .ok 0
  | .threw e => .error (.ofStoi e)

/-- **`loadFile` reads the lexemes of the file**: its result and the parser object it leaves are
those of the parser over tokens, and unless the file was skipped or a config section failed a
result 0 leaves the cursor before what that parser has not read. -/
theorem loadFile_run (fuel : ℕ) (stale : ℕ → Bytes) (c : Bytes) (p : QshJsonParser)
    (hlt : c.length < 2 ^ 32)
    (hsize : str "config" ∈ Format.fileKeys fuel (lex c) → c.length < 2 ^ 31) :
    match Format.file stale fuel (lex c) ⟨p.resetParserState, 0⟩ with
    | none => (p.loadFile fuel stale (.content c)).ret = .error .outOfFuel
    | some (e, s) =>
      (p.loadFile fuel stale (.content c)).ret = e.result ∧
      (p.loadFile fuel stale (.content c)).parser =
        (if e.result = .ok 0 then { s.parser with mIsFileParsed := true } else s.parser) ∧
      ∀ ls, e = .ended ls → lex (c.drop (p.loadFile fuel stale (.content c)).cursor) = ls := by
  have hstart : Standing (Machine.start p.resetParserState c stale).json 0 c.length 0 c :=
    ⟨rfl, Nat.zero_add _, hlt⟩
  have hrun : FileRun c.length c
      (parseFile fuel 0 c.length (Machine.start p.resetParserState c stale))
      (Format.file stale fuel (lex c) ⟨p.resetParserState, 0⟩) :=
    parseFile_run fuel hstart hsize
  simp only [QshJsonParser.loadFile, Nat.mod_eq_of_lt hlt]
  generalize parseFile fuel 0 c.length (Machine.start p.resetParserState c stale) = x at hrun ⊢
  obtain ⟨x, m⟩ := x
  rcases hfile : Format.file stale fuel (lex c) ⟨p.resetParserState, 0⟩ with
    _ | ⟨_ | _ | _ | ls | e, s⟩ <;> rw [hfile] at hrun
  · obtain rfl : x = .error .outOfFuel := hrun
    rfl
  · obtain ⟨⟨cursor, hx⟩, hparser⟩ := hrun
    obtain rfl : x = .ok (-1, cursor) := hx
    exact ⟨rfl, hparser, fun _ h ↦ by cases h⟩
  · obtain ⟨⟨cursor, hx⟩, hparser⟩ := hrun
    obtain rfl : x = .ok (0, cursor) := hx
    exact ⟨rfl, congrArg (fun p : QshJsonParser ↦ { p with mIsFileParsed := true }) hparser,
      fun _ h ↦ by cases h⟩
  · obtain ⟨⟨cursor, hx⟩, hparser⟩ := hrun
    obtain rfl : x = .ok (0, cursor) := hx
    exact ⟨rfl, congrArg (fun p : QshJsonParser ↦ { p with mIsFileParsed := true }) hparser,
      fun _ h ↦ by cases h⟩
  · obtain ⟨⟨cursor, r, hx, hlen, hsuffix, hlex⟩, hparser⟩ := hrun
    obtain rfl : x = .ok (0, cursor) := hx
    refine ⟨rfl, congrArg (fun p : QshJsonParser ↦ { p with mIsFileParsed := true }) hparser, ?_⟩
    intro ls' h
    cases h
    have hdrop : c.drop cursor = r := by
      rw [List.suffix_iff_eq_drop.1 hsuffix]
      congr 1
      omega
    simp only [if_true]
    rw [hdrop, hlex]
  · obtain ⟨hx, hparser⟩ := hrun
    obtain rfl : x = .error (.ofStoi e) := hx
    exact ⟨rfl, hparser, fun _ h ↦ by cases h⟩

end SensingHub.Json
