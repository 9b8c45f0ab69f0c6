import SensingHub.Json.Bounds
import SensingHub.Json.FileRefinement
import SensingHub.Lib.Fuel
import SensingHub.Lib.TransitionSystem

/-!
# The parser ends

The fuel of the loops is a device of the model. Here it is shown not to matter: a run that has not
used up its fuel is the same with more of it, and fuel for each byte of the text is always enough,
whatever the bytes are and however deep the groups nest. As running out of fuel anywhere stops the
whole program, one statement about `parseFile` covers every loop and every recursive call below it.

The loop over the top-level members is looked at by itself, round by round, since its cursor can
move back: a failed `parseConfig` returns -1, which is added to it. No round follows such a one.
-/

namespace SensingHub.Json

open CLib (str isspace)

variable {fuel fuel' : ℕ}

/-! ### More fuel -/

theorem parseItemLoop_mono (hle : fuel ≤ fuel') (json jsonlen cidx : ℕ) (itemValue : Bytes) :
    Prog.SameUnless .outOfFuel (parseItemLoop fuel json jsonlen cidx itemValue)
      (parseItemLoop fuel' json jsonlen cidx itemValue) := by
  induction fuel generalizing fuel' cidx itemValue with
  | zero => exact .stop _
  | succ fuel ih =>
    obtain ⟨fuel', rfl⟩ := Nat.exists_eq_add_of_le' (Nat.one_le_of_lt hle)
    refine .bind_left _ fun ⟨c, len, key, value⟩ ↦ .bind_left _ fun c ↦ ?_
    match len, key, value with
    | 0, _, _ => exact .refl _
    | _ + 1, none, _ => exact .refl _
    | _ + 1, some _, none => exact .refl _
    | _ + 1, some _, some _ =>
      refine .bind_left _ fun data ↦ .bind_left _ fun c ↦ .bind_left _ fun ⟨more, c⟩ ↦ ?_
      exact .ite (ih (Nat.le_of_succ_le_succ hle) c data) (.refl _)

theorem parseItem_mono (hle : fuel ≤ fuel') (json jsonlen : ℕ) (itemValue : Bytes) :
    Prog.SameUnless .outOfFuel (parseItem fuel json jsonlen itemValue)
      (parseItem fuel' json jsonlen itemValue) := by
  refine .ite (.refl _) (.bind_left _ fun b ↦ .ite (.refl _) ?_)
  exact parseItemLoop_mono hle json jsonlen 1 itemValue

theorem readItem_mono (hle : fuel ≤ fuel') (grpName key json jsonlen : ℕ) :
    Prog.SameUnless .outOfFuel (readItem fuel grpName key json jsonlen)
      (readItem fuel' grpName key json jsonlen) := by
  refine .bind_left _ fun localValue ↦ .bind_left _ fun _ ↦ ?_
  exact .bind_right (parseItem_mono hle json jsonlen localValue) _

section Loop

variable {loop loop' : (grpName json jsonlen cidx : ℕ) → ParserM (Option ℕ)}

theorem parseGroupWith_mono (hloop : ∀ grpName json jsonlen cidx,
      Prog.SameUnless .outOfFuel (loop grpName json jsonlen cidx)
        (loop' grpName json jsonlen cidx)) (grpName json jsonlen : ℕ) :
    Prog.SameUnless .outOfFuel (parseGroupWith loop grpName json jsonlen)
      (parseGroupWith loop' grpName json jsonlen) :=
  .ite (.refl _) (.bind_left _ fun _ ↦ .ite (.refl _) (hloop grpName json jsonlen 1))

theorem parseNested_mono (hloop : ∀ grpName json jsonlen cidx,
      Prog.SameUnless .outOfFuel (loop grpName json jsonlen cidx)
        (loop' grpName json jsonlen cidx)) (hle : fuel ≤ fuel') (grpName key json jsonlen : ℕ) :
    Prog.SameUnless .outOfFuel (parseNested loop fuel grpName key json jsonlen)
      (parseNested loop' fuel' grpName key json jsonlen) := by
  refine .bind_left _ fun b ↦ .ite (parseGroupWith_mono hloop key json jsonlen) ?_
  exact .bind_right (readItem_mono hle grpName key json jsonlen) _

theorem parseGroupMember_mono (hloop : ∀ grpName json jsonlen cidx,
      Prog.SameUnless .outOfFuel (loop grpName json jsonlen cidx)
        (loop' grpName json jsonlen cidx)) (hle : fuel ≤ fuel')
    (grpName json jsonlen cidx : ℕ) :
    Prog.SameUnless .outOfFuel (parseGroupMember loop fuel grpName json jsonlen cidx)
      (parseGroupMember loop' fuel' grpName json jsonlen cidx) := by
  refine .bind_left _ fun ⟨c, len, key, value⟩ ↦ .bind_left _ fun c ↦ ?_
  match len, key, value with
  | 0, _, _ => exact .refl _
  | _ + 1, none, _ => exact .refl _
  | _ + 1, some _, some _ => exact .refl _
  | _ + 1, some key, none =>
    refine .bind_left _ fun left ↦ ?_
    exact .bind_right (parseNested_mono hloop hle grpName key (json + c) left) _

end Loop

theorem parseGroupLoop_mono (hle : fuel ≤ fuel') (grpName json jsonlen cidx : ℕ) :
    Prog.SameUnless .outOfFuel (parseGroupLoop fuel grpName json jsonlen cidx)
      (parseGroupLoop fuel' grpName json jsonlen cidx) := by
  -- the loop calls itself for the next member and, through `parseGroup`, for a nested group
  induction fuel generalizing fuel' grpName json jsonlen cidx with
  | zero => exact .stop _
  | succ fuel ih =>
    obtain ⟨fuel', rfl⟩ := Nat.exists_eq_add_of_le' (Nat.one_le_of_lt hle)
    have hle' := Nat.le_of_succ_le_succ hle
    refine .bind (parseGroupMember_mono (fun g i n c ↦ ih hle' g i n c) hle' grpName json jsonlen
      cidx) fun behind ↦ ?_
    match behind with
    | none => exact .refl _
    | some c =>
      refine .bind_left _ fun c ↦ .bind_left _ fun ⟨more, c⟩ ↦ ?_
      exact .ite (ih hle' grpName json jsonlen c) (.refl _)

theorem parseGroup_mono (hle : fuel ≤ fuel') (grpName json jsonlen : ℕ) :
    Prog.SameUnless .outOfFuel (parseGroup fuel grpName json jsonlen)
      (parseGroup fuel' grpName json jsonlen) :=
  parseGroupWith_mono (parseGroupLoop_mono hle) grpName json jsonlen

theorem parseConfigItemLoop_mono (hle : fuel ≤ fuel') (json jsonLen cidx : ℕ) :
    Prog.SameUnless .outOfFuel (parseConfigItemLoop fuel json jsonLen cidx)
      (parseConfigItemLoop fuel' json jsonLen cidx) := by
  induction fuel generalizing fuel' cidx with
  | zero => exact .stop _
  | succ fuel ih =>
    obtain ⟨fuel', rfl⟩ := Nat.exists_eq_add_of_le' (Nat.one_le_of_lt hle)
    refine .ite (.refl _) (.bind_left _ fun ⟨c, len, key, value⟩ ↦ ?_)
    match len, key with
    | 0, _ => exact .refl _
    | _ + 1, none => exact .refl _
    | _ + 1, some _ =>
      refine .bind_left _ fun c ↦ .bind_left _ fun _ ↦ .bind_left _ fun c ↦ .bind_left _ fun b ↦ ?_
      exact .ite (.refl _) (.bind_left _ fun c ↦ ih (Nat.le_of_succ_le_succ hle) c)

theorem parseConfigItem_mono (hle : fuel ≤ fuel') (json jsonLen : ℕ) :
    Prog.SameUnless .outOfFuel (parseConfigItem fuel json jsonLen)
      (parseConfigItem fuel' json jsonLen) :=
  .bind_left _ fun _ ↦ .ite (.refl _) (parseConfigItemLoop_mono hle json jsonLen 1)

theorem parseConfig_mono (hle : fuel ≤ fuel') (json jsonlen : ℕ) :
    Prog.SameUnless .outOfFuel (parseConfig fuel json jsonlen)
      (parseConfig fuel' json jsonlen) := by
  refine .bind_left _ fun w ↦ .bind_left _ fun c ↦ .bind_left _ fun i ↦ .bind_left _ fun b ↦ ?_
  refine .ite (.refl _) (.bind_left _ fun i ↦ .bind_left _ fun left ↦ ?_)
  exact .bind_right (parseConfigItem_mono hle i left) _

theorem parseMember_mono (hle : fuel ≤ fuel') (key json jsonlen cidx : ℕ) :
    Prog.SameUnless .outOfFuel (parseMember fuel key json jsonlen cidx)
      (parseMember fuel' key json jsonlen cidx) := by
  refine .bind_left _ fun name ↦ .ite (.bind_left _ fun left ↦ ?_) (.bind_left _ fun left ↦ ?_)
  · exact .bind_right (parseConfig_mono hle (json + cidx) left) _
  · exact .bind_right (parseGroup_mono hle key (json + cidx) left) _

theorem parseFileLoop_mono (hle : fuel ≤ fuel') (json jsonlen cidx : ℕ) :
    Prog.SameUnless .outOfFuel (parseFileLoop fuel json jsonlen cidx)
      (parseFileLoop fuel' json jsonlen cidx) := by
  induction fuel generalizing fuel' cidx with
  | zero => exact .stop _
  | succ fuel ih =>
    obtain ⟨fuel', rfl⟩ := Nat.exists_eq_add_of_le' (Nat.one_le_of_lt hle)
    have hle' := Nat.le_of_succ_le_succ hle
    refine .bind_left _ fun ⟨c, len, key, value⟩ ↦ ?_
    match len, key, value with
    | 0, _, _ => exact .refl _
    | _ + 1, none, _ => exact .refl _
    | _ + 1, some _, some _ => exact .refl _
    | _ + 1, some key, none =>
      refine .bind_left _ fun c ↦ .bind (parseMember_mono hle' key json jsonlen c) fun round ↦ ?_
      match round with
      | .failed => exact .refl _
      | .skipped => exact .refl _
      | .read c => exact .bind_left _ fun ⟨more, c⟩ ↦ .ite (ih hle' c) (.refl _)

/-- A run of `parseFile` that has not used up its fuel is the same with more of it. -/
theorem parseFile_mono (hle : fuel ≤ fuel') (json jsonlen : ℕ) :
    Prog.SameUnless .outOfFuel (parseFile fuel json jsonlen) (parseFile fuel' json jsonlen) := by
  refine .bind_left _ fun c ↦ .ite (.refl _) (.bind_left _ fun b ↦ .ite (.refl _) ?_)
  exact .bind_left _ fun c ↦ parseFileLoop_mono hle json jsonlen c

/-! ### Rounds of the loop over the top-level members -/

/-- `parseFile` up to its loop: what it returns and its cursor then, or the cursor the loop begins
with. -/
def fileOpening (json jsonlen : ℕ) : ParserM ((ℤ × ℕ) ⊕ ℕ) := do
  let cidx ← getWhitespaceLen json jsonlen
  if jsonlen ≤ cidx then return .inl (-1, cidx)
  if (← byteAt (json + cidx)) ≠ 123 then return .inl (-1, cidx)
  return .inr (← add cidx 1)

/-- A round of the loop of `parseFile`: what `parseFile` returns and its cursor then, or the cursor
of the next round. -/
def fileRound (fuel json jsonlen cidx : ℕ) : ParserM ((ℤ × ℕ) ⊕ ℕ) := do
  let (cidx, pair) ← nextPair json jsonlen cidx
  match pair.len, pair.key, pair.value with
  | _ + 1, some key, none =>
    let cidx ← add cidx pair.len
    match ← parseMember fuel key json jsonlen cidx with
    | .failed => return .inl (-1, cidx)
    | .skipped => return .inl (0, cidx)
    | .read cidx =>
      let (more, cidx) ← commaWithin json jsonlen cidx
      if more then return .inr cidx
      else return .inl (0, cidx)
  | _, _, _ => return .inl (-1, cidx)

/-- What `parseConfig` returns in a round of the loop of `parseFile`, if the round calls it. -/
def roundConfig (fuel json jsonlen cidx : ℕ) : ParserM (Option ℤ) := do
  let (cidx, pair) ← nextPair json jsonlen cidx
  match pair.len, pair.key, pair.value with
  | _ + 1, some key, none =>
    let cidx ← add cidx pair.len
    if (← cStringAt key) = str "config" then
      return some (← parseConfig fuel (json + cidx) (← sub jsonlen cidx))
    else return none
  | _, _, _ => return none

/-- The loop is its first round and the loop from there. -/
theorem parseFileLoop_succ (fuel json jsonlen cidx : ℕ) :
    parseFileLoop (fuel + 1) json jsonlen cidx =
      fileRound fuel json jsonlen cidx >>= Sum.elim pure (parseFileLoop fuel json jsonlen) := by
  rw [parseFileLoop, fileRound, Prog.bind_bind]
  refine bind_congr ?_
  rintro ⟨c, len, key, value⟩
  rcases len with _ | len
  · rfl
  rcases key with _ | key
  · rfl
  rcases value with _ | value
  · -- a member is read
    simp only [Prog.bind_bind]
    refine bind_congr fun c ↦ bind_congr ?_
    rintro (_ | _ | c)
    · rfl
    · rfl
    · simp only [Prog.bind_bind]
      refine bind_congr ?_
      rintro ⟨more, c⟩
      cases more <;> rfl
  · rfl

theorem parseFile_eq_opening (fuel json jsonlen : ℕ) :
    parseFile fuel json jsonlen =
      fileOpening json jsonlen >>= Sum.elim pure (parseFileLoop fuel json jsonlen) := by
  simp only [parseFile, fileOpening, Prog.bind_bind]
  refine bind_congr fun c ↦ ?_
  split_ifs
  · rfl
  · simp only [Prog.bind_bind]
    refine bind_congr fun b ↦ ?_
    split_ifs
    · rfl
    · simp only [Prog.bind_bind]
      exact bind_congr fun c ↦ rfl

/-- The loop of `parseFile` before a round. -/
structure BeforeRound where
  cidx : ℕ
  machine : Machine

/-- The rounds that the loop of `parseFile` makes on a file. -/
def fileRounds (fuel : ℕ) (p : QshJsonParser) (fileContent : Bytes) (stale : ℕ → Bytes) :
    TransitionSystem BeforeRound Unit where
  init s := fileOpening 0 fileContent.length (Machine.start p fileContent stale) =
    (.ok (.inr s.cidx), s.machine)
  step s _ t := fileRound fuel 0 fileContent.length s.cidx s.machine =
    (.ok (.inr t.cidx), t.machine)

/-- `parseConfig` returns -1 in the round. -/
def BeforeRound.ConfigFails (s : BeforeRound) (fuel : ℕ) (fileContent : Bytes) : Prop :=
  (roundConfig fuel 0 fileContent.length s.cidx s.machine).1 = .ok (some (-1))

variable {m m' : Machine} {json jsonlen cidx c : ℕ} {t : Bytes}

/-- A round that is followed by another has read its member and a comma behind it. -/
theorem exists_of_fileRound (h : Standing m.json json jsonlen cidx t) (hlt : jsonlen < 2 ^ 31)
    (hround : fileRound fuel json jsonlen cidx m = (.ok (.inr c), m')) :
    ∃ key rest rest' s r, Format.pair (tokens t) = some ⟨key, none, rest⟩ ∧
      Format.fileMember m.stale fuel key rest ⟨m.parser, m.items⟩ = some (.ok rest', s) ∧
      Standing m'.json json jsonlen c r ∧ cidx < c := by
  rw [fileRound] at hround
  rcases nextPair_cases h with ⟨key, r, json', c', len, keyAt, hpair, hx, hle, hst, htight, -, hkey,
    hbefore⟩ | ⟨-, json', c', pair, hx, hend⟩
  · have hlen := hst.le
    have hmember : FileMemberRun { m with json := json' } json jsonlen (c' + (len + 1)) r
        (parseMember fuel keyAt json jsonlen (c' + (len + 1)) { m with json := json' })
        (Format.fileMember m.stale fuel key (tokens r) ⟨m.parser, m.items⟩) :=
      parseMember_run fuel hkey hst htight hbefore fun _ ↦ hlt
    rw [Prog.bind_ok hx] at hround
    simp only at hround
    rw [Prog.bind_ok (add_run (by omega) _)] at hround
    obtain ⟨round, m₁, hrun, hround⟩ := Prog.exists_of_bind_ok hround
    rw [hrun] at hmember
    rcases hread : Format.fileMember m.stale fuel key (tokens r) ⟨m.parser, m.items⟩ with
      _ | ⟨(_ | _ | _ | _ | e) | rest', s⟩ <;> rw [hread] at hmember
    · cases hmember
    · obtain rfl : round = .failed := Except.ok.inj hmember.1
      cases hround
    · obtain rfl : round = .skipped := Except.ok.inj hmember.1
      cases hround
    · -- behind a config section that has failed the byte before its value is looked at
      obtain ⟨c₁, b, hret, -, hbyte, hne⟩ := hmember
      obtain rfl : round = .read c₁ := Except.ok.inj hret
      simp only at hround
      rw [Prog.bind_ok (commaWithin_run_of_ne hbyte hne)] at hround
      cases hround
    · exact hmember.elim
    · cases hmember.1
    · obtain ⟨json'', c₁, r', heq, hle', hst', -, -⟩ := hmember
      obtain ⟨rfl, rfl⟩ : round = .read c₁ ∧ m₁ = m.reading json'' s :=
        ⟨Except.ok.inj (congrArg Prod.fst heq), congrArg Prod.snd heq⟩
      simp only at hround
      by_cases hcomma : ∃ r'', r' = 44 :: r''
      · obtain ⟨r'', rfl⟩ := hcomma
        rw [Prog.bind_ok (commaWithin_run (m := m.reading json'' s) hst' (by omega))] at hround
        cases hround
        exact ⟨key, tokens r, rest', s, r'', hpair, hread, hst'.cons, by omega⟩
      · rw [Prog.bind_ok (commaWithin_run_of_not (m := m.reading json'' s) hst' hcomma)] at hround
        cases hround
  · rw [Prog.bind_ok hx] at hround
    rcases pair with ⟨len, key, value⟩
    rcases hend with rfl | ⟨len, keyAt, valueAt, hpair⟩
    · cases hround
    · cases hpair
      cases hround

/-- A config section that makes `parseConfig` return -1 in a round. -/
theorem exists_of_roundConfig (h : Standing m.json json jsonlen cidx t) (hlt : jsonlen < 2 ^ 31)
    (hconfig : (roundConfig fuel json jsonlen cidx m).1 = .ok (some (-1))) :
    ∃ rest ids, Format.pair (tokens t) = some ⟨str "config", none, rest⟩ ∧
      Format.config fuel rest = some ⟨ids, .failed⟩ := by
  have hrun : roundConfig fuel json jsonlen cidx m =
      (.ok (some (-1)), (roundConfig fuel json jsonlen cidx m).2) := Prod.ext hconfig rfl
  generalize (roundConfig fuel json jsonlen cidx m).2 = m₁ at hrun
  rw [roundConfig] at hrun
  rcases nextPair_cases h with ⟨key, r, json', c', len, keyAt, hpair, hx, hle, hst, htight, -, hkey,
    -⟩ | ⟨-, json', c', pair, hx, hend⟩
  · have hlen := hst.le
    rw [Prog.bind_ok hx] at hrun
    simp only at hrun
    rw [Prog.bind_ok (add_run (by omega) _), Prog.bind_ok (cStringAt_run hkey)] at hrun
    by_cases hname : key = str "config"
    · have hsection := parseConfig_run (m := { m with json := json' }) fuel hst.call (by omega)
        htight
      rw [if_pos hname, Prog.bind_ok (sub_run hlen h.lt _)] at hrun
      obtain ⟨ret, m₂, hret, hrun⟩ := Prog.exists_of_bind_ok hrun
      rw [hret] at hsection
      obtain rfl : ret = -1 := by cases hrun; rfl
      rcases hread : Format.config fuel (tokens r) with _ | ⟨ids, rest' | _ | e⟩ <;>
        rw [hread] at hsection
      · cases hsection
      · obtain ⟨json'', len', r', heq, -⟩ := hsection
        have := Except.ok.inj (congrArg Prod.fst heq)
        omega
      · exact ⟨tokens r, ids, by rw [hpair, hname], hread⟩
      · obtain ⟨json'', heq⟩ := hsection
        cases congrArg Prod.fst heq
    · rw [if_neg hname] at hrun
      cases hrun
  · rw [Prog.bind_ok hx] at hrun
    rcases pair with ⟨len, key, value⟩
    rcases hend with rfl | ⟨len, keyAt, valueAt, hpair⟩
    · cases hrun
    · cases hpair
      cases hrun

/-- No other round follows one in which `parseConfig` returns -1. -/
theorem fileRound_ne_of_roundConfig (h : Standing m.json json jsonlen cidx t)
    (hlt : jsonlen < 2 ^ 31)
    (hconfig : (roundConfig fuel json jsonlen cidx m).1 = .ok (some (-1))) :
    fileRound fuel json jsonlen cidx m ≠ (.ok (.inr c), m') := by
  intro hround
  obtain ⟨rest, ids, hpair, hfailed⟩ := exists_of_roundConfig h hlt hconfig
  obtain ⟨key, rest', rest'', s, r, hpair', hmember, -⟩ := exists_of_fileRound h hlt hround
  obtain ⟨rfl, -, rfl⟩ : str "config" = key ∧ (none : Option Bytes) = none ∧ rest = rest' :=
    Format.Pair.mk.inj (Option.some.inj (hpair.symm.trans hpair'))
  rw [Format.fileMember, if_pos rfl, hfailed, Option.map_some] at hmember
  cases congrArg Prod.fst (Option.some.inj hmember)

/-! ### The invariant of the rounds -/

/-- The cursor stands before the rest of the text, which has not been written to. -/
def BeforeRound.InText (s : BeforeRound) (fileContent : Bytes) : Prop :=
  ∃ t, Standing s.machine.json 0 fileContent.length s.cidx t

variable {p : QshJsonParser} {file : Bytes} {stale : ℕ → Bytes}

theorem BeforeRound.InText.le {s : BeforeRound} (h : s.InText file) : s.cidx ≤ file.length := by
  obtain ⟨t, h⟩ := h
  exact h.le

theorem inText_of_init {s : BeforeRound} (hlt : file.length < 2 ^ 31)
    (h : (fileRounds fuel p file stale).init s) : s.InText file ∧ 0 < s.cidx := by
  have hstart : Standing (Machine.start p file stale).json 0 file.length 0 file :=
    ⟨rfl, Nat.zero_add _, by omega⟩
  obtain ⟨w, hrun, hst⟩ := getWhitespaceLen_run hstart
  have htight := dropWhile_dropWhile_isspace file
  have hseen := hst.seen htight
  simp only [Nat.zero_add, Nat.sub_zero] at hrun
  simp only [fileRounds] at h
  rw [fileOpening, Prog.bind_ok hrun] at h
  split_ifs at h
  · cases h
  · rw [Nat.zero_add] at hseen hst
    rw [Prog.bind_ok (byteAt_of_getElem? hseen.byte)] at h
    split_ifs at h with hopen
    · cases h
    · obtain ⟨r, hr, -⟩ :=
        cons_of_firstByte htight (not_not.1 hopen) (by decide) (by decide)
      rw [hr] at hst
      have hback := hst.cons
      have hle := hback.le
      rw [Prog.bind_ok (add_run (by omega) _)] at h
      obtain ⟨cidx, m⟩ := s
      cases h
      exact ⟨⟨r, hback⟩, Nat.succ_pos w⟩

/-- A step moves the cursor on inside the text. -/
theorem inText_of_step {s t : BeforeRound} (hlt : file.length < 2 ^ 31) (h : s.InText file)
    (hstep : (fileRounds fuel p file stale).step s () t) : t.InText file ∧ s.cidx < t.cidx := by
  obtain ⟨r, hst⟩ := h
  obtain ⟨_, _, _, _, r', -, -, hst', hmove⟩ := exists_of_fileRound hst hlt hstep
  exact ⟨⟨r', hst'⟩, hmove⟩

theorem isInvariant_inText (hlt : file.length < 2 ^ 31) :
    (fileRounds fuel p file stale).IsInvariant fun s ↦ s.InText file where
  init _ h := (inText_of_init hlt h).1
  step _ _ _ hs _ hstep := (inText_of_step hlt hs hstep).1

/-- A run of rounds moves the cursor on by one byte at least for each of them. -/
theorem length_add_cidx_le {s t : BeforeRound} {ls : List Unit} (hlt : file.length < 2 ^ 31)
    (hs : s.InText file) (hrun : (fileRounds fuel p file stale).Run s ls t) :
    t.InText file ∧ s.cidx + ls.length ≤ t.cidx := by
  induction hrun with
  | nil => exact ⟨hs, le_rfl⟩
  | snoc _ _ hstep ih =>
    obtain ⟨hmid, hle⟩ := ih
    obtain ⟨hend, hmove⟩ := inText_of_step hlt hmid hstep
    rw [List.length_append, List.length_singleton]
    exact ⟨hend, by omega⟩

/-- The rounds are those of the loop: from each that is reached the loop returns what `parseFile`
does. -/
theorem parseFile_eq_of_reachable {s : BeforeRound}
    (hne : (parseFile fuel 0 file.length (Machine.start p file stale)).1 ≠ .error .outOfFuel)
    (h : (fileRounds fuel p file stale).Reachable s) :
    parseFile fuel 0 file.length (Machine.start p file stale) =
      parseFileLoop fuel 0 file.length s.cidx s.machine := by
  obtain ⟨s₀, ls, hinit, hrun⟩ := h
  induction hrun with
  | nil => rw [parseFile_eq_opening, Prog.bind_ok hinit, Sum.elim_inr]
  | @snoc t u _ _ _ _ hstep ih =>
    rw [ih] at hne ⊢
    have hmore := parseFileLoop_mono (Nat.le_succ fuel) 0 file.length t.cidx t.machine hne
    rw [← hmore, parseFileLoop_succ, Prog.bind_ok hstep, Sum.elim_inr]

theorem FileRun.fst_ne {jsonlen : ℕ} {t : Bytes} {x : Except Stop (ℤ × ℕ) × Machine}
    {e : Format.FileEnd × Progress} (h : FileRun jsonlen t x (some e)) :
    x.1 ≠ .error .outOfFuel := by
  obtain ⟨_ | _ | _ | ls | e, s⟩ := e
  · obtain ⟨⟨c, hx⟩, -⟩ := h
    exact fun h ↦ nomatch hx.symm.trans h
  · obtain ⟨⟨c, hx⟩, -⟩ := h
    exact fun h ↦ nomatch hx.symm.trans h
  · obtain ⟨⟨c, hx⟩, -⟩ := h
    exact fun h ↦ nomatch hx.symm.trans h
  · obtain ⟨⟨c, r, hx, -⟩, -⟩ := h
    exact fun h ↦ nomatch hx.symm.trans h
  · have hstop : Stop.ofStoi e ≠ .outOfFuel := by cases e <;> decide
    exact fun hout ↦ hstop (Except.error.inj (h.1.symm.trans hout))

/-- Fuel for each byte is enough. -/
theorem parseFile_fst_ne (hlt : file.length < 2 ^ 31) (p : QshJsonParser) (stale : ℕ → Bytes)
    (hfuel : file.length ≤ fuel) :
    (parseFile fuel 0 file.length (Machine.start p file stale)).1 ≠ .error .outOfFuel := by
  have hstart : Standing (Machine.start p file stale).json 0 file.length 0 file :=
    ⟨rfl, Nat.zero_add _, by omega⟩
  have hrun : FileRun file.length file
      (parseFile fuel 0 file.length (Machine.start p file stale))
      (Format.file stale fuel (lex file) ⟨p, 0⟩) := parseFile_run fuel hstart fun _ ↦ hlt
  obtain ⟨e, hread⟩ := Option.isSome_iff_exists.1 <|
    Format.file_isSome stale ⟨p, 0⟩ ((length_lex_le file).trans hfuel)
  rw [hread] at hrun
  exact hrun.fst_ne

/-- **`parseFile` and all it calls end on every input.** Fuel for each byte is enough, and more of
it changes nothing; the loop over the top-level members has fewer rounds than the file has bytes,
and none of them follows a round in which `parseConfig` returns -1. -/
theorem parseFile_terminates (hlt : file.length < 2 ^ 31) (p : QshJsonParser) (stale : ℕ → Bytes)
    (hfuel : file.length ≤ fuel) :
    (parseFile fuel 0 file.length (Machine.start p file stale)).1 ≠ .error .outOfFuel ∧
      (∀ fuel', fuel ≤ fuel' →
        parseFile fuel' 0 file.length (Machine.start p file stale) =
          parseFile fuel 0 file.length (Machine.start p file stale)) ∧
      (∀ s ls t, (fileRounds fuel p file stale).init s →
        (fileRounds fuel p file stale).Run s ls t → ls.length < file.length) ∧
      ∀ s t, (fileRounds fuel p file stale).Reachable s → s.ConfigFails fuel file →
        ¬ (fileRounds fuel p file stale).step s () t := by
  have hends := parseFile_fst_ne hlt p stale hfuel
  refine ⟨hends, fun fuel' hle ↦ parseFile_mono hle 0 _ _ hends, ?_, ?_⟩
  · intro s ls t hinit hrun
    obtain ⟨htext, hpos⟩ := inText_of_init hlt hinit
    obtain ⟨hend, hle⟩ := length_add_cidx_le hlt htext hrun
    have := hend.le
    omega
  · intro s t hreach hconfig
    have hreach' : (fileRounds fuel p file stale).ReachableIf (fun _ _ ↦ True) s := hreach
    obtain ⟨r, hst⟩ := (isInvariant_inText hlt).of_reachable hreach'
    exact fileRound_ne_of_roundConfig hst hlt hconfig

theorem parseFile_terminates_backwardFile :
    ((fileRounds 100 (.fresh 0) backwardFile fun _ ↦ []).init
        ⟨1, Machine.start (.fresh 0) backwardFile fun _ ↦ []⟩ ∧
      BeforeRound.ConfigFails ⟨1, Machine.start (.fresh 0) backwardFile fun _ ↦ []⟩ 100
        backwardFile) ∧
      ∀ t, ¬ (fileRounds 100 (.fresh 0) backwardFile fun _ ↦ []).step
        ⟨1, Machine.start (.fresh 0) backwardFile fun _ ↦ []⟩ () t := by
  have hlt : backwardFile.length < 2 ^ 31 := by decide +kernel
  have hfuel : backwardFile.length ≤ 100 := by decide +kernel
  have hinit : (fileRounds 100 (.fresh 0) backwardFile fun _ ↦ []).init
      ⟨1, Machine.start (.fresh 0) backwardFile fun _ ↦ []⟩ := rfl
  have hfails : BeforeRound.ConfigFails
      ⟨1, Machine.start (.fresh 0) backwardFile fun _ ↦ []⟩ 100 backwardFile := by
    unfold BeforeRound.ConfigFails
    decide +kernel
  obtain ⟨-, -, -, hlast⟩ := parseFile_terminates hlt (.fresh 0) (fun _ ↦ []) hfuel
  exact ⟨⟨hinit, hfails⟩, fun t ↦ hlast _ t ⟨_, [], hinit, .nil⟩ hfails⟩

end SensingHub.Json
