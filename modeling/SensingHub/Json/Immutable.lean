import SensingHub.Json.FileUpkeep

/-!
# Reading in place and reading a text that does not change

The parser writes NULs into the buffer it reads, keeps keys as pointers into it while it goes on
writing, and leaves a NUL ahead of its caller's cursor where a pair cannot be read. None of this
shows: what is tested or scanned is the file, what has been handed out are slices of it, and a load
is the load of the parser over the lexemes of the file, which never change.

That is so as long as the cursors reach all of the file. A quote that is further away than 32 bits
count wraps the cursor, and the NUL goes elsewhere; and the signed cursor of `parseConfig` leaves
the buffer from the 31st bit on.
-/

namespace SensingHub.Json

open CLib (str isspace)

/-- `loadFile` over the lexemes of a text that does not change: what it returns, or the exception,
and the parser object it leaves. -/
def Format.loadFile (fuel : ℕ) (stale : ℕ → Bytes) (p : QshJsonParser) (c : Bytes) :
    Option (Except Stop ℤ × QshJsonParser) :=
  (Format.file stale fuel (lex c) ⟨p.resetParserState, 0⟩).map fun (e, s) ↦
    (e.result, if e.result = .ok 0 then { s.parser with mIsFileParsed := true } else s.parser)

/-- A load in place, the journal being left out of which it is the load that is made: every step is
one on the file, the buffer differs from the file by NULs over quotes only, and the load is that of
the text. -/
structure ParsesInPlace (fuel : ℕ) (p : QshJsonParser) (c : Bytes) (stale : ℕ → Bytes) : Prop where
  run : parseFile fuel 0 (c.length % 2 ^ 32) (Machine.start p.resetParserState c stale) =
    ((Journal.run fuel p c stale).1, (Journal.run fuel p c stale).2.state)
  steps : ∀ s ∈ (Journal.run fuel p c stale).2.log, s.InPlace c
  buffer : Nulled c (c ++ [0]) (Journal.run fuel p c stale).2.state.json
  loaded : Format.loadFile fuel stale p c =
    some ((p.loadFile fuel stale (.content c)).ret, (p.loadFile fuel stale (.content c)).parser)

/-- **Reading in place is reading a text that does not change.** -/
theorem parsesInPlace (p : QshJsonParser) {c : Bytes} {fuel : ℕ} (hfits : FitsCursors fuel c)
    (hfuel : c.length < fuel) (stale : ℕ → Bytes) : ParsesInPlace fuel p c stale := by
  obtain ⟨hkept, hnulled⟩ := Journal.kept_run hfits p stale
  refine ⟨Journal.erase_run fuel p c stale, hkept.steps, hnulled, ?_⟩
  have hload := loadFile_run fuel stale c p hfits.1 hfits.2
  obtain ⟨⟨e, s⟩, hfile⟩ := Option.isSome_iff_exists.1 (Format.file_isSome stale
    ⟨p.resetParserState, 0⟩ ((length_lex_le c).trans hfuel.le))
  rw [hfile] at hload
  obtain ⟨hret, hparser, -⟩ := hload
  rw [Format.loadFile, hfile, hret, hparser]
  rfl

theorem parsesInPlace_backwardFile :
    FitsCursors 100 backwardFile ∧ ParsesInPlace 100 (.fresh 0) backwardFile fun _ ↦ [] := by
  have hfits : FitsCursors 100 backwardFile := by unfold FitsCursors; decide +kernel
  exact ⟨hfits, parsesInPlace (.fresh 0) hfits (by decide +kernel) fun _ ↦ []⟩

/-! ### Files that the cursors do not reach the end of -/

section

variable {m : Machine} {json jsonlen cidx k : ℕ}

/-- White space before a byte that is none, whatever the rest of the buffer may be. -/
theorem skipWhitespace_run_of_getElem? {b : UInt8} (hb : m.json[json + cidx]? = some b)
    (hspace : isspace b = false) (hle : cidx ≤ jsonlen) (hlt : jsonlen < 2 ^ 32) :
    skipWhitespace json jsonlen cidx m = (.ok cidx, m) := by
  rw [skipWhitespace, Prog.bind_ok (sub_run hle hlt m),
    Prog.bind_ok (getWhitespaceLen_run_of_getElem? hb hspace _)]
  exact add_run (by omega) m

/-- A file with a string of `k` bytes where a group should stand. -/
def wideFile (k : ℕ) : Bytes :=
  123 :: 34 :: 34 :: 58 :: 34 :: (List.replicate k 120 ++ [34, 44, 44])

/-- The buffer of such a file, with something over the closing quote of its key and over the
colon. -/
def wideBuffer (k : ℕ) (quote colon : UInt8) : Bytes :=
  123 :: 34 :: quote :: colon :: 34 :: (List.replicate k 120 ++ [34, 44, 44] ++ [0])

theorem text_wideBuffer (k : ℕ) (quote colon : UInt8) :
    Text (wideBuffer k quote colon) 5 (List.replicate k 120 ++ 34 :: [44, 44]) :=
  rfl

/-- The closing quote of the value is so far away that the cursor wraps, and the NUL is written over
the colon. -/
theorem parsePairValue_wide (hk : k + 2 = 2 ^ 32) (hm : m.json = wideBuffer k 0 58) :
    parsePairValue 1 5 3 2 m =
      (.ok ⟨3, some 2, some 5⟩, { m with json := wideBuffer k 0 0, wrapped := true }) := by
  have hclose : closeQuote (List.replicate k 120 ++ 34 :: [44, 44]) =
      some (List.replicate k 120, [44, 44]) :=
    closeQuote_append (by simp [List.mem_replicate]) (by simp [List.mem_replicate]) _
  have hbyte : m.json[1 + 3]? = some 34 := by rw [hm]; rfl
  have htext : Text m.json 5 (List.replicate k 120 ++ 34 :: [44, 44]) := by
    rw [hm]
    exact text_wideBuffer k 0 58
  have hadd : add 4 k m = (.ok 2, { m with wrapped := true }) := by
    have hwrap : Word.add32 4 k = 2 := by
      unfold Word.add32
      omega
    rw [add, if_neg (by omega), Prog.modify_bind_run, hwrap]
    rfl
  have hnul : nulAt (1 + 2) { m with wrapped := true } =
      (.ok (), { m with json := wideBuffer k 0 0, wrapped := true }) := by
    rw [nulAt_run (by rw [hm]; simp [wideBuffer]), hm]
    rfl
  have hbyte' : (wideBuffer k 0 0)[1 + 3]? = some 34 := rfl
  rw [parsePairValue, Prog.bind_ok (skipWhitespace_run_of_getElem? hbyte (by decide)
      (by decide) (by decide)), if_neg (by decide), Prog.bind_ok (byteAt_of_getElem? hbyte),
    if_pos rfl, Prog.bind_ok (add_run (by decide) m), Prog.bind_ok (strchrAt_run htext hclose)]
  simp only [List.length_replicate, Nat.add_sub_cancel_left, Nat.reduceAdd]
  rw [Prog.bind_ok hadd, Prog.bind_ok hnul, Prog.bind_ok (add_run (by decide) _),
    Prog.bind_ok (skipWhitespace_run_of_getElem? hbyte' (by decide) (by decide) (by decide))]
  rfl

theorem parsePair_wide (hk : k + 2 = 2 ^ 32) (hm : m.json = wideBuffer k 34 58) :
    parsePair 1 5 m =
      (.ok ⟨3, some 2, some 5⟩, { m with json := wideBuffer k 0 0, wrapped := true }) := by
  have hfirst : m.json[1]? = some 34 := by rw [hm]; rfl
  have htext : Text m.json 2 (34 :: 58 :: 34 :: (List.replicate k 120 ++ [34, 44, 44])) := by
    rw [hm]
    rfl
  have hclose : closeQuote (34 :: 58 :: 34 :: (List.replicate k 120 ++ [34, 44, 44])) =
      some ([], 58 :: 34 :: (List.replicate k 120 ++ [34, 44, 44])) := rfl
  have hnul : nulAt (1 + (1 + 0)) m = (.ok (), { m with json := wideBuffer k 0 58 }) := by
    rw [nulAt_run (by rw [hm]; simp [wideBuffer]), hm]
    rfl
  have hcolon : (wideBuffer k 0 58)[1 + 2]? = some 58 := rfl
  rw [parsePair, if_neg (by decide), Prog.bind_ok (byteAt_of_getElem? hfirst),
    if_neg (not_not_intro rfl), Prog.bind_ok (strchrAt_run htext hclose)]
  simp only [List.length_nil, Nat.add_zero, Nat.sub_self]
  rw [if_neg (by decide), Prog.bind_ok (add_run (by decide) m), Prog.bind_ok hnul,
    Prog.bind_ok (add_run (by decide) _),
    Prog.bind_ok (skipWhitespace_run_of_getElem? hcolon (by decide) (by decide) (by decide)),
    if_neg (by decide), Prog.bind_ok (byteAt_of_getElem? hcolon), if_neg (not_not_intro rfl),
    Prog.bind_ok (add_run (by decide) _)]
  exact parsePairValue_wide hk rfl

/-- In the end the colon is gone. -/
theorem parseFile_wide (fuel : ℕ) (hk : k + 2 = 2 ^ 32) (hm : m.json = wideBuffer k 34 58) :
    (parseFile (fuel + 1) 0 6 m).2.json = wideBuffer k 0 0 := by
  have hfirst : m.json[0]? = some 123 := by rw [hm]; rfl
  have hquote : m.json[0 + 1]? = some 34 := by rw [hm]; rfl
  have hspace : isspace 123 = false := by decide
  rw [parseFile, Prog.bind_ok (getWhitespaceLen_run_of_getElem? hfirst hspace _),
    if_neg (by decide), Prog.bind_ok (byteAt_of_getElem? hfirst), if_neg (not_not_intro rfl),
    Prog.bind_ok (add_run (by decide) m), parseFileLoop]
  have hnext : nextPair 0 6 (0 + 1) m = (.ok (1, ⟨3, some 2, some 5⟩),
      { m with json := wideBuffer k 0 0, wrapped := true }) := by
    rw [nextPair,
      Prog.bind_ok (skipWhitespace_run_of_getElem? hquote (by decide) (by decide) (by decide)),
      Prog.bind_ok (sub_run (by decide) (by decide) m), Prog.bind_ok (parsePair_wide hk hm)]
    rfl
  rw [Prog.bind_ok hnext]
  rfl

end

/-- Then the buffer is not the file with NULs over quotes. -/
theorem not_parsesInPlace_wideFile {k : ℕ} (hk : k + 2 = 2 ^ 32) (fuel : ℕ) (p : QshJsonParser)
    (stale : ℕ → Bytes) : ¬ ParsesInPlace (fuel + 1) p (wideFile k) stale := by
  intro hplace
  have hlen : (wideFile k).length % 2 ^ 32 = 6 := by
    simp only [wideFile, List.length_cons, List.length_append, List.length_replicate,
      List.length_nil]
    omega
  have hjson : (Journal.run (fuel + 1) p (wideFile k) stale).2.state.json = wideBuffer k 0 0 := by
    have hrun := congrArg (fun x : Except Stop (ℤ × ℕ) × Machine ↦ x.2.json) hplace.run
    rw [hlen] at hrun
    exact hrun.symm.trans (parseFile_wide fuel hk rfl)
  have hcolon := hplace.buffer.byte 3
  rw [hjson] at hcolon
  rcases hcolon with hsame | ⟨hquote, -⟩
  · cases hsame
  · cases hquote

/-! ### The signed cursor -/

section

variable {m : Machine} {json jsonlen cidx k : ℕ} {s r : Bytes}

theorem textPair_object (hquote : 34 ∉ s) (hnul : 0 ∉ s) (r : Bytes) :
    textPair (34 :: (s ++ 34 :: 58 :: 123 :: r)) = some ⟨s, none, 123 :: r⟩ := by
  rw [textPair, if_pos rfl, closeQuote_append hquote hnul]
  rfl

/-- A key with an object behind it, right at the cursor. -/
theorem nextPair_object (h : Standing m.json json jsonlen cidx (34 :: (s ++ 34 :: 58 :: 123 :: r)))
    (hquote : 34 ∉ s) (hnul : 0 ∉ s) :
    ∃ json' keyAt, nextPair json jsonlen cidx m =
        (.ok (cidx, ⟨s.length + 3, some keyAt, none⟩), { m with json := json' }) ∧
      Standing json' json jsonlen (cidx + (s.length + 3)) (123 :: r) ∧
      CStr json' (json + (cidx + (s.length + 3))) keyAt s := by
  have hpair := parsePair_run h.call
  rw [textPair_object hquote hnul] at hpair
  obtain ⟨json', len, keyAt, value, hx, -, -, hst, hkey, hvalue, -⟩ := hpair
  cases hvalue
  have hlen := h.length
  have hlen' := hst.length
  simp only [List.length_cons, List.length_append] at hlen hlen'
  obtain rfl : len = s.length + 2 := by omega
  rw [Nat.add_assoc] at hkey
  refine ⟨json', keyAt, ?_, hst.return h.le h.lt, hkey⟩
  have hspace : isspace 34 = false := by decide
  rw [nextPair, Prog.bind_ok (skipWhitespace_run_of_getElem? h.text.getElem? hspace h.le h.lt),
    Prog.bind_ok (sub_run h.le h.lt m), Prog.bind_ok hx]
  rfl

/-- Behind a member of 2 GiB the signed cursor is negative, and the byte it points to is not in the
buffer. -/
theorem parseConfig_wide (fuel : ℕ) (hk : k + 4 = 2 ^ 31) (hjson : json < 2 ^ 31)
    (h : Standing m.json json jsonlen 0
      (123 :: 34 :: (List.replicate k 120 ++ 34 :: 58 :: 123 :: []))) :
    (parseConfig (fuel + 1) json jsonlen m).1 = .error .outOfBounds := by
  have hbyte : m.json[json]? = some 123 := h.text.getElem?
  have hpointer : pointer json (0 : ℕ) m = (.ok json, m) := pointer_run json 0 m
  -- the items of the section stop at the bracket, `k + 4` bytes behind its start
  have hitem : ∃ m', parseConfigItem (fuel + 1) json jsonlen m = (.ok (k + 4), m') := by
    obtain ⟨json', keyAt, hx, hst, -⟩ := nextPair_object h.cons
      (by simp [List.mem_replicate]) (by simp [List.mem_replicate])
    rw [List.length_replicate] at hx hst
    have hlen := hst.length
    have hbyte' : ({ m with json := json' } : Machine).json[json + (0 + 1 + (k + 3))]? = some 123 :=
      hst.text.getElem?
    rw [parseConfigItem, Prog.bind_ok (byteAt_of_getElem? hbyte), if_neg (not_not_intro rfl),
      parseConfigItemLoop, if_neg (by omega), Prog.bind_ok hx]
    simp only
    rw [Prog.bind_ok (add_run (by omega) _), readSocIds, Prog.pure_bind_run,
      Prog.bind_ok (skipWhitespace_run_of_getElem? hbyte' (by decide) hst.le h.lt),
      Prog.bind_ok (byteAt_of_getElem? hbyte'), if_pos (by decide)]
    refine ⟨{ m with json := json' }, ?_⟩
    rw [show 0 + 1 + (k + 3) = k + 4 by omega]
    rfl
  obtain ⟨m', hitem⟩ := hitem
  -- `cidx += len` is the overflow of the signed cursor
  have hadd : addInt (0 : ℕ) (k + 4 : ℕ) m' = (.ok (-2 ^ 31), { m' with wrapped := true }) := by
    have hsum : ((0 : ℕ) : ℤ) + (k + 4 : ℕ) = 2 ^ 31 := by omega
    rw [addInt, if_neg (by omega), Prog.modify_bind_run, hsum]
    rfl
  have hstop : pointer json (-2 ^ 31) { m' with wrapped := true } =
      (.error .outOfBounds, { m' with wrapped := true }) := by
    rw [pointer, if_pos (by omega)]
    rfl
  rw [parseConfig, Prog.bind_ok (getWhitespaceLen_run_of_getElem? hbyte (by decide) _),
    Prog.bind_ok (addInt_run (c := 0) rfl (by omega) m), Prog.bind_ok hpointer,
    Prog.bind_ok (byteAt_of_getElem? hbyte), if_neg (not_not_intro rfl), Prog.bind_ok hpointer,
    toUInt32_of_lt (Nat.two_pow_pos 32), Prog.bind_ok (sub_run (Nat.zero_le _) h.lt m),
    Nat.sub_zero, Prog.bind_ok hitem, Prog.bind_ok hadd, Prog.bind_error hstop]

/-- A file whose config section has a member of `k` bytes. -/
def wideConfigFile (k : ℕ) : Bytes :=
  123 :: 34 :: (str "config" ++ 34 :: 58 :: 123 :: 34 ::
    (List.replicate k 120 ++ 34 :: 58 :: 123 :: []))

theorem parseFile_wideConfig (fuel : ℕ) (hk : k + 4 = 2 ^ 31)
    (h : Standing m.json 0 jsonlen 0 (wideConfigFile k)) :
    (parseFile (fuel + 2) 0 jsonlen m).1 = .error .outOfBounds := by
  have hlen := h.length
  simp only [wideConfigFile, List.length_cons] at hlen
  have hfirst : m.json[0]? = some 123 := h.text.getElem?
  have hspace : isspace 123 = false := by decide
  obtain ⟨json', keyAt, hx, hst, hkey⟩ := nextPair_object h.cons (by decide) (by decide)
  have hlt := hst.lt
  have hle := hst.le
  rw [parseFile, Prog.bind_ok (getWhitespaceLen_run_of_getElem? hfirst hspace _), if_neg (by omega),
    Prog.bind_ok (byteAt_of_getElem? hfirst), if_neg (not_not_intro rfl),
    Prog.bind_ok (add_run (by decide) m), parseFileLoop, Prog.bind_ok hx]
  simp only
  rw [Prog.bind_ok (add_run (by omega) _), parseMember, Prog.bind_assoc_run,
    Prog.bind_ok (cStringAt_run (m := { m with json := json' }) hkey), if_pos rfl,
    Prog.bind_assoc_run, Prog.bind_ok (sub_run hle hlt _), Prog.bind_assoc_run]
  exact Prog.bind_fst_error (parseConfig_wide fuel hk (by decide) hst.call)

end

theorem Format.FileEnd.result_ne (e : Format.FileEnd) : e.result ≠ .error .outOfBounds := by
  intro h
  cases e with
  | threw e => cases e <;> cases h
  | _ => cases h

/-- Then the load ends at a pointer out of the buffer. -/
theorem not_parsesInPlace_wideConfigFile {k : ℕ} (hk : k + 4 = 2 ^ 31) (fuel : ℕ)
    (p : QshJsonParser) (stale : ℕ → Bytes) :
    ¬ ParsesInPlace (fuel + 2) p (wideConfigFile k) stale := by
  intro hplace
  have hlen : (wideConfigFile k).length < 2 ^ 32 := by
    simp only [wideConfigFile, List.length_cons, List.length_append, List.length_replicate,
      List.length_nil, show (str "config").length = 6 from rfl]
    omega
  have hstop := parseFile_wideConfig
    (m := Machine.start p.resetParserState (wideConfigFile k) stale) fuel hk
    ⟨rfl, Nat.zero_add _, hlen⟩
  have hret : (p.loadFile (fuel + 2) stale (.content (wideConfigFile k))).ret =
      .error .outOfBounds := by
    simp only [QshJsonParser.loadFile, Nat.mod_eq_of_lt hlen]
    generalize parseFile (fuel + 2) 0 _ _ = x at hstop ⊢
    obtain ⟨x, m⟩ := x
    obtain rfl : x = .error .outOfBounds := hstop
    rfl
  have hloaded := hplace.loaded
  rw [hret, Format.loadFile, Option.map_eq_some_iff] at hloaded
  obtain ⟨⟨e, s⟩, -, heq⟩ := hloaded
  exact e.result_ne (congrArg Prod.fst heq)

theorem nul_notMem_wideFile (k : ℕ) : 0 ∉ wideFile k := by
  simp [wideFile, List.mem_replicate]

theorem nul_notMem_wideConfigFile (k : ℕ) : 0 ∉ wideConfigFile k := by
  have hconfig : 0 ∉ str "config" := by decide
  simp [wideConfigFile, List.mem_replicate, hconfig]

/-- A file of more than 4 GiB, and one with a config section of more than 2 GiB. -/
theorem not_parsesInPlace_wide :
    (0 ∉ wideFile (2 ^ 32 - 2) ∧
      ∀ fuel, ¬ ParsesInPlace (fuel + 1) (.fresh 0) (wideFile (2 ^ 32 - 2)) fun _ ↦ []) ∧
    0 ∉ wideConfigFile (2 ^ 31 - 4) ∧
      ∀ fuel, ¬ ParsesInPlace (fuel + 2) (.fresh 0) (wideConfigFile (2 ^ 31 - 4)) fun _ ↦ [] := by
  have hwide : 2 ^ 32 - 2 + 2 = 2 ^ 32 := by decide
  have hwide' : 2 ^ 31 - 4 + 4 = 2 ^ 31 := by decide
  refine ⟨⟨nul_notMem_wideFile _, fun fuel ↦ ?_⟩, nul_notMem_wideConfigFile _, fun fuel ↦ ?_⟩
  · exact not_parsesInPlace_wideFile hwide fuel (.fresh 0) fun _ ↦ []
  · exact not_parsesInPlace_wideConfigFile hwide' fuel (.fresh 0) fun _ ↦ []

end SensingHub.Json
