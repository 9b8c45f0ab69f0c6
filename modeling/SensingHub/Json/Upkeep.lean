import SensingHub.Json.InPlace

/-!
# What every function of the parser keeps

One specification for each function: called where the text is untouched, or where a pair could not
be read (`Ready`), it takes only steps that in-place parsing allows and moves its cursor only
forward, unless it returns an error; and its result says where the caller goes on. Sizes are those
the 32-bit cursors can address.
-/

namespace SensingHub.Json

open CLib (str isspace cString)

/-! ### The invariant -/

/-- The invariant of a journal. That no operation on a cursor has left 32 bits is tied to what the
machine has noticed. -/
structure Kept (file : Bytes) (t : Journaled) : Prop where
  buffer : Nulled file (file ++ [0]) t.state.json
  steps : ∀ s ∈ t.log, s.InPlace file
  sound : t.state.wrapped = false → CursorsSound (t.log.map Step.event)
  overflow : t.state.wrapped = true → ∃ s ∈ t.log, s.event.Overflows

/-- A function of the parser, called with `json` in the buffer, keeps the invariant, and what it
returns has `q` together with the buffer then. -/
abbrev Does {α : Type} (file json : Bytes) (x : JournalM α) (q : α → Bytes → Prop) : Prop :=
  Prog.Ensures (Kept file) (fun t ↦ t.state.json) (Nulled file) json x q

namespace Journal

variable {file buf : Bytes} {α : Type} {q : α → Bytes → Prop}

theorem does_of_buffer {x : JournalM α} (h : Nulled file (file ++ [0]) buf → Does file buf x q) :
    Does file buf x q := by
  refine Prog.Ensures.of_invariant ?_ h
  rintro t ht rfl
  exact ht.buffer

theorem does_note {e : Event} (hin : e.InPlace file buf) (hoverflow : ¬ e.Overflows)
    (hback : ¬ e.GoesBack) : Does file buf (note e) fun _ buf' ↦ buf' = buf := by
  refine Prog.Ensures.modify ?_
  rintro t ht rfl
  refine ⟨⟨ht.buffer, ?_, fun hw ↦ ?_, fun hw ↦ ?_⟩, refl_of _ _, rfl⟩
  · intro s hs
    rcases List.mem_append.1 hs with hs | hs
    · exact ht.steps s hs
    · rw [List.mem_singleton.1 hs]
      exact ⟨ht.buffer, hin⟩
  · rw [List.map_append]
    exact (ht.sound hw).append hoverflow hback
  · obtain ⟨s, hs, hover⟩ := ht.overflow hw
    exact ⟨s, List.mem_append_left _ hs, hover⟩

/-- An unjournaled part of the parser that leaves the cursors alone. -/
theorem does_quietly {x : ParserM α}
    (h : ∀ m : Machine, m.json = buf → (x m).2.wrapped = m.wrapped ∧
      Nulled file buf (x m).2.json ∧ ∀ a, (x m).1 = .ok a → q a (x m).2.json) :
    Does file buf (Prog.quietly x) q := by
  rintro t ht rfl
  obtain ⟨hwrapped, hnulled, hq⟩ := h t.state rfl
  refine ⟨⟨trans_of _ ht.buffer hnulled, ht.steps, fun hw ↦ ?_, fun hw ↦ ?_⟩, hnulled, hq⟩
  · exact ht.sound (hwrapped.symm.trans hw)
  · exact ht.overflow (hwrapped.symm.trans hw)

/-- A part of the parser that returns `a` and leaves the machine as it is. -/
theorem does_quietly_of_run {x : ParserM α} {a : α}
    (h : ∀ m : Machine, m.json = buf → x m = (.ok a, m)) :
    Does file buf (Prog.quietly x) fun a' buf' ↦ a' = a ∧ buf' = buf := by
  refine does_quietly ?_
  rintro m rfl
  rw [h m rfl]
  refine ⟨rfl, refl_of _ _, ?_⟩
  rintro _ ⟨⟩
  exact ⟨rfl, rfl⟩

theorem does_modify {f : Machine → Machine} (hjson : ∀ m, (f m).json = m.json)
    (hwrapped : ∀ m, (f m).wrapped = m.wrapped) :
    Does file buf (Prog.quietly (Prog.modify f)) fun _ buf' ↦ buf' = buf := by
  refine does_quietly ?_
  rintro m rfl
  refine ⟨hwrapped m, ?_, fun _ _ ↦ hjson m⟩
  rw [show (Prog.modify f m : Except Stop Unit × Machine).2 = f m from rfl, hjson]
  exact refl_of _ _

theorem does_read {f : Machine → α} :
    Does file buf (Prog.quietly (Prog.read f)) fun _ buf' ↦ buf' = buf := by
  refine does_quietly ?_
  rintro m rfl
  exact ⟨rfl, refl_of _ _, fun _ _ ↦ rfl⟩

theorem does_leaving {failed : Bool} {a : α} (h : q a buf) :
    Does file buf (leaving failed a) q := by
  refine (does_note (e := .leave failed) trivial not_false not_false).bind ?_
  rintro _ _ - rfl
  exact .pure h

theorem does_call {failed : α → Bool} {x : JournalM α} (h : Does file buf x q) :
    Does file buf (call failed x) q := by
  refine (does_note (e := .enter) trivial not_false not_false).bind ?_
  rintro _ _ - rfl
  exact h.bind fun a buf' _ ha ↦ does_leaving ha

/-- What is known of a run of the parser itself may be used of a part of it with a journal. -/
theorem does_with_run {x : JournalM α} {y : ParserM α} (he : Prog.Erases x y)
    (hx : Does file buf x q) : Does file buf x fun a buf' ↦ q a buf' ∧
      ∃ m m' : Machine, m.json = buf ∧ y m = (.ok a, m') ∧ m'.json = buf' := by
  intro t ht hbuf
  obtain ⟨hkept, hnulled, hq⟩ := hx t ht hbuf
  refine ⟨hkept, hnulled, fun a ha ↦ ⟨hq a ha, t.state, (x t).2.state, hbuf, ?_, rfl⟩⟩
  rw [he t, ha]

/-! ### Cursors -/

theorem not_goesBack_advance {cidx n : ℕ} (h : cidx + n < 2 ^ 32) :
    ¬ (Event.advance cidx n).GoesBack := by
  show ¬ (cidx + n) % 2 ^ 32 < cidx
  omega

/-- `json[cidx++]` without use of the cursor behind it. -/
theorem does_note_advance {cidx n : ℕ} (h : cidx + n < 2 ^ 32) :
    Does file buf (note (.advance cidx n)) fun _ buf' ↦ buf' = buf :=
  does_note (e := .advance cidx n) trivial (Nat.not_le.2 h) (not_goesBack_advance h)

theorem does_advance {cidx n : ℕ} (h : cidx + n < 2 ^ 32) :
    Does file buf (advance cidx n) fun r buf' ↦ r = cidx + n ∧ buf' = buf := by
  refine (does_note_advance h).bind ?_
  rintro _ _ - rfl
  exact does_quietly_of_run fun m _ ↦ add_run h m

theorem does_advanceInt {cidx n : ℕ} (h : cidx + n < 2 ^ 31) :
    Does file buf (advanceInt cidx n) fun r buf' ↦ r = ((cidx + n : ℕ) : ℤ) ∧ buf' = buf := by
  rw [advanceInt, toUInt32_of_lt (by omega)]
  refine (does_note_advance (by omega)).bind ?_
  rintro _ _ - rfl
  exact does_quietly_of_run fun m _ ↦ addInt_run (by omega) h m

theorem does_remaining {jsonlen cidx : ℕ} (hle : cidx ≤ jsonlen) (hlt : jsonlen < 2 ^ 32) :
    Does file buf (remaining jsonlen cidx) fun r buf' ↦ r = jsonlen - cidx ∧ buf' = buf := by
  refine (does_note (e := .remaining jsonlen cidx) trivial (Nat.not_lt.2 hle) not_false).bind ?_
  rintro _ _ - rfl
  exact does_quietly_of_run fun m _ ↦ sub_run hle hlt m

theorem does_pointer (json cidx : ℕ) :
    Does file buf (Prog.quietly (pointer json cidx)) fun i buf' ↦ i = json + cidx ∧ buf' = buf :=
  does_quietly_of_run fun m _ ↦ pointer_run json cidx m

/-! ### Memory -/

theorem does_byteAt {i : ℕ} (h : Untouched file buf i i) :
    Does file buf (byteAt i) fun b buf' ↦ (file ++ [0])[i]? = some b ∧ buf' = buf := by
  have hlt : i < (file ++ [0]).length := by
    rw [List.length_append, List.length_singleton]
    exact Nat.lt_succ_of_le h.1
  have hbyte : buf[i]? = some (file ++ [0])[i] := by
    rw [h.2 i le_rfl le_rfl, List.getElem?_eq_getElem hlt]
  refine (does_note (e := .test i) h not_false not_false).bind ?_
  rintro _ _ - rfl
  refine (does_quietly_of_run fun m hm ↦ byteAt_of_getElem? (by rw [hm]; exact hbyte)).mono ?_
  rintro _ _ - ⟨rfl, rfl⟩
  exact ⟨List.getElem?_eq_getElem hlt, rfl⟩

/-- A NUL is written over a quote of the file. -/
theorem does_nulAt {i : ℕ} (h : file[i]? = some 34) :
    Does file buf (nulAt i) fun _ buf' ↦ buf' = buf.set i 0 := by
  refine (does_note (e := .nul i) trivial not_false not_false).bind ?_
  rintro _ _ - rfl
  refine does_quietly ?_
  rintro m rfl
  rw [Json.nulAt, Prog.read_bind_run]
  split_ifs
  · exact ⟨rfl, Nulled.set h m.json, fun _ _ ↦ rfl⟩
  · refine ⟨rfl, refl_of _ _, ?_⟩
    rintro _ ⟨⟩

/-- A string that has been handed out is used. -/
theorem does_note_use {k : ℕ} (h : IsString file buf k) :
    Does file buf (note (.use k)) fun _ buf' ↦ buf' = buf := by
  exact does_of_buffer fun hbuffer ↦
    does_note (e := .use k) (h.reads hbuffer) not_false not_false

theorem does_cStringAt {k : ℕ} (h : IsString file buf k) :
    Does file buf (cStringAt k) fun v buf' ↦ cString (buf.drop k) = some v ∧ buf' = buf := by
  refine does_of_buffer fun hbuffer ↦ ?_
  obtain ⟨v, hv, -⟩ := h.reads hbuffer
  refine (does_note_use h).bind ?_
  rintro _ _ - rfl
  refine (does_quietly_of_run (a := v) fun m hm ↦ ?_).mono ?_
  · rw [Json.cStringAt, Prog.read_bind_run, hm, hv]
    rfl
  · rintro _ _ - ⟨rfl, rfl⟩
    exact ⟨hv, rfl⟩

theorem does_firstOf {k : ℕ} (h : IsString file buf k) :
    Does file buf (firstOf k) fun _ buf' ↦ buf' = buf := by
  refine (does_note_use h).bind ?_
  rintro _ _ - rfl
  refine does_quietly ?_
  rintro m rfl
  rw [Json.byteAt, Prog.read_bind_run]
  rcases m.json[k]? with _ | b
  · refine ⟨rfl, refl_of _ _, ?_⟩
    rintro _ ⟨⟩
  · exact ⟨rfl, refl_of _ _, fun _ _ ↦ rfl⟩

/-- A quote is looked for in untouched bytes. -/
theorem does_strchrAt {i : ℕ} (hclean : Clean file buf i) (hi : i ≤ file.length) :
    Does file buf (strchrAt i) fun found buf' ↦ buf' = buf ∧ ∀ j, found = some j →
      ∃ v behind, file.drop i = v ++ 34 :: behind ∧ 34 ∉ v ∧ 0 ∉ v ∧ j = i + v.length := by
  refine Prog.Ensures.bind (q := fun last buf' ↦ last ≤ file.length ∧ buf' = buf)
    (Prog.Ensures.read ?_) ?_
  · rintro t ht rfl
    refine ⟨Traced.scanEnd_le (t := ⟨t.state, []⟩) ⟨?_, ?_, by simp⟩ hi 34, rfl⟩
    · rw [ht.buffer.length, List.length_append]
      rfl
    · rw [hclean file.length hi]
      exact List.getElem?_concat_length
  · rintro last _ - ⟨hlast, rfl⟩
    refine (does_note (e := .scan i last) (hclean.untouched hlast) not_false not_false).bind ?_
    rintro _ _ - rfl
    rcases hclose : closeQuote (file.drop i) with _ | ⟨v, behind⟩
    · refine (does_quietly_of_run fun m hm ↦ strchrAt_run_none
        (by rw [hm]; exact hclean.text hi) hclose).mono ?_
      rintro _ _ - ⟨rfl, rfl⟩
      exact ⟨rfl, by rintro _ ⟨⟩⟩
    · obtain ⟨hdrop, hquote, hnul⟩ := closeQuote_eq_some hclose
      refine (does_quietly_of_run fun m hm ↦ strchrAt_run
        (by rw [hm]; exact hclean.text hi) hclose).mono ?_
      rintro _ _ - ⟨rfl, rfl⟩
      refine ⟨rfl, ?_⟩
      rintro _ ⟨⟩
      exact ⟨v, behind, hdrop, hquote, hnul, rfl⟩

/-! ### White space -/

theorem does_whitespaceLoop {s left cidx : ℕ} (hn : s + cidx + left ≤ file.length)
    (h : Ready file buf (s + cidx)) :
    Does file buf (whitespaceLoop s left cidx) fun k buf' ↦
      buf' = buf ∧ cidx ≤ k ∧ k ≤ cidx + left ∧ Ready file buf (s + k) ∧
      (cidx < k → ∃ b, file[s + k - 1]? = some b ∧ isspace b = true) := by
  induction left generalizing cidx with
  | zero => exact .pure ⟨rfl, le_rfl, le_rfl, h, fun hlt ↦ absurd hlt (lt_irrefl _)⟩
  | succ left ih =>
    refine (does_byteAt (h.untouched (by omega))).bind ?_
    rintro b _ - ⟨hb, rfl⟩
    refine .ite (fun hspace ↦ ?_) fun _ ↦
      .pure ⟨rfl, le_rfl, by omega, h, fun hlt ↦ absurd hlt (lt_irrefl _)⟩
    have hclean : Clean file _ (s + cidx) := h.clean hb fun hquote ↦ by
      rw [hquote] at hspace
      exact absurd hspace (by decide)
    have hbyte : file[s + cidx]? = some b := getElem?_of_ne_zero hb fun hnul ↦ by
      rw [hnul] at hspace
      exact absurd hspace (by decide)
    refine (ih (by omega) (Or.inl (hclean.mono (by omega)))).mono ?_
    rintro k _ - ⟨rfl, hle, hle', hready, hspaces⟩
    refine ⟨rfl, by omega, by omega, hready, fun _ ↦ ?_⟩
    rcases hle.eq_or_lt with rfl | hlt
    · exact ⟨b, by rw [show s + (cidx + 1) - 1 = s + cidx by omega, hbyte], hspace⟩
    · exact hspaces hlt

theorem does_getWhitespaceLen {s strLen : ℕ} (hn : s + strLen ≤ file.length)
    (h : Ready file buf s) :
    Does file buf (getWhitespaceLen s strLen) fun k buf' ↦ buf' = buf ∧ k ≤ strLen ∧
      Ready file buf (s + k) ∧ (0 < k → ∃ b, file[s + k - 1]? = some b ∧ isspace b = true) := by
  refine (@does_whitespaceLoop file buf s strLen 0 (by omega) h).mono ?_
  rintro k _ - ⟨rfl, -, hle, hready, hspace⟩
  exact ⟨rfl, by omega, hready, hspace⟩

section

variable {json jsonlen cidx : ℕ} (hlt : file.length < 2 ^ 32) (hn : json + jsonlen = file.length)

include hlt hn

theorem does_skipWhitespace (hle : cidx ≤ jsonlen) (h : Ready file buf (json + cidx)) :
    Does file buf (skipWhitespace json jsonlen cidx) fun k buf' ↦ buf' = buf ∧ cidx ≤ k ∧
      k ≤ jsonlen ∧ Ready file buf (json + k) ∧
      (cidx < k → ∃ b, file[json + k - 1]? = some b ∧ isspace b = true) := by
  refine (does_remaining hle (by omega)).bind ?_
  rintro _ _ - ⟨rfl, rfl⟩
  refine (does_getWhitespaceLen (by omega) h).bind ?_
  rintro len _ - ⟨rfl, hlen, hready, hspace⟩
  refine (does_advance (by omega)).mono ?_
  rintro _ _ - ⟨rfl, rfl⟩
  rw [Nat.add_assoc] at hready hspace
  exact ⟨rfl, by omega, by omega, hready, fun hmoved ↦ hspace (by omega)⟩

/-! ### Pairs -/

omit hlt hn

/-- What `parsePair` leaves: behind a pair the text is untouched, its key and value are strings, and
before a value that is no string there is the colon or white space. -/
structure PairAt (file : Bytes) (json jsonlen : ℕ) (pair : PairResult) (buf : Bytes) : Prop where
  le : pair.len ≤ jsonlen
  ready : pair.len = 0 → Ready file buf json
  clean : 0 < pair.len → Clean file buf (json + pair.len)
  key : 0 < pair.len → ∃ key, pair.key = some key ∧ IsString file buf key
  value : 0 < pair.len → ∀ value, pair.value = some value → IsString file buf value
  before : 0 < pair.len → pair.value = none →
    ∃ b, file[json + pair.len - 1]? = some b ∧ b ≠ 34 ∧ b ≠ 44

theorem PairAt.failed (h : Ready file buf json) (key value : Option ℕ) :
    PairAt file json jsonlen ⟨0, key, value⟩ buf where
  le := Nat.zero_le _
  ready _ := h
  clean h := absurd h (lt_irrefl 0)
  key h := absurd h (lt_irrefl 0)
  value h := absurd h (lt_irrefl 0)
  before h := absurd h (lt_irrefl 0)

theorem PairAt.isString {pair : PairResult} (h : PairAt file json jsonlen pair buf)
    (hlen : 0 < pair.len) {key : ℕ} (hkey : pair.key = some key) : IsString file buf key := by
  obtain ⟨key', hkey', hstring⟩ := h.key hlen
  rw [hkey] at hkey'
  rwa [Option.some.inj hkey']

/-- A byte of white space is neither a quote nor a comma. -/
theorem ne_of_isspace {b : UInt8} (h : isspace b = true) : b ≠ 34 ∧ b ≠ 44 := by
  constructor <;> rintro rfl <;> exact absurd h (by decide)

include hlt hn

theorem does_parsePairValue {key : ℕ} (hle : cidx ≤ jsonlen) (hpos : 0 < cidx)
    (hclean : Clean file buf (json + cidx)) (hcolon : file[json + cidx - 1]? = some 58)
    (hopen : file[json]? = some 34 ∧ buf[json]? = some 34) (hkey : IsString file buf key) :
    Does file buf (parsePairValue json jsonlen cidx key) (PairAt file json jsonlen) := by
  refine (does_skipWhitespace hlt hn hle (Or.inl hclean)).bind ?_
  rintro k _ - ⟨rfl, hle', hlen, -, hspace⟩
  replace hclean := hclean.mono (Nat.add_le_add_left hle' json)
  have hbefore : ∃ b, file[json + k - 1]? = some b ∧ b ≠ 34 ∧ b ≠ 44 := by
    rcases hle'.eq_or_lt with rfl | hmoved
    · exact ⟨58, hcolon, by decide⟩
    · obtain ⟨b, hb, hb'⟩ := hspace hmoved
      exact ⟨b, hb, ne_of_isspace hb'⟩
  have hnone : PairAt file json jsonlen ⟨k, some key, none⟩ _ :=
    ⟨hlen, fun h ↦ by simp only at h; omega, fun _ ↦ hclean, fun _ ↦ ⟨key, rfl, hkey⟩,
      fun _ _ h ↦ (Option.some_ne_none _ h.symm).elim, fun _ _ ↦ hbefore⟩
  refine .ite (fun _ ↦ .pure hnone) fun hk ↦ ?_
  refine (does_byteAt (hclean.untouched (by omega))).bind ?_
  rintro b _ - ⟨hb, rfl⟩
  refine .ite (fun hquote ↦ ?_) fun _ ↦
    .ite (fun _ ↦ .pure (.failed (Or.inr hopen) _ _)) fun _ ↦ .pure hnone
  rw [hquote] at hb
  have hb := getElem?_of_ne_zero hb (by decide)
  refine (does_advance (by omega)).bind ?_
  rintro _ _ - ⟨rfl, rfl⟩
  refine (does_strchrAt (hclean.mono (by omega)) (by omega)).bind ?_
  rintro found _ - ⟨rfl, hfound⟩
  rcases found with _ | endString
  · exact .pure (.failed (Or.inr hopen) _ _)
  obtain ⟨v, behind, hdrop, hv, hnul, rfl⟩ := hfound endString rfl
  have hlen' := congrArg List.length hdrop
  rw [List.length_drop, List.length_append, List.length_cons] at hlen'
  simp only [Nat.add_sub_cancel_left]
  refine (does_advance (by omega)).bind ?_
  rintro _ _ - ⟨rfl, rfl⟩
  -- the closing quote becomes the end of the string
  rw [show json + (k + 1 + v.length) = json + (k + 1) + v.length from (Nat.add_assoc ..).symm]
  refine (does_nulAt ?_).bind ?_
  · rw [← List.getElem?_drop, hdrop, List.getElem?_append_right le_rfl, Nat.sub_self]
    rfl
  rintro _ _ hnulled rfl
  refine (does_advance (by omega)).bind ?_
  rintro _ _ - ⟨rfl, rfl⟩
  have hback := (hclean.mono (j := json + (k + 1 + v.length + 1)) (by omega)).set
    (show json + (k + 1) + v.length < json + (k + 1 + v.length + 1) by omega) 0
  refine (does_skipWhitespace hlt hn (by omega) (Or.inl hback)).bind ?_
  rintro len _ - ⟨rfl, hle'', hlen'', -, -⟩
  have hslice : Slice file (json + (k + 1)) v := Slice.of_drop hb hdrop hv
  refine .pure ⟨hlen'', fun h ↦ by simp only at h; omega, fun _ ↦ hback.mono (by simp only; omega),
    fun _ ↦ ⟨key, rfl, hkey.mono hnulled⟩, ?_, fun _ h ↦ (Option.some_ne_none _ h).elim⟩
  · rintro _ _ ⟨⟩
    exact (hclean.mono (by omega)).isString hslice hdrop hnul

theorem does_parsePairColon {key : ℕ} (hle : cidx ≤ jsonlen) (hclean : Clean file buf (json + cidx))
    (hopen : file[json]? = some 34 ∧ buf[json]? = some 34) (hkey : IsString file buf key) :
    Does file buf (parsePairColon json jsonlen cidx key) fun pair buf' ↦
      PairAt file json jsonlen pair buf' ∧ IsString file buf' key := by
  refine (does_skipWhitespace hlt hn hle (Or.inl hclean)).bind ?_
  rintro k _ - ⟨rfl, hle', hlen, -, -⟩
  replace hclean := hclean.mono (Nat.add_le_add_left hle' json)
  have hfailed : PairAt file json jsonlen ⟨0, some key, none⟩ _ := .failed (Or.inr hopen) _ _
  refine .ite (fun _ ↦ .pure ⟨hfailed, hkey⟩) fun hk ↦ ?_
  refine (does_byteAt (hclean.untouched (by omega))).bind ?_
  rintro b _ - ⟨hb, rfl⟩
  refine .ite (fun _ ↦ ?_) fun hcolon ↦ ?_
  · refine (does_note_advance (by omega)).bind ?_
    rintro _ _ - rfl
    exact .pure ⟨hfailed, hkey⟩
  rw [not_not.1 hcolon] at hb
  refine (does_advance (by omega)).bind ?_
  rintro _ _ - ⟨rfl, rfl⟩
  refine (does_parsePairValue hlt hn (by omega) (Nat.succ_pos k) (hclean.mono (by omega)) ?_ hopen
    hkey).mono fun pair buf' hnulled hpair ↦ ⟨hpair, hkey.mono hnulled⟩
  exact getElem?_of_ne_zero hb (by decide)

theorem does_parsePair (hclean : Clean file buf json) :
    Does file buf (parsePair json jsonlen) (PairAt file json jsonlen) := by
  have hfailed : PairAt file json jsonlen ⟨0, none, none⟩ buf := .failed (Or.inl hclean) _ _
  refine does_call (.ite (fun _ ↦ .pure hfailed) fun hpos ↦ ?_)
  refine (does_byteAt (hclean.untouched (by omega))).bind ?_
  rintro b _ - ⟨hb, rfl⟩
  refine (does_note_advance (by omega)).bind ?_
  rintro _ _ - rfl
  refine .ite (fun _ ↦ .pure hfailed) fun hquote ↦ ?_
  rw [not_not.1 hquote] at hb
  have hopen := hclean json le_rfl
  rw [hb] at hopen
  replace hb := getElem?_of_ne_zero hb (by decide)
  refine (does_strchrAt (hclean.mono (Nat.le_succ json)) (by omega)).bind ?_
  rintro found _ - ⟨rfl, hfound⟩
  rcases found with _ | endString
  · exact .pure hfailed
  obtain ⟨v, behind, hdrop, hv, hnul, rfl⟩ := hfound endString rfl
  have hlen := congrArg List.length hdrop
  rw [List.length_drop, List.length_append, List.length_cons] at hlen
  simp only [Nat.add_sub_cancel_left]
  refine .ite (fun _ ↦ by omega) fun _ ↦ (does_advance (by omega)).bind ?_
  rintro _ _ - ⟨rfl, rfl⟩
  -- the closing quote becomes the end of the key; the opening one stays
  rw [show json + (1 + v.length) = json + 1 + v.length from (Nat.add_assoc ..).symm]
  refine (does_nulAt ?_).bind ?_
  · rw [← List.getElem?_drop, hdrop, List.getElem?_append_right le_rfl, Nat.sub_self]
    rfl
  rintro _ _ - rfl
  refine (does_advance (by omega)).bind ?_
  rintro _ _ - ⟨rfl, rfl⟩
  have hback := (hclean.mono (j := json + (1 + v.length + 1)) (by omega)).set
    (show json + 1 + v.length < json + (1 + v.length + 1) by omega) 0
  have hopen' := (List.getElem?_set_ne (a := (0 : UInt8))
    (show json + 1 + v.length ≠ json by omega)).trans hopen
  have hkey := (hclean.mono (Nat.le_succ json)).isString (Slice.of_drop hb hdrop hv) hdrop hnul
  refine (does_parsePairColon hlt hn (by omega) hback ⟨hb, hopen'⟩ hkey).bind ?_
  rintro pair _ - ⟨hpair, hkey'⟩
  refine (does_note_use hkey').bind ?_
  rintro _ _ - rfl
  exact .pure hpair

theorem does_nextPair (hle : cidx ≤ jsonlen) (hclean : Clean file buf (json + cidx)) :
    Does file buf (nextPair json jsonlen cidx) fun r buf' ↦ cidx ≤ r.1 ∧ r.1 ≤ jsonlen ∧
      PairAt file (json + r.1) (jsonlen - r.1) r.2 buf' := by
  refine (does_skipWhitespace hlt hn hle (Or.inl hclean)).bind ?_
  rintro k _ - ⟨rfl, hle', hlen, -, -⟩
  refine (does_remaining hlen (by omega)).bind ?_
  rintro _ _ - ⟨rfl, rfl⟩
  refine (does_parsePair hlt (by omega) (hclean.mono (by omega))).bind ?_
  rintro pair buf' - hpair
  exact .pure ⟨hle', hlen, hpair⟩

/-! ### The ends of a round -/

omit hlt hn in
/-- What the test for a comma returns: there is another round behind a comma, and without one the
cursor stays where it is. -/
structure CommaAt (file : Bytes) (json jsonlen cidx : ℕ) (r : Bool × ℕ) : Prop where
  le : r.2 ≤ jsonlen
  more : r.1 = true → file[json + cidx]? = some 44 ∧ r.2 = cidx + 1
  done : r.1 = false → 0 < cidx → r.2 = cidx

omit hlt hn in
theorem CommaAt.none (hle : cidx ≤ jsonlen) : CommaAt file json jsonlen cidx (false, cidx) :=
  ⟨hle, fun h ↦ absurd h Bool.false_ne_true, fun _ _ ↦ rfl⟩

theorem does_commaAt (hle : cidx ≤ jsonlen)
    (hbyte : Untouched file buf (json + cidx) (json + cidx)) :
    Does file buf (commaAt json cidx) fun r buf' ↦
      buf' = buf ∧ CommaAt file json jsonlen cidx r := by
  refine (does_byteAt hbyte).bind ?_
  rintro b _ - ⟨hb, rfl⟩
  refine .ite (fun hcomma ↦ ?_) fun _ ↦ .pure ⟨rfl, .none hle⟩
  rw [hcomma] at hb
  replace hb := getElem?_of_ne_zero hb (by decide)
  have hlt' := (List.getElem?_eq_some_iff.1 hb).1
  refine (does_advance (by omega)).bind ?_
  rintro _ _ - ⟨rfl, rfl⟩
  have hle' : cidx + 1 ≤ jsonlen := by omega
  refine .pure ⟨rfl, hle', fun _ ↦ ⟨hb, rfl⟩, fun hfalse hpos ↦ ?_⟩
  exact absurd (of_decide_eq_false hfalse) (not_not_intro hpos.ne')

theorem does_commaWithin (hle : cidx ≤ jsonlen)
    (hbyte : Untouched file buf (json + cidx) (json + cidx)) :
    Does file buf (commaWithin json jsonlen cidx) fun r buf' ↦
      buf' = buf ∧ CommaAt file json jsonlen cidx r :=
  .ite (fun _ ↦ does_commaAt hlt hn hle hbyte) fun _ ↦ .pure ⟨rfl, .none hle⟩

theorem does_closingBracket (h : Ready file buf (json + cidx)) :
    Does file buf (closingBracket json jsonlen cidx) fun len buf' ↦ buf' = buf ∧
      ∀ k, len = some k → k ≤ jsonlen ∧ 0 < k ∧ Clean file buf (json + k) := by
  refine .ite (fun _ ↦ .pure ⟨rfl, by rintro _ ⟨⟩⟩) fun hk ↦ ?_
  refine (does_byteAt (h.untouched (by omega))).bind ?_
  rintro b _ - ⟨hb, rfl⟩
  refine .ite (fun _ ↦ ?_) fun hclose ↦ ?_
  · refine (does_note_advance (by omega)).bind ?_
    rintro _ _ - rfl
    exact .pure ⟨rfl, by rintro _ ⟨⟩⟩
  rw [not_not.1 hclose] at hb
  refine (does_advance (by omega)).bind ?_
  rintro _ _ - ⟨rfl, rfl⟩
  refine .pure ⟨rfl, ?_⟩
  rintro _ ⟨⟩
  exact ⟨by omega, Nat.succ_pos _, (h.clean hb (by decide)).mono (by omega)⟩

/-! ### Items -/

omit hlt hn in
theorem does_readData {key value : ℕ} (hkey : IsString file buf key)
    (hvalue : IsString file buf value) (itemValue : Bytes) :
    Does file buf (readData key value itemValue) fun _ buf' ↦ buf' = buf := by
  refine (does_cStringAt hkey).bind ?_
  rintro _ _ - ⟨-, rfl⟩
  refine .ite (fun _ ↦ ?_) fun _ ↦ .pure rfl
  refine (does_cStringAt hvalue).bind ?_
  rintro _ _ - ⟨-, rfl⟩
  exact .pure rfl

omit hlt hn in
/-- The cursor is set back in a call that then returns an error. -/
theorem does_reset (cidx : ℕ) (a : α) :
    Does file buf (do
      note (.reset cidx)
      leaving true a) fun a' buf' ↦ a' = a ∧ buf' = buf := by
  rintro t ht rfl
  refine ⟨⟨ht.buffer, ?_, fun hw ↦ ?_, fun hw ↦ ?_⟩, refl_of _ _, ?_⟩
  · show ∀ s ∈ t.log ++ [(⟨.reset cidx, t.state.json⟩ : Step)] ++
      [(⟨.leave true, t.state.json⟩ : Step)], s.InPlace file
    intro s hs
    rcases List.mem_append.1 hs with hs | hs
    · rcases List.mem_append.1 hs with hs | hs
      · exact ht.steps s hs
      · rw [List.mem_singleton.1 hs]
        exact ⟨ht.buffer, trivial⟩
    · rw [List.mem_singleton.1 hs]
      exact ⟨ht.buffer, trivial⟩
  · show CursorsSound ((t.log ++ [(⟨.reset cidx, t.state.json⟩ : Step)] ++
      [(⟨.leave true, t.state.json⟩ : Step)]).map Step.event)
    rw [List.map_append, List.map_append]
    exact (ht.sound hw).reset cidx
  · obtain ⟨s, hs, hover⟩ := ht.overflow hw
    exact ⟨s, List.mem_append_left _ (List.mem_append_left _ hs), hover⟩
  · rintro _ ⟨⟩
    exact ⟨rfl, rfl⟩

omit hlt hn in
/-- Behind an item whose length is not 0 the caller may go on. -/
structure ItemAt (file : Bytes) (json jsonlen len : ℕ) (buf : Bytes) : Prop where
  le : len ≤ jsonlen
  ready : 0 < len → Ready file buf (json + len)

theorem does_parseItemEnd (h : Ready file buf (json + cidx)) (itemValue : Bytes) :
    Does file buf (parseItemEnd json jsonlen cidx itemValue) fun r ↦
      ItemAt file json jsonlen r.1 := by
  refine (does_closingBracket hlt hn h).bind ?_
  rintro len _ - ⟨rfl, hlen⟩
  cases len with
  | none =>
    refine (does_reset _ ((0 : ℕ), itemValue)).mono ?_
    rintro _ _ - ⟨rfl, rfl⟩
    exact ⟨Nat.zero_le _, fun h ↦ absurd h (lt_irrefl 0)⟩
  | some len =>
    obtain ⟨hle, -, hclean⟩ := hlen len rfl
    exact does_leaving ⟨hle, fun _ ↦ Or.inl hclean⟩

theorem does_parseItemLoop (fuel : ℕ) (hle : cidx ≤ jsonlen) (hpos : 0 < cidx)
    (hclean : Clean file buf (json + cidx)) (itemValue : Bytes) :
    Does file buf (parseItemLoop fuel json jsonlen cidx itemValue) fun r ↦
      ItemAt file json jsonlen r.1 := by
  induction fuel generalizing cidx buf itemValue with
  | zero => exact .stop _
  | succ fuel ih =>
    refine (does_nextPair hlt hn hle hclean).bind ?_
    rintro ⟨k, len, key, value⟩ buf - ⟨hle', hk, hpair⟩
    have hlen : len ≤ jsonlen - k := hpair.le
    refine (does_advance (n := len) (by omega)).bind ?_
    rintro _ buf - ⟨rfl, rfl⟩
    -- the item ends where no pair with a string can be read
    have hready : Ready file buf (json + (k + len)) := by
      rw [← Nat.add_assoc]
      rcases Nat.eq_zero_or_pos len with rfl | hlen'
      · exact hpair.ready rfl
      · exact Or.inl (hpair.clean hlen')
    rcases len with _ | len <;> rcases key with _ | key <;> rcases value with _ | value
    case succ.some.some =>
      have hback := hpair.clean (Nat.succ_pos len)
      refine (does_readData (hpair.isString (Nat.succ_pos len) rfl)
        (hpair.value (Nat.succ_pos len) value rfl) itemValue).bind ?_
      rintro itemValue _ - rfl
      refine (does_skipWhitespace hlt hn (by omega) hready).bind ?_
      rintro k' _ - ⟨rfl, hle'', hk', hready', -⟩
      refine (does_commaWithin hlt hn hk' (hready'.untouched (by omega))).bind ?_
      rintro ⟨more, k''⟩ _ - ⟨rfl, hcomma⟩
      refine .ite (fun h ↦ ?_) fun h ↦ ?_
      · obtain ⟨hbyte, rfl⟩ := hcomma.more h
        exact ih hcomma.le (Nat.succ_pos k')
          ((hready'.clean_of_comma hbyte).mono (by omega)) itemValue
      obtain rfl : k'' = k' := hcomma.done (eq_false_of_ne_true h) (by omega)
      exact does_parseItemEnd hlt hn hready' itemValue
    all_goals exact does_leaving ⟨by simp only; omega, fun _ ↦ hready⟩

theorem does_parseItem (fuel : ℕ) (hclean : Clean file buf json) (itemValue : Bytes) :
    Does file buf (parseItem fuel json jsonlen itemValue) fun r ↦ ItemAt file json jsonlen r.1 := by
  refine (does_note (e := .enter) trivial not_false not_false).bind ?_
  rintro _ _ - rfl
  refine .ite (fun _ ↦ does_leaving ⟨Nat.zero_le _, fun h ↦ absurd h (lt_irrefl 0)⟩) fun hpos ↦ ?_
  refine (does_byteAt (hclean.untouched (by omega))).bind ?_
  rintro b _ - ⟨-, rfl⟩
  refine (does_note_advance (by omega)).bind ?_
  rintro _ _ - rfl
  have hback := hclean.mono (Nat.le_succ json)
  refine .ite (fun _ ↦ does_leaving ⟨by simp only; omega, fun _ ↦ Or.inl hback⟩) fun _ ↦ ?_
  exact does_parseItemLoop hlt hn fuel (by omega) Nat.one_pos hback itemValue

theorem does_readItem (fuel : ℕ) {grpName key : ℕ} (hgrp : IsString file buf grpName)
    (hkey : IsString file buf key) (hclean : Clean file buf json) :
    Does file buf (readItem fuel grpName key json jsonlen) (ItemAt file json jsonlen) := by
  refine does_read.bind ?_
  rintro localValue _ - rfl
  refine (does_modify (f := fun m ↦ { m with items := m.items + 1 }) (fun _ ↦ rfl)
    fun _ ↦ rfl).bind ?_
  rintro _ _ - rfl
  refine (does_parseItem hlt hn fuel hclean localValue).bind ?_
  rintro ⟨len, localValue⟩ buf hnulled hitem
  refine (does_cStringAt (hgrp.mono hnulled)).bind ?_
  rintro grpName _ - ⟨-, rfl⟩
  refine (does_cStringAt (hkey.mono hnulled)).bind ?_
  rintro key _ - ⟨-, rfl⟩
  refine (does_modify (f := fun m ↦
    { m with parser := m.parser.updateSensingHubInfo grpName key localValue }) (fun _ ↦ rfl)
      fun _ ↦ rfl).bind ?_
  rintro _ _ - rfl
  exact .pure hitem

end

/-! ### Groups -/

/-- Behind a group the text is untouched. -/
def GroupAt (file : Bytes) (json jsonlen : ℕ) (r : Option ℕ) (buf : Bytes) : Prop :=
  ∀ len, r = some len → len ≤ jsonlen ∧ 0 < len ∧ Clean file buf (json + len)

theorem does_logOwner {key value : ℕ} (hkey : IsString file buf key)
    (hvalue : IsString file buf value) :
    Does file buf (logOwner key value) fun _ buf' ↦ buf' = buf := by
  refine (does_note_use hkey).bind ?_
  rintro _ buf - rfl
  refine Prog.Ensures.bind (q := fun _ buf' ↦ buf' = buf) (.read fun _ _ _ ↦ rfl) ?_
  rintro owner _ - rfl
  exact .ite (fun _ ↦ does_note_use hvalue) fun _ ↦ .pure rfl

section

variable {loop : (grpName json jsonlen cidx : ℕ) → JournalM (Option ℕ)} (hlt : file.length < 2 ^ 32)
  (hloop : ∀ {buf : Bytes} {grpName json jsonlen cidx : ℕ}, IsString file buf grpName →
    json + jsonlen = file.length → cidx ≤ jsonlen → Clean file buf (json + cidx) →
    Does file buf (loop grpName json jsonlen cidx) (GroupAt file json jsonlen))
  {grpName json jsonlen cidx : ℕ} (hn : json + jsonlen = file.length)

include hloop hn

theorem does_parseGroupWith (hgrp : IsString file buf grpName) (hclean : Clean file buf json) :
    Does file buf (parseGroupWith loop grpName json jsonlen) (GroupAt file json jsonlen) := by
  have hfailed (buf : Bytes) : GroupAt file json jsonlen none buf := by
    rintro _ ⟨⟩
  refine does_call (.ite (fun _ ↦ .pure (hfailed _)) fun hpos ↦ ?_)
  refine (does_byteAt (hclean.untouched (by omega))).bind ?_
  rintro b _ - ⟨-, rfl⟩
  refine (does_note_advance (by omega)).bind ?_
  rintro _ _ - rfl
  exact .ite (fun _ ↦ .pure (hfailed _)) fun _ ↦
    hloop hgrp hn (by omega) (hclean.mono (Nat.le_succ json))

include hlt

theorem does_parseNested (fuel : ℕ) {key : ℕ} (hgrp : IsString file buf grpName)
    (hkey : IsString file buf key) (hclean : Clean file buf json) :
    Does file buf (parseNested loop fuel grpName key json jsonlen) fun r buf' ↦
      ∀ len, r = some len → ItemAt file json jsonlen len buf' := by
  refine (does_firstOf hkey).bind ?_
  rintro b _ - rfl
  refine .ite (fun _ ↦ ?_) fun _ ↦ ?_
  · refine (does_parseGroupWith hloop hn hkey hclean).mono ?_
    rintro r buf - hgroup len rfl
    obtain ⟨hle, -, hclean⟩ := hgroup len rfl
    exact ⟨hle, fun _ ↦ Or.inl hclean⟩
  · refine (does_readItem hlt hn fuel hgrp hkey hclean).bind ?_
    rintro len buf - hitem
    refine .pure ?_
    rintro _ ⟨⟩
    exact hitem

theorem does_parseGroupMember (fuel : ℕ) (hgrp : IsString file buf grpName) (hle : cidx ≤ jsonlen)
    (hclean : Clean file buf (json + cidx)) :
    Does file buf (parseGroupMember loop fuel grpName json jsonlen cidx) fun r buf' ↦
      ∀ k, r = some k → k ≤ jsonlen ∧ 0 < k ∧ Ready file buf' (json + k) := by
  have hfailed (buf : Bytes) : ∀ k, (none : Option ℕ) = some k →
      k ≤ jsonlen ∧ 0 < k ∧ Ready file buf (json + k) := by
    rintro _ ⟨⟩
  refine (does_nextPair hlt hn hle hclean).bind ?_
  rintro ⟨k, len, key, value⟩ buf hnulled ⟨-, hk, hpair⟩
  have hlen : len ≤ jsonlen - k := hpair.le
  refine (does_advance (n := len) (by omega)).bind ?_
  rintro _ buf - ⟨rfl, rfl⟩
  rcases len with _ | len <;> rcases key with _ | key <;> rcases value with _ | value
  -- a pair with a string is only logged
  case succ.some.some =>
    have hback := hpair.clean (Nat.succ_pos len)
    refine (does_logOwner (hpair.isString (Nat.succ_pos len) rfl)
      (hpair.value (Nat.succ_pos len) value rfl)).bind ?_
    rintro _ _ - rfl
    refine .pure ?_
    rintro _ ⟨⟩
    exact ⟨by omega, by omega, Or.inl (by rwa [← Nat.add_assoc])⟩
  -- an object or an array is an item or a nested group
  case succ.some.none =>
    have hback := hpair.clean (Nat.succ_pos len)
    have hkey := hpair.isString (Nat.succ_pos len) rfl
    have hk' : json + k + (len + 1) = json + (k + (len + 1)) := Nat.add_assoc ..
    simp only [hk'] at hback
    refine (does_remaining (by omega) (by omega)).bind ?_
    rintro _ buf - ⟨rfl, rfl⟩
    refine (does_parseNested hlt hloop (by omega) fuel (hgrp.mono hnulled) hkey hback).bind ?_
    rintro nested buf hnulled' hnested
    rcases nested with _ | _ | inner
    · refine (does_note_use (hkey.mono hnulled')).bind ?_
      rintro _ _ - rfl
      exact .pure (hfailed _)
    · refine (does_note_use (hkey.mono hnulled')).bind ?_
      rintro _ _ - rfl
      exact .pure (hfailed _)
    · obtain ⟨hinner, hready⟩ := hnested _ rfl
      refine (does_advance (by omega)).bind ?_
      rintro _ _ - ⟨rfl, rfl⟩
      refine .pure ?_
      rintro _ ⟨⟩
      refine ⟨by omega, by omega, ?_⟩
      rw [← Nat.add_assoc]
      exact hready (Nat.succ_pos inner)
  all_goals exact .pure (hfailed _)

end

theorem does_parseGroupLoop (hlt : file.length < 2 ^ 32) (fuel : ℕ)
    {grpName json jsonlen cidx : ℕ} (hgrp : IsString file buf grpName)
    (hn : json + jsonlen = file.length) (hle : cidx ≤ jsonlen)
    (hclean : Clean file buf (json + cidx)) :
    Does file buf (parseGroupLoop fuel grpName json jsonlen cidx) (GroupAt file json jsonlen) := by
  induction fuel generalizing buf grpName json jsonlen cidx with
  | zero => exact .stop _
  | succ fuel ih =>
    refine (does_parseGroupMember hlt ih hn fuel hgrp hle hclean).bind ?_
    rintro next buf hnulled hnext
    cases next with
    | none =>
      refine .pure ?_
      rintro _ ⟨⟩
    | some k =>
      obtain ⟨hk, hpos, hready⟩ := hnext k rfl
      refine (does_skipWhitespace hlt hn hk hready).bind ?_
      rintro k' _ hnulled' ⟨rfl, hle', hk', hready', -⟩
      refine (does_commaAt hlt hn hk' (hready'.untouched (by omega))).bind ?_
      rintro ⟨more, k''⟩ _ hnulled'' ⟨rfl, hcomma⟩
      refine .ite (fun h ↦ ?_) fun h ↦ ?_
      · obtain ⟨hbyte, rfl⟩ := hcomma.more h
        exact ih (hgrp.mono hnulled) hn hcomma.le
          ((hready'.clean_of_comma hbyte).mono (by omega))
      obtain rfl : k'' = k' := hcomma.done (eq_false_of_ne_true h) (by omega)
      refine (does_closingBracket hlt hn hready').mono ?_
      rintro r _ - ⟨rfl, hr⟩
      exact hr

theorem does_parseGroup (hlt : file.length < 2 ^ 32) (fuel : ℕ) {grpName json jsonlen : ℕ}
    (hgrp : IsString file buf grpName) (hn : json + jsonlen = file.length)
    (hclean : Clean file buf json) :
    Does file buf (parseGroup fuel grpName json jsonlen) (GroupAt file json jsonlen) :=
  does_parseGroupWith (does_parseGroupLoop hlt fuel) hn hgrp hclean

end Journal

end SensingHub.Json
