import SensingHub.Json.Memory
import SensingHub.Json.Traced

/-!
# The parser stays inside its buffer

Several accesses of the parser have no test of their own: the comma behind a member of a group, the
brackets of a config section, the scans of `strchr`. What keeps them inside the buffer is that every
function gets as remaining length what is left from its start to the end of the text, that its
cursor never passes that length, and that a NUL stands behind the text, where nothing is written.
The bytes that are looked for are none, so that the cursor only steps over bytes of the text.

The invariant is about the record of the traced parser; the triples for its functions say where
their results point.
-/

namespace SensingHub.Json

/-! ### What is wanted -/

/-- An access to a buffer with a text of `n` bytes and a NUL behind it. -/
def Access.Within (n : ℕ) : Access → Prop
  | .read first last => first ≤ n ∧ last ≤ n
  | .write i => i < n
  | .call start len => start ≤ n ∧ len = n - start

/-- The buffer ends with a NUL, and the accesses so far have been within it. -/
structure InBounds (n : ℕ) (t : Logged Machine Access) : Prop where
  length : t.state.json.length = n + 1
  nul : t.state.json[n]? = some 0
  within : ∀ a ∈ t.log, a.Within n

/-- A function that stays within the buffer; what it returns has `P`. -/
abbrev Safe {α : Type} (n : ℕ) (x : TracedM α) (P : α → Prop) : Prop :=
  Prog.Keeps (InBounds n) (· ≠ .outOfBounds) x P

theorem InBounds.record {n : ℕ} {t : Logged Machine Access} (ht : InBounds n t) {a : Access}
    (ha : a.Within n) : InBounds n { t with log := t.log ++ [a] } := by
  refine ⟨ht.length, ht.nul, fun b hb ↦ ?_⟩
  rcases List.mem_append.1 hb with hb | hb
  · exact ht.within b hb
  · rwa [List.mem_singleton.1 hb]

namespace Traced

variable {n : ℕ} {α : Type} {P : α → Prop}

theorem safe_record {a : Access} (ha : a.Within n) : Safe n (Prog.record a) fun _ ↦ True :=
  Prog.Keeps.modify fun _ ht ↦ ht.record ha

/-! ### Memory -/

theorem safe_byteAt {i : ℕ} (h : i ≤ n) : Safe n (byteAt i) fun b ↦ b ≠ 0 → i < n := by
  refine (safe_record (a := .read i i) ⟨h, h⟩).bind fun _ _ ↦ Prog.Keeps.quietly fun log m hm ↦ ?_
  have hlen : m.json.length = n + 1 := hm.length
  have hlt : i < m.json.length := by omega
  rw [byteAt_of_getElem? (List.getElem?_eq_getElem hlt)]
  refine ⟨hm, ?_, ?_⟩
  · rintro b ⟨⟩ hb
    refine lt_of_le_of_ne h ?_
    rintro rfl
    have hnul : m.json[i]? = some 0 := hm.nul
    rw [List.getElem?_eq_getElem hlt] at hnul
    exact hb (Option.some.inj hnul)
  · rintro _ ⟨⟩

theorem safe_nulAt {i : ℕ} (h : i < n) : Safe n (nulAt i) fun _ ↦ True := by
  refine (safe_record (a := .write i) h).bind fun _ _ ↦ Prog.Keeps.quietly fun log m hm ↦ ?_
  have hlen : m.json.length = n + 1 := hm.length
  rw [nulAt_run (by omega)]
  refine ⟨⟨?_, ?_, hm.within⟩, fun _ _ ↦ trivial, ?_⟩
  · rw [← hlen]
    exact List.length_set
  · exact (List.getElem?_set_ne h.ne).trans hm.nul
  · rintro _ ⟨⟩

/-- A scan ends at the NUL behind the text at the latest. -/
theorem scanEnd_le {t : Logged Machine Access} (ht : InBounds n t) {i : ℕ} (h : i ≤ n) (c : UInt8) :
    scanEnd i c t.state.json ≤ n := by
  rw [scanEnd]
  by_contra hlt
  have hk : n - i < ((t.state.json.drop i).takeWhile fun b ↦ b ≠ c ∧ b ≠ 0).length := by omega
  have hmem := List.mem_takeWhile_imp (List.getElem_mem hk)
  have hnul := (List.takeWhile_prefix _).getElem hk
  have hbyte : t.state.json[i + (n - i)]? = some 0 := by
    rw [Nat.add_sub_cancel' h]
    exact ht.nul
  rw [← List.getElem?_drop,
    List.getElem?_eq_getElem (hk.trans_le (List.takeWhile_prefix _).length_le), ← hnul,
    Option.some_inj] at hbyte
  rw [hbyte] at hmem
  simp at hmem

theorem safe_scan {i : ℕ} (h : i ≤ n) (c : UInt8) : Safe n (scan i c) fun _ ↦ True := by
  refine fun t ht ↦ ⟨ht.record ⟨h, scanEnd_le ht h c⟩, fun _ _ ↦ trivial, ?_⟩
  rintro _ ⟨⟩

/-- The NUL behind the text, seen from an index. -/
theorem nul_drop {m : Machine} {log : List Access} (hm : InBounds n ⟨m, log⟩) {i : ℕ} (h : i ≤ n) :
    (m.json.drop i)[n - i]? = some 0 := by
  rw [List.getElem?_drop, Nat.add_sub_cancel' h]
  exact hm.nul

theorem safe_cStringAt {i : ℕ} (h : i ≤ n) : Safe n (cStringAt i) fun _ ↦ True := by
  refine (safe_scan h 0).bind fun _ _ ↦ Prog.Keeps.quietly fun log m hm ↦ ?_
  obtain ⟨s, hs⟩ := CLib.exists_cString_of_getElem? (nul_drop hm h)
  have hrun : Json.cStringAt i m = (.ok s, m) := by
    rw [Json.cStringAt, Prog.read_bind_run, hs]
    rfl
  rw [hrun]
  refine ⟨hm, fun _ _ ↦ trivial, ?_⟩
  rintro _ ⟨⟩

/-- A quote that is found stands in the text. -/
theorem safe_strchrAt {i : ℕ} (h : i ≤ n) :
    Safe n (strchrAt i 34) fun found ↦ ∀ j, found = some j → i ≤ j ∧ j < n := by
  refine (safe_scan h 34).bind fun _ _ ↦ Prog.Keeps.quietly fun log m hm ↦ ?_
  obtain ⟨found, hfound, hlt⟩ :=
    CLib.exists_strchr_of_getElem? (c := 34) (by decide) (nul_drop hm h)
  have hrun : Json.strchrAt i 34 m = (.ok (found.map (i + ·)), m) := by
    rw [Json.strchrAt, Prog.read_bind_run, hfound]
    rfl
  rw [hrun]
  refine ⟨hm, ?_, ?_⟩
  · rintro _ ⟨⟩ j hj
    obtain ⟨k, hk, rfl⟩ := Option.map_eq_some_iff.1 hj
    have := hlt k hk
    omega
  · rintro _ ⟨⟩

/-! ### Cursors -/

theorem safe_add {a b : ℕ} (h : a + b < 2 ^ 32) :
    Safe n (Prog.quietly (add a b)) fun c ↦ c = a + b := by
  refine Prog.Keeps.quietly fun log ↦ ?_
  rw [add, if_pos h]
  exact .pure rfl

theorem safe_sub {a b : ℕ} (hle : b ≤ a) (hlt : a < 2 ^ 32) :
    Safe n (Prog.quietly (sub a b)) fun c ↦ c = a - b := by
  refine Prog.Keeps.quietly fun log ↦ ?_
  rw [sub, if_pos ⟨hle, hlt⟩]
  exact .pure rfl

theorem safe_addInt {a b : ℤ} {c : ℕ} (h : a + b = c) (hlt : c < 2 ^ 31) :
    Safe n (Prog.quietly (addInt a b)) fun r ↦ r = (c : ℤ) := by
  refine Prog.Keeps.quietly fun log ↦ ?_
  rw [addInt, if_pos (by omega)]
  exact .pure h

theorem safe_pointer (json cidx : ℕ) :
    Safe n (Prog.quietly (pointer json cidx)) fun i ↦ i = json + cidx := by
  refine Prog.Keeps.quietly fun log ↦ ?_
  rw [pointer, if_neg (by omega)]
  exact .pure (by omega)

/-- An update of what is not the buffer. -/
theorem safe_modify {f : Machine → Machine} (h : ∀ m, (f m).json = m.json) :
    Safe n (Prog.quietly (Prog.modify f)) fun _ ↦ True :=
  Prog.Keeps.quietly fun _ ↦ Prog.Keeps.modify fun m hm ↦
    ⟨by rw [h]; exact hm.length, by rw [h]; exact hm.nul, hm.within⟩

theorem safe_read {f : Machine → α} : Safe n (Prog.quietly (Prog.read f)) fun _ ↦ True := by
  refine Prog.Keeps.quietly fun log m hm ↦ ⟨hm, fun _ _ ↦ trivial, ?_⟩
  rintro _ ⟨⟩

/-! ### White space and pairs -/

theorem safe_whitespaceLoop {s left cidx : ℕ} (h : s + cidx + left = n) :
    Safe n (whitespaceLoop s left cidx) fun c ↦ c ≤ cidx + left := by
  induction left generalizing cidx with
  | zero => exact .pure le_rfl
  | succ left ih =>
    refine (safe_byteAt (by omega)).bind fun b _ ↦ .ite (fun _ ↦ ?_) fun _ ↦ .pure (by omega)
    exact (ih (by omega)).mono fun c hc ↦ by omega

theorem safe_getWhitespaceLen {s strLen : ℕ} (h : s + strLen = n) :
    Safe n (getWhitespaceLen s strLen) fun len ↦ len ≤ strLen := by
  refine (safe_record (a := .call s strLen) ⟨by omega, by omega⟩).bind fun _ _ ↦ ?_
  exact (safe_whitespaceLoop (by omega)).mono fun c hc ↦ by omega

/-- What `parsePair` returns points into the text. -/
structure InText (n jsonlen : ℕ) (pair : PairResult) : Prop where
  len : pair.len ≤ jsonlen
  key : ∀ key, pair.key = some key → key ≤ n
  value : ∀ value, pair.value = some value → value ≤ n

section

variable {json jsonlen cidx : ℕ} (hlt : n < 2 ^ 31) (hn : json + jsonlen = n)

include hlt hn

theorem safe_skipWhitespace (h : cidx ≤ jsonlen) :
    Safe n (skipWhitespace json jsonlen cidx) fun c ↦ c ≤ jsonlen := by
  refine (safe_sub h (by omega)).bind ?_
  rintro _ rfl
  refine (safe_getWhitespaceLen (by omega)).bind fun len hlen ↦ ?_
  exact (safe_add (by omega)).mono fun c hc ↦ by omega

theorem safe_parsePairValue {key : ℕ} (hkey : key ≤ n) (h : cidx ≤ jsonlen) :
    Safe n (parsePairValue json jsonlen cidx key) (InText n jsonlen) := by
  have hnone : ∀ len ≤ jsonlen, InText n jsonlen ⟨len, some key, none⟩ := fun len hlen ↦
    ⟨hlen, by rintro _ ⟨⟩; exact hkey, by rintro _ ⟨⟩⟩
  have hsome : ∀ len ≤ jsonlen, ∀ value ≤ n, InText n jsonlen ⟨len, some key, some value⟩ :=
    fun len hlen value hvalue ↦
      ⟨hlen, by rintro _ ⟨⟩; exact hkey, by rintro _ ⟨⟩; exact hvalue⟩
  refine (safe_skipWhitespace hlt hn h).bind fun cidx h ↦
    .ite (fun _ ↦ .pure (hnone _ h)) fun _ ↦ ?_
  refine (safe_byteAt (by omega)).bind fun b _ ↦ .ite (fun _ ↦ ?_) fun _ ↦
    .ite (fun _ ↦ .pure (hnone 0 (Nat.zero_le _))) fun _ ↦ .pure (hnone _ h)
  refine (safe_add (by omega)).bind ?_
  rintro _ rfl
  refine (safe_strchrAt (by omega)).bind fun found hfound ↦ ?_
  cases found with
  | none => exact .pure (hsome 0 (Nat.zero_le _) _ (by omega))
  | some endString =>
    obtain ⟨hle, hend⟩ := hfound endString rfl
    refine (safe_add (by omega)).bind ?_
    rintro _ rfl
    refine (safe_nulAt (by omega)).bind fun _ _ ↦ (safe_add (by omega)).bind ?_
    rintro _ rfl
    exact (safe_skipWhitespace hlt hn (by omega)).bind fun len hlen ↦
      .pure (hsome _ hlen _ (by omega))

theorem safe_parsePairColon {key : ℕ} (hkey : key ≤ n) (h : cidx ≤ jsonlen) :
    Safe n (parsePairColon json jsonlen cidx key) (InText n jsonlen) := by
  have hfailed : InText n jsonlen ⟨0, some key, none⟩ :=
    ⟨Nat.zero_le _, by rintro _ ⟨⟩; exact hkey, by rintro _ ⟨⟩⟩
  refine (safe_skipWhitespace hlt hn h).bind fun cidx h ↦ .ite (fun _ ↦ .pure hfailed) fun _ ↦ ?_
  refine (safe_byteAt (by omega)).bind fun b _ ↦ .ite (fun _ ↦ .pure hfailed) fun _ ↦ ?_
  refine (safe_add (by omega)).bind ?_
  rintro _ rfl
  exact safe_parsePairValue hlt hn hkey (by omega)

theorem safe_parsePair : Safe n (parsePair json jsonlen) (InText n jsonlen) := by
  have hfailed : InText n jsonlen ⟨0, none, none⟩ :=
    ⟨Nat.zero_le _, by rintro _ ⟨⟩, by rintro _ ⟨⟩⟩
  refine (safe_record (a := .call json jsonlen) ⟨by omega, by omega⟩).bind fun _ _ ↦ ?_
  refine .ite (fun _ ↦ .pure hfailed) fun _ ↦ (safe_byteAt (by omega)).bind fun b _ ↦ ?_
  have hkey : json + 1 ≤ n := by omega
  refine .ite (fun _ ↦ .pure hfailed) fun _ ↦ (safe_strchrAt hkey).bind fun found hfound ↦ ?_
  cases found with
  | none => exact .pure hfailed
  | some endString =>
    obtain ⟨hle, hend⟩ := hfound endString rfl
    refine .ite (fun _ ↦ .pure ⟨Nat.zero_le _, by rintro _ ⟨⟩; exact hkey, by rintro _ ⟨⟩⟩)
      fun _ ↦ (safe_add (by omega)).bind ?_
    rintro _ rfl
    refine (safe_nulAt (by omega)).bind fun _ _ ↦ (safe_add (by omega)).bind ?_
    rintro _ rfl
    refine (safe_parsePairColon hlt hn hkey (by omega)).bind fun pair hpair ↦ ?_
    exact (safe_scan hkey 0).bind fun _ _ ↦ .pure hpair

theorem safe_nextPair (h : cidx ≤ jsonlen) :
    Safe n (nextPair json jsonlen cidx) fun r ↦
      r.1 ≤ jsonlen ∧ InText n (jsonlen - r.1) r.2 := by
  refine (safe_skipWhitespace hlt hn h).bind fun cidx h ↦ (safe_sub h (by omega)).bind ?_
  rintro _ rfl
  exact (safe_parsePair hlt (by omega)).bind fun pair hpair ↦ .pure ⟨h, hpair⟩

/-- The cursor steps over a comma, not over the NUL behind the text. -/
theorem safe_commaAt (h : cidx ≤ jsonlen) :
    Safe n (commaAt json cidx) fun r ↦ r.2 ≤ jsonlen := by
  refine (safe_byteAt (by omega)).bind fun b hb ↦ .ite (fun hcomma ↦ ?_) fun _ ↦ .pure h
  have := hb (by rw [hcomma]; decide)
  refine (safe_add (by omega)).bind ?_
  rintro _ rfl
  exact .pure (by omega)

theorem safe_commaWithin (h : cidx ≤ jsonlen) :
    Safe n (commaWithin json jsonlen cidx) fun r ↦ r.2 ≤ jsonlen :=
  .ite (fun _ ↦ safe_commaAt hlt hn h) fun _ ↦ .pure h

theorem safe_closingBracket :
    Safe n (closingBracket json jsonlen cidx) fun len ↦ len.getD 0 ≤ jsonlen := by
  refine .ite (fun _ ↦ .pure (Nat.zero_le _)) fun _ ↦ (safe_byteAt (by omega)).bind fun b _ ↦ ?_
  refine .ite (fun _ ↦ .pure (Nat.zero_le _)) fun _ ↦ (safe_add (by omega)).bind ?_
  rintro _ rfl
  exact .pure (by rw [Option.getD_some]; omega)

/-! ### Items -/

omit hlt hn in
theorem safe_readData {key value : ℕ} (hkey : key ≤ n) (hvalue : value ≤ n) (itemValue : Bytes) :
    Safe n (readData key value itemValue) fun _ ↦ True := by
  refine (safe_cStringAt hkey).bind fun _ _ ↦ .ite (fun _ ↦ ?_) fun _ ↦ .pure trivial
  exact (safe_cStringAt hvalue).bind fun _ _ ↦ .pure trivial

theorem safe_parseItemLoop (fuel : ℕ) (h : cidx ≤ jsonlen) (itemValue : Bytes) :
    Safe n (parseItemLoop fuel json jsonlen cidx itemValue) fun r ↦ r.1 ≤ jsonlen := by
  induction fuel generalizing cidx itemValue with
  | zero => exact .stop (by decide)
  | succ fuel ih =>
    refine (safe_nextPair hlt hn h).bind ?_
    rintro ⟨cidx, len, key, value⟩ ⟨h, hpair⟩
    have hlen : len ≤ jsonlen - cidx := hpair.len
    refine (safe_add (b := len) (by omega)).bind ?_
    rintro _ rfl
    have hcidx : cidx + len ≤ jsonlen := by omega
    rcases len with _ | len <;> rcases key with _ | key <;> rcases value with _ | value
    case succ.some.some =>
      refine (safe_readData (hpair.key _ rfl) (hpair.value _ rfl) _).bind fun itemValue _ ↦ ?_
      refine (safe_skipWhitespace hlt hn hcidx).bind fun cidx h ↦
        (safe_commaWithin hlt hn h).bind ?_
      rintro ⟨more, cidx⟩ h
      exact .ite (fun _ ↦ ih h itemValue) fun _ ↦
        (safe_closingBracket hlt hn).bind fun len hlen ↦ .pure hlen
    all_goals exact .pure hcidx

theorem safe_parseItem (fuel : ℕ) (itemValue : Bytes) :
    Safe n (parseItem fuel json jsonlen itemValue) fun r ↦ r.1 ≤ jsonlen := by
  refine (safe_record (a := .call json jsonlen) ⟨by omega, by omega⟩).bind fun _ _ ↦ ?_
  refine .ite (fun _ ↦ .pure (Nat.zero_le _)) fun _ ↦ (safe_byteAt (by omega)).bind fun b _ ↦ ?_
  exact .ite (fun _ ↦ .pure (by omega)) fun _ ↦ safe_parseItemLoop hlt hn fuel (by omega) itemValue

theorem safe_readItem (fuel : ℕ) {grpName key : ℕ} (hgrp : grpName ≤ n) (hkey : key ≤ n) :
    Safe n (readItem fuel grpName key json jsonlen) fun len ↦ len ≤ jsonlen := by
  refine safe_read.bind fun localValue _ ↦ ?_
  refine (safe_modify (f := fun m ↦ { m with items := m.items + 1 }) fun _ ↦ rfl).bind fun _ _ ↦ ?_
  refine (safe_parseItem hlt hn fuel localValue).bind ?_
  rintro ⟨len, localValue⟩ hlen
  refine (safe_cStringAt hgrp).bind fun grpName _ ↦ (safe_cStringAt hkey).bind fun key _ ↦ ?_
  exact (safe_modify (f := fun m ↦
    { m with parser := m.parser.updateSensingHubInfo grpName key localValue }) fun _ ↦ rfl).bind
      fun _ _ ↦ .pure hlen

end

/-! ### Groups -/

section

variable {loop : (grpName json jsonlen cidx : ℕ) → TracedM (Option ℕ)} (hlt : n < 2 ^ 31)
  (hloop : ∀ {grpName json jsonlen cidx : ℕ}, grpName ≤ n → json + jsonlen = n → cidx ≤ jsonlen →
    Safe n (loop grpName json jsonlen cidx) fun len ↦ len.getD 0 ≤ jsonlen)
  {grpName json jsonlen : ℕ} (hgrp : grpName ≤ n) (hn : json + jsonlen = n)

include hloop hn

theorem safe_parseGroupWith (hgrp : grpName ≤ n) :
    Safe n (parseGroupWith loop grpName json jsonlen) fun len ↦ len.getD 0 ≤ jsonlen := by
  refine (safe_record (a := .call json jsonlen) ⟨by omega, by omega⟩).bind fun _ _ ↦ ?_
  refine .ite (fun _ ↦ .pure (Nat.zero_le _)) fun _ ↦ (safe_byteAt (by omega)).bind fun b _ ↦ ?_
  exact .ite (fun _ ↦ .pure (Nat.zero_le _)) fun _ ↦ hloop hgrp hn (by omega)

include hlt hgrp

theorem safe_parseNested (fuel : ℕ) {key : ℕ} (hkey : key ≤ n) :
    Safe n (parseNested loop fuel grpName key json jsonlen) fun len ↦ len.getD 0 ≤ jsonlen := by
  refine (safe_byteAt hkey).bind fun b _ ↦
    .ite (fun _ ↦ safe_parseGroupWith hloop hn hkey) fun _ ↦ ?_
  exact (safe_readItem hlt hn fuel hgrp hkey).bind fun len hlen ↦ .pure hlen

theorem safe_parseGroupMember (fuel : ℕ) {cidx : ℕ} (h : cidx ≤ jsonlen) :
    Safe n (parseGroupMember loop fuel grpName json jsonlen cidx) fun r ↦
      ∀ cidx, r = some cidx → cidx ≤ jsonlen := by
  have hfailed : ∀ cidx, (none : Option ℕ) = some cidx → cidx ≤ jsonlen := by
    rintro _ ⟨⟩
  refine (safe_nextPair hlt hn h).bind ?_
  rintro ⟨cidx, len, key, value⟩ ⟨h, hpair⟩
  have hlen : len ≤ jsonlen - cidx := hpair.len
  refine (safe_add (b := len) (by omega)).bind ?_
  rintro _ rfl
  have hcidx : cidx + len ≤ jsonlen := by omega
  rcases len with _ | len <;> rcases key with _ | key <;> rcases value with _ | value
  case succ.some.some =>
    refine (safe_scan (hpair.key _ rfl) 0).bind fun _ _ ↦
      (safe_scan (hpair.value _ rfl) 0).bind fun _ _ ↦ .pure ?_
    rintro _ ⟨⟩
    exact hcidx
  case succ.some.none =>
    refine (safe_sub hcidx (by omega)).bind ?_
    rintro _ rfl
    refine (safe_parseNested hlt hloop hgrp (by omega) fuel (hpair.key _ rfl)).bind
      fun nested hnested ↦ ?_
    rcases nested with _ | _ | inner
    · exact (safe_scan (hpair.key _ rfl) 0).bind fun _ _ ↦ .pure hfailed
    · exact (safe_scan (hpair.key _ rfl) 0).bind fun _ _ ↦ .pure hfailed
    · rw [Option.getD_some] at hnested
      refine (safe_add (by omega)).bind ?_
      rintro _ rfl
      refine .pure ?_
      rintro _ ⟨⟩
      omega
  all_goals exact .pure hfailed

end

theorem safe_parseGroupLoop (hlt : n < 2 ^ 31) (fuel : ℕ) {grpName json jsonlen cidx : ℕ}
    (hgrp : grpName ≤ n) (hn : json + jsonlen = n) (h : cidx ≤ jsonlen) :
    Safe n (parseGroupLoop fuel grpName json jsonlen cidx) fun len ↦ len.getD 0 ≤ jsonlen := by
  induction fuel generalizing grpName json jsonlen cidx with
  | zero => exact .stop (by decide)
  | succ fuel ih =>
    refine (safe_parseGroupMember hlt ih hgrp hn fuel h).bind fun next hnext ↦ ?_
    cases next with
    | none => exact .pure (Nat.zero_le _)
    | some cidx =>
      refine (safe_skipWhitespace hlt hn (hnext _ rfl)).bind fun cidx h ↦
        (safe_commaAt hlt hn h).bind ?_
      rintro ⟨more, cidx⟩ h
      exact .ite (fun _ ↦ ih hgrp hn h) fun _ ↦ safe_closingBracket hlt hn

theorem safe_parseGroup (hlt : n < 2 ^ 31) (fuel : ℕ) {grpName json jsonlen : ℕ}
    (hgrp : grpName ≤ n) (hn : json + jsonlen = n) :
    Safe n (parseGroup fuel grpName json jsonlen) fun len ↦ len.getD 0 ≤ jsonlen :=
  safe_parseGroupWith (safe_parseGroupLoop hlt fuel) hn hgrp

/-! ### Config sections -/

section

variable {json jsonlen cidx : ℕ} (hlt : n < 2 ^ 31) (hn : json + jsonlen = n)

theorem safe_pushSocIds (tokens : List Bytes) :
    Safe n (Prog.quietly (pushSocIds tokens)) fun _ ↦ True := by
  refine Prog.Keeps.quietly fun log ↦ ?_
  induction tokens with
  | nil => exact .pure trivial
  | cons token tokens ih =>
    rw [pushSocIds]
    rcases CLib.stoi token with e | socId
    · cases e <;> exact .stop (by decide)
    · exact (Prog.Keeps.modify fun m hm ↦ ⟨hm.length, hm.nul, hm.within⟩).bind fun _ _ ↦ ih

theorem safe_readSocIds {key : ℕ} (hkey : key ≤ n) {value : Option ℕ}
    (hvalue : ∀ v, value = some v → v ≤ n) : Safe n (readSocIds key value) fun _ ↦ True := by
  cases value with
  | none => exact .pure trivial
  | some value =>
    refine (safe_cStringAt hkey).bind fun _ _ ↦ .ite (fun _ ↦ ?_) fun _ ↦ .pure trivial
    exact (safe_cStringAt (hvalue _ rfl)).bind fun _ _ ↦ safe_pushSocIds _

include hlt hn

theorem safe_parseConfigItemLoop (fuel : ℕ) (h : cidx ≤ jsonlen) :
    Safe n (parseConfigItemLoop fuel json jsonlen cidx) fun c ↦ c ≤ jsonlen := by
  induction fuel generalizing cidx with
  | zero => exact .stop (by decide)
  | succ fuel ih =>
    refine .ite (fun _ ↦ .pure h) fun _ ↦ (safe_nextPair hlt hn h).bind ?_
    rintro ⟨cidx, len, key, value⟩ ⟨h, hpair⟩
    have hlen : len ≤ jsonlen - cidx := hpair.len
    rcases len with _ | len <;> rcases key with _ | key
    case succ.some =>
      refine (safe_add (b := len + 1) (by omega)).bind ?_
      rintro _ rfl
      refine (safe_readSocIds (hpair.key _ rfl) hpair.value).bind fun _ _ ↦ ?_
      refine (safe_skipWhitespace hlt hn (by omega)).bind fun cidx h ↦ ?_
      refine (safe_byteAt (by omega)).bind fun b hb ↦ .ite (fun _ ↦ .pure h) fun hcomma ↦ ?_
      have := hb (by rw [not_not.1 hcomma]; decide)
      refine (safe_add (by omega)).bind ?_
      rintro _ rfl
      exact ih (by omega)
    all_goals exact .pure h

theorem safe_parseConfigItem (fuel : ℕ) :
    Safe n (parseConfigItem fuel json jsonlen) fun c ↦ c ≤ jsonlen := by
  refine (safe_record (a := .call json jsonlen) ⟨by omega, by omega⟩).bind fun _ _ ↦ ?_
  refine (safe_byteAt (by omega)).bind fun b hb ↦
    .ite (fun _ ↦ .pure (Nat.zero_le _)) fun hopen ↦ ?_
  have := hb (by rw [not_not.1 hopen]; decide)
  exact safe_parseConfigItemLoop hlt hn fuel (by omega)

theorem safe_parseConfig (fuel : ℕ) :
    Safe n (parseConfig fuel json jsonlen) fun ret ↦ -1 ≤ ret ∧ ret ≤ jsonlen := by
  have hfailed : (-1 : ℤ) ≤ -1 ∧ (-1 : ℤ) ≤ jsonlen := by omega
  refine (safe_record (a := .call json jsonlen) ⟨by omega, by omega⟩).bind fun _ _ ↦ ?_
  refine (safe_getWhitespaceLen hn).bind fun start hstart ↦ ?_
  refine (safe_addInt (Int.zero_add _) (by omega)).bind ?_
  rintro _ rfl
  refine (safe_pointer json start).bind ?_
  rintro _ rfl
  refine (safe_byteAt (by omega)).bind fun b _ ↦ .ite (fun _ ↦ .pure hfailed) fun _ ↦ ?_
  refine (safe_pointer json start).bind ?_
  rintro _ rfl
  rw [toUInt32_of_lt (by omega)]
  refine (safe_sub hstart (by omega)).bind ?_
  rintro _ rfl
  refine (safe_parseConfigItem hlt (by omega) fuel).bind fun len hlen ↦ ?_
  refine (safe_addInt (Int.natCast_add start len).symm (by omega)).bind ?_
  rintro _ rfl
  refine (safe_pointer json (start + len)).bind ?_
  rintro _ rfl
  rw [toUInt32_of_lt (by omega)]
  refine (safe_sub (by omega) (by omega)).bind ?_
  rintro _ rfl
  refine (safe_getWhitespaceLen (by omega)).bind fun skipped hskipped ↦ ?_
  refine (safe_addInt (Int.natCast_add (start + len) skipped).symm (by omega)).bind ?_
  rintro _ rfl
  refine (safe_pointer json (start + len + skipped)).bind ?_
  rintro _ rfl
  refine (safe_byteAt (by omega)).bind fun b hb ↦ .ite (fun _ ↦ .pure hfailed) fun hclose ↦ ?_
  have := hb (by rw [not_not.1 hclose]; decide)
  exact (safe_addInt (c := start + len + skipped + 1) (by omega) (by omega)).mono
    fun ret hret ↦ by omega

/-! ### Files -/

/-- The cursor moved by what `parseConfig` returns: a section that has failed moves it back. -/
theorem safe_add_toUInt32 (hpos : 0 < cidx) (h : cidx ≤ jsonlen) {ret : ℤ} (hlo : -1 ≤ ret)
    (hhi : ret ≤ (jsonlen - cidx : ℕ)) :
    Safe n (Prog.quietly (add cidx (toUInt32 ret))) fun c ↦ c ≤ jsonlen := by
  by_cases hfailed : ret = -1
  · obtain ⟨c, rfl⟩ := Nat.exists_eq_succ_of_ne_zero hpos.ne'
    refine Prog.Keeps.quietly fun log m hm ↦ ?_
    rw [hfailed, add_neg_one_run (by omega)]
    refine ⟨⟨hm.length, hm.nul, hm.within⟩, ?_, ?_⟩
    · rintro _ ⟨⟩
      omega
    · rintro _ ⟨⟩
  · obtain ⟨len, rfl⟩ := Int.eq_ofNat_of_zero_le (show 0 ≤ ret by omega)
    rw [toUInt32_of_lt (by omega)]
    exact (safe_add (by omega)).mono fun c hc ↦ by omega

/-- The cursor of a round is within the text. -/
theorem safe_parseMember (fuel : ℕ) {key : ℕ} (hkey : key ≤ n) (hpos : 0 < cidx)
    (h : cidx ≤ jsonlen) :
    Safe n (parseMember fuel key json jsonlen cidx) fun round ↦
      ∀ c, round = .read c → c ≤ jsonlen := by
  have hended : ∀ round : Round, round = .failed ∨ round = .skipped →
      ∀ c, round = .read c → c ≤ jsonlen := by
    rintro _ (rfl | rfl) _ ⟨⟩
  have hread : ∀ c ≤ jsonlen, ∀ c', Round.read c = .read c' → c' ≤ jsonlen := by
    rintro c hc _ ⟨⟩
    exact hc
  refine (safe_cStringAt hkey).bind fun name _ ↦ .ite (fun _ ↦ ?_) fun _ ↦ ?_
  · refine (safe_sub (by omega) (by omega)).bind ?_
    rintro _ rfl
    refine (safe_parseConfig hlt (by omega) fuel).bind fun ret hret ↦ ?_
    refine .ite (fun _ ↦ .pure (hended _ (Or.inl rfl))) fun _ ↦ ?_
    refine (safe_add_toUInt32 hlt hn hpos h hret.1 hret.2).bind fun c hc ↦ ?_
    refine (safe_modify (f := fun m ↦ { m with parser := m.parser.matchSocId })
      fun _ ↦ rfl).bind fun _ _ ↦ safe_read.bind fun skips _ ↦ ?_
    exact .ite (fun _ ↦ .pure (hended _ (Or.inr rfl))) fun _ ↦ .pure (hread c hc)
  · refine (safe_sub (by omega) (by omega)).bind ?_
    rintro _ rfl
    refine (safe_parseGroup hlt fuel hkey (by omega)).bind fun next hnext ↦ ?_
    cases next with
    | none => exact .pure (hended _ (Or.inl rfl))
    | some len =>
      rw [Option.getD_some] at hnext
      refine (safe_add (by omega)).bind ?_
      rintro _ rfl
      exact .pure (hread _ (by omega))

theorem safe_parseFileLoop (fuel : ℕ) (h : cidx ≤ jsonlen) :
    Safe n (parseFileLoop fuel json jsonlen cidx) fun _ ↦ True := by
  induction fuel generalizing cidx with
  | zero => exact .stop (by decide)
  | succ fuel ih =>
    refine (safe_nextPair hlt hn h).bind ?_
    rintro ⟨cidx, len, key, value⟩ ⟨h, hpair⟩
    have hlen : len ≤ jsonlen - cidx := hpair.len
    rcases len with _ | len <;> rcases key with _ | key <;> rcases value with _ | value
    case succ.some.none =>
      refine (safe_add (b := len + 1) (by omega)).bind ?_
      rintro _ rfl
      refine (safe_parseMember hlt hn fuel (hpair.key _ rfl) (by omega) (by omega)).bind
        fun round hround ↦ ?_
      cases round with
      | failed => exact .pure trivial
      | skipped => exact .pure trivial
      | read cidx =>
        refine (safe_commaWithin hlt hn (hround _ rfl)).bind ?_
        rintro ⟨more, cidx⟩ h
        exact .ite (fun _ ↦ ih h) fun _ ↦ .pure trivial
    all_goals exact .pure trivial

theorem safe_parseFile (fuel : ℕ) : Safe n (parseFile fuel json jsonlen) fun _ ↦ True := by
  refine (safe_record (a := .call json jsonlen) ⟨by omega, by omega⟩).bind fun _ _ ↦ ?_
  refine (safe_getWhitespaceLen hn).bind fun cidx h ↦ .ite (fun _ ↦ .pure trivial) fun _ ↦ ?_
  refine (safe_byteAt (by omega)).bind fun b _ ↦ .ite (fun _ ↦ .pure trivial) fun _ ↦ ?_
  refine (safe_add (by omega)).bind ?_
  rintro _ rfl
  exact safe_parseFileLoop hlt hn fuel (by omega)

end

end Traced

/-! ### What is shown -/

/-- The parser on the buffer that `loadFile` has filled. -/
def Traced.run (fuel : ℕ) (p : QshJsonParser) (fileContent : Bytes) (stale : ℕ → Bytes) :
    Except Stop (ℤ × ℕ) × Logged Machine Access :=
  Traced.parseFile fuel 0 (fileContent.length % 2 ^ 32) ⟨Machine.start p fileContent stale, []⟩

/-- The accesses made in a run of the parser, the record being left out of which it is the run that
`loadFile` makes, are within the buffer. -/
structure StaysInBuffer (fuel : ℕ) (p : QshJsonParser) (fileContent : Bytes)
    (stale : ℕ → Bytes) : Prop where
  run : parseFile fuel 0 (fileContent.length % 2 ^ 32) (Machine.start p fileContent stale) =
    ((Traced.run fuel p fileContent stale).1, (Traced.run fuel p fileContent stale).2.state)
  not_outOfBounds : (Traced.run fuel p fileContent stale).1 ≠ .error .outOfBounds
  within : ∀ a ∈ (Traced.run fuel p fileContent stale).2.log, a.Within fileContent.length

theorem inBounds_start (p : QshJsonParser) (fileContent : Bytes) (stale : ℕ → Bytes) :
    InBounds fileContent.length ⟨Machine.start p fileContent stale, []⟩ := by
  refine ⟨List.length_append, ?_, fun a ha ↦ (List.not_mem_nil ha).elim⟩
  exact List.getElem?_concat_length

/-- **The parser stays inside its buffer**, whatever stands in the file, whatever members the parser
has, and however far the run is followed. -/
theorem staysInBuffer (fuel : ℕ) (p : QshJsonParser) {fileContent : Bytes} (stale : ℕ → Bytes)
    (h : fileContent.length < 2 ^ 31) : StaysInBuffer fuel p fileContent stale := by
  have hsize : 0 + fileContent.length % 2 ^ 32 = fileContent.length := by omega
  obtain ⟨hbounds, -, hstop⟩ :=
    Traced.safe_parseFile h hsize fuel _ (inBounds_start p fileContent stale)
  exact ⟨Traced.erases_parseFile fuel 0 _ ⟨Machine.start p fileContent stale, []⟩,
    fun hout ↦ hstop _ hout rfl, hbounds.within⟩

/-- A file whose config section moves the cursor back. -/
def backwardFile : Bytes :=
  CLib.str "\x7b\"config\":[]\x7d"

theorem staysInBuffer_backwardFile :
    backwardFile.length < 2 ^ 31 ∧ StaysInBuffer 8 (.fresh 0) backwardFile fun _ ↦ [] :=
  ⟨by decide +kernel, staysInBuffer 8 (.fresh 0) (fun _ ↦ []) (by decide +kernel)⟩

end SensingHub.Json
