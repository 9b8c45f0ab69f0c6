import SensingHub.Json.Pair
import Mathlib.Data.List.DropRight

/-!
# The in-place parser reads the tokens of the text

Function by function, what the in-place parser does on a text is what the parser over tokens does
on the tokens of that text: it makes the same calls of `updateSensingHubInfo` in the same order,
ends in the same way, and stands before a text with the tokens that are left. On the way nothing
is read outside the buffer and no cursor wraps.

After an attempt to read a pair has failed the text may no longer be intact where the attempt
began; but the byte there is, and it is the only one that is looked at again (`Seen`).
-/

namespace SensingHub.Json

open CLib (str isspace strlcpy)

/-! ### Where a function may go on -/

/-- The byte a list of tokens begins with, the NUL behind the text if there is none. -/
def firstByte : List Token → UInt8
  | [] => 0
  | .byte b :: _ => b
  | _ :: _ => 34

theorem headD_of_tight {t : Bytes} (ht : t.dropWhile isspace = t) :
    t.headD 0 = firstByte (tokens t) := by
  rcases t with _ | ⟨b, t⟩
  · rfl
  · by_cases hquote : b = 34
    · subst hquote
      rw [tokens_quote]
      rcases closeQuote t with _ | ⟨s, r⟩ <;> rfl
    · rw [tokens_byte (isspace_of_dropWhile ht) hquote]
      rfl

/-- The text behind a byte that is a token. -/
theorem cons_of_firstByte {t : Bytes} (ht : t.dropWhile isspace = t) {b : UInt8}
    (hb : firstByte (tokens t) = b) (hnul : b ≠ 0) (hquote : b ≠ 34) :
    ∃ r, t = b :: r ∧ tokens t = .byte b :: tokens r ∧ isspace b = false := by
  rcases t with _ | ⟨c, r⟩
  · exact absurd hb.symm hnul
  · obtain rfl : c = b := (headD_of_tight ht).trans hb
    have hspace := isspace_of_dropWhile ht
    exact ⟨r, rfl, tokens_byte hspace hquote r, hspace⟩

/-- The cursor stands before the text `t`, which begins with no white space; if it begins with a
quote, only the quote is certain to be there. -/
structure Seen (json' : Bytes) (json jsonlen cidx : ℕ) (t : Bytes) : Prop where
  tight : t.dropWhile isspace = t
  le : cidx ≤ jsonlen
  lt : jsonlen < 2 ^ 32
  byte : json'[json + cidx]? = some (firstByte (tokens t))
  standing : firstByte (tokens t) ≠ 34 → Standing json' json jsonlen cidx t

theorem dropWhile_dropWhile_isspace (t : Bytes) :
    (t.dropWhile isspace).dropWhile isspace = t.dropWhile isspace :=
  List.dropWhile_idempotent isspace t

theorem Standing.seen {json' : Bytes} {json jsonlen cidx : ℕ} {t : Bytes}
    (h : Standing json' json jsonlen cidx t) (ht : t.dropWhile isspace = t) :
    Seen json' json jsonlen cidx t :=
  ⟨ht, h.le, h.lt, by rw [h.text.getElem?, headD_of_tight ht], fun _ ↦ h⟩

/-- What holds behind a member: the cursor stands before the text or has been moved to its first
byte. -/
def Behind (json' : Bytes) (json jsonlen cidx : ℕ) (t : Bytes) : Prop :=
  Standing json' json jsonlen cidx t ∨ Seen json' json jsonlen cidx t

variable {m : Machine} {json jsonlen cidx : ℕ} {t : Bytes}

theorem getWhitespaceLen_run_of_behind (h : Behind m.json json jsonlen cidx t) :
    ∃ w, getWhitespaceLen (json + cidx) (jsonlen - cidx) m = (.ok w, m) ∧
      Seen m.json json jsonlen (cidx + w) (t.dropWhile isspace) := by
  rcases h with h | h
  · obtain ⟨w, hrun, hst⟩ := getWhitespaceLen_run h
    exact ⟨w, hrun, hst.seen (dropWhile_dropWhile_isspace t)⟩
  · rw [h.tight]
    by_cases hquote : firstByte (tokens t) = 34
    · have hbyte := h.byte
      rw [hquote] at hbyte
      exact ⟨0, getWhitespaceLen_run_of_getElem? hbyte (by decide) _, h⟩
    · obtain ⟨w, hrun, hst⟩ := getWhitespaceLen_run (h.standing hquote)
      rw [h.tight] at hst
      exact ⟨w, hrun, hst.seen h.tight⟩

theorem Behind.le {json' : Bytes} (h : Behind json' json jsonlen cidx t) : cidx ≤ jsonlen := by
  rcases h with h | h
  · exact h.le
  · exact h.le

theorem skipWhitespace_run_of_behind (h : Behind m.json json jsonlen cidx t) :
    ∃ c, skipWhitespace json jsonlen cidx m = (.ok c, m) ∧ cidx ≤ c ∧
      Seen m.json json jsonlen c (t.dropWhile isspace) := by
  obtain ⟨w, hrun, hseen⟩ := getWhitespaceLen_run_of_behind h
  have hle := hseen.le
  have hlt := hseen.lt
  refine ⟨cidx + w, ?_, Nat.le_add_right _ _, hseen⟩
  rw [skipWhitespace, Prog.bind_ok (sub_run h.le hlt m), Prog.bind_ok hrun]
  exact add_run (by omega) m

/-! ### The ends of a round -/

/-- A comma is passed. -/
theorem commaAt_run (h : Seen m.json json jsonlen cidx t) (hpos : 0 < cidx)
    (hcomma : firstByte (tokens t) = 44) :
    commaAt json cidx m = (.ok (true, cidx + 1), m) ∧
      ∃ r, tokens t = .byte 44 :: tokens r ∧ Past t r ∧
        Standing m.json json jsonlen (cidx + 1) r := by
  have hbyte := h.byte
  rw [hcomma] at hbyte
  have hst := h.standing (by rw [hcomma]; decide)
  obtain ⟨r, rfl, htokens, hspace⟩ := cons_of_firstByte h.tight hcomma (by decide) (by decide)
  have hback := hst.cons
  have hlen := hback.length
  refine ⟨?_, r, htokens, Past.byte hspace (by decide) r, hback⟩
  rw [commaAt, Prog.bind_ok (byteAt_of_getElem? hbyte), if_pos rfl,
    Prog.bind_ok (add_run (by have := h.lt; omega) m), decide_eq_true (Nat.pos_iff_ne_zero.1 hpos)]
  rfl

theorem commaAt_run_of_ne (h : Seen m.json json jsonlen cidx t)
    (hcomma : firstByte (tokens t) ≠ 44) : commaAt json cidx m = (.ok (false, cidx), m) := by
  rw [commaAt, Prog.bind_ok (byteAt_of_getElem? h.byte), if_neg hcomma]
  rfl

/-- A closing bracket is passed. -/
theorem closingBracket_run (h : Seen m.json json jsonlen cidx t)
    (hbracket : firstByte (tokens t) = 125) :
    closingBracket json jsonlen cidx m = (.ok (some (cidx + 1)), m) ∧
      ∃ r, tokens t = .byte 125 :: tokens r ∧ Past t r ∧
        Standing m.json json jsonlen (cidx + 1) r := by
  have hbyte := h.byte
  rw [hbracket] at hbyte
  have hst := h.standing (by rw [hbracket]; decide)
  obtain ⟨r, rfl, htokens, hspace⟩ := cons_of_firstByte h.tight hbracket (by decide) (by decide)
  have hback := hst.cons
  have hlen := hback.length
  refine ⟨?_, r, htokens, Past.byte hspace (by decide) r, hback⟩
  rw [closingBracket, if_neg (by omega), Prog.bind_ok (byteAt_of_getElem? hbyte),
    if_neg (not_not_intro rfl), Prog.bind_ok (add_run (by have := h.lt; omega) m)]
  rfl

theorem closingBracket_run_of_ne (h : Seen m.json json jsonlen cidx t)
    (hbracket : firstByte (tokens t) ≠ 125) :
    closingBracket json jsonlen cidx m = (.ok none, m) := by
  rw [closingBracket]
  split_ifs
  · rfl
  · rw [Prog.bind_ok (byteAt_of_getElem? h.byte), if_pos hbracket]
    rfl

/-- With the cursor at the end of the text the test for a comma gives what it would give on the NUL
there. -/
theorem commaWithin_eq (h : Seen m.json json jsonlen cidx t) :
    commaWithin json jsonlen cidx m = commaAt json cidx m := by
  rw [commaWithin]
  split_ifs with hlt
  · rfl
  · by_cases hcomma : firstByte (tokens t) = 44
    · obtain ⟨r, rfl, -⟩ := cons_of_firstByte h.tight hcomma (by decide) (by decide)
      have := (h.standing (by rw [hcomma]; decide)).length
      simp only [List.length_cons] at this
      omega
    · rw [commaAt_run_of_ne h hcomma]
      rfl

/-! ### The pair at the start of a round -/

/-- What is left behind a position of `r` is left behind `t`. -/
def Reaches (t r : Bytes) : Prop :=
  ∀ s, Past r s → Past t s

theorem Reaches.refl (t : Bytes) : Reaches t t := fun _ h ↦ h

theorem Reaches.trans {t r s : Bytes} (h₁ : Reaches t r) (h₂ : Reaches r s) : Reaches t s :=
  fun u hu ↦ h₁ u (h₂ u hu)

theorem Past.reaches {t r : Bytes} (h : Past t r) : Reaches t r := fun _ hs ↦ h.trans hs

theorem reaches_dropWhile (t : Bytes) : Reaches t (t.dropWhile isspace) :=
  fun _ h ↦ h.of_dropWhile

theorem tight_of_textPair {t : Bytes} {p : TextPair} (h : textPair t = some p) :
    p.rest.dropWhile isspace = p.rest := by
  have hvalue {key r : Bytes} (h : textValue key r = some p) :
      p.rest.dropWhile isspace = p.rest := by
    unfold textValue at h
    split at h
    · cases h
      rfl
    · next b r' hskip =>
      split_ifs at h with hquote hbracket
      · obtain ⟨⟨value, r''⟩, -, rfl⟩ := Option.map_eq_some_iff.1 h
        exact dropWhile_dropWhile_isspace r''
      · cases h
        rw [← hskip]
        exact dropWhile_dropWhile_isspace r
  rcases t with _ | ⟨b, t⟩
  · cases h
  · rw [textPair] at h
    split_ifs at h
    obtain ⟨⟨key, r⟩, -, hcolon⟩ := Option.bind_eq_some_iff.1 h
    simp only [textColon] at hcolon
    split at hcolon
    · cases hcolon
    · split_ifs at hcolon
      exact hvalue hcolon

/-- A pair has been read from the position of `t`. -/
def NextPair (m : Machine) (json jsonlen cidx : ℕ) (t : Bytes) (p : Format.Pair)
    (x : Except Stop (ℕ × PairResult) × Machine) : Prop :=
  ∃ json' c len key value r,
    x = (.ok (c, ⟨len + 1, some key, value⟩), { m with json := json' }) ∧
    cidx ≤ c ∧ SameBelow (json + cidx) m.json json' ∧
    Standing json' json jsonlen (c + (len + 1)) r ∧
    r.dropWhile isspace = r ∧ tokens r = p.rest ∧ Reaches t r ∧
    CStr json' (json + (c + (len + 1))) key p.key ∧
    Option.Rel (CStr json' (json + (c + (len + 1)))) value p.value ∧
    (p.value = none → ∃ b, json'[json + (c + len)]? = some b ∧ b ≠ 44)

/-- No pair has been read from the position of `t`. -/
def NoPair (m : Machine) (json jsonlen cidx : ℕ) (t : Bytes)
    (x : Except Stop (ℕ × PairResult) × Machine) : Prop :=
  ∃ json' c key value,
    x = (.ok (c, ⟨0, key, value⟩), { m with json := json' }) ∧
    cidx ≤ c ∧ SameBelow (json + cidx) m.json json' ∧
    Seen json' json jsonlen c (t.dropWhile isspace)

/-- The pair at the start of a round is the pair at the start of the tokens. -/
theorem nextPair_run (h : Standing m.json json jsonlen cidx t) :
    match Format.pair (tokens t) with
    | some p => NextPair m json jsonlen cidx t p (nextPair json jsonlen cidx m)
    | none => NoPair m json jsonlen cidx t (nextPair json jsonlen cidx m) := by
  obtain ⟨c, hrun, hle, hst⟩ := skipWhitespace_run h
  have hlt := h.lt
  have htight := dropWhile_dropWhile_isspace t
  have hpair := parsePair_run hst.call
  rw [← tokens_dropWhile, pair_tokens htight, nextPair, Prog.bind_ok hrun,
    Prog.bind_ok (sub_run hst.le hlt m)]
  rcases htext : textPair (t.dropWhile isspace) with _ | p
  · rw [htext] at hpair
    obtain ⟨json', key, value, hx, hsame, hbyte⟩ := hpair
    simp only [Option.map_none]
    rw [Prog.bind_ok hx]
    refine ⟨json', c, key, value, rfl, hle, hsame.mono (Nat.add_le_add_left hle json), ?_⟩
    rcases hbyte with rfl | ⟨hhead, hbyte⟩
    · exact hst.seen htight
    · have hfirst : firstByte (tokens (t.dropWhile isspace)) = 34 := by
        rw [← headD_of_tight htight, List.headD_eq_head?_getD, hhead]
        rfl
      exact ⟨htight, hst.le, hlt, by rw [hfirst]; exact hbyte, fun hne ↦ absurd hfirst hne⟩
  · rw [htext] at hpair
    obtain ⟨json', len, key, value, hx, hsame, -, hst', hkey, hvalue, hbefore⟩ := hpair
    simp only [Option.map_some]
    rw [Prog.bind_ok hx]
    rw [Nat.add_assoc] at hkey hvalue hbefore
    refine ⟨json', c, len, key, value, p.rest, rfl, hle,
      hsame.mono (Nat.add_le_add_left hle json), hst'.return hst.le hlt, tight_of_textPair htext,
      rfl, (reaches_dropWhile t).trans fun s ↦ past_of_textPair htext, hkey, hvalue, hbefore⟩

/-! ### Items -/

/-- What `parseItem` does with an item that is read as `i` from the tokens of `t`; `before` is what
the array reads as while the item has not written it. -/
def ItemRun (m : Machine) (json jsonlen cidx : ℕ) (t before : Bytes)
    (x : Except Stop (ℕ × Bytes) × Machine) : Option Format.ItemRead → Prop
  | none => x.1 = .error .outOfFuel
  | some ⟨data, none⟩ =>
    ∃ json', x = (.ok (0, data.getD before), { m with json := json' }) ∧
      SameBelow (json + cidx) m.json json'
  | some ⟨data, some rest⟩ =>
    ∃ json' len r, x = (.ok (len + 1, data.getD before), { m with json := json' }) ∧
      SameBelow (json + cidx) m.json json' ∧ tokens r = rest ∧
      Behind json' json jsonlen (len + 1) r ∧ Reaches t r

/-- The value an item leaves behind a member with a string. -/
theorem readData_run {bound keyAt valueAt : ℕ} {key value : Bytes}
    (hkey : CStr m.json bound keyAt key) (hvalue : CStr m.json bound valueAt value)
    (data : Option Bytes) (before : Bytes) :
    readData keyAt valueAt (data.getD before) m =
      (.ok ((Format.itemData key value data).getD before), m) := by
  rw [readData, Prog.bind_ok (cStringAt_run hkey), Format.itemData]
  split_ifs
  · rw [Prog.bind_ok (cStringAt_run hvalue)]
    rfl
  · rfl

theorem ItemRun.of_reaches {m' : Machine} {json' before t r : Bytes} {c : ℕ}
    {x : Except Stop (ℕ × Bytes) × Machine} {i : Option Format.ItemRead}
    (hm : m' = { m with json := json' }) (hsame : SameBelow (json + cidx) m.json json')
    (hle : cidx ≤ c) (hreach : Reaches t r) (h : ItemRun m' json jsonlen c r before x i) :
    ItemRun m json jsonlen cidx t before x i := by
  subst hm
  have hbelow {json'' : Bytes} (h : SameBelow (json + c) json' json'') :
      SameBelow (json + cidx) m.json json'' :=
    hsame.trans (h.mono (Nat.add_le_add_left hle json))
  rcases i with _ | ⟨data, _ | rest⟩
  · exact h
  · obtain ⟨json'', hx, hs⟩ := h
    exact ⟨json'', hx, hbelow hs⟩
  · obtain ⟨json'', len, r', hx, hs, htokens, hbehind, hr'⟩ := h
    exact ⟨json'', len, r', hx, hbelow hs, htokens, hbehind, hreach.trans hr'⟩

theorem exists_of_rel_some {r : ℕ → Bytes → Prop} {o : Option ℕ} {s : Bytes}
    (h : Option.Rel r o (some s)) : ∃ n, o = some n ∧ r n s := by
  cases h with
  | some h => exact ⟨_, rfl, h⟩

/-- The loop of `parseItem`. -/
theorem parseItemLoop_run (fuel : ℕ) (h : Standing m.json json jsonlen cidx t) (hpos : 0 < cidx)
    (data : Option Bytes) (before : Bytes) :
    ItemRun m json jsonlen cidx t before
      (parseItemLoop fuel json jsonlen cidx (data.getD before) m)
      (Format.itemLoop fuel (tokens t) data) := by
  -- on the rounds left; `data` is what earlier pairs have set
  induction fuel generalizing m cidx t data with
  | zero => rfl
  | succ fuel ih =>
    have hnext := nextPair_run h
    have hlt := h.lt
    rw [parseItemLoop, Format.itemLoop]
    rcases hpair : Format.pair (tokens t) with _ | ⟨key, _ | value, rest⟩
    · -- no pair: the item ends where the attempt began
      rw [hpair] at hnext
      obtain ⟨json', c, key, value, hx, hle, hsame, hseen⟩ := hnext
      have hlen := hseen.le
      obtain ⟨len, rfl⟩ : ∃ len, c = len + 1 := ⟨c - 1, by omega⟩
      rw [Prog.bind_ok hx]
      simp only
      rw [Prog.bind_ok (add_run (by omega) _)]
      exact ⟨json', len, t.dropWhile isspace, rfl, hsame, tokens_dropWhile t, Or.inr hseen,
        reaches_dropWhile t⟩
    · -- a pair without a string: the item ends behind it
      rw [hpair] at hnext
      obtain ⟨json', c, len, keyAt, value, r, hx, hle, hsame, hst, -, htokens, hreach, -, hvalue,
        -⟩ := hnext
      have hlen := hst.le
      cases hvalue
      rw [Prog.bind_ok hx]
      simp only
      rw [Prog.bind_ok (add_run (by omega) _)]
      exact ⟨json', c + len, r, rfl, hsame, htokens, Or.inl hst, hreach⟩
    · rw [hpair] at hnext
      obtain ⟨json', c, len, keyAt, value, r, hx, hle, hsame, hst, htight, rfl, hreach, hkey,
        hvalue, -⟩ := hnext
      have hlen := hst.le
      obtain ⟨valueAt, rfl, hstr⟩ := exists_of_rel_some hvalue
      rw [Prog.bind_ok hx]
      simp only
      rw [Prog.bind_ok (add_run (by omega) _)]
      rw [Prog.bind_ok (readData_run (m := { m with json := json' }) hkey hstr data before)]
      obtain ⟨c', hskip, hle', hseen⟩ :=
        skipWhitespace_run_of_behind (m := { m with json := json' }) (Or.inl hst)
      rw [htight] at hseen
      rw [Prog.bind_ok hskip]
      have hcommaWithin := commaWithin_eq (m := { m with json := json' }) hseen
      by_cases hcomma : firstByte (tokens r) = 44
      · obtain ⟨hrun, r', htokens, hpast, hst'⟩ :=
          commaAt_run (m := { m with json := json' }) hseen (by omega) hcomma
        rw [Prog.bind_ok (hcommaWithin.trans hrun), htokens]
        exact (ih hst' (Nat.succ_pos _) _).of_reaches rfl hsame (by omega)
          (hreach.trans hpast.reaches)
      · rw [Prog.bind_ok (hcommaWithin.trans (commaAt_run_of_ne hseen hcomma))]
        simp only [Bool.false_eq_true, if_false]
        by_cases hbracket : firstByte (tokens r) = 125
        · obtain ⟨hrun, r', htokens, hpast, hst'⟩ :=
            closingBracket_run (m := { m with json := json' }) hseen hbracket
          rw [Prog.bind_ok hrun, htokens]
          exact ⟨json', c', r', rfl, hsame, rfl, Or.inl hst', hreach.trans hpast.reaches⟩
        · rw [Prog.bind_ok (closingBracket_run_of_ne hseen hbracket)]
          split
          · next heq => rw [heq] at hcomma; exact absurd rfl hcomma
          · next heq => rw [heq] at hbracket; exact absurd rfl hbracket
          · exact ⟨json', rfl, hsame⟩

/-- What a text begins with when a pair without a string has been read before it. -/
def OpensOrEnds (t : Bytes) : Prop :=
  tokens t = [] ∨ ∃ b ts, tokens t = .byte b :: ts ∧ (b = 123 ∨ b = 91)

theorem eq_nil_of_tokens {t : Bytes} (ht : t.dropWhile isspace = t) (h : tokens t = []) :
    t = [] := by
  rcases t with _ | ⟨b, t⟩
  · rfl
  · by_cases hquote : b = 34
    · subst hquote
      rw [tokens_quote] at h
      split at h <;> cases h
    · rw [tokens_byte (isspace_of_dropWhile ht) hquote] at h
      cases h

/-- `parseItem` -/
theorem parseItem_run (fuel : ℕ) (h : Standing m.json json jsonlen 0 t)
    (ht : t.dropWhile isspace = t) (hopen : OpensOrEnds t) (before : Bytes) :
    ItemRun m json jsonlen 0 t before (parseItem fuel json jsonlen before m)
      (Format.item fuel (tokens t)) := by
  have hlen := h.length
  have hseen := h.seen ht
  rcases hopen with hnil | ⟨b, ts, hb, hbracket⟩
  · obtain rfl := eq_nil_of_tokens ht hnil
    rw [parseItem, if_pos (by simp only [List.length_nil] at hlen; omega)]
    exact ⟨m.json, rfl, SameBelow.refl _ _⟩
  · have hfirst : firstByte (tokens t) = b := by rw [hb]; rfl
    obtain ⟨r, rfl, htokens, hspace⟩ := cons_of_firstByte ht hfirst
      (by rcases hbracket with rfl | rfl <;> decide) (by rcases hbracket with rfl | rfl <;> decide)
    simp only [List.length_cons] at hlen
    have hpast := Past.byte hspace (by rcases hbracket with rfl | rfl <;> decide) r
    have hbyte : byteAt json m = (.ok b, m) := byteAt_cons h.text
    rw [htokens, parseItem, if_neg (by omega), Prog.bind_ok hbyte]
    rcases hbracket with rfl | rfl
    · rw [if_neg (not_not_intro rfl)]
      exact (parseItemLoop_run fuel h.cons Nat.one_pos none before).of_reaches rfl
        (SameBelow.refl _ _) (Nat.zero_le _) hpast.reaches
    · rw [if_pos (by decide)]
      exact ⟨m.json, 0, r, rfl, SameBelow.refl _ _, rfl, Or.inl h.cons, hpast.reaches⟩

/-! ### Groups -/

/-- The machine with another buffer, after calls of `updateSensingHubInfo`. -/
def Machine.after (m : Machine) (json' : Bytes) (cs : List Call) : Machine :=
  let s := Progress.calls m.stale ⟨m.parser, m.items⟩ cs
  { m with json := json', parser := s.parser, items := s.items }

theorem Machine.after_nil (m : Machine) (json' : Bytes) :
    m.after json' [] = { m with json := json' } := rfl

theorem Machine.after_after (m : Machine) (json' json'' : Bytes) (cs ds : List Call) :
    (m.after json' cs).after json'' ds = m.after json'' (cs ++ ds) := by
  simp [Machine.after, Progress.calls, List.foldl_append]

/-- What a function that reads a group does when the group is read as `g` from the tokens of `t`. -/
def GroupRun (m : Machine) (json jsonlen cidx : ℕ) (t : Bytes)
    (x : Except Stop (Option ℕ) × Machine) : Option Format.GroupRead → Prop
  | none => x.1 = .error .outOfFuel
  | some ⟨calls, none⟩ => ∃ json', x = (.ok none, m.after json' calls)
  | some ⟨calls, some rest⟩ =>
    ∃ json' len r, x = (.ok (some (len + 1)), m.after json' calls) ∧
      SameBelow (json + cidx) m.json json' ∧ tokens r = rest ∧
      Standing json' json jsonlen (len + 1) r ∧ Past t r

/-- The same for a function that reads one member. -/
def MemberRun (m : Machine) (json jsonlen cidx : ℕ) (t : Bytes)
    (x : Except Stop (Option ℕ) × Machine) : Option Format.GroupRead → Prop
  | none => x.1 = .error .outOfFuel
  | some ⟨calls, none⟩ => ∃ json', x = (.ok none, m.after json' calls)
  | some ⟨calls, some rest⟩ =>
    ∃ json' c r, x = (.ok (some (c + 1)), m.after json' calls) ∧ cidx ≤ c + 1 ∧
      SameBelow (json + cidx) m.json json' ∧ tokens r = rest ∧
      Behind json' json jsonlen (c + 1) r ∧ Reaches t r

/-- A loop of `parseGroup` that reads groups as the loop over tokens does. -/
def LoopRuns (loop : (grpName json jsonlen cidx : ℕ) → ParserM (Option ℕ))
    (tokenLoop : Bytes → List Token → Option Format.GroupRead) : Prop :=
  ∀ (m : Machine) (json jsonlen cidx : ℕ) (t : Bytes) (grpAt : ℕ) (grpName : Bytes),
    CStr m.json (json + cidx) grpAt grpName → Standing m.json json jsonlen cidx t → 0 < cidx →
      GroupRun m json jsonlen cidx t (loop grpAt json jsonlen cidx m) (tokenLoop grpName (tokens t))

theorem Behind.return {json' : Bytes} {len : ℕ} {t : Bytes}
    (h : Behind json' (json + cidx) (jsonlen - cidx) len t) (hle : cidx ≤ jsonlen)
    (hlt : jsonlen < 2 ^ 32) : Behind json' json jsonlen (cidx + len) t := by
  rcases h with h | h
  · exact Or.inl (h.return hle hlt)
  · have := h.le
    exact Or.inr ⟨h.tight, by omega, hlt, by rw [← Nat.add_assoc]; exact h.byte,
      fun hne ↦ (h.standing hne).return hle hlt⟩

/-- What an item of a group does. -/
theorem readItem_run (fuel : ℕ) {bound grpAt keyAt : ℕ} {grpName key : Bytes}
    (hgrp : CStr m.json bound grpAt grpName) (hkey : CStr m.json bound keyAt key)
    (hbound : bound ≤ json) (h : Standing m.json json jsonlen 0 t)
    (ht : t.dropWhile isspace = t) (hopen : OpensOrEnds t) :
    match Format.item fuel (tokens t) with
    | none => (readItem fuel grpAt keyAt json jsonlen m).1 = .error .outOfFuel
    | some ⟨data, none⟩ => ∃ json',
        readItem fuel grpAt keyAt json jsonlen m = (.ok 0, m.after json' [⟨grpName, key, data⟩])
    | some ⟨data, some rest⟩ => ∃ json' len r,
        readItem fuel grpAt keyAt json jsonlen m =
          (.ok (len + 1), m.after json' [⟨grpName, key, data⟩]) ∧
        SameBelow json m.json json' ∧ tokens r = rest ∧ Behind json' json jsonlen (len + 1) r ∧
        Reaches t r := by
  -- the two names are still to be read once the item has been
  have hnames {json' : Bytes} {α : Type} (hsame : SameBelow json m.json json')
      (f : Bytes → Bytes → ParserM α) (m' : Machine) (hm' : m'.json = json') :
      (cStringAt grpAt >>= fun g ↦ cStringAt keyAt >>= fun k ↦ f g k) m' = f grpName key m' := by
    subst hm'
    have hbelow := hsame.mono hbound
    rw [Prog.bind_ok (cStringAt_run (hgrp.sameBelow hbelow)),
      Prog.bind_ok (cStringAt_run (hkey.sameBelow hbelow))]
  rw [readItem, Prog.read_bind_run, Prog.modify_bind_run]
  have hitem := parseItem_run (m := { m with items := m.items + 1 }) fuel h ht hopen
    (m.stale m.items)
  rcases hread : Format.item fuel (tokens t) with _ | ⟨data, _ | rest⟩
  · rw [hread] at hitem
    exact Prog.bind_fst_error hitem
  · rw [hread] at hitem
    obtain ⟨json', hx, hsame⟩ := hitem
    refine ⟨json', ?_⟩
    rw [Prog.bind_ok hx]
    exact hnames hsame _ _ rfl
  · rw [hread] at hitem
    obtain ⟨json', len, r, hx, hsame, htokens, hbehind, hreach⟩ := hitem
    refine ⟨json', len, r, ?_, hsame, htokens, hbehind, hreach⟩
    rw [Prog.bind_ok hx]
    exact hnames hsame _ _ rfl

theorem opensOrEnds_of_pair {key : Bytes} {rest : List Token}
    (hpair : Format.pair (tokens t) = some ⟨key, none, rest⟩) {r : Bytes} (hr : tokens r = rest) :
    OpensOrEnds r := by
  rcases Format.rest_of_pair hpair with hnil | ⟨b, rest', hrest, hb⟩
  · exact Or.inl (hr.trans hnil)
  · exact Or.inr ⟨b, rest', hr.trans hrest, hb⟩

/-- `parseGroup`, given that its loop is right. -/
theorem parseGroupWith_run {loop : (grpName json jsonlen cidx : ℕ) → ParserM (Option ℕ)}
    {tokenLoop : Bytes → List Token → Option Format.GroupRead} (hloop : LoopRuns loop tokenLoop)
    {grpAt : ℕ} {grpName : Bytes} (hgrp : CStr m.json json grpAt grpName)
    (h : Standing m.json json jsonlen 0 t) (ht : t.dropWhile isspace = t) :
    GroupRun m json jsonlen 0 t (parseGroupWith loop grpAt json jsonlen m)
      (Format.groupWith tokenLoop grpName (tokens t)) := by
  have hbyte : byteAt json m = (.ok (firstByte (tokens t)), m) := by
    rw [← headD_of_tight ht]
    exact byteAt_run h.text
  by_cases hopen : firstByte (tokens t) = 123
  · obtain ⟨r, rfl, htokens, hspace⟩ := cons_of_firstByte ht hopen (by decide) (by decide)
    have hlen := h.length
    simp only [List.length_cons] at hlen
    have hpast := Past.byte hspace (by decide) r
    have hgroup := hloop m json jsonlen 1 r grpAt grpName (hgrp.mono (Nat.le_succ _)) h.cons
      Nat.one_pos
    rw [parseGroupWith, if_neg (by omega), Prog.bind_ok hbyte, if_neg (not_not_intro hopen),
      htokens]
    simp only [Format.groupWith]
    rcases hread : tokenLoop grpName (tokens r) with _ | ⟨calls, _ | rest⟩ <;> rw [hread] at hgroup
    · exact hgroup
    · exact hgroup
    · obtain ⟨json', len, r', hx, hsame, hr', hst, hpast'⟩ := hgroup
      exact ⟨json', len, r', hx, hsame.mono (Nat.le_succ _), hr', hst, hpast.trans hpast'⟩
  · have hrun : parseGroupWith loop grpAt json jsonlen m = (.ok none, m) := by
      rw [parseGroupWith]
      split_ifs
      · rfl
      · rw [Prog.bind_ok hbyte, if_pos hopen]
        rfl
    unfold Format.groupWith
    split
    · next heq => rw [heq] at hopen; exact absurd rfl hopen
    · exact ⟨m.json, hrun⟩

/-- The first byte of a key tells a nested group from an item. -/
theorem byteAt_key {bound keyAt : ℕ} {key : Bytes} (hkey : CStr m.json bound keyAt key) :
    byteAt keyAt m = (.ok (key.headD 0), m) :=
  byteAt_of_getElem? hkey.getElem?

theorem headD_eq_dot {key : Bytes} : key.headD 0 = 46 ↔ key.head? = some 46 := by
  rcases key with _ | ⟨b, key⟩ <;> simp

/-- A round of the loop of `parseGroup`. -/
theorem parseGroupMember_run {loop : (grpName json jsonlen cidx : ℕ) → ParserM (Option ℕ)}
    {tokenLoop : Bytes → List Token → Option Format.GroupRead} (hloop : LoopRuns loop tokenLoop)
    (fuel : ℕ) {grpAt : ℕ} {grpName : Bytes} (hgrp : CStr m.json (json + cidx) grpAt grpName)
    (h : Standing m.json json jsonlen cidx t) :
    MemberRun m json jsonlen cidx t (parseGroupMember loop fuel grpAt json jsonlen cidx m)
      (Format.member tokenLoop fuel grpName (tokens t)) := by
  have hnext := nextPair_run h
  have hlt := h.lt
  rw [parseGroupMember, Format.member]
  rcases hpair : Format.pair (tokens t) with _ | ⟨key, _ | value, rest⟩
  · -- no pair: the group fails
    rw [hpair] at hnext
    obtain ⟨json', c, key, value, hx, hle, -, hseen⟩ := hnext
    have hlen := hseen.le
    rw [Prog.bind_ok hx]
    simp only
    rw [Prog.bind_ok (add_run (by omega) _)]
    exact ⟨json', rfl⟩
  · rw [hpair] at hnext
    obtain ⟨json', c, len, keyAt, value, r, hx, hle, hsame, hst, htight, htokens, hreach, hkey,
      hvalue, -⟩ := hnext
    have hlen := hst.le
    have hopen := opensOrEnds_of_pair hpair htokens
    obtain rfl : tokens r = rest := htokens
    cases hvalue
    rw [Prog.bind_ok hx]
    simp only
    rw [Prog.bind_ok (add_run (by omega) _), Prog.bind_ok (sub_run hlen hlt _)]
    -- the value is read from the buffer the pair has left
    generalize hm' : ({ m with json := json' } : Machine) = m'
    have hgrp' : CStr m'.json (json + (c + (len + 1))) grpAt grpName := by
      rw [← hm']
      exact (hgrp.sameBelow hsame).mono (by omega)
    have hkey' : CStr m'.json (json + (c + (len + 1))) keyAt key := by
      rw [← hm']
      exact hkey
    have hst' : Standing m'.json (json + (c + (len + 1))) (jsonlen - (c + (len + 1))) 0 r := by
      rw [← hm']
      exact hst.call
    have hbelow {json'' : Bytes} (hs : SameBelow (json + (c + (len + 1))) m'.json json'') :
        SameBelow (json + cidx) m.json json'' := by
      rw [← hm'] at hs
      exact hsame.trans (hs.mono (by omega))
    have hafter (json'' : Bytes) (cs : List Call) : m'.after json'' cs = m.after json'' cs := by
      rw [← hm']
      rfl
    rw [parseNested, Prog.bind_assoc_run, Prog.bind_ok (byteAt_key hkey')]
    by_cases hdot : key.head? = some 46
    · -- a key that begins with a dot names a nested group
      have hgroup := parseGroupWith_run hloop hkey' hst' htight
      rw [if_pos (headD_eq_dot.2 hdot), if_pos hdot]
      rcases hread : Format.groupWith tokenLoop key (tokens r) with _ | ⟨calls, _ | rest'⟩
      · rw [hread] at hgroup
        exact Prog.bind_fst_error hgroup
      · rw [hread] at hgroup
        obtain ⟨json'', hx'⟩ := hgroup
        rw [Prog.bind_ok hx', hafter]
        exact ⟨json'', rfl⟩
      · rw [hread] at hgroup
        obtain ⟨json'', len', r', hx', hs, hr', hst'', hpast⟩ := hgroup
        have hback := hst''.return hlen hlt
        have hle' := hback.le
        rw [Prog.bind_ok hx', hafter]
        simp only
        rw [Prog.bind_ok (add_run (by omega) _)]
        exact ⟨json'', c + (len + 1) + len', r', rfl, by omega, hbelow hs, hr', Or.inl hback,
          hreach.trans hpast.reaches⟩
    · -- any other key names an item of the group
      have hitem := readItem_run fuel hgrp' hkey' le_rfl hst' htight hopen
      rw [if_neg fun h ↦ hdot (headD_eq_dot.1 h), if_neg hdot, Prog.bind_assoc_run]
      rcases hread : Format.item fuel (tokens r) with _ | ⟨data, _ | rest'⟩
      · rw [hread] at hitem
        exact Prog.bind_fst_error hitem
      · rw [hread] at hitem
        obtain ⟨json'', hx'⟩ := hitem
        rw [Prog.bind_ok hx', hafter]
        exact ⟨json'', rfl⟩
      · rw [hread] at hitem
        obtain ⟨json'', len', r', hx', hs, hr', hbehind, hreach'⟩ := hitem
        have hback := hbehind.return hlen hlt
        have hle' := hback.le
        rw [Prog.bind_ok hx', hafter, Prog.pure_bind_run]
        simp only
        rw [Prog.bind_ok (add_run (by omega) _)]
        exact ⟨json'', c + (len + 1) + len', r', rfl, by omega, hbelow hs, hr', hback,
          hreach.trans hreach'⟩
  · rw [hpair] at hnext
    obtain ⟨json', c, len, keyAt, value, r, hx, hle, hsame, hst, -, htokens, hreach, -, hvalue,
      -⟩ := hnext
    have hlen := hst.le
    obtain ⟨valueAt, rfl, -⟩ := exists_of_rel_some hvalue
    rw [Prog.bind_ok hx]
    simp only
    rw [Prog.bind_ok (add_run (by omega) _)]
    exact ⟨json', c + len, r, rfl, by omega, hsame, htokens, Or.inl hst, hreach⟩

/-- A run continued behind a member. -/
theorem GroupRun.of_after {m' : Machine} {json' t r : Bytes} {c : ℕ} {cs : List Call}
    {x : Except Stop (Option ℕ) × Machine} {g : Option Format.GroupRead}
    (hm : m' = m.after json' cs) (hsame : SameBelow (json + cidx) m.json json') (hle : cidx ≤ c)
    (hreach : Reaches t r) (h : GroupRun m' json jsonlen c r x g) :
    GroupRun m json jsonlen cidx t x (g.map fun g ↦ ⟨cs ++ g.calls, g.rest⟩) := by
  subst hm
  rcases g with _ | ⟨calls, _ | rest⟩
  · exact h
  · obtain ⟨json'', hx⟩ := h
    rw [Machine.after_after] at hx
    exact ⟨json'', hx⟩
  · obtain ⟨json'', len, r', hx, hs, hr', hst, hpast⟩ := h
    rw [Machine.after_after] at hx
    exact ⟨json'', len, r', hx, hsame.trans (hs.mono (Nat.add_le_add_left hle json)), hr', hst,
      hreach _ hpast⟩

/-- The loop of `parseGroup`. -/
theorem parseGroupLoop_run (fuel : ℕ) :
    LoopRuns (parseGroupLoop fuel) (Format.groupLoop fuel) := by
  -- on the rounds left, which also bound the depth of nested groups
  induction fuel with
  | zero => exact fun _ _ _ _ _ _ _ _ _ _ ↦ rfl
  | succ fuel ih =>
    intro m json jsonlen cidx t grpAt grpName hgrp h hpos
    have hmember := parseGroupMember_run ih fuel hgrp h
    have hlt := h.lt
    rw [parseGroupLoop, Format.groupLoop]
    rcases hread : Format.member (Format.groupLoop fuel) fuel grpName (tokens t) with
      _ | ⟨calls, _ | rest⟩
    · rw [hread] at hmember
      exact Prog.bind_fst_error hmember
    · rw [hread] at hmember
      obtain ⟨json', hx⟩ := hmember
      rw [Prog.bind_ok hx]
      exact ⟨json', rfl⟩
    · rw [hread] at hmember
      obtain ⟨json', c, r, hx, hle, hsame, rfl, hbehind, hreach⟩ := hmember
      rw [Prog.bind_ok hx, Option.bind_some]
      simp only [Format.GroupRead.andThen]
      obtain ⟨c', hskip, hle', hseen⟩ :=
        skipWhitespace_run_of_behind (m := m.after json' calls) hbehind
      rw [Prog.bind_ok hskip]
      refine GroupRun.of_after (rfl : m.after json' calls = _) hsame (by omega)
        (hreach.trans (reaches_dropWhile r)) (c := c') ?_
      rw [← tokens_dropWhile]
      by_cases hcomma : firstByte (tokens (r.dropWhile isspace)) = 44
      · -- behind a comma the next round reads on
        obtain ⟨hrun, r', htokens, hpast, hst'⟩ := commaAt_run hseen (by omega) hcomma
        have hgrp' : CStr (m.after json' calls).json (json + (c' + 1)) grpAt grpName :=
          (hgrp.sameBelow hsame).mono (by omega)
        have hgroup := ih _ _ _ _ _ _ _ hgrp' hst' (Nat.succ_pos _)
        have hend := GroupRun.of_after (m := m.after json' calls)
          (Machine.after_nil _ _).symm (SameBelow.refl (json + c') _) (Nat.le_succ _) hpast.reaches
          hgroup
        rw [Prog.bind_ok hrun, htokens]
        simpa [Format.separator] using hend
      · rw [Prog.bind_ok (commaAt_run_of_ne hseen hcomma)]
        simp only [Bool.false_eq_true, if_false]
        by_cases hbracket : firstByte (tokens (r.dropWhile isspace)) = 125
        · obtain ⟨hrun, r', htokens, hpast, hst'⟩ := closingBracket_run hseen hbracket
          rw [hrun, htokens]
          exact ⟨json', c', r', rfl, SameBelow.refl _ _, rfl, hst', hpast⟩
        · rw [closingBracket_run_of_ne hseen hbracket]
          unfold Format.separator
          split
          · next heq => rw [heq] at hcomma; exact absurd rfl hcomma
          · next heq => rw [heq] at hbracket; exact absurd rfl hbracket
          · exact ⟨json', rfl⟩

/-- **`parseGroup` reads the group that the tokens of the text are.** -/
theorem parseGroup_run (fuel : ℕ) {grpAt : ℕ} {grpName : Bytes}
    (hgrp : CStr m.json json grpAt grpName) (h : Standing m.json json jsonlen 0 t)
    (ht : t.dropWhile isspace = t) :
    GroupRun m json jsonlen 0 t (parseGroup fuel grpAt json jsonlen m)
      (Format.group fuel grpName (tokens t)) :=
  parseGroupWith_run (parseGroupLoop_run fuel) hgrp h ht

end SensingHub.Json
