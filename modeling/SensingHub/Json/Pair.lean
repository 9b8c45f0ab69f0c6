import SensingHub.Json.Format
import SensingHub.Json.Memory

/-!
# Reading a pair in place

`parsePair` is compared with the pair read from tokens by way of the pair read from the text, which
moves over the same bytes. A pair that is found leaves its key and value as strings behind the
cursor. One that is not may have had the closing quote of its key overwritten already; what the
callers look at afterwards, the byte the attempt started at, is then still a quote.
-/

namespace SensingHub.Json

open CLib (isspace)

/-! ### Pairs of a text -/

/-- A key with its value, if that is a string, and the text behind. -/
structure TextPair where
  key : Bytes
  value : Option Bytes
  rest : Bytes

/-- The tokens of a pair. -/
def TextPair.pair (p : TextPair) : Format.Pair :=
  ⟨p.key, p.value, tokens p.rest⟩

/-- The value of a pair, behind the colon. -/
def textValue (key t : Bytes) : Option TextPair :=
  match t.dropWhile isspace with
  | [] => some ⟨key, none, []⟩
  | b :: r =>
    if b = 34 then (closeQuote r).map fun (value, r) ↦ ⟨key, some value, r.dropWhile isspace⟩
    else if b = 123 ∨ b = 91 then some ⟨key, none, b :: r⟩
    else none

/-- What follows a key. -/
def textColon (key t : Bytes) : Option TextPair :=
  match t.dropWhile isspace with
  | [] => none
  | b :: r => if b = 58 then textValue key r else none

/-- The pair at the start of a text. -/
def textPair : Bytes → Option TextPair
  | [] => none
  | b :: t => if b = 34 then (closeQuote t).bind fun (key, r) ↦ textColon key r else none

/-- The byte at which skipping white space stops is none. -/
theorem isspace_of_dropWhile {t r : Bytes} {b : UInt8} (h : t.dropWhile isspace = b :: r) :
    isspace b = false := by
  have := List.head?_dropWhile_not isspace t
  rw [h] at this
  simpa using this

theorem pairValue_tokens (key t : Bytes) :
    Format.pairValue key (tokens t) = (textValue key t).map TextPair.pair := by
  rw [← tokens_dropWhile, textValue]
  rcases hskip : t.dropWhile isspace with _ | ⟨b, r⟩
  · rfl
  · by_cases hquote : b = 34
    · subst hquote
      rw [tokens_quote]
      rcases hclose : closeQuote r with _ | ⟨value, r'⟩
      · simp [Format.pairValue, hclose]
      · simp [Format.pairValue, hclose, TextPair.pair]
    · have hspace := isspace_of_dropWhile hskip
      rw [tokens_byte hspace hquote]
      simp only [Format.pairValue, if_neg hquote]
      split_ifs
      · simp only [Option.map_some, TextPair.pair, tokens_byte hspace hquote]
      · rfl

theorem pair_tokens_quoted (key t : Bytes) :
    Format.pair (.quoted key :: tokens t) = (textColon key t).map TextPair.pair := by
  rw [← tokens_dropWhile, textColon]
  rcases hskip : t.dropWhile isspace with _ | ⟨b, r⟩
  · rfl
  · by_cases hquote : b = 34
    · subst hquote
      rw [tokens_quote]
      rcases closeQuote r with _ | ⟨value, r'⟩ <;> rfl
    · rw [tokens_byte (isspace_of_dropWhile hskip) hquote]
      simp only [Format.pair]
      split_ifs
      · exact pairValue_tokens key r
      · rfl

/-- The pair at the start of a text is the pair at the start of its tokens. -/
theorem pair_tokens {t : Bytes} (ht : t.dropWhile isspace = t) :
    Format.pair (tokens t) = (textPair t).map TextPair.pair := by
  rcases t with _ | ⟨b, t⟩
  · rfl
  · by_cases hquote : b = 34
    · subst hquote
      rw [tokens_quote, textPair, if_pos rfl]
      rcases closeQuote t with _ | ⟨key, r⟩
      · rfl
      · exact pair_tokens_quoted key r
    · rw [tokens_byte (isspace_of_dropWhile ht) hquote, textPair, if_neg hquote]
      rfl

/-! ### Positions -/

theorem past_of_textValue {key t : Bytes} {p : TextPair} (h : textValue key t = some p) {r : Bytes}
    (hr : Past p.rest r) : Past t r := by
  unfold textValue at h
  split at h
  · cases h
    obtain ⟨ls, hne, hls⟩ := hr.lexemes
    exact absurd (List.append_eq_nil_iff.1 hls.symm).1 hne
  · next b t' hskip =>
    refine Past.of_dropWhile ?_
    rw [hskip]
    split_ifs at h with hquote hbracket
    · subst hquote
      obtain ⟨⟨value, r'⟩, hclose, rfl⟩ := Option.map_eq_some_iff.1 h
      exact (Past.quoted hclose).trans (Past.of_dropWhile hr)
    · cases h
      exact hr

/-- What is left behind something that follows a pair is left behind the pair. -/
theorem past_of_textPair {t : Bytes} {p : TextPair} (h : textPair t = some p) {r : Bytes}
    (hr : Past p.rest r) : Past t r := by
  rcases t with _ | ⟨b, t⟩
  · cases h
  · rw [textPair] at h
    split_ifs at h with hquote
    subst hquote
    obtain ⟨⟨key, t'⟩, hclose, hcolon⟩ := Option.bind_eq_some_iff.1 h
    refine (Past.quoted hclose).trans (Past.of_dropWhile ?_)
    simp only [textColon] at hcolon
    split at hcolon
    · cases hcolon
    · next c t'' hskip =>
      split_ifs at hcolon with hb
      subst hb
      rw [hskip]
      exact (Past.byte rfl (by decide) _).trans (past_of_textValue hcolon hr)

/-! ### `parsePair` -/

variable {m : Machine} {json jsonlen cidx : ℕ} {t : Bytes}

/-- What `parsePair` does where a pair stands: the cursor is moved to what is left of the text, and
key and value are strings before it. Behind a pair without a string the byte before the cursor is
the colon or white space. -/
def PairFound (m : Machine) (json jsonlen start : ℕ) (p : TextPair)
    (x : Except Stop PairResult × Machine) : Prop :=
  ∃ json' len key value,
    x = (.ok ⟨len + 1, some key, value⟩, { m with json := json' }) ∧
    SameBelow (json + start) m.json json' ∧
    start ≤ len + 1 ∧
    Standing json' json jsonlen (len + 1) p.rest ∧
    CStr json' (json + (len + 1)) key p.key ∧
    Option.Rel (CStr json' (json + (len + 1))) value p.value ∧
    (p.value = none → ∃ b, json'[json + len]? = some b ∧ b ≠ 44)

/-- The byte before the text that white space and a colon stand before. -/
theorem byte_before {json' : Bytes} {c : ℕ} (h : Standing json' json jsonlen (cidx + 1) t)
    (hcolon : json'[json + cidx]? = some 58)
    (hst : Standing json' json jsonlen (c + 1) (t.dropWhile isspace)) :
    ∃ b, json'[json + c]? = some b ∧ b ≠ 44 := by
  have hlen := h.length
  have hlen' := hst.length
  have hsplit := length_takeWhile_isspace t
  rcases hspaces : (t.takeWhile isspace).length with _ | n
  · obtain rfl : c = cidx := by omega
    exact ⟨58, hcolon, by decide⟩
  · have hlt : n < (t.takeWhile isspace).length := by omega
    have hmem := List.getElem_mem hlt
    have hspace := List.mem_takeWhile_imp hmem
    refine ⟨(t.takeWhile isspace)[n], ?_, fun h ↦ ?_⟩
    · obtain rfl : c = cidx + 1 + n := by omega
      have hdrop : (json'.drop (json + (cidx + 1)))[n]? = (t ++ [0])[n]? := by rw [h.text]
      rw [List.getElem?_drop, Nat.add_assoc] at hdrop
      have happend : t ++ [0] = t.takeWhile isspace ++ (t.dropWhile isspace ++ [0]) := by
        rw [← List.append_assoc, List.takeWhile_append_dropWhile]
      rw [hdrop, happend, List.getElem?_append_left hlt, List.getElem?_eq_getElem hlt]
    · rw [h] at hspace
      exact absurd hspace (by decide)

theorem parsePairValue_run {keyAt : ℕ} {key : Bytes}
    (h : Standing m.json json jsonlen (cidx + 1) t) (hcolon : m.json[json + cidx]? = some 58)
    (hkey : CStr m.json (json + (cidx + 1)) keyAt key) :
    match textValue key t with
    | some p =>
      PairFound m json jsonlen (cidx + 1) p (parsePairValue json jsonlen (cidx + 1) keyAt m)
    | none =>
      ∃ value,
        parsePairValue json jsonlen (cidx + 1) keyAt m = (.ok ⟨0, some keyAt, value⟩, m) := by
  obtain ⟨c, hrun, hle, hst⟩ := skipWhitespace_run h
  obtain ⟨len, rfl⟩ : ∃ len, c = len + 1 := ⟨c - 1, by omega⟩
  have hlt := h.lt
  have hkey' := hkey.mono (Nat.add_le_add_left hle json)
  have hbefore := byte_before h hcolon hst
  rw [parsePairValue, Prog.bind_ok hrun, textValue]
  rcases hskip : t.dropWhile isspace with _ | ⟨b, r⟩
  · rw [hskip] at hst
    have hlen := hst.length
    rw [if_pos (by simp only [List.length_nil] at hlen; omega)]
    exact ⟨m.json, len, keyAt, none, rfl, SameBelow.refl _ _, hle, hst, hkey', .none,
      fun _ ↦ hbefore⟩
  · rw [hskip] at hst
    have hlen := hst.length
    simp only [List.length_cons] at hlen
    rw [if_neg (by omega), Prog.bind_ok (byteAt_cons hst.text)]
    by_cases hquote : b = 34
    · subst hquote
      simp only [if_true]
      rw [Prog.bind_ok (add_run (by omega) m)]
      have hvalue : Text m.json (json + (len + 1 + 1)) r := hst.cons.text
      rcases hclose : closeQuote r with _ | ⟨value, r'⟩
      · rw [Prog.bind_ok (strchrAt_run_none hvalue hclose)]
        exact ⟨_, rfl⟩
      · obtain ⟨rfl, -, hnul⟩ := closeQuote_eq_some hclose
        rw [List.length_append, List.length_cons] at hlen
        rw [Prog.bind_ok (strchrAt_run hvalue hclose)]
        -- the closing quote becomes the end of the string
        have hstr := hvalue.cStr hnul
        have hback : Standing m.json json jsonlen (len + 1 + 1 + value.length + 1) r' :=
          (Standing.append (by exact hst.cons)).cons
        have hcomm : json + (len + 1 + 1) + value.length = json + (len + 1 + 1 + value.length) := by
          omega
        rw [hcomm] at hstr
        simp only [Option.map_some, Nat.add_sub_cancel_left]
        rw [Prog.bind_ok (add_run (by omega) m),
          Prog.bind_ok (nulAt_run (by have := hback.text.lt_length; omega)),
          Prog.bind_ok (add_run (by omega) _)]
        have hset := hback.set (j := json + (len + 1 + 1 + value.length)) (by omega) 0
        obtain ⟨c', hrun', hle', hst'⟩ := skipWhitespace_run
          (m := { m with json := m.json.set (json + (len + 1 + 1 + value.length)) 0 }) hset
        obtain ⟨len', rfl⟩ : ∃ len', c' = len' + 1 := ⟨c' - 1, by omega⟩
        rw [Prog.bind_ok hrun']
        refine ⟨_, len', keyAt, some (json + (len + 1 + 1)), rfl, ?_, by omega, hst', ?_, ?_,
          fun h ↦ by cases h⟩
        · exact SameBelow.set (by omega) _ _
        · exact (hkey.sameBelow (SameBelow.set (by omega) _ _)).mono (by omega)
        · exact .some (hstr.mono (by omega))
    · rw [if_neg hquote]
      simp only [if_neg hquote]
      by_cases hbracket : b = 123 ∨ b = 91
      · simp only [if_pos hbracket]
        rw [if_neg fun hne : b ≠ 123 ∧ b ≠ 91 ↦ hbracket.elim hne.1 hne.2]
        exact ⟨m.json, len, keyAt, none, rfl, SameBelow.refl _ _, hle, hst, hkey', .none,
      fun _ ↦ hbefore⟩
      · simp only [if_neg hbracket]
        rw [if_pos (not_or.1 hbracket)]
        exact ⟨_, rfl⟩

/-- What `parsePair` does where no pair stands. -/
def PairMissing (m : Machine) (json : ℕ) (t : Bytes) (x : Except Stop PairResult × Machine) :
    Prop :=
  ∃ json' key value,
    x = (.ok ⟨0, key, value⟩, { m with json := json' }) ∧
    SameBelow json m.json json' ∧
    (json' = m.json ∨ t.head? = some 34 ∧ json'[json]? = some 34)

/-- **`parsePair` finds the pair at the start of the text.** -/
theorem parsePair_run (h : Standing m.json json jsonlen 0 t) :
    match textPair t with
    | some p => PairFound m json jsonlen 0 p (parsePair json jsonlen m)
    | none => PairMissing m json t (parsePair json jsonlen m) := by
  have hlt := h.lt
  have hlen := h.length
  rcases t with _ | ⟨b, t⟩
  · rw [textPair, parsePair, if_pos (by simp only [List.length_nil] at hlen; omega)]
    exact ⟨m.json, none, none, rfl, SameBelow.refl _ _, Or.inl rfl⟩
  · simp only [List.length_cons] at hlen
    have hfirst : byteAt json m = (.ok b, m) := byteAt_cons h.text
    by_cases hquote : b = 34
    · subst hquote
      have hkeyAt : Text m.json (json + 1) t := h.cons.text
      simp only [textPair, if_true]
      rw [parsePair, if_neg (by omega), Prog.bind_ok hfirst, if_neg (not_not_intro rfl)]
      rcases hclose : closeQuote t with _ | ⟨key, r⟩
      · simp only [Option.bind_none]
        rw [Prog.bind_ok (strchrAt_run_none hkeyAt hclose)]
        exact ⟨m.json, none, none, rfl, SameBelow.refl _ _, Or.inl rfl⟩
      · obtain ⟨rfl, -, hnul⟩ := closeQuote_eq_some hclose
        rw [List.length_append, List.length_cons] at hlen
        simp only [Option.bind_some]
        rw [Prog.bind_ok (strchrAt_run hkeyAt hclose)]
        simp only [Nat.add_sub_cancel_left]
        have hstr := hkeyAt.cStr hnul
        have hback : Standing m.json json jsonlen (0 + 1 + key.length + 1) r :=
          (Standing.append (by exact h.cons)).cons
        rw [Nat.zero_add] at hback
        rw [if_neg (by omega), Prog.bind_ok (add_run (by omega) m),
          Prog.bind_ok (nulAt_run (by have := hback.text.lt_length; omega)),
          Prog.bind_ok (add_run (by omega) _)]
        -- behind the key the text is as before, and the first byte is still the quote
        have hcomm : json + 1 + key.length = json + (1 + key.length) := Nat.add_assoc ..
        rw [hcomm] at hstr
        generalize hjson : m.json.set (json + (1 + key.length)) 0 = json' at hstr ⊢
        have hset : Standing json' json jsonlen (1 + key.length + 1) r := by
          rw [← hjson]
          exact hback.set (by omega) 0
        have hsame : SameBelow (json + 1) m.json json' := by
          rw [← hjson]
          exact SameBelow.set (by omega) _ _
        have hquote : json'[json]? = some 34 := by
          rw [← hjson, List.getElem?_set_ne (by omega)]
          exact h.text.getElem?
        have hmissing (key' value) : PairMissing m json (34 :: (key ++ 34 :: r))
            (.ok ⟨0, key', value⟩, { m with json := json' }) :=
          ⟨json', key', value, rfl, hsame.mono (Nat.le_succ _), Or.inr ⟨rfl, hquote⟩⟩
        obtain ⟨c, hrun, hle, hst⟩ := skipWhitespace_run (m := { m with json := json' }) hset
        rw [Prog.bind_ok hrun, textColon]
        rcases hskip : r.dropWhile isspace with _ | ⟨b, r'⟩
        · rw [hskip] at hst
          have hlen' := hst.length
          rw [if_pos (by simp only [List.length_nil] at hlen'; omega)]
          exact hmissing _ _
        · rw [hskip] at hst
          have hlen' := hst.length
          simp only [List.length_cons] at hlen'
          rw [if_neg (by omega), Prog.bind_ok (byteAt_cons hst.text)]
          by_cases hcolon : b = 58
          · subst hcolon
            simp only [if_true]
            rw [if_neg (not_not_intro rfl), Prog.bind_ok (add_run (by omega) _)]
            have hvalue := parsePairValue_run (m := { m with json := json' }) hst.cons
              hst.text.getElem? (hstr.mono (by omega))
            rcases htext : textValue key r' with _ | p
            · rw [htext] at hvalue
              obtain ⟨value, hvalue⟩ := hvalue
              simp only
              rw [hvalue]
              exact hmissing _ _
            · rw [htext] at hvalue
              obtain ⟨json'', len, keyAt, value, hx, hsame', -, hst', hkey, hval, hbefore⟩ := hvalue
              simp only
              rw [hx]
              exact ⟨json'', len, keyAt, value, rfl,
                (hsame.trans (hsame'.mono (by omega))).mono (by omega), Nat.zero_le _, hst', hkey,
                hval, hbefore⟩
          · simp only [if_neg hcolon]
            rw [if_pos hcolon]
            exact hmissing _ _
    · simp only [textPair, if_neg hquote]
      rw [parsePair, if_neg (by omega), Prog.bind_ok hfirst, if_pos hquote]
      exact ⟨m.json, none, none, rfl, SameBelow.refl _ _, Or.inl rfl⟩

end SensingHub.Json
