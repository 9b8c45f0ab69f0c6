import SensingHub.Json.Parser
import SensingHub.Json.Token

/-!
# What the in-place parser finds in its buffer

A text that stands in the buffer from an index on, with the NUL of `loadFile` behind it, and a key
or value that ends with the NUL that has been written over its closing quote: in these terms the
functions that read and write single bytes, and `parsePair` with them, are described without indices
into the buffer. Reading a pair leaves everything before it as it was, and so the keys that the
callers still hold.
-/

namespace SensingHub.Json

open CLib (isspace cString strchr cString_append)

/-- The buffer holds the text `t` from index `i` to its end. -/
def Text (json : Bytes) (i : ℕ) (t : Bytes) : Prop :=
  json.drop i = t ++ [0]

/-- The buffer holds the string `s` with its NUL at index `i`, before `bound`. -/
structure CStr (json : Bytes) (bound i : ℕ) (s : Bytes) : Prop where
  nul_notMem : 0 ∉ s
  lt : i + s.length < bound
  take_eq : (json.drop i).take (s.length + 1) = s ++ [0]

/-- Two buffers are the same before an index. -/
def SameBelow (i : ℕ) (json json' : Bytes) : Prop :=
  json'.take i = json.take i

theorem SameBelow.refl (i : ℕ) (json : Bytes) : SameBelow i json json := rfl

theorem SameBelow.trans {i : ℕ} {json json' json'' : Bytes} (h₁ : SameBelow i json json')
    (h₂ : SameBelow i json' json'') : SameBelow i json json'' :=
  Eq.trans h₂ h₁

theorem SameBelow.mono {i j : ℕ} {json json' : Bytes} (h : SameBelow j json json') (hij : i ≤ j) :
    SameBelow i json json' := by
  have := congrArg (List.take i) h
  rwa [List.take_take, List.take_take, min_eq_left hij] at this

theorem SameBelow.set {i j : ℕ} (h : i ≤ j) (json : Bytes) (b : UInt8) :
    SameBelow i json (json.set j b) :=
  List.take_set_of_le h

theorem CStr.sameBelow {json json' : Bytes} {bound i : ℕ} {s : Bytes} (h : CStr json bound i s)
    (hsame : SameBelow bound json json') : CStr json' bound i s := by
  refine ⟨h.nul_notMem, h.lt, ?_⟩
  have hle : i + (s.length + 1) ≤ bound := h.lt
  have htake := hsame.mono hle
  rw [List.take_drop, htake, ← List.take_drop, h.take_eq]

theorem CStr.mono {json : Bytes} {bound bound' i : ℕ} {s : Bytes} (h : CStr json bound i s)
    (hle : bound ≤ bound') : CStr json bound' i s :=
  ⟨h.nul_notMem, lt_of_lt_of_le h.lt hle, h.take_eq⟩

/-! ### Texts -/

theorem Text.append {json : Bytes} {i : ℕ} {u t : Bytes} (h : Text json i (u ++ t)) :
    Text json (i + u.length) t := by
  unfold Text at *
  rw [← List.drop_drop, h, List.append_assoc, List.drop_left]

theorem Text.cons {json : Bytes} {i : ℕ} {b : UInt8} {t : Bytes} (h : Text json i (b :: t)) :
    Text json (i + 1) t :=
  Text.append (u := [b]) h

theorem Text.length {json : Bytes} {i : ℕ} {t : Bytes} (h : Text json i t) :
    i + t.length + 1 = json.length := by
  have := congrArg List.length h
  simp only [List.length_drop, List.length_append, List.length_singleton] at this
  omega

theorem Text.getElem? {json : Bytes} {i : ℕ} {t : Bytes} (h : Text json i t) :
    json[i]? = some (t.headD 0) := by
  have : (json.drop i)[0]? = (t ++ [0])[0]? := by rw [h]
  rw [List.getElem?_drop, Nat.add_zero] at this
  rw [this]
  rcases t with _ | ⟨b, t⟩ <;> rfl

theorem Text.set {json : Bytes} {i j : ℕ} {t : Bytes} (h : Text json i t) (hlt : j < i)
    (b : UInt8) : Text (json.set j b) i t := by
  unfold Text at *
  rw [List.drop_set_of_lt hlt, h]

theorem Text.lt_length {json : Bytes} {i : ℕ} {t : Bytes} (h : Text json i t) :
    i < json.length := by
  have := h.length
  omega

/-- Writing a NUL over its closing quote makes a string of what stands before. -/
theorem Text.cStr {json : Bytes} {i : ℕ} {s r : Bytes} (h : Text json i (s ++ 34 :: r))
    (hs : 0 ∉ s) : CStr (json.set (i + s.length) 0) (i + s.length + 1) i s := by
  refine ⟨hs, by omega, ?_⟩
  have hdrop : (json.set (i + s.length) 0).drop i = (json.drop i).set s.length 0 := by
    rw [List.drop_set, if_neg (by omega), Nat.add_sub_cancel_left]
  rw [hdrop, h, List.append_assoc, List.set_append_right _ _ le_rfl, Nat.sub_self,
    List.take_append, List.take_of_length_le (Nat.le_succ _), Nat.add_sub_cancel_left]
  rfl

/-! ### Bytes -/

variable {m : Machine} {i : ℕ} {t : Bytes}

theorem byteAt_run (h : Text m.json i t) : byteAt i m = (.ok (t.headD 0), m) := by
  rw [byteAt, Prog.read_bind_run, h.getElem?]
  rfl

theorem byteAt_cons {b : UInt8} (h : Text m.json i (b :: t)) : byteAt i m = (.ok b, m) :=
  byteAt_run h

theorem byteAt_of_getElem? {b : UInt8} (h : m.json[i]? = some b) : byteAt i m = (.ok b, m) := by
  rw [byteAt, Prog.read_bind_run, h]
  rfl

theorem nulAt_run (h : i < m.json.length) :
    nulAt i m = (.ok (), { m with json := m.json.set i 0 }) := by
  rw [nulAt, Prog.read_bind_run, if_pos h]
  rfl

theorem CStr.eq_append {json : Bytes} {bound i : ℕ} {s : Bytes} (h : CStr json bound i s) :
    json.drop i = s ++ 0 :: (json.drop i).drop (s.length + 1) := by
  conv_lhs => rw [← List.take_append_drop (s.length + 1) (json.drop i), h.take_eq]
  simp

theorem cStringAt_run {bound : ℕ} {s : Bytes} (h : CStr m.json bound i s) :
    cStringAt i m = (.ok s, m) := by
  rw [cStringAt, Prog.read_bind_run, h.eq_append, cString_append h.nul_notMem]
  rfl

/-- The first byte of a string, its NUL if it is empty. -/
theorem CStr.getElem? {json : Bytes} {bound i : ℕ} {s : Bytes} (h : CStr json bound i s) :
    json[i]? = some (s.headD 0) := by
  have : (json.drop i)[0]? = (s ++ 0 :: (json.drop i).drop (s.length + 1))[0]? := by
    rw [← h.eq_append]
  rw [List.getElem?_drop, Nat.add_zero] at this
  rw [this]
  rcases s with _ | ⟨b, s⟩ <;> rfl

theorem strchrAt_run {s r : Bytes} (h : Text m.json i t) (hclose : closeQuote t = some (s, r)) :
    strchrAt i 34 m = (.ok (some (i + s.length)), m) := by
  rw [strchrAt, Prog.read_bind_run, show m.json.drop i = t ++ [0] from h,
    strchr_of_closeQuote hclose]
  rfl

theorem strchrAt_run_none (h : Text m.json i t) (hclose : closeQuote t = none) :
    strchrAt i 34 m = (.ok none, m) := by
  rw [strchrAt, Prog.read_bind_run, show m.json.drop i = t ++ [0] from h,
    strchr_of_closeQuote_none hclose]
  rfl

/-! ### Cursors -/

theorem add_run {a b : ℕ} (h : a + b < 2 ^ 32) (m : Machine) : add a b m = (.ok (a + b), m) := by
  rw [add, if_pos h]
  rfl

theorem sub_run {a b : ℕ} (hle : b ≤ a) (hlt : a < 2 ^ 32) (m : Machine) :
    sub a b m = (.ok (a - b), m) := by
  rw [sub, if_pos ⟨hle, hlt⟩]
  rfl

theorem addInt_run {a b : ℤ} {c : ℕ} (hc : a + b = c) (hlt : c < 2 ^ 31) (m : Machine) :
    addInt a b m = (.ok (c : ℤ), m) := by
  rw [addInt, if_pos (by omega), hc]
  rfl

theorem pointer_run (json c : ℕ) (m : Machine) : pointer json c m = (.ok (json + c), m) := by
  rw [pointer, if_neg (by omega)]
  rfl

theorem toUInt32_of_lt {c : ℕ} (h : c < 2 ^ 32) : toUInt32 c = c := by
  unfold toUInt32
  omega

/-- Adding the result -1 of `parseConfig` steps back onto the byte before the section. -/
theorem add_neg_one_run {cidx : ℕ} (h : cidx + 1 < 2 ^ 32) (m : Machine) :
    add (cidx + 1) (toUInt32 (-1)) m = (.ok cidx, { m with wrapped := true }) := by
  have hback : Word.add32 (cidx + 1) (toUInt32 (-1)) = cidx := by
    unfold Word.add32 toUInt32
    omega
  rw [add, if_neg (by unfold toUInt32; omega), Prog.modify_bind_run, hback]
  rfl

/-- The cursor `cidx` of a function that has been given `jsonlen` bytes at `json` stands before the
text `t`. -/
structure Standing (json' : Bytes) (json jsonlen cidx : ℕ) (t : Bytes) : Prop where
  text : Text json' (json + cidx) t
  length : cidx + t.length = jsonlen
  lt : jsonlen < 2 ^ 32

theorem Standing.append {json' : Bytes} {json jsonlen cidx : ℕ} {u t : Bytes}
    (h : Standing json' json jsonlen cidx (u ++ t)) :
    Standing json' json jsonlen (cidx + u.length) t := by
  refine ⟨?_, ?_, h.lt⟩
  · rw [← Nat.add_assoc]
    exact h.text.append
  · rw [← h.length, List.length_append]
    omega

theorem Standing.cons {json' : Bytes} {json jsonlen cidx : ℕ} {b : UInt8} {t : Bytes}
    (h : Standing json' json jsonlen cidx (b :: t)) : Standing json' json jsonlen (cidx + 1) t :=
  Standing.append (u := [b]) h

theorem Standing.set {json' : Bytes} {json jsonlen cidx j : ℕ} {t : Bytes}
    (h : Standing json' json jsonlen cidx t) (hlt : j < json + cidx) (b : UInt8) :
    Standing (json'.set j b) json jsonlen cidx t :=
  ⟨h.text.set hlt b, h.length, h.lt⟩

theorem Standing.le {json' : Bytes} {json jsonlen cidx : ℕ} {t : Bytes}
    (h : Standing json' json jsonlen cidx t) : cidx ≤ jsonlen := by
  have := h.length
  omega

/-- A function called on the rest of the text. -/
theorem Standing.call {json' : Bytes} {json jsonlen cidx : ℕ} {t : Bytes}
    (h : Standing json' json jsonlen cidx t) : Standing json' (json + cidx) (jsonlen - cidx) 0 t :=
  ⟨h.text, by have := h.length; omega, by have := h.lt; omega⟩

/-- The cursor moved by the length that a function called on the rest of the text returns. -/
theorem Standing.return {json' : Bytes} {json jsonlen cidx len : ℕ} {t : Bytes}
    (h : Standing json' (json + cidx) (jsonlen - cidx) len t) (hle : cidx ≤ jsonlen)
    (hlt : jsonlen < 2 ^ 32) : Standing json' json jsonlen (cidx + len) t :=
  ⟨by rw [← Nat.add_assoc]; exact h.text, by have := h.length; omega, hlt⟩

/-! ### White space -/

theorem whitespaceLoop_run (s cidx : ℕ) (h : Text m.json (s + cidx) t) :
    whitespaceLoop s t.length cidx m = (.ok (cidx + (t.takeWhile isspace).length), m) := by
  induction t generalizing cidx with
  | nil => rfl
  | cons b t ih =>
    rw [List.length_cons, whitespaceLoop, Prog.bind_ok (byteAt_cons h), List.takeWhile_cons]
    by_cases hspace : isspace b = true
    · rw [if_pos hspace, if_pos hspace, ih _ (by rw [← Nat.add_assoc]; exact h.cons),
        List.length_cons]
      congr 2
      omega
    · rw [if_neg hspace, if_neg hspace]
      rfl

variable {json jsonlen cidx : ℕ}

theorem length_takeWhile_isspace (t : Bytes) :
    (t.takeWhile isspace).length + (t.dropWhile isspace).length = t.length := by
  rw [← List.length_append, List.takeWhile_append_dropWhile]

theorem getWhitespaceLen_run (h : Standing m.json json jsonlen cidx t) :
    ∃ w, getWhitespaceLen (json + cidx) (jsonlen - cidx) m = (.ok w, m) ∧
      Standing m.json json jsonlen (cidx + w) (t.dropWhile isspace) := by
  have hlen := h.length
  have hleft : jsonlen - cidx = t.length := by omega
  refine ⟨(t.takeWhile isspace).length, ?_, ?_⟩
  · rw [getWhitespaceLen, hleft, whitespaceLoop_run (json + cidx) 0 h.text, Nat.zero_add]
  · refine Standing.append (u := t.takeWhile isspace) ?_
    rwa [List.takeWhile_append_dropWhile]

/-- Before a byte that is no white space there is none, whatever stands behind it. -/
theorem getWhitespaceLen_run_of_getElem? {b : UInt8} (hb : m.json[json]? = some b)
    (hspace : isspace b = false) (left : ℕ) : getWhitespaceLen json left m = (.ok 0, m) := by
  rw [getWhitespaceLen]
  rcases left with _ | left
  · rfl
  · rw [whitespaceLoop, Nat.add_zero, Prog.bind_ok (byteAt_of_getElem? hb), if_neg]
    · rfl
    · rw [hspace]
      exact Bool.false_ne_true

/-- White space is skipped. -/
theorem skipWhitespace_run (h : Standing m.json json jsonlen cidx t) :
    ∃ cidx', skipWhitespace json jsonlen cidx m = (.ok cidx', m) ∧ cidx ≤ cidx' ∧
      Standing m.json json jsonlen cidx' (t.dropWhile isspace) := by
  obtain ⟨w, hrun, hst⟩ := getWhitespaceLen_run h
  have hle := hst.le
  have hlt := h.lt
  refine ⟨cidx + w, ?_, Nat.le_add_right _ _, hst⟩
  rw [skipWhitespace, Prog.bind_ok (sub_run h.le hlt m), Prog.bind_ok hrun]
  exact add_run (by omega) m

end SensingHub.Json
