import SensingHub.Lib.CString

/-!
# Tokens of a configuration

What the parser distinguishes in a text are quoted strings and single bytes; white space between
them only separates. A text is cut into lexemes, each a token with a note of whether white space
stands directly before it, since the loop of `parseFile` is the one place where that matters.

Every text has lexemes. A quote that is never closed is a token that ends them: the parser does not
get past it.
-/

namespace SensingHub.Json

open CLib (isspace strchr)

/-- A quoted string, any other byte that is not white space, or a quote without a closing one. -/
inductive Token
  | byte (b : UInt8)
  | quoted (s : Bytes)
  | unclosed
  deriving DecidableEq, Repr

/-- A token, and whether white space stands directly before it. -/
structure Lexeme where
  gap : Bool
  token : Token
  deriving DecidableEq, Repr

/-! ### Quoted strings -/

/-- The string up to the next quote and the text behind that quote, `none` when a NUL or the end of
the text comes first. -/
def closeQuote : Bytes → Option (Bytes × Bytes)
  | [] => none
  | b :: t =>
    if b = 34 then some ([], t)
    else if b = 0 then none
    else (closeQuote t).map fun (s, r) ↦ (b :: s, r)

theorem closeQuote_eq_some {t s r : Bytes} (h : closeQuote t = some (s, r)) :
    t = s ++ 34 :: r ∧ 34 ∉ s ∧ 0 ∉ s := by
  induction t generalizing s with
  | nil => simp [closeQuote] at h
  | cons b t ih =>
    unfold closeQuote at h
    split_ifs at h with hquote hnul
    · obtain ⟨rfl, rfl⟩ := Prod.mk.inj (Option.some.inj h)
      simp [hquote]
    · rcases hclose : closeQuote t with _ | ⟨s', r'⟩
      · simp [hclose] at h
      · obtain ⟨rfl, rfl⟩ : b :: s' = s ∧ r' = r := by simpa [hclose] using h
        obtain ⟨rfl, hs, hz⟩ := ih hclose
        simp [Ne.symm hquote, Ne.symm hnul, hs, hz]

theorem closeQuote_append {s : Bytes} (hquote : 34 ∉ s) (hnul : 0 ∉ s) (r : Bytes) :
    closeQuote (s ++ 34 :: r) = some (s, r) := by
  induction s with
  | nil => simp [closeQuote]
  | cons b s ih =>
    simp only [List.mem_cons, not_or] at hquote hnul
    simp [closeQuote, Ne.symm hquote.1, Ne.symm hnul.1, ih hquote.2 hnul.2]

/-- `strchr` finds the closing quote of a text that a NUL follows. -/
theorem strchr_of_closeQuote {t s r : Bytes} (h : closeQuote t = some (s, r)) :
    strchr 34 (t ++ [0]) = some (some s.length) := by
  induction t generalizing s with
  | nil => simp [closeQuote] at h
  | cons b t ih =>
    unfold closeQuote at h
    rw [List.cons_append]
    unfold strchr
    split_ifs at h ⊢ with hquote hnul
    · obtain ⟨rfl, -⟩ := Prod.mk.inj (Option.some.inj h)
      rfl
    · rcases hclose : closeQuote t with _ | ⟨s', r'⟩
      · simp [hclose] at h
      · obtain ⟨rfl, rfl⟩ : b :: s' = s ∧ r' = r := by simpa [hclose] using h
        rw [ih hclose]
        rfl

theorem strchr_of_closeQuote_none {t : Bytes} (h : closeQuote t = none) :
    strchr 34 (t ++ [0]) = some none := by
  induction t with
  | nil => simp [strchr]
  | cons b t ih =>
    unfold closeQuote at h
    rw [List.cons_append]
    unfold strchr
    split_ifs at h ⊢ with hquote hnul
    · rfl
    · rw [ih (by simpa using h)]
      rfl

/-! ### Lexemes -/

/-- The lexemes of a text; inside a string, `quote` is what has been read of it. -/
def lexFrom : (quote : Option Bytes) → (gap : Bool) → Bytes → List Lexeme
  | none, _, [] => []
  | some _, gap, [] => [⟨gap, .unclosed⟩]
  | none, gap, b :: t =>
    if isspace b then lexFrom none true t
    else if b = 34 then lexFrom (some []) gap t
    else ⟨gap, .byte b⟩ :: lexFrom none false t
  | some s, gap, b :: t =>
    if b = 34 then ⟨gap, .quoted s⟩ :: lexFrom none false t
    else if b = 0 then [⟨gap, .unclosed⟩]
    else lexFrom (some (s ++ [b])) gap t

/-- The lexemes of a text. -/
def lex (t : Bytes) : List Lexeme :=
  lexFrom none false t

/-- The tokens of a text. -/
def tokens (t : Bytes) : List Token :=
  (lex t).map Lexeme.token

/-- White space stands before the first of some lexemes. -/
def behindSpace : List Lexeme → List Lexeme
  | [] => []
  | l :: ls => { l with gap := true } :: ls

theorem lexFrom_some (s : Bytes) (gap : Bool) (t : Bytes) :
    lexFrom (some s) gap t =
      match closeQuote t with
      | none => [⟨gap, .unclosed⟩]
      | some (s', r) => ⟨gap, .quoted (s ++ s')⟩ :: lex r := by
  induction t generalizing s with
  | nil => rfl
  | cons b t ih =>
    unfold lexFrom closeQuote
    split_ifs with hquote hnul
    · simp [lex]
    · rfl
    · rw [ih]
      rcases closeQuote t with _ | ⟨s', r⟩
      · rfl
      · simp

theorem lexFrom_true (t : Bytes) : lexFrom none true t = behindSpace (lex t) := by
  induction t with
  | nil => rfl
  | cons b t ih =>
    unfold lex lexFrom
    split_ifs with hspace hquote
    · rw [ih]
      rcases lex t with _ | ⟨l, ls⟩ <;> rfl
    · rw [lexFrom_some, lexFrom_some]
      rcases closeQuote t with _ | ⟨s, r⟩ <;> rfl
    · rfl

theorem lex_space {b : UInt8} (h : isspace b = true) (t : Bytes) :
    lex (b :: t) = behindSpace (lex t) := by
  rw [← lexFrom_true, lex, lexFrom, if_pos h]

theorem lex_byte {b : UInt8} (hspace : isspace b = false) (hquote : b ≠ 34) (t : Bytes) :
    lex (b :: t) = ⟨false, .byte b⟩ :: lex t := by
  simp [lex, lexFrom, hspace, hquote]

theorem lex_quote (t : Bytes) :
    lex (34 :: t) =
      match closeQuote t with
      | none => [⟨false, .unclosed⟩]
      | some (s, r) => ⟨false, .quoted s⟩ :: lex r := by
  rw [lex, lexFrom, if_neg (by decide), if_pos rfl, lexFrom_some]
  rfl

theorem lex_quoted {s : Bytes} (hquote : 34 ∉ s) (hnul : 0 ∉ s) (r : Bytes) :
    lex (34 :: (s ++ 34 :: r)) = ⟨false, .quoted s⟩ :: lex r := by
  rw [lex_quote, closeQuote_append hquote hnul]

/-- A text has at most as many lexemes as bytes. -/
theorem length_lexFrom_le (quote : Option Bytes) (gap : Bool) (t : Bytes) :
    (lexFrom quote gap t).length ≤ t.length + quote.toList.length := by
  induction t generalizing quote gap with
  | nil => rcases quote with _ | s <;> simp [lexFrom]
  | cons b t ih =>
    rcases quote with _ | s
    · rw [lexFrom]
      split_ifs
      · exact (ih none true).trans (by simp)
      · exact ih (some []) gap
      · simpa using ih none false
    · rw [lexFrom]
      split_ifs
      · simpa using (ih none false).trans (Nat.le_succ _)
      · simp
      · exact (ih (some (s ++ [b])) gap).trans (by simp)

theorem length_lex_le (t : Bytes) : (lex t).length ≤ t.length :=
  length_lexFrom_le none false t

/-! ### Tokens -/

theorem tokens_space {b : UInt8} (h : isspace b = true) (t : Bytes) :
    tokens (b :: t) = tokens t := by
  rw [tokens, lex_space h, tokens]
  rcases lex t with _ | ⟨l, ls⟩ <;> rfl

theorem tokens_byte {b : UInt8} (hspace : isspace b = false) (hquote : b ≠ 34) (t : Bytes) :
    tokens (b :: t) = .byte b :: tokens t := by
  rw [tokens, lex_byte hspace hquote]
  rfl

theorem tokens_quote (t : Bytes) :
    tokens (34 :: t) =
      match closeQuote t with
      | none => [.unclosed]
      | some (s, r) => .quoted s :: tokens r := by
  rw [tokens, lex_quote]
  rcases closeQuote t with _ | ⟨s, r⟩ <;> rfl

/-- White space at the start of a text is no token. -/
@[simp] theorem tokens_dropWhile (t : Bytes) : tokens (t.dropWhile isspace) = tokens t := by
  induction t with
  | nil => rfl
  | cons b t ih =>
    rw [List.dropWhile_cons]
    split_ifs with h
    · rw [ih, tokens_space h]
    · rfl

/-- The first lexeme of a text that begins, behind white space, with a byte that is a token. -/
theorem lex_of_dropWhile {t r : Bytes} {b : UInt8} (h : t.dropWhile isspace = b :: r)
    (hspace : isspace b = false) (hquote : b ≠ 34) : ∃ gap, lex t = ⟨gap, .byte b⟩ :: lex r := by
  induction t with
  | nil => cases h
  | cons c t ih =>
    rw [List.dropWhile_cons] at h
    split_ifs at h with hc
    · obtain ⟨gap, hgap⟩ := ih h
      exact ⟨true, by rw [lex_space hc, hgap]; rfl⟩
    · cases h
      exact ⟨false, lex_byte hspace hquote _⟩

/-! ### Texts put together -/

/-- A text without lexemes ends, if it is not empty, with white space. -/
theorem isspace_of_lexFrom_eq_nil {gap : Bool} {t : Bytes} (h : lexFrom none gap t = []) {b : UInt8}
    (hb : t.getLast? = some b) : isspace b = true := by
  induction t generalizing gap with
  | nil => cases hb
  | cons c t ih =>
    rw [lexFrom] at h
    split_ifs at h with hspace hquote
    · rcases t with _ | ⟨d, t⟩
      · cases hb
        exact hspace
      · exact ih h hb
    · rw [lexFrom_some] at h
      split at h <;> cases h

/-- Behind a byte that is the last token of a text, more text only adds its lexemes. -/
theorem lexFrom_append {quote : Option Bytes} {gap : Bool} {t : Bytes} {b : UInt8}
    (htoken : ((lexFrom quote gap t).map Lexeme.token).getLast? = some (.byte b))
    (hbyte : t.getLast? = some b) (hspace : isspace b = false) (r : Bytes) :
    lexFrom quote gap (t ++ r) = lexFrom quote gap t ++ lex r := by
  induction t generalizing quote gap with
  | nil => cases hbyte
  | cons c t ih =>
    have hlast (hne : t ≠ []) : t.getLast? = some b := by
      obtain ⟨d, t', rfl⟩ := List.exists_cons_of_ne_nil hne
      exact hbyte
    -- behind a lexeme the rest of the text has more of them, or there is none
    have hrest (hne : t ≠ []) (l : Lexeme)
        (h : ((l :: lexFrom none false t).map Lexeme.token).getLast? = some (.byte b)) :
        lexFrom none false (t ++ r) = lexFrom none false t ++ lex r := by
      refine ih ?_ (hlast hne)
      rcases hls : lexFrom none false t with _ | ⟨l', ls⟩
      · rw [isspace_of_lexFrom_eq_nil hls (hlast hne)] at hspace
        cases hspace
      · rw [hls] at h
        exact h
    rw [List.cons_append]
    rcases quote with _ | s
    · rw [lexFrom, lexFrom]
      rw [lexFrom] at htoken
      split_ifs at htoken ⊢
      · rcases t with _ | ⟨d, t⟩
        · cases htoken
        · exact ih htoken (hlast (List.cons_ne_nil _ _))
      · rcases t with _ | ⟨d, t⟩
        · cases htoken
        · exact ih htoken (hlast (List.cons_ne_nil _ _))
      · rcases t with _ | ⟨d, t⟩
        · rfl
        · rw [hrest (List.cons_ne_nil _ _) _ htoken]
          rfl
    · rw [lexFrom, lexFrom]
      rw [lexFrom] at htoken
      split_ifs at htoken ⊢
      · rcases t with _ | ⟨d, t⟩
        · cases htoken
        · rw [hrest (List.cons_ne_nil _ _) _ htoken]
          rfl
      · cases htoken
      · rcases t with _ | ⟨d, t⟩
        · cases htoken
        · exact ih htoken (hlast (List.cons_ne_nil _ _))

/-- The lexemes of a text that ends with a closing bracket, followed by more text. -/
theorem lex_append {t : Bytes} {b : UInt8} (htoken : (tokens t).getLast? = some (.byte b))
    (hbyte : t.getLast? = some b) (hspace : isspace b = false) (r : Bytes) :
    lex (t ++ r) = lex t ++ lex r :=
  lexFrom_append htoken hbyte hspace r

/-! ### Texts without white space -/

/-- The bytes of a token. -/
def Token.bytes : Token → Bytes
  | .byte b => [b]
  | .quoted s => 34 :: (s ++ [34])
  | .unclosed => [34]

/-- A token that a text can hold anywhere. -/
def Token.Plain : Token → Prop
  | .byte b => isspace b = false ∧ b ≠ 34
  | .quoted s => 34 ∉ s ∧ 0 ∉ s
  | .unclosed => False

/-- Tokens one directly behind the other. -/
def render (ts : List Token) : Bytes :=
  ts.flatMap Token.bytes

theorem lex_render {ts : List Token} (h : ∀ t ∈ ts, t.Plain) :
    lex (render ts) = ts.map (Lexeme.mk false) := by
  induction ts with
  | nil => rfl
  | cons t ts ih =>
    have ht := h t (List.mem_cons_self ..)
    have hts := ih fun t' ht' ↦ h t' (List.mem_cons_of_mem _ ht')
    cases t with
    | byte b => exact (lex_byte ht.1 ht.2 (render ts)).trans (congrArg _ hts)
    | quoted s =>
      have happend : render (.quoted s :: ts) = 34 :: (s ++ 34 :: render ts) := by
        simp [render, Token.bytes]
      rw [happend, lex_quoted ht.1 ht.2, hts]
      rfl
    | unclosed => exact ht.elim

theorem tokens_render {ts : List Token} (h : ∀ t ∈ ts, t.Plain) : tokens (render ts) = ts := by
  rw [tokens, lex_render h, List.map_map]
  exact List.map_id ts

/-! ### Positions in a text -/

/-- The text is these tokens, with white space before and between them, but none behind the last. -/
inductive Written : List Token → Bytes → Prop
  | nil : Written [] []
  | space {b : UInt8} {ts : List Token} {w : Bytes} :
    isspace b = true → ts ≠ [] → Written ts w → Written ts (b :: w)
  | byte {b : UInt8} {ts : List Token} {w : Bytes} :
    isspace b = false → b ≠ 34 → Written ts w → Written (.byte b :: ts) (b :: w)
  | quoted {s : Bytes} {ts : List Token} {w : Bytes} :
    34 ∉ s → 0 ∉ s → Written ts w → Written (.quoted s :: ts) (34 :: (s ++ 34 :: w))

theorem Written.append {ts us : List Token} {w v : Bytes} (h : Written ts w) (h' : Written us v) :
    Written (ts ++ us) (w ++ v) := by
  induction h with
  | nil => exact h'
  | space hspace hne _ ih => exact .space hspace (by simp [hne]) ih
  | byte hspace hquote _ ih => exact .byte hspace hquote ih
  | quoted hquote hnul _ ih =>
    simp only [List.cons_append, List.append_assoc]
    exact .quoted hquote hnul ih

/-- The tokens of a text that begins with written ones. -/
theorem Written.tokens_append {ts : List Token} {w : Bytes} (h : Written ts w) (r : Bytes) :
    tokens (w ++ r) = ts ++ tokens r := by
  induction h with
  | nil => rfl
  | space hspace _ _ ih => rw [List.cons_append, tokens_space hspace, ih]
  | byte hspace hquote _ ih =>
    rw [List.cons_append, tokens_byte hspace hquote, ih, List.cons_append]
  | quoted hquote hnul _ ih =>
    rw [List.cons_append, List.append_assoc, List.cons_append, tokens_quote,
      closeQuote_append hquote hnul]
    exact congrArg _ ih

/-- `r` is what is left of the text `t` directly behind one or more of its lexemes. -/
structure Past (t r : Bytes) : Prop where
  written : ∃ ts w, ts ≠ [] ∧ Written ts w ∧ t = w ++ r
  lexemes : ∃ ls, ls ≠ [] ∧ lex t = ls ++ lex r

theorem Past.suffix {t r : Bytes} (h : Past t r) : r <:+ t := by
  obtain ⟨-, w, -, -, rfl⟩ := h.written
  exact List.suffix_append w r

theorem Past.trans {t r s : Bytes} (h₁ : Past t r) (h₂ : Past r s) : Past t s := by
  obtain ⟨ts, w, hts, hw, rfl⟩ := h₁.written
  obtain ⟨us, v, -, hv, rfl⟩ := h₂.written
  obtain ⟨ls, hne, hls⟩ := h₁.lexemes
  obtain ⟨ms, -, hms⟩ := h₂.lexemes
  exact ⟨⟨ts ++ us, w ++ v, by simp [hts], hw.append hv, (List.append_assoc ..).symm⟩, ls ++ ms,
    by simp [hne], by rw [hls, hms, List.append_assoc]⟩

theorem Past.byte {b : UInt8} (hspace : isspace b = false) (hquote : b ≠ 34) (t : Bytes) :
    Past (b :: t) t :=
  ⟨⟨[.byte b], [b], List.cons_ne_nil _ _, .byte hspace hquote .nil, rfl⟩, [⟨false, .byte b⟩],
    List.cons_ne_nil _ _, lex_byte hspace hquote t⟩

theorem Past.quoted {t s r : Bytes} (h : closeQuote t = some (s, r)) : Past (34 :: t) r := by
  refine ⟨?_, [⟨false, .quoted s⟩], List.cons_ne_nil _ _, by rw [lex_quote, h]; rfl⟩
  obtain ⟨rfl, hquote, hnul⟩ := closeQuote_eq_some h
  exact ⟨[.quoted s], 34 :: (s ++ [34]), List.cons_ne_nil _ _, .quoted hquote hnul .nil, by simp⟩

/-- Skipping white space before a position does not lose it. -/
theorem Past.of_dropWhile {t r : Bytes} (h : Past (t.dropWhile isspace) r) : Past t r := by
  induction t with
  | nil => exact h
  | cons b t ih =>
    rw [List.dropWhile_cons] at h
    split_ifs at h with hspace
    · obtain ⟨⟨ts, w, hts, hw, rfl⟩, ls, hne, hls⟩ := ih h
      obtain ⟨l, ls, rfl⟩ := List.exists_cons_of_ne_nil hne
      refine ⟨⟨ts, b :: w, hts, .space hspace hts hw, rfl⟩, { l with gap := true } :: ls,
        List.cons_ne_nil _ _, ?_⟩
      rw [lex_space hspace, hls]
      rfl
    · exact h

/-- The lexemes behind a position, found by counting the tokens left. -/
theorem Past.lex_eq {t r : Bytes} (h : Past t r) :
    (lex t).drop ((lex t).length - (tokens r).length) = lex r := by
  obtain ⟨ls, -, hls⟩ := h.lexemes
  simp [hls, tokens]

end SensingHub.Json
