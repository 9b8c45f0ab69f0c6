import Mathlib.Data.List.Chain
import SensingHub.Json.Passable
import SensingHub.Json.Refinement
import SensingHub.Lib.Depth

/-!
# Which brace closes a group

A group that is read ends with a closing brace. It is the one that matches the opening brace of the
group unless an item within the group has given up: `parseItem` returns the length it has read when
it meets something that is no pair, and its caller goes on there. If that is a comma or a closing
brace, the item's own closing brace is then read as one of the group around it.

An item gives up so only directly behind its opening brace or behind a comma, so where the object at
the front of the text holds no comma and no closing brace there, braces match.
-/

namespace SensingHub.Json

open CLib (isspace str)
open Depth

/-! ### Braces of a text -/

/-- What a byte outside a string adds to the depth. -/
def braceWeight (b : UInt8) : ℤ :=
  if b = 123 then 1 else if b = 125 then -1 else 0

/-- The opening braces of a text less its closing ones, not counting those in strings; `quoted` is
whether the text begins in a string. -/
def braceDepth : (quoted : Bool) → Bytes → ℤ
  | _, [] => 0
  | quoted, b :: t =>
    if b = 34 then braceDepth (!quoted) t
    else (if quoted then 0 else braceWeight b) + braceDepth quoted t

/-- The first `len` bytes of a text are one object: its opening brace is closed behind them and not
earlier. -/
structure ConsumesObject (t : Bytes) (len : ℕ) : Prop where
  inside : ∀ n, 0 < n → n < len → 0 < braceDepth false (t.take n)
  closed : braceDepth false (t.take len) = 0

@[simp] theorem braceDepth_nil (quoted : Bool) : braceDepth quoted [] = 0 := rfl

theorem braceDepth_space {b : UInt8} (h : isspace b = true) (t : Bytes) :
    braceDepth false (b :: t) = braceDepth false t := by
  have hne {c : UInt8} (hc : isspace c = false) : b ≠ c := by
    rintro rfl
    rw [hc] at h
    cases h
  rw [braceDepth, if_neg (hne (by decide)), if_neg Bool.false_ne_true, braceWeight,
    if_neg (hne (by decide)), if_neg (hne (by decide)), zero_add]

theorem braceDepth_byte {b : UInt8} (hquote : b ≠ 34) (t : Bytes) :
    braceDepth false (b :: t) = braceWeight b + braceDepth false t := by
  rw [braceDepth, if_neg hquote, if_neg Bool.false_ne_true]

/-- Braces in a string do not count. -/
theorem braceDepth_string {s : Bytes} (hquote : 34 ∉ s) (t : Bytes) :
    braceDepth true (s ++ t) = braceDepth true t := by
  induction s with
  | nil => rfl
  | cons b s ih =>
    simp only [List.mem_cons, not_or] at hquote
    rw [List.cons_append, braceDepth, if_neg (Ne.symm hquote.1), if_pos rfl, zero_add, ih hquote.2]

theorem braceDepth_quoted {s : Bytes} (hquote : 34 ∉ s) (t : Bytes) :
    braceDepth false (34 :: (s ++ 34 :: t)) = braceDepth false t := by
  rw [braceDepth, if_pos rfl, Bool.not_false, braceDepth_string hquote, braceDepth, if_pos rfl,
    Bool.not_true]

/-- A point within a string, or one behind it. -/
theorem braceDepth_prefix_quoted {s t p : Bytes} (hquote : 34 ∉ s)
    (hp : p <+: 34 :: (s ++ 34 :: t)) :
    braceDepth false p = 0 ∨ ∃ q, q <+: t ∧ p = 34 :: (s ++ 34 :: q) := by
  rcases List.prefix_cons_iff.1 hp with rfl | ⟨p, rfl, hrest⟩
  · exact Or.inl rfl
  have hopen : braceDepth false (34 :: p) = braceDepth true p := by
    rw [braceDepth, if_pos rfl, Bool.not_false]
  rcases List.prefix_or_prefix_of_prefix hrest (List.prefix_append s (34 :: t)) with
    ⟨s', rfl⟩ | ⟨q, rfl⟩
  · have hp : 34 ∉ p := fun hmem ↦ hquote (List.mem_append_left _ hmem)
    have hzero : braceDepth true p = 0 := by
      simpa using braceDepth_string hp []
    exact Or.inl (hopen.trans hzero)
  · rcases List.prefix_cons_iff.1 ((List.prefix_append_right_inj s).1 hrest) with
      rfl | ⟨q, rfl, hq⟩
    · exact Or.inl (hopen.trans (braceDepth_string hquote []))
    · exact Or.inr ⟨q, hq, rfl⟩

/-! ### Braces of tokens -/

/-- What a token adds to the depth. -/
def Token.weight : Token → ℤ
  | .byte b => braceWeight b
  | _ => 0

/-- The depth of a text is that of its tokens. -/
theorem Written.braceDepth_eq {ts : List Token} {w : Bytes} (h : Written ts w) :
    braceDepth false w = depth Token.weight ts := by
  induction h with
  | nil => rfl
  | space hspace _ _ ih => rw [braceDepth_space hspace, ih]
  | byte _ hquote _ ih =>
    rw [braceDepth_byte hquote, ih, depth_cons]
    rfl
  | quoted hquote _ _ ih =>
    rw [braceDepth_quoted hquote, ih, depth_cons]
    exact (zero_add _).symm

/-- The depth at a point before the end of a text is that behind some of its tokens, not all. -/
theorem Written.exists_prefix {ts : List Token} {w p : Bytes} (h : Written ts w) (hp : p <+: w)
    (hne : p ≠ w) :
    ∃ us, us <+: ts ∧ us ≠ ts ∧ braceDepth false p = depth Token.weight us := by
  induction h generalizing p with
  | nil => exact absurd (List.prefix_nil.1 hp) hne
  | space hspace hts _ ih =>
    rcases List.prefix_cons_iff.1 hp with rfl | ⟨q, rfl, hq⟩
    · exact ⟨[], List.nil_prefix, hts.symm, rfl⟩
    · rw [braceDepth_space hspace]
      exact ih hq fun heq ↦ hne (by rw [heq])
  | @byte b ts _ _ hquote _ ih =>
    rcases List.prefix_cons_iff.1 hp with rfl | ⟨q, rfl, hq⟩
    · exact ⟨[], List.nil_prefix, (List.cons_ne_nil _ _).symm, rfl⟩
    · obtain ⟨us, hus, husne, hdepth⟩ := ih hq fun heq ↦ hne (by rw [heq])
      refine ⟨.byte b :: us, List.cons_prefix_cons.2 ⟨rfl, hus⟩, by simpa using husne, ?_⟩
      rw [braceDepth_byte hquote, hdepth, depth_cons]
      rfl
  | @quoted s ts _ hquote _ _ ih =>
    rcases braceDepth_prefix_quoted hquote hp with hzero | ⟨q, hq, rfl⟩
    · exact ⟨[], List.nil_prefix, (List.cons_ne_nil _ _).symm, hzero⟩
    · obtain ⟨us, hus, husne, hdepth⟩ := ih hq fun heq ↦ hne (by rw [heq])
      refine ⟨.quoted s :: us, List.cons_prefix_cons.2 ⟨rfl, hus⟩, by simpa using husne, ?_⟩
      rw [braceDepth_quoted hquote, hdepth, depth_cons]
      exact (zero_add _).symm

/-! ### Where an item gives up -/

/-- Behind an opening brace or a comma stands neither a comma nor a closing brace: an item would
give up there, and its caller go on. -/
def Follows (x y : Token) : Prop :=
  x = .byte 123 ∨ x = .byte 44 → y ≠ .byte 44 ∧ y ≠ .byte 125

instance : DecidableRel Follows := fun _ _ ↦ inferInstanceAs (Decidable (_ → _))

@[simp] theorem follows_quoted (x : Token) (s : Bytes) : Follows x (.quoted s) := by
  simp [Follows]

theorem follows_of_ne {x : Token} (hopen : x ≠ .byte 123) (hcomma : x ≠ .byte 44) (y : Token) :
    Follows x y :=
  fun hx ↦ (hx.elim hopen hcomma).elim

theorem follows_colon (y : Token) : Follows (.byte 58) y :=
  follows_of_ne (by simp) (by simp) y

/-- The object at the front of some tokens: up to the brace that matches its opening brace, or all
of them if none does. -/
def object (ts : List Token) : List Token :=
  untilZero Token.weight 0 ts

/-- The tokens `us` between `x` and `y` stay above the depth they start at and add `n` to it; `ok`
is whether none of them, nor `y`, stands where an item would give up. -/
structure Spans (x : Token) (us : List Token) (y : Token) (n : ℤ) (ok : Prop) : Prop where
  above : Above Token.weight us
  depth_eq : depth Token.weight us = n
  follows : (x :: (us ++ [y])).IsChain Follows ↔ ok

namespace Spans

variable {x y z : Token} {us vs : List Token} {n k : ℤ} {ok ok' : Prop}

theorem nonneg (h : Spans x us y n ok) : 0 ≤ n :=
  h.depth_eq ▸ h.above.depth_nonneg

theorem congr (h : Spans x us y n ok) (hok : ok ↔ ok') : Spans x us y n ok' :=
  ⟨h.above, h.depth_eq, h.follows.trans hok⟩

theorem nil (x y : Token) : Spans x [] y 0 (Follows x y) :=
  ⟨Above.nil, rfl, List.isChain_pair⟩

theorem cons (h : Spans x us y n ok) (hz : Follows z x) (hx : 0 ≤ x.weight) :
    Spans z (x :: us) y (x.weight + n) ok :=
  ⟨h.above.cons hx, by rw [depth_cons, h.depth_eq],
    by rw [List.cons_append, List.isChain_cons_cons, and_iff_right hz, h.follows]⟩

/-- Two parts with a token between them. -/
theorem append (h : Spans x us z n ok) (h' : Spans z vs y k ok') (hz : 0 ≤ z.weight) :
    Spans x (us ++ z :: vs) y (n + (z.weight + k)) (ok ∧ ok') := by
  refine ⟨h.above.append (h'.above.cons hz), ?_, ?_⟩
  · rw [depth_append, depth_cons, h.depth_eq, h'.depth_eq]
  · rw [List.append_assoc, List.cons_append, List.isChain_cons_split, h.follows, h'.follows]

/-- Behind a key and its colon. -/
theorem member (h : Spans (.byte 58) us y n ok) (x : Token) (key : Bytes) :
    Spans x (.quoted key :: .byte 58 :: us) y n ok := by
  have hcolon : Follows (.quoted key) (.byte 58) := follows_of_ne (by simp) (by simp) _
  have hspan := (h.cons hcolon le_rfl).cons (follows_quoted x key) le_rfl
  rwa [show (Token.quoted key).weight = 0 from rfl, show (Token.byte 58).weight = 0 from rfl,
    zero_add, zero_add] at hspan

/-- A value of one token that is neither a brace nor a comma. -/
theorem value {v : Token} (hv : v.weight = 0) (hne : v ≠ .byte 44) (y : Token) :
    Spans (.byte 58) [v] y 0 True := by
  have hopen : v ≠ .byte 123 := by
    rintro rfl
    cases hv
  have hspan := (nil v y).cons (follows_colon v) hv.ge
  rw [hv, zero_add] at hspan
  exact hspan.congr (iff_true_intro (follows_of_ne hopen hne y))

/-- A member that is a string. -/
theorem string (x y : Token) (key s : Bytes) :
    Spans x [.quoted key, .byte 58, .quoted s] y 0 True :=
  (value rfl (by simp) y).member x key

/-- A value between braces. -/
theorem braces (h : Spans (.byte 123) us (.byte 125) n ok) (y : Token) :
    Spans (.byte 58) (.byte 123 :: (us ++ [.byte 125])) y n ok := by
  refine ⟨h.above.enclosed (by decide) (by decide), ?_, ?_⟩
  · rw [depth_cons, depth_append, h.depth_eq, depth_cons, depth_nil]
    show 1 + (n + (-1 + 0)) = n
    omega
  · have hclose : Follows (.byte 125) y := follows_of_ne (by simp) (by simp) y
    rw [List.cons_append, List.isChain_cons_cons, and_iff_right (follows_colon _),
      List.append_assoc, List.singleton_append, List.isChain_cons_split, List.isChain_pair,
      and_iff_left hclose, h.follows]

end Spans

/-! ### What is passed -/

theorem not_follows {x y : Token} (hx : x = .byte 123 ∨ x = .byte 44) (hy : Format.Ends y) :
    ¬ Follows x y := by
  intro h
  rcases hy with rfl | rfl
  · exact (h hx).1 rfl
  · exact (h hx).2 rfl

theorem spans_stringsTokens {strings : List (Bytes × Bytes)} (hne : strings ≠ []) (x y : Token) :
    Spans x (stringsTokens strings) y 0 True := by
  induction strings generalizing x with
  | nil => exact absurd rfl hne
  | cons s strings ih =>
    obtain ⟨key, value⟩ := s
    rcases strings with _ | ⟨s', strings⟩
    · exact Spans.string x y key value
    · have hrest := ih (List.cons_ne_nil _ _) (.byte 44)
      exact ((Spans.string x (.byte 44) key value).append hrest le_rfl).congr
        (and_iff_right trivial)

/-- An item that is left gives up directly behind its opening bracket or a comma. -/
theorem spans_openTokens {x y : Token} (hx : x = .byte 123 ∨ x = .byte 44) (hy : Format.Ends y)
    (strings : List (Bytes × Bytes)) : Spans x (openTokens strings) y 0 False := by
  induction strings generalizing x with
  | nil => exact (Spans.nil x y).congr (iff_false_intro (not_follows hx hy))
  | cons s strings ih =>
    obtain ⟨key, value⟩ := s
    have hrest := ih (Or.inr rfl)
    exact ((Spans.string x (.byte 44) key value).append hrest le_rfl).congr (and_iff_right trivial)

/-- **Members that are passed stay above the depth they start at**, and add nothing to it exactly
if no item among them is left open. -/
theorem Passable.spans {us : List Token} (h : Passable us) (x : Token) {y : Token}
    (hy : Format.Ends y) : ∃ n, Spans x us y n (n = 0) := by
  induction h generalizing x y with
  | string key value =>
    exact ⟨0, (Spans.string x y key value).congr (iff_of_true trivial rfl)⟩
  | @item key strings _ hne =>
    have hspan := ((spans_stringsTokens hne (.byte 123) (.byte 125)).braces y).member x key
    exact ⟨0, hspan.congr (iff_of_true trivial rfl)⟩
  | @openItem key strings _ =>
    have hopen := spans_openTokens (x := .byte 123) (Or.inl rfl) hy strings
    -- the opening brace stays open
    have hspan := (hopen.cons (follows_colon _) (by decide)).member x key
    exact ⟨1, hspan.congr (iff_of_false not_false (by decide))⟩
  | @square key _ =>
    have hspan := (Spans.value (v := .byte 91) rfl (by simp) y).member x key
    exact ⟨0, hspan.congr (iff_of_true trivial rfl)⟩
  | @group key ts _ _ ih =>
    obtain ⟨n, hus⟩ := ih (.byte 123) (Or.inr rfl)
    exact ⟨n, (hus.braces y).member x key⟩
  | @comma ts us _ _ ih ih' =>
    obtain ⟨n, hus⟩ := ih x (Or.inl rfl)
    obtain ⟨k, hvs⟩ := ih' (.byte 44) hy
    have hspan := hus.append hvs le_rfl
    rw [show (Token.byte 44).weight = 0 from rfl, zero_add] at hspan
    refine ⟨n + k, hspan.congr ?_⟩
    -- neither part adds less than nothing
    have := hus.nonneg
    have := hvs.nonneg
    omega

/-- The object at the front of tokens that a group has passed. -/
theorem object_follows_iff {us rest : List Token} {n : ℤ}
    (h : Spans (.byte 123) us (.byte 125) n (n = 0)) :
    (object (.byte 123 :: (us ++ .byte 125 :: rest))).IsChain Follows ↔ n = 0 := by
  have hobject : object (.byte 123 :: (us ++ .byte 125 :: rest)) =
      .byte 123 :: (us ++ .byte 125 :: if n ≤ 0 then [] else untilZero Token.weight n rest) := by
    have hopen : (0 : ℤ) + (Token.byte 123).weight = 1 := rfl
    rw [object, untilZero, hopen, if_neg (by decide), untilZero_append one_pos h.above, h.depth_eq,
      untilZero, show 1 + n + (Token.byte 125).weight = n from add_sub_cancel_left 1 n]
  rw [hobject]
  by_cases hn : n = 0
  · rw [hn, if_pos le_rfl]
    exact iff_of_true (h.follows.2 hn) rfl
  · refine iff_of_false (fun hchain ↦ hn ?_) hn
    exact h.follows.1 (List.isChain_cons_split.1 hchain).1

/-- A group written at the front of a text is one object if and only if it adds nothing to the
depth. -/
theorem consumesObject_of_written {us : List Token} {w : Bytes} {n : ℤ}
    (h : Spans (.byte 123) us (.byte 125) n (n = 0)) (hw : Written (us ++ [.byte 125]) w)
    (r : Bytes) : ConsumesObject (123 :: (w ++ r)) (w.length + 1) ↔ n = 0 := by
  have hdepth : braceDepth false ((123 :: (w ++ r)).take (w.length + 1)) = n := by
    rw [List.take_succ_cons, List.take_left, braceDepth_byte (by decide), hw.braceDepth_eq,
      depth_append, h.depth_eq]
    exact add_sub_cancel 1 n
  refine ⟨fun hobject ↦ hdepth.symm.trans hobject.closed, fun hn ↦ ⟨?_, hdepth.trans hn⟩⟩
  intro k hpos hlt
  obtain ⟨j, rfl⟩ := Nat.exists_eq_add_of_lt hpos
  have hj : 0 + j < w.length := by omega
  rw [List.take_succ_cons, braceDepth_byte (by decide), List.take_append_of_le_length hj.le]
  obtain ⟨vs, hvs, hne, hvdepth⟩ := hw.exists_prefix (List.take_prefix (0 + j) w) fun heq ↦ by
    have := congrArg List.length heq
    rw [List.length_take] at this
    omega
  -- the brace passed last is not among those tokens
  rcases List.prefix_concat_iff.1 hvs with rfl | hprefix
  · exact absurd rfl hne
  · have habove : 0 ≤ depth Token.weight vs := h.above vs hprefix
    have hopen : braceWeight 123 = 1 := rfl
    omega

section

variable {m : Machine} {json jsonlen grpAt len fuel : ℕ} {t : Bytes}

/-- The text of a group that is read begins with an opening brace. -/
theorem opens_of_parseGroup (h : Standing m.json json jsonlen 0 t)
    (hrun : (parseGroup fuel grpAt json jsonlen m).1 = .ok (some len)) : ∃ t', t = 123 :: t' := by
  have hlen := h.length
  rw [parseGroup, parseGroupWith] at hrun
  split_ifs at hrun with hempty
  · cases hrun
  · obtain ⟨b, t, rfl⟩ : ∃ b t', t = b :: t' :=
      List.exists_cons_of_ne_nil (by rintro rfl; exact hempty hlen.symm.le)
    have hbyte : byteAt json m = (.ok b, m) := byteAt_cons h.text
    rw [Prog.bind_ok hbyte] at hrun
    split_ifs at hrun with hopen
    · cases hrun
    · rw [not_not.1 hopen]
      exact ⟨t, rfl⟩

/-- **When a group passes exactly one object**: if and only if no comma and no closing brace stands
directly behind an opening brace or a comma of the object at the front of its text. -/
theorem consumesObject_iff {grpName : Bytes} (hgrp : CStr m.json json grpAt grpName)
    (h : Standing m.json json jsonlen 0 t)
    (hrun : (parseGroup fuel grpAt json jsonlen m).1 = .ok (some len)) :
    ConsumesObject t len ↔ (object (tokens t)).IsChain Follows := by
  obtain ⟨t', rfl⟩ := opens_of_parseGroup h hrun
  have hgroup := parseGroup_run fuel hgrp h rfl
  rcases hread : Format.group fuel grpName (tokens (123 :: t')) with _ | ⟨calls, _ | rest⟩ <;>
    rw [hread] at hgroup
  · cases hrun.symm.trans hgroup
  · obtain ⟨json', hx⟩ := hgroup
    rw [hx] at hrun
    cases hrun
  · obtain ⟨json', len', r, hx, -, rfl, hst, hpast⟩ := hgroup
    rw [hx] at hrun
    cases hrun
    obtain ⟨us, htokens, hus⟩ := Format.passable_of_group hread
    obtain ⟨n, hspan⟩ := hus.spans (.byte 123) (Or.inr rfl)
    obtain ⟨ts, w, hne, hw, htext⟩ := hpast.written
    -- what has been read is written by the tokens that have been passed
    have hts : ts = .byte 123 :: (us ++ [.byte 125]) := by
      rw [htext, hw.tokens_append] at htokens
      exact List.append_cancel_right (htokens.trans (by simp))
    subst hts
    have hlen : len' + 1 = w.length := by
      have hback := hst.length
      have hfront := h.length
      rw [htext, List.length_append] at hfront
      omega
    rw [htokens, object_follows_iff hspan, hlen, htext]
    cases hw with
    | space hspace => cases htext; exact absurd hspace (by decide)
    | byte _ _ hw => exact consumesObject_of_written hspan hw r

end

/-! ### An empty item -/

/-- The machine when `parseFile` calls `parseGroup` for the first member of a file. -/
def Machine.firstMember (c : Bytes) : Machine :=
  (nextPair 0 c.length 1 (Machine.start (.fresh 0) c fun _ ↦ [])).2

/-- A file with a group in a group. -/
def nestedFile : Bytes :=
  str "\x7b\"g\":\x7b\".s\":\x7b\"x\":\x7b\"data\":\"1\"\x7d\x7d\x7d\x7d"

/-- A file with an item that has no members. -/
def emptyItemFile : Bytes :=
  str "\x7b\"g\":\x7b\"x\":\x7b\x7d\x7d\x7d"

theorem consumesObject_nestedFile : ConsumesObject (nestedFile.drop 5) 25 := by
  have hgrp : CStr (Machine.firstMember nestedFile).json 5 2 (str "g") :=
    ⟨by decide, by decide, by decide +kernel⟩
  have htext : Standing (Machine.firstMember nestedFile).json 5 26 0 (nestedFile.drop 5) :=
    ⟨by unfold Text; decide +kernel, by decide +kernel, by decide⟩
  have hrun : (parseGroup 10 2 5 26 (.firstMember nestedFile)).1 = .ok (some 25) := by
    decide +kernel
  exact (consumesObject_iff hgrp htext hrun).2 (by decide +kernel)

/-- The closing brace of an empty item closes the group around it. -/
theorem not_consumesObject_emptyItemFile :
    CStr (Machine.firstMember emptyItemFile).json 5 2 (str "g") ∧
      Standing (Machine.firstMember emptyItemFile).json 5 9 0 (emptyItemFile.drop 5) ∧
      (parseGroup 10 2 5 9 (.firstMember emptyItemFile)).1 = .ok (some 7) ∧
      ¬ ConsumesObject (emptyItemFile.drop 5) 7 := by
  refine ⟨⟨by decide, by decide, by decide +kernel⟩,
    ⟨by unfold Text; decide +kernel, by decide +kernel, by decide⟩, by decide +kernel, fun h ↦ ?_⟩
  exact absurd h.closed (by decide +kernel)

end SensingHub.Json
