import SensingHub.Json.Bounds
import SensingHub.Json.Cursors
import SensingHub.Lib.Triple

/-!
# What the parser does to its buffer and its cursors

The NULs that the parser writes stand where the file has quotes, so that two facts about a string
that has been handed out survive all that is written later: the bytes before its NUL are those of
the file, for they are no quotes, and the NUL stays. What does not survive is that the bytes from a
cursor on are untouched. Behind a pair that cannot be read they may not be; but the byte at the
cursor is then still the quote the attempt began at, and nobody gets past it (`Ready`).

The invariant `Kept` says this of every step in the journal, and that no operation on a cursor has
left 32 bits as long as the machine has not noticed. There is one specification for each function.
-/

namespace SensingHub.Json

open CLib (str isspace cString)

/-! ### The buffer and the file -/

/-- `json'` is `json` with a NUL written over some of the quotes of `file`. -/
structure Nulled (file json json' : Bytes) : Prop where
  length : json'.length = json.length
  byte : ∀ i : ℕ, json'[i]? = json[i]? ∨ file[i]? = some 34 ∧ json'[i]? = some 0

/-- The bytes from `first` to `last` are those of the file, with the NUL behind it. -/
def Untouched (file json : Bytes) (first last : ℕ) : Prop :=
  last ≤ file.length ∧ ∀ i, first ≤ i → i ≤ last → json[i]? = (file ++ [0])[i]?

/-- From index `k` on the file has `v`, between two quotes. -/
def Slice (file : Bytes) (k : ℕ) (v : Bytes) : Prop :=
  ∃ before behind, file = before ++ 34 :: (v ++ 34 :: behind) ∧ before.length + 1 = k ∧ 34 ∉ v

/-- What in-place parsing asks of an event: bytes that are tested or scanned are those of the file,
and a key or value that is used reads as a slice of it. -/
def Event.InPlace (file json : Bytes) : Event → Prop
  | .test i => Untouched file json i i
  | .scan first last => Untouched file json first last
  | .use k => ∃ v, cString (json.drop k) = some v ∧ Slice file k v
  | .enter | .leave _ | .advance _ _ | .reset _ | .remaining _ _ | .nul _ => True

/-- What in-place parsing asks of a step: the buffer differs from the file only by NULs over quotes,
and the event does not notice that. -/
structure Step.InPlace (file : Bytes) (s : Step) : Prop where
  buffer : Nulled file (file ++ [0]) s.json
  event : s.event.InPlace file s.json

instance (file : Bytes) : Std.Refl (Nulled file) :=
  ⟨fun _ ↦ ⟨rfl, fun _ ↦ Or.inl rfl⟩⟩

instance (file : Bytes) : IsTrans Bytes (Nulled file) where
  trans _ _ _ h h' := by
    refine ⟨h'.length.trans h.length, fun i ↦ ?_⟩
    rcases h'.byte i with hsame | hnul
    · rw [hsame]
      exact h.byte i
    · exact Or.inr hnul

variable {file json json' : Bytes} {i k : ℕ}

theorem Nulled.set (h : file[i]? = some 34) (json : Bytes) : Nulled file json (json.set i 0) := by
  refine ⟨List.length_set, fun j ↦ ?_⟩
  by_cases hij : i = j
  · subst hij
    rw [List.getElem?_set_self']
    rcases hbyte : json[i]? with _ | b
    · exact Or.inl rfl
    · exact Or.inr ⟨h, rfl⟩
  · exact Or.inl (List.getElem?_set_ne hij)

/-- A byte of the file that is no quote is in the buffer. -/
theorem Nulled.getElem? (h : Nulled file (file ++ [0]) json) (hquote : file[i]? ≠ some 34) :
    json[i]? = (file ++ [0])[i]? := by
  rcases h.byte i with hsame | ⟨hquote', -⟩
  · exact hsame
  · exact absurd hquote' hquote

/-! ### Strings that have been handed out -/

/-- A slice of the file, in the buffer with a NUL over its closing quote. -/
def IsString (file json : Bytes) (k : ℕ) : Prop :=
  ∃ v, Slice file k v ∧ 0 ∉ v ∧ json[k + v.length]? = some 0

theorem Slice.drop_eq {v : Bytes} (h : Slice file k v) :
    ∃ behind, file.drop k = v ++ 34 :: behind := by
  obtain ⟨before, behind, rfl, rfl, -⟩ := h
  exact ⟨behind, by simp⟩

theorem Slice.of_drop {v behind : Bytes} (hopen : file[k]? = some 34)
    (h : file.drop (k + 1) = v ++ 34 :: behind) (hv : 34 ∉ v) : Slice file (k + 1) v := by
  obtain ⟨hlt, hget⟩ := List.getElem?_eq_some_iff.1 hopen
  refine ⟨file.take k, behind, ?_, ?_, hv⟩
  · rw [← h, ← hget, List.getElem_cons_drop, List.take_append_drop]
  · rw [List.length_take_of_le hlt.le]

/-- What has been handed out stays a string whatever is written over quotes. -/
theorem IsString.mono (h : IsString file json k) (hnulled : Nulled file json json') :
    IsString file json' k := by
  obtain ⟨v, hv, hnul, hend⟩ := h
  refine ⟨v, hv, hnul, ?_⟩
  rcases hnulled.byte (k + v.length) with hsame | ⟨-, hzero⟩
  · rw [hsame, hend]
  · exact hzero

/-- **It reads as the slice.** -/
theorem IsString.reads (h : IsString file json k) (hbuffer : Nulled file (file ++ [0]) json) :
    ∃ v, cString (json.drop k) = some v ∧ Slice file k v := by
  obtain ⟨v, hv, hnul, hend⟩ := h
  obtain ⟨behind, hdrop⟩ := hv.drop_eq
  have hquote : 34 ∉ v := by
    obtain ⟨-, -, -, -, hquote⟩ := hv
    exact hquote
  have hbyte : ∀ j < v.length, json[k + j]? = v[j]? := by
    intro j hj
    have hc : file[k + j]? = v[j]? := by
      rw [← List.getElem?_drop, hdrop, List.getElem?_append_left hj]
    have hget := hc.trans (List.getElem?_eq_getElem hj)
    rw [hbuffer.getElem?, List.getElem?_append_left (List.getElem?_eq_some_iff.1 hget).1, hc]
    rw [hget]
    intro heq
    exact hquote (Option.some.inj heq ▸ List.getElem_mem hj)
  have hsplit : json.drop k = v ++ 0 :: json.drop (k + v.length + 1) := by
    refine List.ext_getElem? fun j ↦ ?_
    rw [List.getElem?_drop]
    rcases lt_trichotomy j v.length with hj | rfl | hj
    · rw [hbyte j hj, List.getElem?_append_left hj]
    · rw [hend, List.getElem?_append_right le_rfl, Nat.sub_self]
      rfl
    · obtain ⟨d, rfl⟩ := Nat.exists_eq_add_of_lt hj
      rw [List.getElem?_append_right (by omega),
        show v.length + d + 1 - v.length = d + 1 by omega, List.getElem?_cons_succ,
        List.getElem?_drop]
      congr 1
      omega
  rw [hsplit]
  exact ⟨v, CLib.cString_append hnul _, hv⟩

/-! ### Cursors that stand before untouched bytes -/

/-- From index `i` on the buffer is as it was filled. -/
def Clean (file json : Bytes) (i : ℕ) : Prop :=
  ∀ j, i ≤ j → json[j]? = (file ++ [0])[j]?

theorem Clean.mono {j : ℕ} (h : Clean file json i) (hij : i ≤ j) : Clean file json j :=
  fun k hk ↦ h k (hij.trans hk)

theorem Clean.untouched {last : ℕ} (h : Clean file json i) (hlast : last ≤ file.length) :
    Untouched file json i last :=
  ⟨hlast, fun j hj _ ↦ h j hj⟩

theorem Clean.set {j : ℕ} (h : Clean file json i) (hji : j < i) (b : UInt8) :
    Clean file (json.set j b) i := by
  intro k hk
  rw [List.getElem?_set_ne (by omega)]
  exact h k hk

/-- The rest of the text stands in the buffer. -/
theorem Clean.text (h : Clean file json i) (hi : i ≤ file.length) : Text json i (file.drop i) := by
  refine List.ext_getElem? fun j ↦ ?_
  rw [← List.drop_append_of_le_length hi, List.getElem?_drop, List.getElem?_drop]
  exact h (i + j) (Nat.le_add_right i j)

/-- The text from index `i` on is untouched, or a pair that begins there with a quote could not be
read. -/
def Ready (file json : Bytes) (i : ℕ) : Prop :=
  Clean file json i ∨ file[i]? = some 34 ∧ json[i]? = some 34

theorem Ready.untouched (h : Ready file json i) (hi : i ≤ file.length) :
    Untouched file json i i := by
  rcases h with h | ⟨hc, hjson⟩
  · exact h.untouched hi
  · refine ⟨hi, fun j hij hji ↦ ?_⟩
    obtain rfl : i = j := le_antisymm hij hji
    rw [hjson, List.getElem?_append_left (List.getElem?_eq_some_iff.1 hc).1, hc]

/-- Before any other byte the text is untouched. -/
theorem Ready.clean {b : UInt8} (h : Ready file json i) (hb : (file ++ [0])[i]? = some b)
    (hquote : b ≠ 34) : Clean file json i := by
  rcases h with h | ⟨hc, -⟩
  · exact h
  · rw [List.getElem?_append_left (List.getElem?_eq_some_iff.1 hc).1, hc] at hb
    exact absurd (Option.some.inj hb).symm hquote

/-- A comma stands before untouched text. -/
theorem Ready.clean_of_comma (h : Ready file json i) (hcomma : file[i]? = some 44) :
    Clean file json i := by
  refine h.clean (b := 44) ?_ (by decide)
  rw [List.getElem?_append_left (List.getElem?_eq_some_iff.1 hcomma).1, hcomma]

/-- A slice that stands in untouched bytes is a string once its closing quote is overwritten. -/
theorem Clean.isString (h : Clean file json k) {v behind : Bytes} (hslice : Slice file k v)
    (hdrop : file.drop k = v ++ 34 :: behind) (hnul : 0 ∉ v) :
    IsString file (json.set (k + v.length) 0) k := by
  have hquote : file[k + v.length]? = some 34 := by
    rw [← List.getElem?_drop, hdrop, List.getElem?_append_right le_rfl, Nat.sub_self]
    rfl
  refine ⟨v, hslice, hnul, ?_⟩
  rw [List.getElem?_set_self', h _ (Nat.le_add_right _ _),
    List.getElem?_append_left (List.getElem?_eq_some_iff.1 hquote).1, hquote]
  rfl

/-- A byte other than the NUL behind the file is a byte of the file. -/
theorem getElem?_of_ne_zero {b : UInt8} (hb : (file ++ [0])[i]? = some b) (hnul : b ≠ 0) :
    file[i]? = some b := by
  by_cases hi : i < file.length
  · rwa [List.getElem?_append_left hi] at hb
  · have hlt := (List.getElem?_eq_some_iff.1 hb).1
    rw [List.length_append, List.length_singleton] at hlt
    obtain rfl : i = file.length := by omega
    rw [List.getElem?_concat_length] at hb
    exact absurd (Option.some.inj hb).symm hnul

end SensingHub.Json
