import Mathlib.Data.List.Basic
import Mathlib.Logic.Function.Basic

/-!
# Lookup tables

A table is a partial function. `std::unordered_map` writes it in two ways: `insert` leaves an
existing entry alone, `operator[]` overwrites it. So of several entries for one key the first counts
when they are inserted in a row, and the last when they are assigned.
-/

/-- A partial map from keys to values. -/
abbrev Table (κ ν : Type*) := κ → Option ν

namespace Table

variable {κ ν : Type*}

/-- The table without entries. -/
def empty : Table κ ν := fun _ ↦ none

@[simp] theorem empty_apply (k : κ) : (empty : Table κ ν) k = none := rfl

variable [DecidableEq κ]

/-- `t.insert({k, v})`: an existing entry stays. -/
def insert (t : Table κ ν) (k : κ) (v : ν) : Table κ ν :=
  Function.update t k (some ((t k).getD v))

/-- `t[k] = v`. -/
def assign (t : Table κ ν) (k : κ) (v : ν) : Table κ ν :=
  Function.update t k (some v)

@[simp] theorem insert_self (t : Table κ ν) (k : κ) (v : ν) :
    t.insert k v k = some ((t k).getD v) :=
  Function.update_self ..

theorem insert_of_ne (t : Table κ ν) {k l : κ} (h : l ≠ k) (v : ν) : t.insert k v l = t l :=
  Function.update_of_ne h ..

/-- Inserting again changes nothing. -/
@[simp] theorem insert_insert (t : Table κ ν) (k : κ) (v w : ν) :
    (t.insert k v).insert k w = t.insert k v := by
  unfold insert
  rw [Function.update_idem, Function.update_self, Option.getD_some]

@[simp] theorem assign_self (t : Table κ ν) (k : κ) (v : ν) : t.assign k v k = some v :=
  Function.update_self ..

theorem assign_of_ne (t : Table κ ν) {k l : κ} (h : l ≠ k) (v : ν) : t.assign k v l = t l :=
  Function.update_of_ne h ..

/-- Inserting never changes an entry that is there. -/
theorem insert_eq_of_eq_some {t : Table κ ν} {l : κ} {w : ν} (h : t l = some w) (k : κ) (v : ν) :
    t.insert k v l = some w := by
  by_cases hlk : l = k
  · subst hlk
    rw [insert_self, h, Option.getD_some]
  · rw [insert_of_ne t hlk, h]

/-- An entry behind an insertion was there before or has been inserted. -/
theorem eq_some_of_insert {t : Table κ ν} {k l : κ} {v w : ν} (h : t.insert k v l = some w) :
    t l = some w ∨ l = k ∧ w = v := by
  by_cases hlk : l = k
  · subst hlk
    rw [insert_self, Option.some.injEq] at h
    cases hold : t l with
    | none =>
      rw [hold, Option.getD_none] at h
      exact Or.inr ⟨rfl, h.symm⟩
    | some u =>
      rw [hold, Option.getD_some] at h
      exact Or.inl (congrArg some h)
  · rw [insert_of_ne t hlk] at h
    exact Or.inl h

/-- Tables that agree at a key still do when the same is inserted. -/
theorem insert_congr {t t' : Table κ ν} {l : κ} (h : t l = t' l) (k : κ) (v : ν) :
    t.insert k v l = t'.insert k v l := by
  by_cases hlk : l = k
  · subst hlk
    rw [insert_self, insert_self, h]
  · rw [insert_of_ne t hlk, insert_of_ne t' hlk, h]

theorem assign_congr {t t' : Table κ ν} {l : κ} (h : t l = t' l) (k : κ) (v : ν) :
    t.assign k v l = t'.assign k v l := by
  by_cases hlk : l = k
  · subst hlk
    rw [assign_self, assign_self]
  · rw [assign_of_ne t hlk, assign_of_ne t' hlk, h]

/-! ### Entries in a row -/

/-- Insert entries in order. -/
def insertAll (t : Table κ ν) (es : List (κ × ν)) : Table κ ν :=
  es.foldl (fun t e ↦ t.insert e.1 e.2) t

/-- Assign entries in order. -/
def assignAll (t : Table κ ν) (es : List (κ × ν)) : Table κ ν :=
  es.foldl (fun t e ↦ t.assign e.1 e.2) t

/-- The first of the entries for a key. -/
def firstFor (es : List (κ × ν)) (k : κ) : Option ν :=
  (es.find? fun e ↦ e.1 = k).map Prod.snd

theorem firstFor_cons_self (k : κ) (v : ν) (es : List (κ × ν)) :
    firstFor ((k, v) :: es) k = some v := by
  rw [firstFor, List.find?_cons_of_pos (by simp), Option.map_some]

theorem firstFor_cons_of_ne {k l : κ} (h : l ≠ k) (v : ν) (es : List (κ × ν)) :
    firstFor ((k, v) :: es) l = firstFor es l := by
  rw [firstFor, firstFor, List.find?_cons_of_neg (by simpa using h.symm)]

theorem mem_of_firstFor {es : List (κ × ν)} {k : κ} {v : ν} (h : firstFor es k = some v) :
    (k, v) ∈ es := by
  obtain ⟨e, hfind, rfl⟩ := Option.map_eq_some_iff.1 h
  have hkey := List.find?_some hfind
  rw [decide_eq_true_eq] at hkey
  subst hkey
  exact List.mem_of_find?_eq_some hfind

theorem firstFor_append (es es' : List (κ × ν)) (k : κ) :
    firstFor (es ++ es') k = (firstFor es k).or (firstFor es' k) := by
  simp only [firstFor, List.find?_append, Option.map_or]

theorem firstFor_map {ν' : Type*} (g : ν → ν') (es : List (κ × ν)) (k : κ) :
    firstFor (es.map fun e ↦ (e.1, g e.2)) k = (firstFor es k).map g := by
  simp only [firstFor, List.find?_map, Option.map_map]
  rfl

theorem firstFor_eq_none {es : List (κ × ν)} {k : κ} (h : ∀ e ∈ es, e.1 ≠ k) :
    firstFor es k = none := by
  rw [firstFor, List.find?_eq_none.2 fun e he ↦ by simpa using h e he]
  rfl

/-- Of entries for different keys each is the first for its own. -/
theorem firstFor_eq_some_of_mem {es : List (κ × ν)} (hkeys : (es.map Prod.fst).Nodup) {k : κ}
    {v : ν} (h : (k, v) ∈ es) : firstFor es k = some v := by
  induction es with
  | nil => cases h
  | cons e es ih =>
    rw [List.map_cons, List.nodup_cons] at hkeys
    rcases List.mem_cons.1 h with rfl | h
    · exact firstFor_cons_self k v es
    · have hne : k ≠ e.1 := fun hk ↦ hkeys.1 (hk ▸ List.mem_map_of_mem h)
      rw [show e = (e.1, e.2) from rfl, firstFor_cons_of_ne hne, ih hkeys.2 h]

theorem exists_firstFor_of_mem {es : List (κ × ν)} {k : κ} {v : ν} (h : (k, v) ∈ es) :
    ∃ w, firstFor es k = some w := by
  have hfind : (es.find? fun e ↦ e.1 = k).isSome :=
    List.find?_isSome.2 ⟨(k, v), h, decide_eq_true rfl⟩
  obtain ⟨e, he⟩ := Option.isSome_iff_exists.1 hfind
  exact ⟨e.2, by rw [firstFor, he, Option.map_some]⟩

/-- No entry before the first one for a key is for it. -/
theorem exists_of_firstFor {es : List (κ × ν)} {k : κ} {v : ν} (h : firstFor es k = some v) :
    ∃ pre post, es = pre ++ (k, v) :: post ∧ ∀ e ∈ pre, e.1 ≠ k := by
  obtain ⟨⟨l, w⟩, hfind, rfl⟩ := Option.map_eq_some_iff.1 h
  obtain ⟨hkey, pre, post, rfl, hpre⟩ := List.find?_eq_some_iff_append.1 hfind
  obtain rfl : l = k := of_decide_eq_true hkey
  exact ⟨pre, post, rfl, fun e he ↦ by simpa using hpre e he⟩

/-- An entry that is there stays, and else the first one for the key is inserted. -/
theorem insertAll_apply (t : Table κ ν) (es : List (κ × ν)) (k : κ) :
    t.insertAll es k = (t k).or (firstFor es k) := by
  induction es generalizing t with
  | nil => exact (Option.or_none ..).symm
  | cons e es ih =>
    have hcons : t.insertAll (e :: es) k = (t.insert e.1 e.2).insertAll es k := rfl
    rw [hcons, ih]
    by_cases hk : k = e.1
    · subst hk
      rw [insert_self, firstFor_cons_self]
      cases t e.1 <;> rfl
    · rw [insert_of_ne t hk, firstFor_cons_of_ne hk]

/-- The last entry for the key is the one that is there. -/
theorem assignAll_apply (t : Table κ ν) (es : List (κ × ν)) (k : κ) :
    t.assignAll es k = (firstFor es.reverse k).or (t k) := by
  induction es generalizing t with
  | nil => rfl
  | cons e es ih =>
    have hcons : t.assignAll (e :: es) k = (t.assign e.1 e.2).assignAll es k := rfl
    rw [hcons, ih, List.reverse_cons, firstFor_append, Option.or_assoc]
    by_cases hk : k = e.1
    · subst hk
      rw [assign_self, firstFor_cons_self]
      rfl
    · rw [assign_of_ne t hk, firstFor_cons_of_ne hk]
      rfl

/-! ### Entries under other keys -/

/-- Entries under keys that are changed by `f`. -/
def mapKeys (f : κ → κ) (es : List (κ × ν)) : List (κ × ν) :=
  es.map fun e ↦ (f e.1, e.2)

omit [DecidableEq κ] in
theorem mem_mapKeys {f : κ → κ} {es : List (κ × ν)} {k : κ} {v : ν} :
    (k, v) ∈ mapKeys f es ↔ ∃ e ∈ es, f e.1 = k ∧ e.2 = v := by
  simp [mapKeys]

/-- **A key finds its own value or none** among the first entries, whose keys are cut to what a cut
leaves alone, if and only if none of these is cut to the key of an entry further on. -/
theorem firstFor_mapKeys_iff {f : κ → κ} (hf : ∀ k, f (f k) = f k) {es : List (κ × ν)}
    (hvalues : (es.map Prod.snd).Nodup) (n : ℕ) :
    (∀ e ∈ es, ∀ v, firstFor (mapKeys f (es.take n)) e.1 = some v → v = e.2) ↔
      ∀ pre a post, es = pre ++ a :: post → pre.length < n → ∀ b ∈ post, f a.1 ≠ b.1 := by
  constructor
  · rintro h pre a post rfl hn b hb hcut
    -- an entry up to `a` answers for the key of `b`
    have htake : (pre ++ a :: post).take n = (pre ++ [a]) ++ post.take (n - (pre.length + 1)) := by
      rw [List.append_cons, List.take_append, List.take_of_length_le (by simp; omega)]
      simp
    obtain ⟨v, hv⟩ : ∃ v, firstFor (mapKeys f (pre ++ [a])) b.1 = some v :=
      exists_firstFor_of_mem (mem_mapKeys.2 ⟨a, by simp, hcut, rfl⟩)
    have hfirst : firstFor (mapKeys f ((pre ++ a :: post).take n)) b.1 = some v := by
      rw [htake, mapKeys, List.map_append, firstFor_append]
      exact (congrArg (Option.or · _) hv).trans rfl
    have hsame : v = b.2 := h b (by simp [hb]) v hfirst
    obtain ⟨e, he, -, rfl⟩ := mem_mapKeys.1 (mem_of_firstFor hv)
    -- but the values up to `a` are not those further on
    rw [List.append_cons, List.map_append, List.nodup_append] at hvalues
    exact hvalues.2.2 e.2 (List.mem_map_of_mem he) b.2 (List.mem_map_of_mem hb) hsame
  · intro h e he v hfirst
    obtain ⟨pre', post', heq, hpre⟩ := exists_of_firstFor hfirst
    obtain ⟨pre, rest, htake, rfl, hrest⟩ := List.map_eq_append_iff.1 heq
    obtain ⟨a, post, rfl, ha, -⟩ := List.map_eq_cons_iff.1 hrest
    obtain ⟨hcut, rfl⟩ := Prod.mk.inj ha
    have hes : es = pre ++ a :: (post ++ es.drop n) := by
      rw [← List.cons_append, ← List.append_assoc, ← htake, List.take_append_drop]
    have hn : pre.length < n := by
      have hle := List.length_take_le n es
      rw [htake, List.length_append, List.length_cons] at hle
      omega
    rw [hes] at he
    rcases List.mem_append.1 he with he | he
    · -- before `a` its key would have been found
      exact absurd (by rw [← hcut, hf]) (hpre _ (List.mem_map_of_mem he))
    · rcases List.mem_cons.1 he with rfl | he
      · rfl
      · exact absurd hcut (h pre a _ hes hn e he)

end Table
