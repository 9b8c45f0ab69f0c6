import Mathlib.Data.List.Basic

/-!
# Hash tables whose entries stay where they are

The entries of a table are in nodes, which are known by their addresses; a bucket is a list of
addresses, and the hash of a key says in which of the buckets its node is. Where there are to be
more buckets the addresses are distributed anew, but no node is moved or changed: `value_emplace`
says so, and that is what a pointer to a value rests on.

How keys are hashed and compared, and when there are to be how many buckets, are parameters.
-/

/-- How keys are hashed and compared, and how many buckets there are to be when an entry comes, by
how many there are and by the entries there will be. -/
structure Hashing (κ : Type*) where
  hash : κ → ℕ
  eqv : κ → κ → Bool
  buckets : ℕ → ℕ → ℕ
  hash_eq : ∀ {k l}, eqv k l = true → hash k = hash l
  eqv_refl : ∀ k, eqv k k = true
  eqv_symm : ∀ {k l}, eqv k l = true → eqv l k = true
  eqv_trans : ∀ {k l m}, eqv k l = true → eqv l m = true → eqv k m = true
  buckets_pos : ∀ n m, 0 < buckets n m

namespace Hashing

variable {κ ν : Type*} (H : Hashing κ)

/-! ### Buckets -/

/-- Put an address into the bucket of its key. -/
def link (bs : List (List ℕ)) (k : κ) (a : ℕ) : List (List ℕ) :=
  bs.modify (H.hash k % bs.length) (List.cons a)

/-- Distribute all addresses over some buckets. -/
def distribute (nodes : List (κ × ν)) (n : ℕ) : List (List ℕ) :=
  nodes.zipIdx.foldl (fun bs e ↦ H.link bs e.1.1 e.2) (List.replicate n [])

@[simp] theorem length_link (bs : List (List ℕ)) (k : κ) (a : ℕ) :
    (H.link bs k a).length = bs.length :=
  List.length_modify ..

theorem mem_link {bs : List (List ℕ)} (hbs : bs ≠ []) {k : κ} {a b i : ℕ} :
    b ∈ (H.link bs k a).getD i [] ↔
      b = a ∧ i = H.hash k % bs.length ∨ b ∈ bs.getD i [] := by
  have hlt : H.hash k % bs.length < bs.length := Nat.mod_lt _ (List.length_pos_iff.2 hbs)
  rw [link, List.getD_eq_getElem?_getD, List.getD_eq_getElem?_getD, List.getElem?_modify]
  by_cases hi : H.hash k % bs.length = i
  · subst hi
    rw [List.getElem?_eq_getElem hlt]
    simp
  · simp [hi, Ne.symm hi]

theorem length_foldl_link (es : List ((κ × ν) × ℕ)) (bs : List (List ℕ)) :
    (es.foldl (fun bs e ↦ H.link bs e.1.1 e.2) bs).length = bs.length := by
  induction es generalizing bs with
  | nil => rfl
  | cons e es ih => exact (ih _).trans (H.length_link bs e.1.1 e.2)

theorem mem_foldl_link {es : List ((κ × ν) × ℕ)} {bs : List (List ℕ)} (hbs : bs ≠ []) {i b : ℕ} :
    b ∈ (es.foldl (fun bs e ↦ H.link bs e.1.1 e.2) bs).getD i [] ↔
      b ∈ bs.getD i [] ∨ ∃ e, (e, b) ∈ es ∧ H.hash e.1 % bs.length = i := by
  induction es generalizing bs with
  | nil => simp
  | cons x es ih =>
    have hne : H.link bs x.1.1 x.2 ≠ [] := by
      rw [← List.length_pos_iff, length_link]
      exact List.length_pos_iff.2 hbs
    rw [List.foldl_cons, ih hne, H.mem_link hbs, length_link]
    constructor
    · rintro ((⟨rfl, hi⟩ | hmem) | ⟨e, he, hi⟩)
      · exact .inr ⟨x.1, List.mem_cons_self, hi.symm⟩
      · exact .inl hmem
      · exact .inr ⟨e, List.mem_cons_of_mem _ he, hi⟩
    · rintro (hmem | ⟨e, he, hi⟩)
      · exact .inl (.inr hmem)
      · rcases List.mem_cons.1 he with rfl | he
        · exact .inl (.inl ⟨rfl, hi.symm⟩)
        · exact .inr ⟨e, he, hi⟩

@[simp] theorem length_distribute (nodes : List (κ × ν)) (n : ℕ) :
    (H.distribute nodes n).length = n :=
  (H.length_foldl_link _ _).trans List.length_replicate

theorem mem_distribute {nodes : List (κ × ν)} {n : ℕ} (hn : 0 < n) {i b : ℕ} :
    b ∈ (H.distribute nodes n).getD i [] ↔ ∃ e, nodes[b]? = some e ∧ H.hash e.1 % n = i := by
  have hne : List.replicate n ([] : List ℕ) ≠ [] := by
    rw [← List.length_pos_iff, List.length_replicate]
    exact hn
  have hempty : (List.replicate n ([] : List ℕ)).getD i [] = [] := by
    rw [List.getD_eq_getElem?_getD, List.getElem?_replicate]
    split <;> rfl
  rw [distribute, H.mem_foldl_link hne, hempty, List.length_replicate]
  simp only [List.not_mem_nil, false_or, List.mem_zipIdx_iff_getElem?]

/-- The number of buckets there are to be, for one more entry. -/
def rehash (nodes : List (κ × ν)) (bs : List (List ℕ)) : List (List ℕ) :=
  let n := H.buckets bs.length (nodes.length + 1)
  if n = bs.length then bs else H.distribute nodes n

/-- Every node is in the bucket of its key, and nowhere else. -/
structure Sorted (nodes : List (κ × ν)) (bs : List (List ℕ)) : Prop where
  ne_nil : bs ≠ []
  mem_iff : ∀ i a, a ∈ bs.getD i [] ↔ ∃ e, nodes[a]? = some e ∧ H.hash e.1 % bs.length = i

variable {H}

theorem sorted_nil : H.Sorted ([] : List (κ × ν)) [[]] where
  ne_nil := List.cons_ne_nil _ _
  mem_iff i a := by cases i <;> simp

theorem Sorted.rehash {nodes : List (κ × ν)} {bs : List (List ℕ)} (h : H.Sorted nodes bs) :
    H.Sorted nodes (H.rehash nodes bs) := by
  rw [Hashing.rehash]
  split
  · exact h
  · have hpos := H.buckets_pos bs.length (nodes.length + 1)
    refine ⟨?_, fun i a ↦ ?_⟩
    · rw [← List.length_pos_iff, length_distribute]
      exact hpos
    · rw [length_distribute]
      exact H.mem_distribute hpos

theorem Sorted.link {nodes : List (κ × ν)} {bs : List (List ℕ)} (h : H.Sorted nodes bs) (k : κ)
    (v : ν) : H.Sorted (nodes ++ [(k, v)]) (H.link bs k nodes.length) where
  ne_nil := by
    rw [← List.length_pos_iff, length_link]
    exact List.length_pos_iff.2 h.ne_nil
  mem_iff i a := by
    rw [H.mem_link h.ne_nil, h.mem_iff, length_link]
    constructor
    · rintro (⟨rfl, hi⟩ | ⟨e, he, hi⟩)
      · exact ⟨(k, v), List.getElem?_concat_length, hi.symm⟩
      · exact ⟨e, (List.getElem?_append_left (List.getElem?_eq_some_iff.1 he).1).trans he, hi⟩
    · rintro ⟨e, he, hi⟩
      rcases Nat.lt_trichotomy a nodes.length with hlt | rfl | hgt
      · rw [List.getElem?_append_left hlt] at he
        exact .inr ⟨e, he, hi⟩
      · rw [List.getElem?_concat_length] at he
        obtain rfl := Option.some.inj he
        exact .inl ⟨rfl, hi.symm⟩
      · have hnone : (nodes ++ [(k, v)])[a]? = none := by
          rw [List.getElem?_eq_none_iff, List.length_append]
          exact hgt
        cases hnone.symm.trans he

end Hashing

/-! ### Tables -/

/-- A hash table: no key is there twice. -/
structure HashTable {κ : Type*} (H : Hashing κ) (ν : Type*) where
  /-- The nodes, by their addresses. -/
  nodes : List (κ × ν)
  buckets : List (List ℕ)
  sorted : H.Sorted nodes buckets
  distinct : nodes.Pairwise fun e f ↦ H.eqv e.1 f.1 = false

namespace HashTable

variable {κ ν : Type*} {H : Hashing κ} (t : HashTable H ν) {k l : κ} {v : ν} {a : ℕ}

/-- No entries. -/
def empty (H : Hashing κ) (ν : Type*) : HashTable H ν :=
  ⟨[], [[]], Hashing.sorted_nil, List.Pairwise.nil⟩

/-- The address of the node of a key. -/
def find (k : κ) : Option ℕ :=
  (t.buckets.getD (H.hash k % t.buckets.length) []).find? fun a ↦
    (t.nodes[a]?).any fun e ↦ H.eqv e.1 k

/-- What stands at an address. -/
def value (a : ℕ) : Option ν :=
  (t.nodes[a]?).map Prod.snd

/-- The value of a key. -/
def get? (k : κ) : Option ν :=
  (t.find k).bind t.value

variable {t}

theorem eq_of_eqv {b : ℕ} {e f : κ × ν} (he : t.nodes[a]? = some e) (hf : t.nodes[b]? = some f)
    (heqv : H.eqv e.1 f.1 = true) : a = b := by
  obtain ⟨ha, rfl⟩ := List.getElem?_eq_some_iff.1 he
  obtain ⟨hb, rfl⟩ := List.getElem?_eq_some_iff.1 hf
  have hdistinct := List.pairwise_iff_getElem.1 t.distinct
  rcases Nat.lt_trichotomy a b with hlt | heq | hgt
  · cases (hdistinct a b ha hb hlt).symm.trans heqv
  · exact heq
  · cases (hdistinct b a hb ha hgt).symm.trans (H.eqv_symm heqv)

/-- **What is found is the node with the key.** -/
theorem find_eq_some_iff :
    t.find k = some a ↔ ∃ e, t.nodes[a]? = some e ∧ H.eqv e.1 k = true := by
  constructor
  · intro h
    have hany := List.find?_some h
    rwa [Option.any_eq_true] at hany
  · rintro ⟨e, he, heqv⟩
    have hmem : a ∈ t.buckets.getD (H.hash k % t.buckets.length) [] :=
      (t.sorted.mem_iff _ a).2 ⟨e, he, by rw [H.hash_eq heqv]⟩
    cases hfind : t.find k with
    | none =>
      have hnone := List.find?_eq_none.1 hfind a hmem
      rw [he] at hnone
      exact absurd heqv hnone
    | some b =>
      have hany := List.find?_some hfind
      rw [Option.any_eq_true] at hany
      obtain ⟨f, hf, hfk⟩ := hany
      rw [eq_of_eqv hf he (H.eqv_trans hfk (H.eqv_symm heqv))]

theorem find_eq_none_iff : t.find k = none ↔ ∀ e ∈ t.nodes, H.eqv e.1 k = false := by
  constructor
  · intro h e he
    obtain ⟨a, ha⟩ := List.mem_iff_getElem?.1 he
    by_contra hne
    rw [Bool.not_eq_false] at hne
    cases h.symm.trans (find_eq_some_iff.2 ⟨e, ha, hne⟩)
  · intro h
    cases hfind : t.find k with
    | none => rfl
    | some a =>
      obtain ⟨e, he, heqv⟩ := find_eq_some_iff.1 hfind
      cases (h e (List.mem_of_getElem? he)).symm.trans heqv

theorem get?_empty (k : κ) : (empty H ν).get? k = none := by
  have hfind : (empty H ν).find k = none := find_eq_none_iff.2 nofun
  rw [get?, hfind]
  rfl

/-! ### New entries -/

/-- One more entry, its key being new. -/
def insert (t : HashTable H ν) (k : κ) (v : ν) (h : t.find k = none) : HashTable H ν where
  nodes := t.nodes ++ [(k, v)]
  buckets := H.link (H.rehash t.nodes t.buckets) k t.nodes.length
  sorted := t.sorted.rehash.link k v
  distinct := by
    rw [List.pairwise_append]
    refine ⟨t.distinct, List.pairwise_singleton _ _, fun e he f hf ↦ ?_⟩
    rw [List.mem_singleton.1 hf]
    exact find_eq_none_iff.1 h e he

/-- An entry for a key, if it has none. -/
def emplace (t : HashTable H ν) (k : κ) (v : ν) : HashTable H ν :=
  if h : t.find k = none then t.insert k v h else t

theorem emplace_of_find_eq_none (h : t.find k = none) : t.emplace k v = t.insert k v h :=
  dif_pos h

theorem emplace_of_find_eq_some (h : t.find k = some a) : t.emplace k v = t :=
  dif_neg fun hnone ↦ by cases hnone.symm.trans h

theorem nodes_prefix_emplace (t : HashTable H ν) (k : κ) (v : ν) :
    t.nodes <+: (t.emplace k v).nodes := by
  rw [emplace]
  split
  · exact List.prefix_append _ _
  · exact List.prefix_refl _

/-- **A value stays where it is.** -/
theorem value_emplace {w : ν} (h : t.value a = some w) (k : κ) (v : ν) :
    (t.emplace k v).value a = some w := by
  obtain ⟨e, he, hw⟩ := Option.map_eq_some_iff.1 h
  obtain ⟨rest, hrest⟩ := t.nodes_prefix_emplace k v
  rw [value, ← hrest, List.getElem?_append_left (List.getElem?_eq_some_iff.1 he).1, he,
    Option.map_some, hw]

theorem get?_eq_some_iff :
    t.get? k = some v ↔ ∃ e ∈ t.nodes, H.eqv e.1 k = true ∧ e.2 = v := by
  rw [get?, Option.bind_eq_some_iff]
  constructor
  · rintro ⟨a, ha, hv⟩
    obtain ⟨e, he, heqv⟩ := find_eq_some_iff.1 ha
    rw [value, he] at hv
    exact ⟨e, List.mem_of_getElem? he, heqv, Option.some.inj hv⟩
  · rintro ⟨e, hmem, heqv, rfl⟩
    obtain ⟨a, he⟩ := List.mem_iff_getElem?.1 hmem
    refine ⟨a, find_eq_some_iff.2 ⟨e, he, heqv⟩, ?_⟩
    rw [value, he]
    rfl

theorem get?_eq_none_iff : t.get? k = none ↔ t.find k = none := by
  rw [get?, Option.bind_eq_none_iff]
  constructor
  · intro h
    cases hfind : t.find k with
    | none => rfl
    | some a =>
      obtain ⟨e, he, -⟩ := find_eq_some_iff.1 hfind
      have hnone := h a hfind
      rw [value, he] at hnone
      cases hnone
  · intro h a ha
    cases h.symm.trans ha

/-- **A new value is that of its key, and of no other.** -/
theorem get?_emplace (t : HashTable H ν) (k l : κ) (v : ν) :
    (t.emplace k v).get? l = (t.get? l).or (if H.eqv k l then some v else none) := by
  cases hget : t.get? l with
  | some w =>
    obtain ⟨e, he, heqv, hw⟩ := get?_eq_some_iff.1 hget
    exact get?_eq_some_iff.2 ⟨e, (t.nodes_prefix_emplace k v).subset he, heqv, hw⟩
  | none =>
    have hnone := find_eq_none_iff.1 (get?_eq_none_iff.1 hget)
    rw [Option.none_or]
    cases hfind : t.find k with
    | some a =>
      have hne : H.eqv k l = false := by
        obtain ⟨e, he, heqv⟩ := find_eq_some_iff.1 hfind
        by_contra hkl
        rw [Bool.not_eq_false] at hkl
        cases (hnone e (List.mem_of_getElem? he)).symm.trans (H.eqv_trans heqv hkl)
      rw [emplace_of_find_eq_some hfind, hget, hne]
      rfl
    | none =>
      rw [emplace_of_find_eq_none hfind]
      cases hkl : H.eqv k l with
      | true =>
        exact get?_eq_some_iff.2 ⟨(k, v), List.mem_append_right _ List.mem_cons_self, hkl, rfl⟩
      | false =>
        refine get?_eq_none_iff.2 (find_eq_none_iff.2 fun e he ↦ ?_)
        rcases List.mem_append.1 he with he | he
        · exact hnone e he
        · rw [List.mem_singleton.1 he]
          exact hkl

end HashTable
