import Mathlib.Data.List.Forall2
import Mathlib.Data.List.TakeWhile
import SensingHub.Lib.Prog

/-!
# Decoders that call back

A decoder that works through a message and hands each field it finds to a callback: what it finds is
a list of fields in the order of the message, and whether it can read the message to its end. The
callback is a program; decoding ends, without success, with the first field it refuses.

The rule for such a decoder relates the fields to what the callback does with them
(`Decoding.run_forall₂`).
-/

/-- The fields a decoder finds in a message, and whether it then succeeds. -/
structure Decoding (φ : Type*) where
  fields : List φ
  complete : Bool
  deriving DecidableEq, Repr

namespace Decoding

variable {ε σ φ : Type*}

/-- Hand the fields to a callback. -/
def runFields (callback : φ → Prog ε σ Bool) (complete : Bool) : List φ → Prog ε σ Bool
  | [] => pure complete
  | f :: fs => do
    if ← callback f then runFields callback complete fs
    else return false

/-- Decode a message with a callback. -/
def run (d : Decoding φ) (callback : φ → Prog ε σ Bool) : Prog ε σ Bool :=
  runFields callback d.complete d.fields

variable {α : Type*} (callback : φ → Prog ε σ Bool) {d : Decoding φ}

theorem runFields_cons {f : φ} {s t : σ} (h : callback f s = (.ok true, t)) (complete : Bool)
    (fs : List φ) :
    runFields callback complete (f :: fs) s = runFields callback complete fs t := by
  rw [runFields, Prog.bind_ok h, if_pos rfl]

/-- Behind fields that it has accepted, a callback goes on with the others. -/
theorem runFields_append {fs : List φ} {s t : σ} (h : runFields callback true fs s = (.ok true, t))
    (complete : Bool) (fs' : List φ) :
    runFields callback complete (fs ++ fs') s = runFields callback complete fs' t := by
  induction fs generalizing s with
  | nil =>
    cases h
    rfl
  | cons f fs ih =>
    rcases hf : callback f s with ⟨e | ok, u⟩ <;> rw [runFields] at h
    · rw [Prog.bind_error hf] at h
      cases h
    · rw [Prog.bind_ok hf] at h
      cases ok with
      | true =>
        rw [List.cons_append, runFields_cons callback hf]
        exact ih h
      | false => cases h

/-- **A message whose fields the callback accepts one after another is decoded**, and the state is
what the fields make of it; what each step keeps up can be relied on. -/
theorem run_forall₂_of (step : σ → α → σ) {I : σ → Prop} (hI : ∀ s a, I s → I (step s a))
    {as : List α}
    (h : List.Forall₂ (fun f a ↦ ∀ s, I s → callback f s = (.ok true, step s a)) d.fields as)
    {s : σ} (hs : I s) : d.run callback s = (.ok d.complete, as.foldl step s) := by
  rw [run]
  generalize d.fields = fs at h
  induction h generalizing s with
  | nil => rfl
  | cons hf _ ih => rw [runFields_cons callback (hf s hs), ih (hI s _ hs), List.foldl_cons]

theorem run_forall₂ (step : σ → α → σ) {as : List α}
    (h : List.Forall₂ (fun f a ↦ ∀ s, callback f s = (.ok true, step s a)) d.fields as) (s : σ) :
    d.run callback s = (.ok d.complete, as.foldl step s) :=
  run_forall₂_of callback step (I := fun _ ↦ True) (fun _ _ _ ↦ trivial)
    (h.imp fun _ _ hf s _ ↦ hf s) trivial

/-- A message none of whose fields the callback refuses. -/
theorem run_accepting (h : ∀ f ∈ d.fields, ∀ s, (callback f s).1 = .ok true) (s : σ) :
    d.run callback s = (.ok d.complete, d.fields.foldl (fun s f ↦ (callback f s).2) s) := by
  refine run_forall₂ callback (fun s f ↦ (callback f s).2) ?_ s
  exact List.forall₂_same.2 fun f hf s ↦ Prod.ext (h f hf s) rfl

/-- Every field is accepted and the message is read to its end. -/
def accepted (d : Decoding φ) (accepts : φ → Bool) : Bool :=
  d.fields.all accepts && d.complete

theorem accepted_true : (d.accepted fun _ ↦ true) = d.complete := by
  simp [accepted]

/-- **What decoding returns**, where what the callback returns is told by the field. -/
theorem run_fst (accepts : φ → Bool) (h : ∀ f ∈ d.fields, ∀ s, (callback f s).1 = .ok (accepts f))
    (s : σ) : (d.run callback s).1 = .ok (d.accepted accepts) := by
  rw [run, accepted]
  generalize d.fields = fs at h
  induction fs generalizing s with
  | nil => rfl
  | cons f fs ih =>
    obtain ⟨hf, hfs⟩ := List.forall_mem_cons.1 h
    rw [runFields, Prog.bind_fst_ok (hf s), List.all_cons]
    cases accepts f with
    | true => exact ih _ hfs
    | false => rfl

/-- **What decoding leaves behind**, where a refused field changes nothing: what the fields in front
of the first refused one make of the state. -/
theorem run_snd (accepts : φ → Bool) (step : σ → φ → σ)
    (h : ∀ f ∈ d.fields, ∀ s, callback f s = (.ok (accepts f), if accepts f then step s f else s))
    (s : σ) : (d.run callback s).2 = (d.fields.takeWhile accepts).foldl step s := by
  rw [run]
  generalize d.fields = fs at h
  induction fs generalizing s with
  | nil => rfl
  | cons f fs ih =>
    obtain ⟨hf, hfs⟩ := List.forall_mem_cons.1 h
    rw [runFields, Prog.bind_ok (hf s)]
    cases haccept : accepts f with
    | true =>
      rw [List.takeWhile_cons_of_pos haccept]
      exact ih (step s f) hfs
    | false =>
      rw [List.takeWhile_cons_of_neg (by simp [haccept])]
      rfl

/-- **An accepted message is decoded**, and the state is what its fields make of it. -/
theorem run_of_accepted {accepts : φ → Bool} (haccepted : d.accepted accepts = true)
    (step : σ → φ → σ)
    (h : ∀ f ∈ d.fields, ∀ s, callback f s = (.ok (accepts f), if accepts f then step s f else s))
    (s : σ) : d.run callback s = (.ok true, d.fields.foldl step s) := by
  have hfst := run_fst callback accepts (fun f hf s ↦ congrArg Prod.fst (h f hf s)) s
  have hsnd := run_snd callback accepts step h s
  have hall := List.all_eq_true.1 (Bool.and_eq_true_iff.1 haccepted).1
  rw [haccepted] at hfst
  rw [List.takeWhile_eq_self_iff.2 hall] at hsnd
  exact Prod.ext hfst hsnd

/-- What every field preserves the decoding of a message preserves. -/
theorem run_preserves {P : σ → Prop} (h : ∀ f ∈ d.fields, ∀ s, P s → P (callback f s).2) {s : σ}
    (hs : P s) : P (d.run callback s).2 := by
  rw [run]
  generalize d.fields = fs at h
  induction fs generalizing s with
  | nil => exact hs
  | cons f fs ih =>
    obtain ⟨hf, hfs⟩ := List.forall_mem_cons.1 h
    have hnext := hf s hs
    rw [runFields]
    rcases hrun : callback f s with ⟨e | ok, t⟩ <;> rw [hrun] at hnext
    · rw [Prog.bind_error hrun]
      exact hnext
    · rw [Prog.bind_ok hrun]
      cases ok with
      | true => exact ih hnext hfs
      | false => exact hnext

variable {ψ τ : Type*}

/-- A message with other fields. -/
def map (g : φ → ψ) (d : Decoding φ) : Decoding ψ :=
  ⟨d.fields.map g, d.complete⟩

variable {callback} in
/-- A callback that does for the other fields what `callback` does, on a state that is made from
that of `callback`. -/
theorem run_map {callback' : ψ → Prog ε τ Bool} {g : φ → ψ} {r : σ → τ}
    (h : ∀ f ∈ d.fields, ∀ s, callback' (g f) (r s) = ((callback f s).1, r (callback f s).2))
    (s : σ) :
    (d.map g).run callback' (r s) = ((d.run callback s).1, r (d.run callback s).2) := by
  rw [run, run, map]
  generalize d.fields = fs at h
  induction fs generalizing s with
  | nil => rfl
  | cons f fs ih =>
    obtain ⟨hf, hfs⟩ := List.forall_mem_cons.1 h
    rw [List.map_cons, runFields, runFields]
    rcases hrun : callback f s with ⟨e | ok, t⟩
    · rw [Prog.bind_error hrun, Prog.bind_error (t := r t) (by rw [hf, hrun])]
    · rw [Prog.bind_ok hrun, Prog.bind_ok (a := ok) (t := r t) (by rw [hf, hrun])]
      cases ok with
      | true => exact ih t hfs
      | false => rfl

/-! ### Callbacks that leave something behind when they refuse -/

/-- The fields that a callback is handed: up to the first one that it refuses, and that one. -/
def reached (accepts : φ → Bool) : List φ → List φ
  | [] => []
  | f :: fs => f :: if accepts f then reached accepts fs else []

/-- **What decoding returns and leaves behind**, where a refused field may change something, too. -/
theorem run_reached (accepts : α → Bool) (step : σ → α → σ) {as : List α}
    (h : List.Forall₂ (fun f a ↦ ∀ s, callback f s = (.ok (accepts a), step s a)) d.fields as)
    (s : σ) :
    d.run callback s = (.ok (as.all accepts && d.complete), (reached accepts as).foldl step s) := by
  rw [run]
  generalize d.fields = fs at h
  induction h generalizing s with
  | nil => rfl
  | @cons f a fs as hf _ ih =>
    rw [runFields, Prog.bind_ok (hf s), List.all_cons, reached, List.foldl_cons]
    cases accepts a with
    | true => exact ih (step s a)
    | false => rfl

/-- The fields together with the proofs that they are in the message, for a callback that decodes
what stands in them. -/
def attach (d : Decoding φ) : Decoding {f // f ∈ d.fields} :=
  ⟨d.fields.attach, d.complete⟩

theorem run_attach (s : σ) : d.attach.run (fun f ↦ callback f.1) s = d.run callback s := by
  have hmap : d.attach.map Subtype.val = d := by
    rw [map, attach, List.attach_map_subtype_val]
  have hrun := @run_map ε σ {f // f ∈ d.fields} (fun f ↦ callback f.1) d.attach φ σ callback
    Subtype.val id (fun _ _ _ ↦ rfl) s
  rw [hmap] at hrun
  exact hrun.symm

/-! ### Fields that overwrite -/

/-- The last of the values that `f` finds among the fields. -/
def last (d : Decoding φ) (f : φ → Option α) : Option α :=
  (d.fields.filterMap f).getLast?

theorem exists_last {f : φ → Option α} {x : φ} (hx : x ∈ d.fields) {a : α} (h : f x = some a) :
    ∃ a, d.last f = some a := by
  have hmem : a ∈ d.fields.filterMap f := List.mem_filterMap.2 ⟨x, hx, h⟩
  exact Option.isSome_iff_exists.1 (List.getLast?_isSome.2 (List.ne_nil_of_mem hmem))

/-- The last value is that of a field. -/
theorem exists_of_last {f : φ → Option α} {a : α} (h : d.last f = some a) :
    ∃ x ∈ d.fields, f x = some a :=
  List.mem_filterMap.1 (List.mem_of_getLast? h)

theorem last_eq_none {f : φ → Option α} (h : ∀ x ∈ d.fields, f x = none) : d.last f = none := by
  rw [last, List.filterMap_eq_nil_iff.2 h]
  rfl

theorem last_map {β : Type*} (f : φ → Option α) (g : α → β) :
    (d.last fun x ↦ (f x).map g) = (d.last f).map g := by
  rw [last, last, ← List.map_filterMap, List.getLast?_map]

theorem map_last (g : φ → ψ) (f : ψ → Option α) : (d.map g).last f = d.last fun x ↦ f (g x) := by
  rw [last, last, map, List.filterMap_map]
  rfl

/-- What is overwritten by some of the fields holds the value of the last of them. -/
theorem foldl_last (proj : σ → Option α) (step : σ → φ → σ) (f : φ → Option α)
    (h : ∀ s x, proj (step s x) = (f x).or (proj s)) (s : σ) :
    proj (d.fields.foldl step s) = (d.last f).or (proj s) := by
  rw [last]
  generalize d.fields = fs
  induction fs generalizing s with
  | nil => rfl
  | cons x fs ih =>
    rw [List.foldl_cons, ih, h]
    cases hx : f x with
    | none =>
      rw [List.filterMap_cons_none hx]
      rfl
    | some a =>
      rw [List.filterMap_cons_some hx, List.getLast?_cons]
      cases (fs.filterMap f).getLast? <;> rfl

/-- What some of the fields set is set if one of them is there. -/
theorem foldl_any (proj : σ → Bool) (step : σ → φ → σ) (p : φ → Bool)
    (h : ∀ s x, proj (step s x) = (proj s || p x)) (fs : List φ) (s : σ) :
    proj (fs.foldl step s) = (proj s || fs.any p) := by
  induction fs generalizing s with
  | nil => exact (Bool.or_false _).symm
  | cons x fs ih => rw [List.foldl_cons, ih, h, List.any_cons, Bool.or_assoc]

/-- What some of the fields append to is extended by what they append, in order. -/
theorem foldl_filterMap (proj : σ → List α) (step : σ → φ → σ) (f : φ → Option α)
    (h : ∀ s x, proj (step s x) = proj s ++ (f x).toList) (fs : List φ) (s : σ) :
    proj (fs.foldl step s) = proj s ++ fs.filterMap f := by
  induction fs generalizing s with
  | nil => exact (List.append_nil _).symm
  | cons x fs ih =>
    rw [List.foldl_cons, ih, h, List.append_assoc]
    cases hx : f x with
    | none => rw [List.filterMap_cons_none hx, Option.toList_none, List.nil_append]
    | some a => rw [List.filterMap_cons_some hx, Option.toList_some, List.singleton_append]

end Decoding

/-! ### Values in a row -/

/-- A function that takes a value off the start of a stream, or fails. -/
structure Reader (β α : Type) where
  read : List β → Option (α × List β)
  read_lt : ∀ stream a rest, read stream = some (a, rest) → rest.length < stream.length

namespace Reader

variable {ε σ : Type*} {α β ι : Type}

/-- Take values off a stream until it is empty, or one cannot be read. -/
def readAll (r : Reader β α) (push : α → σ → σ) (stream : List β) : Prog ε σ Bool :=
  if 0 < stream.length then
    match _h : r.read stream with
    | none => return false
    | some (a, rest) => do
      Prog.modify (push a)
      readAll r push rest
  else return true
termination_by stream.length
decreasing_by exact r.read_lt stream a rest _h

variable (r : Reader β α) (push : α → σ → σ)

theorem readAll_nil (s : σ) : (r.readAll push [] : Prog ε σ Bool) s = (.ok true, s) := by
  rw [readAll]
  rfl

theorem readAll_of_ne {stream : List β} (hne : stream ≠ []) :
    (r.readAll push stream : Prog ε σ Bool) =
      match r.read stream with
      | none => pure false
      | some (a, rest) => Prog.modify (push a) >>= fun _ ↦ r.readAll push rest := by
  rw [readAll, if_pos (List.length_pos_iff.2 hne)]
  split
  · next h => rw [h]
  · next a rest h => rw [h]

theorem readAll_of_read {stream rest : List β} {a : α} (h : r.read stream = some (a, rest))
    (s : σ) : (r.readAll push stream : Prog ε σ Bool) s = r.readAll push rest (push a s) := by
  have hne : stream ≠ [] := List.length_pos_iff.1 (Nat.zero_lt_of_lt (r.read_lt stream a rest h))
  rw [readAll_of_ne r push hne, h]
  rfl

theorem readAll_of_read_none {stream : List β} (hne : stream ≠ []) (h : r.read stream = none)
    (s : σ) : (r.readAll push stream : Prog ε σ Bool) s = (.ok false, s) := by
  rw [readAll_of_ne r push hne, h]
  rfl

/-- **Encoded values are read in order.** -/
theorem readAll_flatMap {encode : ι → List β} {value : ι → α}
    (h : ∀ i rest, r.read (encode i ++ rest) = some (value i, rest)) (is : List ι) (s : σ) :
    (r.readAll push (is.flatMap encode) : Prog ε σ Bool) s =
      (.ok true, is.foldl (fun s i ↦ push (value i) s) s) := by
  induction is generalizing s with
  | nil => exact readAll_nil r push s
  | cons i is ih =>
    rw [List.flatMap_cons, readAll_of_read r push (h i (is.flatMap encode)), ih, List.foldl_cons]

/-- **A stream is refused if what is left of it is never empty.** -/
theorem readAll_false {P : List β → Prop} (hne : ∀ stream, P stream → stream ≠ [])
    (hrest : ∀ stream a rest, P stream → r.read stream = some (a, rest) → P rest)
    {stream : List β} (h : P stream) (s : σ) :
    ((r.readAll push stream : Prog ε σ Bool) s).1 = .ok false := by
  induction hlen : stream.length using Nat.strongRecOn generalizing stream s with
  | ind n ih =>
    subst hlen
    cases hread : r.read stream with
    | none => rw [readAll_of_read_none r push (hne stream h) hread]
    | some x =>
      obtain ⟨a, rest⟩ := x
      rw [readAll_of_read r push hread]
      exact ih rest.length (r.read_lt stream a rest hread) (hrest stream a rest h hread) _ rfl

end Reader
