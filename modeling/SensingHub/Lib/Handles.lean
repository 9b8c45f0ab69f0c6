import Mathlib.Logic.Function.Basic
import SensingHub.Lib.Interaction

/-!
# Handles that are acquired, used and released

The interface of files and the like: something is opened by its name, what is returned is used, and
closed in the end. Handles of different kinds have nothing to do with each other. Besides, the
environment can be asked for what needs no handle.

The contract asks of a program that it uses and releases only handles that it has and has not
released; the state tells which these are, and what they have been used for so far.
-/

/-- The operations, for kinds `K` of handles, names `N`, uses `U` and questions `V`. -/
inductive HandleOp (K N U V : Type)
  | acquire (k : K) (name : N)
  | use (k : K) (h : ℕ) (u : U)
  | release (k : K) (h : ℕ)
  | ask (v : V)

/-- What they return. -/
abbrev HandleAns {K N U V : Type} (A : U → Type) (B : V → Type) : HandleOp K N U V → Type
  | .acquire _ _ => Option ℕ
  | .use _ _ u => A u
  | .release _ _ => Unit
  | .ask v => B v

/-- Programs that use handles. -/
abbrev HandleM (K N : Type) {U V : Type} (A : U → Type) (B : V → Type) :=
  Interaction (HandleOp K N U V) (HandleAns A B)

namespace HandleOp

variable {K N U V : Type} {A : U → Type} {B : V → Type}

/-! The operations as programs. -/

abbrev callAcquire (k : K) (name : N) : HandleM K N A B (Option ℕ) :=
  Interaction.perform (acquire k name)

abbrev callUse (k : K) (h : ℕ) (u : U) : HandleM K N A B (A u) :=
  Interaction.perform (use k h u)

abbrev callRelease (k : K) (h : ℕ) : HandleM K N A B Unit :=
  Interaction.perform (release k h)

abbrev callAsk (v : V) : HandleM K N A B (B v) :=
  Interaction.perform (ask v)

end HandleOp

/-- What has been done with a handle: by its name, with what it returned. -/
structure Used (N : Type) {U : Type} (A : U → Type) where
  name : N
  use : U
  answer : A use

/-- The names of the handles that are held, and what has been done so far. -/
structure Handles (K N : Type) {U : Type} (A : U → Type) where
  held : K × ℕ → Option N
  used : List (Used N A)

namespace Handles

variable {K N U V : Type} {A : U → Type} {B : V → Type} [DecidableEq K]

/-- Nothing is held. -/
def empty : Handles K N A :=
  ⟨fun _ ↦ none, []⟩

/-- With one more handle. -/
def hold (s : Handles K N A) (k : K) (h : ℕ) (name : N) : Handles K N A :=
  { s with held := Function.update s.held (k, h) (some name) }

/-- Without a handle. -/
def drop (s : Handles K N A) (k : K) (h : ℕ) : Handles K N A :=
  { s with held := Function.update s.held (k, h) none }

/-- With one more use. -/
def record (s : Handles K N A) (e : Used N A) : Handles K N A :=
  { s with used := s.used ++ [e] }

theorem held_hold (s : Handles K N A) (k : K) (h : ℕ) (name : N) :
    (s.hold k h name).held (k, h) = some name :=
  Function.update_self (β := fun _ ↦ Option N) (k, h) _ s.held

theorem held_hold_of_ne (s : Handles K N A) {k k' : K} {h h' : ℕ} (hne : (k', h') ≠ (k, h))
    (name : N) : (s.hold k h name).held (k', h') = s.held (k', h') :=
  Function.update_of_ne (β := fun _ ↦ Option N) hne (some name) s.held

/-- What is held for a while leaves nothing behind. -/
theorem held_drop {s t : Handles K N A} {k : K} {h : ℕ} {name : N}
    (hfree : s.held (k, h) = none) (hheld : t.held = (s.hold k h name).held) :
    (t.drop k h).held = s.held := by
  show Function.update t.held (k, h) none = s.held
  rw [hheld, hold, Function.update_idem, ← hfree, Function.update_eq_self]

/-- The contract. What is not `there` is not opened. -/
def contract (there : K → N → Prop) : Contract (HandleOp K N U V) (HandleAns A B)
    (Handles K N A) where
  allows s
    | .use k h _ | .release k h => s.held (k, h) ≠ none
    | .acquire _ _ | .ask _ => True
  answers s
    | .acquire k name, r => ∀ h, r = some h → s.held (k, h) = none ∧ there k name
    | .use _ _ _, _ | .release _ _, _ | .ask _, _ => True
  next s
    | .acquire k name, some h => s.hold k h name
    | .acquire _ _, none => s
    | .use k h u, r =>
      match s.held (k, h) with
      | some name => s.record ⟨name, u, r⟩
      | none => s
    | .release k h, _ => s.drop k h
    | .ask _, _ => s

variable {there : K → N → Prop} {α : Type} {Q : α → Handles K N A → Prop} {s : Handles K N A}

theorem wp_acquire {k : K} {name : N} {f : Option ℕ → HandleM K N A B α}
    (hsome : ∀ h, s.held (k, h) = none → there k name →
      (contract there).wp (f (some h)) Q (s.hold k h name))
    (hnone : (contract there).wp (f none) Q s) :
    (contract there).wp (HandleOp.callAcquire k name >>= f) Q s := by
  refine Contract.wp_perform trivial fun r hr ↦ ?_
  cases r with
  | none => exact hnone
  | some h => exact hsome h (hr h rfl).1 (hr h rfl).2

theorem wp_use {k : K} {h : ℕ} {u : U} {name : N} {f : A u → HandleM K N A B α}
    (hheld : s.held (k, h) = some name)
    (huse : ∀ r, (contract there).wp (f r) Q (s.record ⟨name, u, r⟩)) :
    (contract there).wp (HandleOp.callUse k h u >>= f) Q s := by
  refine Contract.wp_perform ?_ fun r _ ↦ ?_
  · show s.held (k, h) ≠ none
    rw [hheld]
    exact Option.some_ne_none name
  · show (contract there).wp (f r) Q (match s.held (k, h) with
      | some name => s.record ⟨name, u, r⟩
      | none => s)
    rw [hheld]
    exact huse r

theorem wp_release {k : K} {h : ℕ} {name : N} {f : Unit → HandleM K N A B α}
    (hheld : s.held (k, h) = some name)
    (hdrop : (contract there).wp (f ()) Q (s.drop k h)) :
    (contract there).wp (HandleOp.callRelease k h >>= f) Q s := by
  refine Contract.wp_perform ?_ fun _ _ ↦ hdrop
  show s.held (k, h) ≠ none
  rw [hheld]
  exact Option.some_ne_none name

theorem wp_ask {v : V} {f : B v → HandleM K N A B α}
    (hask : ∀ r, (contract there).wp (f r) Q s) :
    (contract there).wp (HandleOp.callAsk v >>= f) Q s :=
  Contract.wp_perform trivial fun r _ ↦ hask r

/-- What is opened, used once and closed, or cannot be opened. -/
theorem wp_once {k : K} {name : N} {u : U} {f : Option ℕ → HandleM K N A B α}
    (g : A u → HandleM K N A B α)
    (hf : ∀ h, f (some h) = do
      let r ← HandleOp.callUse k h u
      HandleOp.callRelease k h
      g r)
    (hsome : there k name → ∀ r t, t.held = s.held → t.used = s.used ++ [⟨name, u, r⟩] →
      (contract there).wp (g r) Q t)
    (hnone : (contract there).wp (f none) Q s) :
    (contract there).wp (HandleOp.callAcquire k name >>= f) Q s := by
  refine wp_acquire (fun h hfree hthere ↦ ?_) hnone
  have hheld := held_hold s k h name
  rw [hf]
  exact wp_use hheld fun r ↦ wp_release hheld (hsome hthere r _ (held_drop hfree rfl) rfl)

end Handles
