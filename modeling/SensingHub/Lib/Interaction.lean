import Mathlib.Tactic.Common

/-!
# Programs that use an interface

A program that calls the operations of an interface and goes on with what they answer is a tree:
`Interaction Op Ans α`. `Steps p es q` says that `p` may perform the calls `es`, with the answers in
them, and then goes on as `q`; a program whose last call is never answered has steps, too.

A `Contract` is the state of the interface, as the calls move it, together with what a caller may
call in each state and what it may be answered. `Contract.wp` is the weakest precondition under such
a contract, computed from the tree, and `Contract.wp_steps` what it is good for: as long as the
answers keep the contract, all calls do, and whatever the program still does is good from the state
it has reached.
-/

/-- Programs that call operations and go on with the answers. -/
inductive Interaction (Op : Type*) (Ans : Op → Type*) (α : Type*)
  | ret (a : α)
  | call (op : Op) (next : Ans op → Interaction Op Ans α)

namespace Interaction

variable {Op : Type*} {Ans : Op → Type*} {α β : Type*}

/-- Sequencing. -/
protected def bind : Interaction Op Ans α → (α → Interaction Op Ans β) → Interaction Op Ans β
  | ret a, f => f a
  | call op next, f => call op fun r ↦ (next r).bind f

instance : Monad (Interaction Op Ans) where
  pure := ret
  bind := Interaction.bind

theorem bind_ret (p : Interaction Op Ans α) : p.bind ret = p := by
  induction p with
  | ret a => rfl
  | call op next ih => exact congrArg (call op) (funext ih)

/-- Sequencing is associative. -/
theorem bind_assoc {γ : Type*} (p : Interaction Op Ans α) (f : α → Interaction Op Ans β)
    (g : β → Interaction Op Ans γ) : (p.bind f).bind g = p.bind fun a ↦ (f a).bind g := by
  induction p with
  | ret a => rfl
  | call op next ih => exact congrArg (call op) (funext ih)

/-- The program that is one call. -/
def perform (op : Op) : Interaction Op Ans (Ans op) :=
  call op ret

/-! ### Steps -/

/-- A call and its answer. -/
structure Event (Op : Type*) (Ans : Op → Type*) where
  op : Op
  answer : Ans op

/-- The calls `es` lead from a program to what is left of it. -/
inductive Steps : Interaction Op Ans α → List (Event Op Ans) → Interaction Op Ans α → Prop
  | refl (p : Interaction Op Ans α) : Steps p [] p
  | call {op : Op} {next : Ans op → Interaction Op Ans α} {es : List (Event Op Ans)}
      {q : Interaction Op Ans α} (r : Ans op) (h : Steps (next r) es q) :
      Steps (call op next) (⟨op, r⟩ :: es) q

/-- The program performs the calls `es` and returns `a`. -/
abbrev Run (p : Interaction Op Ans α) (es : List (Event Op Ans)) (a : α) : Prop :=
  Steps p es (ret a)

/-- What comes behind the calls of the first of two programs are calls of the second. -/
theorem Steps.of_bind {p : Interaction Op Ans α} {f : α → Interaction Op Ans β} {a : α}
    {es es' : List (Event Op Ans)} {q : Interaction Op Ans β} (hrun : Run p es a)
    (h : Steps (p.bind f) (es ++ es') q) : Steps (f a) es' q := by
  induction es generalizing p with
  | nil =>
    cases hrun
    exact h
  | cons e es ih =>
    cases hrun with
    | call r hrun =>
      cases h with
      | call _ h => exact ih hrun h

end Interaction

open Interaction (Event Steps Run)

/-- The state of an interface, what may be called in it and what may be answered. -/
structure Contract (Op : Type*) (Ans : Op → Type*) (σ : Type*) where
  /-- What the caller may call. -/
  allows : σ → Op → Prop
  /-- What may be answered. -/
  answers : σ → (op : Op) → Ans op → Prop
  /-- The state behind a call. -/
  next : σ → (op : Op) → Ans op → σ

namespace Contract

variable {Op : Type*} {Ans : Op → Type*} {σ α β : Type*} (C : Contract Op Ans σ)

/-- The state behind some calls. -/
def after (s : σ) (es : List (Event Op Ans)) : σ :=
  es.foldl (fun s e ↦ C.next s e.op e.answer) s

/-- All calls are allowed where they are made. -/
def Respected : σ → List (Event Op Ans) → Prop
  | _, [] => True
  | s, e :: es => C.allows s e.op ∧ Respected (C.next s e.op e.answer) es

/-- All answers may be given where they are given. -/
def Answered : σ → List (Event Op Ans) → Prop
  | _, [] => True
  | s, e :: es => C.answers s e.op e.answer ∧ Answered (C.next s e.op e.answer) es

/-- A contract that promises nothing about the answers is kept by all of them. -/
theorem answered_of_forall {C : Contract Op Ans σ} (h : ∀ s op r, C.answers s op r) (s : σ)
    (es : List (Event Op Ans)) : C.Answered s es := by
  induction es generalizing s with
  | nil => trivial
  | cons e es ih => exact ⟨h s e.op e.answer, ih _⟩

/-- The weakest precondition: all calls are allowed, and what is returned has `Q` together with the
state then. -/
def wp : Interaction Op Ans α → (α → σ → Prop) → σ → Prop
  | .ret a, Q, s => Q a s
  | .call op next, Q, s =>
    C.allows s op ∧ ∀ r, C.answers s op r → wp (next r) Q (C.next s op r)

variable {C} {Q Q' : α → σ → Prop} {s : σ}

theorem wp_bind {p : Interaction Op Ans α} {f : α → Interaction Op Ans β} {R : β → σ → Prop} :
    C.wp (p.bind f) R s ↔ C.wp p (fun a ↦ C.wp (f a) R) s := by
  induction p generalizing s with
  | ret a => rfl
  | call op next ih =>
    exact and_congr_right fun _ ↦ forall_congr' fun r ↦ imp_congr_right fun _ ↦ ih r

theorem wp_mono {p : Interaction Op Ans α} (h : ∀ a s, Q a s → Q' a s) (hp : C.wp p Q s) :
    C.wp p Q' s := by
  induction p generalizing s with
  | ret a => exact h a s hp
  | call op next ih => exact ⟨hp.1, fun r hr ↦ ih r (hp.2 r hr)⟩

section

variable {Op : Type*} {α β : Type} {Ans : Op → Type} {C : Contract Op Ans σ}

theorem wp_pure {a : α} {Q : α → σ → Prop} {s : σ} (h : Q a s) :
    C.wp (pure a : Interaction Op Ans α) Q s :=
  h

/-- A call and what comes behind it. -/
theorem wp_perform {op : Op} {f : Ans op → Interaction Op Ans α} {Q : α → σ → Prop} {s : σ}
    (hallows : C.allows s op)
    (h : ∀ r, C.answers s op r → C.wp (f r) Q (C.next s op r)) :
    C.wp (Interaction.perform op >>= f) Q s :=
  ⟨hallows, h⟩

/-- A program, by its specification, and what comes behind it. -/
theorem wp_then {p : Interaction Op Ans α} {f : α → Interaction Op Ans β} {P : α → σ → Prop}
    {Q : β → σ → Prop} {s : σ} (hp : C.wp p P s) (h : ∀ a t, P a t → C.wp (f a) Q t) :
    C.wp (p >>= f) Q s :=
  wp_bind.2 (wp_mono h hp)

end

/-- **Under the weakest precondition a program keeps the contract**, as long as what it is answered
does, and goes on from a state that is good for the rest of it. -/
theorem wp_steps {p q : Interaction Op Ans α} {es : List (Event Op Ans)} (hp : C.wp p Q s)
    (h : Steps p es q) (hes : C.Answered s es) :
    C.Respected s es ∧ C.wp q Q (C.after s es) := by
  induction h generalizing s with
  | refl p => exact ⟨trivial, hp⟩
  | call r _ ih =>
    obtain ⟨hrest, hq⟩ := ih (hp.2 r hes.1) hes.2
    exact ⟨⟨hp.1, hrest⟩, hq⟩

/-- What a program that has returned has reached. -/
theorem wp_run {p : Interaction Op Ans α} {es : List (Event Op Ans)} {a : α} (hp : C.wp p Q s)
    (h : Run p es a) (hes : C.Answered s es) : C.Respected s es ∧ Q a (C.after s es) :=
  wp_steps hp h hes

end Contract
