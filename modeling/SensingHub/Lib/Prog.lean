import Mathlib.Order.Defs.Unbundled
import Mathlib.Tactic.Common

/-!
# Programs over a state that may stop

`Prog ε σ α` is a program that reads and writes a state `σ` and either returns an `α` or stops with
an `ε`. The state it has reached survives a stop, as it does when a C++ exception leaves a function:
whoever catches it finds the object as it was then.

Two ways of reasoning are set up. A program can be run symbolically, with `bind_ok` and `bind_error`
as the rules for sequencing; and a relation between the state before and the state after can be
carried through a program whatever it returns (`Prog.Within`), which is how frame conditions and
monotonicity are proved without following its control flow.
-/

/-- Programs on a state `σ` that return an `α` or stop with an `ε`, keeping the state. -/
def Prog (ε σ : Type*) (α : Type) : Type _ :=
  σ → Except ε α × σ

namespace Prog

variable {ε σ : Type*} {α β : Type}

/-- Sequencing: a stop ends the program where it happens. -/
protected def bind (x : Prog ε σ α) (f : α → Prog ε σ β) : Prog ε σ β := fun s ↦
  match x s with
  | (.ok a, t) => f a t
  | (.error e, t) => (.error e, t)

instance : Monad (Prog ε σ) where
  pure a := fun s ↦ (.ok a, s)
  bind := Prog.bind

/-- A component of the state. -/
def read (f : σ → α) : Prog ε σ α := fun s ↦ (.ok (f s), s)

/-- An update of the state. -/
def modify (f : σ → σ) : Prog ε σ Unit := fun s ↦ (.ok (), f s)

/-- Stop with `e`. -/
def stop (e : ε) : Prog ε σ α := fun s ↦ (.error e, s)

/-- A program on local variables that start as `t`, with what they are at its end. -/
def withLocal {τ : Type} (t : τ) (x : Prog ε τ α) : Prog ε σ (α × τ) := fun s ↦
  match x t with
  | (.ok a, t) => (.ok (a, t), s)
  | (.error e, _) => (.error e, s)

/-- A program that is part of one with more to stop with. -/
def mapError {ε' : Type*} (f : ε → ε') (x : Prog ε σ α) : Prog ε' σ α := fun s ↦
  match x s with
  | (.ok a, t) => (.ok a, t)
  | (.error e, t) => (.error (f e), t)

/-! ### Running a program -/

@[simp] theorem pure_run (a : α) (s : σ) : (pure a : Prog ε σ α) s = (.ok a, s) := rfl

@[simp] theorem stop_run (e : ε) (s : σ) : (stop e : Prog ε σ α) s = (.error e, s) := rfl

theorem bind_ok {x : Prog ε σ α} {f : α → Prog ε σ β} {s t : σ} {a : α} (h : x s = (.ok a, t)) :
    (x >>= f) s = f a t := by
  change Prog.bind x f s = _
  rw [Prog.bind, h]

theorem bind_error {x : Prog ε σ α} {f : α → Prog ε σ β} {s t : σ} {e : ε}
    (h : x s = (.error e, t)) : (x >>= f) s = (.error e, t) := by
  change Prog.bind x f s = _
  rw [Prog.bind, h]

theorem bind_fst_ok {x : Prog ε σ α} {f : α → Prog ε σ β} {s : σ} {a : α}
    (h : (x s).1 = .ok a) : (x >>= f) s = f a (x s).2 :=
  bind_ok (Prod.ext h rfl)

theorem bind_fst_error {x : Prog ε σ α} {f : α → Prog ε σ β} {s : σ} {e : ε}
    (h : (x s).1 = .error e) : ((x >>= f) s).1 = .error e := by
  rw [bind_error (t := (x s).2) (Prod.ext h rfl)]

/-- A program that has returned has gone through its first part. -/
theorem exists_of_bind_ok {x : Prog ε σ α} {f : α → Prog ε σ β} {s u : σ} {b : β}
    (h : (x >>= f) s = (.ok b, u)) : ∃ a t, x s = (.ok a, t) ∧ f a t = (.ok b, u) := by
  rcases hx : x s with ⟨e | a, t⟩
  · rw [bind_error hx] at h
    cases h
  · rw [bind_ok hx] at h
    exact ⟨a, t, rfl, h⟩

theorem withLocal_ok {τ : Type} {t t' : τ} {x : Prog ε τ α} {a : α} (h : x t = (.ok a, t'))
    (s : σ) : withLocal t x s = (.ok (a, t'), s) := by
  rw [withLocal, h]

theorem withLocal_error {τ : Type} {t t' : τ} {x : Prog ε τ α} {e : ε}
    (h : x t = (.error e, t')) (s : σ) : withLocal t x s = (.error e, s) := by
  rw [withLocal, h]

theorem mapError_ok {ε' : Type*} (f : ε → ε') {x : Prog ε σ α} {a : α} {s t : σ}
    (h : x s = (.ok a, t)) : mapError f x s = (.ok a, t) := by
  rw [mapError, h]

@[simp] theorem pure_bind_run (a : α) (f : α → Prog ε σ β) (s : σ) :
    ((pure a : Prog ε σ α) >>= f) s = f a s := rfl

@[simp] theorem read_bind_run (g : σ → α) (f : α → Prog ε σ β) (s : σ) :
    ((read g : Prog ε σ α) >>= f) s = f (g s) s := rfl

@[simp] theorem modify_bind_run (g : σ → σ) (f : Unit → Prog ε σ β) (s : σ) :
    ((modify g : Prog ε σ Unit) >>= f) s = f () (g s) := rfl

@[simp] theorem bind_assoc_run {γ : Type} (x : Prog ε σ α) (f : α → Prog ε σ β)
    (g : β → Prog ε σ γ) (s : σ) : ((x >>= f) >>= g) s = (x >>= fun a ↦ f a >>= g) s := by
  rcases hx : x s with ⟨a | a, t⟩
  · rw [bind_error (bind_error hx), bind_error hx]
  · rw [bind_ok hx]
    rcases hf : f a t with ⟨b | b, u⟩
    · rw [bind_error ((bind_ok hx).trans hf), bind_error hf]
    · rw [bind_ok ((bind_ok hx).trans hf), bind_ok hf]

theorem bind_bind {γ : Type} (x : Prog ε σ α) (f : α → Prog ε σ β) (g : β → Prog ε σ γ) :
    (x >>= f) >>= g = x >>= fun a ↦ f a >>= g :=
  funext (bind_assoc_run x f g)

/-! ### Relations between the states before and after -/

/-- Whatever the program returns or stops with, the state it leaves is related by `R` to the state
it starts in. -/
def Within (R : σ → σ → Prop) (x : Prog ε σ α) : Prop :=
  ∀ s, R s (x s).2

variable {R : σ → σ → Prop}

theorem Within.modify {f : σ → σ} (h : ∀ s, R s (f s)) :
    Within R (Prog.modify f : Prog ε σ Unit) :=
  h

theorem Within.ite {c : Prop} [Decidable c] {x y : Prog ε σ α} (hx : Within R x)
    (hy : Within R y) : Within R (if c then x else y) := by
  split
  · exact hx
  · exact hy

section Refl

variable [Std.Refl R]

theorem Within.pure (a : α) : Within R (Pure.pure a : Prog ε σ α) :=
  fun s ↦ refl_of R s

theorem Within.read (f : σ → α) : Within R (Prog.read f : Prog ε σ α) :=
  fun s ↦ refl_of R s

theorem Within.stop (e : ε) : Within R (Prog.stop e : Prog ε σ α) :=
  fun s ↦ refl_of R s

end Refl

theorem Within.bind [IsTrans σ R] {x : Prog ε σ α} {f : α → Prog ε σ β} (hx : Within R x)
    (hf : ∀ a, Within R (f a)) : Within R (x >>= f) := by
  intro s
  have hfirst := hx s
  rcases hrun : x s with ⟨a | a, t⟩
  · rw [bind_error hrun]
    rwa [hrun] at hfirst
  · rw [bind_ok hrun]
    rw [hrun] at hfirst
    exact trans_of R hfirst (hf a t)

/-! ### Triples -/

/-- From a state with `I` the program leaves a state with `I`, whatever it does, and what it returns
has `P`, what it stops with `E`. -/
def Keeps (I : σ → Prop) (E : ε → Prop) (x : Prog ε σ α) (P : α → Prop) : Prop :=
  ∀ s, I s → I (x s).2 ∧ (∀ a, (x s).1 = .ok a → P a) ∧ ∀ e, (x s).1 = .error e → E e

variable {I : σ → Prop} {E : ε → Prop} {P : α → Prop} {Q : β → Prop}

theorem Keeps.pure {a : α} (h : P a) : Keeps I E (Pure.pure a : Prog ε σ α) P := by
  refine fun s hs ↦ ⟨hs, ?_, ?_⟩
  · rintro _ ⟨⟩
    exact h
  · rintro _ ⟨⟩

theorem Keeps.stop {e : ε} (h : E e) : Keeps I E (Prog.stop e : Prog ε σ α) P := by
  refine fun s hs ↦ ⟨hs, ?_, ?_⟩
  · rintro _ ⟨⟩
  · rintro _ ⟨⟩
    exact h

theorem Keeps.modify {f : σ → σ} (h : ∀ s, I s → I (f s)) :
    Keeps I E (Prog.modify f : Prog ε σ Unit) fun _ ↦ True := by
  refine fun s hs ↦ ⟨h s hs, fun _ _ ↦ trivial, ?_⟩
  rintro _ ⟨⟩

theorem Keeps.bind {x : Prog ε σ α} {f : α → Prog ε σ β} (hx : Keeps I E x P)
    (hf : ∀ a, P a → Keeps I E (f a) Q) : Keeps I E (x >>= f) Q := by
  intro s hs
  obtain ⟨hfirst, hok, herror⟩ := hx s hs
  rcases hrun : x s with ⟨e | a, t⟩ <;> rw [hrun] at hfirst hok herror
  · rw [bind_error hrun]
    refine ⟨hfirst, ?_, ?_⟩
    · rintro _ ⟨⟩
    · rintro _ ⟨⟩
      exact herror e rfl
  · rw [bind_ok hrun]
    exact hf a (hok a rfl) t hfirst

theorem Keeps.mono {x : Prog ε σ α} {P' : α → Prop} (hx : Keeps I E x P) (h : ∀ a, P a → P' a) :
    Keeps I E x P' := fun s hs ↦
  ⟨(hx s hs).1, fun a ha ↦ h a ((hx s hs).2.1 a ha), (hx s hs).2.2⟩

theorem Keeps.ite {c : Prop} [Decidable c] {x y : Prog ε σ α} (hx : c → Keeps I E x P)
    (hy : ¬ c → Keeps I E y P) : Keeps I E (if c then x else y) P := by
  split
  · next h => exact hx h
  · next h => exact hy h

end Prog
