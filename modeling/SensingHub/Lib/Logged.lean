import SensingHub.Lib.Prog

/-!
# Programs with a record of what they do

A program that has been annotated with events, which it appends to a log. The log is not read, so
that without it the program does what it did before the annotation (`Prog.Erases`); and what is
wanted of all events is an invariant of the log, to be shown with the rules for triples
(`Prog.Keeps`).
-/

/-- A state with a log. -/
structure Logged (σ ω : Type*) where
  state : σ
  log : List ω

namespace Prog

variable {ε σ ω : Type*} {α β : Type}

/-- Append an event to the log. -/
def record (e : ω) : Prog ε (Logged σ ω) Unit :=
  Prog.modify fun s ↦ { s with log := s.log ++ [e] }

/-- A program that records nothing. -/
def quietly (x : Prog ε σ α) : Prog ε (Logged σ ω) α := fun s ↦
  ((x s.state).1, { s with state := (x s.state).2 })

/-! ### Without the log -/

/-- Without the log `x` is `y`. -/
def Erases (x : Prog ε (Logged σ ω) α) (y : Prog ε σ α) : Prop :=
  ∀ s, y s.state = ((x s).1, (x s).2.state)

theorem Erases.pure (a : α) : Erases (Pure.pure a : Prog ε (Logged σ ω) α) (Pure.pure a) :=
  fun _ ↦ rfl

theorem Erases.stop (e : ε) : Erases (Prog.stop e : Prog ε (Logged σ ω) α) (Prog.stop e) :=
  fun _ ↦ rfl

theorem Erases.quietly (x : Prog ε σ α) : Erases (Prog.quietly x : Prog ε (Logged σ ω) α) x :=
  fun _ ↦ rfl

theorem Erases.bind {x : Prog ε (Logged σ ω) α} {y : Prog ε σ α}
    {f : α → Prog ε (Logged σ ω) β} {g : α → Prog ε σ β} (hx : Erases x y)
    (hf : ∀ a, Erases (f a) (g a)) : Erases (x >>= f) (y >>= g) := by
  intro s
  have hfirst := hx s
  rcases hrun : x s with ⟨e | a, t⟩ <;> rw [hrun] at hfirst
  · rw [bind_error hrun, bind_error hfirst]
  · rw [bind_ok hrun, bind_ok hfirst]
    exact hf a t

theorem Erases.record (e : ω) : Erases (Prog.record e : Prog ε (Logged σ ω) Unit) (Pure.pure ()) :=
  fun _ ↦ rfl

/-- What only records can be left out in front of a program. -/
theorem Erases.before {z : Prog ε (Logged σ ω) Unit} (hz : Erases z (Pure.pure ()))
    {x : Prog ε (Logged σ ω) α} {y : Prog ε σ α} (hx : Erases x y) :
    Erases (z >>= fun _ ↦ x) y := by
  intro s
  have hfirst := hz s
  rcases hrun : z s with ⟨e | u, t⟩ <;> rw [hrun] at hfirst
  · cases hfirst
  · obtain ⟨-, hstate⟩ := Prod.mk.inj hfirst
    rw [bind_ok hrun, hstate]
    exact hx t

/-- What only records can be left out behind a program. -/
theorem Erases.after {x : Prog ε (Logged σ ω) α} {y : Prog ε σ α} (hx : Erases x y)
    {z : α → Prog ε (Logged σ ω) Unit} (hz : ∀ a, Erases (z a) (Pure.pure ())) :
    Erases (do
      let a ← x
      z a
      return a) y := by
  intro s
  have hfirst := hx s
  rcases hrun : x s with ⟨e | a, t⟩ <;> rw [hrun] at hfirst
  · rw [bind_error hrun, hfirst]
  · rw [bind_ok hrun, hfirst]
    exact (hz a).before (Erases.pure a) t

theorem Erases.ite {c : Prop} [Decidable c] {x x' : Prog ε (Logged σ ω) α} {y y' : Prog ε σ α}
    (hx : Erases x y) (hx' : Erases x' y') :
    Erases (if c then x else x') (if c then y else y') := by
  split
  · exact hx
  · exact hx'

/-! ### Triples -/

variable {I : Logged σ ω → Prop} {E : ε → Prop} {P : α → Prop}

theorem Keeps.quietly {x : Prog ε σ α} (h : ∀ log, Keeps (fun s ↦ I ⟨s, log⟩) E x P) :
    Keeps I E (Prog.quietly x) P :=
  fun s hs ↦ h s.log s.state hs

end Prog
