import SensingHub.Lib.Prog

/-!
# Programs that may run out of fuel

A loop written with fuel stops with an error of its own when the fuel is used up. A result that is
not this error has been reached without the bound, and more fuel gives it again: `SameUnless e x y`
says that `y` does what `x` does from every state in which `x` does not stop with `e`. It is a
congruence for sequencing, so that monotonicity in the fuel is proved along the control flow, with
one induction for each loop.
-/

namespace Prog

variable {ε σ : Type*} {α β : Type} {e : ε}

/-- `y` does what `x` does, unless `x` stops with `e`. -/
def SameUnless (e : ε) (x y : Prog ε σ α) : Prop :=
  ∀ s, (x s).1 ≠ .error e → y s = x s

namespace SameUnless

theorem refl (x : Prog ε σ α) : SameUnless e x x := fun _ _ ↦ rfl

theorem stop (y : Prog ε σ α) : SameUnless e (Prog.stop e) y := fun _ h ↦ absurd rfl h

theorem bind {x y : Prog ε σ α} {f g : α → Prog ε σ β} (hxy : SameUnless e x y)
    (hfg : ∀ a, SameUnless e (f a) (g a)) : SameUnless e (x >>= f) (y >>= g) := by
  intro s hne
  rcases hx : x s with ⟨e' | a, t⟩
  · -- an early stop of `x` is the stop of the whole
    rw [bind_error hx] at hne
    have he : e' ≠ e := fun he ↦ hne (congrArg Except.error he)
    have hy : y s = (.error e', t) :=
      (hxy s (by rw [hx]; exact fun h ↦ he (Except.error.inj h))).trans hx
    rw [bind_error hx, bind_error hy]
  · rw [bind_ok hx] at hne
    have hy : y s = (.ok a, t) := (hxy s (by rw [hx]; exact fun h ↦ nomatch h)).trans hx
    rw [bind_ok hx, bind_ok hy]
    exact hfg a t hne

/-- The first part is the same. -/
theorem bind_left (x : Prog ε σ α) {f g : α → Prog ε σ β} (hfg : ∀ a, SameUnless e (f a) (g a)) :
    SameUnless e (x >>= f) (x >>= g) :=
  (refl x).bind hfg

/-- The second part is the same. -/
theorem bind_right {x y : Prog ε σ α} (hxy : SameUnless e x y) (f : α → Prog ε σ β) :
    SameUnless e (x >>= f) (y >>= f) :=
  hxy.bind fun a ↦ refl (f a)

theorem ite {c : Prop} [Decidable c] {x x' y y' : Prog ε σ α} (hx : SameUnless e x x')
    (hy : SameUnless e y y') : SameUnless e (if c then x else y) (if c then x' else y') := by
  split
  · exact hx
  · exact hy

end SameUnless

end Prog
