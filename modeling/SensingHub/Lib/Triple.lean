import SensingHub.Lib.Logged

/-!
# Triples about a part of the state

What a program does is often said of a part of its state only, of a buffer say, while an invariant
ties the rest to it. `Ensures I view R b x q` is about a run of `x` from a state with the invariant
`I` of which `view` shows `b`: the invariant holds again, wherever the run ends, what is seen then
is related to `b` by `R`, and the result has `q` together with it.

What is seen is a variable and not a function of the state, so that facts about it are hypotheses;
and `R`, which says what a program changes at most, carries those that survive such changes past a
call without being part of its specification.
-/

namespace Prog

variable {ε σ τ : Type*} {α β : Type}

/-- From a state with `I` of which `b` is seen, `x` leaves one with `I`, of which something related
to `b` is seen, and what it returns has `q` together with that. -/
def Ensures (I : σ → Prop) (view : σ → τ) (R : τ → τ → Prop) (b : τ) (x : Prog ε σ α)
    (q : α → τ → Prop) : Prop :=
  ∀ s, I s → view s = b →
    I (x s).2 ∧ R b (view (x s).2) ∧ ∀ a, (x s).1 = .ok a → q a (view (x s).2)

variable {I : σ → Prop} {view : σ → τ} {R : τ → τ → Prop} {b : τ} {x y : Prog ε σ α}
  {q q' : α → τ → Prop}

theorem Ensures.mono (hx : Ensures I view R b x q) (h : ∀ a b', R b b' → q a b' → q' a b') :
    Ensures I view R b x q' := by
  intro s hs hb
  obtain ⟨hI, hR, hq⟩ := hx s hs hb
  exact ⟨hI, hR, fun a ha ↦ h a _ hR (hq a ha)⟩

/-- What the invariant says about what is seen may be used. -/
theorem Ensures.of_invariant {p : Prop} (hp : ∀ s, I s → view s = b → p)
    (h : p → Ensures I view R b x q) : Ensures I view R b x q :=
  fun s hs hb ↦ h (hp s hs hb) s hs hb

theorem Ensures.ite {p : Prop} [Decidable p] (hx : p → Ensures I view R b x q)
    (hy : ¬ p → Ensures I view R b y q) : Ensures I view R b (if p then x else y) q := by
  split
  · next h => exact hx h
  · next h => exact hy h

theorem Ensures.modify {f : σ → σ} {q : Unit → τ → Prop}
    (h : ∀ s, I s → view s = b → I (f s) ∧ R b (view (f s)) ∧ q () (view (f s))) :
    Ensures I view R b (Prog.modify f : Prog ε σ Unit) q := by
  intro s hs hb
  obtain ⟨hI, hR, hq⟩ := h s hs hb
  exact ⟨hI, hR, fun _ _ ↦ hq⟩

section Refl

variable [Std.Refl R]

theorem Ensures.pure {a : α} (h : q a b) :
    Ensures I view R b (Pure.pure a : Prog ε σ α) q := by
  rintro s hs rfl
  refine ⟨hs, refl_of R _, ?_⟩
  rintro _ ⟨⟩
  exact h

theorem Ensures.stop (e : ε) : Ensures I view R b (Prog.stop e : Prog ε σ α) q := by
  rintro s hs rfl
  refine ⟨hs, refl_of R _, ?_⟩
  rintro _ ⟨⟩

theorem Ensures.read {f : σ → α} (h : ∀ s, I s → view s = b → q (f s) b) :
    Ensures I view R b (Prog.read f : Prog ε σ α) q := by
  rintro s hs rfl
  refine ⟨hs, refl_of R _, ?_⟩
  rintro _ ⟨⟩
  exact h s hs rfl

end Refl

/-- Sequencing: the rest is run from what is seen behind `x`. -/
theorem Ensures.bind [IsTrans τ R] {f : α → Prog ε σ β} {r : β → τ → Prop}
    (hx : Ensures I view R b x q)
    (hf : ∀ a b', R b b' → q a b' → Ensures I view R b' (f a) r) :
    Ensures I view R b (x >>= f) r := by
  intro s hs hb
  obtain ⟨hI, hR, hq⟩ := hx s hs hb
  rcases hrun : x s with ⟨e | a, t⟩ <;> rw [hrun] at hI hR hq
  · rw [bind_error hrun]
    refine ⟨hI, hR, ?_⟩
    rintro _ ⟨⟩
  · rw [bind_ok hrun]
    obtain ⟨hI', hR', hr⟩ := hf a _ hR (hq a rfl) t hI rfl
    exact ⟨hI', trans_of R hR hR', hr⟩

end Prog
