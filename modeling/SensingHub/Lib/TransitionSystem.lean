import Mathlib.Data.List.Basic
import Mathlib.Logic.Relation

/-!
# Labelled transition systems, runs and invariants

A transition system is a set of initial states with a labelled step relation; a run records the
labels it takes, in order. Two rules carry every safety argument made over such a system:

* `Preserves.of_run` — what one step keeps, a whole run keeps, from any state it starts in;
* `IsInvariantIf.of_reachable` — what holds initially and is kept by a step holds of every
  reachable state.

`RunIf` is a run whose every step meets a side condition on the state it leaves and the label it
takes; it is what a conditional safety statement quantifies over, and both rules are stated for it.
A run without condition is `Run`, an invariant without condition `IsInvariant`. `RunThrough` is a
run that stays inside a set of states, which `Preserves.runThrough` derives from an invariant.

A third rule is about progress: `exists_runIf_of_rank` builds a run to a goal out of single steps
that lower a rank.

Nothing here knows of a particular machine.
-/

/-- Initial states and a labelled step relation. -/
structure TransitionSystem (σ ℓ : Type*) where
  /-- The states a run may start in. -/
  init : σ → Prop
  /-- `step s l t`: the label `l` may lead from `s` to `t`. -/
  step : σ → ℓ → σ → Prop

namespace TransitionSystem

variable {σ ℓ : Type*} (S : TransitionSystem σ ℓ)

/-! ### Runs -/

/-- `RunIf C s ls t`: the labels `ls`, taken in order, lead from `s` to `t`, and each of these
steps meets `C` where it is taken. -/
inductive RunIf (C : σ → ℓ → Prop) (s : σ) : List ℓ → σ → Prop
  | nil : RunIf C s [] s
  | snoc {t u : σ} {ls : List ℓ} {l : ℓ} :
      RunIf C s ls t → C t l → S.step t l u → RunIf C s (ls ++ [l]) u

/-- A run without side condition. -/
abbrev Run : σ → List ℓ → σ → Prop :=
  S.RunIf fun _ _ ↦ True

/-- A run all of whose states, the first and the last included, satisfy `P`. -/
inductive RunThrough (P : σ → Prop) (s : σ) : List ℓ → σ → Prop
  | nil : P s → RunThrough P s [] s
  | snoc {t u : σ} {ls : List ℓ} {l : ℓ} :
      RunThrough P s ls t → S.step t l u → P u → RunThrough P s (ls ++ [l]) u

variable {S}

theorem RunThrough.last {P : σ → Prop} {s t : σ} {ls : List ℓ} (h : S.RunThrough P s ls t) :
    P t := by
  cases h with
  | nil h => exact h
  | snoc _ _ h => exact h

theorem RunIf.run {C : σ → ℓ → Prop} {s t : σ} {ls : List ℓ} (h : S.RunIf C s ls t) :
    S.Run s ls t := by
  induction h with
  | nil => exact RunIf.nil
  | snoc _ _ hstep ih => exact ih.snoc trivial hstep

theorem RunIf.trans {C : σ → ℓ → Prop} {s t u : σ} {ls ls' : List ℓ} (h : S.RunIf C s ls t)
    (h' : S.RunIf C t ls' u) : S.RunIf C s (ls ++ ls') u := by
  induction h' with
  | nil => rwa [List.append_nil]
  | snoc _ hC hstep ih =>
    rw [← List.append_assoc]
    exact ih.snoc hC hstep

theorem RunIf.single {C : σ → ℓ → Prop} {s t : σ} {l : ℓ} (hC : C s l) (h : S.step s l t) :
    S.RunIf C s [l] t :=
  RunIf.nil.snoc hC h

/-- A first step in front of a run. -/
theorem RunIf.cons {C : σ → ℓ → Prop} {s t u : σ} {l : ℓ} {ls : List ℓ} (hC : C s l)
    (h : S.step s l t) (h' : S.RunIf C t ls u) : S.RunIf C s (l :: ls) u :=
  (RunIf.single hC h).trans h'

variable (S)

/-- A state some run from an initial state ends in. -/
def Reachable (t : σ) : Prop :=
  ∃ s ls, S.init s ∧ S.Run s ls t

/-- A state some run ends in whose every step meets `C`. -/
def ReachableIf (C : σ → ℓ → Prop) (t : σ) : Prop :=
  ∃ s ls, S.init s ∧ S.RunIf C s ls t

variable {S}

theorem Reachable.run {s t : σ} {ls : List ℓ} (h : S.Reachable s) (hrun : S.Run s ls t) :
    S.Reachable t := by
  obtain ⟨s₀, ls₀, h₀, hrun₀⟩ := h
  exact ⟨s₀, ls₀ ++ ls, h₀, hrun₀.trans hrun⟩

/-! ### Invariants -/

variable (S)

/-- Every step that meets `C` keeps `P`. -/
def Preserves (C : σ → ℓ → Prop) (P : σ → Prop) : Prop :=
  ∀ s l t, P s → C s l → S.step s l t → P t

/-- `P` holds initially, and every step that meets `C` keeps it. -/
structure IsInvariantIf (C : σ → ℓ → Prop) (P : σ → Prop) : Prop where
  init : ∀ s, S.init s → P s
  step : S.Preserves C P

/-- `P` holds initially and every step keeps it. -/
abbrev IsInvariant (P : σ → Prop) : Prop :=
  S.IsInvariantIf (fun _ _ ↦ True) P

variable {S}

/-- What one step keeps, a whole run keeps. -/
theorem Preserves.of_run {C : σ → ℓ → Prop} {P : σ → Prop} (hP : S.Preserves C P) {s t : σ}
    {ls : List ℓ} (hs : P s) (hrun : S.RunIf C s ls t) : P t := by
  induction hrun with
  | nil => exact hs
  | snoc _ hC hstep ih => exact hP _ _ _ ih hC hstep

/-- A run whose steps meet the condition of an invariant stays inside it. -/
theorem Preserves.runThrough {C : σ → ℓ → Prop} {P : σ → Prop} (hP : S.Preserves C P) {s t : σ}
    {ls : List ℓ} (hs : P s) (hrun : S.RunIf C s ls t) : S.RunThrough P s ls t := by
  induction hrun with
  | nil => exact .nil hs
  | snoc _ hC hstep ih => exact ih.snoc hstep (hP _ _ _ ih.last hC hstep)

theorem RunThrough.mono {P Q : σ → Prop} (hPQ : ∀ s, P s → Q s) {s t : σ} {ls : List ℓ}
    (h : S.RunThrough P s ls t) : S.RunThrough Q s ls t := by
  induction h with
  | nil h => exact .nil (hPQ _ h)
  | snoc _ hstep h ih => exact ih.snoc hstep (hPQ _ h)

/-- If from every state of `P` short of the goal `Q` some step that meets `C` stays in `P` and
lowers the rank, then from every state of `P` a run whose steps meet `C` reaches the goal. -/
theorem exists_runIf_of_rank {C : σ → ℓ → Prop} {P Q : σ → Prop} (rank : σ → ℕ)
    (hprogress : ∀ s, P s → ¬ Q s → ∃ l t, C s l ∧ S.step s l t ∧ P t ∧ rank t < rank s) {s : σ}
    (hs : P s) : ∃ ls t, S.RunIf C s ls t ∧ P t ∧ Q t := by
  by_cases hQ : Q s
  · exact ⟨[], s, .nil, hs, hQ⟩
  · obtain ⟨l, t, hC, hstep, ht, hlt⟩ := hprogress s hs hQ
    obtain ⟨ls, u, hrun, hu⟩ := exists_runIf_of_rank rank hprogress ht
    exact ⟨l :: ls, u, .cons hC hstep hrun, hu⟩
  termination_by rank s

theorem IsInvariantIf.of_reachable {C : σ → ℓ → Prop} {P : σ → Prop} (hP : S.IsInvariantIf C P)
    {t : σ} (h : S.ReachableIf C t) : P t := by
  obtain ⟨s, ls, hs, hrun⟩ := h
  exact hP.step.of_run (hP.init s hs) hrun

end TransitionSystem
