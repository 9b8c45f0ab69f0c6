import Mathlib.Algebra.Order.Group.Int

/-!
# Depth in a list

Elements of a list change a depth: `weight a` is 1 for an opening bracket, -1 for a closing one and
0 for anything else, though only its sign matters here. A list that stays above the depth it starts
at can be put between two brackets and between two such lists. Reading such a list from a positive
depth never brings the depth to 0, so the element that does is found behind it.
-/

namespace Depth

variable {α : Type*} {weight : α → ℤ} {us vs : List α}

/-- What a list adds to the depth. -/
def depth (weight : α → ℤ) : List α → ℤ
  | [] => 0
  | a :: us => weight a + depth weight us

@[simp] theorem depth_nil : depth weight [] = 0 := rfl

@[simp] theorem depth_cons (a : α) (us : List α) :
    depth weight (a :: us) = weight a + depth weight us := rfl

@[simp] theorem depth_append (us vs : List α) :
    depth weight (us ++ vs) = depth weight us + depth weight vs := by
  induction us with
  | nil => simp
  | cons a us ih => rw [List.cons_append, depth_cons, ih, depth_cons, add_assoc]

/-- At no point of the list is the depth less than at its start. -/
def Above (weight : α → ℤ) (us : List α) : Prop :=
  ∀ p, p <+: us → 0 ≤ depth weight p

theorem Above.nil : Above weight [] := by
  intro p hp
  rw [List.prefix_nil.1 hp, depth_nil]

theorem Above.depth_nonneg (h : Above weight us) : 0 ≤ depth weight us :=
  h us List.prefix_rfl

theorem Above.append (hus : Above weight us) (hvs : Above weight vs) :
    Above weight (us ++ vs) := by
  intro p hp
  rcases List.prefix_or_prefix_of_prefix hp (List.prefix_append us vs) with hp' | ⟨q, rfl⟩
  · exact hus p hp'
  · have hq : 0 ≤ depth weight q := hvs q ((List.prefix_append_right_inj us).1 hp)
    have := hus.depth_nonneg
    rw [depth_append]
    omega

theorem Above.singleton {a : α} (ha : 0 ≤ weight a) : Above weight [a] := by
  intro p hp
  rcases List.prefix_cons_iff.1 hp with rfl | ⟨q, rfl, hq⟩
  · exact le_rfl
  · rw [List.prefix_nil.1 hq]
    simpa using ha

theorem Above.cons {a : α} (ha : 0 ≤ weight a) (h : Above weight us) : Above weight (a :: us) :=
  (Above.singleton ha).append h

/-- Between an opening and a closing bracket. -/
theorem Above.enclosed {a b : α} (h : Above weight us) (hab : 0 ≤ weight a + weight b)
    (ha : 0 ≤ weight a) : Above weight (a :: (us ++ [b])) := by
  intro p hp
  rcases List.prefix_concat_iff.1 (show p <+: (a :: us) ++ [b] from hp) with rfl | hp'
  · have := h.depth_nonneg
    simp only [List.cons_append, depth_cons, depth_append, depth_nil]
    omega
  · exact h.cons ha p hp'

/-- The list up to the element that brings the depth, `d` at its start, down to 0. -/
def untilZero (weight : α → ℤ) : (d : ℤ) → List α → List α
  | _, [] => []
  | d, a :: us => a :: if d + weight a ≤ 0 then [] else untilZero weight (d + weight a) us

/-- No such element is found in a list that stays above a positive depth. -/
theorem untilZero_append {d : ℤ} (hd : 0 < d) (h : Above weight us) (vs : List α) :
    untilZero weight d (us ++ vs) = us ++ untilZero weight (d + depth weight us) vs := by
  have hpos : ∀ p, p <+: us → 0 < d + depth weight p := fun p hp ↦ by
    have := h p hp
    omega
  clear h hd
  induction us generalizing d with
  | nil => simp
  | cons a us ih =>
    have hfirst : 0 < d + weight a := by
      simpa using hpos [a] (List.prefix_append [a] us)
    have hrest : ∀ p, p <+: us → 0 < d + weight a + depth weight p := fun p hp ↦ by
      have := hpos (a :: p) (List.cons_prefix_cons.2 ⟨rfl, hp⟩)
      rwa [depth_cons, ← add_assoc] at this
    rw [List.cons_append, untilZero, if_neg (by omega), ih hrest, depth_cons, add_assoc,
      List.cons_append]

end Depth
