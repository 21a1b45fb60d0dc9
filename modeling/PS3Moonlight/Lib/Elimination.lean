import Mathlib.LinearAlgebra.Matrix.DotProduct
import Mathlib.LinearAlgebra.Matrix.NonsingularInverse
import Mathlib.LinearAlgebra.Matrix.ToLinearEquiv

/-!
This module contains the elimination of Gauss and Jordan in place: the matrix is overwritten column
by column with its inverse, and what it means in between is an exchange of unknowns against values.
-/

namespace Elimination

open Matrix

variable {n K : Type*} [Fintype n] [DecidableEq n] [Field K]

def mix (s : Finset n) (x y : n → K) : n → K :=
  fun i => if i ∈ s then x i else y i

/-
The system `y = a x` is solved for the unknowns in `s`: the matrix takes the values in `s` and the
other unknowns, negated, to the unknowns in `s` and the other values, negated.
-/
def Exchanged (a : Matrix n n K) (s : Finset n) (m : Matrix n n K) : Prop :=
  ∀ x, m *ᵥ mix s (a *ᵥ x) (-x) = mix s x (-(a *ᵥ x))

/- The row of the pivot, divided by the pivot; in its own column stands the inverse of the pivot. -/
def pivotRow (m : Matrix n n K) (p : n) : n → K :=
  fun j => (m p p)⁻¹ * (if j = p then 1 else m p j)

def pivot (m : Matrix n n K) (p : n) : Matrix n n K :=
  fun i j =>
    if i = p then
      pivotRow m p j
    else
      (if j = p then 0 else m i j) - m i p * pivotRow m p j

theorem exchanged_empty (a : Matrix n n K) : Exchanged a ∅ a := by
  intro x
  have hleft : mix ∅ (a *ᵥ x) (-x) = -x := by
    funext i
    simp [mix]
  have hright : mix ∅ x (-(a *ᵥ x)) = -(a *ᵥ x) := by
    funext i
    simp [mix]
  rw [hleft, hright, mulVec_neg]

theorem Exchanged.inverse {a m : Matrix n n K} (h : Exchanged a Finset.univ m) : m * a = 1 := by
  apply Matrix.ext_of_mulVec_single
  intro i
  have hleft : mix Finset.univ (a *ᵥ Pi.single i 1) (-Pi.single i 1) = a *ᵥ Pi.single i (1 : K) := by
    funext j
    simp [mix]
  have hright : mix Finset.univ (Pi.single i 1) (-(a *ᵥ Pi.single i 1)) = Pi.single i (1 : K) := by
    funext j
    simp [mix]
  have hx := h (Pi.single i 1)
  rw [hleft, hright, mulVec_mulVec] at hx
  rw [hx, one_mulVec]

/- The sum over a row, with the term of one column apart. -/
theorem sum_eq_add_sum_ite (f : n → K) (p : n)
    : ∑ j, f j = f p + ∑ j, (if j = p then 0 else f j) := by
  have hsplit : ∀ j, f j = (if j = p then f p else 0) + (if j = p then 0 else f j) := by
    intro j
    split
    . next hj => simp [hj]
    . simp
  calc ∑ j, f j
    _ = ∑ j, ((if j = p then f p else 0) + (if j = p then 0 else f j)) := by
      apply Finset.sum_congr rfl
      intro j _
      exact hsplit j
    _ = f p + ∑ j, (if j = p then 0 else f j) := by
      rw [Finset.sum_add_distrib, Finset.sum_ite_eq' Finset.univ p]
      simp

theorem Exchanged.pivot {a m : Matrix n n K} {s : Finset n} {p : n} (h : Exchanged a s m)
    (hp : p ∉ s) (hpivot : m p p ≠ 0)
    : Exchanged a (insert p s) (pivot m p) := by
  intro x
  have hx : ∀ i, ∑ j, m i j * mix s (a *ᵥ x) (-x) j = mix s x (-(a *ᵥ x)) i := by
    intro i
    exact congrFun (h x) i
  -- The other columns see the same vector as before the step.
  have hother : ∀ f : n → K,
      (∑ j, if j = p then 0 else f j * mix (insert p s) (a *ᵥ x) (-x) j)
        = ∑ j, if j = p then 0 else f j * mix s (a *ᵥ x) (-x) j := by
    intro f
    apply Finset.sum_congr rfl
    intro j _
    split
    . rfl
    . next hj => simp [mix, hj]
  have hrest : ∀ i, (∑ j, if j = p then 0 else m i j * mix s (a *ᵥ x) (-x) j)
      = mix s x (-(a *ᵥ x)) i + m i p * x p := by
    intro i
    have hsum := sum_eq_add_sum_ite (fun j => m i j * mix s (a *ᵥ x) (-x) j) p
    rw [hx i] at hsum
    have hcolumn : mix s (a *ᵥ x) (-x) p = -x p := by simp [mix, hp]
    rw [hcolumn] at hsum
    rw [hsum]
    ring
  have hrow : ∑ j, pivotRow m p j * mix (insert p s) (a *ᵥ x) (-x) j = x p := by
    have hself : mix (insert p s) (a *ᵥ x) (-x) p = (a *ᵥ x) p := by simp [mix]
    have hvalue : mix s x (-(a *ᵥ x)) p = -(a *ᵥ x) p := by simp [mix, hp]
    calc ∑ j, pivotRow m p j * mix (insert p s) (a *ᵥ x) (-x) j
      _ = (m p p)⁻¹ * (a *ᵥ x) p
          + ∑ j, (if j = p then 0 else (m p p)⁻¹ * (m p j * mix (insert p s) (a *ᵥ x) (-x) j)) := by
        rw [sum_eq_add_sum_ite _ p, hself]
        congr 1
        . simp [pivotRow]
        . apply Finset.sum_congr rfl
          intro j _
          split
          . rfl
          . next hj => simp [pivotRow, hj, mul_assoc]
      _ = (m p p)⁻¹ * ((a *ᵥ x) p
          + ∑ j, (if j = p then 0 else m p j * mix (insert p s) (a *ᵥ x) (-x) j)) := by
        rw [mul_add, Finset.mul_sum]
        congr 1
        apply Finset.sum_congr rfl
        intro j _
        split
        . simp
        . rfl
      _ = (m p p)⁻¹ * (m p p * x p) := by
        rw [hother, hrest, hvalue]
        ring
      _ = x p := inv_mul_cancel_left₀ hpivot (x p)
  funext i
  cases Classical.em (i = p) with
  | inl hi =>
    rw [hi]
    have hvalue : mix (insert p s) x (-(a *ᵥ x)) p = x p := by simp [mix]
    rw [hvalue, ← hrow]
    simp [mulVec, dotProduct, Elimination.pivot]
  | inr hi =>
    have hvalue : mix (insert p s) x (-(a *ᵥ x)) i = mix s x (-(a *ᵥ x)) i := by simp [mix, hi]
    calc ∑ j, Elimination.pivot m p i j * mix (insert p s) (a *ᵥ x) (-x) j
      _ = (∑ j, if j = p then 0 else m i j * mix (insert p s) (a *ᵥ x) (-x) j)
          - m i p * ∑ j, pivotRow m p j * mix (insert p s) (a *ᵥ x) (-x) j := by
        rw [Finset.mul_sum, ← Finset.sum_sub_distrib]
        apply Finset.sum_congr rfl
        intro j _
        simp only [Elimination.pivot, hi, if_false]
        split
        . ring
        . ring
      _ = mix (insert p s) x (-(a *ᵥ x)) i := by
        rw [hother, hrest, hrow, hvalue]
        ring

/- Rows that are not solved yet may change places, in the system and in the matrix alike. -/
theorem Exchanged.swap {a m : Matrix n n K} {s : Finset n} {r c : n} (h : Exchanged a s m)
    (hr : r ∉ s) (hc : c ∉ s)
    : Exchanged (a.submatrix (Equiv.swap r c) id) s (m.submatrix (Equiv.swap r c) id) := by
  intro x
  have hmem : ∀ i, Equiv.swap r c i ∈ s ↔ i ∈ s := by
    intro i
    cases Classical.em (i = r) with
    | inl hi => simp [hi, hr, hc]
    | inr hir =>
      cases Classical.em (i = c) with
      | inl hi => simp [hi, hr, hc]
      | inr hic => rw [Equiv.swap_apply_of_ne_of_ne hir hic]
  have hfix : ∀ i, i ∈ s → Equiv.swap r c i = i := by
    intro i hi
    apply Equiv.swap_apply_of_ne_of_ne
    . intro heq
      exact hr (heq ▸ hi)
    . intro heq
      exact hc (heq ▸ hi)
  have hrows : ∀ b : Matrix n n K, ∀ v i,
      (b.submatrix (Equiv.swap r c) id *ᵥ v) i = (b *ᵥ v) (Equiv.swap r c i) := by
    intro b v i
    rfl
  have hleft : mix s (a.submatrix (Equiv.swap r c) id *ᵥ x) (-x) = mix s (a *ᵥ x) (-x) := by
    funext i
    unfold mix
    split
    . next hi => rw [hrows, hfix i hi]
    . rfl
  funext i
  rw [hleft, hrows, h x]
  unfold mix
  rw [if_congr (hmem i) rfl rfl]
  split
  . next hi => rw [hfix i hi]
  . simp [hrows]

/- A row without a pivot is a dependence between the rows of the system. -/
theorem Exchanged.not_isUnit {a m : Matrix n n K} {s : Finset n} {i : n} (h : Exchanged a s m)
    (hi : i ∉ s) (hrow : ∀ j, j ∉ s → m i j = 0)
    : ¬ IsUnit a := by
  intro hunit
  have hdep : (m i + Pi.single i 1) ᵥ* a = 0 := by
    apply dotProduct_eq_zero
    intro x
    have hx := congrFun (h x) i
    have hmix : (m *ᵥ mix s (a *ᵥ x) (-x)) i = m i ⬝ᵥ (a *ᵥ x) := by
      apply Finset.sum_congr rfl
      intro j _
      cases Classical.em (j ∈ s) with
      | inl hj => simp [mix, hj]
      | inr hj => simp [hrow j hj]
    have hvalue : mix s x (-(a *ᵥ x)) i = -(a *ᵥ x) i := by simp [mix, hi]
    rw [hmix, hvalue] at hx
    rw [← dotProduct_mulVec, add_dotProduct, hx, single_dotProduct]
    ring
  have hzero : m i + Pi.single i 1 = 0 := by
    apply vecMul_injective_iff_isUnit.mpr hunit
    exact hdep.trans (zero_vecMul a).symm
  have hone := congrFun hzero i
  simp [hrow i hi] at hone

/- Exchanged rows of the system are exchanged columns of its inverse. -/
theorem mul_eq_one_of_swap {a m : Matrix n n K} {r c : n}
    (h : m * a.submatrix (Equiv.swap r c) id = 1)
    : m.submatrix id (Equiv.swap r c) * a = 1 := by
  have hback : a = (a.submatrix (Equiv.swap r c) id).submatrix (Equiv.swap r c) id := by
    ext i j
    simp
  calc m.submatrix id (Equiv.swap r c) * a
    _ = m.submatrix id (Equiv.swap r c)
        * (a.submatrix (Equiv.swap r c) id).submatrix (Equiv.swap r c) id := by rw [← hback]
    _ = (m * a.submatrix (Equiv.swap r c) id).submatrix id id :=
      submatrix_mul_equiv m (a.submatrix (Equiv.swap r c) id) id (Equiv.swap r c) id
    _ = 1 := by rw [h, submatrix_id_id]

end Elimination
