import Mathlib.LinearAlgebra.Lagrange
import Mathlib.LinearAlgebra.Matrix.NonsingularInverse
import Mathlib.LinearAlgebra.Matrix.Notation
import Mathlib.Tactic.LinearCombination

/-!
This module contains systematic linear codes against erasures: what the matrix of the parity has to
fulfil so that any shards, as many as there are data shards, determine the data, and two families of
matrices that fulfil it.
-/

namespace ErasureCode

open Matrix

variable {d p K : Type*} [DecidableEq d] [Field K]

section Cauchy

open Polynomial Lagrange

/- The polynomial whose values at the points of the rows are the parities, up to a factor. -/
noncomputable def cauchyPolynomial (b : d → K) (erased : Finset d) (x : d → K) : K[X] :=
  ∑ i ∈ erased, C (x i) * nodal (erased.erase i) (fun l => -b l)

theorem degree_cauchyPolynomial_lt (b : d → K) (erased : Finset d) (x : d → K)
    : (cauchyPolynomial b erased x).degree < erased.card := by
  rw [← mem_degreeLT]
  apply Submodule.sum_mem
  intro i hi
  rw [mem_degreeLT]
  calc (C (x i) * nodal (erased.erase i) (fun l => -b l)).degree
    _ ≤ (C (x i)).degree + (nodal (erased.erase i) (fun l => -b l)).degree := degree_mul_le _ _
    _ ≤ 0 + ((erased.erase i).card : WithBot Nat) := by
      rw [degree_nodal]
      exact add_le_add degree_C_le le_rfl
    _ < erased.card := by
      rw [zero_add, Nat.cast_lt]
      exact Finset.card_erase_lt_of_mem hi

theorem eval_cauchyPolynomial_node (b : d → K) {erased : Finset d} (x : d → K) {i : d}
    (hi : i ∈ erased)
    : (cauchyPolynomial b erased x).eval (-b i) = x i * ∏ l ∈ erased.erase i, (b l - b i) := by
  unfold cauchyPolynomial
  rw [eval_finsetSum, Finset.sum_eq_single i]
  . rw [eval_mul, eval_C, eval_nodal]
    congr 1
    apply Finset.prod_congr rfl
    intro l _
    ring
  . intro l hl hne
    have hnode := eval_nodal_at_node (v := fun l => -b l) (Finset.mem_erase.mpr ⟨hne.symm, hi⟩)
    rw [eval_mul, hnode, mul_zero]
  . intro hnot
    exact absurd hi hnot

end Cauchy

variable [Fintype d]

/-
A word that is known to be zero but for the erased places is zero, once as many parities as there
are erased places are zero.
-/
def Mds (m : Matrix p d K) : Prop :=
  ∀ (erased : Finset d) (known : Finset p), erased.card ≤ known.card →
    ∀ x, (∀ i, i ∉ erased → x i = 0) → (∀ j ∈ known, (m *ᵥ x) j = 0) → x = 0

section Cauchy

open Polynomial Lagrange

theorem eval_cauchyPolynomial {b : d → K} {erased : Finset d} {x : d → K} {a : K}
    (hne : ∀ i, a + b i ≠ 0) (hx : ∀ i, i ∉ erased → x i = 0)
    : (cauchyPolynomial b erased x).eval a
      = (∏ l ∈ erased, (a + b l)) * ∑ i, (a + b i)⁻¹ * x i := by
  have hsum : ∑ i, (a + b i)⁻¹ * x i = ∑ i ∈ erased, (a + b i)⁻¹ * x i := by
    symm
    apply Finset.sum_subset (Finset.subset_univ erased)
    intro i _ hi
    rw [hx i hi, mul_zero]
  unfold cauchyPolynomial
  rw [eval_finsetSum, hsum, Finset.mul_sum]
  apply Finset.sum_congr rfl
  intro i hi
  rw [eval_mul, eval_C, eval_nodal, ← Finset.mul_prod_erase erased _ hi]
  have hprod : ∏ l ∈ erased.erase i, (a - -b l) = ∏ l ∈ erased.erase i, (a + b l) := by
    apply Finset.prod_congr rfl
    intro l _
    ring
  rw [hprod]
  have hi := hne i
  field_simp

theorem Mds.entry_ne_zero {m : Matrix p d K} (h : Mds m) (j : p) (i : d) : m j i ≠ 0 := by
  intro hzero
  have hsingle : (Pi.single i 1 : d → K) = 0 := by
    apply h {i} {j} (by simp)
    . intro l hl
      rw [Finset.mem_singleton] at hl
      exact Pi.single_eq_of_ne hl 1
    . intro l hl
      rw [Finset.mem_singleton.mp hl, mulVec_single_one]
      exact hzero
  have hone := congrFun hsingle i
  simp at hone

/- Two words with the same parities differ by a polynomial with more roots than its degree. -/
theorem mds_of_cauchy {a : p → K} {b : d → K} (ha : Function.Injective a)
    (hb : Function.Injective b) (hne : ∀ j i, a j + b i ≠ 0)
    : Mds (Matrix.of fun j i => (a j + b i)⁻¹) := by
  intro erased known hcard x hx hparity
  have hzero : cauchyPolynomial b erased x = 0 := by
    have hdegree : (cauchyPolynomial b erased x).degree < known.card := by
      apply lt_of_lt_of_le (degree_cauchyPolynomial_lt b erased x)
      exact_mod_cast hcard
    apply eq_zero_of_degree_lt_of_eval_index_eq_zero known ha.injOn hdegree
    . intro j hj
      rw [eval_cauchyPolynomial (hne j) hx]
      have hrow : ∑ i, (a j + b i)⁻¹ * x i = 0 := hparity j hj
      rw [hrow, mul_zero]
  funext i
  cases Classical.em (i ∈ erased) with
  | inl hi =>
    have heval := eval_cauchyPolynomial_node b x hi
    rw [hzero, eval_zero] at heval
    have hprod : ∏ l ∈ erased.erase i, (b l - b i) ≠ 0 := by
      rw [Finset.prod_ne_zero_iff]
      intro l hl
      rw [sub_ne_zero]
      intro heq
      exact (Finset.mem_erase.mp hl).left (hb heq)
    exact (mul_eq_zero.mp heval.symm).resolve_right hprod
  | inr hi => exact hx i hi

end Cauchy

/- With two rows of parity it is enough to look at the entries and at the minors of two columns. -/
theorem mds_of_two_rows {m : Matrix (Fin 2) d K} (hentry : ∀ j i, m j i ≠ 0)
    (hminor : ∀ i i', i ≠ i' → m 0 i * m 1 i' - m 0 i' * m 1 i ≠ 0)
    : Mds m := by
  intro erased known hcard x hx hparity
  have hrow : ∀ j ∈ known, ∑ i ∈ erased, m j i * x i = 0 := by
    intro j hj
    have hsum := hparity j hj
    rw [← hsum]
    apply Finset.sum_subset (Finset.subset_univ erased)
    intro i _ hi
    rw [hx i hi, mul_zero]
  have hknown : known.card ≤ 2 := by
    have hle := Finset.card_le_univ known
    rwa [Fintype.card_fin] at hle
  have hzero : ∀ i ∈ erased, x i = 0 := by
    intro i hi
    have hpos : 0 < erased.card := Finset.card_pos.mpr ⟨i, hi⟩
    cases Classical.em (erased.card = 1) with
    | inl hone =>
      obtain ⟨i', hi'⟩ := Finset.card_eq_one.mp hone
      obtain ⟨j, hj⟩ := Finset.card_pos.mp (Nat.lt_of_lt_of_le hpos hcard)
      have hsum := hrow j hj
      rw [hi', Finset.sum_singleton] at hsum
      rw [hi', Finset.mem_singleton] at hi
      rw [hi]
      exact (mul_eq_zero.mp hsum).resolve_left (hentry j i')
    | inr hmore =>
      obtain ⟨i₁, i₂, hne, hpair⟩ := Finset.card_eq_two.mp (by omega : erased.card = 2)
      have huniv : known = Finset.univ := by
        apply Finset.eq_univ_of_card
        rw [Fintype.card_fin]
        omega
      have hfirst := hrow 0 (by rw [huniv]; exact Finset.mem_univ 0)
      have hsecond := hrow 1 (by rw [huniv]; exact Finset.mem_univ 1)
      rw [hpair, Finset.sum_pair hne] at hfirst hsecond
      rw [hpair, Finset.mem_insert, Finset.mem_singleton] at hi
      -- Each unknown is left alone by one combination of the two equations.
      cases hi with
      | inl hi =>
        rw [hi]
        have hdet : (m 0 i₁ * m 1 i₂ - m 0 i₂ * m 1 i₁) * x i₁ = 0 := by
          linear_combination m 1 i₂ * hfirst - m 0 i₂ * hsecond
        exact (mul_eq_zero.mp hdet).resolve_left (hminor i₁ i₂ hne)
      | inr hi =>
        rw [hi]
        have hdet : (m 0 i₁ * m 1 i₂ - m 0 i₂ * m 1 i₁) * x i₂ = 0 := by
          linear_combination m 0 i₁ * hsecond - m 1 i₁ * hfirst
        exact (mul_eq_zero.mp hdet).resolve_left (hminor i₁ i₂ hne)
  funext i
  cases Classical.em (i ∈ erased) with
  | inl hi => exact hzero i hi
  | inr hi => exact hx i hi

end ErasureCode
