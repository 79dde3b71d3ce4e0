import Pvugc.Algebra.Quotient
import Mathlib.LinearAlgebra.Basis.VectorSpace

namespace Pvugc.Algebra
open Finset Polynomial

variable {F : Type*} [Field F]

/-- A vector lies outside a span exactly when some functional kills the generators and not the vector. -/
theorem notMem_span_iff {V : Type*} [AddCommGroup V] [Module F V] {generators : Set V} {x : V} :
    x ∉ Submodule.span F generators ↔ ∃ f : V →ₗ[F] F, (∀ y ∈ generators, f y = 0) ∧ f x ≠ 0 := by
  constructor
  · intro outside
    obtain ⟨f, nonzero, below⟩ := Submodule.exists_le_ker_of_notMem outside
    exact ⟨f, fun y member => below (Submodule.subset_span member), nonzero⟩
  · rintro ⟨f, kills, nonzero⟩ inside
    have below : Submodule.span F generators ≤ LinearMap.ker f := Submodule.span_le.mpr kills
    exact nonzero (below inside)

/-- The coefficients of a polynomial from a degree on, against weights. -/
noncomputable def weighted (n start : ℕ) (weight : ℕ → F) : F[X] →ₗ[F] F :=
  ∑ s ∈ range n, weight s • lcoeff F (start + s)

theorem weighted_apply (n start : ℕ) (weight : ℕ → F) (p : F[X]) :
    weighted n start weight p = ∑ s ∈ range n, weight s * p.coeff (start + s) := by
  simp [weighted, LinearMap.sum_apply]

/-- Polynomials of small degree are separated by weights on their coefficients. -/
theorem notMem_span_iff_weighted {n : ℕ} {generators : Set F[X]} {p : F[X]} (small : p.natDegree < n)
    (smallGenerators : ∀ q ∈ generators, q.natDegree < n) :
    p ∉ Submodule.span F generators ↔
      ∃ weight : ℕ → F, (∀ q ∈ generators, weighted n 0 weight q = 0) ∧ weighted n 0 weight p ≠ 0 := by
  rw [notMem_span_iff]
  constructor
  · rintro ⟨f, kills, nonzero⟩
    have value {q : F[X]} (below : q.natDegree < n) : weighted n 0 (fun s => f (X ^ s)) q = f q := by
      conv_rhs => rw [as_sum_range_C_mul_X_pow' q below, map_sum]
      rw [weighted_apply]
      apply sum_congr rfl
      intro s _
      rw [zero_add, ← smul_eq_C_mul, map_smul, smul_eq_mul, mul_comm]
    refine ⟨fun s => f (X ^ s), fun q member => ?_, ?_⟩
    · rw [value (smallGenerators q member), kills q member]
    · rwa [value small]
  · rintro ⟨weight, kills, nonzero⟩
    exact ⟨weighted n 0 weight, kills, nonzero⟩

/-- A quotient by the vanishing polynomial has less than the size of the domain as its degree. -/
theorem natDegree_quotient_lt {n : ℕ} (positive : 0 < n) {p r h : F[X]} (quotient : h * (X ^ n - 1) = p - r)
    (pSmall : p.natDegree < 2 * n) (rSmall : r.natDegree < n) : h.natDegree < n := by
  by_cases trivial : h = 0
  · simpa [trivial] using positive
  · have monic : (X ^ n - 1 : F[X]).Monic := monic_X_pow_sub_C 1 positive.ne'
    have degree : (p - r).natDegree = h.natDegree + n := by
      rw [← quotient, mul_comm, monic.natDegree_mul' trivial, ← C_1, natDegree_X_pow_sub_C, Nat.add_comm]
    have bound := natDegree_sub_le p r
    omega

end Pvugc.Algebra
