import Pvugc.Algebra.Lagrange

namespace Pvugc.Algebra
open Finset Polynomial

variable {F : Type*} [Field F]

/-- The polynomial of least degree with the given values on the nodes. -/
noncomputable def interpolant (ω : F) (n : ℕ) (f : ℕ → F) : F[X] :=
  ∑ i ∈ range n, C (idft ω n f i) * X ^ i

variable {ω : F} {n : ℕ}

theorem eval_interpolant (f : ℕ → F) (x : F) :
    (interpolant ω n f).eval x = ∑ k ∈ range n, f k * lagrange ω n k x := by
  rw [sum_smul_lagrange, interpolant, eval_finsetSum]
  simp

theorem eval_interpolant_node (primitive : IsPrimitiveRoot ω n) (f : ℕ → F) {k : ℕ}
    (inside : k < n) : (interpolant ω n f).eval (ω ^ k) = f k := by
  rw [eval_interpolant, sum_eq_single_of_mem k (mem_range.mpr inside)]
  · rw [lagrange_node primitive inside inside, if_pos rfl, mul_one]
  · intro j member different
    rw [lagrange_node primitive (mem_range.mp member) inside, if_neg different, mul_zero]

theorem natDegree_interpolant_le (f : ℕ → F) : (interpolant ω n f).natDegree ≤ n - 1 := by
  apply natDegree_sum_le_of_forall_le
  intro i member
  have inside := mem_range.mp member
  exact (natDegree_C_mul_X_pow_le _ i).trans (by omega)

/-- A polynomial that vanishes on the nodes is a multiple of the vanishing polynomial. -/
theorem vanishing_dvd (primitive : IsPrimitiveRoot ω n) (positive : 0 < n) {p : F[X]}
    (zero : ∀ k < n, p.eval (ω ^ k) = 0) : (X ^ n - 1 : F[X]) ∣ p := by
  have monic : (X ^ n - 1 : F[X]).Monic := monic_X_pow_sub_C 1 positive.ne'
  rw [← modByMonic_eq_zero_iff_dvd monic]
  have distinct : Set.InjOn (fun k => ω ^ k) (range n : Set ℕ) := by
    intro i iMember j jMember same
    exact primitive.pow_inj (mem_range.mp iMember) (mem_range.mp jMember) same
  have degree : (p %ₘ (X ^ n - 1)).degree < (range n).card := by
    rw [card_range, ← degree_X_pow_sub_C positive (1 : F), C_1]
    exact degree_modByMonic_lt p monic
  apply eq_zero_of_degree_lt_of_eval_index_eq_zero (range n) distinct degree
  intro k member
  have root : (ω ^ k) ^ n = 1 := by
    rw [← pow_mul, Nat.mul_comm, pow_mul, primitive.pow_eq_one, one_pow]
  have value := congrArg (eval (ω ^ k)) (modByMonic_add_div p (X ^ n - 1))
  simpa [root, zero k (mem_range.mp member)] using value

/-- The polynomial with the given coefficients. -/
noncomputable def ofCoeffs (n : ℕ) (q : ℕ → F) : F[X] := ∑ i ∈ range n, C (q i) * X ^ i

theorem eval_ofCoeffs (q : ℕ → F) (x : F) : (ofCoeffs n q).eval x = ∑ i ∈ range n, q i * x ^ i := by
  rw [ofCoeffs, eval_finsetSum]
  simp

/-- A polynomial of small degree is the polynomial of its coefficients. -/
theorem ofCoeffs_coeff {p : F[X]} (below : p.natDegree < n) : ofCoeffs n p.coeff = p := by
  simp only [ofCoeffs, C_mul_X_pow_eq_monomial]
  exact (as_sum_range' p n below).symm

/-- Interpolation commutes with linear combinations of the values. -/
theorem interpolant_sum {ι : Type*} (s : Finset ι) (c : ι → F) (f : ι → ℕ → F) :
    interpolant ω n (fun i => ∑ k ∈ s, c k * f k i) = ∑ k ∈ s, C (c k) * interpolant ω n (f k) := by
  simp only [interpolant, mul_sum]
  rw [sum_comm]
  apply sum_congr rfl
  intro i _
  have coefficient : idft ω n (fun j => ∑ k ∈ s, c k * f k j) i = ∑ k ∈ s, c k * idft ω n (f k) i := by
    simp only [idft, dft, smul_eq_mul, mul_sum]
    rw [sum_comm]
    apply sum_congr rfl
    intro k _
    apply sum_congr rfl
    intro j _
    ring
  rw [coefficient, map_sum, sum_mul]
  apply sum_congr rfl
  intro k _
  rw [C_mul, mul_assoc]

/-- Row-wise equal products have a quotient with two coefficients fewer than the domain. -/
theorem exists_quotient_polynomial (primitive : IsPrimitiveRoot ω n) (positive : 0 < n) {a b c : ℕ → F}
    (rows : ∀ k < n, a k * b k = c k) :
    ∃ q : ℕ → F, q (n - 1) = 0 ∧ ofCoeffs n q * (X ^ n - 1) =
      interpolant ω n a * interpolant ω n b - interpolant ω n c := by
  set p := interpolant ω n a * interpolant ω n b - interpolant ω n c with hp
  have zero : ∀ k < n, p.eval (ω ^ k) = 0 := by
    intro k inside
    rw [hp, eval_sub, eval_mul, eval_interpolant_node primitive a inside,
      eval_interpolant_node primitive b inside, eval_interpolant_node primitive c inside,
      rows k inside, sub_self]
  obtain ⟨q, factored⟩ := vanishing_dvd primitive positive zero
  have small : q = 0 ∨ q.natDegree < n - 1 := by
    by_cases trivial : q = 0
    · exact Or.inl trivial
    · right
      have bound : p.natDegree ≤ (n - 1) + (n - 1) := by
        apply (natDegree_sub_le _ _).trans
        apply max_le
        · exact natDegree_mul_le.trans
            (Nat.add_le_add (natDegree_interpolant_le a) (natDegree_interpolant_le b))
        · exact (natDegree_interpolant_le c).trans (by omega)
      have monic : (X ^ n - 1 : F[X]).Monic := monic_X_pow_sub_C 1 positive.ne'
      have degree : p.natDegree = n + q.natDegree := by
        rw [factored, monic.natDegree_mul' trivial, ← C_1, natDegree_X_pow_sub_C]
      omega
  have below : q.natDegree < n := by
    rcases small with rfl | bound
    · simpa using positive
    · omega
  refine ⟨q.coeff, ?_, ?_⟩
  · rcases small with rfl | bound
    · exact coeff_zero _
    · exact coeff_eq_zero_of_natDegree_lt bound
  · rw [ofCoeffs_coeff below, factored, mul_comm]

/-- The quotient at a point. -/
theorem exists_quotient (primitive : IsPrimitiveRoot ω n) (positive : 0 < n) {a b c : ℕ → F}
    (rows : ∀ k < n, a k * b k = c k) :
    ∃ q : ℕ → F, q (n - 1) = 0 ∧ ∀ x, (x ^ n - 1) * ∑ i ∈ range n, q i * x ^ i =
      (∑ k ∈ range n, a k * lagrange ω n k x) * (∑ k ∈ range n, b k * lagrange ω n k x) -
        ∑ k ∈ range n, c k * lagrange ω n k x := by
  obtain ⟨q, top, quotient⟩ := exists_quotient_polynomial primitive positive rows
  refine ⟨q, top, fun x => ?_⟩
  have value := congrArg (eval x) quotient
  rw [eval_mul, eval_ofCoeffs, eval_sub (interpolant ω n a * _), eval_mul, eval_interpolant,
    eval_interpolant, eval_interpolant] at value
  rw [← value]
  simp [mul_comm]

section Nodes

/-- The Lagrange polynomial of a node. -/
noncomputable def lagrangePolynomial (ω : F) (n k : ℕ) : F[X] :=
  C (n : F)⁻¹ * ∑ i ∈ range n, (C (ω ^ k)⁻¹ * X) ^ i

theorem interpolant_eq_sum (f : ℕ → F) :
    interpolant ω n f = ∑ k ∈ range n, C (f k) * lagrangePolynomial ω n k := by
  simp only [interpolant, lagrangePolynomial, idft, dft, mul_sum, smul_eq_mul, map_sum, sum_mul]
  rw [sum_comm]
  apply sum_congr rfl
  intro k _
  apply sum_congr rfl
  intro i _
  rw [mul_pow, ← C_pow, C_mul, C_mul, ← inv_pow, ← pow_mul, inv_pow, ← inv_pow, Nat.mul_comm k i]
  ring

/-- A Lagrange polynomial times its node factor is a multiple of the vanishing polynomial. -/
theorem lagrangePolynomial_mul_sub (primitive : IsPrimitiveRoot ω n) (positive : 0 < n) (k : ℕ) :
    lagrangePolynomial ω n k * (X - C (ω ^ k)) = C ((n : F)⁻¹ * ω ^ k) * (X ^ n - 1) := by
  have nonzero := pow_ne_zero k (root_ne_zero primitive positive)
  have node : X - C (ω ^ k) = C (ω ^ k) * (C (ω ^ k)⁻¹ * X - 1 : F[X]) := by
    rw [mul_sub, ← mul_assoc, ← C_mul, mul_inv_cancel₀ nonzero, C_1, one_mul, mul_one]
  have root : (C (ω ^ k)⁻¹ : F[X]) ^ n = 1 := by
    rw [← C_pow, inv_pow, ← pow_mul, Nat.mul_comm, pow_mul, primitive.pow_eq_one, one_pow, inv_one, C_1]
  have geometric := mul_geom_sum (C (ω ^ k)⁻¹ * X : F[X]) n
  rw [mul_pow, root, one_mul] at geometric
  rw [lagrangePolynomial, node, ← geometric, C_mul]
  ring

/-- The slope of a Lagrange polynomial at another node. -/
theorem eval_derivative_lagrangePolynomial (primitive : IsPrimitiveRoot ω n) {k s : ℕ} (kInside : k < n)
    (sInside : s < n) (different : s ≠ k) :
    (derivative (lagrangePolynomial ω n s)).eval (ω ^ k) * (ω ^ k - ω ^ s) = ω ^ s * (ω ^ k)⁻¹ := by
  have positive : 0 < n := (Nat.zero_le k).trans_lt kInside
  have nonzero := pow_ne_zero k (root_ne_zero primitive positive)
  have root : (ω ^ k) ^ n = 1 := by
    rw [← pow_mul, Nat.mul_comm, pow_mul, primitive.pow_eq_one, one_pow]
  have apart := node_sub_node_ne_zero primitive kInside sInside different.symm
  have factored := lagrangePolynomial_mul_sub primitive positive s
  have zero : (lagrangePolynomial ω n s).eval (ω ^ k) = 0 := by
    have value := congrArg (eval (ω ^ k)) factored
    simp only [eval_mul, eval_sub, eval_X, eval_C, eval_pow, eval_one, root, sub_self, mul_zero] at value
    exact (mul_eq_zero.mp value).resolve_right apart
  have top : (ω ^ k) ^ (n - 1) = (ω ^ k)⁻¹ := by
    apply eq_inv_of_mul_eq_one_left
    rw [← pow_succ, Nat.sub_add_cancel positive, root]
  have slope := congrArg (fun p => (derivative p).eval (ω ^ k)) factored
  simp only [derivative_mul, derivative_sub, derivative_X, derivative_C, derivative_X_pow, derivative_one, sub_zero,
    mul_one, zero_mul, zero_add, eval_add, eval_mul, eval_sub, eval_X, eval_C, eval_pow, zero, add_zero, top] at slope
  rw [slope]
  field_simp [size_ne_zero primitive positive]

theorem degree_interpolant_lt (positive : 0 < n) (f : ℕ → F) : (interpolant ω n f).degree < n := by
  have below : (interpolant ω n f).natDegree < n :=
    (natDegree_interpolant_le f).trans_lt (Nat.sub_lt positive Nat.one_pos)
  exact degree_le_natDegree.trans_lt (by exact_mod_cast below)

/-- Polynomials of small degree are determined by their values at the nodes. -/
theorem eq_of_eval_nodes (primitive : IsPrimitiveRoot ω n) {p q : F[X]} (pSmall : p.degree < n) (qSmall : q.degree < n)
    (same : ∀ k < n, p.eval (ω ^ k) = q.eval (ω ^ k)) : p = q := by
  have distinct : Set.InjOn (fun k => ω ^ k) (range n : Set ℕ) := by
    intro i iMember j jMember equal
    exact primitive.pow_inj (mem_range.mp iMember) (mem_range.mp jMember) equal
  apply eq_of_degrees_lt_of_eval_index_eq (range n) distinct
  · rwa [card_range]
  · rwa [card_range]
  · intro k member
    exact same k (mem_range.mp member)

/-- The slope of an interpolant at a node. -/
theorem eval_derivative_interpolant (primitive : IsPrimitiveRoot ω n) (f : ℕ → F) {k : ℕ} (inside : k < n) :
    (derivative (interpolant ω n f)).eval (ω ^ k) =
      ∑ s ∈ (range n).erase k, (f s - f k) * (ω ^ s * (ω ^ k)⁻¹ * (ω ^ k - ω ^ s)⁻¹) := by
  have positive : 0 < n := (Nat.zero_le k).trans_lt inside
  have slopes (g : ℕ → F) : (derivative (interpolant ω n g)).eval (ω ^ k) =
      ∑ s ∈ range n, g s * (derivative (lagrangePolynomial ω n s)).eval (ω ^ k) := by
    simp only [interpolant_eq_sum, map_sum, derivative_C_mul, eval_finsetSum, eval_C_mul]
  have constant : interpolant ω n (fun _ => 1) = 1 := by
    apply eq_of_eval_nodes primitive (degree_interpolant_lt positive _)
    · rw [degree_one]
      exact_mod_cast positive
    · intro s sInside
      rw [eval_interpolant_node primitive _ sInside, eval_one]
  have balanced := slopes fun _ => 1
  rw [constant, derivative_one, eval_zero] at balanced
  have shifted : (derivative (interpolant ω n f)).eval (ω ^ k) =
      ∑ s ∈ range n, (f s - f k) * (derivative (lagrangePolynomial ω n s)).eval (ω ^ k) := by
    simp only [sub_mul, sum_sub_distrib, ← mul_sum, slopes f]
    simp only [one_mul] at balanced
    rw [← balanced, mul_zero, sub_zero]
  rw [shifted, ← add_sum_erase _ _ (mem_range.mpr inside), sub_self, zero_mul, zero_add]
  apply sum_congr rfl
  intro s member
  obtain ⟨different, sMember⟩ := mem_erase.mp member
  have apart := node_sub_node_ne_zero primitive inside (mem_range.mp sMember) (Ne.symm different)
  rw [← eval_derivative_lagrangePolynomial primitive inside (mem_range.mp sMember) different, mul_assoc,
    mul_inv_cancel₀ apart, mul_one]

/-- The value at a node of the quotient of the product of two interpolants by the vanishing polynomial. -/
def quotientValue (ω : F) (n : ℕ) (a b : ℕ → F) (k : ℕ) : F :=
  (n : F)⁻¹ * ∑ s ∈ (range n).erase k, (a s - a k) * (b s - b k) * (ω ^ s * (ω ^ s - ω ^ k)⁻¹)

theorem eval_quotient_node (primitive : IsPrimitiveRoot ω n) {a b : ℕ → F} {h : F[X]}
    (quotient : h * (X ^ n - 1) =
      interpolant ω n a * interpolant ω n b - interpolant ω n fun k => a k * b k) {k : ℕ} (inside : k < n) :
    h.eval (ω ^ k) = quotientValue ω n a b k := by
  have positive : 0 < n := (Nat.zero_le k).trans_lt inside
  have nonzero := pow_ne_zero k (root_ne_zero primitive positive)
  have root : (ω ^ k) ^ n = 1 := by
    rw [← pow_mul, Nat.mul_comm, pow_mul, primitive.pow_eq_one, one_pow]
  have top : (ω ^ k) ^ (n - 1) = (ω ^ k)⁻¹ := by
    apply eq_inv_of_mul_eq_one_left
    rw [← pow_succ, Nat.sub_add_cancel positive, root]
  have slope := congrArg (fun p => (derivative p).eval (ω ^ k)) quotient
  simp only [derivative_mul, derivative_sub, derivative_X_pow, derivative_one, sub_zero, eval_add, eval_mul, eval_sub,
    eval_X, eval_C, eval_pow, eval_one, root, sub_self, mul_zero, zero_add, top, eval_interpolant_node primitive _ inside,
    eval_derivative_interpolant primitive _ inside] at slope
  have scaled : h.eval (ω ^ k) * (n * (ω ^ k)⁻¹) =
      (∑ s ∈ (range n).erase k, (a s - a k) * (b s - b k) * (ω ^ s * (ω ^ s - ω ^ k)⁻¹)) * (ω ^ k)⁻¹ := by
    rw [slope, sum_mul, mul_sum, ← sum_add_distrib, ← sum_sub_distrib, sum_mul]
    apply sum_congr rfl
    intro s _
    rw [← neg_sub (ω ^ k) (ω ^ s), inv_neg]
    ring
  rw [← mul_assoc] at scaled
  have value := mul_right_cancel₀ (inv_ne_zero nonzero) scaled
  rw [quotientValue, ← value, mul_comm (h.eval _), ← mul_assoc, inv_mul_cancel₀ (size_ne_zero primitive positive),
    one_mul]

theorem quotientValue_of_zero_left {a : ℕ → F} (zero : ∀ s < n, a s = 0) (b : ℕ → F) {k : ℕ} (inside : k < n) :
    quotientValue ω n a b k = 0 := by
  rw [quotientValue, sum_eq_zero, mul_zero]
  intro s member
  rw [zero s (mem_range.mp (mem_erase.mp member).2), zero k inside, sub_self, zero_mul, zero_mul]

theorem quotientValue_comm (a b : ℕ → F) (k : ℕ) : quotientValue ω n a b k = quotientValue ω n b a k := by
  simp only [quotientValue, mul_comm (a _ - a k)]

/-- The values are linear in a column. -/
theorem quotientValue_add_sum {ι : Type*} (a b : ℕ → F) (J : Finset ι) (c : ι → F) (f : ι → ℕ → F) (k : ℕ) :
    quotientValue ω n a (fun s => b s + ∑ j ∈ J, c j * f j s) k =
      quotientValue ω n a b k + ∑ j ∈ J, c j * quotientValue ω n a (f j) k := by
  simp only [quotientValue, mul_sum]
  rw [sum_comm, ← sum_add_distrib]
  apply sum_congr rfl
  intro s _
  have difference : b s + ∑ j ∈ J, c j * f j s - (b k + ∑ j ∈ J, c j * f j k) =
      b s - b k + ∑ j ∈ J, c j * (f j s - f j k) := by
    simp only [mul_sub, sum_sub_distrib]
    ring
  rw [difference, mul_add, add_mul, mul_add, mul_sum, sum_mul, mul_sum]
  congr 1
  apply sum_congr rfl
  intro j _
  ring

/-- Polynomials as their values at the nodes. -/
noncomputable def nodeValues (ω : F) (n : ℕ) : F[X] →ₗ[F] ℕ → F :=
  LinearMap.pi fun k => if k < n then leval (ω ^ k) else 0

theorem nodeValues_apply (p : F[X]) (k : ℕ) : nodeValues ω n p k = if k < n then p.eval (ω ^ k) else 0 := by
  rw [nodeValues, LinearMap.pi_apply]
  split <;> rfl

/-- Spans of polynomials of small degree are spans of their values at the nodes. -/
theorem mem_span_iff_nodeValues (primitive : IsPrimitiveRoot ω n) {generators : Set F[X]} {p : F[X]}
    (small : p.degree < n) (smallGenerators : ∀ q ∈ generators, q.degree < n) :
    p ∈ Submodule.span F generators ↔
      nodeValues ω n p ∈ Submodule.span F (nodeValues ω n '' generators) := by
  rw [Submodule.span_image]
  constructor
  · exact Submodule.mem_map_of_mem
  · intro member
    obtain ⟨q, inside, values⟩ := member
    have below : Submodule.span F generators ≤ degreeLT F n :=
      Submodule.span_le.mpr fun q member => mem_degreeLT.mpr (smallGenerators q member)
    have equal : p = q := by
      apply eq_of_eval_nodes primitive small (mem_degreeLT.mp (below inside))
      intro k bound
      have value := congrFun values k
      rw [nodeValues_apply, nodeValues_apply, if_pos bound, if_pos bound] at value
      exact value.symm
    rw [equal]
    exact inside

end Nodes

end Pvugc.Algebra
