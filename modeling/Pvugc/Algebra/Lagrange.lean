import Pvugc.Algebra.Fourier

namespace Pvugc.Algebra
open Finset

variable {F : Type*} [Field F]

/-- The Lagrange polynomial of a node, written as the inverse transform of its indicator. -/
def lagrange (ω : F) (n k : ℕ) (x : F) : F := (n : F)⁻¹ * ∑ i ∈ range n, (ω⁻¹) ^ (i * k) * x ^ i

/-- The correlation kernel of the diagonal quotients. -/
def kernel (ω : F) (n d : ℕ) : F :=
  if d = 0 then (n - 1 : F) * (n + n : F)⁻¹ else (n * (1 - ω ^ d))⁻¹

variable {ω : F} {n : ℕ}

/-- A Lagrange polynomial is one at its node and zero at the other nodes. -/
theorem lagrange_node (primitive : IsPrimitiveRoot ω n) {k m : ℕ} (kInside : k < n) (mInside : m < n) :
    lagrange ω n k (ω ^ m) = if k = m then 1 else 0 := by
  have positive : 0 < n := by omega
  have sums : ∑ i ∈ range n, (ω⁻¹) ^ (i * k) * (ω ^ m) ^ i =
      ∑ i ∈ range n, (ω⁻¹) ^ (i * k) * ω ^ (i * m) := by
    apply sum_congr rfl
    intro i _
    rw [← pow_mul, Nat.mul_comm m i]
  rw [lagrange, sums, sum_pow_pow primitive positive]
  by_cases same : k = m
  · rw [if_pos ((dvd_sub_iff_of_lt kInside mInside).mpr same), if_pos same,
      inv_mul_cancel₀ (size_ne_zero primitive positive)]
  · rw [if_neg (fun divides => same ((dvd_sub_iff_of_lt kInside mInside).mp divides)), if_neg same,
      mul_zero]

/-- Interpolation on the nodes evaluates the inverse transform's polynomial. -/
theorem sum_smul_lagrange (f : ℕ → F) (x : F) :
    ∑ k ∈ range n, f k * lagrange ω n k x = ∑ i ∈ range n, idft ω n f i * x ^ i := by
  simp only [lagrange, idft, dft, mul_sum, sum_mul, smul_eq_mul]
  rw [sum_comm]
  apply sum_congr rfl
  intro i _
  apply sum_congr rfl
  intro k _
  rw [Nat.mul_comm i k]
  ring

theorem sum_lagrange (primitive : IsPrimitiveRoot ω n) (positive : 0 < n) (x : F) :
    ∑ k ∈ range n, lagrange ω n k x = 1 := by
  have ones := sum_smul_lagrange (ω := ω) (n := n) (fun _ => 1) x
  simp only [one_mul] at ones
  rw [ones, sum_eq_single_of_mem 0 (mem_range.mpr positive)]
  · rw [idft, dft, pow_zero, mul_one]
    simp [inv_mul_cancel₀ (size_ne_zero primitive positive)]
  · intro i member nonzero
    have root : ∑ j ∈ range n, (ω⁻¹) ^ (j * i) * ω ^ (j * 0) = 0 := by
      rw [sum_pow_pow primitive positive, if_neg]
      rw [dvd_sub_iff_of_lt (mem_range.mp member) positive]
      exact nonzero
    have transform : dft ω⁻¹ n (fun _ => (1 : F)) i = 0 := by
      rw [← root]
      simp [dft]
    rw [idft, transform, smul_zero, zero_mul]

/-- A Lagrange polynomial times its node factor is a multiple of the vanishing polynomial. -/
theorem lagrange_mul_sub (primitive : IsPrimitiveRoot ω n) (positive : 0 < n) (k : ℕ) (x : F) :
    n * (x - ω ^ k) * lagrange ω n k x = ω ^ k * (x ^ n - 1) := by
  have nonzero := pow_ne_zero k (root_ne_zero primitive positive)
  have sized := size_ne_zero primitive positive
  have geometric := mul_geom_sum ((ω ^ k)⁻¹ * x) n
  rw [mul_pow, inv_pow, ← pow_mul, Nat.mul_comm k n, pow_mul, primitive.pow_eq_one, one_pow, inv_one,
    one_mul] at geometric
  have terms : ∑ i ∈ range n, (ω⁻¹) ^ (i * k) * x ^ i = ∑ i ∈ range n, ((ω ^ k)⁻¹ * x) ^ i := by
    apply sum_congr rfl
    intro i _
    rw [mul_pow, ← inv_pow, ← pow_mul, Nat.mul_comm]
  rw [lagrange, terms, ← geometric]
  field_simp

/-- Off the domain no node factor vanishes. -/
theorem sub_node_ne_zero (primitive : IsPrimitiveRoot ω n) {x : F} (outside : x ^ n ≠ 1) (k : ℕ) :
    x - ω ^ k ≠ 0 := by
  intro zero
  apply outside
  rw [sub_eq_zero.mp zero, ← pow_mul, Nat.mul_comm, pow_mul, primitive.pow_eq_one, one_pow]

/-- Off the domain no Lagrange polynomial vanishes. -/
theorem lagrange_ne_zero (primitive : IsPrimitiveRoot ω n) (positive : 0 < n) {x : F} (outside : x ^ n ≠ 1) (k : ℕ) :
    lagrange ω n k x ≠ 0 := by
  intro zero
  have product := lagrange_mul_sub primitive positive k x
  rw [zero, mul_zero] at product
  exact mul_ne_zero (pow_ne_zero k (root_ne_zero primitive positive)) (sub_ne_zero.mpr outside) product.symm

theorem node_sub_node_ne_zero (primitive : IsPrimitiveRoot ω n) {k m : ℕ} (kInside : k < n)
    (mInside : m < n) (different : k ≠ m) : ω ^ k - ω ^ m ≠ 0 :=
  sub_ne_zero.mpr fun same => different (primitive.pow_inj kInside mInside same)

/-- The product of two distinct Lagrange polynomials has a two-term quotient. -/
theorem lagrange_mul_lagrange (primitive : IsPrimitiveRoot ω n) {x : F} (outside : x ^ n ≠ 1)
    {k m : ℕ} (kInside : k < n) (mInside : m < n) (different : k ≠ m) :
    lagrange ω n k x * lagrange ω n m x = (x ^ n - 1) *
      ((ω ^ m * lagrange ω n k x - ω ^ k * lagrange ω n m x) * (n * (ω ^ k - ω ^ m))⁻¹) := by
  have positive : 0 < n := by omega
  have sized := size_ne_zero primitive positive
  have kFactor := sub_node_ne_zero primitive outside k
  have mFactor := sub_node_ne_zero primitive outside m
  have nodes := node_sub_node_ne_zero primitive kInside mInside different
  have value (i : ℕ) (factor : x - ω ^ i ≠ 0) :
      lagrange ω n i x = ω ^ i * (x ^ n - 1) / (n * (x - ω ^ i)) := by
    rw [← lagrange_mul_sub primitive positive, mul_div_cancel_left₀ _ (mul_ne_zero sized factor)]
  rw [value k kFactor, value m mFactor]
  field_simp
  ring

/-- The off-diagonal terms of the kernel against the nodes pair up to minus one. -/
theorem sum_node_div (primitive : IsPrimitiveRoot ω n) (positive : 0 < n) :
    2 * ∑ d ∈ Ico 1 n, ω ^ d * (1 - ω ^ d)⁻¹ = -(n - 1 : F) := by
  have reflected : ∑ d ∈ Ico 1 n, ω ^ d * (1 - ω ^ d)⁻¹ =
      ∑ d ∈ Ico 1 n, ω ^ (n - d) * (1 - ω ^ (n - d))⁻¹ := by
    apply sum_nbij' (fun d => n - d) (fun d => n - d)
    all_goals
      intro d member
      have bounds := mem_Ico.mp member
    · exact mem_Ico.mpr (by omega)
    · exact mem_Ico.mpr (by omega)
    · omega
    · omega
    · rw [show n - (n - d) = d by omega]
  have pairs : ∀ d ∈ Ico 1 n,
      ω ^ d * (1 - ω ^ d)⁻¹ + ω ^ (n - d) * (1 - ω ^ (n - d))⁻¹ = -1 := by
    intro d member
    have bounds := mem_Ico.mp member
    have nonzero := pow_ne_zero d (root_ne_zero primitive positive)
    have inverse : ω ^ (n - d) = (ω ^ d)⁻¹ := by
      apply eq_inv_of_mul_eq_one_left
      rw [← pow_add, Nat.sub_add_cancel (by omega), primitive.pow_eq_one]
    have different : 1 - ω ^ d ≠ 0 :=
      sub_ne_zero.mpr (primitive.pow_ne_one_of_pos_of_lt (by omega) (by omega)).symm
    have different' : ω ^ d - 1 ≠ 0 := by
      rw [← neg_sub]
      exact neg_ne_zero.mpr different
    rw [inverse]
    field_simp
    ring
  calc 2 * ∑ d ∈ Ico 1 n, ω ^ d * (1 - ω ^ d)⁻¹
      = ∑ d ∈ Ico 1 n, (ω ^ d * (1 - ω ^ d)⁻¹ + ω ^ (n - d) * (1 - ω ^ (n - d))⁻¹) := by
        rw [sum_add_distrib, ← reflected, two_mul]
    _ = ∑ d ∈ Ico 1 n, (-1 : F) := sum_congr rfl pairs
    _ = -(n - 1 : F) := by
        rw [sum_const, Nat.card_Ico, nsmul_eq_mul, Nat.cast_sub positive]
        push_cast
        ring

/-- A sum over the nodes other than one splits off that node's offset. -/
theorem sum_offset {M : Type*} [AddCommMonoid M] {k : ℕ} (inside : k < n) (f : ℕ → M) :
    ∑ m ∈ range n, f ((m + n - k) % n) = ∑ d ∈ range n, f d := by
  apply sum_nbij' (fun m => (m + n - k) % n) (fun d => (d + k) % n)
  · intro m _
    exact mem_range.mpr (Nat.mod_lt _ (by omega))
  · intro d _
    exact mem_range.mpr (Nat.mod_lt _ (by omega))
  · intro m member
    have bound := mem_range.mp member
    by_cases wrapped : k ≤ m
    · rw [show m + n - k = m - k + n by omega, Nat.add_mod_right,
        Nat.mod_eq_of_lt (show m - k < n by omega), Nat.sub_add_cancel wrapped,
        Nat.mod_eq_of_lt bound]
    · rw [Nat.mod_eq_of_lt (show m + n - k < n by omega), show m + n - k + k = m + n by omega,
        Nat.add_mod_right, Nat.mod_eq_of_lt bound]
  · intro d member
    have bound := mem_range.mp member
    by_cases wrapped : n ≤ d + k
    · rw [Nat.mod_eq_sub_mod wrapped, Nat.mod_eq_of_lt (show d + k - n < n by omega),
        show d + k - n + n - k = d by omega, Nat.mod_eq_of_lt bound]
    · rw [Nat.mod_eq_of_lt (show d + k < n by omega), show d + k + n - k = d + n by omega,
        Nat.add_mod_right, Nat.mod_eq_of_lt bound]
  · intro m _
    rfl

/-- The power of a node times the power of an offset is the power of the shifted node. -/
theorem pow_offset (primitive : IsPrimitiveRoot ω n) {k m : ℕ} (kInside : k < n) :
    ω ^ k * ω ^ ((m + n - k) % n) = ω ^ m := by
  rw [← pow_eq_pow_mod _ primitive.pow_eq_one, ← pow_add, show k + (m + n - k) = m + n by omega,
    pow_add, primitive.pow_eq_one, mul_one]

/-- The kernel annihilates the sequence of nodes. -/
theorem sum_kernel_node (primitive : IsPrimitiveRoot ω n) (positive : 0 < n) (two : (2 : F) ≠ 0) :
    ∑ d ∈ range n, kernel ω n d * ω ^ d = 0 := by
  have sized := size_ne_zero primitive positive
  have pairs := sum_node_div primitive positive
  rw [range_eq_Ico, sum_eq_sum_Ico_succ_bot positive]
  have tail : ∑ d ∈ Ico (0 + 1) n, kernel ω n d * ω ^ d =
      (n : F)⁻¹ * ∑ d ∈ Ico 1 n, ω ^ d * (1 - ω ^ d)⁻¹ := by
    rw [mul_sum, Nat.zero_add]
    apply sum_congr rfl
    intro d member
    have bounds := mem_Ico.mp member
    rw [kernel, if_neg (by omega), mul_inv]
    ring
  have half : ∑ d ∈ Ico 1 n, ω ^ d * (1 - ω ^ d)⁻¹ = -(n - 1 : F) * 2⁻¹ := by
    rw [← pairs, mul_comm 2, mul_assoc, mul_inv_cancel₀ two, mul_one]
  rw [tail, half, kernel, if_pos rfl, pow_zero, mul_one, ← two_mul (n : F), mul_inv]
  ring

/-- The square of a Lagrange polynomial differs from it by the kernel's correlation. -/
theorem lagrange_sq_sub (primitive : IsPrimitiveRoot ω n) (two : (2 : F) ≠ 0) {x : F}
    (outside : x ^ n ≠ 1) {k : ℕ} (inside : k < n) :
    lagrange ω n k x * lagrange ω n k x - lagrange ω n k x = (x ^ n - 1) *
      ∑ m ∈ range n, kernel ω n ((m + n - k) % n) * lagrange ω n m x := by
  have positive : 0 < n := by omega
  have nonzero := root_ne_zero primitive positive
  set L := fun m => lagrange ω n m x with hL
  -- The square is the product with one minus the other Lagrange polynomials.
  have others : L k * L k - L k = -∑ m ∈ (range n).erase k, L k * L m := by
    have total := sum_lagrange primitive positive x
    rw [← add_sum_erase _ _ (mem_range.mpr inside)] at total
    rw [← mul_sum, show ∑ m ∈ (range n).erase k, L m = 1 - L k from eq_sub_of_add_eq' total]
    ring
  have product : ∀ m ∈ (range n).erase k, L k * L m = (x ^ n - 1) *
      (kernel ω n ((m + n - k) % n) * ω ^ ((m + n - k) % n) * L k -
        kernel ω n ((m + n - k) % n) * L m) := by
    intro m member
    obtain ⟨different, mMember⟩ := mem_erase.mp member
    have mInside := mem_range.mp mMember
    have offset : (m + n - k) % n ≠ 0 := by
      by_cases wrapped : k ≤ m
      · rw [show m + n - k = m - k + n by omega, Nat.add_mod_right, Nat.mod_eq_of_lt (by omega)]
        omega
      · rw [Nat.mod_eq_of_lt (by omega)]
        omega
    have shifted := pow_offset primitive (m := m) inside
    have nodes : n * (ω ^ k - ω ^ m) = ω ^ k * (n * (1 - ω ^ ((m + n - k) % n))) := by
      rw [← shifted]
      ring
    rw [hL]
    dsimp only
    rw [lagrange_mul_lagrange primitive outside inside mInside different.symm, nodes, kernel,
      if_neg offset, mul_inv, ← shifted]
    have cancel : ω ^ k * (ω ^ k)⁻¹ = 1 := mul_inv_cancel₀ (pow_ne_zero k nonzero)
    linear_combination (x ^ n - 1) * (n * (1 - ω ^ ((m + n - k) % n)))⁻¹ *
      (ω ^ ((m + n - k) % n) * lagrange ω n k x - lagrange ω n m x) * cancel
  have diagonal : (k + n - k) % n = 0 := by
    rw [Nat.add_sub_cancel_left, Nat.mod_self]
  have nodeSum := sum_kernel_node primitive positive two
  rw [← sum_offset inside, ← add_sum_erase _ _ (mem_range.mpr inside), diagonal, pow_zero,
    mul_one] at nodeSum
  change L k * L k - L k = (x ^ n - 1) * ∑ m ∈ range n, kernel ω n ((m + n - k) % n) * L m
  rw [others, sum_congr rfl product, ← mul_sum, sum_sub_distrib, ← sum_mul,
    ← add_sum_erase _ _ (mem_range.mpr inside), diagonal, eq_neg_of_add_eq_zero_right nodeSum]
  ring

/-- The top coefficient of a Lagrange polynomial. -/
def lagrangeTop (ω : F) (n k : ℕ) : F := (n : F)⁻¹ * (ω⁻¹) ^ ((n - 1) * k)

theorem inv_pow_top (primitive : IsPrimitiveRoot ω n) (positive : 0 < n) (k : ℕ) :
    (ω⁻¹) ^ ((n - 1) * k) = ω ^ k := by
  rw [inv_pow]
  apply inv_eq_of_mul_eq_one_left
  rw [← pow_add, show k + (n - 1) * k = n * k by
    rw [Nat.sub_mul, one_mul, Nat.add_sub_cancel' (Nat.le_mul_of_pos_left k positive)],
    pow_mul, primitive.pow_eq_one, one_pow]

theorem lagrangeTop_eq (primitive : IsPrimitiveRoot ω n) (positive : 0 < n) (k : ℕ) :
    lagrangeTop ω n k = (n : F)⁻¹ * ω ^ k := by
  rw [lagrangeTop, inv_pow_top primitive positive]

/-- The two-term quotient of distinct Lagrange polynomials has no top coefficient. -/
theorem lagrangeTop_cross (primitive : IsPrimitiveRoot ω n) (positive : 0 < n) (k l : ℕ) :
    ω ^ l * lagrangeTop ω n k - ω ^ k * lagrangeTop ω n l = 0 := by
  rw [lagrangeTop_eq primitive positive, lagrangeTop_eq primitive positive]
  ring

/-- The correlation of the kernel with the nodes vanishes at every offset. -/
theorem sum_kernel_offset (primitive : IsPrimitiveRoot ω n) (two : (2 : F) ≠ 0) {k : ℕ} (inside : k < n) :
    ∑ j ∈ range n, kernel ω n ((j + n - k) % n) * ω ^ j = 0 := by
  have positive : 0 < n := by omega
  calc ∑ j ∈ range n, kernel ω n ((j + n - k) % n) * ω ^ j
      = ω ^ k * ∑ j ∈ range n, kernel ω n ((j + n - k) % n) * ω ^ ((j + n - k) % n) := by
        rw [mul_sum]
        apply sum_congr rfl
        intro j _
        rw [← pow_offset primitive (m := j) inside]
        ring
    _ = ω ^ k * ∑ d ∈ range n, kernel ω n d * ω ^ d := by
        rw [sum_offset inside fun d => kernel ω n d * ω ^ d]
    _ = 0 := by
        rw [sum_kernel_node primitive positive two, mul_zero]

/-- The diagonal combination of Lagrange polynomials has no top coefficient. -/
theorem lagrangeTop_correlation (primitive : IsPrimitiveRoot ω n) (two : (2 : F) ≠ 0) {k : ℕ}
    (inside : k < n) : ∑ j ∈ range n, kernel ω n ((j + n - k) % n) * lagrangeTop ω n j = 0 := by
  have positive : 0 < n := by omega
  have nodes := sum_kernel_offset primitive two inside
  calc ∑ j ∈ range n, kernel ω n ((j + n - k) % n) * lagrangeTop ω n j
      = (n : F)⁻¹ * ∑ j ∈ range n, kernel ω n ((j + n - k) % n) * ω ^ j := by
        rw [mul_sum]
        apply sum_congr rfl
        intro j _
        rw [lagrangeTop_eq primitive positive]
        ring
    _ = 0 := by rw [nodes, mul_zero]

end Pvugc.Algebra
