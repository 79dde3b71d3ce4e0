import Mathlib
import Pvugc.Algebra.Numerals

namespace Pvugc.Algebra
open Finset

section Transform

variable {F G : Type*} [Field F] [AddCommGroup G] [Module F G]

/-- The transform evaluates a coefficient sequence at each power of the root. -/
def dft (ω : F) (n : ℕ) (f : ℕ → G) (k : ℕ) : G := ∑ i ∈ range n, ω ^ (i * k) • f i

/-- The inverse transform reads the sequence with the inverse root and divides by the size. -/
def idft (ω : F) (n : ℕ) (f : ℕ → G) (k : ℕ) : G := (n : F)⁻¹ • dft ω⁻¹ n f k

theorem dft_congr (ω : F) (n : ℕ) {f g : ℕ → G} (same : ∀ i < n, f i = g i) (k : ℕ) :
    dft ω n f k = dft ω n g k := by
  apply sum_congr rfl
  intro i member
  rw [same i (mem_range.mp member)]

/-- The transform of one entry is that entry. -/
@[simp] theorem dft_one (ω : F) (f : ℕ → G) (k : ℕ) : dft ω 1 f k = f 0 := by
  simp [dft]

/-- The transform depends on the index modulo the size. -/
theorem dft_add_size {ω : F} {n : ℕ} (root : ω ^ n = 1) (f : ℕ → G) (k : ℕ) :
    dft ω n f (k + n) = dft ω n f k := by
  apply sum_congr rfl
  intro i _
  rw [Nat.mul_add, pow_add, Nat.mul_comm i n, pow_mul ω n i, root, one_pow, mul_one]

/-- A transform of even size splits into the transforms of its even and odd entries. -/
theorem dft_double (ω : F) (h : ℕ) (f : ℕ → G) (k : ℕ) :
    dft ω (2 * h) f k =
      dft (ω ^ 2) h (fun i => f (2 * i)) k + ω ^ k • dft (ω ^ 2) h (fun i => f (2 * i + 1)) k := by
  have split : ∀ g : ℕ → G, ∑ i ∈ range (2 * h), g i =
      ∑ i ∈ range h, g (2 * i) + ∑ i ∈ range h, g (2 * i + 1) := by
    intro g
    induction h with
    | zero => simp
    | succ h ih =>
        rw [show 2 * (h + 1) = 2 * h + 1 + 1 by ring, sum_range_succ, sum_range_succ, ih,
          sum_range_succ, sum_range_succ]
        abel
  rw [dft, split, dft, dft, smul_sum]
  congr 1
  · apply sum_congr rfl
    intro i _
    rw [← pow_mul, Nat.mul_assoc]
  · apply sum_congr rfl
    intro i _
    rw [smul_smul, ← pow_mul, ← pow_add]
    congr 2
    ring

end Transform

section Orthogonality

variable {F G : Type*} [Field F] [AddCommGroup G] [Module F G] {ω : F} {n : ℕ}

theorem root_ne_zero (primitive : IsPrimitiveRoot ω n) (positive : 0 < n) : ω ≠ 0 :=
  primitive.ne_zero positive.ne'

/-- The size of a domain is invertible in its field. -/
theorem size_ne_zero (primitive : IsPrimitiveRoot ω n) (positive : 0 < n) : (n : F) ≠ 0 := by
  have : NeZero n := ⟨positive.ne'⟩
  exact (primitive.neZero').out

/-- The powers of a primitive root with a common integer exponent sum to the size or to zero. -/
theorem sum_zpow (primitive : IsPrimitiveRoot ω n) (z : ℤ) :
    ∑ i ∈ range n, (ω ^ z) ^ i = if (n : ℤ) ∣ z then (n : F) else 0 := by
  split
  case isTrue divides =>
    rw [(primitive.zpow_eq_one_iff_dvd z).mpr divides]
    simp
  case isFalse distinct =>
    have different : ω ^ z ≠ 1 := fun equal =>
      distinct ((primitive.zpow_eq_one_iff_dvd z).mp equal)
    have closed : (ω ^ z) ^ n = 1 := by
      rw [← zpow_natCast, ← zpow_mul, mul_comm, zpow_mul, zpow_natCast, primitive.pow_eq_one,
        one_zpow]
    have telescoped := mul_neg_geom_sum (ω ^ z) n
    rw [closed, sub_self] at telescoped
    exact (mul_eq_zero.mp telescoped).resolve_left (sub_ne_zero.mpr different.symm)

theorem sum_pow_pow (primitive : IsPrimitiveRoot ω n) (positive : 0 < n) (a b : ℕ) :
    ∑ i ∈ range n, (ω⁻¹) ^ (i * a) * ω ^ (i * b) =
      if (n : ℤ) ∣ (b : ℤ) - a then (n : F) else 0 := by
  have nonzero := root_ne_zero primitive positive
  rw [← sum_zpow primitive]
  apply sum_congr rfl
  intro i _
  rw [← zpow_natCast (ω ^ _) i, ← zpow_mul, inv_pow, ← zpow_natCast, ← zpow_natCast,
    ← zpow_neg, ← zpow_add₀ nonzero]
  congr 1
  push_cast
  ring

theorem dvd_sub_iff_of_lt {a b : ℕ} (left : a < n) (right : b < n) :
    (n : ℤ) ∣ (b : ℤ) - a ↔ a = b := by
  constructor
  · intro divides
    have zero := Int.eq_zero_of_abs_lt_dvd divides (by rw [abs_lt]; omega)
    omega
  · rintro rfl
    simp

/-- The inverse transform of a transform is the original sequence. -/
theorem idft_dft (primitive : IsPrimitiveRoot ω n) (f : ℕ → G) {k : ℕ} (inside : k < n) :
    idft ω n (dft ω n f) k = f k := by
  have positive : 0 < n := by omega
  have swapped : dft ω⁻¹ n (dft ω n f) k =
      ∑ j ∈ range n, (∑ i ∈ range n, (ω⁻¹) ^ (i * k) * ω ^ (i * j)) • f j := by
    simp only [dft, smul_sum, sum_smul, smul_smul]
    rw [sum_comm]
    simp only [Nat.mul_comm]
  rw [idft, swapped]
  have single : ∑ j ∈ range n, (∑ i ∈ range n, (ω⁻¹) ^ (i * k) * ω ^ (i * j)) • f j =
      (n : F) • f k := by
    rw [sum_eq_single_of_mem k (mem_range.mpr inside)]
    · rw [sum_pow_pow primitive positive, if_pos (by simp)]
    · intro j member different
      rw [sum_pow_pow primitive positive, if_neg, zero_smul]
      rw [dvd_sub_iff_of_lt inside (mem_range.mp member)]
      exact different.symm
  rw [single, smul_smul, inv_mul_cancel₀ (size_ne_zero primitive positive), one_smul]

/-- The transform of an inverse transform is the original sequence. -/
theorem dft_idft (primitive : IsPrimitiveRoot ω n) (f : ℕ → G) {k : ℕ} (inside : k < n) :
    dft ω n (idft ω n f) k = f k := by
  have positive : 0 < n := by omega
  have reversed := idft_dft primitive.inv f inside
  rw [idft, inv_inv] at reversed
  rw [← reversed, dft, dft, smul_sum]
  apply sum_congr rfl
  intro i _
  rw [idft, smul_comm]

/-- The pointwise product of a reversed kernel's transform and a transform inverts to the
correlation of the two sequences. -/
theorem idft_correlation (primitive : IsPrimitiveRoot ω n) (u : ℕ → F) (f : ℕ → G) {k : ℕ}
    (inside : k < n) :
    idft ω n (fun i => dft ω n (fun j => u ((n - j) % n)) i • dft ω n f i) k =
      ∑ j ∈ range n, u ((j + n - k) % n) • f j := by
  have positive : 0 < n := by omega
  have expanded : dft ω⁻¹ n (fun i => dft ω n (fun j => u ((n - j) % n)) i • dft ω n f i) k =
      ∑ j ∈ range n, (∑ l ∈ range n, (∑ i ∈ range n, (ω⁻¹) ^ (i * k) * ω ^ (i * (l + j))) *
        u ((n - l) % n)) • f j := by
    simp only [dft, smul_sum, sum_smul, smul_smul, sum_mul, smul_eq_mul]
    rw [sum_comm]
    apply sum_congr rfl
    intro j _
    rw [sum_comm]
    apply sum_congr rfl
    intro l _
    apply sum_congr rfl
    intro i _
    congr 1
    rw [Nat.mul_add, pow_add, Nat.mul_comm l i, Nat.mul_comm j i]
    ring
  rw [idft, expanded, smul_sum]
  apply sum_congr rfl
  intro j member
  have jInside := mem_range.mp member
  rw [smul_smul]
  congr 1
  have only : ∀ l ∈ range n, l ≠ (k + n - j) % n →
      (∑ i ∈ range n, (ω⁻¹) ^ (i * k) * ω ^ (i * (l + j))) * u ((n - l) % n) = 0 := by
    intro l lMember different
    rw [sum_pow_pow primitive positive, if_neg, zero_mul]
    intro divides
    apply different
    obtain ⟨c, hc⟩ := divides
    have lInside := mem_range.mp lMember
    have residue : ((k + n - j) % n : ℕ) = l := by
      zify [show j ≤ k + n by omega]
      rw [show (k : ℤ) + n - j = l + n * (1 - c) by push_cast at hc; linarith,
        Int.add_mul_emod_self_left, Int.emod_eq_of_lt (by omega) (by omega)]
    exact residue.symm
  rw [sum_eq_single_of_mem _ (mem_range.mpr (Nat.mod_lt _ positive)) only,
    sum_pow_pow primitive positive, if_pos, ← mul_assoc,
    inv_mul_cancel₀ (size_ne_zero primitive positive), one_mul]
  · congr 1
    by_cases lower : j ≤ k
    · rw [show (k + n - j) % n = k - j by
        rw [show k + n - j = k - j + n by omega, Nat.add_mod_right, Nat.mod_eq_of_lt (by omega)]]
      congr 1
      omega
    · rw [Nat.mod_eq_of_lt (show k + n - j < n by omega)]
      rw [show j + n - k = (n - (k + n - j)) + n by omega, Nat.add_mod_right]
  · by_cases lower : j ≤ k
    · rw [show (k + n - j) % n = k - j by
        rw [show k + n - j = k - j + n by omega, Nat.add_mod_right, Nat.mod_eq_of_lt (by omega)]]
      simp [Nat.sub_add_cancel lower]
    · rw [Nat.mod_eq_of_lt (show k + n - j < n by omega)]
      rw [show k + n - j + j = k + n by omega]
      simp

end Orthogonality

end Pvugc.Algebra
