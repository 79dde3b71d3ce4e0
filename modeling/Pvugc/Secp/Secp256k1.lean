import Pvugc.Algebra.Pratt
import Pvugc.Secp.FixedBaseCircuit
import Mathlib.Tactic.NormNum.Prime

namespace Pvugc.Secp
open Pvugc.Algebra WeierstrassCurve.Affine

/-- The characteristic of the base field of secp256k1. -/
abbrev secpPrime : ℕ := 0xFFFFFFFFFFFFFFFFFFFFFFFFFFFFFFFFFFFFFFFFFFFFFFFFFFFFFFFEFFFFFC2F

/-- The base field is a field. -/
theorem secpPrime_prime : secpPrime.Prime := by
  have bits58 : Nat.Prime 173378833005251801 := by
    apply prime_of_certificate 58 6 [2, 2, 2, 5, 5, 2621, 24809, 13331831]
    · norm_num
    · decide +kernel
  have bits75 : Nat.Prime 22149492674086928081353 := by
    apply prime_of_certificate 75 5 [2, 2, 2, 3, 5323, 173378833005251801]
    · simp only [List.forall_mem_cons, bits58]
      norm_num
    · decide +kernel
  have bits77 : Nat.Prime 132896956044521568488119 := by
    apply prime_of_certificate 77 6 [2, 3, 22149492674086928081353]
    · simp only [List.forall_mem_cons, bits75]
      norm_num
    · decide +kernel
  have bits128 : Nat.Prime 255515944373312847190720520512484175977 := by
    apply prime_of_certificate 128 3 [2, 2, 2, 7, 7, 11, 1627, 2657, 4423, 41201, 96557, 7240687, 107590001]
    · norm_num
    · decide +kernel
  have bits237 : Nat.Prime 205115282021455665897114700593932402728804164701536103180137503955397371 := by
    apply prime_of_certificate 237 10 [2, 3, 5, 29, 29, 31, 7723, 132896956044521568488119,
      255515944373312847190720520512484175977]
    · simp only [List.forall_mem_cons, bits77, bits128]
      norm_num
    · decide +kernel
  apply prime_of_certificate 256 3 [2, 3, 7, 13441,
    205115282021455665897114700593932402728804164701536103180137503955397371]
  · simp only [List.forall_mem_cons, bits237]
    norm_num
  · decide +kernel

/-- The order of the group is prime. -/
theorem secpOrder_prime : secpOrder.Prime := by
  have bits57 : Nat.Prime 107361793816595537 := by
    apply prime_of_certificate 57 3 [2, 2, 2, 2, 16699, 85831, 4681609]
    · norm_num
    · decide +kernel
  have bits68 : Nat.Prime 174723607534414371449 := by
    apply prime_of_certificate 68 3 [2, 2, 2, 17, 59, 4051, 120233, 44706919]
    · norm_num
    · decide +kernel
  have bits30 : Nat.Prime 545358713 := by
    apply prime_of_certificate 30 5 [2, 2, 2, 41, 59, 28181]
    · norm_num
    · decide
  have bits39 : Nat.Prime 297159362677 := by
    apply prime_of_certificate 39 2 [2, 2, 3, 3, 11, 461, 1627771]
    · norm_num
    · decide +kernel
  have bits95 : Nat.Prime 29047611873442575647497758179 := by
    apply prime_of_certificate 95 2 [2, 293, 305873, 545358713, 297159362677]
    · simp only [List.forall_mem_cons, bits30, bits39]
      norm_num
    · decide +kernel
  have bits109 : Nat.Prime 341948486974166000522343609283189 := by
    apply prime_of_certificate 109 2 [2, 2, 3, 3, 3, 109, 29047611873442575647497758179]
    · simp only [List.forall_mem_cons, bits95]
      norm_num
    · decide +kernel
  apply prime_of_certificate 256 7 [2, 2, 2, 2, 2, 2, 3, 149, 631, 107361793816595537, 174723607534414371449,
    341948486974166000522343609283189]
  · simp only [List.forall_mem_cons, bits57, bits68, bits109]
    norm_num
  · decide +kernel

instance : Fact secpPrime.Prime := ⟨secpPrime_prime⟩

/-- The type `SecpFq`. -/
abbrev SecpFq := ZMod secpPrime

def secpGeneratorX : SecpFq := 0x79BE667EF9DCBBAC55A06295CE870B07029BFCDB2DCE28D959F2815B16F81798

def secpGeneratorY : SecpFq := 0x483ADA7726A3C4655DA4FBFC0E1108A8FD17B448A68554199C47D08FFB10D4B8

theorem secpGenerator_nonsingular : (shortCurve (7 : SecpFq)).Nonsingular secpGeneratorX secpGeneratorY := by
  apply shortCurve_nonsingular
  · decide
  · decide

/-- The generator of secp256k1. -/
def secpGenerator : (shortCurve (7 : SecpFq)).Point := .some _ _ secpGenerator_nonsingular

/-- Double-and-add with the formulas of the gadget, for multiples of at most the given number of bits. -/
def gadgetMultiple {F : Type} [Field F] [DecidableEq F] (point : SecpAffineVar F) : ℕ → ℕ → SecpJacVar F
  | 0, _ => SecpJacVar.infinity
  | bits + 1, n =>
      let doubled := SecpJacVar.double (gadgetMultiple point bits (n / 2))
      if n % 2 = 1 then SecpJacVar.addMixed doubled point else doubled

theorem gadgetMultiple_spec {F : Type} [Field F] [DecidableEq F] {b x y : F} (twoNonzero : (2 : F) ≠ 0)
    (point : (shortCurve b).Nonsingular x y) {bits n : ℕ} (fits : n < 2 ^ bits) :
    (gadgetMultiple ⟨x, y⟩ bits n).Represents (n • Point.some x y point) := by
  induction bits generalizing n with
  | zero =>
      obtain rfl : n = 0 := by simpa using fits
      rw [zero_nsmul]
      exact .infinity rfl
  | succ bits inductionHypothesis =>
      have half : n / 2 < 2 ^ bits := by
        rw [pow_succ] at fits
        omega
      have doubled := SecpJacVar.represents_double twoNonzero (inductionHypothesis half)
      rw [← add_nsmul, ← two_mul] at doubled
      rw [gadgetMultiple]
      split
      case isTrue odd =>
        have whole : n = 2 * (n / 2) + 1 := by omega
        have added := SecpJacVar.represents_addMixed twoNonzero doubled point
        rwa [← succ_nsmul, ← whole] at added
      case isFalse even =>
        have whole : n = 2 * (n / 2) := by omega
        rwa [← whole] at doubled

/-- The formulas of the gadget give a multiple of the generator these coordinates. -/
def MultipleAt (k x y : ℕ) : Prop :=
  let multiple := gadgetMultiple ⟨secpGeneratorX, secpGeneratorY⟩ 256 k
  k < 2 ^ 256 ∧ multiple.z ≠ 0 ∧ multiple.x = (x : SecpFq) * multiple.z ^ 2 ∧
    multiple.y = (y : SecpFq) * multiple.z ^ 3

instance (k x y : ℕ) : Decidable (MultipleAt k x y) := inferInstanceAs (Decidable (_ ∧ _ ∧ _ ∧ _))

theorem MultipleAt.eq_some {k x y : ℕ} (computed : MultipleAt k x y) :
    ∃ point, k • secpGenerator = .some (x : SecpFq) (y : SecpFq) point := by
  obtain ⟨fits, nonzero, first, second⟩ := computed
  have represented := gadgetMultiple_spec (by decide) secpGenerator_nonsingular fits
  rw [secpGenerator]
  cases equation : k • Point.some _ _ secpGenerator_nonsingular with
  | zero => exact absurd (represented.eq_zero_iff.mp equation) nonzero
  | some x' y' point =>
      rw [equation] at represented
      cases represented with
      | finite _ first' second' =>
          obtain rfl : x' = x := mul_right_cancel₀ (pow_ne_zero 2 nonzero) (first'.symm.trans first)
          obtain rfl : y' = y := mul_right_cancel₀ (pow_ne_zero 3 nonzero) (second'.symm.trans second)
          exact ⟨point, rfl⟩

/-- The generator has the order of the group. -/
theorem secpGenerator_order : addOrderOf secpGenerator = secpOrder := by
  have : Fact secpOrder.Prime := ⟨secpOrder_prime⟩
  apply addOrderOf_eq_prime
  · have infinity : (gadgetMultiple ⟨secpGeneratorX, secpGeneratorY⟩ 256 secpOrder).z = 0 := by decide +kernel
    have multiple := gadgetMultiple_spec (by decide) secpGenerator_nonsingular
      (show secpOrder < 2 ^ 256 by decide)
    exact (multiple.eq_zero_iff).mpr infinity
  · exact Point.some_ne_zero _

/-- The curve of the adaptor points. -/
def secp256k1 : SecpCurve SecpFq where
  coeffB := 7
  generator := secpGenerator
  two_ne_zero := by decide
  coeffB_ne_zero := by decide
  order := secpGenerator_order

end Pvugc.Secp
