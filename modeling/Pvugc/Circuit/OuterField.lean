import Pvugc.Algebra.Pratt
import Pvugc.Circuit.RecursionCycle
import Pvugc.Groth16.GeneralDomain
import Mathlib.Tactic.NormNum.Prime

namespace Pvugc.Circuit
open Pvugc.Algebra Pvugc.Groth16

/-- The outer scalar field of MNT4-298/MNT6-298 is a field. -/
theorem mnt4Mnt6_outerModulus_prime : mnt4Mnt6Cycle.outerModulus.Prime := by
  have bits35 : Nat.Prime 30204125999 := by
    apply prime_of_certificate 35 11 [2, 17, 19, 46755613]
    · norm_num
    · decide +kernel
  have bits68 : Nat.Prime 215503530768389060287 := by
    apply prime_of_certificate 68 5 [2, 3, 47, 173, 146249, 30204125999]
    · simp only [List.forall_mem_cons, bits35]
      norm_num
    · decide +kernel
  have bits90 : Nat.Prime 688987631240801274977929423 := by
    apply prime_of_certificate 90 6 [2, 3, 3, 11, 67, 241, 215503530768389060287]
    · simp only [List.forall_mem_cons, bits68]
      norm_num
    · decide +kernel
  have bits120 : Nat.Prime 832668823862928114206893884097921187 := by
    apply prime_of_certificate 120 2 [2, 103, 1063, 5519, 688987631240801274977929423]
    · simp only [List.forall_mem_cons, bits90]
      norm_num
    · decide +kernel
  have bits30 : Nat.Prime 725881831 := by
    apply prime_of_certificate 30 6 [2, 3, 5, 24196061]
    · norm_num
    · decide +kernel
  have bits62 : Nat.Prime 3365725416887341693 := by
    apply prime_of_certificate 62 5 [2, 2, 3, 3, 3, 42932779, 725881831]
    · simp only [List.forall_mem_cons, bits30]
      norm_num
    · decide +kernel
  have bits34 : Nat.Prime 15159874309 := by
    apply prime_of_certificate 34 2 [2, 2, 3, 97, 13023947]
    · norm_num
    · decide +kernel
  have bits108 : Nat.Prime 211749493256267713227913350318551 := by
    apply prime_of_certificate 108 7 [2, 5, 5, 83, 15159874309, 3365725416887341693]
    · simp only [List.forall_mem_cons, bits34, bits62]
      norm_num
    · decide +kernel
  have bits126 : Nat.Prime 46886843293762334669203941507635473727 := by
    apply prime_of_certificate 126 5 [2, 19, 5827, 211749493256267713227913350318551]
    · simp only [List.forall_mem_cons, bits108]
      norm_num
    · decide +kernel
  apply prime_of_certificate 298 17 (List.replicate 17 2 ++ [3, 5, 7, 7, 43, 67, 167, 263,
    832668823862928114206893884097921187, 46886843293762334669203941507635473727])
  · simp only [List.replicate, List.cons_append, List.nil_append, List.forall_mem_cons, bits120, bits126]
    norm_num
  · decide +kernel

instance : Fact mnt4Mnt6Cycle.outerModulus.Prime := ⟨mnt4Mnt6_outerModulus_prime⟩

theorem mnt4Generator_ne_zero : ((17 : ℕ) : mnt4Mnt6Cycle.OuterScalar) ≠ 0 := by
  intro zero
  have divides := (ZMod.natCast_eq_zero_iff 17 mnt4Mnt6Cycle.outerModulus).mp zero
  exact absurd (Nat.le_of_dvd (by decide) divides) (by decide)

/-- Powers of the generator 17 are computed by squarings. -/
theorem mnt4Generator_pow_ne_one {n : ℕ} (fits : n ≤ mnt4Mnt6Cycle.outerModulus)
    (computed : powMod mnt4Mnt6Cycle.outerModulus 17 298 n ≠ 1) :
    ((17 : ℕ) : mnt4Mnt6Cycle.OuterScalar) ^ n ≠ 1 := by
  have bits : mnt4Mnt6Cycle.outerModulus < 2 ^ 298 := by decide +kernel
  exact (powMod_eq_one_iff (by decide) (fits.trans_lt bits)).not.mpr computed

/-- The root of the subgroup of order `2 ^ 17 * 7 ^ 2`. -/
def mnt4LargeRoot : mnt4Mnt6Cycle.OuterScalar :=
  ((17 : ℕ) : mnt4Mnt6Cycle.OuterScalar) ^ ((mnt4Mnt6Cycle.outerModulus - 1) / (2 ^ 17 * 7 ^ 2))

theorem mnt4LargeRoot_primitive : IsPrimitiveRoot mnt4LargeRoot (2 ^ 17 * 7 ^ 2) := by
  apply isPrimitiveRoot_pow_div mnt4Generator_ne_zero (by decide)
  intro q prime divides
  have parts : q = 2 ∨ q = 7 := by
    rcases (Nat.Prime.dvd_mul prime).mp divides with two | seven
    · exact .inl ((Nat.prime_dvd_prime_iff_eq prime Nat.prime_two).mp (prime.dvd_of_dvd_pow two))
    · exact .inr ((Nat.prime_dvd_prime_iff_eq prime Nat.prime_seven).mp (prime.dvd_of_dvd_pow seven))
  rcases parts with rfl | rfl
  · apply mnt4Generator_pow_ne_one
    · decide
    · decide +kernel
  · apply mnt4Generator_pow_ne_one
    · decide
    · decide +kernel

/-- The order of the units is an odd multiple of `2 ^ 17`. -/
theorem mnt4_adicity {root : mnt4Mnt6Cycle.OuterScalar} {L : ℕ} (primitive : IsPrimitiveRoot root (2 ^ L)) :
    L ≤ 17 := by
  by_contra large
  have nonzero : root ≠ 0 := primitive.ne_zero (Nat.pow_pos Nat.two_pos).ne'
  have order := ZMod.orderOf_dvd_card_sub_one nonzero
  rw [← primitive.eq_orderOf] at order
  have divides : 2 ^ 18 ∣ mnt4Mnt6Cycle.outerModulus - 1 := (pow_dvd_pow 2 (by omega)).trans order
  exact absurd divides (by decide)

/-- The constants of the field, which is the base field of MNT4-298. -/
def mnt4BaseField : FftField mnt4Mnt6Cycle.OuterScalar where
  twoAdicity := 17
  smallSubgroupBase := 7
  smallSubgroupBaseAdicity := 2
  largeSubgroupRootOfUnity := mnt4LargeRoot
  generator := (17 : ℕ)
  basePositive := by decide
  fitsWord := by decide
  primitive := mnt4LargeRoot_primitive
  adicity := mnt4_adicity
  generator_outside := by
    apply mnt4Generator_pow_ne_one
    · decide
    · decide +kernel
  generator_ne_zero := mnt4Generator_ne_zero

end Pvugc.Circuit
