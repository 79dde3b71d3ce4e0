import Pvugc.Algebra.Pratt
import Pvugc.Circuit.RecursionCycle
import Mathlib.Tactic.NormNum.Prime

namespace Pvugc.Circuit
open Pvugc.Algebra

/-- The largest prime factor of the order of the units has a predecessor with three large factors. -/
theorem bls12Bw6_cofactor_prime :
    Nat.Prime 73387170334035996766247648424745786170238574695861388454532790956181 := by
  have bits39 : Nat.Prime 494527005853 := by
    apply prime_of_certificate 39 5 [2, 2, 3, 11, 167, 22433633]
    · norm_num
    · decide +kernel
  have bits37 : Nat.Prime 76872275827 := by
    apply prime_of_certificate 37 2 [2, 3, 17, 17, 19, 23, 229, 443]
    · norm_num
    · decide +kernel
  have bits41 : Nat.Prime 1844934619849 := by
    apply prime_of_certificate 41 14 [2, 2, 2, 3, 76872275827]
    · simp only [List.forall_mem_cons, bits37]
      norm_num
    · decide +kernel
  have bits67 : Nat.Prime 111286271775829695101 := by
    apply prime_of_certificate 67 2 [2, 2, 5, 5, 73, 8263, 1844934619849]
    · simp only [List.forall_mem_cons, bits41]
      norm_num
    · decide +kernel
  have bits68 : Nat.Prime 222572543551659390203 := by
    apply prime_of_certificate 68 2 [2, 111286271775829695101]
    · simp only [List.forall_mem_cons, bits67]
      norm_num
    · decide +kernel
  have bits77 : Nat.Prime 97931919162730131689321 := by
    apply prime_of_certificate 77 3 [2, 2, 2, 5, 11, 222572543551659390203]
    · simp only [List.forall_mem_cons, bits68]
      norm_num
    · decide +kernel
  have bits82 : Nat.Prime 3721412928183745004194199 := by
    apply prime_of_certificate 82 13 [2, 19, 97931919162730131689321]
    · simp only [List.forall_mem_cons, bits77]
      norm_num
    · decide +kernel
  have bits33 : Nat.Prime 4777599223 := by
    apply prime_of_certificate 33 3 [2, 3, 3, 11, 59, 408971]
    · norm_num
    · decide +kernel
  have bits53 : Nat.Prime 5187222954756607 := by
    apply prime_of_certificate 53 3 [2, 3, 19, 5301089, 8583511]
    · norm_num
    · decide +kernel
  have bits93 : Nat.Prime 7880826209898991662826602799 := by
    apply prime_of_certificate 93 21 [2, 3, 53, 4777599223, 5187222954756607]
    · simp only [List.forall_mem_cons, bits33, bits53]
      norm_num
    · decide +kernel
  apply prime_of_certificate 226 3 [2, 2, 5, 11, 23, 494527005853, 3721412928183745004194199,
    7880826209898991662826602799]
  · simp only [List.forall_mem_cons, bits39, bits82, bits93]
    norm_num
  · decide +kernel

/-- The outer scalar field of BLS12-377/BW6-761 is a field. -/
theorem bls12Bw6_outerModulus_prime : bls12Bw6Cycle.outerModulus.Prime := by
  have bits63 : Nat.Prime 6633514200929891813 := by
    apply prime_of_certificate 63 2 [2, 2, 19, 25537, 47521, 71924131]
    · norm_num
    · decide +kernel
  apply prime_of_certificate 377 15 (List.replicate 46 2 ++ [3, 7, 13, 53, 409, 499, 2557, 6633514200929891813,
    73387170334035996766247648424745786170238574695861388454532790956181])
  · simp only [List.replicate, List.cons_append, List.nil_append, List.forall_mem_cons, bits63,
      bls12Bw6_cofactor_prime]
    norm_num
  · decide +kernel

instance bls12Bw6Prime : Fact bls12Bw6Cycle.outerModulus.Prime := ⟨bls12Bw6_outerModulus_prime⟩

end Pvugc.Circuit
