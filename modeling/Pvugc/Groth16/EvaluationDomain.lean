import Pvugc.Algebra.Fourier

namespace Pvugc.Groth16
open Pvugc.Algebra

/-- A multiplicative subgroup of the scalar field, listed by the powers of its generator. -/
structure EvaluationDomain (F : Type*) [Field F] where
  size : ℕ
  groupGen : F
  positive : 0 < size
  fitsWord : size < 2 ^ 64
  primitive : IsPrimitiveRoot groupGen size

namespace EvaluationDomain

variable {F : Type*} [Field F] (domain : EvaluationDomain F)

def element (i : ℕ) : F := domain.groupGen ^ i

def sizeAsFieldElement : F := (domain.size : F)

def evaluateVanishingPolynomial (tau : F) : F := tau ^ domain.size - 1

@[simp] theorem element_zero : domain.element 0 = 1 := pow_zero _

/-- The size of a domain is invertible, so that doubling it fails only in characteristic two. -/
theorem doubledSize_ne_zero_iff : (domain.size : F) + domain.size ≠ 0 ↔ (2 : F) ≠ 0 := by
  rw [← two_mul, mul_ne_zero_iff, and_iff_left (size_ne_zero domain.primitive domain.positive)]

end EvaluationDomain

end Pvugc.Groth16
