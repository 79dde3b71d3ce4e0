import Pvugc.Algebra.Lagrange
import Pvugc.Algebra.Tabulate
import Pvugc.Groth16.EvaluationDomain

namespace Pvugc.Groth16
open Pvugc.Algebra Finset

variable {F : Type*} [Field F]

/-- The values of a coefficient sequence on the coset of a domain. -/
def cosetValues (domain : EvaluationDomain F) (offset : F) (f : ℕ → F) (k : ℕ) : F :=
  ∑ i ∈ range domain.size, f i * (offset * domain.element k) ^ i

/-- The polynomial library, with the documented behaviour of each routine the code calls. -/
structure PolynomialBackend (F : Type*) [Field F] where
  newDomain : ℕ → Option (EvaluationDomain F)
  generator : F
  evaluateAllLagrangeCoefficients : EvaluationDomain F → F → List F
  ifft : EvaluationDomain F → List F → List F
  cosetFft : EvaluationDomain F → F → List F → List F
  cosetIfft : EvaluationDomain F → F → List F → List F
  newDomain_fits : ∀ {k domain}, newDomain k = some domain → k ≤ domain.size
  generator_ne_zero : generator ≠ 0
  generator_outside : ∀ {k domain}, newDomain k = some domain → generator ^ domain.size ≠ 1
  lagrange_spec : ∀ domain x, evaluateAllLagrangeCoefficients domain x =
    tabulate domain.size fun k => lagrange domain.groupGen domain.size k x
  ifft_spec : ∀ domain f, ifft domain (tabulate domain.size f) =
    tabulate domain.size (idft domain.groupGen domain.size f)
  cosetFft_spec : ∀ domain offset f, cosetFft domain offset (tabulate domain.size f) =
    tabulate domain.size (cosetValues domain offset f)
  cosetIfft_spec : ∀ domain offset f, offset ≠ 0 →
    cosetIfft domain offset (tabulate domain.size (cosetValues domain offset f)) =
      tabulate domain.size f

/-- Unscaling the inverse transform of the coset values returns the coefficients. -/
theorem idft_cosetValues (domain : EvaluationDomain F) {offset : F} (nonzero : offset ≠ 0) (f : ℕ → F)
    {i : ℕ} (inside : i < domain.size) :
    (offset⁻¹) ^ i * idft domain.groupGen domain.size (cosetValues domain offset f) i = f i := by
  have scaled : ∀ k < domain.size, cosetValues domain offset f k =
      dft domain.groupGen domain.size (fun i => offset ^ i * f i) k := by
    intro k _
    apply sum_congr rfl
    intro j _
    rw [EvaluationDomain.element, smul_eq_mul, Nat.mul_comm j k, pow_mul, mul_pow]
    ring
  have transform := idft_dft domain.primitive (fun i => offset ^ i * f i) inside
  rw [idft, dft_congr _ _ scaled, ← idft, transform, ← mul_assoc, ← mul_pow,
    inv_mul_cancel₀ nonzero, one_pow, one_mul]

/-- A library that computes every transform from its defining sum. -/
def directBackend (newDomain : ℕ → Option (EvaluationDomain F)) (generator : F)
    (fits : ∀ {k domain}, newDomain k = some domain → k ≤ domain.size) (nonzero : generator ≠ 0)
    (outside : ∀ {k domain}, newDomain k = some domain → generator ^ domain.size ≠ 1) :
    PolynomialBackend F where
  newDomain := newDomain
  generator := generator
  evaluateAllLagrangeCoefficients domain x :=
    tabulate domain.size fun k => lagrange domain.groupGen domain.size k x
  ifft domain a := tabulate domain.size (idft domain.groupGen domain.size (a.getD · 0))
  cosetFft domain offset a := tabulate domain.size (cosetValues domain offset (a.getD · 0))
  cosetIfft domain offset a := tabulate domain.size fun i =>
    (offset⁻¹) ^ i * idft domain.groupGen domain.size (a.getD · 0) i
  newDomain_fits := fits
  generator_ne_zero := nonzero
  generator_outside := outside
  lagrange_spec _ _ := rfl
  ifft_spec domain f := by
    apply tabulate_congr
    intro i _
    rw [idft, dft_congr _ _ (fun j inside => tabulate_getD f inside 0), ← idft]
  cosetFft_spec domain offset f := by
    apply tabulate_congr
    intro k _
    apply sum_congr rfl
    intro i member
    dsimp only
    rw [tabulate_getD f (mem_range.mp member)]
  cosetIfft_spec domain offset f offsetNonzero := by
    apply tabulate_congr
    intro i inside
    rw [idft, dft_congr _ _ (fun j jInside => tabulate_getD _ jInside 0), ← idft,
      idft_cosetValues domain offsetNonzero f inside]

section Sample

instance factPrimeThirteen : Fact (Nat.Prime 13) := ⟨by decide⟩

/-- The fourth roots of unity modulo 13. -/
def fourthRoots : EvaluationDomain (ZMod 13) where
  size := 4
  groupGen := 5
  positive := by decide
  fitsWord := by decide
  primitive := by
    apply IsPrimitiveRoot.mk_of_lt (5 : ZMod 13) (by decide) (by decide)
    intro l positive below
    interval_cases l <;> decide

def fourthRootsUpTo (k : ℕ) : Option (EvaluationDomain (ZMod 13)) := if k ≤ 4 then some fourthRoots else none

theorem fourthRootsUpTo_eq {k : ℕ} {domain : EvaluationDomain (ZMod 13)}
    (created : fourthRootsUpTo k = some domain) : k ≤ 4 ∧ domain = fourthRoots := by
  rw [fourthRootsUpTo] at created
  split at created
  case isTrue fits => exact ⟨fits, (Option.some.inj created).symm⟩
  case isFalse => cases created

/-- A small library with one domain. -/
def smallBackend : PolynomialBackend (ZMod 13) :=
  directBackend fourthRootsUpTo 2
    (by
      intro k domain created
      obtain ⟨fits, rfl⟩ := fourthRootsUpTo_eq created
      exact fits)
    (by decide)
    (by
      intro k domain created
      obtain ⟨-, rfl⟩ := fourthRootsUpTo_eq created
      decide)

end Sample

end Pvugc.Groth16
