import Pvugc.Circuit.OuterField
import Pvugc.Outer.QuotientBases

namespace Pvugc.Outer
open Pvugc.Algebra Pvugc.Circuit Pvugc.Groth16

section Helpers

variable {F G : Type*} [Field F] [AddCommGroup G] [Module F G] (domain : EvaluationDomain F) {a : List G}

/-- The transform of a vector of the length of the domain stays in bounds exactly on the domains of
power-of-two size. -/
theorem parallelFftG1_isSome_iff (length : a.length = domain.size) :
    (parallelFftG1 domain a).isSome ↔ ∃ L, domain.size = 2 ^ L := by
  constructor
  · intro inBounds
    obtain ⟨result, run⟩ := Option.isSome_iff_exists.mp inBounds
    rw [← length]
    exact parallelFftG1_length (by rw [length]; exact domain.positive) (by rw [length]; exact domain.fitsWord) run
  · intro power
    obtain ⟨L, size⟩ := power
    rw [← tabulate_of_list a 0, length, parallelFftG1_tabulate domain size]
    rfl

theorem parallelIfftG1_isSome_iff (length : a.length = domain.size) :
    (parallelIfftG1 domain a).isSome ↔ ∃ L, domain.size = 2 ^ L := by
  rw [← parallelFftG1_isSome_iff domain length, parallelIfftG1]
  cases parallelFftG1 domain a <;> simp

end Helpers

section Setup

variable {F G1 G2 : Type} [Field F] [DecidableEq F] [AddCommGroup G1] [Module F G1]

/-- No FFT of `compute_witness_bases` indexes out of bounds: neither the one of the Lagrange bases nor the three
of the diagonal vector. -/
structure FftsInBounds (domain : EvaluationDomain F) (hQuery : List G1) : Prop where
  lagrangeSrs : (parallelIfftG1 domain (fitLength domain.size hQuery)).isSome
  qVector : ∀ lagrangeSrs invNOneMinusOmega,
    parallelIfftG1 domain (fitLength domain.size hQuery) = some lagrangeSrs →
      kernelTable domain = some invNOneMinusOmega →
        (qVector domain invNOneMinusOmega lagrangeSrs).isSome

/-- The FFTs stay in bounds exactly on the domains of power-of-two size. -/
theorem fftsInBounds_iff_size (domain : EvaluationDomain F) (hQuery : List G1) :
    FftsInBounds domain hQuery ↔ ∃ L, domain.size = 2 ^ L := by
  have length := fitLength_length domain.size hQuery
  constructor
  · intro inBounds
    exact (parallelIfftG1_isSome_iff domain length).mp inBounds.lagrangeSrs
  · intro power
    refine ⟨(parallelIfftG1_isSome_iff domain length).mpr power, ?_⟩
    intro lagrangeSrs table srs kernel
    obtain ⟨L, size⟩ := power
    rw [← tabulate_of_list (fitLength domain.size hQuery) 0, length, parallelIfftG1_tabulate domain size] at srs
    rw [kernelTable_eq] at kernel
    split at kernel
    case isTrue => cases kernel
    case isFalse =>
      cases srs
      cases kernel
      rw [qVector_tabulate size]
      rfl

variable {backend : PolynomialBackend F} {m : ConstraintMatrices F} {domain : EvaluationDomain F} {twoAdicity : ℕ}

omit [DecidableEq F] in
/-- The domain of the setup has power-of-two size exactly when its rows fit the radix-2 subgroup. -/
theorem quotientDomain_size_iff (documented : GeneralDomains backend twoAdicity)
    (located : quotientDomain backend m = some domain) :
    (∃ L, domain.size = 2 ^ L) ↔ m.qapDomainSize ≤ 2 ^ twoAdicity := by
  constructor
  · intro power
    obtain ⟨L, size⟩ := power
    exact (qapDomainSize_le_quotientDomain located).trans (documented.size_le size)
  · intro small
    obtain ⟨radix2, L, created, size⟩ := documented.radix2 small
    rw [quotientDomain_of_newDomain created] at located
    cases located
    exact ⟨L, size⟩

variable [DecidableEq G1]

/-- On every domain the setup can build, its FFTs stay in bounds exactly when the constraints and the inputs fit
the radix-2 subgroup; beyond it, the computation of the witness bases stops on every key. -/
theorem fftsInBounds_iff (documented : GeneralDomains backend twoAdicity)
    (located : quotientDomain backend m = some domain) (pk : ProvingKey G1 G2) :
    (FftsInBounds domain pk.hQuery ↔ m.qapDomainSize ≤ 2 ^ twoAdicity) ∧
      (2 ^ twoAdicity < m.qapDomainSize → computeWitnessBases backend m pk = none) := by
  have exact := (fftsInBounds_iff_size domain pk.hQuery).trans (quotientDomain_size_iff documented located)
  refine ⟨exact, ?_⟩
  intro large
  have length := fitLength_length domain.size pk.hQuery
  have stops : parallelIfftG1 domain (fitLength domain.size pk.hQuery) = none := by
    rw [← Option.not_isSome_iff_eq_none, parallelIfftG1_isSome_iff domain length,
      quotientDomain_size_iff documented located]
    exact large.not_ge
  rw [computeWitnessBases, located]
  simp only [Option.bind_eq_bind, Option.bind_some]
  rw [stops]
  rfl

end Setup

section Mnt4

theorem unitRow_columns {F : Type} [One F] {rows : ℕ} :
    ∀ row ∈ List.replicate rows [((1 : F), 0)], ∀ term ∈ row, term.2 < 1 + 0 := by
  intro row member
  rw [List.eq_of_mem_replicate member]
  simp

/-- The given number of rows `1 * 1 = 1`. -/
def unitRows (F : Type) [One F] (rows : ℕ) : ConstraintMatrices F where
  numInstanceVariables := 1
  numWitnessVariables := 0
  numConstraints := rows
  a := List.replicate rows [(1, 0)]
  b := List.replicate rows [(1, 0)]
  c := List.replicate rows [(1, 0)]
  instancePositive := Nat.one_pos
  aLength := List.length_replicate
  bLength := List.length_replicate
  cLength := List.length_replicate
  aColumns := unitRow_columns
  bColumns := unitRow_columns
  cColumns := unitRow_columns

/-- A key with the full quotient query of the given length. -/
def unitKey (F : Type) [One F] (length : ℕ) : ProvingKey F F where
  vk := ⟨1, 1, 1, 1, []⟩
  betaG1 := 1
  deltaG1 := 1
  aQuery := []
  bG1Query := []
  bG2Query := []
  hQuery := List.replicate length 1
  lQuery := []

/-- On MNT4-298/MNT6-298, one row beyond the radix-2 subgroup gives a mixed-radix domain, on which the transforms
leave their bounds. -/
theorem fftsInBounds_mixedRadix :
    ∃ domain, quotientDomain mnt4BaseField.backend (unitRows mnt4Mnt6Cycle.OuterScalar (2 ^ 17)) = some domain ∧
      domain.size = 2 ^ 12 * 7 ^ 2 ∧
      ¬ FftsInBounds domain (unitKey mnt4Mnt6Cycle.OuterScalar (2 ^ 12 * 7 ^ 2 - 1)).hQuery := by
  have found : mnt4BaseField.exponents (2 ^ 17 + 1) = some (12, 2) := by decide +kernel
  have created : mnt4BaseField.newDomain (2 ^ 17 + 1) = some (mnt4BaseField.subgroup (12, 2)) := by
    rw [FftField.newDomain, found]
    rfl
  refine ⟨_, quotientDomain_of_newDomain created, rfl, ?_⟩
  rw [fftsInBounds_iff_size]
  intro power
  obtain ⟨L, size⟩ := power
  have seven : 7 ∣ 2 ^ L := ⟨2 ^ 12 * 7, size.symm.trans (by decide)⟩
  have base := (Nat.prime_dvd_prime_iff_eq Nat.prime_seven Nat.prime_two).mp (Nat.prime_seven.dvd_of_dvd_pow seven)
  cases base

/-- The largest system on the radix-2 subgroup stays in bounds. -/
theorem fftsInBounds_iff_radix2 :
    ∃ domain, quotientDomain mnt4BaseField.backend (unitRows mnt4Mnt6Cycle.OuterScalar (2 ^ 17 - 1)) = some domain ∧
      FftsInBounds domain (unitKey mnt4Mnt6Cycle.OuterScalar (2 ^ 17 - 1)).hQuery := by
  obtain ⟨domain, -, created, -⟩ := mnt4BaseField.generalDomains.radix2 (le_refl (2 ^ 17))
  have located : quotientDomain mnt4BaseField.backend (unitRows mnt4Mnt6Cycle.OuterScalar (2 ^ 17 - 1)) = some domain :=
    quotientDomain_of_newDomain created
  refine ⟨domain, located, ?_⟩
  exact ((fftsInBounds_iff mnt4BaseField.generalDomains located
    (unitKey mnt4Mnt6Cycle.OuterScalar (2 ^ 17 - 1))).1.mpr (le_refl _))

end Mnt4

end Pvugc.Outer
