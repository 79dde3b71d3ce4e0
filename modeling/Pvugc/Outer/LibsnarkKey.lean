import Pvugc.Groth16.LibsnarkReduction
import Pvugc.Outer.Setup

namespace Pvugc.Outer
open Pvugc.Algebra Pvugc.Groth16 Finset

section Reductions

variable {F G1 G2 : Type} [Field F] [DecidableEq F] [AddCommGroup G1] [Module F G1] [DecidableEq G1]
variable [AddCommGroup G2] [Module F G2] {backend : PolynomialBackend F} {m : ConstraintMatrices F}
variable {domain : EvaluationDomain F} {waste : Trapdoor F} {g1 : G1} {g2 : G2}

omit [DecidableEq F] [DecidableEq G1] [AddCommGroup G2] [Module F G2] in
/-- The implicit row of a public input puts a point into the `A` query. -/
theorem u_withCopies_ne_zero (shape : OuterShape m) (outside : waste.tau ^ domain.size ≠ 1)
    (fits : m.numConstraints + m.numInstanceVariables ≤ domain.size) {k : ℕ} (positive : 0 < k)
    (inside : k < m.numInstanceVariables) : waste.u domain m.withCopies k ≠ 0 := by
  have rows : columnValue domain m.a waste.tau k = 0 := waste.u_eq_zero domain shape positive inside
  rw [Trapdoor.u, ConstraintMatrices.withCopies, columnValue_append_copyRows domain (by rw [m.aLength]; exact fits),
    if_pos inside, rows, add_zero]
  exact lagrange_ne_zero domain.primitive domain.positive outside _

/-- The lean key of an outer-shaped system is built from a key of the crate's reduction and refused for a key of
libsnark. -/
theorem buildLeanProvingKey_reductions (created : backend.newDomain m.qapDomainSize = some domain) {L : ℕ}
    (size : domain.size = 2 ^ L) (outside : waste.tau ^ domain.size ≠ 1) (two : (2 : F) ≠ 0)
    (fits : m.numVars ≤ 2 ^ 32) (shape : OuterShape m) (inputs : 1 < m.numInstanceVariables) (nonzero : g1 ≠ 0)
    {pk libsnarkPk : ProvingKey G1 G2}
    (generated : pvugcReduction.generateParametersWithQap backend m waste g1 g2 = .ok pk)
    (libsnark : libsnarkReduction.generateParametersWithQap backend m waste g1 g2 = .ok libsnarkPk) :
    (∃ leanPk, buildLeanProvingKey backend pk m = some leanPk) ∧ buildLeanProvingKey backend libsnarkPk m = none := by
  constructor
  · obtain ⟨-, -, other, located, rfl⟩ := generateParametersWithQap_eq_ok.mp generated
    obtain rfl : domain = other := Option.some.inj (created.symm.trans located)
    exact ⟨_, buildLeanProvingKey_eq created size outside two fits shape g1 g2⟩
  · obtain ⟨-, -, other, located, rfl⟩ := libsnarkParameters_eq_ok.mp libsnark
    obtain rfl : domain = other := Option.some.inj (created.symm.trans located)
    have refused : auditAQuery m.numInstanceVariables (waste.provingKey domain m.withCopies g1 g2).aQuery = false := by
      have member : waste.u domain m.withCopies 1 • g1 ∈
          ((waste.provingKey domain m.withCopies g1 g2).aQuery.take m.numInstanceVariables).drop 1 := by
        have included : m.numInstanceVariables ≤ m.withCopies.numVars := Nat.le_add_right _ _
        simp only [Trapdoor.provingKey, tabulate_take _ included, tabulate_drop, mem_tabulate]
        exact ⟨0, by omega, rfl⟩
      have point : waste.u domain m.withCopies 1 • g1 ≠ 0 :=
        smul_ne_zero (u_withCopies_ne_zero shape outside (backend.newDomain_fits created) Nat.one_pos inputs) nonzero
      rw [auditAQuery, List.all_eq_false]
      exact ⟨_, member, by simpa using point⟩
    have instances : (waste.provingKey domain m.withCopies g1 g2).vk.gammaAbcG1.length = m.numInstanceVariables :=
      tabulate_length _ _
    rw [buildLeanProvingKey]
    split
    case h_1 => rfl
    case h_2 =>
      dsimp only
      rw [instances, refused, Bool.not_false, if_pos rfl, ite_self]

/-- The two keys of one bound square. -/
theorem buildLeanProvingKey_reductions_boundSquare :
    ∃ pk libsnarkPk : ProvingKey (ZMod 13) (ZMod 13),
      pvugcReduction.generateParametersWithQap smallBackend boundSquare smallWaste 1 1 = .ok pk ∧
        libsnarkReduction.generateParametersWithQap smallBackend boundSquare smallWaste 1 1 = .ok libsnarkPk ∧
        (∃ leanPk, buildLeanProvingKey smallBackend pk boundSquare = some leanPk) ∧
        buildLeanProvingKey smallBackend libsnarkPk boundSquare = none := by
  have created : smallBackend.newDomain boundSquare.qapDomainSize = some fourthRoots := rfl
  have generated : pvugcReduction.generateParametersWithQap smallBackend boundSquare smallWaste (1 : ZMod 13)
      (1 : ZMod 13) = .ok (smallWaste.provingKey fourthRoots boundSquare 1 1) :=
    generateParametersWithQap_eq_ok.mpr ⟨by decide, by decide, fourthRoots, created, rfl⟩
  have libsnark : libsnarkReduction.generateParametersWithQap smallBackend boundSquare smallWaste (1 : ZMod 13)
      (1 : ZMod 13) = .ok (smallWaste.provingKey fourthRoots boundSquare.withCopies 1 1) :=
    libsnarkParameters_eq_ok.mpr ⟨by decide, by decide, fourthRoots, created, rfl⟩
  obtain ⟨built, refused⟩ := buildLeanProvingKey_reductions (L := 2) created rfl (by decide) (by decide) (by decide)
    boundSquareShape (by decide) (by decide) generated libsnark
  exact ⟨_, _, generated, libsnark, built, refused⟩

end Reductions

end Pvugc.Outer
