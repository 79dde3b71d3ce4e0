import Pvugc.Groth16.R1csToQap

namespace Pvugc.Groth16
open Pvugc.Algebra Finset

/-- The toxic waste of the generator; `tau` is the evaluation point. -/
structure Trapdoor (F : Type*) where
  alpha : F
  beta : F
  gamma : F
  delta : F
  tau : F

variable {F G1 G2 : Type} [Field F]
variable [AddCommGroup G1] [Module F G1] [AddCommGroup G2] [Module F G2]

/-- The exponents of the instance and of the witness part of a key. -/
def keyScalars (alpha beta inverse : F) (a b c : List F) : List F :=
  ((a.zip b).zip c).map fun column => (beta * column.1.1 + alpha * column.1.2 + column.2) * inverse

def batchMul {F G : Type*} [SMul F G] (base : G) (scalars : List F) : List G := scalars.map (· • base)

/-- `generate_parameters_with_qap` with any reduction. -/
def R1CSToQAP.generateParametersWithQap [DecidableEq F] (reduction : R1CSToQAP F) (backend : PolynomialBackend F)
    (m : ConstraintMatrices F) (waste : Trapdoor F) (g1Generator : G1) (g2Generator : G2) :
    Except SynthesisError (ProvingKey G1 G2) := do
  let qap ← reduction.instanceMapWithEvaluation backend m waste.tau
  if waste.gamma = 0 ∨ waste.delta = 0 then .error .unexpectedIdentity
  else
    let gammaAbc := keyScalars waste.alpha waste.beta waste.gamma⁻¹
      (qap.a.take m.numInstanceVariables) (qap.b.take m.numInstanceVariables)
      (qap.c.take m.numInstanceVariables)
    let l := keyScalars waste.alpha waste.beta waste.delta⁻¹
      (qap.a.drop m.numInstanceVariables) (qap.b.drop m.numInstanceVariables)
      (qap.c.drop m.numInstanceVariables)
    .ok {
      vk := {
        alphaG1 := waste.alpha • g1Generator
        betaG2 := waste.beta • g2Generator
        gammaG2 := waste.gamma • g2Generator
        deltaG2 := waste.delta • g2Generator
        gammaAbcG1 := batchMul g1Generator gammaAbc }
      betaG1 := waste.beta • g1Generator
      deltaG1 := waste.delta • g1Generator
      aQuery := batchMul g1Generator qap.a
      bG1Query := batchMul g1Generator qap.b
      bG2Query := batchMul g2Generator qap.b
      hQuery := batchMul g1Generator
        (hQueryScalars (qap.domainSize - 1) waste.tau qap.zt waste.delta⁻¹)
      lQuery := batchMul g1Generator l }

/-- `generate_parameters_with_qap` with the reduction of the crate. -/
def generateParametersWithQap [DecidableEq F] (backend : PolynomialBackend F) (m : ConstraintMatrices F)
    (waste : Trapdoor F) (g1Generator : G1) (g2Generator : G2) : Except SynthesisError (ProvingKey G1 G2) :=
  pvugcReduction.generateParametersWithQap backend m waste g1Generator g2Generator

/-- Toxic waste for the small library. -/
def smallWaste : Trapdoor (ZMod 13) := { alpha := 2, beta := 3, gamma := 6, delta := 5, tau := 2 }

namespace Trapdoor

variable (waste : Trapdoor F) (domain : EvaluationDomain F) (m : ConstraintMatrices F)

def u (k : ℕ) : F := columnValue domain m.a waste.tau k

def v (k : ℕ) : F := columnValue domain m.b waste.tau k

def w (k : ℕ) : F := columnValue domain m.c waste.tau k

/-- The exponent `β u_k + α v_k + w_k` of a column. -/
def column (k : ℕ) : F :=
  waste.beta * waste.u domain m k + waste.alpha * waste.v domain m k + waste.w domain m k

def vanishing : F := waste.tau ^ domain.size - 1

/-- The proving key that the trapdoor determines. -/
def provingKey (g1 : G1) (g2 : G2) : ProvingKey G1 G2 where
  vk := {
    alphaG1 := waste.alpha • g1
    betaG2 := waste.beta • g2
    gammaG2 := waste.gamma • g2
    deltaG2 := waste.delta • g2
    gammaAbcG1 := tabulate m.numInstanceVariables fun k =>
      (waste.column domain m k * waste.gamma⁻¹) • g1 }
  betaG1 := waste.beta • g1
  deltaG1 := waste.delta • g1
  aQuery := tabulate m.numVars fun k => waste.u domain m k • g1
  bG1Query := tabulate m.numVars fun k => waste.v domain m k • g1
  bG2Query := tabulate m.numVars fun k => waste.v domain m k • g2
  hQuery := tabulate (domain.size - 1) fun i =>
    (waste.vanishing domain * waste.delta⁻¹ * waste.tau ^ i) • g1
  lQuery := tabulate m.numWitnessVariables fun k =>
    (waste.column domain m (m.numInstanceVariables + k) * waste.delta⁻¹) • g1

end Trapdoor

theorem keyScalars_tabulate (alpha beta inverse : F) (n : ℕ) (a b c : ℕ → F) :
    keyScalars alpha beta inverse (tabulate n a) (tabulate n b) (tabulate n c) =
      tabulate n fun k => (beta * a k + alpha * b k + c k) * inverse := by
  rw [keyScalars, tabulate_zip, tabulate_zip, tabulate_map]
  rfl

theorem batchMul_tabulate {F G : Type*} [SMul F G] (base : G) (n : ℕ) (f : ℕ → F) :
    batchMul base (tabulate n f) = tabulate n fun k => f k • base := by
  rw [batchMul, tabulate_map]
  rfl

/-- A reduction that gives the columns of a system makes the key of the system: the generator succeeds exactly when a
domain exists and `gamma` and `delta` are invertible. -/
theorem R1CSToQAP.generateParametersWithQap_eq_ok [DecidableEq F] {reduction : R1CSToQAP F}
    {backend : PolynomialBackend F} {m rows : ConstraintMatrices F} {waste : Trapdoor F}
    (inputs : rows.numInstanceVariables = m.numInstanceVariables)
    (refused : backend.newDomain m.qapDomainSize = none →
      reduction.instanceMapWithEvaluation backend m waste.tau = .error .polynomialDegreeTooLarge)
    (mapped : ∀ domain, backend.newDomain m.qapDomainSize = some domain →
      reduction.instanceMapWithEvaluation backend m waste.tau = .ok (rows.instanceMap domain waste.tau))
    {g1 : G1} {g2 : G2} {pk : ProvingKey G1 G2} :
    reduction.generateParametersWithQap backend m waste g1 g2 = .ok pk ↔
      waste.gamma ≠ 0 ∧ waste.delta ≠ 0 ∧ ∃ domain,
        backend.newDomain m.qapDomainSize = some domain ∧ pk = waste.provingKey domain rows g1 g2 := by
  cases created : backend.newDomain m.qapDomainSize with
  | none => simp [generateParametersWithQap, refused created, bind, Except.bind]
  | some domain =>
      have split : rows.numVars - rows.numInstanceVariables = rows.numWitnessVariables := by
        rw [ConstraintMatrices.numVars, Nat.add_sub_cancel_left]
      have instanceFits : rows.numInstanceVariables ≤ rows.numVars := Nat.le_add_right _ _
      have key : reduction.generateParametersWithQap backend m waste g1 g2 =
          if waste.gamma = 0 ∨ waste.delta = 0 then .error .unexpectedIdentity
          else .ok (waste.provingKey domain rows g1 g2) := by
        rw [generateParametersWithQap, mapped domain created, ← inputs]
        simp only [ConstraintMatrices.instanceMap, bind, Except.bind, tabulate_take _ instanceFits, tabulate_drop,
          split, keyScalars_tabulate, batchMul_tabulate, hQueryScalars]
        rfl
      rw [key]
      by_cases degenerate : waste.gamma = 0 ∨ waste.delta = 0
      · rw [if_pos degenerate]
        constructor
        · intro impossible
          cases impossible
        · rintro ⟨gammaNonzero, deltaNonzero, -⟩
          exact absurd degenerate (not_or.mpr ⟨gammaNonzero, deltaNonzero⟩)
      · rw [if_neg degenerate]
        obtain ⟨gammaNonzero, deltaNonzero⟩ := not_or.mp degenerate
        constructor
        · intro same
          cases same
          exact ⟨gammaNonzero, deltaNonzero, domain, rfl, rfl⟩
        · rintro ⟨-, -, _, located, rfl⟩
          cases located
          rfl

/-- The generator of the crate makes the trapdoor's key of the system itself. -/
theorem generateParametersWithQap_eq_ok [DecidableEq F] {backend : PolynomialBackend F} {m : ConstraintMatrices F}
    {waste : Trapdoor F} {g1 : G1} {g2 : G2} {pk : ProvingKey G1 G2} :
    generateParametersWithQap backend m waste g1 g2 = .ok pk ↔
      waste.gamma ≠ 0 ∧ waste.delta ≠ 0 ∧ ∃ domain,
        backend.newDomain m.qapDomainSize = some domain ∧ pk = waste.provingKey domain m g1 g2 := by
  apply R1CSToQAP.generateParametersWithQap_eq_ok rfl
  · intro missing
    simp [pvugcReduction, instanceMapWithEvaluation, missing]
  · intro domain created
    exact instanceMapWithEvaluation_eq created waste.tau

end Pvugc.Groth16
