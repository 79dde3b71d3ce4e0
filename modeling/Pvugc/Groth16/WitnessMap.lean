import Pvugc.Groth16.Completeness

namespace Pvugc.Groth16
open Pvugc.Algebra Finset Polynomial

/-- The polynomial that interpolates a column of a matrix on the domain. -/
noncomputable def columnPolynomial {F : Type} [Field F] (domain : EvaluationDomain F) (rows : List (Row F))
    (k : ℕ) : F[X] :=
  interpolant domain.groupGen domain.size fun i => entry rows i k

/-- The polynomial of a matrix under an assignment: `U`, `V` and `W` of the reduction. -/
noncomputable def Assignment.polynomial {F : Type} [Field F] {m : ConstraintMatrices F} (z : Assignment m)
    (domain : EvaluationDomain F) (rows : List (Row F)) : F[X] :=
  ∑ k ∈ range m.numVars, C (z.value k) * columnPolynomial domain rows k

section WitnessMap

variable {F : Type} [Field F] {backend : PolynomialBackend F} {m : ConstraintMatrices F}
variable {domain : EvaluationDomain F} (z : Assignment m)

/-- The polynomial of a matrix interpolates the row values. -/
theorem polynomial_eq_interpolant (rows : List (Row F)) :
    z.polynomial domain rows = interpolant domain.groupGen domain.size (z.rowValue rows) := by
  have values : z.rowValue rows = fun i => ∑ k ∈ range m.numVars, z.value k * entry rows i k := by
    funext i
    exact sum_congr rfl fun k _ => mul_comm _ _
  rw [values, interpolant_sum, Assignment.polynomial]
  rfl

theorem eval_polynomial (rows : List (Row F)) (x : F) :
    (z.polynomial domain rows).eval x = z.linear (columnValue domain rows x) := by
  rw [polynomial_eq_interpolant, eval_interpolant, z.linear_columnValue]

/-- Every list of values on the coset is the list of values of some coefficients. -/
theorem exists_cosetValues (domain : EvaluationDomain F) {offset : F} (nonzero : offset ≠ 0) (f : ℕ → F) :
    ∃ q : ℕ → F, ∀ k < domain.size, f k = cosetValues domain offset q k := by
  refine ⟨fun i => (offset⁻¹) ^ i * idft domain.groupGen domain.size f i, fun k inside => ?_⟩
  rw [← dft_idft domain.primitive f inside, cosetValues, dft]
  apply sum_congr rfl
  intro i _
  rw [smul_eq_mul, EvaluationDomain.element, mul_pow, ← pow_mul, Nat.mul_comm k i, inv_pow]
  field_simp

variable [DecidableEq F]

/-- A satisfied padded row system is a satisfied system. -/
theorem satisfies_of_rows (fits : m.numConstraints ≤ domain.size)
    (rows : ∀ i < domain.size, z.rowValue m.a i * z.rowValue m.b i = z.rowValue m.c i) : z.Satisfies := by
  intro i inside
  rw [z.evaluateConstraint_row m.aColumns, z.evaluateConstraint_row m.bColumns,
    z.evaluateConstraint_row m.cColumns]
  exact rows i (by omega)

/-- Polynomials with a quotient by the vanishing polynomial come from a satisfied system. -/
theorem satisfies_of_quotient (fits : m.numConstraints ≤ domain.size) {q : F[X]}
    (quotient : q * (X ^ domain.size - 1) =
      z.polynomial domain m.a * z.polynomial domain m.b - z.polynomial domain m.c) : z.Satisfies := by
  apply satisfies_of_rows z fits
  intro i inside
  have root : (domain.groupGen ^ i) ^ domain.size = 1 := by
    rw [← pow_mul, Nat.mul_comm, pow_mul, domain.primitive.pow_eq_one, one_pow]
  have value := congrArg (eval (domain.groupGen ^ i)) quotient
  simp only [polynomial_eq_interpolant, eval_mul, eval_sub, eval_pow, eval_X, eval_one, root, sub_self,
    mul_zero, eval_interpolant_node domain.primitive _ inside] at value
  exact sub_eq_zero.mp value.symm

omit [DecidableEq F] in
theorem ofCoeffs_tabulate (n : ℕ) (q : ℕ → F) : ofCoeffs n ((tabulate n q).getD · 0) = ofCoeffs n q := by
  apply sum_congr rfl
  intro i member
  dsimp only
  rw [tabulate_getD q (mem_range.mp member)]

/-- The divided products on a coset come from coefficients that are a quotient of the polynomials exactly when the
system is satisfied, and then the last one is zero. -/
theorem exists_cosetQuotient (fits : m.numConstraints ≤ domain.size) {offset : F} (nonzero : offset ≠ 0)
    (outside : offset ^ domain.size ≠ 1) :
    ∃ q : ℕ → F,
      (∀ k < domain.size, (z.linear (columnValue domain m.a (offset * domain.element k)) *
        z.linear (columnValue domain m.b (offset * domain.element k)) -
          z.linear (columnValue domain m.c (offset * domain.element k))) *
            (domain.evaluateVanishingPolynomial offset)⁻¹ = cosetValues domain offset q k) ∧
      (ofCoeffs domain.size q * (X ^ domain.size - 1) =
        z.polynomial domain m.a * z.polynomial domain m.b - z.polynomial domain m.c ↔ z.Satisfies) ∧
      (z.Satisfies → q (domain.size - 1) = 0) := by
  by_cases satisfied : z.Satisfies
  · obtain ⟨q, top, quotient⟩ := exists_quotient_polynomial domain.primitive domain.positive
      (a := z.rowValue m.a) (b := z.rowValue m.b) (c := z.rowValue m.c) fun k _ => satisfied.rows k
    simp only [← polynomial_eq_interpolant] at quotient
    refine ⟨q, fun k _ => cosetValues_of_quotient outside ?_ k, iff_of_true quotient satisfied, fun _ => top⟩
    intro x
    have value := congrArg (eval x) quotient
    rw [eval_mul, eval_ofCoeffs, eval_sub (z.polynomial domain m.a * _), eval_mul, eval_polynomial,
      eval_polynomial, eval_polynomial] at value
    rw [← value]
    simp [mul_comm]
  · obtain ⟨q, values⟩ := exists_cosetValues domain nonzero fun k =>
      (z.linear (columnValue domain m.a (offset * domain.element k)) *
        z.linear (columnValue domain m.b (offset * domain.element k)) -
          z.linear (columnValue domain m.c (offset * domain.element k))) *
            (domain.evaluateVanishingPolynomial offset)⁻¹
    refine ⟨q, values, iff_of_false (fun quotient => ?_) satisfied, fun impossible => absurd impossible satisfied⟩
    exact satisfied (satisfies_of_quotient z fits quotient)

/-- The returned coefficients are a quotient of the polynomials exactly when the system is satisfied, and
then the last one is zero. -/
theorem witnessMapFromMatrices_quotient_iff (created : backend.newDomain m.qapDomainSize = some domain) :
    ∃ h, witnessMapFromMatrices backend m z.fullAssignment = .ok h ∧ h.length = domain.size ∧
      (ofCoeffs domain.size (h.getD · 0) * (X ^ domain.size - 1) =
        z.polynomial domain m.a * z.polynomial domain m.b - z.polynomial domain m.c ↔ z.Satisfies) ∧
      (z.Satisfies → h.getD (domain.size - 1) 0 = 0) := by
  obtain ⟨q, values, quotient, top⟩ := exists_cosetQuotient z (newDomain_numConstraints created)
    backend.generator_ne_zero (backend.generator_outside created)
  refine ⟨tabulate domain.size q, witnessMapFromMatrices_of_values created values, tabulate_length _ _, ?_, ?_⟩
  · rw [ofCoeffs_tabulate]
    exact quotient
  · intro satisfied
    rw [tabulate_getD q (Nat.sub_lt domain.positive Nat.one_pos), top satisfied]

end WitnessMap

section Groth16

variable {F G1 G2 GT : Type} [Field F] [DecidableEq F] [AddCommGroup G1] [Module F G1]
variable [AddCommGroup G2] [Module F G2] [AddCommGroup GT] [Module F GT] [DecidableEq GT]
variable {backend : PolynomialBackend F} {m : ConstraintMatrices F} {domain : EvaluationDomain F}

/-- The witness map of the reduction is a quotient exactly for satisfied systems, and every proof of a
satisfied system is accepted under every key of the generator. -/
theorem pvugcReduction_complete (created : backend.newDomain m.qapDomainSize = some domain)
    (z : Assignment m) (e : Pairing F G1 G2 GT) (g1 : G1) (g2 : G2) :
    ∃ h, witnessMapFromMatrices backend m z.fullAssignment = .ok h ∧ h.length = domain.size ∧
      (ofCoeffs domain.size (h.getD · 0) * (X ^ domain.size - 1) =
        z.polynomial domain m.a * z.polynomial domain m.b - z.polynomial domain m.c ↔ z.Satisfies) ∧
      (z.Satisfies → h.getD (domain.size - 1) 0 = 0 ∧
        ∀ (waste : Trapdoor F) (r s : F), waste.gamma ≠ 0 → waste.delta ≠ 0 →
          ∃ pk proof, generateParametersWithQap backend m waste g1 g2 = .ok pk ∧
            pk.hQuery.length = domain.size - 1 ∧
            createProofWithReduction backend pk r s z = .ok proof ∧
            verifyProof e (prepareVerifyingKey e pk.vk) proof z.publicInputs = .ok true) := by
  obtain ⟨h, returned, length, quotient, top⟩ := witnessMapFromMatrices_quotient_iff z created
  refine ⟨h, returned, length, quotient, fun satisfied => ⟨top satisfied, ?_⟩⟩
  intro waste r s gammaNonzero deltaNonzero
  refine ⟨waste.provingKey domain m g1 g2, _, generateParametersWithQap_eq_ok.mpr
    ⟨gammaNonzero, deltaNonzero, domain, created, rfl⟩, tabulate_length _ _,
    createProofWithReduction_eq created waste g1 g2 r s satisfied, ?_⟩
  rw [← verify_eq_verifyProof, waste.verify_provingKey domain m e gammaNonzero g1 g2 (publicInputs_length z)]
  simp only [e.smul_left_right, waste.proof_equation domain z r s deltaNonzero,
    waste.instanceScalar_publicInputs domain z]
  rw [add_smul]

/-- One row: the square of the witness is the public input. -/
def squareSystem : ConstraintMatrices (ZMod 13) where
  numInstanceVariables := 2
  numWitnessVariables := 1
  numConstraints := 1
  a := [[(1, 2)]]
  b := [[(1, 2)]]
  c := [[(1, 1)]]
  instancePositive := Nat.two_pos
  aLength := rfl
  bLength := rfl
  cLength := rfl
  aColumns := by decide
  bColumns := by decide
  cColumns := by decide

def squareOfThree : Assignment squareSystem where
  instanceAssignment := [1, 9]
  witnessAssignment := [3]
  instanceLength := rfl
  witnessLength := rfl
  constantOne := rfl

theorem pvugcReduction_squareOfThree :
    ∃ h, witnessMapFromMatrices smallBackend squareSystem squareOfThree.fullAssignment = .ok h ∧
      h.getD 3 0 = 0 ∧
      ∃ pk proof, generateParametersWithQap smallBackend squareSystem smallWaste (1 : ZMod 13) (1 : ZMod 13) =
          .ok pk ∧
        createProofWithReduction smallBackend pk 6 7 squareOfThree = .ok proof ∧
        verifyProof (mulPairing (ZMod 13) 13) (prepareVerifyingKey (mulPairing (ZMod 13) 13) pk.vk) proof [9] =
          .ok true := by
  have created : smallBackend.newDomain squareSystem.qapDomainSize = some fourthRoots := rfl
  obtain ⟨h, returned, -, -, complete⟩ :=
    pvugcReduction_complete created squareOfThree (mulPairing (ZMod 13) 13) 1 1
  obtain ⟨top, proofs⟩ := complete (by decide)
  obtain ⟨pk, proof, generated, -, proved, accepted⟩ := proofs smallWaste 6 7 (by decide) (by decide)
  exact ⟨h, returned, top, pk, proof, generated, proved, accepted⟩

end Groth16

end Pvugc.Groth16
