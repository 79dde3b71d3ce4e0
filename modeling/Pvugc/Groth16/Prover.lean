import Pvugc.Algebra.Quotient
import Pvugc.Groth16.Generator

namespace Pvugc.Groth16
open Pvugc.Algebra Finset

section Code

variable {F G1 G2 : Type} [Field F] [DecidableEq F]
variable [AddCommGroup G1] [Module F G1] [AddCommGroup G2] [Module F G2]

/-- `calculate_coeff` panics on an empty query. -/
def calculateCoeff {G : Type} [AddCommGroup G] [Module F G] (initial : G) (query : List G)
    (vkParam : G) (assignment : List F) : Except Failure G :=
  match query with
  | [] => .error .panic
  | el :: rest => .ok (initial + el + msm rest assignment + vkParam)

/-- `create_proof_with_assignment`; `B` in the first group is only computed for nonzero `r`. -/
def createProofWithAssignment (pk : ProvingKey G1 G2) (r s : F)
    (h inputAssignment auxAssignment : List F) : Except Failure (Proof G1 G2) := do
  let hAcc := msm pk.hQuery h
  let lAuxAcc := msm pk.lQuery auxAssignment
  let rSDeltaG1 := (r * s) • pk.deltaG1
  let assignment := inputAssignment ++ auxAssignment
  let gA ← calculateCoeff (r • pk.deltaG1) pk.aQuery pk.vk.alphaG1 assignment
  let g1B ← if r ≠ 0 then calculateCoeff (s • pk.deltaG1) pk.bG1Query pk.betaG1 assignment
    else .ok 0
  let g2B ← calculateCoeff (s • pk.vk.deltaG2) pk.bG2Query pk.vk.betaG2 assignment
  return { a := gA, b := g2B, c := s • gA + r • g1B - rSDeltaG1 + lAuxAcc + hAcc }

/-- `create_proof_with_reduction_and_matrices` with any reduction. -/
def R1CSToQAP.createProofWithReductionAndMatrices (reduction : R1CSToQAP F) (backend : PolynomialBackend F)
    (pk : ProvingKey G1 G2) (r s : F) (m : ConstraintMatrices F) (fullAssignment : List F) :
    Except Failure (Proof G1 G2) :=
  match reduction.witnessMapFromMatrices backend m fullAssignment with
  | .error error => .error (.synthesis error)
  | .ok h => createProofWithAssignment pk r s h
      ((fullAssignment.take m.numInstanceVariables).drop 1)
      (fullAssignment.drop m.numInstanceVariables)

/-- `create_proof_with_reduction` with any reduction on a synthesized assignment. -/
def R1CSToQAP.createProofWithReduction (reduction : R1CSToQAP F) (backend : PolynomialBackend F)
    (pk : ProvingKey G1 G2) (r s : F) {m : ConstraintMatrices F} (z : Assignment m) : Except Failure (Proof G1 G2) :=
  match reduction.witnessMapFromMatrices backend m z.fullAssignment with
  | .error error => .error (.synthesis error)
  | .ok h => createProofWithAssignment pk r s h z.publicInputs z.witnessAssignment

/-- `create_proof_with_reduction_and_matrices` with the reduction of the crate. -/
def createProofWithReductionAndMatrices (backend : PolynomialBackend F) (pk : ProvingKey G1 G2)
    (r s : F) (m : ConstraintMatrices F) (fullAssignment : List F) : Except Failure (Proof G1 G2) :=
  pvugcReduction.createProofWithReductionAndMatrices backend pk r s m fullAssignment

/-- `create_proof_with_reduction` with the reduction of the crate. -/
def createProofWithReduction (backend : PolynomialBackend F) (pk : ProvingKey G1 G2) (r s : F)
    {m : ConstraintMatrices F} (z : Assignment m) : Except Failure (Proof G1 G2) :=
  pvugcReduction.createProofWithReduction backend pk r s z

/-- `create_proof_with_reduction_no_zk`. -/
def createProofWithReductionNoZk (backend : PolynomialBackend F) (pk : ProvingKey G1 G2)
    {m : ConstraintMatrices F} (z : Assignment m) : Except Failure (Proof G1 G2) :=
  createProofWithReduction backend pk 0 0 z

end Code

namespace Assignment

variable {F : Type} [Field F] {m : ConstraintMatrices F} (z : Assignment m)

/-- The linear combination of the columns with the assignment. -/
def linear (f : ℕ → F) : F := ∑ k ∈ range m.numVars, z.value k * f k

/-- The linear combination over the witness columns. -/
def witnessLinear (f : ℕ → F) : F :=
  ∑ k ∈ range m.numWitnessVariables, z.value (m.numInstanceVariables + k) * f (m.numInstanceVariables + k)

/-- The linear combination over the instance columns. -/
def instanceLinear (f : ℕ → F) : F := ∑ k ∈ range m.numInstanceVariables, z.value k * f k

theorem linear_split (f : ℕ → F) : z.linear f = z.instanceLinear f + z.witnessLinear f := by
  rw [linear, ConstraintMatrices.numVars, sum_range_add]
  rfl

theorem fullAssignment_drop : z.fullAssignment.drop m.numInstanceVariables = z.witnessAssignment := by
  rw [fullAssignment, ← z.instanceLength, List.drop_left]

theorem fullAssignment_take_drop :
    (z.fullAssignment.take m.numInstanceVariables).drop 1 = z.publicInputs := by
  rw [fullAssignment, ← z.instanceLength, List.take_left, publicInputs]

/-- The inputs and the witness list every value but the constant. -/
theorem inputs_append_witness : z.publicInputs ++ z.witnessAssignment =
    tabulate (m.numVars - 1) (fun i => z.value (i + 1)) := by
  have whole : z.publicInputs ++ z.witnessAssignment = z.fullAssignment.drop 1 := by
    have positive := m.instancePositive
    rw [fullAssignment, List.drop_append_of_le_length (by rw [z.instanceLength]; omega), publicInputs]
  rw [whole, fullAssignment_eq, tabulate_drop]
  apply tabulate_congr
  intro i _
  rw [Nat.add_comm]

/-- The assigned column polynomials interpolate the row values. -/
theorem linear_columnValue (domain : EvaluationDomain F) (rows : List (Row F)) (t : F) :
    z.linear (columnValue domain rows t) =
      ∑ i ∈ range domain.size, z.rowValue rows i * lagrange domain.groupGen domain.size i t := by
  simp only [linear, columnValue, rowValue, mul_sum, sum_mul]
  rw [sum_comm]
  apply sum_congr rfl
  intro i _
  apply sum_congr rfl
  intro k _
  ring

variable [DecidableEq F]

theorem paddedValues_eq {rows : List (Row F)} {size : ℕ} (fits : rows.length ≤ size)
    (columns : ∀ row ∈ rows, ∀ term ∈ row, term.2 < m.numInstanceVariables + m.numWitnessVariables) :
    paddedValues size rows z.fullAssignment = tabulate size (z.rowValue rows) := by
  have padding : List.replicate (size - rows.length) (0 : F) =
      tabulate (size - rows.length) (fun _ => 0) := by
    simp [tabulate]
  have values : rows.map (evaluateConstraint · z.fullAssignment) =
      tabulate rows.length (z.rowValue rows) := by
    conv_lhs => rw [← tabulate_of_list rows []]
    rw [tabulate_map]
    apply tabulate_congr
    intro i _
    exact z.evaluateConstraint_row columns i
  rw [paddedValues, padding, values, tabulate_append, Nat.add_sub_cancel' fits]
  apply tabulate_congr
  intro i _
  split
  case isTrue => rfl
  case isFalse beyond =>
    symm
    apply sum_eq_zero
    intro k _
    rw [entry_eq_zero_of_length_le (Nat.le_of_not_lt beyond), zero_mul]

end Assignment

section WitnessMap

variable {F : Type} [Field F] [DecidableEq F] {backend : PolynomialBackend F}
variable {m : ConstraintMatrices F} {domain : EvaluationDomain F}

/-- The values of a padded matrix on the coset are the values of its interpolant. -/
theorem onCoset_eq (z : Assignment m) {rows : List (Row F)} (fits : rows.length ≤ domain.size)
    (columns : ∀ row ∈ rows, ∀ term ∈ row, term.2 < m.numInstanceVariables + m.numWitnessVariables) :
    backend.cosetFft domain backend.generator
      (backend.ifft domain (paddedValues domain.size rows z.fullAssignment)) =
        tabulate domain.size fun k =>
          z.linear (columnValue domain rows (backend.generator * domain.element k)) := by
  rw [z.paddedValues_eq fits columns, backend.ifft_spec, backend.cosetFft_spec]
  apply tabulate_congr
  intro k _
  rw [cosetValues, ← sum_smul_lagrange, z.linear_columnValue]

/-- The witness map returns the coefficients whose values on the coset are the divided products. -/
theorem witnessMapFromMatrices_of_values (created : backend.newDomain m.qapDomainSize = some domain)
    {z : Assignment m} {q : ℕ → F}
    (values : ∀ k < domain.size,
      (z.linear (columnValue domain m.a (backend.generator * domain.element k)) *
        z.linear (columnValue domain m.b (backend.generator * domain.element k)) -
          z.linear (columnValue domain m.c (backend.generator * domain.element k))) *
            (domain.evaluateVanishingPolynomial backend.generator)⁻¹ =
              cosetValues domain backend.generator q k) :
    witnessMapFromMatrices backend m z.fullAssignment = .ok (tabulate domain.size q) := by
  have fits := newDomain_numConstraints created
  simp only [witnessMapFromMatrices, created]
  rw [onCoset_eq z (by rw [m.aLength]; exact fits) m.aColumns,
    onCoset_eq z (by rw [m.bLength]; exact fits) m.bColumns,
    onCoset_eq z (by rw [m.cLength]; exact fits) m.cColumns, tabulate_zipWith, tabulate_zipWith,
    tabulate_congr values, backend.cosetIfft_spec domain _ q backend.generator_ne_zero]

omit [DecidableEq F] in
/-- The divided products of the assigned columns on a coset are the values of their quotient. -/
theorem cosetValues_of_quotient {offset : F} (outside : offset ^ domain.size ≠ 1) {z : Assignment m} {q : ℕ → F}
    {a b c : List (Row F)}
    (quotient : ∀ x, (x ^ domain.size - 1) * ∑ i ∈ range domain.size, q i * x ^ i =
      z.linear (columnValue domain a x) * z.linear (columnValue domain b x) - z.linear (columnValue domain c x))
    (k : ℕ) :
    (z.linear (columnValue domain a (offset * domain.element k)) *
      z.linear (columnValue domain b (offset * domain.element k)) -
        z.linear (columnValue domain c (offset * domain.element k))) *
          (domain.evaluateVanishingPolynomial offset)⁻¹ = cosetValues domain offset q k := by
  have onCoset : (offset * domain.element k) ^ domain.size - 1 = domain.evaluateVanishingPolynomial offset := by
    rw [mul_pow, EvaluationDomain.element, ← pow_mul, Nat.mul_comm k, pow_mul,
      domain.primitive.pow_eq_one, one_pow, mul_one]
    rfl
  have nonzero : domain.evaluateVanishingPolynomial offset ≠ 0 := sub_ne_zero.mpr outside
  rw [← quotient, onCoset, mul_comm, ← mul_assoc, inv_mul_cancel₀ nonzero, one_mul]
  rfl

/-- A quotient of the assigned columns is what the witness map returns. -/
theorem witnessMapFromMatrices_of_quotient (created : backend.newDomain m.qapDomainSize = some domain)
    {z : Assignment m} {q : ℕ → F}
    (quotient : ∀ x, (x ^ domain.size - 1) * ∑ i ∈ range domain.size, q i * x ^ i =
      z.linear (columnValue domain m.a x) * z.linear (columnValue domain m.b x) -
        z.linear (columnValue domain m.c x)) :
    witnessMapFromMatrices backend m z.fullAssignment = .ok (tabulate domain.size q) := by
  apply witnessMapFromMatrices_of_values created
  intro k _
  exact cosetValues_of_quotient (backend.generator_outside created) quotient k

/-- The witness map returns the coefficients of the quotient of a satisfied system. -/
theorem witnessMapFromMatrices_eq (created : backend.newDomain m.qapDomainSize = some domain)
    {z : Assignment m} (satisfied : z.Satisfies) :
    ∃ q : ℕ → F, q (domain.size - 1) = 0 ∧
      witnessMapFromMatrices backend m z.fullAssignment = .ok (tabulate domain.size q) ∧
      ∀ x, (x ^ domain.size - 1) * ∑ i ∈ range domain.size, q i * x ^ i =
        z.linear (columnValue domain m.a x) * z.linear (columnValue domain m.b x) -
          z.linear (columnValue domain m.c x) := by
  obtain ⟨q, top, quotient⟩ := exists_quotient domain.primitive domain.positive
    (a := z.rowValue m.a) (b := z.rowValue m.b) (c := z.rowValue m.c)
    (fun k _ => satisfied.rows k)
  simp only [← z.linear_columnValue] at quotient
  exact ⟨q, top, witnessMapFromMatrices_of_quotient created quotient, quotient⟩

end WitnessMap

namespace Trapdoor

variable {F : Type} [Field F] (waste : Trapdoor F) (domain : EvaluationDomain F)
variable {m : ConstraintMatrices F} (z : Assignment m)

/-- The exponent of `A`. -/
def aScalar (r : F) : F := waste.alpha + z.linear (waste.u domain m) + r * waste.delta

/-- The exponent of `B`. -/
def bScalar (s : F) : F := waste.beta + z.linear (waste.v domain m) + s * waste.delta

/-- The exponent of the randomized part of `C` and of the witness part of the key. -/
def cLinearScalar (r s : F) : F :=
  s * waste.aScalar domain z r + r * waste.bScalar domain z s - r * s * waste.delta +
    z.witnessLinear (waste.column domain m) * waste.delta⁻¹

/-- The exponent of the quotient term. -/
def quotientScalar : F :=
  (z.linear (waste.u domain m) * z.linear (waste.v domain m) - z.linear (waste.w domain m)) *
    waste.delta⁻¹

/-- The exponent of the committed quotient coefficients; the query of the key is one shorter than they are. -/
def committedScalar (q : ℕ → F) : F :=
  waste.vanishing domain * (∑ i ∈ range (domain.size - 1), q i * waste.tau ^ i) * waste.delta⁻¹

end Trapdoor

section Proofs

variable {F G1 G2 : Type} [Field F] [DecidableEq F]
variable [AddCommGroup G1] [Module F G1] [AddCommGroup G2] [Module F G2]
variable {backend : PolynomialBackend F} {m : ConstraintMatrices F} {domain : EvaluationDomain F}

omit [DecidableEq F] in
theorem calculateCoeff_tabulate {G : Type} [AddCommGroup G] [Module F G] (z : Assignment m)
    (initial vkParam g : G) (column : ℕ → F) :
    calculateCoeff initial (tabulate m.numVars fun k => column k • g) vkParam
      (z.publicInputs ++ z.witnessAssignment) =
        .ok (initial + z.linear column • g + vkParam) := by
  have positive : 0 < m.numVars := Nat.lt_of_lt_of_le m.instancePositive (Nat.le_add_right _ _)
  have successor : m.numVars - 1 + 1 = m.numVars := Nat.sub_add_cancel positive
  have shifted : tabulate m.numVars (fun k => column k • g) =
      column 0 • g :: tabulate (m.numVars - 1) fun k => column (k + 1) • g := by
    rw [← successor, tabulate_succ, Nat.add_sub_cancel]
  have total : column 0 • g + ∑ i ∈ range (m.numVars - 1), z.value (i + 1) • column (i + 1) • g =
      z.linear column • g := by
    rw [Assignment.linear, ← successor, sum_range_succ', z.value_zero, one_mul, add_smul, sum_smul,
      add_comm]
    simp only [smul_smul, Nat.add_sub_cancel]
  rw [shifted, calculateCoeff, z.inputs_append_witness, msm_tabulate, add_assoc initial, total]

/-- The proof under the key of a trapdoor, as multiples of the generators; nothing is asked of the assignment. -/
theorem createProofWithAssignment_provingKey (waste : Trapdoor F) (g1 : G1) (g2 : G2) (r s : F) (z : Assignment m)
    (q : ℕ → F) :
    createProofWithAssignment (waste.provingKey domain m g1 g2) r s (tabulate domain.size q) z.publicInputs
      z.witnessAssignment = .ok {
      a := waste.aScalar domain z r • g1
      b := waste.bScalar domain z s • g2
      c := (waste.cLinearScalar domain z r s + waste.committedScalar domain q) • g1 } := by
  have hAcc : msm (waste.provingKey domain m g1 g2).hQuery (tabulate domain.size q) =
      waste.committedScalar domain q • g1 := by
    rw [Trapdoor.provingKey, msm_tabulate_of_le (Nat.sub_le _ _)]
    simp only [smul_smul]
    rw [← sum_smul, Trapdoor.committedScalar, mul_sum, sum_mul]
    congr 1
    apply sum_congr rfl
    intro i _
    ring
  have lAux : msm (waste.provingKey domain m g1 g2).lQuery z.witnessAssignment =
      (z.witnessLinear (waste.column domain m) * waste.delta⁻¹) • g1 := by
    rw [Trapdoor.provingKey, z.witnessAssignment_eq, msm_tabulate]
    simp only [smul_smul]
    rw [← sum_smul, Assignment.witnessLinear, sum_mul]
    congr 1
    apply sum_congr rfl
    intro k _
    ring
  simp only [createProofWithAssignment, hAcc, lAux]
  simp only [Trapdoor.provingKey, calculateCoeff_tabulate, bind, Except.bind, pure, Except.pure]
  by_cases zero : r = 0
  · subst zero
    simp only [ne_eq, not_true_eq_false, if_false]
    congr 2
    · simp only [Trapdoor.aScalar]
      module
    · simp only [Trapdoor.bScalar]
      module
    · simp only [Trapdoor.cLinearScalar, Trapdoor.aScalar]
      module
  · simp only [ne_eq, zero, not_false_eq_true, if_true]
    congr 2
    · simp only [Trapdoor.aScalar]
      module
    · simp only [Trapdoor.bScalar]
      module
    · simp only [Trapdoor.cLinearScalar, Trapdoor.aScalar, Trapdoor.bScalar]
      module

/-- A reduction whose assignments are assignments of a system proves with the coefficients of its witness map under the
key of the system. -/
theorem R1CSToQAP.createProofWithReduction_of_witnessMap {reduction : R1CSToQAP F} (waste : Trapdoor F) (g1 : G1)
    (g2 : G2) (r s : F) {z : Assignment m} {rows : ConstraintMatrices F} (w : Assignment rows)
    (inputs : w.publicInputs = z.publicInputs) (witness : w.witnessAssignment = z.witnessAssignment) {q : ℕ → F}
    (witnessMap : reduction.witnessMapFromMatrices backend m z.fullAssignment = .ok (tabulate domain.size q)) :
    reduction.createProofWithReduction backend (waste.provingKey domain rows g1 g2) r s z = .ok {
      a := waste.aScalar domain w r • g1
      b := waste.bScalar domain w s • g2
      c := (waste.cLinearScalar domain w r s + waste.committedScalar domain q) • g1 } := by
  rw [createProofWithReduction, witnessMap, ← inputs, ← witness]
  exact createProofWithAssignment_provingKey waste g1 g2 r s w q

/-- The proof under a generated key commits to the coefficients of the witness map. -/
theorem createProofWithReduction_of_witnessMap (waste : Trapdoor F) (g1 : G1) (g2 : G2) (r s : F)
    {z : Assignment m} {q : ℕ → F}
    (witnessMap : witnessMapFromMatrices backend m z.fullAssignment = .ok (tabulate domain.size q)) :
    createProofWithReduction backend (waste.provingKey domain m g1 g2) r s z = .ok {
      a := waste.aScalar domain z r • g1
      b := waste.bScalar domain z s • g2
      c := (waste.cLinearScalar domain z r s + waste.committedScalar domain q) • g1 } :=
  R1CSToQAP.createProofWithReduction_of_witnessMap waste g1 g2 r s z rfl rfl witnessMap

/-- The proof of a satisfied system commits to the quotient. -/
theorem createProofWithReduction_eq (created : backend.newDomain m.qapDomainSize = some domain)
    (waste : Trapdoor F) (g1 : G1) (g2 : G2) (r s : F) {z : Assignment m}
    (satisfied : z.Satisfies) :
    createProofWithReduction backend (waste.provingKey domain m g1 g2) r s z = .ok {
      a := waste.aScalar domain z r • g1
      b := waste.bScalar domain z s • g2
      c := (waste.cLinearScalar domain z r s + waste.quotientScalar domain z) • g1 } := by
  obtain ⟨q, top, witnessMap, quotient⟩ := witnessMapFromMatrices_eq created satisfied
  have last : ∑ i ∈ range domain.size, q i * waste.tau ^ i =
      ∑ i ∈ range (domain.size - 1), q i * waste.tau ^ i := by
    conv_lhs => rw [← Nat.sub_add_cancel (show 1 ≤ domain.size from domain.positive)]
    rw [sum_range_succ, top, zero_mul, add_zero]
  have committed : waste.committedScalar domain q = waste.quotientScalar domain z := by
    rw [Trapdoor.committedScalar, ← last]
    exact congrArg (· * waste.delta⁻¹) (quotient waste.tau)
  rw [createProofWithReduction_of_witnessMap waste g1 g2 r s witnessMap, committed]

theorem createProofWithReductionAndMatrices_eq (backend : PolynomialBackend F)
    (pk : ProvingKey G1 G2) (r s : F) (z : Assignment m) :
    createProofWithReductionAndMatrices backend pk r s m z.fullAssignment =
      createProofWithReduction backend pk r s z := by
  rw [createProofWithReductionAndMatrices, R1CSToQAP.createProofWithReductionAndMatrices, z.fullAssignment_take_drop,
    z.fullAssignment_drop, createProofWithReduction, R1CSToQAP.createProofWithReduction]

end Proofs

end Pvugc.Groth16
