import Pvugc.Groth16.Soundness

namespace Pvugc.Groth16
open Pvugc.Algebra Finset Polynomial

section Code

variable {F : Type} [Field F] [DecidableEq F]

/-- `LibsnarkReduction::instance_map_with_evaluation`; the columns of the inputs start with the Lagrange values behind
those of the rows. -/
def libsnarkInstanceMap (backend : PolynomialBackend F) (m : ConstraintMatrices F) (t : F) :
    Except SynthesisError (InstanceMap F) :=
  match backend.newDomain m.qapDomainSize with
  | none => .error .polynomialDegreeTooLarge
  | some domain =>
    let u := backend.evaluateAllLagrangeCoefficients domain t
    let qapNumVariables := m.numInstanceVariables - 1 + m.numWitnessVariables
    let zero := List.replicate (qapNumVariables + 1) 0
    let copied := (u.drop m.numConstraints).take m.numInstanceVariables ++ zero.drop m.numInstanceVariables
    .ok {
      a := accumulateRows copied (u.take m.numConstraints) m.a
      b := accumulateRows zero (u.take m.numConstraints) m.b
      c := accumulateRows zero (u.take m.numConstraints) m.c
      zt := domain.evaluateVanishingPolynomial t
      qapNumVariables := qapNumVariables
      domainSize := domain.size }

/-- `LibsnarkReduction::witness_map_from_matrices`; the inputs stand behind the values of the rows. -/
def libsnarkWitnessMap (backend : PolynomialBackend F) (m : ConstraintMatrices F) (fullAssignment : List F) :
    Except SynthesisError (List F) :=
  match backend.newDomain m.qapDomainSize with
  | none => .error .polynomialDegreeTooLarge
  | some domain =>
    let padded rows := paddedValues domain.size rows fullAssignment
    let a := (padded m.a).take m.numConstraints ++ fullAssignment.take m.numInstanceVariables ++
      (padded m.a).drop (m.numConstraints + m.numInstanceVariables)
    let onCoset values := backend.cosetFft domain backend.generator (backend.ifft domain values)
    let ab := List.zipWith (· * ·) (onCoset a) (onCoset (padded m.b))
    let vanishingPolynomialOverCoset := (domain.evaluateVanishingPolynomial backend.generator)⁻¹
    .ok (backend.cosetIfft domain backend.generator
      (List.zipWith (fun ab c => (ab - c) * vanishingPolynomialOverCoset) ab (onCoset (padded m.c))))

def libsnarkReduction : R1CSToQAP F := ⟨libsnarkInstanceMap, libsnarkWitnessMap⟩

end Code

section Copies

variable {F : Type} [Field F] (m : ConstraintMatrices F)

/-- The implicit rows of the inputs: each of them alone in `A`, with nothing in `B` and `C`. -/
def copyRows (n : ℕ) : List (Row F) := tabulate n fun k => [(1, k)]

/-- The system with its implicit rows. -/
def ConstraintMatrices.withCopies : ConstraintMatrices F where
  numInstanceVariables := m.numInstanceVariables
  numWitnessVariables := m.numWitnessVariables
  numConstraints := m.numConstraints + m.numInstanceVariables
  a := m.a ++ copyRows m.numInstanceVariables
  b := m.b ++ List.replicate m.numInstanceVariables []
  c := m.c ++ List.replicate m.numInstanceVariables []
  instancePositive := m.instancePositive
  aLength := by rw [List.length_append, m.aLength, copyRows, tabulate_length]
  bLength := by rw [List.length_append, m.bLength, List.length_replicate]
  cLength := by rw [List.length_append, m.cLength, List.length_replicate]
  aColumns := by
    intro row member term inside
    rcases List.mem_append.mp member with ofRow | ofCopy
    · exact m.aColumns row ofRow term inside
    · obtain ⟨k, bound, rfl⟩ := mem_tabulate.mp ofCopy
      obtain rfl := List.mem_singleton.mp inside
      exact bound.trans_le (Nat.le_add_right _ _)
  bColumns := by
    intro row member term inside
    rcases List.mem_append.mp member with ofRow | ofCopy
    · exact m.bColumns row ofRow term inside
    · obtain rfl := List.eq_of_mem_replicate ofCopy
      cases inside
  cColumns := by
    intro row member term inside
    rcases List.mem_append.mp member with ofRow | ofCopy
    · exact m.cColumns row ofRow term inside
    · obtain rfl := List.eq_of_mem_replicate ofCopy
      cases inside

variable {m}

/-- The same values assign both systems. -/
def Assignment.withCopies (z : Assignment m) : Assignment m.withCopies where
  instanceAssignment := z.instanceAssignment
  witnessAssignment := z.witnessAssignment
  instanceLength := z.instanceLength
  witnessLength := z.witnessLength
  constantOne := z.constantOne

theorem entry_append_left {rows : List (Row F)} (more : List (Row F)) {i : ℕ} (inside : i < rows.length) (k : ℕ) :
    entry (rows ++ more) i k = entry rows i k := by
  rw [entry, entry, List.getD_append _ _ _ _ inside]

theorem entry_append_right (rows more : List (Row F)) (i k : ℕ) :
    entry (rows ++ more) (rows.length + i) k = entry more i k := by
  rw [entry, entry, List.getD_append_right _ _ _ _ (Nat.le_add_right _ _), Nat.add_sub_cancel_left]

theorem entry_replicate_nil (n i k : ℕ) : entry (List.replicate n ([] : Row F)) i k = 0 := by
  by_cases inside : i < n
  · rw [entry, List.getD_replicate _ inside, rowCoeff_nil]
  · exact entry_eq_zero_of_length_le (by rw [List.length_replicate]; omega) k

theorem entry_copyRows {n i : ℕ} (inside : i < n) (k : ℕ) :
    entry (copyRows n : List (Row F)) i k = if i = k then 1 else 0 := by
  rw [entry, copyRows, tabulate_getD _ inside, rowCoeff_cons, rowCoeff_nil, add_zero]

/-- Empty rows add nothing to a column. -/
theorem columnValue_append_nil (domain : EvaluationDomain F) {rows : List (Row F)} {n : ℕ}
    (fits : rows.length + n ≤ domain.size) (t : F) (k : ℕ) :
    columnValue domain (rows ++ List.replicate n []) t k = columnValue domain rows t k := by
  rw [columnValue_of_length_le domain (by rw [List.length_append, List.length_replicate]; exact fits),
    columnValue_of_length_le domain (by omega), List.length_append, List.length_replicate, sum_range_add]
  have tail : ∑ i ∈ range n, entry (rows ++ List.replicate n []) (rows.length + i) k *
      lagrange domain.groupGen domain.size (rows.length + i) t = 0 := by
    apply sum_eq_zero
    intro i _
    rw [entry_append_right, entry_replicate_nil, zero_mul]
  rw [tail, add_zero]
  apply sum_congr rfl
  intro i member
  rw [entry_append_left _ (mem_range.mp member)]

/-- The implicit row of an input adds its Lagrange value to the column of the input. -/
theorem columnValue_append_copyRows (domain : EvaluationDomain F) {rows : List (Row F)} {n : ℕ}
    (fits : rows.length + n ≤ domain.size) (t : F) (k : ℕ) :
    columnValue domain (rows ++ copyRows n) t k =
      (if k < n then lagrange domain.groupGen domain.size (rows.length + k) t else 0) + columnValue domain rows t k := by
  have length : (rows ++ copyRows n).length = rows.length + n := by
    rw [List.length_append, copyRows, tabulate_length]
  rw [columnValue_of_length_le domain (by rw [length]; exact fits), columnValue_of_length_le domain (by omega), length,
    sum_range_add, add_comm]
  congr 1
  · have terms : ∀ i ∈ range n, entry (rows ++ copyRows n) (rows.length + i) k *
        lagrange domain.groupGen domain.size (rows.length + i) t =
          if i = k then lagrange domain.groupGen domain.size (rows.length + i) t else 0 := by
      intro i member
      rw [entry_append_right, entry_copyRows (mem_range.mp member), ite_mul, one_mul, zero_mul]
    rw [sum_congr rfl terms, sum_ite_eq' (range n) k]
    simp only [mem_range]
  · apply sum_congr rfl
    intro i member
    rw [entry_append_left _ (mem_range.mp member)]

variable [DecidableEq F]

/-- The implicit rows hold. -/
theorem withCopies_satisfies_iff (z : Assignment m) : z.withCopies.Satisfies ↔ z.Satisfies := by
  have rows {i : ℕ} (inside : i < m.numConstraints) :
      m.withCopies.a.getD i [] = m.a.getD i [] ∧ m.withCopies.b.getD i [] = m.b.getD i [] ∧
        m.withCopies.c.getD i [] = m.c.getD i [] :=
    ⟨List.getD_append _ _ _ _ (by rw [m.aLength]; exact inside),
      List.getD_append _ _ _ _ (by rw [m.bLength]; exact inside),
      List.getD_append _ _ _ _ (by rw [m.cLength]; exact inside)⟩
  constructor
  · intro satisfied i inside
    obtain ⟨a, b, c⟩ := rows inside
    have row := satisfied i (inside.trans_le (Nat.le_add_right _ _))
    rwa [a, b, c] at row
  · intro satisfied i bound
    by_cases inside : i < m.numConstraints
    · obtain ⟨a, b, c⟩ := rows inside
      rw [a, b, c]
      exact satisfied i inside
    · have empty (rest : List (Row F)) (length : rest.length = m.numConstraints) :
          (rest ++ List.replicate m.numInstanceVariables []).getD i [] = [] := by
        have total : i < m.numConstraints + m.numInstanceVariables := bound
        rw [List.getD_append_right _ _ _ _ (by omega), List.getD_replicate _ (by omega)]
      rw [show m.withCopies.b.getD i [] = [] from empty m.b m.bLength,
        show m.withCopies.c.getD i [] = [] from empty m.c m.cLength]
      exact mul_zero _

end Copies

section Reduction

variable {F : Type} [Field F] [DecidableEq F] {backend : PolynomialBackend F} {m : ConstraintMatrices F}
variable {domain : EvaluationDomain F}

/-- The domain of a system has room for its implicit rows. -/
theorem newDomain_withCopies (created : backend.newDomain m.qapDomainSize = some domain) :
    m.withCopies.numConstraints ≤ domain.size := backend.newDomain_fits created

omit [DecidableEq F] in
/-- The instance map of libsnark gives the columns of the system with its implicit rows. -/
theorem libsnarkInstanceMap_eq (created : backend.newDomain m.qapDomainSize = some domain) (t : F) :
    libsnarkInstanceMap backend m t = .ok (m.withCopies.instanceMap domain t) := by
  have fits : m.numConstraints + m.numInstanceVariables ≤ domain.size := backend.newDomain_fits created
  have total : m.numInstanceVariables - 1 + m.numWitnessVariables + 1 = m.numVars := by
    have positive := m.instancePositive
    rw [ConstraintMatrices.numVars]
    omega
  have copied : ((backend.evaluateAllLagrangeCoefficients domain t).drop m.numConstraints).take
      m.numInstanceVariables ++ (List.replicate m.numVars 0).drop m.numInstanceVariables =
        tabulate m.numVars fun k =>
          if k < m.numInstanceVariables then lagrange domain.groupGen domain.size (m.numConstraints + k) t else 0 := by
    have zeros : (List.replicate m.numVars (0 : F)).drop m.numInstanceVariables =
        tabulate m.numWitnessVariables fun _ => 0 := by
      rw [List.drop_replicate, ConstraintMatrices.numVars, Nat.add_sub_cancel_left]
      simp [tabulate]
    rw [backend.lagrange_spec, tabulate_drop, tabulate_take _ (by omega), zeros, tabulate_append]
    rfl
  simp only [libsnarkInstanceMap, created, total, copied]
  rw [ConstraintMatrices.instanceMap]
  congr 2
  · have rows : m.a.length + m.numInstanceVariables ≤ domain.size := by
      rw [m.aLength]
      exact fits
    have inside : m.a.length ≤ domain.size := (Nat.le_add_right _ _).trans rows
    rw [← m.aLength, backend.lagrange_spec, tabulate_take _ inside, accumulateRows_tabulate]
    apply tabulate_congr
    intro k _
    rw [ConstraintMatrices.withCopies, columnValue_append_copyRows domain rows,
      columnValue_of_length_le domain inside]
  · rw [← m.bLength, accumulateRows_eq backend domain t (by rw [m.bLength]; omega)]
    apply tabulate_congr
    intro k _
    exact (columnValue_append_nil domain (by rw [m.bLength]; exact fits) t k).symm
  · rw [← m.cLength, accumulateRows_eq backend domain t (by rw [m.cLength]; omega)]
    apply tabulate_congr
    intro k _
    exact (columnValue_append_nil domain (by rw [m.cLength]; exact fits) t k).symm

/-- Behind the values of the rows stand the values of the implicit rows. -/
theorem paddedValues_withCopies (z : Assignment m) {size : ℕ}
    (fits : m.numConstraints + m.numInstanceVariables ≤ size) :
    (paddedValues size m.a z.fullAssignment).take m.numConstraints ++
        z.fullAssignment.take m.numInstanceVariables ++
          (paddedValues size m.a z.fullAssignment).drop (m.numConstraints + m.numInstanceVariables) =
      paddedValues size m.withCopies.a z.fullAssignment ∧
    paddedValues size m.b z.fullAssignment = paddedValues size m.withCopies.b z.fullAssignment ∧
    paddedValues size m.c z.fullAssignment = paddedValues size m.withCopies.c z.fullAssignment := by
  have empty {rows : List (Row F)} (length : rows.length = m.numConstraints) :
      paddedValues size rows z.fullAssignment =
        paddedValues size (rows ++ List.replicate m.numInstanceVariables []) z.fullAssignment := by
    have split : size - rows.length = m.numInstanceVariables + (size - (rows.length + m.numInstanceVariables)) := by
      omega
    rw [paddedValues, paddedValues, List.map_append, List.map_replicate, List.append_assoc, List.length_append,
      List.length_replicate, split, List.replicate_add]
    rfl
  refine ⟨?_, empty m.bLength, empty m.cLength⟩
  have values : (m.a.map (evaluateConstraint · z.fullAssignment)).length = m.numConstraints := by
    rw [List.length_map, m.aLength]
  have inputs : z.fullAssignment.take m.numInstanceVariables =
      (copyRows m.numInstanceVariables).map (evaluateConstraint · z.fullAssignment) := by
    have included : m.numInstanceVariables ≤ m.numVars := Nat.le_add_right _ _
    rw [copyRows, tabulate_map, z.fullAssignment_eq, tabulate_take _ included]
    apply tabulate_congr
    intro k inside
    have bound : k < m.numVars := inside.trans_le (Nat.le_add_right _ _)
    have located : (tabulate m.numVars z.value).getD k 0 = z.value k := tabulate_getD _ bound 0
    rw [Function.comp_apply, evaluateConstraint, List.map_singleton, List.sum_singleton, located]
    exact (if_pos rfl).symm
  have length : (m.a ++ copyRows m.numInstanceVariables).length = m.numConstraints + m.numInstanceVariables := by
    rw [List.length_append, m.aLength, copyRows, tabulate_length]
  rw [paddedValues, paddedValues, ConstraintMatrices.withCopies, List.map_append, ← inputs, length,
    List.take_append_of_le_length (by rw [values]), List.take_of_length_le (by rw [values]), List.drop_append,
    List.drop_eq_nil_of_le (by rw [values]; exact Nat.le_add_right _ _), List.nil_append, List.drop_replicate, values,
    m.aLength, Nat.add_sub_cancel_left, Nat.sub_sub]

/-- The witness map of libsnark returns the coefficients of the divided products of the system with its implicit
rows. -/
theorem libsnarkWitnessMap_of_values (created : backend.newDomain m.qapDomainSize = some domain) (z : Assignment m)
    {q : ℕ → F}
    (values : ∀ k < domain.size,
      (z.withCopies.linear (columnValue domain m.withCopies.a (backend.generator * domain.element k)) *
        z.withCopies.linear (columnValue domain m.withCopies.b (backend.generator * domain.element k)) -
          z.withCopies.linear (columnValue domain m.withCopies.c (backend.generator * domain.element k))) *
            (domain.evaluateVanishingPolynomial backend.generator)⁻¹ =
              cosetValues domain backend.generator q k) :
    libsnarkWitnessMap backend m z.fullAssignment = .ok (tabulate domain.size q) := by
  have fits := newDomain_withCopies created
  obtain ⟨a, b, c⟩ := paddedValues_withCopies z (backend.newDomain_fits created)
  have onCoset {rows : List (Row F)} (length : rows.length = m.withCopies.numConstraints)
      (columns : ∀ row ∈ rows, ∀ term ∈ row, term.2 < m.numInstanceVariables + m.numWitnessVariables) :
      backend.cosetFft domain backend.generator (backend.ifft domain (paddedValues domain.size rows z.fullAssignment)) =
        tabulate domain.size fun k =>
          z.withCopies.linear (columnValue domain rows (backend.generator * domain.element k)) :=
    onCoset_eq z.withCopies (by rw [length]; exact fits) columns
  simp only [libsnarkWitnessMap, created, a, b, c]
  rw [onCoset m.withCopies.aLength m.withCopies.aColumns, onCoset m.withCopies.bLength m.withCopies.bColumns,
    onCoset m.withCopies.cLength m.withCopies.cColumns, tabulate_zipWith, tabulate_zipWith, tabulate_congr values,
    backend.cosetIfft_spec domain _ q backend.generator_ne_zero]

end Reduction

section Keys

variable {F G1 G2 : Type} [Field F] [DecidableEq F] {backend : PolynomialBackend F} {m : ConstraintMatrices F}
variable {domain : EvaluationDomain F} {waste : Trapdoor F}
variable [AddCommGroup G1] [Module F G1] [AddCommGroup G2] [Module F G2] {g1 : G1} {g2 : G2}

/-- The generator of libsnark makes the key of the system with its implicit rows. -/
theorem libsnarkParameters_eq_ok {pk : ProvingKey G1 G2} :
    libsnarkReduction.generateParametersWithQap backend m waste g1 g2 = .ok pk ↔
      waste.gamma ≠ 0 ∧ waste.delta ≠ 0 ∧ ∃ domain,
        backend.newDomain m.qapDomainSize = some domain ∧ pk = waste.provingKey domain m.withCopies g1 g2 := by
  have inputs : m.withCopies.numInstanceVariables = m.numInstanceVariables := rfl
  apply R1CSToQAP.generateParametersWithQap_eq_ok inputs
  · intro missing
    simp [libsnarkReduction, libsnarkInstanceMap, missing]
  · intro domain created
    exact libsnarkInstanceMap_eq created waste.tau

/-- The proof of libsnark is the proof of the system with its implicit rows. -/
theorem libsnarkProof_eq (waste : Trapdoor F) (g1 : G1) (g2 : G2) {z : Assignment m} {q : ℕ → F}
    (returned : libsnarkWitnessMap backend m z.fullAssignment = .ok (tabulate domain.size q)) (r s : F) :
    libsnarkReduction.createProofWithReduction backend (waste.provingKey domain m.withCopies g1 g2) r s z = .ok {
      a := waste.aScalar domain z.withCopies r • g1
      b := waste.bScalar domain z.withCopies s • g2
      c := (waste.cLinearScalar domain z.withCopies r s + waste.committedScalar domain q) • g1 } := by
  have inputs : z.withCopies.publicInputs = z.publicInputs := rfl
  have witness : z.withCopies.witnessAssignment = z.witnessAssignment := rfl
  exact R1CSToQAP.createProofWithReduction_of_witnessMap waste g1 g2 r s z.withCopies inputs witness returned

/-- The coefficients of libsnark leave nothing exactly for a satisfied system. -/
theorem libsnarkWitnessMap_defect (created : backend.newDomain m.qapDomainSize = some domain) (z : Assignment m) :
    ∃ h, libsnarkWitnessMap backend m z.fullAssignment = .ok h ∧ h.length = domain.size ∧
      (z.withCopies.defect domain h = 0 ↔ z.Satisfies) := by
  obtain ⟨q, values, quotient, top⟩ := exists_cosetQuotient z.withCopies (newDomain_withCopies created)
    backend.generator_ne_zero (backend.generator_outside created)
  refine ⟨tabulate domain.size q, libsnarkWitnessMap_of_values created z values, tabulate_length _ _, ?_⟩
  exact (z.withCopies.defect_tabulate_eq_zero_iff (newDomain_withCopies created) quotient top).trans
    (withCopies_satisfies_iff z)

variable {GT : Type} [AddCommGroup GT] [Module F GT] [DecidableEq GT]

/-- The prover of libsnark returns a proof, and it is accepted exactly when the evaluation point of the key is a root of
what the coefficients leave. -/
theorem libsnarkProof_accepted_iff (z : Assignment m) {h : List F}
    (returned : libsnarkWitnessMap backend m z.fullAssignment = .ok h) (length : h.length = domain.size)
    (e : Pairing F G1 G2 GT) (free : e.pairing g1 g2 ≠ 0) (gammaNonzero : waste.gamma ≠ 0)
    (deltaNonzero : waste.delta ≠ 0) (r s : F) :
    ∃ proof, libsnarkReduction.createProofWithReduction backend (waste.provingKey domain m.withCopies g1 g2) r s z =
        .ok proof ∧
      (verify e (waste.provingKey domain m.withCopies g1 g2).vk z.publicInputs proof = .ok true ↔
        (z.withCopies.defect domain h).eval waste.tau = 0) := by
  have coefficients : h = tabulate domain.size (h.getD · 0) := by
    rw [← length, tabulate_of_list]
  have proved := libsnarkProof_eq waste g1 g2 (returned.trans (congrArg Except.ok coefficients)) r s
  exact ⟨_, proved, verify_committed_iff domain z.withCopies e free gammaNonzero deltaNonzero h r s⟩

/-- With the reduction of libsnark, satisfied systems are accepted and other systems are rejected but for few evaluation
points. -/
theorem libsnarkReduction_sound_complete (created : backend.newDomain m.qapDomainSize = some domain)
    (z : Assignment m) (e : Pairing F G1 G2 GT) (free : e.pairing g1 g2 ≠ 0) :
    ∃ exceptional : Finset F, exceptional.card ≤ 2 * domain.size ∧ (z.Satisfies → exceptional = ∅) ∧
      ∀ waste : Trapdoor F, waste.gamma ≠ 0 → waste.delta ≠ 0 →
        ∃ pk, libsnarkReduction.generateParametersWithQap backend m waste g1 g2 = .ok pk ∧ ∀ r s, ∃ proof,
          libsnarkReduction.createProofWithReduction backend pk r s z = .ok proof ∧
          (verify e pk.vk z.publicInputs proof = .ok true ↔ z.Satisfies ∨ waste.tau ∈ exceptional) := by
  obtain ⟨h, returned, length, zero⟩ := libsnarkWitnessMap_defect created z
  refine ⟨z.withCopies.exceptionalPoints domain h, z.withCopies.exceptionalPoints_card_le h, ?_, ?_⟩
  · intro satisfied
    exact z.withCopies.exceptionalPoints_of_defect_eq_zero (zero.mpr satisfied)
  · intro waste gammaNonzero deltaNonzero
    refine ⟨_, libsnarkParameters_eq_ok.mpr ⟨gammaNonzero, deltaNonzero, domain, created, rfl⟩, ?_⟩
    intro r s
    obtain ⟨proof, proved, accepted⟩ :=
      libsnarkProof_accepted_iff z returned length e free gammaNonzero deltaNonzero r s
    rw [z.withCopies.eval_defect_eq_zero_iff, zero] at accepted
    exact ⟨proof, proved, accepted⟩

/-- The square of three is proved and accepted with the reduction of libsnark. -/
theorem libsnarkReduction_sound_complete_squareOfThree :
    ∃ (pk : ProvingKey (ZMod 13) (ZMod 13)) (proof : Proof (ZMod 13) (ZMod 13)),
      libsnarkReduction.generateParametersWithQap smallBackend squareSystem smallWaste 1 1 = .ok pk ∧
        libsnarkReduction.createProofWithReduction smallBackend pk 6 7 squareOfThree = .ok proof ∧
        verify (mulPairing (ZMod 13) 13) pk.vk squareOfThree.publicInputs proof = .ok true := by
  have created : smallBackend.newDomain squareSystem.qapDomainSize = some fourthRoots := rfl
  have free : (mulPairing (ZMod 13) 13).pairing 1 1 ≠ 0 := by decide
  obtain ⟨exceptional, -, -, keys⟩ :=
    libsnarkReduction_sound_complete created squareOfThree (mulPairing (ZMod 13) 13) free
  obtain ⟨pk, generated, proofs⟩ := keys smallWaste (by decide) (by decide)
  obtain ⟨proof, proved, accepted⟩ := proofs 6 7
  exact ⟨pk, proof, generated, proved, accepted.mpr (Or.inl (by decide))⟩

end Keys

section UnusedInputs

variable {F G1 G2 GT : Type} [Field F] [DecidableEq F] {backend : PolynomialBackend F} {m : ConstraintMatrices F}
variable {domain : EvaluationDomain F} {waste : Trapdoor F}
variable [AddCommGroup G1] [Module F G1] [AddCommGroup G2] [Module F G2] [AddCommGroup GT] [Module F GT]
variable [DecidableEq GT] {g1 : G1} {g2 : G2}

/-- No row of the matrices mentions the column. -/
def ConstraintMatrices.Unused (m : ConstraintMatrices F) (k : ℕ) : Prop :=
  ∀ i, entry m.a i k = 0 ∧ entry m.b i k = 0 ∧ entry m.c i k = 0

omit [DecidableEq F] in
theorem columnValue_unused {rows : List (Row F)} {k : ℕ} (unused : ∀ i, entry rows i k = 0) (t : F) :
    columnValue domain rows t k = 0 := by
  apply sum_eq_zero
  intro i _
  rw [unused i, zero_mul]

omit [DecidableEq F] in
/-- Without implicit rows an unused column contributes nothing to the key. -/
theorem column_unused {k : ℕ} (unused : m.Unused k) : waste.column domain m k = 0 := by
  rw [Trapdoor.column, Trapdoor.u, Trapdoor.v, Trapdoor.w, columnValue_unused fun i => (unused i).1,
    columnValue_unused fun i => (unused i).2.1, columnValue_unused fun i => (unused i).2.2]
  ring

omit [DecidableEq F] in
/-- The implicit row of an unused input contributes its Lagrange value. -/
theorem column_withCopies_unused {k : ℕ} (unused : m.Unused k) (inside : k < m.numInstanceVariables)
    (fits : m.numConstraints + m.numInstanceVariables ≤ domain.size) :
    waste.column domain m.withCopies k =
      waste.beta * lagrange domain.groupGen domain.size (m.numConstraints + k) waste.tau := by
  rw [Trapdoor.column, Trapdoor.u, Trapdoor.v, Trapdoor.w, ConstraintMatrices.withCopies,
    columnValue_append_copyRows domain (by rw [m.aLength]; exact fits),
    columnValue_append_nil domain (by rw [m.bLength]; exact fits),
    columnValue_append_nil domain (by rw [m.cLength]; exact fits), if_pos inside, m.aLength,
    columnValue_unused fun i => (unused i).1, columnValue_unused fun i => (unused i).2.1,
    columnValue_unused fun i => (unused i).2.2]
  ring

omit [DecidableEq F] in
/-- Statements that differ in one input have scalars that differ by the column of the input. -/
theorem instanceScalar_sub (waste : Trapdoor F) (domain : EvaluationDomain F) {x y : List F} {k : ℕ} (inside : k < m.numInstanceVariables)
    (others : ∀ j, j ≠ k → statementOf x j = statementOf y j) :
    waste.instanceScalar domain m (statementOf x) - waste.instanceScalar domain m (statementOf y) =
      (statementOf x k - statementOf y k) * waste.column domain m k := by
  rw [Trapdoor.instanceScalar, Trapdoor.instanceScalar, ← sum_sub_distrib,
    sum_eq_single_of_mem k (mem_range.mpr inside)]
  · rw [sub_mul]
  · intro j _ different
    rw [others j different, sub_self]

/-- Under a key of the crate's reduction, a proof is accepted for all values of an input that no row mentions or for
none of them; under a key of libsnark it is accepted for one value at most. -/
theorem unusedInput_malleable (waste : Trapdoor F) (created : backend.newDomain m.qapDomainSize = some domain)
    (e : Pairing F G1 G2 GT) (free : e.pairing g1 g2 ≠ 0) {k : ℕ} (inside : k < m.numInstanceVariables)
    (unused : m.Unused k) {x y : List F} (xLength : x.length = m.numInstanceVariables - 1)
    (yLength : y.length = m.numInstanceVariables - 1) (others : ∀ j, j ≠ k → statementOf x j = statementOf y j)
    (proof : Proof G1 G2) :
    (∀ pk, pvugcReduction.generateParametersWithQap backend m waste g1 g2 = .ok pk →
      verify e pk.vk x proof = verify e pk.vk y proof) ∧
    (∀ pk, libsnarkReduction.generateParametersWithQap backend m waste g1 g2 = .ok pk →
      waste.tau ^ domain.size ≠ 1 → waste.beta ≠ 0 → verify e pk.vk x proof = .ok true →
        verify e pk.vk y proof = .ok true → statementOf x k = statementOf y k) := by
  constructor
  · intro pk generated
    obtain ⟨-, -, other, located, rfl⟩ := generateParametersWithQap_eq_ok.mp generated
    have same : waste.instanceScalar other m (statementOf x) = waste.instanceScalar other m (statementOf y) := by
      have difference := instanceScalar_sub waste other inside others
      rw [column_unused unused, mul_zero] at difference
      exact sub_eq_zero.mp difference
    rw [verify, verify, waste.prepareInputs_provingKey other m g1 g2 xLength,
      waste.prepareInputs_provingKey other m g1 g2 yLength, same]
  · intro pk generated outside beta acceptedX acceptedY
    obtain ⟨gammaNonzero, -, other, located, rfl⟩ := libsnarkParameters_eq_ok.mp generated
    obtain rfl : domain = other := Option.some.inj (created.symm.trans located)
    rw [waste.verify_provingKey domain m.withCopies e gammaNonzero g1 g2 xLength] at acceptedX
    rw [waste.verify_provingKey domain m.withCopies e gammaNonzero g1 g2 yLength] at acceptedY
    have scalars : (waste.instanceScalar domain m.withCopies (statementOf x) -
        waste.instanceScalar domain m.withCopies (statementOf y)) • e.pairing g1 g2 = 0 := by
      have same := acceptedX.symm.trans acceptedY
      rw [add_left_inj, add_smul, add_smul, add_right_inj] at same
      rw [sub_smul, same, sub_self]
    have value : lagrange domain.groupGen domain.size (m.numConstraints + k) waste.tau ≠ 0 :=
      lagrange_ne_zero domain.primitive domain.positive outside _
    rw [smul_eq_zero_iff_left free, instanceScalar_sub (m := m.withCopies) waste domain inside others,
      column_withCopies_unused unused inside (backend.newDomain_fits created)] at scalars
    rcases mul_eq_zero.mp scalars with same | zero
    · exact sub_eq_zero.mp same
    · exact absurd zero (mul_ne_zero beta value)

/-- One row that does not mention the public input. -/
def freeInputSystem : ConstraintMatrices (ZMod 13) where
  numInstanceVariables := 2
  numWitnessVariables := 1
  numConstraints := 1
  a := [[(2, 2)]]
  b := [[(1, 0)]]
  c := [[(2, 2)]]
  instancePositive := Nat.two_pos
  aLength := rfl
  bLength := rfl
  cLength := rfl
  aColumns := by decide
  bColumns := by decide
  cColumns := by decide

theorem freeInputSystem_unused : freeInputSystem.Unused 1 := by
  intro i
  match i with
  | 0 => decide
  | _ + 1 => exact ⟨rfl, rfl, rfl⟩

/-- A proof for the input three is accepted for four with the reduction of the crate and rejected with that of
libsnark. -/
theorem unusedInput_malleable_freeInput :
    (∃ (pk : ProvingKey (ZMod 13) (ZMod 13)) (proof : Proof (ZMod 13) (ZMod 13)),
      pvugcReduction.generateParametersWithQap smallBackend freeInputSystem smallWaste 1 1 = .ok pk ∧
        verify (mulPairing (ZMod 13) 13) pk.vk [3] proof = .ok true ∧
        verify (mulPairing (ZMod 13) 13) pk.vk [4] proof = .ok true) ∧
    ∃ (pk : ProvingKey (ZMod 13) (ZMod 13)) (proof : Proof (ZMod 13) (ZMod 13)),
      libsnarkReduction.generateParametersWithQap smallBackend freeInputSystem smallWaste 1 1 = .ok pk ∧
        verify (mulPairing (ZMod 13) 13) pk.vk [3] proof = .ok true ∧
        verify (mulPairing (ZMod 13) 13) pk.vk [4] proof ≠ .ok true := by
  have created : smallBackend.newDomain freeInputSystem.qapDomainSize = some fourthRoots := rfl
  have free : (mulPairing (ZMod 13) 13).pairing 1 1 ≠ 0 := by decide
  have others : ∀ j, j ≠ 1 → statementOf [(3 : ZMod 13)] j = statementOf [4] j := by
    intro j different
    match j with
    | 0 => rfl
    | 1 => exact absurd rfl different
    | _ + 2 => rfl
  have transfer := unusedInput_malleable smallWaste created (mulPairing (ZMod 13) 13) free
    (by decide : 1 < freeInputSystem.numInstanceVariables) freeInputSystem_unused rfl rfl others
  constructor
  · have generated : pvugcReduction.generateParametersWithQap smallBackend freeInputSystem smallWaste (1 : ZMod 13)
        (1 : ZMod 13) = .ok (smallWaste.provingKey fourthRoots freeInputSystem 1 1) :=
      generateParametersWithQap_eq_ok.mpr ⟨by decide, by decide, fourthRoots, rfl, rfl⟩
    have three : verify (mulPairing (ZMod 13) 13) (smallWaste.provingKey fourthRoots freeInputSystem 1 1).vk [3]
        { a := 12, b := 1, c := 1 } = .ok true := by decide +kernel
    have same := (transfer { a := 12, b := 1, c := 1 }).1 _ generated
    exact ⟨_, _, generated, three, same.symm.trans three⟩
  · have generated : libsnarkReduction.generateParametersWithQap smallBackend freeInputSystem smallWaste (1 : ZMod 13)
        (1 : ZMod 13) = .ok (smallWaste.provingKey fourthRoots freeInputSystem.withCopies 1 1) :=
      libsnarkParameters_eq_ok.mpr ⟨by decide, by decide, fourthRoots, rfl, rfl⟩
    have three : verify (mulPairing (ZMod 13) 13) (smallWaste.provingKey fourthRoots freeInputSystem.withCopies 1 1).vk
        [3] { a := 8, b := 1, c := 1 } = .ok true := by decide +kernel
    refine ⟨_, _, generated, three, ?_⟩
    intro four
    have equal := (transfer { a := 8, b := 1, c := 1 }).2 _ generated (by decide) (by decide) three four
    exact absurd equal (by decide)

end UnusedInputs

end Pvugc.Groth16
