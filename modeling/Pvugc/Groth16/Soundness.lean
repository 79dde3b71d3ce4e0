import Pvugc.Groth16.WitnessMap

namespace Pvugc.Groth16
open Pvugc.Algebra Finset Polynomial

section Defect

variable {F : Type} [Field F] {backend : PolynomialBackend F} {m : ConstraintMatrices F}
variable {domain : EvaluationDomain F} (z : Assignment m)

/-- What the committed coefficients leave of `U V - W`; the key commits to all of them but the last. -/
noncomputable def Assignment.defect (domain : EvaluationDomain F) (h : List F) : F[X] :=
  z.polynomial domain m.a * z.polynomial domain m.b - z.polynomial domain m.c -
    ofCoeffs (domain.size - 1) (h.getD · 0) * (X ^ domain.size - 1)

theorem Assignment.eval_defect (h : List F) (x : F) :
    (z.defect domain h).eval x =
      z.linear (columnValue domain m.a x) * z.linear (columnValue domain m.b x) -
        z.linear (columnValue domain m.c x) -
          (∑ i ∈ range (domain.size - 1), h.getD i 0 * x ^ i) * (x ^ domain.size - 1) := by
  rw [Assignment.defect, eval_sub, eval_sub, eval_mul, eval_mul, eval_polynomial, eval_polynomial, eval_polynomial,
    eval_ofCoeffs, eval_sub, eval_pow, eval_X, eval_one]

theorem Assignment.natDegree_defect_le (h : List F) : (z.defect domain h).natDegree ≤ 2 * domain.size := by
  have column (rows : List (Row F)) : (z.polynomial domain rows).natDegree ≤ domain.size := by
    rw [polynomial_eq_interpolant]
    exact (natDegree_interpolant_le _).trans (Nat.sub_le _ _)
  have vanishing : (X ^ domain.size - 1 : F[X]).natDegree ≤ domain.size := by
    compute_degree
  have committed : (ofCoeffs (domain.size - 1) (h.getD · 0)).natDegree ≤ domain.size := by
    apply natDegree_sum_le_of_forall_le
    intro i member
    have inside := mem_range.mp member
    exact (natDegree_C_mul_X_pow_le _ i).trans (by omega)
  apply (natDegree_sub_le_of_le (n := 2 * domain.size) ?_ ?_).trans (max_self _).le
  · apply (natDegree_sub_le_of_le (n := 2 * domain.size) ?_ ?_).trans (max_self _).le
    · exact natDegree_mul_le.trans (by linarith [column m.a, column m.b])
    · exact (column m.c).trans (by omega)
  · exact natDegree_mul_le.trans (by linarith)

variable [DecidableEq F]

/-- The evaluation points that hide that the coefficients leave something. -/
noncomputable def Assignment.exceptionalPoints (domain : EvaluationDomain F) (h : List F) : Finset F :=
  (z.defect domain h).roots.toFinset

theorem Assignment.exceptionalPoints_card_le (h : List F) :
    (z.exceptionalPoints domain h).card ≤ 2 * domain.size :=
  calc (z.exceptionalPoints domain h).card
      ≤ Multiset.card (z.defect domain h).roots := Multiset.toFinset_card_le _
    _ ≤ (z.defect domain h).natDegree := card_roots' _
    _ ≤ 2 * domain.size := z.natDegree_defect_le h

theorem Assignment.exceptionalPoints_of_defect_eq_zero {h : List F} (zero : z.defect domain h = 0) :
    z.exceptionalPoints domain h = ∅ := by
  rw [Assignment.exceptionalPoints, zero, roots_zero, Multiset.toFinset_zero]

theorem Assignment.eval_defect_eq_zero_iff (h : List F) (x : F) :
    (z.defect domain h).eval x = 0 ↔ z.defect domain h = 0 ∨ x ∈ z.exceptionalPoints domain h := by
  by_cases zero : z.defect domain h = 0
  · rw [zero, eval_zero]
    exact iff_of_true rfl (Or.inl rfl)
  · rw [Assignment.exceptionalPoints, Multiset.mem_toFinset, mem_roots zero, IsRoot.def, or_iff_right zero]

/-- The coefficients of a coset quotient leave nothing exactly for a satisfied system. -/
theorem Assignment.defect_tabulate_eq_zero_iff (fits : m.numConstraints ≤ domain.size) {q : ℕ → F}
    (quotient : ofCoeffs domain.size q * (X ^ domain.size - 1) =
      z.polynomial domain m.a * z.polynomial domain m.b - z.polynomial domain m.c ↔ z.Satisfies)
    (top : z.Satisfies → q (domain.size - 1) = 0) :
    z.defect domain (tabulate domain.size q) = 0 ↔ z.Satisfies := by
  constructor
  · intro zero
    exact satisfies_of_quotient z fits (sub_eq_zero.mp zero).symm
  · intro satisfied
    have whole : ofCoeffs domain.size q =
        ofCoeffs (domain.size - 1) ((tabulate domain.size q).getD · 0) := by
      conv_lhs => rw [← ofCoeffs_tabulate, ← Nat.sub_add_cancel (show 1 ≤ domain.size from domain.positive)]
      rw [ofCoeffs, sum_range_succ, Nat.sub_add_cancel (show 1 ≤ domain.size from domain.positive),
        tabulate_getD q (Nat.sub_lt domain.positive Nat.one_pos), top satisfied, C_0, zero_mul, add_zero, ofCoeffs]
    rw [Assignment.defect, ← whole, quotient.mpr satisfied, sub_self]

/-- Nothing is left exactly for a satisfied system. -/
theorem Assignment.defect_eq_zero_iff (created : backend.newDomain m.qapDomainSize = some domain) {h : List F}
    (returned : witnessMapFromMatrices backend m z.fullAssignment = .ok h) :
    z.defect domain h = 0 ↔ z.Satisfies := by
  obtain ⟨q, values, quotient, top⟩ := exists_cosetQuotient z (newDomain_numConstraints created)
    backend.generator_ne_zero (backend.generator_outside created)
  obtain rfl : h = tabulate domain.size q :=
    Except.ok.inj (returned.symm.trans (witnessMapFromMatrices_of_values created values))
  exact z.defect_tabulate_eq_zero_iff (newDomain_numConstraints created) quotient top

/-- Few evaluation points hide that a system is not satisfied. -/
theorem Assignment.defect_roots_card (created : backend.newDomain m.qapDomainSize = some domain) {h : List F}
    (returned : witnessMapFromMatrices backend m z.fullAssignment = .ok h) (unsatisfied : ¬ z.Satisfies) :
    {tau | (z.defect domain h).eval tau = 0}.ncard ≤ 2 * domain.size := by
  have nonzero : z.defect domain h ≠ 0 := (z.defect_eq_zero_iff created returned).not.mpr unsatisfied
  have roots : {tau | (z.defect domain h).eval tau = 0} = (z.exceptionalPoints domain h : Set F) := by
    ext tau
    rw [Set.mem_setOf_eq, z.eval_defect_eq_zero_iff, or_iff_right nonzero, mem_coe]
  rw [roots, Set.ncard_coe_finset]
  exact z.exceptionalPoints_card_le h

end Defect

section Accepted

variable {F G1 G2 GT : Type} [Field F] [DecidableEq F] [AddCommGroup G1] [Module F G1]
variable [AddCommGroup G2] [Module F G2] [AddCommGroup GT] [Module F GT] [DecidableEq GT]
variable {backend : PolynomialBackend F} {m : ConstraintMatrices F} {domain : EvaluationDomain F}

/-- The verifier accepts the proof that commits to some coefficients exactly when the evaluation point of the key is a
root of what they leave. -/
theorem verify_committed_iff (domain : EvaluationDomain F) (z : Assignment m) (e : Pairing F G1 G2 GT) {g1 : G1} {g2 : G2}
    (free : e.pairing g1 g2 ≠ 0) {waste : Trapdoor F} (gammaNonzero : waste.gamma ≠ 0) (deltaNonzero : waste.delta ≠ 0)
    (h : List F) (r s : F) :
    verify e (waste.provingKey domain m g1 g2).vk z.publicInputs {
      a := waste.aScalar domain z r • g1
      b := waste.bScalar domain z s • g2
      c := (waste.cLinearScalar domain z r s + waste.committedScalar domain (h.getD · 0)) • g1 } = .ok true ↔
        (z.defect domain h).eval waste.tau = 0 := by
  have left : (waste.quotientScalar domain z - waste.committedScalar domain (h.getD · 0)) * waste.delta =
      (z.defect domain h).eval waste.tau := by
    rw [z.eval_defect, Trapdoor.quotientScalar, Trapdoor.committedScalar, ← sub_mul, mul_assoc,
      inv_mul_cancel₀ deltaNonzero, mul_one, mul_comm (waste.vanishing domain)]
    rfl
  rw [waste.verify_provingKey domain m e gammaNonzero g1 g2 (publicInputs_length z), ← left,
    waste.instanceScalar_publicInputs domain z]
  simp only [e.smul_left_right, waste.proof_equation domain z r s deltaNonzero]
  rw [← add_smul, ← sub_eq_zero, ← sub_smul, smul_eq_zero_iff_left free]
  ring_nf

/-- The prover returns a proof for every assignment, and it is accepted exactly when the evaluation point of the
key is a root of the defect. -/
theorem verifyProof_createProof_iff (created : backend.newDomain m.qapDomainSize = some domain)
    (z : Assignment m) (e : Pairing F G1 G2 GT) {g1 : G1} {g2 : G2} (free : e.pairing g1 g2 ≠ 0)
    {waste : Trapdoor F} (gammaNonzero : waste.gamma ≠ 0) (deltaNonzero : waste.delta ≠ 0) :
    ∃ h, witnessMapFromMatrices backend m z.fullAssignment = .ok h ∧ ∀ r s, ∃ proof,
      createProofWithReduction backend (waste.provingKey domain m g1 g2) r s z = .ok proof ∧
      (verifyProof e (prepareVerifyingKey e (waste.provingKey domain m g1 g2).vk) proof z.publicInputs = .ok true ↔
        (z.defect domain h).eval waste.tau = 0) := by
  obtain ⟨h, returned, length, -, -⟩ := witnessMapFromMatrices_quotient_iff z created
  have coefficients : h = tabulate domain.size (h.getD · 0) := by
    rw [← length, tabulate_of_list]
  refine ⟨h, returned, fun r s => ⟨_, createProofWithReduction_of_witnessMap waste g1 g2 r s
    (returned.trans (congrArg Except.ok coefficients)), ?_⟩⟩
  rw [← verify_eq_verifyProof]
  exact verify_committed_iff domain z e free gammaNonzero deltaNonzero h r s

end Accepted

end Pvugc.Groth16
