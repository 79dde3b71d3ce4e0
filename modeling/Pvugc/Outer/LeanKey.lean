import Pvugc.OneSided.Standard
import Pvugc.Outer.Setup

namespace Pvugc.Groth16.Trapdoor
open Pvugc.Algebra Pvugc.Outer Pvugc.OneSided Finset

variable {F G1 G2 GT : Type} [Field F] [AddCommGroup G1] [Module F G1] [AddCommGroup G2] [Module F G2]
variable [AddCommGroup GT] [Module F GT] (waste : Trapdoor F) (domain : EvaluationDomain F)
variable {m : ConstraintMatrices F}

/-- The target of a statement with the pairing of its affine gap. -/
def bakedTarget (shape : OuterShape m) (e : Pairing F G1 G2 GT) (g1 : G1) (g2 : G2) (x : ℕ → F) : GT :=
  (waste.alpha * waste.beta + waste.instanceScalar domain m x) • e.pairing g1 g2 +
    e.pairing (waste.gapAt domain shape g1 x) (waste.delta • g2)

theorem pairing_gapAt (shape : OuterShape m) (e : Pairing F G1 G2 GT) (g1 : G1) (g2 : G2) (x : ℕ → F) :
    e.pairing (waste.gapAt domain shape g1 x) (waste.delta • g2) = ∑ k ∈ range m.numInstanceVariables,
      x k • e.pairing (waste.gapPoint domain shape g1 k) (waste.delta • g2) := by
  rw [gapAt, e.sum_left]
  simp only [e.smul_left]

/-- The exponent of the baked quotient of a statement: the product of the constant column with the
columns of `B` that carry the statement, without the interpolant of their row products. -/
def bakedScalar (shape : OuterShape m) (x : ℕ → F) : F :=
  ∑ k ∈ range m.numInstanceVariables, x k *
    (waste.u domain m 0 * waste.v domain m (if k = 0 then 0 else shape.xWit k) -
      waste.overlap domain m 0 (if k = 0 then 0 else shape.xWit k))

theorem pairing_gapAt_bakedScalar (shape : OuterShape m) (e : Pairing F G1 G2 GT)
    (deltaNonzero : waste.delta ≠ 0) (g1 : G1) (g2 : G2) (x : ℕ → F) :
    e.pairing (waste.gapAt domain shape g1 x) (waste.delta • g2) =
      waste.bakedScalar domain shape x • e.pairing g1 g2 := by
  rw [pairing_gapAt, bakedScalar, sum_smul]
  apply sum_congr rfl
  intro k _
  rw [gapPoint, quotientBase, e.smul_left_right, smul_smul, mul_assoc, inv_mul_cancel₀ deltaNonzero, mul_one]

/-- The baked target of the setup's key is the target with the gap. -/
theorem computeBakedTarget_setup [DecidableEq G1] [DecidableEq G2] [DecidableEq GT] (shape : OuterShape m)
    (e : Pairing F G1 G2 GT) (nonzero : waste.gamma ≠ 0) (g1 : G1) (g2 : G2) {x : List F} {target : GT}
    (computed : computeBakedTarget e (waste.provingKey domain m g1 g2).vk
      (PvugcVk.ofProvingKey (waste.provingKey domain m g1 g2) (tabulate m.numInstanceVariables fun k =>
        e.pairing (waste.gapPoint domain shape g1 k) (waste.delta • g2))) x = .ok target) :
    target = waste.bakedTarget domain shape e g1 g2 (statementOf x) := by
  have raw : ∃ raw, computeGroth16Target e (waste.provingKey domain m g1 g2).vk x = .ok raw := by
    rw [computeBakedTarget, computeBakedTargetOn, ← computeGroth16Target] at computed
    split at computed
    case h_1 => cases computed
    case h_2 raw located => exact ⟨raw, located⟩
  obtain ⟨raw, located⟩ := raw
  obtain ⟨length, value⟩ := waste.computeGroth16Target_provingKey domain m e nonzero g1 g2 located
  have total : x.length + 1 = m.numInstanceVariables := by
    rw [length, Nat.sub_add_cancel m.instancePositive]
  obtain ⟨raw', located', same⟩ := (computeBakedTarget_eq_ok (by
    rw [PvugcVk.ofProvingKey, total])).mp computed
  cases located.symm.trans located'
  rw [same, value, total, bakedTarget, pairing_gapAt]

variable [DecidableEq F] [DecidableEq G1]

/-- The equation of an honest lean proof: it reaches the target with the gap. -/
theorem lean_equation {domain : EvaluationDomain F} (shape : OuterShape m) (e : Pairing F G1 G2 GT)
    (deltaNonzero : waste.delta ≠ 0) (fits : m.numVars ≤ 2 ^ 32) (rows : m.numConstraints ≤ domain.size)
    (g1 : G1) (g2 : G2) {z : Assignment m} (satisfied : z.Satisfies) (r s : F) :
    e.pairing (waste.aScalar domain z r • g1) (waste.bScalar domain z s • g2) =
      waste.bakedTarget domain shape e g1 g2 z.value + e.pairing (waste.cLinearScalar domain z r s • g1 +
        quadraticSum (waste.publishedBases domain m g1) z) (waste.delta • g2) := by
  have gap : quadraticSum (waste.publishedBases domain m g1) z =
      waste.quotientScalar domain z • g1 - waste.gapAt domain shape g1 z.value := by
    rw [eq_sub_iff_add_eq, ← eq_sub_iff_add_eq', waste.quotient_sub_quadraticSum domain g1 satisfied fits,
      waste.leftOut_eq_gapAt domain shape g1 satisfied rows]
  rw [gap, ← add_sub_assoc, ← add_smul, e.sub_left, e.smul_left_right, e.smul_left_right,
    waste.proof_equation domain z r s deltaNonzero, bakedTarget, add_smul, add_smul]
  abel

end Pvugc.Groth16.Trapdoor

namespace Pvugc.Outer
open Pvugc.Algebra Pvugc.Groth16 Pvugc.OneSided Finset

section Shape

variable {F G1 G2 GT : Type} [Field F] [AddCommGroup G1] [Module F G1] [AddCommGroup G2] [Module F G2]
variable [AddCommGroup GT] [Module F GT] {m : ConstraintMatrices F} {waste : Trapdoor F}
variable {domain : EvaluationDomain F}

/-- The public leg of an outer-shaped system does not depend on the statement. -/
theorem publicLeg_eq (shape : OuterShape m) (x : List F) :
    ∑ k ∈ range m.numInstanceVariables, statementOf x k * waste.v domain m k = waste.v domain m 0 := by
  rw [sum_eq_single_of_mem 0 (mem_range.mpr m.instancePositive), statementOf_zero, one_mul]
  intro k member nonzero
  rw [waste.v_eq_zero domain shape (Nat.pos_of_ne_zero nonzero) (mem_range.mp member), mul_zero]

/-- A target only reads the instance part of an assignment. -/
theorem bakedTarget_publicInputs (shape : OuterShape m) (e : Pairing F G1 G2 GT) (g1 : G1) (g2 : G2)
    (z : Assignment m) : waste.bakedTarget domain shape e g1 g2 (statementOf z.publicInputs) =
      waste.bakedTarget domain shape e g1 g2 z.value := by
  have gaps : waste.gapAt domain shape g1 (statementOf z.publicInputs) = waste.gapAt domain shape g1 z.value :=
    sum_congr rfl fun k member => by rw [statementOf_publicInputs z (mem_range.mp member)]
  rw [Trapdoor.bakedTarget, Trapdoor.bakedTarget, waste.instanceScalar_publicInputs, gaps]

variable [DecidableEq F] [DecidableEq G1]

/-- The schedule of a lean proof's commitments, over the bases of any statement, is the target of its
own statement. -/
theorem schedule_lean (shape : OuterShape m) {e : Pairing F G1 G2 GT} (deltaNonzero : waste.delta ≠ 0)
    (fits : m.numVars ≤ 2 ^ 32) (rows : m.numConstraints ≤ domain.size) {g1 : G1} {g2 : G2}
    {tConstPointsGt : List GT} {x : List F} {bases : ColumnBases G2}
    (built : buildColumnBases (PvugcVk.ofProvingKey (waste.provingKey domain m g1 g2) tConstPointsGt)
      (waste.provingKey domain m g1 g2).vk x = .ok bases)
    {z : Assignment m} (satisfied : z.Satisfies) {r s : F} {lean : Proof G1 G2} {full : List F}
    (proved : proveLeanWithRandomizers (leanProvingKey (waste.provingKey domain m g1 g2)
      (waste.publishedBases domain m g1)) z r s = .ok (lean, full))
    {deriveRTheta : G1 → G1 → F → F} {commitments : OneSidedCommitments G1}
    (committed : buildCommitments deriveRTheta lean.a lean.c s z.fullAssignment m.numInstanceVariables =
      some commitments) :
    commitments.xBCols.length = bases.yCols.length ∧
      schedule e.pairing commitments bases.yCols bases.delta =
        waste.bakedTarget domain shape e g1 g2 (statementOf z.publicInputs) := by
  rw [proveLeanWithRandomizers_eq] at proved
  cases proved
  obtain ⟨lengths, -, value⟩ := schedule_honest (e := e) built _ _ s z committed
  refine ⟨lengths, ?_⟩
  rw [value, publicLeg_eq shape x, ← publicLeg_eq shape z.publicInputs, bScalar_eq,
    waste.lean_equation shape e deltaNonzero fits rows g1 g2 satisfied r s, add_sub_cancel_right,
    bakedTarget_publicInputs]

end Shape

section EndToEnd

variable {F G1 G2 GT D : Type} [Field F] [DecidableEq F] [AddCommGroup G1] [Module F G1] [DecidableEq G1]
variable [AddCommGroup G2] [Module F G2] [DecidableEq G2] [AddCommGroup GT] [Module F GT] [DecidableEq GT]
variable {backend : PolynomialBackend F} {m : ConstraintMatrices F} {waste : Trapdoor F}
variable {g1 : G1} {g2 : G2} {pk : ProvingKey G1 G2} {domain : EvaluationDomain F}

/-- The equation and the acceptance of a lean bundle under the key of the trapdoor. -/
theorem leanBundle_accepted [DecidableEq D] (shape : OuterShape m) {e : Pairing F G1 G2 GT}
    (characteristic : (e.modulus : F) = 0) {hashG2 : G2 → D} (deriveRTheta : G1 → G1 → F → F)
    (gammaNonzero : waste.gamma ≠ 0) (deltaNonzero : waste.delta ≠ 0) (fits : m.numVars ≤ 2 ^ 32)
    (rows : m.numConstraints ≤ domain.size) {z : Assignment m} (satisfied : z.Satisfies) {rho : F}
    {bases : ColumnBases G2} {arms : ColumnArms G2} {target key : GT}
    (setup : setupAndArm e hashG2 (PvugcVk.ofProvingKey (waste.provingKey domain m g1 g2)
        (tabulate m.numInstanceVariables fun k =>
          e.pairing (waste.gapPoint domain shape g1 k) (waste.delta • g2)))
      (waste.provingKey domain m g1 g2).vk z.publicInputs rho = .ok (bases, arms, target, key))
    (foreign : (waste.provingKey domain m g1 g2).vk.gammaG2 ∉ bases.yCols) (r s : F) :
    ∃ lean commitments,
      proveLeanWithRandomizers (leanProvingKey (waste.provingKey domain m g1 g2)
        (waste.publishedBases domain m g1)) z r s = .ok (lean, z.fullAssignment) ∧
      buildCommitments deriveRTheta lean.a lean.c s z.fullAssignment m.numInstanceVariables =
        some commitments ∧
      e.pairing lean.a lean.b = target + e.pairing lean.c (waste.delta • g2) ∧
      (verifyWithLimits e { groth16Proof := lean, gsCommitments := commitments }
          (PvugcVk.ofProvingKey (waste.provingKey domain m g1 g2) (tabulate m.numInstanceVariables fun k =>
            e.pairing (waste.gapPoint domain shape g1 k) (waste.delta • g2)))
          (waste.provingKey domain m g1 g2).vk z.publicInputs .none = true ↔
        waste.bakedScalar domain shape (statementOf z.publicInputs) = 0) := by
  obtain ⟨-, -, baked, nonzero, columns, -, -, -⟩ := setupAndArm_eq_ok.mp setup
  have value := waste.computeBakedTarget_setup domain shape e gammaNonzero g1 g2 baked
  have proved := proveLeanWithRandomizers_eq waste domain g1 g2 (waste.publishedBases domain m g1) z r s
  set lean : Proof G1 G2 := {
    a := waste.aScalar domain z r • g1
    b := waste.bScalar domain z s • g2
    c := waste.cLinearScalar domain z r s • g1 + quadraticSum (waste.publishedBases domain m g1) z }
  obtain ⟨commitments, committed⟩ := buildCommitments_exists deriveRTheta lean.a lean.c s z
  have equation : e.pairing lean.a lean.b = target + e.pairing lean.c (waste.delta • g2) := by
    rw [value, bakedTarget_publicInputs]
    exact waste.lean_equation shape e deltaNonzero fits rows g1 g2 satisfied r s
  refine ⟨lean, commitments, proved, committed, equation, ?_⟩
  have reached := (schedule_lean shape (e := e) deltaNonzero fits rows columns satisfied proved committed).2
  have generators : e.pairing g1 g2 ≠ 0 := by
    intro degenerate
    apply nonzero
    rw [value, Trapdoor.bakedTarget, waste.pairing_gapAt_bakedScalar domain shape e deltaNonzero, degenerate,
      smul_zero, smul_zero, add_zero]
  rw [verifyWithLimits_honest characteristic setup foreign lean s z committed,
    waste.verify_provingKey domain m e gammaNonzero g1 g2 (publicInputs_length z) lean, equation,
    add_left_inj, reached, value, Trapdoor.bakedTarget,
    waste.pairing_gapAt_bakedScalar domain shape e deltaNonzero, add_eq_left, smul_eq_zero,
    or_iff_left generators, and_iff_left rfl]

/-- Every lean proof decapsulates, under the arms of any statement, to the armed baked target of its
own statement, whatever its witness and randomizers. -/
theorem decap_lean (generated : generateParametersWithQap backend m waste g1 g2 = .ok pk)
    (created : backend.newDomain m.qapDomainSize = some domain) (outside : waste.tau ^ domain.size ≠ 1)
    (fits : m.numVars ≤ 2 ^ 32) (shape : OuterShape m) {e : Pairing F G1 G2 GT}
    (characteristic : (e.modulus : F) = 0) (deriveRTheta : G1 → G1 → F → F)
    {samples : List (Assignment m)} (satisfied : ∀ z ∈ samples, z.Satisfies)
    (independent : AffineIndependent F fun i : Fin samples.length => instancePoint (samples.get i))
    {pvugcVk : PvugcVk G2 GT} {leanPk : LeanProvingKey G1 G2}
    (built : buildPvugcSetupFromPk e backend pk samples = some (pvugcVk, leanPk)) :
    ∃ target : List F → GT,
      (∀ x value, computeBakedTarget e pk.vk pvugcVk x = .ok value → value = target x) ∧
      ∀ (x : List F) (bases : ColumnBases G2), buildColumnBases pvugcVk pk.vk x = .ok bases →
        ∀ (rho : F) (arms : ColumnArms G2), armColumns bases rho = .ok arms →
          ∀ z : Assignment m, z.Satisfies → ∀ r s : F, ∃ lean commitments,
            proveLeanWithRandomizers leanPk z r s = .ok (lean, z.fullAssignment) ∧
            buildCommitments deriveRTheta lean.a lean.c s z.fullAssignment m.numInstanceVariables =
              some commitments ∧
            ∀ debugAssertions, decap debugAssertions e commitments arms =
              .ok (rho • target z.publicInputs) := by
  obtain ⟨gammaNonzero, deltaNonzero, _, located, rfl⟩ := generateParametersWithQap_eq_ok.mp generated
  cases created.symm.trans located
  obtain ⟨rfl, rfl⟩ := buildPvugcSetupFromPk_shape created outside fits shape satisfied independent built
  refine ⟨fun x => waste.bakedTarget domain shape e g1 g2 (statementOf x), ?_, ?_⟩
  · intro x value computed
    exact waste.computeBakedTarget_setup domain shape e gammaNonzero g1 g2 computed
  · intro x bases columns rho arms armed z zSatisfied r s
    have proved := proveLeanWithRandomizers_eq waste domain g1 g2 (waste.publishedBases domain m g1) z r s
    obtain ⟨commitments, committed⟩ := buildCommitments_exists deriveRTheta
      (waste.aScalar domain z r • g1)
      (waste.cLinearScalar domain z r s • g1 + quadraticSum (waste.publishedBases domain m g1) z) s z
    refine ⟨_, commitments, proved, committed, ?_⟩
    intro debugAssertions
    obtain ⟨lengths, value⟩ := schedule_lean shape (e := e) deltaNonzero fits
      (newDomain_numConstraints created) columns zSatisfied proved committed
    dsimp only
    rw [← value]
    exact decapsulate_armed armed (good_of_module characteristic commitments) lengths debugAssertions

theorem decap_lean_boundSquare : ∃ (pvugcVk : PvugcVk (ZMod 13) (ZMod 13))
    (leanPk : LeanProvingKey (ZMod 13) (ZMod 13)) (bases : ColumnBases (ZMod 13)) (arms : ColumnArms (ZMod 13))
    (lean : Proof (ZMod 13) (ZMod 13)) (commitments : OneSidedCommitments (ZMod 13)),
    buildPvugcSetupFromPk (mulPairing (ZMod 13) 13) smallBackend
      boundSquarePk
      [boundSquareOf 0, boundSquareOf 1] = some (pvugcVk, leanPk) ∧
    buildColumnBases pvugcVk boundSquarePk.vk [(5 : ZMod 13)] =
      .ok bases ∧
    armColumns bases (2 : ZMod 13) = .ok arms ∧
    proveLeanWithRandomizers leanPk (boundSquareOf 3) 6 7 = .ok (lean, [1, 3, 3, 9]) ∧
    buildCommitments (fun a c s => a + c + s) lean.a lean.c 7 [1, 3, 3, 9] 2 = some commitments ∧
    decap true (mulPairing (ZMod 13) 13) commitments arms = .ok (2 * 7) := by
  obtain ⟨target, baked, reached⟩ := decap_lean boundSquare_generated rfl (by decide) (by decide)
    boundSquareShape (e := mulPairing (ZMod 13) 13) (by decide) (fun a c s => a + c + s) (by decide)
    boundSquare_samples boundSquare_setup
  have columns : buildColumnBases boundSquareVk
      boundSquarePk.vk [(5 : ZMod 13)] =
        .ok { yCols := [3, 4, 0], delta := 5 } := by
    decide +kernel
  have armed : armColumns ({ yCols := [3, 4, 0], delta := 5 } : ColumnBases (ZMod 13)) (2 : ZMod 13) =
      .ok { yColsRho := [6, 8, 0], deltaRho := 10 } := by
    decide
  have value : computeBakedTarget (mulPairing (ZMod 13) 13)
      boundSquarePk.vk boundSquareVk [3] =
        .ok 7 := by
    decide +kernel
  obtain ⟨lean, commitments, proved, committed, decapsulated⟩ :=
    reached [5] _ columns 2 _ armed (boundSquareOf 3) (by decide) 6 7
  refine ⟨_, _, _, _, lean, commitments, boundSquare_setup, columns, armed, proved, committed, ?_⟩
  rw [decapsulated true, baked [3] 7 value]
  rfl

/-- The wrapped system has no public input, so it has the outer shape. -/
def wrappedShape : OuterShape wrappedSystem where
  bindRow _ := 0
  xWit _ := 0
  bindRow_lt _ positive inside := absurd inside (Nat.not_lt_of_le positive)
  aRow _ positive inside := absurd inside (Nat.not_lt_of_le positive)
  bRow _ positive inside := absurd inside (Nat.not_lt_of_le positive)
  cRow _ positive inside := absurd inside (Nat.not_lt_of_le positive)
  xWit_witness _ positive inside := absurd inside (Nat.not_lt_of_le positive)
  xWit_injective _ _ positive inside := absurd inside (Nat.not_lt_of_le positive)
  a_free _ term _ := Nat.eq_zero_or_pos term.2
  b_free _ term _ := Nat.eq_zero_or_pos term.2
  c_free _ term _ := (Nat.eq_zero_or_pos term.2).imp_right Or.inl

/-- The key with the baked point of the sample whose wrapped column is zero. -/
def wrappedVk : PvugcVk (ZMod 13) (ZMod 13) := PvugcVk.ofProvingKey wrappedPk [3]

abbrev wrappedLeanPk : LeanProvingKey (ZMod 13) (ZMod 13) :=
  leanProvingKey wrappedPk (smallWaste.publishedBases fourthRoots wrappedSystem 1)

/-- The audits do not see that the stored indices are wrapped. -/
theorem buildLeanProvingKey_wrapped :
    buildLeanProvingKey smallBackend wrappedPk wrappedSystem = some wrappedLeanPk := by
  have noPublic (i : ℕ) : isPublicColumn 1 i = false := by
    simp only [isPublicColumn, Bool.and_eq_false_iff, decide_eq_false_iff_not]
    omega
  have instances : wrappedPk.vk.gammaAbcG1.length = 1 := rfl
  have index (stored : UInt32 × UInt32 × ZMod 13)
      (member : stored ∈ smallWaste.publishedBases fourthRoots wrappedSystem (1 : ZMod 13)) :
      ¬(stored.1.toNat = 0 ∧ stored.2.1.toNat = 0) := by
    rcases publishedBases_wrappedSystem member with ⟨left, right⟩ | ⟨left, right⟩ | ⟨left, right⟩ <;>
      rw [left, right] <;> decide
  have witness : auditWitnessBases 1 (smallWaste.publishedBases fourthRoots wrappedSystem (1 : ZMod 13)) =
      true := by
    simp only [auditWitnessBases, noPublic, Bool.and_eq_true, List.all_eq_true, beq_iff_eq, List.countP_eq_zero]
    refine ⟨⟨fun _ _ => ⟨rfl, rfl⟩, fun _ _ => by simp⟩, ?_⟩
    intro stored member
    simpa using index stored member
  have aQuery : auditAQuery 1 wrappedPk.aQuery = true := by
    have included : 1 ≤ wrappedSystem.numVars := by decide
    simp only [auditAQuery, Trapdoor.provingKey, tabulate_take _ included, tabulate_drop]
    rfl
  have published : auditLeanProvingKey wrappedLeanPk = true := by
    simp only [auditLeanProvingKey, leanProvingKey, instances, aQuery, noPublic, Bool.true_and, List.all_eq_true]
    intro stored member
    obtain ⟨pair, -, located⟩ := List.mem_filterMap.mp member
    have nonzero : stored.2.2 ≠ 0 := by
      split at located
      case isTrue => cases located
      case isFalse nonzero =>
        cases located
        exact nonzero
    simpa [nonzero, imp_iff_not_or] using index stored member
  rw [buildLeanProvingKey, wrappedSystem_computed]
  dsimp only
  rw [instances, witness, aQuery, published, if_neg (by decide), if_neg (by decide), if_neg (by decide)]

/-- The lean prover adds nothing on either bit, so the gap of a sample is its whole quotient. -/
theorem sampleGap_wrapped {bit : ZMod 13} (idempotent : bit * bit = bit) :
    sampleGap smallBackend wrappedPk wrappedLeanPk (wrappedOf bit) =
      some ([], smallWaste.quotientScalar fourthRoots (wrappedOf bit) • 1) := by
  have created : smallBackend.newDomain wrappedSystem.qapDomainSize = some fourthRoots := rfl
  have satisfied : (wrappedOf bit).Satisfies := idempotentOf_satisfies _ idempotent
  obtain ⟨standard, lean, standardOk, leanOk, sameA, sameB, gap⟩ := standard_sub_lean created smallWaste
    (1 : ZMod 13) (1 : ZMod 13) (smallWaste.publishedBases fourthRoots wrappedSystem 1) satisfied 0 0
  rw [quadraticSum_wrappedOf, sub_zero] at gap
  rw [sampleGap_of_proofs standardOk leanOk sameA sameB, gap]
  rfl

theorem wrappedSystem_setup : buildPvugcSetupFromPk (mulPairing (ZMod 13) 13) smallBackend wrappedPk
    [wrappedOf 0] = some (wrappedVk, wrappedLeanPk) := by
  have quotient : smallWaste.quotientScalar fourthRoots (wrappedOf 0) • (1 : ZMod 13) = 11 := by
    rw [idempotentOf_quotient]
    decide +kernel
  have sampled : [wrappedOf 0].mapM (sampleGap smallBackend wrappedPk wrappedLeanPk) = some [([], 11)] := by
    rw [List.mapM_cons, List.mapM_nil, sampleGap_wrapped (zero_mul (0 : ZMod 13)), quotient]
    rfl
  exact buildPvugcSetupFromPk_of_points rfl buildLeanProvingKey_wrapped
    (computeTConstPointsGtFromGap_of_gaps sampled rfl)

abbrev wrappedBases : ColumnBases (ZMod 13) := smallWaste.columnBases fourthRoots wrappedSystem 1 []

/-- The schedule of a proof with the bit one, while the baked point is the one of the bit zero. -/
theorem schedule_wrapped {deriveRTheta : ZMod 13 → ZMod 13 → ZMod 13 → ZMod 13}
    {commitments : OneSidedCommitments (ZMod 13)}
    (committed : buildCommitments deriveRTheta (smallWaste.aScalar fourthRoots (wrappedOf 1) 0 • (1 : ZMod 13))
      (smallWaste.cLinearScalar fourthRoots (wrappedOf 1) 0 0 • 1) (0 : ZMod 13) (wrappedOf 1).fullAssignment
      wrappedSystem.numInstanceVariables = some commitments) :
    schedule (mulPairing (ZMod 13) 13).pairing commitments wrappedBases.yCols wrappedBases.delta = 8 := by
  have value := (smallWaste.schedule_buildCommitments fourthRoots (mulPairing (ZMod 13) 13) 1 deriveRTheta _ _ 0
    (smallWaste.beta + ∑ k ∈ range wrappedSystem.numInstanceVariables,
      statementOf (wrappedOf 1).publicInputs k * smallWaste.v fourthRoots wrappedSystem k)
    (wrappedOf 1) committed).2.2
  have quotient : smallWaste.quotientScalar fourthRoots (wrappedOf 1) = 5 := by
    rw [idempotentOf_quotient]
    decide +kernel
  have instances : smallWaste.instanceScalar fourthRoots wrappedSystem (wrappedOf 1).value = 3 := by
    rw [Trapdoor.instanceScalar]
    change ∑ k ∈ range 1, (wrappedOf 1).value k * _ = (3 : ZMod 13)
    rw [sum_range_one, Assignment.value_zero]
    decide +kernel
  have equation := smallWaste.proof_equation fourthRoots (wrappedOf 1) 0 0 (by decide)
  rw [bScalar_eq, Pairing.smul_left_right, Pairing.smul_left_right, equation, instances, quotient, ← sub_smul,
    add_mul, ← add_assoc, add_right_comm, add_sub_cancel_right] at value
  exact value.trans (by decide)

/-- Past the 32-bit limit the baked point depends on the sample's witness, and another witness of the
same statement decapsulates to another key. -/
theorem decap_lean_wrapped : ∃ (pvugcVk : PvugcVk (ZMod 13) (ZMod 13))
    (leanPk : LeanProvingKey (ZMod 13) (ZMod 13)) (bases : ColumnBases (ZMod 13)) (arms : ColumnArms (ZMod 13))
    (lean : Proof (ZMod 13) (ZMod 13)) (commitments : OneSidedCommitments (ZMod 13)) (target key : ZMod 13),
    Nonempty (OuterShape wrappedSystem) ∧
    generateParametersWithQap smallBackend wrappedSystem smallWaste 1 1 = .ok wrappedPk ∧
    (wrappedOf 0).Satisfies ∧
    AffineIndependent (ZMod 13) (fun i : Fin [wrappedOf 0].length => instancePoint ([wrappedOf 0].get i)) ∧
    buildPvugcSetupFromPk (mulPairing (ZMod 13) 13) smallBackend wrappedPk [wrappedOf 0] =
      some (pvugcVk, leanPk) ∧
    buildColumnBases pvugcVk wrappedPk.vk ([] : List (ZMod 13)) = .ok bases ∧
    armColumns bases (1 : ZMod 13) = .ok arms ∧
    (wrappedOf 1).Satisfies ∧ (wrappedOf 1).publicInputs = [] ∧
    proveLeanWithRandomizers leanPk (wrappedOf 1) 0 0 = .ok (lean, (wrappedOf 1).fullAssignment) ∧
    buildCommitments (fun a c s => a + c + s) lean.a lean.c 0 (wrappedOf 1).fullAssignment
      wrappedSystem.numInstanceVariables = some commitments ∧
    computeBakedTarget (mulPairing (ZMod 13) 13) wrappedPk.vk pvugcVk ([] : List (ZMod 13)) = .ok target ∧
    decap true (mulPairing (ZMod 13) 13) commitments arms = .ok key ∧ key ≠ 1 * target := by
  have columns : buildColumnBases wrappedVk wrappedPk.vk ([] : List (ZMod 13)) = .ok wrappedBases :=
    (smallWaste.buildColumnBases_provingKey fourthRoots wrappedSystem 1 1 [3]).mpr ⟨rfl, Nat.succ_pos _, rfl⟩
  have armed : armColumns wrappedBases (1 : ZMod 13) =
      .ok { yColsRho := wrappedBases.yCols.map ((1 : ZMod 13) • ·)
            deltaRho := (1 : ZMod 13) • wrappedBases.delta } :=
    armColumns_eq_ok.mpr ⟨one_ne_zero, by decide, rfl⟩
  have proved := proveLeanWithRandomizers_eq smallWaste fourthRoots (1 : ZMod 13) (1 : ZMod 13)
    (smallWaste.publishedBases fourthRoots wrappedSystem 1) (wrappedOf 1) 0 0
  rw [quadraticSum_wrappedOf, add_zero] at proved
  obtain ⟨commitments, committed⟩ := buildCommitments_exists (fun a c s => a + c + s)
    (smallWaste.aScalar fourthRoots (wrappedOf 1) 0 • (1 : ZMod 13))
    (smallWaste.cLinearScalar fourthRoots (wrappedOf 1) 0 0 • 1) 0 (wrappedOf 1)
  obtain ⟨lengths, -, -⟩ := schedule_honest (e := mulPairing (ZMod 13) 13) columns _ _ 0 (wrappedOf 1)
    committed
  have single : Subsingleton (Fin [wrappedOf 0].length) := inferInstanceAs (Subsingleton (Fin 1))
  have characteristic : ((13 : ℕ) : ZMod 13) = 0 := by decide
  have good := good_of_module characteristic commitments
  have target : computeBakedTarget (mulPairing (ZMod 13) 13) wrappedPk.vk wrappedVk ([] : List (ZMod 13)) =
      .ok 12 := by
    decide +kernel
  have decapsulated := decapsulate_armed (e := mulPairing (ZMod 13) 13) armed good lengths true
  refine ⟨wrappedVk, wrappedLeanPk, _, _, _, commitments, 12, _, ⟨wrappedShape⟩, wrappedSystem_generated,
    idempotentOf_satisfies _ (zero_mul 0), affineIndependent_of_subsingleton _ _, wrappedSystem_setup, columns,
    armed, idempotentOf_satisfies _ (one_mul 1), rfl, proved, committed, target, decapsulated, ?_⟩
  rw [schedule_wrapped committed]
  decide

/-- A lean proof satisfies the equation with the baked target, but without limits the verifier accepts
its bundle exactly when the baked quotient of the statement vanishes. -/
theorem verifyWithLimits_lean [DecidableEq D]
    (generated : generateParametersWithQap backend m waste g1 g2 = .ok pk)
    (created : backend.newDomain m.qapDomainSize = some domain) (outside : waste.tau ^ domain.size ≠ 1)
    (fits : m.numVars ≤ 2 ^ 32) (shape : OuterShape m) {e : Pairing F G1 G2 GT}
    (characteristic : (e.modulus : F) = 0) (hashG2 : G2 → D) (deriveRTheta : G1 → G1 → F → F)
    {samples : List (Assignment m)} (satisfied : ∀ z ∈ samples, z.Satisfies)
    (independent : AffineIndependent F fun i : Fin samples.length => instancePoint (samples.get i))
    {pvugcVk : PvugcVk G2 GT} {leanPk : LeanProvingKey G1 G2}
    (built : buildPvugcSetupFromPk e backend pk samples = some (pvugcVk, leanPk))
    {z : Assignment m} (zSatisfied : z.Satisfies) {rho : F} {bases : ColumnBases G2} {arms : ColumnArms G2}
    {target key : GT}
    (setup : setupAndArm e hashG2 pvugcVk pk.vk z.publicInputs rho = .ok (bases, arms, target, key))
    (foreign : pk.vk.gammaG2 ∉ bases.yCols) (r s : F) :
    ∃ lean commitments,
      proveLeanWithRandomizers leanPk z r s = .ok (lean, z.fullAssignment) ∧
      buildCommitments deriveRTheta lean.a lean.c s z.fullAssignment m.numInstanceVariables =
        some commitments ∧
      e.pairing lean.a lean.b = target + e.pairing lean.c pk.vk.deltaG2 ∧
      (verifyWithLimits e { groth16Proof := lean, gsCommitments := commitments } pvugcVk pk.vk
          z.publicInputs .none = true ↔
        waste.bakedScalar domain shape (statementOf z.publicInputs) = 0) := by
  obtain ⟨gammaNonzero, deltaNonzero, _, located, rfl⟩ := generateParametersWithQap_eq_ok.mp generated
  cases created.symm.trans located
  obtain ⟨rfl, rfl⟩ := buildPvugcSetupFromPk_shape created outside fits shape satisfied independent built
  exact leanBundle_accepted shape characteristic deriveRTheta gammaNonzero deltaNonzero fits
    (newDomain_numConstraints created) zSatisfied setup foreign r s

theorem verifyWithLimits_lean_boundSquare : ∃ (lean : Proof (ZMod 13) (ZMod 13))
    (commitments : OneSidedCommitments (ZMod 13)),
    proveLeanWithRandomizers (leanProvingKey boundSquarePk (smallWaste.publishedBases fourthRoots boundSquare 1))
      (boundSquareOf 0) 6 7 = .ok (lean, [1, 0, 0, 0]) ∧
    buildCommitments (fun a c s => a + c + s) lean.a lean.c 7 [1, 0, 0, 0] 2 = some commitments ∧
    verifyWithLimits (mulPairing (ZMod 13) 13) { groth16Proof := lean, gsCommitments := commitments }
      boundSquareVk boundSquarePk.vk [(0 : ZMod 13)] .none = true := by
  have setup : setupAndArm (mulPairing (ZMod 13) 13) id boundSquareVk boundSquarePk.vk
      (boundSquareOf 0).publicInputs 2 =
        .ok ({ yCols := [3, 4, 0], delta := 5 }, { yColsRho := [6, 8, 0], deltaRho := 10 }, 1, 2) := by
    decide +kernel
  obtain ⟨lean, commitments, proved, committed, -, accepted⟩ := verifyWithLimits_lean boundSquare_generated rfl
    (by decide) (by decide) boundSquareShape (e := mulPairing (ZMod 13) 13) (by decide) id
    (fun a c s => a + c + s) (by decide) boundSquare_samples boundSquare_setup (by decide) setup
    (by decide) 6 7
  exact ⟨lean, commitments, proved, committed, accepted.mpr (by decide +kernel)⟩

/-- An honest lean bundle for the input three satisfies the baked equation and is rejected. -/
theorem verifyWithLimits_rejects_lean : ∃ (pvugcVk : PvugcVk (ZMod 13) (ZMod 13))
    (leanPk : LeanProvingKey (ZMod 13) (ZMod 13)) (bases : ColumnBases (ZMod 13)) (arms : ColumnArms (ZMod 13))
    (lean : Proof (ZMod 13) (ZMod 13)) (commitments : OneSidedCommitments (ZMod 13)) (target key : ZMod 13),
    Nonempty (OuterShape boundSquare) ∧
    generateParametersWithQap smallBackend boundSquare smallWaste 1 1 = .ok boundSquarePk ∧
    buildPvugcSetupFromPk (mulPairing (ZMod 13) 13) smallBackend boundSquarePk
      [boundSquareOf 0, boundSquareOf 1] = some (pvugcVk, leanPk) ∧
    (boundSquareOf 3).Satisfies ∧
    setupAndArm (mulPairing (ZMod 13) 13) id pvugcVk boundSquarePk.vk [(3 : ZMod 13)] 2 =
      .ok (bases, arms, target, key) ∧ boundSquarePk.vk.gammaG2 ∉ bases.yCols ∧
    proveLeanWithRandomizers leanPk (boundSquareOf 3) 6 7 = .ok (lean, [1, 3, 3, 9]) ∧
    buildCommitments (fun a c s => a + c + s) lean.a lean.c 7 [1, 3, 3, 9] 2 = some commitments ∧
    lean.a * lean.b = target + lean.c * boundSquarePk.vk.deltaG2 ∧
    verifyWithLimits (mulPairing (ZMod 13) 13) { groth16Proof := lean, gsCommitments := commitments }
      pvugcVk boundSquarePk.vk [(3 : ZMod 13)] .none = false := by
  have setup : setupAndArm (mulPairing (ZMod 13) 13) id boundSquareVk boundSquarePk.vk
      (boundSquareOf 3).publicInputs 2 =
        .ok ({ yCols := [3, 4, 0], delta := 5 }, { yColsRho := [6, 8, 0], deltaRho := 10 }, 7, 1) := by
    decide +kernel
  have foreign : boundSquarePk.vk.gammaG2 ∉ [(3 : ZMod 13), 4, 0] := by decide
  obtain ⟨lean, commitments, proved, committed, equation, accepted⟩ := leanBundle_accepted boundSquareShape
    (e := mulPairing (ZMod 13) 13) (by decide) (fun a c s => a + c + s) (by decide) (by decide) (by decide)
    (by decide) (by decide : (boundSquareOf 3).Satisfies) setup foreign 6 7
  have quotient : smallWaste.bakedScalar fourthRoots boundSquareShape
      (statementOf (boundSquareOf 3).publicInputs) ≠ 0 := by
    decide +kernel
  exact ⟨_, _, _, _, lean, commitments, 7, 1, ⟨boundSquareShape⟩, boundSquare_generated, boundSquare_setup,
    by decide, setup, foreign, proved, committed, equation,
    Bool.eq_false_iff.mpr fun impossible => quotient (accepted.mp impossible)⟩

end EndToEnd

end Pvugc.Outer
