import Pvugc.OneSided.Admissible
import Pvugc.OneSided.Standard

namespace Pvugc.OneSided
open Pvugc.Algebra Pvugc.Groth16 Finset

section Limits

variable {F G1 G2 GT : Type} [AddCommGroup G1] [AddCommGroup G2] [AddCommGroup GT]
variable [SMul F G1] [SMul F G2] [SMul F GT] [DecidableEq G1] [DecidableEq G2] [DecidableEq GT]
variable {e : Pairing F G1 G2 GT} {pvugcVk : PvugcVk G2 GT} {vk : VerifyingKey G1 G2}
variable {publicInputs : List F} {bundle : PvugcBundle G1 G2}

/-- The limits only compare the sizes of the key and of the commitments. -/
theorem verifyWithLimits_limits (limits : VerifyLimits) :
    verifyWithLimits e bundle pvugcVk vk publicInputs limits = true ↔
      verifyWithLimits e bundle pvugcVk vk publicInputs .none = true ∧
      exceeds limits.maxBColumns pvugcVk.bG2Query.length = false ∧
      exceeds limits.maxThetaRows bundle.gsCommitments.theta.length = false ∧
      exceeds limits.maxTotalPairings (totalPairings bundle.gsCommitments.xBCols.length
        bundle.gsCommitments.theta.length) = false := by
  rw [verifyWithLimits_eq_true, verifyWithLimits_eq_true]
  constructor
  · rintro ⟨validPvugc, validGroth16, bColumns, proof, publicBLeg, witnessBases, rBaked, split, good, target, nonzero,
      columns, rows, thetaRows, pairings, excluded, value⟩
    rw [← columns] at pairings
    exact ⟨⟨validPvugc, validGroth16, rfl, proof, publicBLeg, witnessBases, rBaked, split, good, target, nonzero,
      columns, rows, rfl, rfl, excluded, value⟩, bColumns, thetaRows, pairings⟩
  · rintro ⟨⟨validPvugc, validGroth16, -, proof, publicBLeg, witnessBases, rBaked, split, good, target, nonzero,
      columns, rows, -, -, excluded, value⟩, bColumns, thetaRows, pairings⟩
    rw [columns] at pairings
    exact ⟨validPvugc, validGroth16, bColumns, proof, publicBLeg, witnessBases, rBaked, split, good, target, nonzero,
      columns, rows, thetaRows, pairings, excluded, value⟩

/-- An accepted bundle has at most one column for each entry of the query. -/
theorem columns_le_of_accepted {limits : VerifyLimits}
    (accepted : verifyWithLimits e bundle pvugcVk vk publicInputs limits = true) :
    bundle.gsCommitments.xBCols.length ≤ pvugcVk.bG2Query.length := by
  obtain ⟨-, -, -, -, publicBLeg, witnessBases, rBaked, split, -, -, -, columns, -⟩ :=
    verifyWithLimits_eq_true.mp accepted
  obtain ⟨length, columnsLeft, -, rfl⟩ := splitStatementOnlyBases_eq_ok.mp split
  rw [columns, List.length_cons, List.length_drop]
  omega

/-- Within the default limits for the columns and the rows, the pairing budget rejects nothing more. -/
theorem default_limits_iff {columns rows entries : ℕ} (fewer : columns ≤ entries) :
    (exceeds VerifyLimits.default.maxBColumns entries = false ∧
      exceeds VerifyLimits.default.maxThetaRows rows = false ∧
      exceeds VerifyLimits.default.maxTotalPairings (totalPairings columns rows) = false) ↔
    entries ≤ 24 ∧ rows ≤ 22 := by
  simp only [VerifyLimits.default, exceeds, Option.any_some, decide_eq_false_iff_not, not_lt]
  constructor
  · rintro ⟨columns, rows, -⟩
    exact ⟨columns, rows⟩
  · rintro ⟨columns, rows⟩
    refine ⟨columns, rows, ?_⟩
    rw [totalPairings, saturatingAdd, saturatingAdd, saturatingMul, saturatingMul]
    omega

/-- With the default limits, a bundle is accepted exactly when it is accepted without limits, the query has at most 24
entries and there are at most 22 rows; the pairing budget rejects nothing more. -/
theorem verifyBundle_iff :
    verifyBundle e bundle pvugcVk vk publicInputs = true ↔
      verifyWithLimits e bundle pvugcVk vk publicInputs .none = true ∧
        pvugcVk.bG2Query.length ≤ 24 ∧ bundle.gsCommitments.theta.length ≤ 22 := by
  rw [verifyBundle, verifyWithLimits_limits]
  exact and_congr_right fun accepted => default_limits_iff (columns_le_of_accepted accepted)

end Limits

section Honest

variable {F G1 G2 GT D : Type} [Field F] [AddCommGroup G1] [Module F G1]
variable [AddCommGroup G2] [Module F G2] [AddCommGroup GT] [Module F GT]
variable [DecidableEq F] [DecidableEq G1] [DecidableEq G2] [DecidableEq GT] [DecidableEq D]

variable {backend : PolynomialBackend F} {m : ConstraintMatrices F} {waste : Trapdoor F} {g1 : G1} {g2 : G2}
variable {pk : ProvingKey G1 G2} {e : Pairing F G1 G2 GT} {hashG2 : G2 → D} {z : Assignment m} {rho : F}
variable {bases : ColumnBases G2} {arms : ColumnArms G2} {target key : GT}

/-- An honest prover returns a valid proof and commitments that reach the target of its statement. -/
theorem honestBundle_exists (generated : generateParametersWithQap backend m waste g1 g2 = .ok pk)
    (deriveRTheta : G1 → G1 → F → F) (satisfied : z.Satisfies)
    (setup : setupAndArm e hashG2 (PvugcVk.ofProvingKey pk (List.replicate m.numInstanceVariables 0)) pk.vk
      z.publicInputs rho = .ok (bases, arms, target, key)) (r s : F) :
    ∃ proof commitments,
      proveAndBuildCommitments backend deriveRTheta pk z r s = .ok (proof, commitments, z.fullAssignment, s) ∧
      buildCommitments deriveRTheta proof.a proof.c s z.fullAssignment m.numInstanceVariables = some commitments ∧
      verify e pk.vk z.publicInputs proof = .ok true ∧
      commitments.xBCols.length = bases.yCols.length ∧
      schedule e.pairing commitments bases.yCols bases.delta = target := by
  obtain ⟨gammaNonzero, deltaNonzero, domain, created, rfl⟩ := generateParametersWithQap_eq_ok.mp generated
  set proof : Proof G1 G2 := {
    a := waste.aScalar domain z r • g1
    b := waste.bScalar domain z s • g2
    c := (waste.cLinearScalar domain z r s + waste.quotientScalar domain z) • g1 } with parts
  have proved : createProofWithReductionAndMatrices backend (waste.provingKey domain m g1 g2) r s m
      z.fullAssignment = .ok proof := by
    rw [createProofWithReductionAndMatrices_eq, createProofWithReduction_eq created waste g1 g2 r s satisfied]
  obtain ⟨commitments, committed⟩ := buildCommitments_exists deriveRTheta proof.a proof.c s z
  have equation : e.pairing proof.a proof.b =
      (waste.alpha * waste.beta + waste.instanceScalar domain m (statementOf z.publicInputs)) •
        e.pairing g1 g2 + e.pairing proof.c (waste.delta • g2) := by
    simp only [parts, e.smul_left_right]
    rw [waste.proof_equation domain z r s deltaNonzero, waste.instanceScalar_publicInputs, add_smul]
  have valid := (waste.verify_provingKey domain m e gammaNonzero g1 g2 (publicInputs_length z) proof).mpr equation
  obtain ⟨-, -, baked, -, built, -, -, -⟩ := setupAndArm_eq_ok.mp setup
  obtain ⟨lengths, -, value⟩ := schedule_honest (e := e) built proof.a proof.c s z committed
  have points : (PvugcVk.ofProvingKey (waste.provingKey domain m g1 g2)
      (List.replicate m.numInstanceVariables (0 : GT))).tConstPointsGt =
        tabulate (z.publicInputs.length + 1) fun _ => 0 := by
    rw [publicInputs_length, Nat.sub_add_cancel m.instancePositive]
    simp [PvugcVk.ofProvingKey, tabulate]
  obtain ⟨raw, rawTarget, rfl⟩ := (Trapdoor.computeBakedTarget_eq_ok points).mp baked
  obtain ⟨-, rfl⟩ := waste.computeGroth16Target_provingKey domain m e gammaNonzero g1 g2 rawTarget
  refine ⟨proof, commitments, ?_, committed, valid, lengths, ?_⟩
  · simp only [proveAndBuildCommitments, proved, z.instanceLength, committed]
  · -- The baked points are identities, so the target is the one of the key.
    simp only [smul_zero, sum_const_zero, add_zero]
    rw [value, bScalar_eq, equation, add_sub_cancel_right]

/-- Commitments that reach the target of the bases open all arms of these bases. -/
theorem decapsulate_reached (characteristic : (e.modulus : F) = 0) {commitments : OneSidedCommitments G1}
    (lengths : commitments.xBCols.length = bases.yCols.length)
    (reached : schedule e.pairing commitments bases.yCols bases.delta = target) (armed : armColumns bases rho = .ok arms)
    (debugAssertions : Bool) : decapsulate debugAssertions e commitments arms = .ok (rho • target) := by
  rw [decapsulate_armed armed (good_of_module characteristic commitments) lengths debugAssertions, reached]

/-- The default limits accept the honest bundle of a system exactly when it has at most 24 variables, while the
bundle of every system decapsulates to the key. -/
theorem verifyBundle_honest_iff (generated : generateParametersWithQap backend m waste g1 g2 = .ok pk)
    (characteristic : (e.modulus : F) = 0) (deriveRTheta : G1 → G1 → F → F) (satisfied : z.Satisfies)
    (setup : setupAndArm e hashG2 (PvugcVk.ofProvingKey pk (List.replicate m.numInstanceVariables 0)) pk.vk
      z.publicInputs rho = .ok (bases, arms, target, key))
    (foreign : pk.vk.gammaG2 ∉ bases.yCols) (r s : F) :
    ∃ proof commitments,
      proveAndBuildCommitments backend deriveRTheta pk z r s = .ok (proof, commitments, z.fullAssignment, s) ∧
      (verifyBundle e { groth16Proof := proof, gsCommitments := commitments }
        (PvugcVk.ofProvingKey pk (List.replicate m.numInstanceVariables 0)) pk.vk z.publicInputs = true ↔
          m.numVars ≤ 24) ∧
      ∀ debugAssertions, decapsulate debugAssertions e commitments arms = .ok key := by
  obtain ⟨proof, commitments, path, committed, valid, lengths, reached⟩ :=
    honestBundle_exists generated deriveRTheta satisfied setup r s
  obtain ⟨-, -, domain, -, rfl⟩ := generateParametersWithQap_eq_ok.mp generated
  have accepted := (verifyWithLimits_honest characteristic setup foreign proof s z committed).mpr ⟨valid, reached⟩
  have rows : commitments.theta.length = 1 := by
    rw [buildCommitments] at committed
    split at committed
    case isTrue =>
      cases committed
      rfl
    case isFalse => cases committed
  have columns : (PvugcVk.ofProvingKey (waste.provingKey domain m g1 g2)
      (List.replicate m.numInstanceVariables (0 : GT))).bG2Query.length = m.numVars := tabulate_length _ _
  refine ⟨proof, commitments, path, ?_, ?_⟩
  · rw [verifyBundle, verifyWithLimits_limits, default_limits_iff (columns_le_of_accepted accepted), columns]
    simp [accepted, rows]
  · intro debugAssertions
    obtain ⟨-, -, -, -, -, -, armed, rfl⟩ := setupAndArm_eq_ok.mp setup
    exact decapsulate_reached characteristic lengths reached armed debugAssertions

/-- The bundle of three variables is accepted with the default limits. -/
theorem verifyBundle_honest_publicProduct :
    ∃ (pk : ProvingKey (ZMod 13) (ZMod 13)) (proof : Proof (ZMod 13) (ZMod 13))
      (commitments : OneSidedCommitments (ZMod 13)),
      generateParametersWithQap smallBackend publicProduct productWaste 1 1 = .ok pk ∧
      proveAndBuildCommitments smallBackend (fun a c s => a + c + s) pk publicProductOfThree 6 7 =
        .ok (proof, commitments, [1, 3, 2], 7) ∧
      verifyBundle (mulPairing (ZMod 13) 13) { groth16Proof := proof, gsCommitments := commitments }
        (PvugcVk.ofProvingKey pk [0, 0]) pk.vk [3] = true := by
  set pk : ProvingKey (ZMod 13) (ZMod 13) := productWaste.provingKey fourthRoots publicProduct 1 1
  have generated : generateParametersWithQap smallBackend publicProduct productWaste 1 1 = .ok pk :=
    generateParametersWithQap_eq_ok.mpr ⟨by decide, by decide, fourthRoots, rfl, rfl⟩
  have setup : setupAndArm (mulPairing (ZMod 13) 13) id
      (PvugcVk.ofProvingKey pk (List.replicate publicProduct.numInstanceVariables (0 : ZMod 13)))
      pk.vk publicProductOfThree.publicInputs 2 =
        .ok ({ yCols := [12, 7], delta := 5 }, { yColsRho := [11, 1], deltaRho := 10 }, 9, 5) := by
    decide +kernel
  obtain ⟨proof, commitments, path, accepted, -⟩ := verifyBundle_honest_iff generated (by decide)
    (fun a c s => a + c + s) (by decide : publicProductOfThree.Satisfies) setup (by decide) 6 7
  exact ⟨pk, proof, commitments, generated, path, accepted.mpr (by decide)⟩

end Honest

end Pvugc.OneSided
