import Pvugc.OneSided.GeneratedKey

namespace Pvugc.OneSided
open Pvugc.Algebra Pvugc.Groth16 Finset

/-- `prove_and_build_commitments` on a synthesized assignment and sampled randomizers. -/
def proveAndBuildCommitments {F G1 G2 : Type} [Field F] [DecidableEq F] [AddCommGroup G1] [Module F G1]
    [AddCommGroup G2] [Module F G2] (backend : PolynomialBackend F) (deriveRTheta : G1 → G1 → F → F)
    (pk : ProvingKey G1 G2) {m : ConstraintMatrices F} (z : Assignment m) (r s : F) :
    Except Failure (Proof G1 G2 × OneSidedCommitments G1 × List F × F) :=
  let fullAssignment := z.fullAssignment
  let numInputs := z.instanceAssignment.length
  match createProofWithReductionAndMatrices backend pk r s m fullAssignment with
  | .error failure => .error failure
  | .ok proof =>
    match buildCommitments deriveRTheta proof.a proof.c s fullAssignment numInputs with
    | none => .error .panic
    | some commitments => .ok (proof, commitments, fullAssignment, s)

section Honest

variable {F G1 G2 GT D : Type} [Field F] [AddCommGroup G1] [Module F G1]
variable [AddCommGroup G2] [Module F G2] [AddCommGroup GT] [Module F GT]
variable {e : Pairing F G1 G2 GT} {hashG2 : G2 → D} {deriveRTheta : G1 → G1 → F → F}
variable {m : ConstraintMatrices F} {waste : Trapdoor F} {domain : EvaluationDomain F} {g1 : G1} {g2 : G2}
variable {tConstPointsGt : List GT} {x : List F} {rho : F} {bases : ColumnBases G2}
variable {arms : ColumnArms G2} {target key : GT}

/-- The commitments of a whole assignment exist. -/
theorem buildCommitments_exists (deriveRTheta : G1 → G1 → F → F) (a c : G1) (s : F) (z : Assignment m) :
    ∃ commitments, buildCommitments deriveRTheta a c s z.fullAssignment m.numInstanceVariables =
      some commitments := by
  have fits : m.numInstanceVariables ≤ z.fullAssignment.length := by
    rw [z.fullAssignment_length]
    exact Nat.le_add_right _ _
  exact ⟨_, if_pos fits⟩

/-- The schedule of honest commitments over the bases of any statement. -/
theorem schedule_honest (built : buildColumnBases
      (PvugcVk.ofProvingKey (waste.provingKey domain m g1 g2) tConstPointsGt)
      (waste.provingKey domain m g1 g2).vk x = .ok bases)
    (a c : G1) (s : F) (z : Assignment m) {commitments : OneSidedCommitments G1}
    (committed : buildCommitments deriveRTheta a c s z.fullAssignment m.numInstanceVariables =
      some commitments) :
    commitments.xBCols.length = bases.yCols.length ∧ commitments.theta.isEmpty = false ∧
      schedule e.pairing commitments bases.yCols bases.delta =
        e.pairing a ((waste.beta + ∑ k ∈ range m.numInstanceVariables, statementOf x k * waste.v domain m k +
          z.witnessLinear (waste.v domain m) + s * waste.delta) • g2) - e.pairing c (waste.delta • g2) := by
  obtain ⟨-, -, rfl⟩ := (waste.buildColumnBases_provingKey domain m g1 g2 tConstPointsGt).mp built
  rw [Trapdoor.columnBases, List.length_cons, tabulate_length]
  exact waste.schedule_buildCommitments domain e g2 deriveRTheta a c s _ z committed

/-- Over the bases of its own statement, an assignment's leg and witness columns make up `B`. -/
theorem bScalar_eq (s : F) (z : Assignment m) :
    waste.beta + ∑ k ∈ range m.numInstanceVariables, statementOf z.publicInputs k * waste.v domain m k +
      z.witnessLinear (waste.v domain m) + s * waste.delta = waste.bScalar domain z s := by
  rw [Trapdoor.bScalar, z.linear_split, Assignment.instanceLinear, ← add_assoc]
  congr 3
  apply sum_congr rfl
  intro k member
  rw [statementOf_publicInputs z (mem_range.mp member)]

variable [DecidableEq F] [DecidableEq G1] [DecidableEq G2] [DecidableEq GT] [DecidableEq D]

/-- Without limits, honest commitments are accepted exactly with a valid proof and the target. -/
theorem verifyWithLimits_honest (characteristic : (e.modulus : F) = 0)
    (setup : setupAndArm e hashG2 (PvugcVk.ofProvingKey (waste.provingKey domain m g1 g2) tConstPointsGt)
      (waste.provingKey domain m g1 g2).vk x rho = .ok (bases, arms, target, key))
    (foreign : (waste.provingKey domain m g1 g2).vk.gammaG2 ∉ bases.yCols)
    (proof : Proof G1 G2) (s : F) (z : Assignment m) {commitments : OneSidedCommitments G1}
    (committed : buildCommitments deriveRTheta proof.a proof.c s z.fullAssignment m.numInstanceVariables =
      some commitments) :
    verifyWithLimits e { groth16Proof := proof, gsCommitments := commitments }
        (PvugcVk.ofProvingKey (waste.provingKey domain m g1 g2) tConstPointsGt)
        (waste.provingKey domain m g1 g2).vk x .none = true ↔
      verify e (waste.provingKey domain m g1 g2).vk x proof = .ok true ∧
        schedule e.pairing commitments bases.yCols bases.delta = target := by
  obtain ⟨validPvugc, validGroth, baked, nonzero, built, -, -, -⟩ := setupAndArm_eq_ok.mp setup
  obtain ⟨lengths, rows, -⟩ := schedule_honest (e := e) built proof.a proof.c s z committed
  rw [verifyWithLimits_eq_true]
  unfold buildColumnBases at built
  split at built
  case h_1 => cases built
  case h_2 publicLeg witnessCols split =>
    cases built
    constructor
    · rintro ⟨-, -, -, valid, publicLeg', witnessCols', target', split', -, baked', -, -, -, -, -, -, value⟩
      cases split.symm.trans split'
      cases baked.symm.trans baked'
      exact ⟨valid, value⟩
    · rintro ⟨valid, value⟩
      exact ⟨validPvugc, validGroth, rfl, valid, publicLeg, witnessCols, target, split,
        good_of_module characteristic commitments, baked, nonzero, lengths, rows, rfl, rfl, foreign, value⟩

end Honest

section Path

variable {F G1 G2 GT D : Type} [Field F] [AddCommGroup G1] [Module F G1]
variable [AddCommGroup G2] [Module F G2] [AddCommGroup GT] [Module F GT]
variable [DecidableEq F] [DecidableEq G1] [DecidableEq G2] [DecidableEq GT] [DecidableEq D]

/-- With an identity quotient every standard proof and its commitments are accepted, and they
decapsulate to the key of the setup. -/
theorem proveAndBuildCommitments_accepted {backend : PolynomialBackend F} {m : ConstraintMatrices F}
    {waste : Trapdoor F} {g1 : G1} {g2 : G2} {pk : ProvingKey G1 G2}
    (generated : generateParametersWithQap backend m waste g1 g2 = .ok pk)
    {e : Pairing F G1 G2 GT} (characteristic : (e.modulus : F) = 0) (hashG2 : G2 → D)
    (deriveRTheta : G1 → G1 → F → F) {z : Assignment m} (satisfied : z.Satisfies) {rho : F}
    {bases : ColumnBases G2} {arms : ColumnArms G2} {target key : GT}
    (setup : setupAndArm e hashG2
      (PvugcVk.ofProvingKey pk (List.replicate m.numInstanceVariables 0)) pk.vk z.publicInputs rho =
        .ok (bases, arms, target, key))
    (foreign : pk.vk.gammaG2 ∉ bases.yCols) (r s : F) :
    ∃ proof commitments,
      proveAndBuildCommitments backend deriveRTheta pk z r s =
        .ok (proof, commitments, z.fullAssignment, s) ∧
      verifyWithLimits e { groth16Proof := proof, gsCommitments := commitments }
        (PvugcVk.ofProvingKey pk (List.replicate m.numInstanceVariables 0)) pk.vk z.publicInputs .none =
          true ∧
      ∀ debugAssertions, decap debugAssertions e commitments arms = .ok key := by
  obtain ⟨gammaNonzero, deltaNonzero, domain, created, rfl⟩ := generateParametersWithQap_eq_ok.mp generated
  set proof : Proof G1 G2 := {
    a := waste.aScalar domain z r • g1
    b := waste.bScalar domain z s • g2
    c := (waste.cLinearScalar domain z r s + waste.quotientScalar domain z) • g1 } with hproof
  have proved : createProofWithReductionAndMatrices backend (waste.provingKey domain m g1 g2) r s m
      z.fullAssignment = .ok proof := by
    rw [createProofWithReductionAndMatrices_eq,
      createProofWithReduction_eq created waste g1 g2 r s satisfied]
  obtain ⟨commitments, committed⟩ := buildCommitments_exists deriveRTheta proof.a proof.c s z
  have path : proveAndBuildCommitments backend deriveRTheta (waste.provingKey domain m g1 g2) z r s =
      .ok (proof, commitments, z.fullAssignment, s) := by
    simp only [proveAndBuildCommitments, proved, z.instanceLength, committed]
  have equation : e.pairing proof.a proof.b =
      (waste.alpha * waste.beta + waste.instanceScalar domain m (statementOf z.publicInputs)) •
        e.pairing g1 g2 + e.pairing proof.c (waste.delta • g2) := by
    simp only [hproof, e.smul_left_right]
    rw [waste.proof_equation domain z r s deltaNonzero, waste.instanceScalar_publicInputs, add_smul]
  have valid := (waste.verify_provingKey domain m e gammaNonzero g1 g2 (publicInputs_length z) proof).mpr
    equation
  obtain ⟨-, -, baked, -, built, -, armed, rfl⟩ := setupAndArm_eq_ok.mp setup
  obtain ⟨lengths, -, value⟩ := schedule_honest (e := e) built proof.a proof.c s z committed
  have points : (PvugcVk.ofProvingKey (waste.provingKey domain m g1 g2)
      (List.replicate m.numInstanceVariables (0 : GT))).tConstPointsGt =
        tabulate (z.publicInputs.length + 1) fun _ => 0 := by
    rw [publicInputs_length, Nat.sub_add_cancel m.instancePositive]
    simp [PvugcVk.ofProvingKey, tabulate]
  have reached : schedule e.pairing commitments bases.yCols bases.delta = target := by
    obtain ⟨raw, rawTarget, rfl⟩ := (Trapdoor.computeBakedTarget_eq_ok points).mp baked
    obtain ⟨-, rfl⟩ := waste.computeGroth16Target_provingKey domain m e gammaNonzero g1 g2 rawTarget
    simp only [smul_zero, sum_const_zero, add_zero]
    rw [value, bScalar_eq, equation, add_sub_cancel_right]
  refine ⟨proof, commitments, path,
    (verifyWithLimits_honest characteristic setup foreign proof s z committed).mpr ⟨valid, reached⟩, ?_⟩
  intro debugAssertions
  rw [← reached]
  exact decapsulate_armed armed (good_of_module characteristic commitments) lengths debugAssertions

/-- Two rows with the public input in all three matrices: `x * (x + w) = w` and `w * 1 = x - 1`. -/
def publicProduct : ConstraintMatrices (ZMod 13) where
  numInstanceVariables := 2
  numWitnessVariables := 1
  numConstraints := 2
  a := [[(1, 1)], [(1, 2)]]
  b := [[(1, 1), (1, 2)], [(1, 0)]]
  c := [[(1, 2)], [(1, 1), (12, 0)]]
  instancePositive := Nat.two_pos
  aLength := rfl
  bLength := rfl
  cLength := rfl
  aColumns := by decide
  bColumns := by decide
  cColumns := by decide

def publicProductOfThree : Assignment publicProduct where
  instanceAssignment := [1, 3]
  witnessAssignment := [2]
  instanceLength := rfl
  witnessLength := rfl
  constantOne := rfl

abbrev productWaste : Trapdoor (ZMod 13) := { smallWaste with beta := 7 }

theorem proveAndBuildCommitments_publicProduct :
    ∃ (pk : ProvingKey (ZMod 13) (ZMod 13)) (proof : Proof (ZMod 13) (ZMod 13))
      (commitments : OneSidedCommitments (ZMod 13)) (arms : ColumnArms (ZMod 13)),
      generateParametersWithQap smallBackend publicProduct productWaste 1 1 = .ok pk ∧
      proveAndBuildCommitments smallBackend (fun a c s => a + c + s) pk publicProductOfThree 6 7 =
        .ok (proof, commitments, [1, 3, 2], 7) ∧
      decap true (mulPairing (ZMod 13) 13) commitments arms = .ok 5 := by
  set pk : ProvingKey (ZMod 13) (ZMod 13) := productWaste.provingKey fourthRoots publicProduct 1 1
  have generated : generateParametersWithQap smallBackend publicProduct productWaste 1 1 = .ok pk :=
    generateParametersWithQap_eq_ok.mpr ⟨by decide, by decide, fourthRoots, rfl, rfl⟩
  have setup : setupAndArm (mulPairing (ZMod 13) 13) id
      (PvugcVk.ofProvingKey pk (List.replicate publicProduct.numInstanceVariables (0 : ZMod 13)))
      pk.vk publicProductOfThree.publicInputs 2 =
        .ok ({ yCols := [12, 7], delta := 5 }, { yColsRho := [11, 1], deltaRho := 10 }, 9, 5) := by
    decide +kernel
  have foreign : pk.vk.gammaG2 ∉ [(12 : ZMod 13), 7] := by decide
  obtain ⟨proof, commitments, path, -, reached⟩ := proveAndBuildCommitments_accepted generated (by decide) id
    (fun a c s => a + c + s) (by decide : publicProductOfThree.Satisfies) setup foreign 6 7
  exact ⟨pk, proof, commitments, _, generated, path, reached true⟩

end Path

end Pvugc.OneSided
