import Pvugc.Groth16.Completeness
import Pvugc.OneSided.Api

namespace Pvugc.OneSided
open Pvugc.Algebra Pvugc.Groth16 Finset

/-- `PvugcVk::new_with_all_witnesses_isolated` on the parts of a proving key. -/
def PvugcVk.ofProvingKey {G1 G2 GT : Type} (pk : ProvingKey G1 G2) (tConstPointsGt : List GT) :
    PvugcVk G2 GT where
  betaG2 := pk.vk.betaG2
  deltaG2 := pk.vk.deltaG2
  bG2Query := pk.bG2Query
  tConstPointsGt := tConstPointsGt

section Good

variable {F G : Type} [Field F] [AddCommGroup G] [Module F G] [DecidableEq G]

/-- Every element of a vector space over the scalar field has the subgroup's order. -/
theorem isGood_of_module {modulus : ℕ} (characteristic : (modulus : F) = 0) (g : G) :
    isGood modulus g = true := by
  have order : modulus • g = 0 := by
    rw [← Nat.cast_smul_eq_nsmul F, characteristic, zero_smul]
  rw [isGood, order]
  simp

theorem good_of_module {modulus : ℕ} (characteristic : (modulus : F) = 0)
    (commitments : OneSidedCommitments G) : commitments.good modulus = true := by
  simp [OneSidedCommitments.good, isGood_of_module characteristic]

/-- Over a vector space the subgroup checks of the setup pass for every multiple of the characteristic. -/
theorem setupAndArm_modulus {F G1 G2 GT D : Type} [Field F] [AddCommGroup G1] [Module F G1] [AddCommGroup G2]
    [Module F G2] [AddCommGroup GT] [Module F GT] [DecidableEq F] [DecidableEq G1] [DecidableEq G2] [DecidableEq GT]
    [DecidableEq D] {e : Pairing F G1 G2 GT} (characteristic : (e.modulus : F) = 0) (hashG2 : G2 → D)
    (pvugcVk : PvugcVk G2 GT) (vk : VerifyingKey G1 G2) (publicInputs : List F) (rho : F) :
    setupAndArm e hashG2 pvugcVk vk publicInputs rho =
      setupAndArm { e with modulus := 0 } hashG2 pvugcVk vk publicInputs rho := by
  have good {G : Type} [AddCommGroup G] [Module F G] [DecidableEq G] (g : G) : isGood e.modulus g = isGood 0 g := by
    rw [isGood_of_module characteristic, isGood_of_module (Nat.cast_zero (R := F))]
  have order {G : Type} [AddCommGroup G] [Module F G] (g : G) : e.modulus • g = 0 • g := by
    rw [← Nat.cast_smul_eq_nsmul F, characteristic, zero_smul, zero_smul]
  have pvugc : validatePvugcVkSubgroups e pvugcVk = validatePvugcVkSubgroups { e with modulus := 0 } pvugcVk := by
    simp only [validatePvugcVkSubgroups, good, order]
  have groth16 : validateGroth16VkSubgroups e vk = validateGroth16VkSubgroups { e with modulus := 0 } vk := by
    simp only [validateGroth16VkSubgroups, good]
  have audit (bases : ColumnBases G2) : auditStatementOnlyBasesForPublication e.modulus hashG2 bases =
      auditStatementOnlyBasesForPublication 0 hashG2 bases := by
    simp only [auditStatementOnlyBasesForPublication, ColumnBases.validateSubgroups, good]
  have target : computeBakedTargetOn false e vk pvugcVk publicInputs =
      computeBakedTargetOn false { e with modulus := 0 } vk pvugcVk publicInputs := rfl
  rw [setupAndArm, setupAndArm, setupAndArmOn, setupAndArmOn, pvugc, groth16, target]
  simp only [audit]

end Good

end Pvugc.OneSided

namespace Pvugc.Groth16.Trapdoor
open Pvugc.Algebra Pvugc.OneSided Finset

variable {F G1 G2 GT : Type} [Field F] [AddCommGroup G1] [Module F G1] [AddCommGroup G2] [Module F G2]
variable (waste : Trapdoor F) (domain : EvaluationDomain F) (m : ConstraintMatrices F)

/-- The public leg of a statement and the witness columns of a generated key. -/
def columnBases (g2 : G2) (x : List F) : ColumnBases G2 where
  yCols := (waste.beta + ∑ k ∈ range m.numInstanceVariables, statementOf x k * waste.v domain m k) • g2 ::
    tabulate m.numWitnessVariables fun k => waste.v domain m (m.numInstanceVariables + k) • g2
  delta := waste.delta • g2

/-- The aggregate of a statement runs over the public part of the query. -/
theorem publicLeg_foldl (g2 : G2) {x : List F} {n : ℕ} (number : m.numInstanceVariables = n + 1)
    (length : x.length = n) :
    (x.zip (tabulate (n + m.numWitnessVariables) fun i => waste.v domain m (i + 1) • g2)).foldl
        (fun aggregate (pair : F × G2) => aggregate + pair.1 • pair.2)
          (waste.beta • g2 + waste.v domain m 0 • g2) =
      (waste.beta + ∑ k ∈ range m.numInstanceVariables, statementOf x k * waste.v domain m k) • g2 := by
  have zipped : x.zip (tabulate (n + m.numWitnessVariables) fun i => waste.v domain m (i + 1) • g2) =
      tabulate n fun i => (statementOf x (i + 1), waste.v domain m (i + 1) • g2) := by
    conv_lhs => rw [List.zip_eq_zip_take_min, tabulate_length, length,
      Nat.min_eq_left (Nat.le_add_right n _), ← length, List.take_length, length,
      tabulate_take _ (Nat.le_add_right n _), ← statementOf_eq x, length]
    exact tabulate_zip n _ _
  rw [zipped, foldl_add_eq (fun p : F × G2 => p.1 • p.2), tabulate_map, tabulate_sum, number,
    sum_range_succ', statementOf_zero, one_mul, add_smul, add_smul, sum_smul]
  simp only [Function.comp_apply, smul_smul]
  abel

/-- The column bases of a generated key exist for every statement of the right length, if there is a
witness column. -/
theorem buildColumnBases_provingKey (g1 : G1) (g2 : G2) (tConstPointsGt : List GT) {x : List F}
    {bases : ColumnBases G2} :
    buildColumnBases (PvugcVk.ofProvingKey (waste.provingKey domain m g1 g2) tConstPointsGt)
        (waste.provingKey domain m g1 g2).vk x = .ok bases ↔
      x.length = m.numInstanceVariables - 1 ∧ 0 < m.numWitnessVariables ∧
        bases = waste.columnBases domain m g2 x := by
  obtain ⟨n, number⟩ : ∃ n, m.numInstanceVariables = n + 1 :=
    ⟨m.numInstanceVariables - 1, (Nat.sub_add_cancel m.instancePositive).symm⟩
  have total : m.numVars = n + m.numWitnessVariables + 1 := by
    rw [ConstraintMatrices.numVars, number]
    omega
  have columns : (waste.v domain m 0 • g2 :: tabulate (n + m.numWitnessVariables) fun i =>
      waste.v domain m (i + 1) • g2).drop m.numInstanceVariables =
        tabulate m.numWitnessVariables fun k => waste.v domain m (m.numInstanceVariables + k) • g2 := by
    rw [← tabulate_succ (n + m.numWitnessVariables) (fun i => waste.v domain m i • g2), tabulate_drop,
      number, show n + m.numWitnessVariables + 1 - (n + 1) = m.numWitnessVariables by omega]
  simp only [buildColumnBases, splitStatementOnlyBases, provingKey, PvugcVk.ofProvingKey, tabulate_length,
    total, tabulate_succ, List.length_cons, columns]
  rw [if_neg (show ¬m.numInstanceVariables = 0 by omega)]
  by_cases length : x.length = m.numInstanceVariables - 1
  · rw [if_neg (not_not.mpr length)]
    by_cases witness : 0 < m.numWitnessVariables
    · rw [if_neg (by omega), waste.publicLeg_foldl domain m g2 number (by omega)]
      simp only [Except.ok.injEq, length, witness, true_and]
      exact eq_comm
    · rw [if_pos (by omega)]
      simp [witness]
  · rw [if_pos length]
    simp [length]

variable [AddCommGroup GT] [Module F GT]

/-- The raw target of a statement under a generated key. -/
theorem computeGroth16Target_provingKey [DecidableEq G1] [DecidableEq G2] [DecidableEq GT] (e : Pairing F G1 G2 GT)
    (nonzero : waste.gamma ≠ 0) (g1 : G1) (g2 : G2) {x : List F} {target : GT}
    (computed : computeGroth16Target e (waste.provingKey domain m g1 g2).vk x = .ok target) :
    x.length = m.numInstanceVariables - 1 ∧ target =
      (waste.alpha * waste.beta + waste.instanceScalar domain m (statementOf x)) • e.pairing g1 g2 := by
  rw [computeGroth16Target, computeGroth16TargetOn] at computed
  split at computed
  case isTrue => cases computed
  case isFalse same =>
    have length : x.length = m.numInstanceVariables - 1 := by
      simpa [provingKey] using same
    have number : x.length + 1 = m.numInstanceVariables := by
      rw [length, Nat.sub_add_cancel m.instancePositive]
    refine ⟨length, ?_⟩
    simp only [provingKey, ← number, tabulate_succ, foldl_bases, pairingOn_false, bind, Except.bind] at computed
    rw [msm_statementOf fun k => (waste.column domain m k * waste.gamma⁻¹) • g1,
      waste.instanceScalar_smul domain m g1 number] at computed
    split at computed
    case isTrue => cases computed
    case isFalse =>
      split at computed
      case isTrue => cases computed
      case isFalse =>
        rw [← Except.ok.inj computed, e.smul_left_right, e.smul_left_right, mul_assoc,
          inv_mul_cancel₀ nonzero, mul_one, add_smul]

/-- The target adds the baked points of the statement. -/
theorem computeBakedTarget_eq_ok [DecidableEq G1] [DecidableEq G2] [DecidableEq GT] {e : Pairing F G1 G2 GT}
    {vk : VerifyingKey G1 G2} {pvugcVk : PvugcVk G2 GT} {x : List F} {baked : ℕ → GT}
    (points : pvugcVk.tConstPointsGt = tabulate (x.length + 1) baked) {target : GT} :
    computeBakedTarget e vk pvugcVk x = .ok target ↔ ∃ raw, computeGroth16Target e vk x = .ok raw ∧
      target = raw + ∑ k ∈ range (x.length + 1), statementOf x k • baked k := by
  rw [computeBakedTarget, computeBakedTargetOn, ← computeGroth16Target]
  cases computeGroth16Target e vk x with
  | error fault => simp
  | ok raw =>
      simp only [points, tabulate_succ, List.length_cons, tabulate_length, ne_eq, not_true_eq_false,
        if_false, foldl_bases, msm_statementOf baked, Except.ok.injEq, exists_eq_left']
      exact eq_comm

/-- The schedule of honest commitments: the `s` and `C` parts come from the `delta` row, and the
random limb cancels. -/
theorem schedule_buildCommitments {m : ConstraintMatrices F} (e : Pairing F G1 G2 GT) (g2 : G2)
    (deriveRTheta : G1 → G1 → F → F) (a c : G1) (s leg : F) (z : Assignment m)
    {commitments : OneSidedCommitments G1}
    (built : buildCommitments deriveRTheta a c s z.fullAssignment m.numInstanceVariables =
      some commitments) :
    commitments.xBCols.length = m.numWitnessVariables + 1 ∧ commitments.theta.isEmpty = false ∧
      schedule e.pairing commitments (leg • g2 :: tabulate m.numWitnessVariables fun k =>
          waste.v domain m (m.numInstanceVariables + k) • g2) (waste.delta • g2) =
        e.pairing a ((leg + z.witnessLinear (waste.v domain m) + s * waste.delta) • g2) -
          e.pairing c (waste.delta • g2) := by
  rw [buildCommitments, z.fullAssignment_drop, z.witnessAssignment_eq] at built
  split at built
  case isFalse => cases built
  case isTrue =>
    cases built
    refine ⟨by simp, rfl, ?_⟩
    have columns : (((tabulate m.numWitnessVariables fun k =>
        z.value (m.numInstanceVariables + k)).map fun b => (b • a, (0 : G1))).zip
          (tabulate m.numWitnessVariables fun k => waste.v domain m (m.numInstanceVariables + k) • g2)).map
        (fun column => e.pairing column.1.1 column.2 + e.pairing column.1.2 column.2) =
      tabulate m.numWitnessVariables fun k => (z.value (m.numInstanceVariables + k) *
        waste.v domain m (m.numInstanceVariables + k)) • e.pairing a g2 := by
      rw [tabulate_map, tabulate_zip, tabulate_map]
      simp only [Function.comp_def, e.smul_left_right, e.zero_left, add_zero]
    rw [schedule_eq, List.zip_cons_cons, List.map_cons, columns, List.sum_cons, tabulate_sum, ← sum_smul]
    simp only [List.map_cons, List.map_nil, List.sum_cons, List.sum_nil, e.zero_left, e.neg_left,
      e.sub_left, e.smul_left, e.smul_right, Assignment.witnessLinear]
    module

end Pvugc.Groth16.Trapdoor
