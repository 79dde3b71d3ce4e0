import Pvugc.OneSided.Target

namespace Pvugc.OneSided
open Pvugc.Groth16

section Statement

variable {F G1 G2 GT : Type} [AddCommGroup G1] [AddCommGroup G2] [AddCommGroup GT]
variable [SMul F G1] [SMul F G2] [SMul F GT] [DecidableEq G1] [DecidableEq G2] [DecidableEq GT]
variable (e : Pairing F G1 G2 GT) (pvugcVk : PvugcVk G2 GT) (vk : VerifyingKey G1 G2)
variable (publicInputs : List F)

/-- The checks of `verify_with_limits` without limits that read the keys and the inputs only. -/
def admitsStatement : Bool :=
  validatePvugcVkSubgroups e pvugcVk && validateGroth16VkSubgroups e vk &&
  match prepareInputs vk publicInputs, splitStatementOnlyBases pvugcVk vk publicInputs,
    computeBakedTarget e vk pvugcVk publicInputs with
  | .ok _, .ok (publicBLeg, witnessBases), .ok rBaked =>
    rBaked ≠ 0 && vk.gammaG2 ∉ publicBLeg :: witnessBases
  | _, _, _ => false

/-- The checks of `verify_with_limits` without limits that read the bundle. -/
def admitsBundle (bundle : PvugcBundle G1 G2) : Bool :=
  decide (verify e vk publicInputs bundle.groth16Proof = .ok true) &&
  bundle.gsCommitments.good e.modulus && !bundle.gsCommitments.theta.isEmpty &&
  match splitStatementOnlyBases pvugcVk vk publicInputs, computeBakedTarget e vk pvugcVk publicInputs with
  | .ok (publicBLeg, witnessBases), .ok rBaked =>
    bundle.gsCommitments.xBCols.length = (publicBLeg :: witnessBases).length &&
    schedule e.pairing bundle.gsCommitments (publicBLeg :: witnessBases) pvugcVk.deltaG2 = rBaked
  | _, _ => false

theorem admitsStatement_eq_true :
    admitsStatement e pvugcVk vk publicInputs = true ↔
      validatePvugcVkSubgroups e pvugcVk = true ∧ validateGroth16VkSubgroups e vk = true ∧
      ∃ publicBLeg witnessBases rBaked,
        splitStatementOnlyBases pvugcVk vk publicInputs = .ok (publicBLeg, witnessBases) ∧
        computeBakedTarget e vk pvugcVk publicInputs = .ok rBaked ∧ rBaked ≠ 0 ∧
        vk.gammaG2 ∉ publicBLeg :: witnessBases := by
  rw [admitsStatement, Bool.and_eq_true, Bool.and_eq_true, and_assoc]
  refine and_congr_right fun _ => and_congr_right fun _ => ?_
  cases split : splitStatementOnlyBases pvugcVk vk publicInputs with
  | error fault => simp
  | ok columns =>
  -- The inputs that the split admits are those that the verifier prepares.
  have prepared : prepareInputs vk publicInputs = .ok (instanceCommitment vk publicInputs) := by
    rw [prepareInputs_eq, if_pos (splitStatementOnlyBases_eq_ok.mp split).1]
  cases computeBakedTarget e vk pvugcVk publicInputs with
  | error fault => simp
  | ok rBaked =>
  simp only [prepared, Bool.and_eq_true, decide_eq_true_eq, Except.ok.injEq]
  constructor
  · rintro ⟨nonzero, excluded⟩
    exact ⟨columns.1, columns.2, rBaked, rfl, rfl, nonzero, excluded⟩
  · rintro ⟨_, _, _, rfl, rfl, nonzero, excluded⟩
    exact ⟨nonzero, excluded⟩

/-- Without limits the verification makes the checks of the statement and those of the bundle, and no
others. -/
theorem verifyWithLimits_none (bundle : PvugcBundle G1 G2) :
    verifyWithLimits e bundle pvugcVk vk publicInputs .none =
      (admitsStatement e pvugcVk vk publicInputs && admitsBundle e pvugcVk vk publicInputs bundle) := by
  rw [Bool.eq_iff_iff, verifyWithLimits_eq_true, Bool.and_eq_true, admitsStatement_eq_true, admitsBundle]
  simp only [VerifyLimits.none, exceeds, Option.any_none, true_and, Bool.and_eq_true, decide_eq_true_eq,
    Bool.not_eq_true']
  constructor
  · rintro ⟨validPvugc, validGroth16, proof, publicBLeg, witnessBases, rBaked, split, good, target,
      nonzero, columns, rows, excluded, value⟩
    refine ⟨⟨validPvugc, validGroth16, publicBLeg, witnessBases, rBaked, split, target, nonzero, excluded⟩,
      ⟨⟨proof, good⟩, rows⟩, ?_⟩
    simp only [split, target, Bool.and_eq_true, decide_eq_true_eq]
    exact ⟨columns, value⟩
  · rintro ⟨⟨validPvugc, validGroth16, publicBLeg, witnessBases, rBaked, split, target, nonzero, excluded⟩,
      ⟨⟨proof, good⟩, rows⟩, checked⟩
    simp only [split, target, Bool.and_eq_true, decide_eq_true_eq] at checked
    exact ⟨validPvugc, validGroth16, proof, publicBLeg, witnessBases, rBaked, split, good, target,
      nonzero, checked.1, rows, excluded, checked.2⟩

end Statement

section Arming

variable {F G1 G2 GT D : Type} [Zero F] [AddCommGroup G1] [AddCommGroup G2] [AddCommGroup GT]
variable [SMul F G1] [SMul F G2] [SMul F GT]
variable [DecidableEq F] [DecidableEq G1] [DecidableEq G2] [DecidableEq GT] [DecidableEq D]
variable {e : Pairing F G1 G2 GT} {hashG2 : G2 → D} {pvugcVk : PvugcVk G2 GT} {vk : VerifyingKey G1 G2}
variable {publicInputs : List F} {rho : F}

/-- The keys publish no `gamma`: it is not the public leg, not a witness column and not `delta`. -/
def GammaExcluded (pvugcVk : PvugcVk G2 GT) (vk : VerifyingKey G1 G2) (publicInputs : List F) : Prop :=
  vk.gammaG2 ≠ publicLeg pvugcVk publicInputs ∧
    vk.gammaG2 ∉ pvugcVk.bG2Query.drop vk.gammaAbcG1.length ∧ pvugcVk.deltaG2 ≠ vk.gammaG2

/-- When arming succeeds, verification rejects nothing for its statement and no arm is `rho` times `gamma`
exactly when the keys publish no `gamma`. -/
theorem setupAndArm_admissible_iff {bases : ColumnBases G2} {arms : ColumnArms G2} {r k : GT}
    (setup : setupAndArm e hashG2 pvugcVk vk publicInputs rho = .ok (bases, arms, r, k)) :
    (admitsStatement e pvugcVk vk publicInputs = true ∧ vk.gammaG2 ∉ bases.yCols ∧
      pvugcVk.deltaG2 ≠ vk.gammaG2) ↔ GammaExcluded pvugcVk vk publicInputs := by
  obtain ⟨validPvugc, validGroth16, target, nonzero, built, -, -, -⟩ := setupAndArm_eq_ok.mp setup
  rw [buildColumnBases] at built
  cases split : splitStatementOnlyBases pvugcVk vk publicInputs with
  | error fault =>
      rw [split] at built
      cases built
  | ok columns =>
  rw [split] at built
  cases built
  obtain ⟨publicBLeg, witnessBases⟩ := columns
  obtain ⟨-, -, rfl, rfl⟩ := splitStatementOnlyBases_eq_ok.mp split
  rw [admitsStatement_eq_true, GammaExcluded]
  simp only [List.mem_cons, not_or]
  constructor
  · rintro ⟨-, ⟨leg, columns⟩, delta⟩
    exact ⟨leg, columns, delta⟩
  · rintro ⟨leg, columns, delta⟩
    exact ⟨⟨validPvugc, validGroth16, _, _, r, split, target, nonzero, leg, columns⟩, ⟨leg, columns⟩, delta⟩

theorem setupAndArm_admissible_foreign :
    let vk : VerifyingKey (ZMod 13) (ZMod 13) :=
      { alphaG1 := 1, betaG2 := 2, gammaG2 := 3, deltaG2 := 1, gammaAbcG1 := [1] }
    let pvugcVk : PvugcVk (ZMod 13) (ZMod 13) :=
      { betaG2 := 2, deltaG2 := 1, bG2Query := [4, 5], tConstPointsGt := [0] }
    admitsStatement (mulPairing (ZMod 13) 13) pvugcVk vk [] = true := by
  intro vk pvugcVk
  have setup : setupAndArm (mulPairing (ZMod 13) 13) id pvugcVk vk ([] : List (ZMod 13)) 2 =
      .ok ({ yCols := [6, 5], delta := 1 }, { yColsRho := [12, 10], deltaRho := 2 }, 5, 10) := by
    rfl
  have excluded : GammaExcluded pvugcVk vk ([] : List (ZMod 13)) :=
    ⟨by decide, by decide, by decide⟩
  exact ((setupAndArm_admissible_iff setup).mpr excluded).1

/-- Arming publishes `rho` times `gamma` as a column, and then no bundle is accepted; arming and
verification also pass when `gamma` is `delta`. -/
theorem setupAndArm_publishes_gamma :
    let e := mulPairing (ZMod 13) 13
    let vk (gamma : ZMod 13) : VerifyingKey (ZMod 13) (ZMod 13) :=
      { alphaG1 := 1, betaG2 := 2, gammaG2 := gamma, deltaG2 := 1, gammaAbcG1 := [1] }
    let pvugcVk : PvugcVk (ZMod 13) (ZMod 13) :=
      { betaG2 := 2, deltaG2 := 1, bG2Query := [4, 5], tConstPointsGt := [0] }
    (setupAndArm e id pvugcVk (vk 5) ([] : List (ZMod 13)) 2 =
        .ok ({ yCols := [6, 5], delta := 1 }, { yColsRho := [12, 2 • 5], deltaRho := 2 }, 7, 1) ∧
      ∀ bundle, verifyWithLimits e bundle pvugcVk (vk 5) ([] : List (ZMod 13)) .none = false) ∧
    setupAndArm e id pvugcVk (vk 1) ([] : List (ZMod 13)) 2 =
      .ok ({ yCols := [6, 5], delta := 1 }, { yColsRho := [12, 10], deltaRho := 2 • 1 }, 3, 6) := by
  intro e vk pvugcVk
  refine ⟨⟨by decide, ?_⟩, by decide⟩
  intro bundle
  have rejected : admitsStatement e pvugcVk (vk 5) ([] : List (ZMod 13)) = false := by decide
  rw [verifyWithLimits_none, rejected, Bool.false_and]

end Arming

end Pvugc.OneSided
