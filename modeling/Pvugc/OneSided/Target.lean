import Pvugc.OneSided.Api

namespace Pvugc.OneSided
open Pvugc.Groth16

section Commitment

variable {F G1 G2 : Type} [AddCommGroup G1] [SMul F G1]

/-- The instance commitment `L(x)` of a statement. -/
def instanceCommitment (vk : VerifyingKey G1 G2) (publicInputs : List F) : G1 :=
  vk.gammaAbcG1.headD 0 + msm vk.gammaAbcG1.tail publicInputs

theorem prepareInputs_eq (vk : VerifyingKey G1 G2) (publicInputs : List F) :
    prepareInputs vk publicInputs =
      if vk.gammaAbcG1.length = publicInputs.length + 1 then .ok (instanceCommitment vk publicInputs)
      else .error .malformedVerifyingKey := by
  obtain ⟨alphaG1, betaG2, gammaG2, deltaG2, gammaAbcG1⟩ := vk
  cases gammaAbcG1 with
  | nil => rfl
  | cons constant rest =>
      simp only [prepareInputs, instanceCommitment, List.headD_cons, List.tail_cons, foldl_scalars]
      by_cases length : (constant :: rest).length = publicInputs.length + 1
      · rw [if_pos length, if_neg (not_not.mpr length.symm)]
      · rw [if_neg length, if_pos (Ne.symm length)]

end Commitment

section Target

variable {F G1 G2 GT D : Type} [AddCommGroup G1] [AddCommGroup G2] [AddCommGroup GT]
variable [SMul F G1] [SMul F G2] [SMul F GT] [DecidableEq G1] [DecidableEq G2] [DecidableEq GT]
variable (identityPanics : Bool) (e : Pairing F G1 G2 GT) (vk : VerifyingKey G1 G2) (pvugcVk : PvugcVk G2 GT)
variable (publicInputs : List F)

/-- The target of a statement before the guards. -/
def rawTarget : GT := e.pairing vk.alphaG1 vk.betaG2 + e.pairing (instanceCommitment vk publicInputs) vk.gammaG2

/-- The quotient part `T_const(x)` of the baked target. -/
def constTarget : GT := pvugcVk.tConstPointsGt.headD 0 + msm pvugcVk.tConstPointsGt.tail publicInputs

/-- What `compute_groth16_target` does: it panics on a key without instance points, checks the number of
inputs and the commitment, panics where it pairs an identity that the curve does not take, and returns the raw
target unless that is the identity. -/
theorem computeGroth16TargetOn_cases :
    computeGroth16TargetOn identityPanics e vk publicInputs =
      if vk.gammaAbcG1 = [] ∧ publicInputs = [] then .error .panic
      else if vk.gammaAbcG1.length ≠ publicInputs.length + 1 then
        .error (.error (.publicInputLength (vk.gammaAbcG1.length - 1) publicInputs.length))
      else if instanceCommitment vk publicInputs = 0 then .error (.error .zeroInstanceCommitment)
      else if identityPanics = true ∧ (vk.betaG2 = 0 ∨ vk.gammaG2 = 0) then .error .panic
      else if rawTarget e vk publicInputs = 0 then .error (.error .degenerateTarget)
      else .ok (rawTarget e vk publicInputs) := by
  obtain ⟨alphaG1, betaG2, gammaG2, deltaG2, gammaAbcG1⟩ := vk
  simp only [computeGroth16TargetOn, rawTarget, instanceCommitment]
  cases gammaAbcG1 with
  | nil =>
      cases publicInputs with
      | nil => simp
      | cons x xs => simp
  | cons constant rest =>
      have present : ¬(constant :: rest = [] ∧ publicInputs = []) := by simp
      by_cases length : publicInputs.length = rest.length
      · have checked : ¬publicInputs.length ≠ (constant :: rest).length - 1 := by simp [length]
        have counted : ¬(constant :: rest).length ≠ publicInputs.length + 1 := by simp [length]
        rw [if_neg checked, if_neg present, if_neg counted]
        simp only [List.headD_cons, List.tail_cons]
        rw [foldl_bases]
        congr 1
        split
        case isTrue paired =>
          obtain ⟨panics, zero⟩ := paired
          subst panics
          by_cases beta : betaG2 = 0
          · rw [beta, pairingOn_zero]
            rfl
          · rw [pairingOn_eq _ fun _ => beta, zero.resolve_left beta, pairingOn_zero]
            rfl
        case isFalse unpaired =>
          rw [pairingOn_eq _ fun panics zero => unpaired ⟨panics, .inl zero⟩,
            pairingOn_eq _ fun panics zero => unpaired ⟨panics, .inr zero⟩]
          rfl
      · have checked : publicInputs.length ≠ (constant :: rest).length - 1 := by simpa using length
        have counted : (constant :: rest).length ≠ publicInputs.length + 1 := by
          simpa using fun same => length same.symm
        rw [if_pos checked, if_neg present, if_pos counted]

/-- The target of a statement panics: the key has no instance points, or a key that matches the inputs has an
identity that the curve does not pair. -/
def TargetPanics : Prop :=
  (vk.gammaAbcG1 = [] ∧ publicInputs = []) ∨
    (identityPanics = true ∧ vk.gammaAbcG1.length = publicInputs.length + 1 ∧
      instanceCommitment vk publicInputs ≠ 0 ∧ (vk.betaG2 = 0 ∨ vk.gammaG2 = 0))

theorem computeGroth16TargetOn_eq_panic :
    computeGroth16TargetOn identityPanics e vk publicInputs = .error .panic ↔
      TargetPanics identityPanics vk publicInputs := by
  rw [computeGroth16TargetOn_cases, TargetPanics]
  split
  case isTrue empty => simp [empty]
  case isFalse present =>
    split
    case isTrue mismatch => simp [present, mismatch]
    case isFalse matching =>
      have length := not_not.mp matching
      split
      case isTrue zero => simp [present, zero]
      case isFalse nonzero =>
        simp only [present, length, nonzero, false_or, true_and, ne_eq, not_false_eq_true]
        split
        case isTrue paired => simp [paired]
        case isFalse unpaired =>
          simp only [unpaired, iff_false]
          split <;> simp

/-- A target exists only for a key with one instance point more than inputs. -/
theorem computeGroth16TargetOn_length {r : GT}
    (computed : computeGroth16TargetOn identityPanics e vk publicInputs = .ok r) :
    vk.gammaAbcG1.length = publicInputs.length + 1 := by
  rw [computeGroth16TargetOn_cases] at computed
  by_contra mismatch
  rw [if_pos mismatch] at computed
  split at computed <;> cases computed

theorem computeGroth16Target_cases :
    computeGroth16Target e vk publicInputs =
      if vk.gammaAbcG1 = [] ∧ publicInputs = [] then .error .panic
      else if vk.gammaAbcG1.length ≠ publicInputs.length + 1 then
        .error (.error (.publicInputLength (vk.gammaAbcG1.length - 1) publicInputs.length))
      else if instanceCommitment vk publicInputs = 0 then .error (.error .zeroInstanceCommitment)
      else if rawTarget e vk publicInputs = 0 then .error (.error .degenerateTarget)
      else .ok (rawTarget e vk publicInputs) := by
  rw [computeGroth16Target, computeGroth16TargetOn_cases]
  simp only [Bool.false_eq_true, false_and, if_false]

theorem computeGroth16Target_eq_ok {r : GT} :
    computeGroth16Target e vk publicInputs = .ok r ↔
      vk.gammaAbcG1.length = publicInputs.length + 1 ∧ instanceCommitment vk publicInputs ≠ 0 ∧
        rawTarget e vk publicInputs ≠ 0 ∧ r = rawTarget e vk publicInputs := by
  rw [computeGroth16Target_cases]
  by_cases length : vk.gammaAbcG1.length = publicInputs.length + 1
  · have present : ¬(vk.gammaAbcG1 = [] ∧ publicInputs = []) := by
      rintro ⟨empty, -⟩
      rw [empty] at length
      cases length
    rw [if_neg present, if_neg (not_not.mpr length)]
    split
    case isTrue zero => simp [zero]
    case isFalse nonzero =>
      split
      case isTrue zero => simp [zero]
      case isFalse regular => simp [length, nonzero, regular, eq_comm]
  · split
    case isTrue => simp [length]
    case isFalse => simp [length]

theorem computeBakedTargetOn_cases :
    computeBakedTargetOn identityPanics e vk pvugcVk publicInputs =
      match computeGroth16TargetOn identityPanics e vk publicInputs with
      | .error fault => .error fault
      | .ok rRaw =>
        if pvugcVk.tConstPointsGt.length ≠ publicInputs.length + 1 then .error (.error .mismatchedSizes)
        else .ok (rRaw + constTarget pvugcVk publicInputs) := by
  rw [computeBakedTargetOn, constTarget]
  cases computeGroth16TargetOn identityPanics e vk publicInputs with
  | error fault => rfl
  | ok rRaw =>
      cases pvugcVk.tConstPointsGt with
      | nil => rfl
      | cons constant rest => simp only [foldl_bases, List.headD_cons, List.tail_cons]

theorem computeBakedTarget_cases :
    computeBakedTarget e vk pvugcVk publicInputs =
      match computeGroth16Target e vk publicInputs with
      | .error fault => .error fault
      | .ok rRaw =>
        if pvugcVk.tConstPointsGt.length ≠ publicInputs.length + 1 then .error (.error .mismatchedSizes)
        else .ok (rRaw + constTarget pvugcVk publicInputs) :=
  computeBakedTargetOn_cases false e vk pvugcVk publicInputs

theorem computeBakedTargetOn_eq_panic :
    computeBakedTargetOn identityPanics e vk pvugcVk publicInputs = .error .panic ↔
      TargetPanics identityPanics vk publicInputs := by
  rw [← computeGroth16TargetOn_eq_panic identityPanics e, computeBakedTargetOn_cases]
  cases computeGroth16TargetOn identityPanics e vk publicInputs with
  | error fault => simp
  | ok rRaw =>
      simp only [reduceCtorEq, iff_false]
      split <;> simp

theorem computeBakedTarget_eq_panic :
    computeBakedTarget e vk pvugcVk publicInputs = .error .panic ↔
      vk.gammaAbcG1 = [] ∧ publicInputs = [] := by
  rw [computeBakedTarget, computeBakedTargetOn_eq_panic, TargetPanics]
  simp

/-- A baked target exists only where both lists of points match the inputs. -/
theorem computeBakedTargetOn_lengths {r : GT}
    (computed : computeBakedTargetOn identityPanics e vk pvugcVk publicInputs = .ok r) :
    vk.gammaAbcG1.length = publicInputs.length + 1 ∧ pvugcVk.tConstPointsGt.length = publicInputs.length + 1 := by
  rw [computeBakedTargetOn_cases] at computed
  cases raw : computeGroth16TargetOn identityPanics e vk publicInputs with
  | error fault =>
      rw [raw] at computed
      cases computed
  | ok rRaw =>
      rw [raw] at computed
      refine ⟨computeGroth16TargetOn_length identityPanics e vk publicInputs raw, ?_⟩
      by_contra mismatch
      simp [mismatch] at computed

/-- The baked target exists exactly when both lists match the inputs and the raw target is regular. -/
theorem computeBakedTarget_eq_ok_iff {r : GT} :
    computeBakedTarget e vk pvugcVk publicInputs = .ok r ↔
      vk.gammaAbcG1.length = publicInputs.length + 1 ∧
        pvugcVk.tConstPointsGt.length = publicInputs.length + 1 ∧
        instanceCommitment vk publicInputs ≠ 0 ∧ rawTarget e vk publicInputs ≠ 0 ∧
        r = rawTarget e vk publicInputs + constTarget pvugcVk publicInputs := by
  rw [computeBakedTarget_cases]
  cases raw : computeGroth16Target e vk publicInputs with
  | error fault =>
      simp only [reduceCtorEq, false_iff]
      rintro ⟨length, -, nonzero, regular, -⟩
      cases raw.symm.trans ((computeGroth16Target_eq_ok e vk publicInputs).mpr
        ⟨length, nonzero, regular, rfl⟩)
  | ok rRaw =>
      obtain ⟨length, nonzero, regular, rfl⟩ := (computeGroth16Target_eq_ok e vk publicInputs).mp raw
      simp only [length, nonzero, regular, true_and, ne_eq, not_false_eq_true]
      split
      case isTrue mismatch => simp [mismatch]
      case isFalse matching => simp [not_not.mp matching, eq_comm]

end Target

section Split

variable {F G1 G2 GT : Type} [AddCommGroup G2] [SMul F G2]

/-- The public leg of the split, summed over the public part of the query. -/
def publicLeg (pvugcVk : PvugcVk G2 GT) (publicInputs : List F) : G2 :=
  pvugcVk.betaG2 + pvugcVk.bG2Query.headD 0 + msm pvugcVk.bG2Query.tail publicInputs

/-- What `split_statement_only_bases` does: it checks its lengths before every access. -/
theorem splitStatementOnlyBases_cases (vk : VerifyingKey G1 G2) (pvugcVk : PvugcVk G2 GT)
    (publicInputs : List F) :
    splitStatementOnlyBases pvugcVk vk publicInputs =
      if vk.gammaAbcG1.length = 0 then .error (.error .mismatchedSizes)
      else if publicInputs.length ≠ vk.gammaAbcG1.length - 1 then
        .error (.error (.publicInputLength (vk.gammaAbcG1.length - 1) publicInputs.length))
      else if pvugcVk.bG2Query.length < 1 + vk.gammaAbcG1.length then .error (.error .mismatchedSizes)
      else .ok (publicLeg pvugcVk publicInputs, pvugcVk.bG2Query.drop vk.gammaAbcG1.length) := by
  obtain ⟨betaG2, deltaG2, bG2Query, tConstPointsGt⟩ := pvugcVk
  rw [splitStatementOnlyBases]
  by_cases short : bG2Query.length < 1 + vk.gammaAbcG1.length
  · rw [if_pos short, if_pos short]
  · rw [if_neg short, if_neg short]
    cases bG2Query with
    | nil => exact absurd (Nat.lt_of_lt_of_le Nat.one_pos (Nat.le_add_right 1 _)) short
    | cons constant rest => simp only [foldl_scalars, publicLeg, List.headD_cons, List.tail_cons]

theorem splitStatementOnlyBases_ne_panic (vk : VerifyingKey G1 G2) (pvugcVk : PvugcVk G2 GT)
    (publicInputs : List F) : splitStatementOnlyBases pvugcVk vk publicInputs ≠ .error .panic := by
  rw [splitStatementOnlyBases_cases]
  split_ifs <;> simp

/-- The split succeeds exactly when the inputs match the instance points and a witness column is left. -/
theorem splitStatementOnlyBases_eq_ok {vk : VerifyingKey G1 G2} {pvugcVk : PvugcVk G2 GT}
    {publicInputs : List F} {publicBLeg : G2} {witnessBases : List G2} :
    splitStatementOnlyBases pvugcVk vk publicInputs = .ok (publicBLeg, witnessBases) ↔
      vk.gammaAbcG1.length = publicInputs.length + 1 ∧ vk.gammaAbcG1.length < pvugcVk.bG2Query.length ∧
        publicBLeg = publicLeg pvugcVk publicInputs ∧
        witnessBases = pvugcVk.bG2Query.drop vk.gammaAbcG1.length := by
  rw [splitStatementOnlyBases_cases]
  by_cases length : vk.gammaAbcG1.length = publicInputs.length + 1
  · rw [if_neg (by omega), if_neg (by omega)]
    by_cases columns : vk.gammaAbcG1.length < pvugcVk.bG2Query.length
    · rw [if_neg (by omega)]
      simp [length, eq_comm]
      omega
    · rw [if_pos (by omega)]
      simp [columns]
  · split_ifs with empty mismatch short
    · simp [length]
    · simp [length]
    · simp [length]
    · omega

end Split

section Total

variable {F G1 G2 GT D : Type} [Zero F] [AddCommGroup G1] [AddCommGroup G2] [AddCommGroup GT]
variable [SMul F G1] [SMul F G2] [SMul F GT]
variable [DecidableEq F] [DecidableEq G1] [DecidableEq G2] [DecidableEq GT] [DecidableEq D]
variable (identityPanics : Bool) (e : Pairing F G1 G2 GT) (hashG2 : G2 → D) (vk : VerifyingKey G1 G2)
variable (pvugcVk : PvugcVk G2 GT) (publicInputs : List F) (rho : F)

/-- A fold whose steps never fail with one fault does not fail with it. -/
theorem foldlM_ne_error {S A : Type} {step : S → A → Except Fault S} {fault : Fault}
    (never : ∀ s a, step s a ≠ .error fault) (l : List A) (s : S) : l.foldlM step s ≠ .error fault := by
  induction l generalizing s with
  | nil => exact fun impossible => nomatch impossible
  | cons a rest inductionHypothesis =>
      rw [List.foldlM_cons]
      cases value : step s a with
      | error other =>
          intro same
          exact never s a (value.trans same)
      | ok next => exact inductionHypothesis next

theorem auditStatementOnlyBasesForPublication_ne_panic (modulus : ℕ) (bases : ColumnBases G2) :
    auditStatementOnlyBasesForPublication modulus hashG2 bases ≠ .error .panic := by
  have column (seen : List D × List D) (column : G2 × ℕ) :
      auditColumn hashG2 bases.delta seen column ≠ .error .panic := by
    simp only [auditColumn]
    split_ifs <;> simp
  have subgroups : bases.validateSubgroups modulus ≠ .error .panic := by
    rw [ColumnBases.validateSubgroups]
    split_ifs <;> simp
  have columns := foldlM_ne_error column bases.yCols.zipIdx ([], [])
  rw [auditStatementOnlyBasesForPublication]
  split
  case h_1 fault failed =>
    intro same
    exact subgroups (failed.trans (congrArg _ (Except.error.inj same)))
  case h_2 =>
    split
    case h_1 => simp
    case h_2 =>
      split
      case isTrue => simp
      case isFalse =>
        split
        case isTrue => simp
        case isFalse =>
          split
          case h_1 fault failed =>
            intro same
            exact columns (failed.trans (congrArg _ (Except.error.inj same)))
          case h_2 => simp

/-- Arming panics exactly for valid keys whose target panics. -/
theorem setupAndArmOn_eq_panic :
    setupAndArmOn identityPanics e hashG2 pvugcVk vk publicInputs rho = .error .panic ↔
      validatePvugcVkSubgroups e pvugcVk = true ∧ validateGroth16VkSubgroups e vk = true ∧
        TargetPanics identityPanics vk publicInputs := by
  have noColumns := splitStatementOnlyBases_ne_panic vk pvugcVk publicInputs
  have target := computeBakedTargetOn_eq_panic identityPanics e vk pvugcVk publicInputs
  rw [setupAndArmOn]
  cases validatePvugcVkSubgroups e pvugcVk with
  | false => simp
  | true =>
  cases validateGroth16VkSubgroups e vk with
  | false => simp
  | true =>
  simp only [Bool.not_true, Bool.false_eq_true, if_false, true_and]
  rw [← target]
  cases computeBakedTargetOn identityPanics e vk pvugcVk publicInputs with
  | error fault => simp only [Except.error.injEq]
  | ok rBaked =>
  simp only [reduceCtorEq, iff_false]
  by_cases identity : rBaked = 0
  · simp [identity]
  rw [if_neg identity, buildColumnBases]
  cases failed : splitStatementOnlyBases pvugcVk vk publicInputs with
  | error fault => simpa only [failed, ne_eq, Except.error.injEq] using noColumns
  | ok columns =>
  have noAudit := auditStatementOnlyBasesForPublication_ne_panic hashG2 e.modulus
    { yCols := columns.1 :: columns.2, delta := pvugcVk.deltaG2 }
  cases audited : auditStatementOnlyBasesForPublication e.modulus hashG2
      { yCols := columns.1 :: columns.2, delta := pvugcVk.deltaG2 } with
  | error fault =>
      simp only [audited]
      simpa only [audited, ne_eq, Except.error.injEq] using noAudit
  | ok _ =>
  simp only [audited, armColumns]
  split_ifs <;> simp

/-- Arming succeeds only when both lists of points match the inputs. -/
theorem setupAndArmOn_lengths {armed : ColumnBases G2 × ColumnArms G2 × GT × GT}
    (setup : setupAndArmOn identityPanics e hashG2 pvugcVk vk publicInputs rho = .ok armed) :
    vk.gammaAbcG1.length = publicInputs.length + 1 ∧
      pvugcVk.tConstPointsGt.length = publicInputs.length + 1 := by
  rw [setupAndArmOn] at setup
  cases computed : computeBakedTargetOn identityPanics e vk pvugcVk publicInputs with
  | error fault =>
      rw [computed] at setup
      split_ifs at setup
  | ok rBaked => exact computeBakedTargetOn_lengths identityPanics e vk pvugcVk publicInputs computed

/-- On every curve the two target computations and arming never panic and check all lengths exactly when the
key has an instance point or there are inputs, and no identity of a key that matches the inputs is paired on a
curve that does not take it. -/
theorem targets_total_iff :
    ((computeGroth16TargetOn identityPanics e vk publicInputs ≠ .error .panic ∧
        computeBakedTargetOn identityPanics e vk pvugcVk publicInputs ≠ .error .panic ∧
        setupAndArmOn identityPanics e hashG2 pvugcVk vk publicInputs rho ≠ .error .panic) ∧
      (∀ r, computeGroth16TargetOn identityPanics e vk publicInputs = .ok r →
        vk.gammaAbcG1.length = publicInputs.length + 1) ∧
      (∀ r, computeBakedTargetOn identityPanics e vk pvugcVk publicInputs = .ok r →
        vk.gammaAbcG1.length = publicInputs.length + 1 ∧
          pvugcVk.tConstPointsGt.length = publicInputs.length + 1) ∧
      ∀ armed, setupAndArmOn identityPanics e hashG2 pvugcVk vk publicInputs rho = .ok armed →
        vk.gammaAbcG1.length = publicInputs.length + 1 ∧
          pvugcVk.tConstPointsGt.length = publicInputs.length + 1) ↔
    ¬(vk.gammaAbcG1 = [] ∧ publicInputs = []) ∧
      ¬(identityPanics = true ∧ vk.gammaAbcG1.length = publicInputs.length + 1 ∧
        instanceCommitment vk publicInputs ≠ 0 ∧ (vk.betaG2 = 0 ∨ vk.gammaG2 = 0)) := by
  have groth16 := computeGroth16TargetOn_eq_panic identityPanics e vk publicInputs
  have baked := computeBakedTargetOn_eq_panic identityPanics e vk pvugcVk publicInputs
  constructor
  · intro total
    exact not_or.mp fun panics : TargetPanics identityPanics vk publicInputs =>
      total.1.1 (groth16.mpr panics)
  · intro unreached
    have quiet : ¬TargetPanics identityPanics vk publicInputs := not_or.mpr unreached
    refine ⟨⟨?_, ?_, ?_⟩, ?_, ?_, ?_⟩
    · exact fun panics => quiet (groth16.mp panics)
    · exact fun panics => quiet (baked.mp panics)
    · exact fun panics =>
        quiet ((setupAndArmOn_eq_panic identityPanics e hashG2 vk pvugcVk publicInputs rho).mp panics).2.2
    · exact fun r => computeGroth16TargetOn_length identityPanics e vk publicInputs
    · exact fun r => computeBakedTargetOn_lengths identityPanics e vk pvugcVk publicInputs
    · exact fun armed => setupAndArmOn_lengths identityPanics e hashG2 vk pvugcVk publicInputs rho

/-- A valid key without instance points makes all three operations panic on the empty statement, on every
curve. -/
theorem targets_panic_withoutPoints :
    let vk : VerifyingKey (ZMod 13) (ZMod 13) :=
      { alphaG1 := 1, betaG2 := 2, gammaG2 := 3, deltaG2 := 1, gammaAbcG1 := [] }
    let pvugcVk : PvugcVk (ZMod 13) (ZMod 13) :=
      { betaG2 := 2, deltaG2 := 1, bG2Query := [4, 5], tConstPointsGt := [0] }
    ∀ identityPanics, computeGroth16TargetOn identityPanics (mulPairing (ZMod 13) 13) vk [] = .error .panic ∧
      computeBakedTargetOn identityPanics (mulPairing (ZMod 13) 13) vk pvugcVk [] = .error .panic ∧
      setupAndArmOn identityPanics (mulPairing (ZMod 13) 13) id pvugcVk vk [] 2 = .error .panic := by
  decide

end Total

end Pvugc.OneSided
