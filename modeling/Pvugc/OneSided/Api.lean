import Pvugc.Groth16.PolynomialBackend
import Pvugc.OneSided.Decap

namespace Pvugc.OneSided
open Pvugc.Groth16

structure PvugcBundle (G1 G2 : Type) where
  groth16Proof : Proof G1 G2
  gsCommitments : OneSidedCommitments G1

/-- Optional bounds on the size of a verification. -/
structure VerifyLimits where
  maxBColumns : Option ℕ
  maxThetaRows : Option ℕ
  maxTotalPairings : Option ℕ

def VerifyLimits.none : VerifyLimits where
  maxBColumns := .none
  maxThetaRows := .none
  maxTotalPairings := .none

/-- The default bounds of `verify`. -/
def VerifyLimits.default : VerifyLimits where
  maxBColumns := some 24
  maxThetaRows := some 22
  maxTotalPairings := some 96

/-- Addition and multiplication of machine words stop at the largest word. -/
def saturatingAdd (a b : ℕ) : ℕ := min (a + b) (2 ^ 64 - 1)

def saturatingMul (a b : ℕ) : ℕ := min (a * b) (2 ^ 64 - 1)

def exceeds (limit : Option ℕ) (n : ℕ) : Bool := limit.any (n > ·)

section Code

variable {F G1 G2 GT D : Type} [Zero F] [AddCommGroup G1] [AddCommGroup G2] [AddCommGroup GT]
variable [SMul F G1] [SMul F G2] [SMul F GT]
variable [DecidableEq F] [DecidableEq G1] [DecidableEq G2] [DecidableEq GT] [DecidableEq D]

/-- `split_statement_only_bases`: the aggregated public leg and the witness bases. -/
def splitStatementOnlyBases (pvugcVk : PvugcVk G2 GT) (vk : VerifyingKey G1 G2) (publicInputs : List F) :
    Except Fault (G2 × List G2) :=
  let totalInstance := vk.gammaAbcG1.length
  if totalInstance = 0 then .error (.error .mismatchedSizes)
  else
    let expectedInputs := totalInstance - 1
    if publicInputs.length ≠ expectedInputs then
      .error (.error (.publicInputLength expectedInputs publicInputs.length))
    else if pvugcVk.bG2Query.length < 1 + totalInstance then .error (.error .mismatchedSizes)
    else
      match pvugcVk.bG2Query with
      | [] => .error .panic
      | constant :: rest =>
        let aggregate := (publicInputs.zip rest).foldl (fun aggregate (x, base) => aggregate + x • base)
          (pvugcVk.betaG2 + constant)
        .ok (aggregate, (constant :: rest).drop totalInstance)

/-- `build_column_bases`. -/
def buildColumnBases (pvugcVk : PvugcVk G2 GT) (vk : VerifyingKey G1 G2) (publicInputs : List F) :
    Except Fault (ColumnBases G2) :=
  match splitStatementOnlyBases pvugcVk vk publicInputs with
  | .error fault => .error fault
  | .ok (publicLeg, witnessCols) =>
    .ok { yCols := publicLeg :: witnessCols, delta := pvugcVk.deltaG2 }

/-- One column of the publication audit, against the hashes seen so far. -/
def auditColumn (hashG2 : G2 → D) (delta : G2) (seen : List D × List D) (column : G2 × ℕ) :
    Except Fault (List D × List D) :=
  let (y, idx) := column
  if idx ≠ 0 ∧ y = 0 then .ok seen
  else
    let h := hashG2 y
    if h = hashG2 delta ∨ h = hashG2 (-delta) then
      .error (.error (.crypto s!"y_col_eq_pm_delta_at_index_{idx}"))
    else if h ∈ seen.1 then .error (.error (.crypto s!"duplicate_y_col_at_index_{idx}"))
    else if h ∈ seen.2 then .error (.error (.crypto s!"negated_duplicate_y_col_at_index_{idx}"))
    else .ok (h :: seen.1, hashG2 (-y) :: seen.2)

/-- `audit_statement_only_bases_for_publication`; `hashG2` is the hash of a serialized point. -/
def auditStatementOnlyBasesForPublication (modulus : ℕ) (hashG2 : G2 → D) (bases : ColumnBases G2) :
    Except Fault Unit :=
  match bases.validateSubgroups modulus with
  | .error fault => .error fault
  | .ok () =>
    match bases.yCols with
    | [] => .error (.error .mismatchedSizes)
    | publicLeg :: _ =>
      if publicLeg = 0 then .error (.error (.crypto "zero_public_y_col"))
      else if bases.delta = 0 then .error (.error .zeroDelta)
      else
        match bases.yCols.zipIdx.foldlM (auditColumn hashG2 bases.delta) ([], []) with
        | .error fault => .error fault
        | .ok _ => .ok ()

/-- `setup_and_arm` on a curve: the bases, the arms, the baked target and the key. -/
def setupAndArmOn (identityPanics : Bool) (e : Pairing F G1 G2 GT) (hashG2 : G2 → D) (pvugcVk : PvugcVk G2 GT)
    (vk : VerifyingKey G1 G2) (publicInputs : List F) (rho : F) :
    Except Fault (ColumnBases G2 × ColumnArms G2 × GT × GT) :=
  if !validatePvugcVkSubgroups e pvugcVk then .error (.error .invalidSubgroup)
  else if !validateGroth16VkSubgroups e vk then .error (.error .invalidSubgroup)
  else
    match computeBakedTargetOn identityPanics e vk pvugcVk publicInputs with
    | .error fault => .error fault
    | .ok rBaked =>
      if rBaked = 0 then .error (.error (.crypto "R_is_identity"))
      else
        match buildColumnBases pvugcVk vk publicInputs with
        | .error fault => .error fault
        | .ok bases =>
          match auditStatementOnlyBasesForPublication e.modulus hashG2 bases with
          | .error fault => .error fault
          | .ok () =>
            match armColumns bases rho with
            | .error fault => .error fault
            | .ok colArms => .ok (bases, colArms, rBaked, rho • rBaked)

/-- `setup_and_arm` on a curve whose pairing takes identities. -/
def setupAndArm (e : Pairing F G1 G2 GT) (hashG2 : G2 → D) (pvugcVk : PvugcVk G2 GT)
    (vk : VerifyingKey G1 G2) (publicInputs : List F) (rho : F) :
    Except Fault (ColumnBases G2 × ColumnArms G2 × GT × GT) :=
  setupAndArmOn false e hashG2 pvugcVk vk publicInputs rho

/-- The pairing budget: two for each column, two for each `delta` row and two for the canceller. -/
def totalPairings (numCols numTheta : ℕ) : ℕ :=
  saturatingAdd (saturatingAdd (saturatingMul 2 numCols) (saturatingMul 2 numTheta)) 2

/-- `verify_with_limits`. -/
def verifyWithLimits (e : Pairing F G1 G2 GT) (bundle : PvugcBundle G1 G2) (pvugcVk : PvugcVk G2 GT)
    (vk : VerifyingKey G1 G2) (publicInputs : List F) (limits : VerifyLimits) : Bool :=
  if !validatePvugcVkSubgroups e pvugcVk then false
  else if !validateGroth16VkSubgroups e vk then false
  else if exceeds limits.maxBColumns pvugcVk.bG2Query.length then false
  else if verify e vk publicInputs bundle.groth16Proof ≠ .ok true then false
  else
    match splitStatementOnlyBases pvugcVk vk publicInputs with
    | .error _ => false
    | .ok (publicBLeg, witnessBases) =>
      if !bundle.gsCommitments.good e.modulus then false
      else
        match computeBakedTarget e vk pvugcVk publicInputs with
        | .error _ => false
        | .ok rBaked =>
          let yCols := publicBLeg :: witnessBases
          let commitments := bundle.gsCommitments
          if rBaked = 0 then false
          else if commitments.xBCols.length ≠ yCols.length then false
          else if commitments.theta.isEmpty then false
          else if exceeds limits.maxThetaRows commitments.theta.length then false
          else if exceeds limits.maxTotalPairings
            (totalPairings yCols.length commitments.theta.length) then false
          else if vk.gammaG2 ∈ yCols then false
          else
            let lhs := schedule e.pairing commitments yCols pvugcVk.deltaG2
            if lhs = 0 then false else if lhs ≠ rBaked then false else true

/-- `verify` with the default limits. -/
def verifyBundle (e : Pairing F G1 G2 GT) (bundle : PvugcBundle G1 G2) (pvugcVk : PvugcVk G2 GT)
    (vk : VerifyingKey G1 G2) (publicInputs : List F) : Bool :=
  verifyWithLimits e bundle pvugcVk vk publicInputs .default

/-- `decapsulate`. -/
def decapsulate (debugAssertions : Bool) (e : Pairing F G1 G2 GT)
    (commitments : OneSidedCommitments G1) (colArms : ColumnArms G2) : Except Fault GT :=
  decap debugAssertions e commitments colArms

end Code

section Inversion

variable {F G1 G2 GT D : Type} [AddCommGroup G1] [AddCommGroup G2] [AddCommGroup GT]
variable [SMul F G1] [SMul F G2] [SMul F GT] [DecidableEq G1] [DecidableEq G2] [DecidableEq GT]
variable {e : Pairing F G1 G2 GT} {pvugcVk : PvugcVk G2 GT} {vk : VerifyingKey G1 G2}
variable {publicInputs : List F}

/-- What a successful setup has checked and returns. -/
theorem setupAndArm_eq_ok [Zero F] [DecidableEq F] [DecidableEq D] {hashG2 : G2 → D} {rho : F}
    {bases : ColumnBases G2} {arms : ColumnArms G2} {r k : GT} :
    setupAndArm e hashG2 pvugcVk vk publicInputs rho = .ok (bases, arms, r, k) ↔
      validatePvugcVkSubgroups e pvugcVk = true ∧ validateGroth16VkSubgroups e vk = true ∧
      computeBakedTarget e vk pvugcVk publicInputs = .ok r ∧ r ≠ 0 ∧
      buildColumnBases pvugcVk vk publicInputs = .ok bases ∧
      auditStatementOnlyBasesForPublication e.modulus hashG2 bases = .ok () ∧
      armColumns bases rho = .ok arms ∧ k = rho • r := by
  unfold setupAndArm setupAndArmOn
  rw [← computeBakedTarget]
  cases validatePvugcVkSubgroups e pvugcVk with
  | false => simp
  | true =>
  cases validateGroth16VkSubgroups e vk with
  | false => simp
  | true =>
  cases computeBakedTarget e vk pvugcVk publicInputs with
  | error fault => simp
  | ok target =>
  by_cases identity : target = 0
  · simp only [identity, Bool.not_true, Bool.false_eq_true, if_false, if_true, reduceCtorEq, Except.ok.injEq,
      true_and, false_iff, not_and]
    rintro rfl nonzero
    exact absurd rfl nonzero
  cases buildColumnBases pvugcVk vk publicInputs with
  | error fault => simp [identity]
  | ok columns =>
  cases audited : auditStatementOnlyBasesForPublication e.modulus hashG2 columns with
  | error fault =>
      simp only [identity, Bool.not_true, Bool.false_eq_true, if_false, audited, reduceCtorEq, false_iff,
        Except.ok.injEq, true_and, not_and]
      rintro - - rfl impossible
      cases audited.symm.trans impossible
  | ok _ =>
  cases armed : armColumns columns rho with
  | error fault =>
      simp only [identity, Bool.not_true, Bool.false_eq_true, if_false, audited, armed, reduceCtorEq,
        false_iff, Except.ok.injEq, true_and, not_and]
      rintro - - rfl - impossible
      cases armed.symm.trans impossible
  | ok columnArms =>
  simp only [identity, Bool.not_true, Bool.false_eq_true, if_false, audited, armed, Except.ok.injEq,
    Prod.mk.injEq, true_and]
  constructor
  · rintro ⟨rfl, rfl, rfl, rfl⟩
    exact ⟨rfl, identity, rfl, audited, armed, rfl⟩
  · rintro ⟨rfl, -, rfl, -, armed', rfl⟩
    cases armed.symm.trans armed'
    exact ⟨rfl, rfl, rfl, rfl⟩

/-- A bundle is accepted exactly when all checks pass and the schedule gives the baked target. -/
theorem verifyWithLimits_eq_true {bundle : PvugcBundle G1 G2} {limits : VerifyLimits} :
    verifyWithLimits e bundle pvugcVk vk publicInputs limits = true ↔
      validatePvugcVkSubgroups e pvugcVk = true ∧ validateGroth16VkSubgroups e vk = true ∧
      exceeds limits.maxBColumns pvugcVk.bG2Query.length = false ∧
      verify e vk publicInputs bundle.groth16Proof = .ok true ∧
      ∃ publicBLeg witnessBases rBaked,
        splitStatementOnlyBases pvugcVk vk publicInputs = .ok (publicBLeg, witnessBases) ∧
        bundle.gsCommitments.good e.modulus = true ∧
        computeBakedTarget e vk pvugcVk publicInputs = .ok rBaked ∧ rBaked ≠ 0 ∧
        bundle.gsCommitments.xBCols.length = (publicBLeg :: witnessBases).length ∧
        bundle.gsCommitments.theta.isEmpty = false ∧
        exceeds limits.maxThetaRows bundle.gsCommitments.theta.length = false ∧
        exceeds limits.maxTotalPairings (totalPairings (publicBLeg :: witnessBases).length
          bundle.gsCommitments.theta.length) = false ∧
        vk.gammaG2 ∉ publicBLeg :: witnessBases ∧
        schedule e.pairing bundle.gsCommitments (publicBLeg :: witnessBases) pvugcVk.deltaG2 = rBaked := by
  unfold verifyWithLimits
  cases validatePvugcVkSubgroups e pvugcVk with
  | false => simp
  | true =>
  cases validateGroth16VkSubgroups e vk with
  | false => simp
  | true =>
  cases exceeds limits.maxBColumns pvugcVk.bG2Query.length with
  | true => simp
  | false =>
  by_cases valid : verify e vk publicInputs bundle.groth16Proof = .ok true
  swap
  · simp [valid]
  cases splitStatementOnlyBases pvugcVk vk publicInputs with
  | error fault => simp
  | ok split =>
  obtain ⟨publicBLeg, witnessBases⟩ := split
  cases bundle.gsCommitments.good e.modulus with
  | false => simp
  | true =>
  cases computeBakedTarget e vk pvugcVk publicInputs with
  | error fault => simp
  | ok rBaked =>
  simp only [valid, Bool.not_true, Bool.false_eq_true, if_false, ne_eq, not_true_eq_false, if_false,
    Except.ok.injEq, Prod.mk.injEq, true_and]
  constructor
  · intro accepted
    split at accepted
    case isTrue => cases accepted
    case isFalse nonzero =>
    split at accepted
    case isTrue => cases accepted
    case isFalse lengths =>
    split at accepted
    case isTrue => cases accepted
    case isFalse rows =>
    split at accepted
    case isTrue => cases accepted
    case isFalse thetaLimit =>
    split at accepted
    case isTrue => cases accepted
    case isFalse pairingLimit =>
    split at accepted
    case isTrue => cases accepted
    case isFalse gamma =>
    split at accepted
    case isTrue => cases accepted
    case isFalse =>
    split at accepted
    case isTrue => cases accepted
    case isFalse target =>
    exact ⟨publicBLeg, witnessBases, rBaked, ⟨rfl, rfl⟩, rfl, nonzero, not_not.mp lengths,
      Bool.eq_false_iff.mpr rows, Bool.eq_false_iff.mpr thetaLimit, Bool.eq_false_iff.mpr pairingLimit,
      gamma, not_not.mp target⟩
  · rintro ⟨_, _, _, ⟨rfl, rfl⟩, rfl, nonzero, lengths, rows, thetaLimit, pairingLimit, gamma, target⟩
    simp only [nonzero, lengths, rows, thetaLimit, pairingLimit, gamma, target, if_false,
      not_true_eq_false, Bool.false_eq_true]

end Inversion

section Agreement

variable {F G1 G2 GT D : Type} [Zero F] [AddCommGroup G1] [AddCommGroup G2] [AddCommGroup GT]
variable [SMul F G1] [SMul F G2] [DistribSMul F GT] [DecidableEq F] [DecidableEq G1] [DecidableEq G2]

/-- Commitments that give the schedule's value over the bases decapsulate to its armed value. -/
theorem decapsulate_armed {e : Pairing F G1 G2 GT} {commitments : OneSidedCommitments G1}
    {bases : ColumnBases G2} {arms : ColumnArms G2} {rho : F}
    (armed : armColumns bases rho = .ok arms) (good : commitments.good e.modulus = true)
    (lengths : commitments.xBCols.length = bases.yCols.length) (debugAssertions : Bool) :
    decapsulate debugAssertions e commitments arms =
      .ok (rho • schedule e.pairing commitments bases.yCols bases.delta) := by
  obtain ⟨-, -, rfl⟩ := armColumns_eq_ok.mp armed
  have sizes : ¬commitments.xBCols.length ≠ (bases.yCols.map (rho • ·)).length := by
    rw [List.length_map]
    exact not_not.mpr lengths
  rw [decapsulate, decap, if_neg sizes, good, Bool.not_true, Bool.and_false, if_neg (by decide),
    safePairing_eq, schedule_armed]

/-- Every accepted bundle decapsulates to the key of the setup, so any two of them agree. -/
theorem decapsulate_of_accepted [DecidableEq GT] [DecidableEq D] {e : Pairing F G1 G2 GT}
    {hashG2 : G2 → D} {pvugcVk : PvugcVk G2 GT} {vk : VerifyingKey G1 G2} {publicInputs : List F} {rho : F}
    {bases : ColumnBases G2} {arms : ColumnArms G2} {r k : GT}
    (setup : setupAndArm e hashG2 pvugcVk vk publicInputs rho = .ok (bases, arms, r, k)) :
    (∀ (bundle : PvugcBundle G1 G2) (limits : VerifyLimits) (debugAssertions : Bool),
      verifyWithLimits e bundle pvugcVk vk publicInputs limits = true →
        decapsulate debugAssertions e bundle.gsCommitments arms = .ok k) ∧
    ∀ (left right : PvugcBundle G1 G2) (leftLimits rightLimits : VerifyLimits) (debugAssertions : Bool),
      verifyWithLimits e left pvugcVk vk publicInputs leftLimits = true →
      verifyWithLimits e right pvugcVk vk publicInputs rightLimits = true →
        decapsulate debugAssertions e left.gsCommitments arms =
          decapsulate debugAssertions e right.gsCommitments arms := by
  obtain ⟨-, -, target, -, built, -, armed, rfl⟩ := setupAndArm_eq_ok.mp setup
  have agrees (bundle : PvugcBundle G1 G2) (limits : VerifyLimits) (debugAssertions : Bool)
      (accepted : verifyWithLimits e bundle pvugcVk vk publicInputs limits = true) :
      decapsulate debugAssertions e bundle.gsCommitments arms = .ok (rho • r) := by
    obtain ⟨-, -, -, -, publicBLeg, witnessBases, rBaked, split, good, baked, -, lengths, -, -, -, -,
      value⟩ := verifyWithLimits_eq_true.mp accepted
    cases target.symm.trans baked
    rw [buildColumnBases, split] at built
    cases built
    rw [decapsulate_armed armed good lengths, value]
  refine ⟨agrees, ?_⟩
  intro left right leftLimits rightLimits debugAssertions leftAccepted rightAccepted
  rw [agrees left leftLimits debugAssertions leftAccepted,
    agrees right rightLimits debugAssertions rightAccepted]

theorem decapsulate_of_accepted_foreign : ∃ (arms : ColumnArms (ZMod 13)) (k : ZMod 13),
    decapsulate true (mulPairing (ZMod 13) 13)
      { xBCols := [(3, 11), (0, 4)], theta := [(0, 2), (5, 12)], thetaDeltaCancel := (12, 0) } arms =
        .ok k ∧ k ≠ 0 := by
  set vk : VerifyingKey (ZMod 13) (ZMod 13) :=
    { alphaG1 := 1, betaG2 := 2, gammaG2 := 3, deltaG2 := 1, gammaAbcG1 := [1] }
  set pvugcVk : PvugcVk (ZMod 13) (ZMod 13) :=
    { betaG2 := 2, deltaG2 := 1, bG2Query := [4, 5], tConstPointsGt := [0] }
  have setup : setupAndArm (mulPairing (ZMod 13) 13) id pvugcVk vk ([] : List (ZMod 13)) 2 =
      .ok ({ yCols := [6, 5], delta := 1 }, { yColsRho := [12, 10], deltaRho := 2 }, 5, 10) := by
    rfl
  have accepted : verifyWithLimits (mulPairing (ZMod 13) 13)
      { groth16Proof := { a := 1, b := 6, c := 1 }
        gsCommitments :=
          { xBCols := [(3, 11), (0, 4)], theta := [(0, 2), (5, 12)], thetaDeltaCancel := (12, 0) } }
      pvugcVk vk ([] : List (ZMod 13)) .default = true := by
    decide
  exact ⟨_, _, (decapsulate_of_accepted setup).1 _ .default true accepted, by decide⟩

end Agreement

end Pvugc.OneSided
