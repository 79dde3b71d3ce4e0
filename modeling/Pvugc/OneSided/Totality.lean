import Pvugc.OneSided.Target

namespace Pvugc.OneSided
open Pvugc.Groth16

section Code

variable {F G1 G2 GT : Type} [AddCommGroup G1] [AddCommGroup G2] [AddCommGroup GT]
variable [SMul F G1] [SMul F G2] [SMul F GT] [DecidableEq G1] [DecidableEq G2] [DecidableEq GT]
variable (identityPanics : Bool) (e : Pairing F G1 G2 GT)

/-- `Groth16::verify` on a curve. -/
def verifyOn (vk : VerifyingKey G1 G2) (publicInputs : List F) (proof : Proof G1 G2) :
    Except Fault (Except SynthesisError Bool) := do
  let alphaG1BetaG2 ← pairingOn identityPanics e vk.alphaG1 vk.betaG2
  let gammaG2NegPc ← prepareG2 identityPanics (-vk.gammaG2)
  let deltaG2NegPc ← prepareG2 identityPanics (-vk.deltaG2)
  match prepareInputs vk publicInputs with
  | .error error => return .error error
  | .ok gIc =>
    let b ← prepareG2 identityPanics proof.b
    return .ok (decide (e.pairing proof.a b + e.pairing gIc gammaG2NegPc +
      e.pairing proof.c deltaG2NegPc = alphaG1BetaG2))

/-- One row of the pairing schedule: both limbs with one point. -/
def limbsOn (acc : GT) (row : (G1 × G1) × G2) : Except Fault GT := do
  let first ← pairingOn identityPanics e row.1.1 row.2
  let second ← pairingOn identityPanics e row.1.2 row.2
  return acc + first + second

/-- The pairing schedule of `verify_with_limits` on a curve. -/
def scheduleOn (commitments : OneSidedCommitments G1) (yCols : List G2) (delta : G2) : Except Fault GT := do
  let columns ← (commitments.xBCols.zip yCols).foldlM (limbsOn identityPanics e) 0
  let rows ← (commitments.theta.map fun t => (t, delta)).foldlM (limbsOn identityPanics e) columns
  limbsOn identityPanics e rows (commitments.thetaDeltaCancel, delta)

/-- `verify_with_limits` on a curve, with its panics. -/
def verifyWithLimitsOn (bundle : PvugcBundle G1 G2) (pvugcVk : PvugcVk G2 GT)
    (vk : VerifyingKey G1 G2) (publicInputs : List F) (limits : VerifyLimits) : Except Fault Bool :=
  if !validatePvugcVkSubgroups e pvugcVk then .ok false
  else if !validateGroth16VkSubgroups e vk then .ok false
  else if exceeds limits.maxBColumns pvugcVk.bG2Query.length then .ok false
  else
    match verifyOn identityPanics e vk publicInputs bundle.groth16Proof with
    | .error fault => .error fault
    | .ok valid =>
      if valid ≠ .ok true then .ok false
      else
        match splitStatementOnlyBases pvugcVk vk publicInputs with
        | .error .panic => .error .panic
        | .error (.error _) => .ok false
        | .ok (publicBLeg, witnessBases) =>
          if !bundle.gsCommitments.good e.modulus then .ok false
          else
            match computeBakedTargetOn identityPanics e vk pvugcVk publicInputs with
            | .error .panic => .error .panic
            | .error (.error _) => .ok false
            | .ok rBaked =>
              let yCols := publicBLeg :: witnessBases
              let commitments := bundle.gsCommitments
              if rBaked = 0 then .ok false
              else if commitments.xBCols.length ≠ yCols.length then .ok false
              else if commitments.theta.isEmpty then .ok false
              else if exceeds limits.maxThetaRows commitments.theta.length then .ok false
              else if exceeds limits.maxTotalPairings
                (totalPairings yCols.length commitments.theta.length) then .ok false
              else if vk.gammaG2 ∈ yCols then .ok false
              else
                match scheduleOn identityPanics e commitments yCols pvugcVk.deltaG2 with
                | .error fault => .error fault
                | .ok lhs => .ok (if lhs = 0 then false else if lhs ≠ rBaked then false else true)

end Code

section Valid

variable {F G1 G2 GT : Type} [AddCommGroup G1] [AddCommGroup G2] [AddCommGroup GT]
variable [SMul F G1] [SMul F G2] [SMul F GT] [DecidableEq G2] {e : Pairing F G1 G2 GT}

theorem validateGroth16_nonzero [DecidableEq G1] {vk : VerifyingKey G1 G2}
    (valid : validateGroth16VkSubgroups e vk = true) :
    vk.betaG2 ≠ 0 ∧ vk.gammaG2 ≠ 0 ∧ vk.deltaG2 ≠ 0 := by
  simp only [validateGroth16VkSubgroups, Bool.and_eq_true, Bool.not_eq_true', Bool.or_eq_false_iff,
    decide_eq_false_iff_not] at valid
  exact ⟨valid.1.1.1.2.1, valid.1.1.2.1, valid.1.2.1⟩

theorem validatePvugc_nonzero [DecidableEq GT] {pvugcVk : PvugcVk G2 GT}
    (valid : validatePvugcVkSubgroups e pvugcVk = true) : pvugcVk.deltaG2 ≠ 0 := by
  simp only [validatePvugcVkSubgroups, Bool.and_eq_true, Bool.not_eq_true', Bool.or_eq_false_iff,
    decide_eq_false_iff_not] at valid
  exact valid.1.1.2.1

end Valid

section Prepared

variable {F G1 G2 GT : Type} [AddCommGroup G1] [AddCommGroup G2] [AddCommGroup GT]
variable [SMul F G1] [SMul F G2] [SMul F GT] [DecidableEq G2]
variable {identityPanics : Bool} {e : Pairing F G1 G2 GT}

theorem limbsOn_eq (acc : GT) (row : (G1 × G1) × G2) (prepared : identityPanics = true → row.2 ≠ 0) :
    limbsOn identityPanics e acc row = .ok (acc + e.pairing row.1.1 row.2 + e.pairing row.1.2 row.2) := by
  rw [limbsOn, pairingOn_eq _ prepared, pairingOn_eq _ prepared]
  rfl

/-- Rows without an identity add up as without panics. -/
theorem foldlM_limbsOn (rows : List ((G1 × G1) × G2)) (acc : GT)
    (prepared : identityPanics = true → ∀ row ∈ rows, row.2 ≠ 0) :
    rows.foldlM (limbsOn identityPanics e) acc =
      .ok (rows.foldl (fun acc row => acc + e.pairing row.1.1 row.2 + e.pairing row.1.2 row.2) acc) := by
  induction rows generalizing acc with
  | nil => rfl
  | cons row rows inductionHypothesis =>
      rw [List.foldlM_cons, limbsOn_eq acc row fun panics => prepared panics row List.mem_cons_self]
      exact inductionHypothesis _ fun panics other member =>
        prepared panics other (List.mem_cons_of_mem row member)

/-- A row with an identity panics, whatever comes before it. -/
theorem foldlM_limbsOn_panic {rows : List ((G1 × G1) × G2)} (acc : GT)
    (identity : ∃ row ∈ rows, row.2 = 0) : rows.foldlM (limbsOn true e) acc = .error .panic := by
  induction rows generalizing acc with
  | nil => simp at identity
  | cons row rows inductionHypothesis =>
      rw [List.foldlM_cons]
      by_cases zero : row.2 = 0
      · rw [limbsOn, zero, pairingOn_zero]
        rfl
      · rw [limbsOn_eq acc row fun _ => zero]
        obtain ⟨other, member, otherZero⟩ := identity
        rcases List.mem_cons.mp member with rfl | later
        · exact absurd otherZero zero
        · exact inductionHypothesis _ ⟨other, later, otherZero⟩

/-- The schedule over nonzero points is the schedule without panics. -/
theorem scheduleOn_eq {commitments : OneSidedCommitments G1} {yCols : List G2} {delta : G2}
    (deltaNonzero : delta ≠ 0) (prepared : identityPanics = true → ∀ y ∈ yCols, y ≠ 0) :
    scheduleOn identityPanics e commitments yCols delta =
      .ok (schedule e.pairing commitments yCols delta) := by
  have columns := foldlM_limbsOn (e := e) (commitments.xBCols.zip yCols) 0
    fun panics row member => prepared panics row.2 (List.of_mem_zip member).2
  have rows (acc : GT) := foldlM_limbsOn (e := e) (commitments.theta.map fun t => (t, delta)) acc
    fun (_ : identityPanics = true) row member => by
      obtain ⟨t, -, rfl⟩ := List.mem_map.mp member
      exact deltaNonzero
  rw [scheduleOn, columns]
  simp only [bind, Except.bind, rows]
  rw [limbsOn_eq _ _ fun _ => deltaNonzero, schedule, List.foldl_map]

/-- An identity column that is paired panics. -/
theorem scheduleOn_panic {commitments : OneSidedCommitments G1} {yCols : List G2} {delta : G2}
    (columns : commitments.xBCols.length = yCols.length) (identity : 0 ∈ yCols) :
    scheduleOn true e commitments yCols delta = .error .panic := by
  obtain ⟨i, bound, zero⟩ := List.mem_iff_getElem.mp identity
  have paired : ∃ row ∈ commitments.xBCols.zip yCols, row.2 = 0 := by
    have inside : i < (commitments.xBCols.zip yCols).length := by
      rw [List.length_zip]
      omega
    refine ⟨_, List.getElem_mem inside, ?_⟩
    rw [List.getElem_zip]
    exact zero
  rw [scheduleOn, foldlM_limbsOn_panic 0 paired]
  rfl

end Prepared

section Total

variable {F G1 G2 GT : Type} [AddCommGroup G1] [AddCommGroup G2] [AddCommGroup GT]
variable [SMul F G1] [SMul F G2] [SMul F GT] [DecidableEq G1] [DecidableEq G2] [DecidableEq GT]
variable (identityPanics : Bool) (e : Pairing F G1 G2 GT) (bundle : PvugcBundle G1 G2)
variable (pvugcVk : PvugcVk G2 GT) (vk : VerifyingKey G1 G2) (publicInputs : List F) (limits : VerifyLimits)

/-- The columns that a verification pairs: the public leg and the witness columns. -/
def pairedColumns : List G2 :=
  publicLeg pvugcVk publicInputs :: pvugcVk.bG2Query.drop vk.gammaAbcG1.length

/-- The key and the number of inputs pass every check before the proof is prepared. -/
structure ReachesProof : Prop where
  validPvugc : validatePvugcVkSubgroups e pvugcVk = true
  validGroth16 : validateGroth16VkSubgroups e vk = true
  columns : exceeds limits.maxBColumns pvugcVk.bG2Query.length = false
  inputs : vk.gammaAbcG1.length = publicInputs.length + 1

/-- The key and the bundle pass every check before the pairing schedule. -/
structure ReachesSchedule : Prop extends ReachesProof e pvugcVk vk publicInputs limits where
  proof : verify e vk publicInputs bundle.groth16Proof = .ok true
  witness : vk.gammaAbcG1.length < pvugcVk.bG2Query.length
  good : bundle.gsCommitments.good e.modulus = true
  target : ∃ rBaked, computeBakedTarget e vk pvugcVk publicInputs = .ok rBaked ∧ rBaked ≠ 0
  rows : bundle.gsCommitments.xBCols.length = (pairedColumns pvugcVk vk publicInputs).length
  theta : bundle.gsCommitments.theta.isEmpty = false
  thetaLimit : exceeds limits.maxThetaRows bundle.gsCommitments.theta.length = false
  pairingLimit : exceeds limits.maxTotalPairings
    (totalPairings (pairedColumns pvugcVk vk publicInputs).length bundle.gsCommitments.theta.length) = false
  gamma : vk.gammaG2 ∉ pairedColumns pvugcVk vk publicInputs

/-- No identity of the second group reaches a pairing. -/
structure NoIdentityPaired : Prop where
  proof : ReachesProof e pvugcVk vk publicInputs limits → bundle.groth16Proof.b ≠ 0
  columns : ReachesSchedule e bundle pvugcVk vk publicInputs limits →
    ∀ y ∈ pairedColumns pvugcVk vk publicInputs, y ≠ 0

variable {identityPanics e bundle pvugcVk vk publicInputs limits}

/-- Under a valid key the target is computed as without panics. -/
theorem computeBakedTargetOn_eq (valid : validateGroth16VkSubgroups e vk = true) :
    computeBakedTargetOn identityPanics e vk pvugcVk publicInputs =
      computeBakedTarget e vk pvugcVk publicInputs := by
  obtain ⟨beta, gamma, -⟩ := validateGroth16_nonzero valid
  have target : computeGroth16TargetOn identityPanics e vk publicInputs =
      computeGroth16Target e vk publicInputs := by
    rw [computeGroth16Target_cases, computeGroth16TargetOn_cases]
    simp only [beta, gamma, or_self, and_false, if_false]
  rw [computeBakedTargetOn_cases, computeBakedTarget_cases, target]

/-- Under a valid key the proof is verified as without panics unless its second element is an identity. -/
theorem verifyOn_eq (valid : validateGroth16VkSubgroups e vk = true) {proof : Proof G1 G2}
    (prepared : identityPanics = true → vk.gammaAbcG1.length = publicInputs.length + 1 → proof.b ≠ 0) :
    verifyOn identityPanics e vk publicInputs proof = .ok (verify e vk publicInputs proof) := by
  obtain ⟨beta, gamma, delta⟩ := validateGroth16_nonzero valid
  rw [verifyOn, verify, pairingOn_eq _ fun _ => beta, prepareG2_eq fun _ => neg_ne_zero.mpr gamma,
    prepareG2_eq fun _ => neg_ne_zero.mpr delta, prepareInputs_eq]
  by_cases inputs : vk.gammaAbcG1.length = publicInputs.length + 1
  · rw [if_pos inputs]
    simp only [bind, Except.bind, prepareG2_eq fun panics => prepared panics inputs]
    rfl
  · rw [if_neg inputs]
    rfl

/-- An identity in the second element of the proof panics. -/
theorem verifyOn_panic (valid : validateGroth16VkSubgroups e vk = true) {proof : Proof G1 G2}
    (inputs : vk.gammaAbcG1.length = publicInputs.length + 1) (identity : proof.b = 0) :
    verifyOn true e vk publicInputs proof = .error .panic := by
  obtain ⟨beta, gamma, delta⟩ := validateGroth16_nonzero valid
  rw [verifyOn, pairingOn_eq _ fun _ => beta, prepareG2_eq fun _ => neg_ne_zero.mpr gamma,
    prepareG2_eq fun _ => neg_ne_zero.mpr delta, prepareInputs_eq, if_pos inputs, identity, prepareG2_zero]
  rfl

/-- A guard returns the same with and without panics, if what follows it does. -/
theorem guard_eq {failed : Prop} [Decidable failed] {checked : Except Fault Bool} {accepted : Bool}
    (passed : ¬failed → checked = .ok accepted) :
    (if failed then .ok false else checked) = .ok (if failed then false else accepted) := by
  split
  case isTrue => rfl
  case isFalse passes => exact passed passes

/-- Without an identity at a pairing the verification returns what it returns without panics. -/
theorem verifyWithLimitsOn_eq
    (unpaired : identityPanics = true → NoIdentityPaired e bundle pvugcVk vk publicInputs limits) :
    verifyWithLimitsOn identityPanics e bundle pvugcVk vk publicInputs limits =
      .ok (verifyWithLimits e bundle pvugcVk vk publicInputs limits) := by
  unfold verifyWithLimitsOn verifyWithLimits
  refine guard_eq fun validPvugc => guard_eq fun validGroth16 => guard_eq fun columns => ?_
  rw [Bool.not_eq_true', Bool.not_eq_false] at validPvugc validGroth16
  rw [Bool.not_eq_true] at columns
  rw [verifyOn_eq validGroth16 fun panics inputs =>
    (unpaired panics).proof ⟨validPvugc, validGroth16, columns, inputs⟩, computeBakedTargetOn_eq validGroth16]
  refine guard_eq fun proof => ?_
  have noPanic := splitStatementOnlyBases_ne_panic vk pvugcVk publicInputs
  cases split : splitStatementOnlyBases pvugcVk vk publicInputs with
  | error fault =>
      cases fault with
      | panic => exact absurd split noPanic
      | error error => rfl
  | ok columnPair =>
  obtain ⟨publicBLeg, witnessBases⟩ := columnPair
  obtain ⟨inputs, witness, rfl, rfl⟩ := splitStatementOnlyBases_eq_ok.mp split
  refine guard_eq fun good => ?_
  rw [Bool.not_eq_true', Bool.not_eq_false] at good
  cases target : computeBakedTarget e vk pvugcVk publicInputs with
  | error fault =>
      cases fault with
      | panic =>
          rw [((computeBakedTarget_eq_panic e vk pvugcVk publicInputs).mp target).1] at inputs
          cases inputs
      | error error => rfl
  | ok rBaked =>
  refine guard_eq fun identity => guard_eq fun rows => guard_eq fun theta => guard_eq fun thetaLimit =>
    guard_eq fun pairingLimit => guard_eq fun gamma => ?_
  rw [Bool.not_eq_true] at theta thetaLimit pairingLimit
  -- Past the guards no column is an identity.
  have scheduled : scheduleOn identityPanics e bundle.gsCommitments (pairedColumns pvugcVk vk publicInputs)
      pvugcVk.deltaG2 = .ok (schedule e.pairing bundle.gsCommitments
        (pairedColumns pvugcVk vk publicInputs) pvugcVk.deltaG2) :=
    scheduleOn_eq (validatePvugc_nonzero validPvugc) fun panics => (unpaired panics).columns
      { validPvugc, validGroth16, columns, inputs, witness, good, theta, thetaLimit, pairingLimit, gamma
        proof := not_not.mp proof
        target := ⟨rBaked, target, identity⟩
        rows := not_not.mp rows }
  rw [pairedColumns] at scheduled
  rw [scheduled]

/-- An identity at a pairing panics. -/
theorem verifyWithLimitsOn_panic
    (paired : ¬NoIdentityPaired e bundle pvugcVk vk publicInputs limits) :
    verifyWithLimitsOn true e bundle pvugcVk vk publicInputs limits = .error .panic := by
  by_cases proofIdentity : ReachesProof e pvugcVk vk publicInputs limits ∧ bundle.groth16Proof.b = 0
  · obtain ⟨⟨validPvugc, validGroth16, columns, inputs⟩, identity⟩ := proofIdentity
    simp only [verifyWithLimitsOn, validPvugc, validGroth16, columns, Bool.not_true, Bool.false_eq_true,
      if_false, verifyOn_panic validGroth16 inputs identity]
  · have proofNonzero (reaches : ReachesProof e pvugcVk vk publicInputs limits) :
        bundle.groth16Proof.b ≠ 0 := fun identity => proofIdentity ⟨reaches, identity⟩
    have columnIdentity : ReachesSchedule e bundle pvugcVk vk publicInputs limits ∧
        0 ∈ pairedColumns pvugcVk vk publicInputs := by
      by_contra none
      refine paired ⟨proofNonzero, fun reaches y member zero => none ⟨reaches, zero ▸ member⟩⟩
    obtain ⟨reached, identity⟩ := columnIdentity
    obtain ⟨rBaked, target, nonzero⟩ := reached.target
    have verified : verifyOn true e vk publicInputs bundle.groth16Proof =
        .ok (verify e vk publicInputs bundle.groth16Proof) :=
      verifyOn_eq reached.validGroth16 fun _ _ => proofNonzero reached.toReachesProof
    have split : splitStatementOnlyBases pvugcVk vk publicInputs =
        .ok (publicLeg pvugcVk publicInputs, pvugcVk.bG2Query.drop vk.gammaAbcG1.length) :=
      splitStatementOnlyBases_eq_ok.mpr ⟨reached.inputs, reached.witness, rfl, rfl⟩
    have scheduled : scheduleOn true e bundle.gsCommitments (pairedColumns pvugcVk vk publicInputs)
        pvugcVk.deltaG2 = .error .panic := scheduleOn_panic reached.rows identity
    have rows := reached.rows
    have pairingLimit := reached.pairingLimit
    have gamma := reached.gamma
    rw [pairedColumns] at scheduled rows pairingLimit gamma
    simp only [verifyWithLimitsOn, reached.validPvugc, reached.validGroth16, reached.columns, verified,
      reached.proof, split, reached.good, computeBakedTargetOn_eq reached.validGroth16, target, nonzero,
      rows, reached.theta, reached.thetaLimit, pairingLimit, gamma, scheduled, Bool.not_true,
      Bool.false_eq_true, ne_eq, not_true_eq_false, if_false]

/-- The verification returns on a curve exactly when identities do not panic there or none is paired. -/
theorem verifyWithLimitsOn_total_iff (identityPanics : Bool) (e : Pairing F G1 G2 GT)
    (bundle : PvugcBundle G1 G2) (pvugcVk : PvugcVk G2 GT) (vk : VerifyingKey G1 G2)
    (publicInputs : List F) (limits : VerifyLimits) :
    (∃ accepted, verifyWithLimitsOn identityPanics e bundle pvugcVk vk publicInputs limits = .ok accepted) ↔
      identityPanics = false ∨ NoIdentityPaired e bundle pvugcVk vk publicInputs limits := by
  constructor
  · rintro ⟨accepted, returned⟩
    cases identityPanics with
    | false => exact .inl rfl
    | true =>
        refine .inr (by_contra fun paired => ?_)
        cases (verifyWithLimitsOn_panic paired).symm.trans returned
  · rintro (total | unpaired)
    · exact ⟨_, verifyWithLimitsOn_eq fun panics => Bool.noConfusion (total.symm.trans panics)⟩
    · exact ⟨_, verifyWithLimitsOn_eq fun _ => unpaired⟩

/-- An honest bundle under a key with an identity witness column, which arming admits, panics where
identities do. -/
theorem verifyWithLimitsOn_identityColumn :
    let e := mulPairing (ZMod 13) 13
    let vk : VerifyingKey (ZMod 13) (ZMod 13) :=
      { alphaG1 := 1, betaG2 := 2, gammaG2 := 3, deltaG2 := 1, gammaAbcG1 := [1] }
    let pvugcVk : PvugcVk (ZMod 13) (ZMod 13) :=
      { betaG2 := 2, deltaG2 := 1, bG2Query := [4, 0], tConstPointsGt := [0] }
    let bundle : PvugcBundle (ZMod 13) (ZMod 13) :=
      { groth16Proof := { a := 1, b := 6, c := 1 }
        gsCommitments := { xBCols := [(1, 0), (5, 0)], theta := [(12, 5)], thetaDeltaCancel := (8, 0) } }
    (∃ arms, setupAndArm e id pvugcVk vk ([] : List (ZMod 13)) 2 = .ok arms) ∧
      verifyWithLimits e bundle pvugcVk vk ([] : List (ZMod 13)) .default = true ∧
      verifyWithLimitsOn true e bundle pvugcVk vk ([] : List (ZMod 13)) .default = .error .panic := by
  refine ⟨⟨({ yCols := [6, 0], delta := 1 }, { yColsRho := [12, 0], deltaRho := 2 }, 5, 10), by decide⟩,
    by decide, by decide⟩

end Total

end Pvugc.OneSided
