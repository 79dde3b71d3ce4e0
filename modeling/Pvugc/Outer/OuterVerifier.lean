import Pvugc.OneSided.Target

namespace Pvugc.Outer
open Pvugc.Groth16 Pvugc.OneSided

section Code

variable {F G1 G2 GT : Type} [AddCommGroup G1] [AddCommGroup G2] [AddCommGroup GT]
variable [SMul F G1] [SMul F G2] [SMul F GT]

/-- The quotient part that `verify_outer_for` accumulates; a point that is missing from the list panics. -/
def accumulateTConst (tConstPointsGt : List GT) (publicInputs : List F) : Option GT := do
  let constant ← tConstPointsGt[0]?
  publicInputs.zipIdx.foldlM (fun tAcc (entry : F × ℕ) =>
    tConstPointsGt[entry.2 + 1]?.map fun point => tAcc + entry.1 • point) constant

/-- `verify_outer_for`: with a wrapper key the prepared pairing is shifted by its quotient part. -/
def verifyOuterFor [DecidableEq GT] (e : Pairing F G1 G2 GT) (vkOuter : VerifyingKey G1 G2)
    (compressedPublicInputs : List F) (proofOuter : Proof G1 G2) (pvugcVk : Option (PvugcVk G2 GT)) :
    Except Failure Bool :=
  let pvk := prepareVerifyingKey e vkOuter
  match pvugcVk with
  | none => (verifyProof e pvk proofOuter compressedPublicInputs).mapError .synthesis
  | some pvugcVk =>
    match accumulateTConst pvugcVk.tConstPointsGt compressedPublicInputs with
    | none => .error .panic
    | some tAcc =>
      let pvkModified := { pvk with alphaG1BetaG2 := pvk.alphaG1BetaG2 + tAcc }
      (verifyProof e pvkModified proofOuter compressedPublicInputs).mapError .synthesis

end Code

section Agreement

variable {F G1 G2 GT : Type} [AddCommGroup G1] [AddCommGroup G2] [AddCommGroup GT]
variable [SMul F G1] [SMul F G2] [SMul F GT]

/-- The accumulation reads one point for each input and the constant point. -/
theorem accumulateTConst_eq (tConstPointsGt : List GT) (publicInputs : List F) :
    accumulateTConst tConstPointsGt publicInputs =
      if publicInputs.length < tConstPointsGt.length then
        some (tConstPointsGt.headD 0 + msm tConstPointsGt.tail publicInputs)
      else none := by
  have run (constant : GT) (rest : List GT) (x : List F) (offset : ℕ) (tAcc : GT) :
      (x.zipIdx offset).foldlM (fun tAcc (entry : F × ℕ) =>
        (constant :: rest)[entry.2 + 1]?.map fun point => tAcc + entry.1 • point) tAcc =
      if x.length ≤ (rest.drop offset).length then some (tAcc + msm (rest.drop offset) x) else none := by
    induction x generalizing offset tAcc with
    | nil => simp [msm]
    | cons c cs inductionHypothesis =>
        rw [List.zipIdx_cons, List.foldlM_cons, List.getElem?_cons_succ]
        by_cases inside : offset < rest.length
        · rw [List.getElem?_eq_getElem inside, List.drop_eq_getElem_cons inside]
          simp only [Option.map_some, Option.bind_eq_bind, Option.bind_some, inductionHypothesis, msm,
            List.zipWith_cons_cons, List.sum_cons, List.length_cons, Nat.add_le_add_iff_right, add_assoc]
        · rw [List.getElem?_eq_none (not_lt.mp inside), if_neg]
          · rfl
          · rw [List.length_drop, List.length_cons]
            omega
  cases tConstPointsGt with
  | nil => rfl
  | cons constant rest =>
      simp only [accumulateTConst, List.getElem?_cons_zero, Option.bind_eq_bind, Option.bind_some, run,
        List.drop_zero, List.length_cons, Nat.lt_succ_iff, List.headD_cons, List.tail_cons]

variable [DecidableEq G1] [DecidableEq G2] [DecidableEq GT] (e : Pairing F G1 G2 GT) (vk : VerifyingKey G1 G2)
variable (pvugcVk : PvugcVk G2 GT) (publicInputs : List F)

/-- The outer verifier neither panics nor disagrees with the target that arming bakes. -/
def VerifiersAgree (proof : Proof G1 G2) : Prop :=
  verifyOuterFor e vk publicInputs proof (some pvugcVk) ≠ .error .panic ∧
    (verifyOuterFor e vk publicInputs proof (some pvugcVk) = .ok true ↔
      ∃ r, computeBakedTarget e vk pvugcVk publicInputs = .ok r ∧
        e.pairing proof.a proof.b = r + e.pairing proof.c vk.deltaG2)

/-- The baked list covers the statement, and under a key for the statement it has no surplus point, the
instance commitment is not the identity and the raw target is not the identity. -/
def TargetAdmissible : Prop :=
  publicInputs.length < pvugcVk.tConstPointsGt.length ∧
    (vk.gammaAbcG1.length = publicInputs.length + 1 →
      pvugcVk.tConstPointsGt.length = publicInputs.length + 1 ∧
        instanceCommitment vk publicInputs ≠ 0 ∧ rawTarget e vk publicInputs ≠ 0)

omit [DecidableEq G1] [DecidableEq G2] in
/-- The outer verifier panics on a short list and otherwise checks the unguarded equation. -/
theorem verifyOuterFor_eq (proof : Proof G1 G2) :
    verifyOuterFor e vk publicInputs proof (some pvugcVk) =
      if ¬publicInputs.length < pvugcVk.tConstPointsGt.length then .error .panic
      else if vk.gammaAbcG1.length = publicInputs.length + 1 then
        .ok (decide (e.pairing proof.a proof.b =
          rawTarget e vk publicInputs + constTarget pvugcVk publicInputs + e.pairing proof.c vk.deltaG2))
      else .error (.synthesis .malformedVerifyingKey) := by
  have move (ab ic cd r t : GT) : ab + -ic + -cd = r + t ↔ ab = r + ic + t + cd := by
    rw [← sub_eq_zero, ← sub_eq_zero (b := r + ic + t + cd)]
    exact iff_of_eq (congrArg (· = 0) (by abel))
  simp only [verifyOuterFor, accumulateTConst_eq, verifyProof, prepareVerifyingKey, prepareInputs_eq]
  by_cases covered : publicInputs.length < pvugcVk.tConstPointsGt.length
  · rw [if_pos covered, if_neg (not_not.mpr covered)]
    by_cases length : vk.gammaAbcG1.length = publicInputs.length + 1
    · simp only [length, if_true, verifyProofWithPreparedInputs, Except.mapError, rawTarget, constTarget,
        e.neg_right]
      exact congrArg Except.ok (decide_eq_decide.mpr (move _ _ _ _ _))
    · simp only [length, if_false, Except.mapError]
  · rw [if_neg covered, if_pos covered]

/-- On an admissible key both verifiers agree about every proof, and when every target is a pairing they
agree about every proof on no other key. -/
theorem verifiers_agree_iff :
    (TargetAdmissible e vk pvugcVk publicInputs → ∀ proof, VerifiersAgree e vk pvugcVk publicInputs proof) ∧
      ((∀ t, ∃ a b, e.pairing a b = t) →
        (∀ proof, VerifiersAgree e vk pvugcVk publicInputs proof) →
          TargetAdmissible e vk pvugcVk publicInputs) := by
  constructor
  · rintro ⟨covered, guarded⟩ proof
    rw [VerifiersAgree, verifyOuterFor_eq, if_neg (not_not.mpr covered)]
    simp only [computeBakedTarget_eq_ok_iff]
    by_cases length : vk.gammaAbcG1.length = publicInputs.length + 1
    · obtain ⟨baked, nonzero, regular⟩ := guarded length
      rw [if_pos length]
      simp only [length, baked, nonzero, regular, ne_eq, not_false_eq_true, true_and, exists_eq_left,
        Except.ok.injEq, decide_eq_true_eq, reduceCtorEq]
    · simp [length]
  · intro onto agree
    have covered : publicInputs.length < pvugcVk.tConstPointsGt.length := by
      by_contra short
      refine (agree ⟨0, 0, 0⟩).1 ?_
      rw [verifyOuterFor_eq, if_pos short]
    refine ⟨covered, fun length => ?_⟩
    -- A proof that the unguarded equation accepts, also when `delta` is the identity.
    obtain ⟨a, b, value⟩ := onto (rawTarget e vk publicInputs + constTarget pvugcVk publicInputs)
    have accepted := (agree ⟨a, b, 0⟩).2.mp (by
      rw [verifyOuterFor_eq, if_neg (not_not.mpr covered), if_pos length]
      simp only [value, e.zero_left, add_zero, decide_true])
    obtain ⟨r, target, -⟩ := accepted
    obtain ⟨-, baked, nonzero, regular, -⟩ :=
      (computeBakedTarget_eq_ok_iff e vk pvugcVk publicInputs).mp target
    exact ⟨baked, nonzero, regular⟩

/-- A list without baked points makes the outer verifier panic, and a surplus point or an identity instance
commitment makes it accept a proof whose target arming refuses to compute. -/
theorem verifyOuterFor_diverges :
    let e := mulPairing (ZMod 13) 13
    let vk (constant : ZMod 13) : VerifyingKey (ZMod 13) (ZMod 13) :=
      { alphaG1 := 1, betaG2 := 2, gammaG2 := 3, deltaG2 := 1, gammaAbcG1 := [constant] }
    let pvugcVk (points : List (ZMod 13)) : PvugcVk (ZMod 13) (ZMod 13) :=
      { betaG2 := 2, deltaG2 := 1, bG2Query := [4, 5], tConstPointsGt := points }
    verifyOuterFor e (vk 1) [] ⟨1, 6, 1⟩ (some (pvugcVk [])) = .error .panic ∧
      (verifyOuterFor e (vk 1) [] ⟨1, 6, 1⟩ (some (pvugcVk [0, 7])) = .ok true ∧
        computeBakedTarget e (vk 1) (pvugcVk [0, 7]) [] = .error (.error .mismatchedSizes)) ∧
      (verifyOuterFor e (vk 0) [] ⟨1, 3, 1⟩ (some (pvugcVk [0])) = .ok true ∧
        computeBakedTarget e (vk 0) (pvugcVk [0]) [] = .error (.error .zeroInstanceCommitment)) := by
  decide

end Agreement

end Pvugc.Outer
