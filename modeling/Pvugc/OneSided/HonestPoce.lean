import Pvugc.OneSided.PoceBinding

namespace Pvugc.OneSided

section Honest

variable {F G1 G2 : Type} [Field F] [AddCommGroup G1] [AddCommGroup G2] [Module F G1] [Module F G2]

/-- An honest response passes for a zero challenge and for the right image only. -/
theorem honestResponse_iff {G : Type} [AddCommGroup G] [Module F G] (base image : G)
    (nonce challenge exponent : F) :
    nonce • base + challenge • image = (nonce + challenge * exponent) • base ↔
      challenge = 0 ∨ image = exponent • base := by
  rw [add_smul, add_right_inj, mul_smul]
  constructor
  · intro same
    by_cases zero : challenge = 0
    · exact Or.inl zero
    · exact Or.inr (smul_right_injective G zero same)
  · intro correct
    rcases correct with zero | right
    · rw [zero, zero_smul, zero_smul]
    · rw [right]

variable [DecidableEq F] [DecidableEq G1] [DecidableEq G2] {suite : PoceSuite F G1 G2}
variable {bases : ColumnBases G2} {arms : ColumnArms G2}

omit [DecidableEq F] [DecidableEq G1] [DecidableEq G2] in
/-- The prover and the verifier hash one transcript, and the prover returns the digest of it. -/
theorem provePoceColumn_challenge {tI : G1} {rho sI : F} {context : PoceContext} {kRho kS : F}
    {proof : PoceColumnProof F G1 G2}
    (proved : provePoceColumn suite bases arms tI rho sI context kRho kS = some proof) :
    proof.challenge = computePoceChallenge suite (proof.input bases arms tI context) := by
  rw [provePoceColumn] at proved
  split at proved
  case isTrue => cases proved
  case isFalse =>
    cases proved
    rfl

/-- The equations of an honest proof hold for a zero challenge and for the right arms only. -/
theorem provePoceColumn_equations {tI : G1} {rho sI : F} {context : PoceContext} {kRho kS : F}
    {proof : PoceColumnProof F G1 G2}
    (proved : provePoceColumn suite bases arms tI rho sI context kRho kS = some proof) :
    poceLengths bases arms proof = true ∧
      (poceEquations suite.generator bases arms tI proof proof.challenge = true ↔
        proof.challenge = 0 ∨
          ((∀ j (base : j < bases.yCols.length) (arm : j < arms.yColsRho.length),
            arms.yColsRho[j] = rho • bases.yCols[j]) ∧
          arms.deltaRho = rho • bases.delta ∧ tI = sI • suite.generator)) := by
  rw [provePoceColumn] at proved
  split at proved
  case isTrue => cases proved
  case isFalse lengths =>
    cases proved
    set challenge := computePoceChallenge suite _ with hchallenge
    have guard : poceLengths bases arms ({
        commitments := bases.yCols.map (kRho • ·), deltaCommitment := kRho • bases.delta
        tCommitment := kS • suite.generator, tResponse := kS + challenge * sI
        response := kRho + challenge * rho, challenge := challenge } : PoceColumnProof F G1 G2) = true := by
      simp [poceLengths, not_not.mp lengths]
    refine ⟨guard, ?_⟩
    rw [poceEquations_eq_true guard]
    dsimp only
    simp only [List.getElem_map, honestResponse_iff, List.length_map]
    by_cases zero : challenge = 0
    · simp [zero]
    · simp only [zero, false_or]
      constructor
      · intro each
        obtain ⟨columns, legs⟩ := each
        exact ⟨fun j base arm => columns j base arm base, legs⟩
      · intro right
        obtain ⟨columns, legs⟩ := right
        exact ⟨fun j base arm _ => columns j base arm, legs⟩

/-- An honest proof always exists for as many arms as bases. It is accepted exactly when its challenge is
zero or every arm, the `delta` leg and `T` are right, so with a nonzero challenge one wrong column is
enough to reject it. -/
theorem verifyPoceColumn_prove_iff (lengths : bases.yCols.length = arms.yColsRho.length) (tI : G1)
    (rho sI : F) (context : PoceContext) (kRho kS : F) :
    ∃ proof, provePoceColumn suite bases arms tI rho sI context kRho kS = some proof ∧
      proof.challenge = computePoceChallenge suite (proof.input bases arms tI context) ∧
      (verifyPoceColumn suite bases arms tI proof context = true ↔
        proof.challenge = 0 ∨
          ((∀ j (base : j < bases.yCols.length) (arm : j < arms.yColsRho.length),
            arms.yColsRho[j] = rho • bases.yCols[j]) ∧
          arms.deltaRho = rho • bases.delta ∧ tI = sI • suite.generator)) ∧
      ∀ j (base : j < bases.yCols.length) (arm : j < arms.yColsRho.length), proof.challenge ≠ 0 →
        arms.yColsRho[j] ≠ rho • bases.yCols[j] →
          verifyPoceColumn suite bases arms tI proof context = false := by
  obtain ⟨proof, proved⟩ : ∃ proof,
      provePoceColumn suite bases arms tI rho sI context kRho kS = some proof :=
    ⟨_, if_neg (not_not.mpr lengths)⟩
  obtain ⟨guard, equations⟩ := provePoceColumn_equations proved
  have challenge := provePoceColumn_challenge proved
  have accepted : verifyPoceColumn suite bases arms tI proof context = true ↔
      proof.challenge = 0 ∨
        ((∀ j (base : j < bases.yCols.length) (arm : j < arms.yColsRho.length),
          arms.yColsRho[j] = rho • bases.yCols[j]) ∧
        arms.deltaRho = rho • bases.delta ∧ tI = sI • suite.generator) := by
    rw [← equations, verifyPoceColumn, guard, if_neg (by simp)]
    dsimp only
    rw [← challenge, if_neg (not_not.mpr rfl)]
  refine ⟨proof, proved, challenge, accepted, ?_⟩
  intro j base arm nonzero wrong
  rw [← Bool.not_eq_true, accepted, not_or]
  exact ⟨nonzero, fun right => wrong (right.1 j base arm)⟩

end Honest

theorem verifyPoceColumn_prove_iff_mixedRho :
    ∃ proof, provePoceColumn residueSuite
        { yCols := [6, 0, 2], delta := 1 } { yColsRho := [12, 0, 6], deltaRho := 2 } (5 : ZMod 13)
        (2 : ZMod 13) 5 { ctxHash := [3], gsDigest := [1], ctI := [7], tauI := [6] } 4 9 = some proof ∧
      proof.challenge ≠ 0 ∧ verifyPoceColumn residueSuite { yCols := [6, 0, 2], delta := 1 }
        { yColsRho := [12, 0, 6], deltaRho := 2 } (5 : ZMod 13) proof
        { ctxHash := [3], gsDigest := [1], ctI := [7], tauI := [6] } = false := by
  have lengths : ({ yCols := [6, 0, 2], delta := 1 } : ColumnBases (ZMod 13)).yCols.length =
      ({ yColsRho := [12, 0, 6], deltaRho := 2 } : ColumnArms (ZMod 13)).yColsRho.length := rfl
  obtain ⟨proof, proved, -, -, rejected⟩ := @verifyPoceColumn_prove_iff _ _ _ _ _ _ _ _ _ _ _ residueSuite _ _
    lengths (5 : ZMod 13) 2 5 { ctxHash := [3], gsDigest := [1], ctI := [7], tauI := [6] } 4 9
  have nonzero : proof.challenge ≠ 0 := by
    cases proved
    decide
  exact ⟨proof, proved, nonzero, rejected 2 (by decide) (by decide) nonzero (by decide)⟩

end Pvugc.OneSided
