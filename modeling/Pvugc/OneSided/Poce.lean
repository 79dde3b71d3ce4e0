import Pvugc.Groth16.PolynomialBackend
import Pvugc.OneSided.Arming

namespace Pvugc.OneSided
open Pvugc.Groth16

/-- Compressed serialization: distinct points have distinct bytes, and all points have one size. -/
structure Compression (G : Type) where
  compressedSize : ℕ
  serializeCompressed : G → List UInt8
  length_serializeCompressed : ∀ g, (serializeCompressed g).length = compressedSize
  serializeCompressed_injective : Function.Injective serializeCompressed

/-- The arguments of `compute_poce_challenge`. -/
@[ext]
structure PoceInput (G1 G2 : Type) where
  yBases : List G2
  deltaBase : G2
  yArms : List G2
  deltaArm : G2
  tI : G1
  commitments : List G2
  deltaCommitment : G2
  tCommitment : G1
  ctxHash : List UInt8
  gsDigest : List UInt8
  ctI : List UInt8
  tauI : List UInt8
  deriving DecidableEq

structure PoceColumnProof (F G1 G2 : Type) where
  commitments : List G2
  deltaCommitment : G2
  tCommitment : G1
  tResponse : F
  response : F
  challenge : F

/-- The bytes published with an armed share. -/
structure PoceContext where
  ctxHash : List UInt8
  gsDigest : List UInt8
  ctI : List UInt8
  tauI : List UInt8
  deriving DecidableEq

/-- The groups and functions that the proof of correct exponentiation is computed with. The digest is
SHA-256 of the transcript, read as a little-endian integer modulo the order. -/
structure PoceSuite (F G1 G2 : Type) where
  generator : G1
  g1 : Compression G1
  g2 : Compression G2
  digest : List UInt8 → F

structure ColumnArmingAttestation (F G1 G2 V : Type) where
  poce : PoceColumnProof F G1 G2
  ve : V

section Code

variable {F G1 G2 V : Type} [AddCommGroup G1] [AddCommGroup G2]
variable (suite : PoceSuite F G1 G2)

/-- The bytes that `compute_poce_challenge` feeds to the hash, in order. -/
def poceTranscript (input : PoceInput G1 G2) : List UInt8 :=
  input.yBases.flatMap suite.g2.serializeCompressed ++
  suite.g2.serializeCompressed input.deltaBase ++
  input.yArms.flatMap suite.g2.serializeCompressed ++
  suite.g2.serializeCompressed input.deltaArm ++
  suite.g1.serializeCompressed input.tI ++
  input.commitments.flatMap suite.g2.serializeCompressed ++
  suite.g2.serializeCompressed input.deltaCommitment ++
  suite.g1.serializeCompressed input.tCommitment ++
  input.ctxHash ++ input.gsDigest ++ input.ctI ++ input.tauI

def computePoceChallenge (input : PoceInput G1 G2) : F :=
  suite.digest (poceTranscript suite input)

/-- The challenge input of a proof about `bases` and `arms`. -/
def PoceColumnProof.input (bases : ColumnBases G2) (arms : ColumnArms G2) (tI : G1)
    (proof : PoceColumnProof F G1 G2) (context : PoceContext) : PoceInput G1 G2 where
  yBases := bases.yCols
  deltaBase := bases.delta
  yArms := arms.yColsRho
  deltaArm := arms.deltaRho
  tI := tI
  commitments := proof.commitments
  deltaCommitment := proof.deltaCommitment
  tCommitment := proof.tCommitment
  ctxHash := context.ctxHash
  gsDigest := context.gsDigest
  ctI := context.ctI
  tauI := context.tauI

variable [SMul F G1] [SMul F G2] [DecidableEq F] [DecidableEq G1] [DecidableEq G2]

/-- The equations of `verify_poce_column` for one challenge. -/
def poceEquations (generator : G1) (bases : ColumnBases G2) (arms : ColumnArms G2) (tI : G1)
    (proof : PoceColumnProof F G1 G2) (challenge : F) : Bool :=
  (((proof.commitments.zip bases.yCols).zip arms.yColsRho).all fun ((commitment, yBase), yArm) =>
    commitment + challenge • yArm = proof.response • yBase) &&
  decide (proof.deltaCommitment + challenge • arms.deltaRho = proof.response • bases.delta) &&
  decide (proof.tCommitment + challenge • tI = proof.tResponse • generator)

/-- The length guard of `verify_poce_column`. -/
def poceLengths (bases : ColumnBases G2) (arms : ColumnArms G2) (proof : PoceColumnProof F G1 G2) : Bool :=
  bases.yCols.length = arms.yColsRho.length && bases.yCols.length = proof.commitments.length

/-- `verify_poce_column`. -/
def verifyPoceColumn (bases : ColumnBases G2) (arms : ColumnArms G2) (tI : G1)
    (proof : PoceColumnProof F G1 G2) (context : PoceContext) : Bool :=
  if !poceLengths bases arms proof then false
  else
    let challenge := computePoceChallenge suite (proof.input bases arms tI context)
    if challenge ≠ proof.challenge then false
    else poceEquations suite.generator bases arms tI proof challenge

/-- `prove_poce_column` with its two nonces; it panics when the numbers of bases and arms differ. -/
def provePoceColumn [Add F] [Mul F] (bases : ColumnBases G2) (arms : ColumnArms G2) (tI : G1) (rho sI : F)
    (context : PoceContext) (kRho kS : F) : Option (PoceColumnProof F G1 G2) :=
  if bases.yCols.length ≠ arms.yColsRho.length then none
  else
    let commitments := bases.yCols.map (kRho • ·)
    let deltaCommitment := kRho • bases.delta
    let tCommitment := kS • suite.generator
    let challenge := computePoceChallenge suite {
      yBases := bases.yCols
      deltaBase := bases.delta
      yArms := arms.yColsRho
      deltaArm := arms.deltaRho
      tI := tI
      commitments := commitments
      deltaCommitment := deltaCommitment
      tCommitment := tCommitment
      ctxHash := context.ctxHash
      gsDigest := context.gsDigest
      ctI := context.ctI
      tauI := context.tauI }
    some {
      commitments := commitments
      deltaCommitment := deltaCommitment
      tCommitment := tCommitment
      tResponse := kS + challenge * sI
      response := kRho + challenge * rho
      challenge := challenge }

/-- The arms that `verify_column_arming` admits: an identity base keeps an identity arm, and every other
arm has the right order and is not the identity. -/
def admitsArms (modulus : ℕ) (bases : ColumnBases G2) (arms : ColumnArms G2) : Bool :=
  let isGoodG2 (g : G2) : Bool := g ≠ 0 && modulus • g = 0
  decide (bases.yCols.length = arms.yColsRho.length) &&
  ((bases.yCols.zip arms.yColsRho).all fun (yBase, dArm) =>
    if yBase = 0 then dArm = 0 else isGoodG2 dArm) &&
  arms.deltaRho ≠ 0 && isGoodG2 arms.deltaRho

/-- `verify_column_arming`; `verifyAdaptorVe` checks the encryption proof. -/
def verifyColumnArming (modulus : ℕ)
    (verifyAdaptorVe : V → List UInt8 → List UInt8 → List UInt8 → Bool)
    (bases : ColumnBases G2) (arms : ColumnArms G2) (tI : G1)
    (attestation : ColumnArmingAttestation F G1 G2 V) (adCore : List UInt8) (context : PoceContext)
    (skipVe : Bool) : Bool :=
  if !admitsArms modulus bases arms then false
  else if !verifyPoceColumn suite bases arms tI attestation.poce context then false
  else skipVe || verifyAdaptorVe attestation.ve adCore context.ctI context.tauI

end Code

section Soundness

variable {F G1 G2 : Type} [Field F] [AddCommGroup G1] [AddCommGroup G2] [Module F G1] [Module F G2]

/-- Two responses to one commitment give the discrete logarithm of the image. -/
theorem response_quotient {G : Type} [AddCommGroup G] [Module F G] {commitment image base : G}
    {c₁ c₂ z₁ z₂ : F} (challenges : c₁ ≠ c₂) (first : commitment + c₁ • image = z₁ • base)
    (second : commitment + c₂ • image = z₂ • base) : image = ((z₁ - z₂) / (c₁ - c₂)) • base := by
  have difference : (c₁ - c₂) • image = (z₁ - z₂) • base := by
    rw [sub_smul, sub_smul, ← first, ← second]
    abel
  rw [div_eq_inv_mul, mul_smul, ← difference, smul_smul, inv_mul_cancel₀ (sub_ne_zero.mpr challenges),
    one_smul]

variable [DecidableEq G1] [DecidableEq G2]
variable {bases : ColumnBases G2} {arms : ColumnArms G2} {tI : G1} {generator : G1}

/-- The equations hold for every column, for `delta` and for `T`. -/
theorem poceEquations_eq_true {proof : PoceColumnProof F G1 G2} {challenge : F}
    (lengths : poceLengths bases arms proof = true) :
    poceEquations generator bases arms tI proof challenge = true ↔
      (∀ j (base : j < bases.yCols.length) (arm : j < arms.yColsRho.length)
        (commitment : j < proof.commitments.length),
        proof.commitments[j] + challenge • arms.yColsRho[j] = proof.response • bases.yCols[j]) ∧
      proof.deltaCommitment + challenge • arms.deltaRho = proof.response • bases.delta ∧
      proof.tCommitment + challenge • tI = proof.tResponse • generator := by
  simp only [poceLengths, Bool.and_eq_true, decide_eq_true_eq] at lengths
  simp only [poceEquations, Bool.and_eq_true, decide_eq_true_eq, List.all_eq_true, and_assoc]
  refine and_congr_left fun _ => ?_
  constructor
  · intro columns j base arm commitment
    exact columns ((proof.commitments[j], bases.yCols[j]), arms.yColsRho[j]) (by
      rw [List.mem_iff_getElem]
      exact ⟨j, by simp only [List.length_zip]; omega, by simp only [List.getElem_zip]⟩)
  · intro columns column member
    obtain ⟨j, bound, rfl⟩ := List.mem_iff_getElem.mp member
    simp only [List.length_zip] at bound
    simp only [List.getElem_zip]
    exact columns j (by omega) (by omega) (by omega)

/-- Two accepted transcripts with one commitment and two challenges use one nonzero exponent in every
column, in the identity columns too, and in the `delta` leg. -/
theorem poce_special_soundness {modulus : ℕ} {first second : PoceColumnProof F G1 G2}
    (admitted : admitsArms modulus bases arms = true)
    (firstLengths : poceLengths bases arms first = true)
    (secondLengths : poceLengths bases arms second = true)
    (columns : first.commitments = second.commitments)
    (deltas : first.deltaCommitment = second.deltaCommitment)
    (ts : first.tCommitment = second.tCommitment)
    (challenges : first.challenge ≠ second.challenge)
    (firstAccepted : poceEquations generator bases arms tI first first.challenge = true)
    (secondAccepted : poceEquations generator bases arms tI second second.challenge = true) :
    (∃ rho : F, rho ≠ 0 ∧ arms = { yColsRho := bases.yCols.map (rho • ·), deltaRho := rho • bases.delta }) ∧
      ∃ s : F, tI = s • generator := by
  obtain ⟨firstColumns, firstDelta, firstT⟩ := (poceEquations_eq_true firstLengths).mp firstAccepted
  obtain ⟨secondColumns, secondDelta, secondT⟩ := (poceEquations_eq_true secondLengths).mp secondAccepted
  simp only [poceLengths, Bool.and_eq_true, decide_eq_true_eq] at firstLengths secondLengths
  rw [← deltas] at secondDelta
  rw [← ts] at secondT
  have delta := response_quotient challenges firstDelta secondDelta
  have nonzero : arms.deltaRho ≠ 0 := by
    simp only [admitsArms, Bool.and_eq_true, decide_eq_true_eq] at admitted
    exact admitted.1.2
  refine ⟨⟨_, ?_, ColumnArms.ext ?_ delta⟩, _, response_quotient challenges firstT secondT⟩
  · intro zero
    rw [zero, zero_smul] at delta
    exact nonzero delta
  · apply List.ext_getElem
    · rw [List.length_map, firstLengths.1]
    · intro j arm mapped
      have base : j < bases.yCols.length := by omega
      rw [List.getElem_map]
      refine response_quotient challenges (firstColumns j base arm (by omega)) ?_
      have second := secondColumns j base arm (by omega)
      simp only [← columns] at second
      exact second

theorem poce_special_soundness_identityColumn :
    (∃ rho : ZMod 13, rho ≠ 0 ∧
      ({ yColsRho := [12, 0], deltaRho := 2 } : ColumnArms (ZMod 13)) =
        { yColsRho := [6, 0].map (rho • ·), deltaRho := rho • 1 }) ∧
      ∃ s : ZMod 13, (5 : ZMod 13) = s • 1 := by
  let bases : ColumnBases (ZMod 13) := { yCols := [6, 0], delta := 1 }
  let arms : ColumnArms (ZMod 13) := { yColsRho := [12, 0], deltaRho := 2 }
  let transcript (challenge response tResponse : ZMod 13) : PoceColumnProof (ZMod 13) (ZMod 13) (ZMod 13) :=
    { commitments := [5, 0], deltaCommitment := 3, tCommitment := 4, tResponse, response, challenge }
  have admitted : admitsArms 13 bases arms = true := by decide
  let first := transcript 1 5 9
  let second := transcript 2 7 1
  have firstLengths : poceLengths bases arms first = true := by decide
  have secondLengths : poceLengths bases arms second = true := by decide
  have challenges : first.challenge ≠ second.challenge := by decide
  exact poce_special_soundness admitted firstLengths secondLengths rfl rfl rfl challenges (by decide)
    (by decide)

end Soundness

end Pvugc.OneSided
