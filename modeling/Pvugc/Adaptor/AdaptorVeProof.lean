import Pvugc.Adaptor.AdaptorVe
import Pvugc.Adaptor.Absorption
import Pvugc.Adaptor.ExtractT
import Pvugc.Groth16.LibsnarkReduction

namespace Pvugc.Adaptor
open Pvugc.Algebra Pvugc.OneSided Pvugc.Secp Pvugc.Groth16

section PublicInputs

/-- A field element takes 31 bytes. -/
def bytesToFieldElements (bytes : List UInt8) : List Fr := (chunks 31 bytes).map fun chunk => (leValue chunk : Fr)

/-- The limbs are those of the emulated field. -/
def pointToFieldElements (limbs : SecpFq → List Fr) (point : SecpAffine) : List Fr :=
  limbs (pointX point) ++ limbs (pointY point)

def assemblePublicInputs (limbs : SecpFq → List Fr) (hK adDigest : Digest) (ciphertext tau : List UInt8)
    (hM : Digest) (tPoint : SecpAffine) : List Fr :=
  bytesToFieldElements hK.toList ++ bytesToFieldElements adDigest.toList ++ bytesToFieldElements ciphertext ++
    bytesToFieldElements tau ++ bytesToFieldElements hM.toList ++ pointToFieldElements limbs tPoint

end PublicInputs

/-- The third-party code under the proofs: the synthesis of a statement gives an assignment of the constraint system
of the blank circuit, which the assignment satisfies exactly when the enforced constraints hold. -/
structure VeLibrary (T G1 G2 GT : Type) [AddCommGroup G1] [Module Fr G1] [AddCommGroup G2] [Module Fr G2]
    [AddCommGroup GT] [Module Fr GT] where
  sponge : PoseidonSponge Fr
  fromEncodedPoint : List UInt8 → Option SecpAffine
  deserializeCompressed : List UInt8 → Option T
  gtSerializedLen : ℕ
  limbs : SecpFq → List Fr
  backend : PolynomialBackend Fr
  pairing : Pairing Fr G1 G2 GT
  display : Groth16.SynthesisError → String
  matrices : ConstraintMatrices Fr
  synthesize : AdaptorVeCircuit secp256k1 → Except SynthesisFault (Assignment matrices)
  synthesize_ok : ∀ (key : List UInt8) (ciphertext adDigest tag hK hM : Digest) (tPoint : SecpAffine)
    (circuit : AdaptorVeCircuit secp256k1) (holds : Bool), key.length = gtSerializedLen →
      circuit = .new key ciphertext.toList adDigest tag hK hM gtSerializedLen 32 tPoint →
      (circuit.generateConstraints sponge).run true = .ok ((), holds) →
        ∃ z, synthesize circuit = .ok z ∧ (z.Satisfies ↔ holds = true) ∧
          z.publicInputs = assemblePublicInputs limbs hK adDigest ciphertext.toList tag.toList hM tPoint

structure AdaptorVeKeys (G1 G2 GT : Type) where
  provingKey : ProvingKey G1 G2
  preparedVk : PreparedVerifyingKey G1 G2 GT
  keyLen : ℕ
  ctLen : ℕ

structure AdaptorVeProof (G1 G2 : Type) where
  proof : Proof G1 G2
  hK : Digest
  hM : Digest

/-- The caller has checked the length. -/
def toArray32 (bytes : List UInt8) : Digest := Vector.ofFn fun i => bytes.getD i 0

section Code

variable {T G1 G2 GT : Type} [MonoidWithZero T] [DecidableEq T] [AddCommGroup G1] [Module Fr G1]
variable [AddCommGroup G2] [Module Fr G2] [AddCommGroup GT] [Module Fr GT] [DecidableEq GT]

/-- `validate_gt_element` on the target field with its multiplication. -/
def validateGtElement (deserializeCompressed : List UInt8 → Option T) (kBytes : List UInt8) : Except Fault Unit :=
  match deserializeCompressed kBytes with
  | none => throw (.error (.crypto "Invalid GT element: deserialization failed"))
  | some element => do
      if element = 0 then throw (.error (.crypto "GT element cannot be zero"))
      if element = 1 then throw (.error (.crypto "GT element cannot be identity"))
      if element ^ frPrime ≠ 1 then throw (.error (.crypto "GT element must be in the prime-order subgroup"))

variable (library : VeLibrary T G1 G2 GT)

/-- The initializer of `VE_KEYS`, whose seed determines the trapdoor and the generators; the keys are those of the default
reduction. -/
def veKeys (waste : Trapdoor Fr) (g1 : G1) (g2 : G2) :
    Except Groth16.SynthesisError (AdaptorVeKeys G1 G2 GT) := do
  let pk ← libsnarkReduction.generateParametersWithQap library.backend library.matrices waste g1 g2
  return {
    provingKey := pk
    preparedVk := prepareVerifyingKey library.pairing pk.vk
    keyLen := library.gtSerializedLen
    ctLen := 32 }

/-- `create_proof_with_reduction` on a circuit: a release build skips the assertion that the constraint system is
satisfied. -/
def createProofOfCircuit (pk : ProvingKey G1 G2) (r s : Fr) (circuit : AdaptorVeCircuit secp256k1) :
    Except Failure (Proof G1 G2) :=
  match library.synthesize circuit with
  | .error .unsatisfiable => .error (.synthesis .unsatisfiable)
  | .error .panic => .error .panic
  | .ok z => libsnarkReduction.createProofWithReduction library.backend pk r s z

/-- `prove_adaptor_ve` with the randomness that it draws. -/
def proveAdaptorVe (keys : AdaptorVeKeys G1 G2 GT) (r s : Fr) (kBytes adCore ciphertext tau plaintext : List UInt8) :
    Except Fault (AdaptorVeProof G1 G2) := do
  if kBytes.length ≠ keys.keyLen then throw (.error (.crypto "invalid key length for adaptor VE proof"))
  if ciphertext.length ≠ keys.ctLen ∨ plaintext.length ≠ keys.ctLen ∨ tau.length ≠ 32 then
    throw (.error (.crypto "invalid ciphertext or tag length for adaptor VE proof"))
  validateGtElement library.deserializeCompressed kBytes
  let adDigest := adCoreDigest library.sponge adCore
  let tPoint ← extractTFromAdCore library.fromEncodedPoint adCore
  let dem := DemP2.new library.sponge kBytes adCore
  let some encrypted := dem.encrypt library.sponge plaintext | throw .panic
  if encrypted ≠ ciphertext then
    throw (.error (.crypto "plaintext does not match ciphertext under provided key"))
  if (computeKeyCommitmentTag library.sponge kBytes adCore ciphertext).toList ≠ tau then
    throw (.error (.crypto "tag does not match ciphertext/key"))
  let hK := hashWithDomain library.sponge hkDomain kBytes
  let hM := hashWithDomain library.sponge hmDomain plaintext
  let circuit : AdaptorVeCircuit secp256k1 :=
    .new kBytes ciphertext adDigest (toArray32 tau) hK hM keys.keyLen keys.ctLen tPoint
  match createProofOfCircuit library keys.provingKey r s circuit with
  | .ok proof => return { proof := proof, hK := hK, hM := hM }
  | .error (.synthesis e) => throw (.error (.crypto s!"failed to prove adaptor VE: {library.display e}"))
  | .error .panic => throw .panic

/-- The parser of the associated data does not panic, so that every failure of it means `false`. -/
def verifyAdaptorVe (keys : AdaptorVeKeys G1 G2 GT) (proof : AdaptorVeProof G1 G2)
    (adCore ciphertext tau : List UInt8) : Bool :=
  if ciphertext.length ≠ keys.ctLen ∨ tau.length ≠ 32 then false
  else
    match extractTFromAdCore library.fromEncodedPoint adCore with
    | .error _ => false
    | .ok tPoint =>
        let adDigest := adCoreDigest library.sponge adCore
        let publicInputs := assemblePublicInputs library.limbs proof.hK adDigest ciphertext tau proof.hM tPoint
        match prepareInputs keys.preparedVk.vk publicInputs with
        | .error _ => false
        | .ok preparedInputs =>
            verifyProofWithPreparedInputs library.pairing keys.preparedVk proof.proof preparedInputs

/-- The checks of the prover before the circuit. -/
structure NativeChecks (kBytes adCore ciphertext tau plaintext : List UInt8) (tPoint : SecpAffine) : Prop where
  keyLength : kBytes.length = library.gtSerializedLen
  ciphertextLength : ciphertext.length = 32
  plaintextLength : plaintext.length = 32
  tauLength : tau.length = 32
  element : validateGtElement library.deserializeCompressed kBytes = .ok ()
  located : extractTFromAdCore library.fromEncodedPoint adCore = .ok tPoint
  encrypted : (DemP2.new library.sponge kBytes adCore).encrypt library.sponge plaintext = some ciphertext
  tagged : (computeKeyCommitmentTag library.sponge kBytes adCore ciphertext).toList = tau

/-- The circuit that the prover builds. -/
def statementCircuit (kBytes adCore ciphertext tau plaintext : List UInt8) (tPoint : SecpAffine) :
    AdaptorVeCircuit secp256k1 :=
  .new kBytes ciphertext (adCoreDigest library.sponge adCore) (toArray32 tau)
    (hashWithDomain library.sponge hkDomain kBytes) (hashWithDomain library.sponge hmDomain plaintext)
    library.gtSerializedLen 32 tPoint

/-- The key is a witness for the point of the associated data. -/
def HasWitness (kBytes adCore ciphertext tau plaintext : List UInt8) : Prop :=
  ∃ tPoint, extractTFromAdCore library.fromEncodedPoint adCore = .ok tPoint ∧
    Satisfied ((statementCircuit library kBytes adCore ciphertext tau plaintext tPoint).generateConstraints
      library.sponge)

end Code

section Prover

variable {T G1 G2 GT : Type} [MonoidWithZero T] [DecidableEq T] [AddCommGroup G1] [Module Fr G1]
variable [AddCommGroup G2] [Module Fr G2] [AddCommGroup GT] [Module Fr GT] [DecidableEq GT]
variable {library : VeLibrary T G1 G2 GT} {keys : AdaptorVeKeys G1 G2 GT}
variable {kBytes adCore ciphertext tau plaintext : List UInt8} {tPoint : SecpAffine}

theorem toArray32_toList {bytes : List UInt8} (length : bytes.length = 32) : (toArray32 bytes).toList = bytes := by
  apply List.ext_getElem
  · rw [Vector.length_toList, length]
  · intro i _ inside
    simp [toArray32, inside]

theorem validateGtElement_cases (deserializeCompressed : List UInt8 → Option T) (kBytes : List UInt8) :
    (∃ error, validateGtElement deserializeCompressed kBytes = .error (.error error)) ∨
      validateGtElement deserializeCompressed kBytes = .ok () := by
  rw [validateGtElement]
  split
  case h_1 => exact .inl ⟨_, rfl⟩
  case h_2 element _ =>
    by_cases zero : element = 0
    · rw [if_pos zero]
      exact .inl ⟨_, rfl⟩
    by_cases identity : element = 1
    · rw [if_neg zero, if_pos identity]
      exact .inl ⟨_, rfl⟩
    by_cases outside : element ^ frPrime ≠ 1
    · rw [if_neg zero, if_neg identity, if_pos outside]
      exact .inl ⟨_, rfl⟩
    · rw [if_neg zero, if_neg identity, if_neg outside]
      exact .inr rfl

/-- The cipher undoes itself. -/
theorem decrypt_of_encrypt {F : Type} [Field F] {sponge : PoseidonSponge F} {dem : DemP2}
    {plaintext ciphertext : List UInt8} (encrypted : dem.encrypt sponge plaintext = some ciphertext) :
    dem.decrypt sponge ciphertext = some plaintext := by
  simp only [DemP2.encrypt, DemP2.deriveKeystream_eq, Option.bind_eq_bind, Option.bind_some, Option.pure_def,
    Option.some.injEq] at encrypted
  have block := sponge.squeezeBytes_length
    (absorbAll sponge [demKeystreamDomain, dem.key, dem.adDigest.toList, toLeBytes 4 0]) plaintext.length
  have length : ciphertext.length = plaintext.length := by
    rw [← encrypted, List.length_zipWith, block, min_self]
  simp only [DemP2.decrypt, DemP2.encrypt, DemP2.deriveKeystream_eq, length, Option.bind_eq_bind, Option.bind_some,
    Option.pure_def, Option.some.injEq]
  rw [← encrypted]
  apply List.ext_getElem
  · simp [block]
  · intro i _ inside
    simp only [List.getElem_zipWith, UInt8.xor_assoc, UInt8.xor_self, UInt8.xor_zero]

omit [DecidableEq GT] in
/-- On checked inputs the constraints hold exactly when the point is the point of the plaintext. -/
theorem NativeChecks.run (checks : NativeChecks library kBytes adCore ciphertext tau plaintext tPoint) :
    ((statementCircuit library kBytes adCore ciphertext tau plaintext tPoint).generateConstraints
        library.sponge).run true =
      .ok ((), decide (tPoint = scalarBytesToPoint secpGenerator (toArray32 plaintext))) := by
  have ct := toArray32_toList checks.ciphertextLength
  have nonzero : tPoint ≠ 0 := by
    obtain ⟨ad, -, -, -, decoded⟩ := extractTFromAdCore_eq_ok_iff.mp checks.located
    rw [decompressSecpPoint] at decoded
    split at decoded
    case h_1 => cases decoded
    case h_2 =>
      split at decoded
      case isTrue => cases decoded
      case isFalse finite =>
        cases decoded
        exact finite
  have decrypted : plaintextOf library.sponge kBytes (adCoreDigest library.sponge adCore) (toArray32 ciphertext) =
      toArray32 plaintext := by
    have undone := decrypt_of_encrypt checks.encrypted
    rw [← ct] at undone
    have plain := Option.some.inj ((decrypt_eq library.sponge kBytes _ _).symm.trans undone)
    rw [← Vector.toList_inj, plain, toArray32_toList checks.plaintextLength]
  have tag : keyCommitmentTag library.sponge kBytes (adCoreDigest library.sponge adCore) ciphertext =
      toArray32 tau := by
    rw [← Vector.toList_inj, toArray32_toList checks.tauLength, ← checks.tagged]
    rfl
  have run := generateConstraints_run library.sponge secp256k1 kBytes (toArray32 ciphertext)
    (adCoreDigest library.sponge adCore) (toArray32 tau) (hashWithDomain library.sponge hkDomain kBytes)
    (hashWithDomain library.sponge hmDomain plaintext) tPoint true
  rw [decrypted, ct, tag, toArray32_toList checks.plaintextLength, checks.keyLength] at run
  refine (run.trans (if_neg nonzero)).trans ?_
  simp only [decide_true, Bool.true_and]
  rfl

omit [DecidableEq GT] in
/-- Checked inputs reach the prover of the circuit. -/
theorem NativeChecks.prove (checks : NativeChecks library kBytes adCore ciphertext tau plaintext tPoint)
    (keyLen : keys.keyLen = library.gtSerializedLen) (ctLen : keys.ctLen = 32) {r s : Fr} {proof : Proof G1 G2}
    (created : createProofOfCircuit library keys.provingKey r s
      (statementCircuit library kBytes adCore ciphertext tau plaintext tPoint) = .ok proof) :
    proveAdaptorVe library keys r s kBytes adCore ciphertext tau plaintext = .ok {
      proof := proof
      hK := hashWithDomain library.sponge hkDomain kBytes
      hM := hashWithDomain library.sponge hmDomain plaintext } := by
  rw [statementCircuit] at created
  simp only [proveAdaptorVe, keyLen, ctLen, checks.keyLength, checks.ciphertextLength, checks.plaintextLength,
    checks.tauLength, checks.element, checks.located, checks.encrypted, checks.tagged, ne_eq, not_true_eq_false,
    or_self, if_false, bind, Except.bind, created]
  rfl

omit [DecidableEq GT] in
/-- The prover ends with an error on every input that fails a check. -/
theorem proveAdaptorVe_of_unchecked (keyLen : keys.keyLen = library.gtSerializedLen) (ctLen : keys.ctLen = 32)
    (unchecked : ∀ tPoint, ¬ NativeChecks library kBytes adCore ciphertext tau plaintext tPoint) (r s : Fr) :
    ∃ error, proveAdaptorVe library keys r s kBytes adCore ciphertext tau plaintext = .error (.error error) := by
  by_cases key : kBytes.length ≠ library.gtSerializedLen
  · exact ⟨_, by
      rw [proveAdaptorVe, keyLen, if_pos key]
      rfl⟩
  by_cases lengths : ciphertext.length ≠ 32 ∨ plaintext.length ≠ 32 ∨ tau.length ≠ 32
  · exact ⟨_, by
      rw [proveAdaptorVe, keyLen, ctLen, if_neg key, if_pos lengths]
      rfl⟩
  rcases validateGtElement_cases library.deserializeCompressed kBytes with ⟨error, invalid⟩ | element
  · exact ⟨error, by
      simp only [proveAdaptorVe, keyLen, ctLen, key, lengths, invalid, if_false, bind, Except.bind]⟩
  rcases (extractTFromAdCore_cases library.fromEncodedPoint adCore).symm with
    ⟨error, malformed⟩ | ⟨tPoint, located⟩
  · exact ⟨error, by
      simp only [proveAdaptorVe, keyLen, ctLen, key, lengths, element, malformed, if_false, bind, Except.bind]⟩
  obtain ⟨encrypted, cipher⟩ :
      ∃ encrypted, (DemP2.new library.sponge kBytes adCore).encrypt library.sponge plaintext = some encrypted :=
    ⟨_, by
      rw [DemP2.encrypt, DemP2.deriveKeystream_eq]
      rfl⟩
  by_cases different : encrypted ≠ ciphertext
  · exact ⟨_, by
      simp only [proveAdaptorVe, keyLen, ctLen, key, lengths, element, located, cipher, if_pos different, if_false,
        bind, Except.bind]
      rfl⟩
  obtain rfl := not_not.mp different
  have mismatch : (computeKeyCommitmentTag library.sponge kBytes adCore encrypted).toList ≠ tau := by
    intro tagged
    simp only [ne_eq, not_or, not_not] at key lengths
    exact unchecked tPoint ⟨key, lengths.1, lengths.2.1, lengths.2.2, element, located, cipher, tagged⟩
  exact ⟨_, by
    simp only [proveAdaptorVe, keyLen, ctLen, key, lengths, element, located, cipher, different, if_pos mismatch,
      if_false, bind, Except.bind]
    rfl⟩

/-- A statement of checked inputs verifies as its Groth16 proof does. -/
theorem NativeChecks.verify (checks : NativeChecks library kBytes adCore ciphertext tau plaintext tPoint)
    (ctLen : keys.ctLen = 32) (proof : Proof G1 G2) :
    verifyAdaptorVe library keys {
        proof := proof
        hK := hashWithDomain library.sponge hkDomain kBytes
        hM := hashWithDomain library.sponge hmDomain plaintext } adCore ciphertext tau = true ↔
      verifyProof library.pairing keys.preparedVk proof (assemblePublicInputs library.limbs
        (hashWithDomain library.sponge hkDomain kBytes) (adCoreDigest library.sponge adCore) ciphertext tau
        (hashWithDomain library.sponge hmDomain plaintext) tPoint) = .ok true := by
  simp only [verifyAdaptorVe, verifyProof, ctLen, checks.ciphertextLength, checks.tauLength, checks.located, ne_eq,
    not_true_eq_false, or_self, if_false]
  split
  case h_1 failed => simp [failed]
  case h_2 prepared => simp [prepared]

omit [MonoidWithZero T] [DecidableEq T] [DecidableEq GT] in
theorem veKeys_eq_ok {waste : Trapdoor Fr} {g1 : G1} {g2 : G2} (generated : veKeys library waste g1 g2 = .ok keys) :
    waste.gamma ≠ 0 ∧ waste.delta ≠ 0 ∧ ∃ domain,
      library.backend.newDomain library.matrices.qapDomainSize = some domain ∧
        keys = ⟨waste.provingKey domain library.matrices.withCopies g1 g2, prepareVerifyingKey library.pairing
          (waste.provingKey domain library.matrices.withCopies g1 g2).vk, library.gtSerializedLen, 32⟩ := by
  cases made : libsnarkReduction.generateParametersWithQap library.backend library.matrices waste g1 g2 with
  | error failure =>
      rw [veKeys, made] at generated
      cases generated
  | ok pk =>
      obtain ⟨gamma, delta, domain, created, rfl⟩ := libsnarkParameters_eq_ok.mp made
      rw [veKeys, made] at generated
      cases generated
      exact ⟨gamma, delta, domain, created, rfl⟩

omit [MonoidWithZero T] [DecidableEq T] [DecidableEq GT] in
theorem veKeys_lengths {waste : Trapdoor Fr} {g1 : G1} {g2 : G2} (generated : veKeys library waste g1 g2 = .ok keys) :
    keys.keyLen = library.gtSerializedLen ∧ keys.ctLen = 32 := by
  obtain ⟨-, -, domain, -, rfl⟩ := veKeys_eq_ok generated
  exact ⟨rfl, rfl⟩

omit [DecidableEq GT] in
/-- Checked inputs are synthesized to an assignment that satisfies its system exactly for the point of the plaintext. -/
theorem NativeChecks.synthesized (checks : NativeChecks library kBytes adCore ciphertext tau plaintext tPoint) :
    ∃ z, library.synthesize (statementCircuit library kBytes adCore ciphertext tau plaintext tPoint) = .ok z ∧
      (z.Satisfies ↔ tPoint = scalarBytesToPoint secpGenerator (toArray32 plaintext)) ∧
      z.publicInputs = assemblePublicInputs library.limbs (hashWithDomain library.sponge hkDomain kBytes)
        (adCoreDigest library.sponge adCore) ciphertext tau (hashWithDomain library.sponge hmDomain plaintext)
        tPoint := by
  have ct := toArray32_toList checks.ciphertextLength
  obtain ⟨z, synthesized, satisfies, inputs⟩ := library.synthesize_ok kBytes (toArray32 ciphertext)
    (adCoreDigest library.sponge adCore) (toArray32 tau) (hashWithDomain library.sponge hkDomain kBytes)
    (hashWithDomain library.sponge hmDomain plaintext) tPoint _ _ checks.keyLength (by rw [ct]; rfl) checks.run
  rw [ct, toArray32_toList checks.tauLength] at inputs
  exact ⟨z, synthesized, satisfies.trans decide_eq_true_iff, inputs⟩

/-- Checked inputs give a proof under every generated key. It verifies for the point of the plaintext; for another point
it verifies under few keys. -/
theorem NativeChecks.outcome (checks : NativeChecks library kBytes adCore ciphertext tau plaintext tPoint)
    {domain : EvaluationDomain Fr}
    (created : library.backend.newDomain library.matrices.qapDomainSize = some domain) {g1 : G1} {g2 : G2}
    (nondegenerate : library.pairing.pairing g1 g2 ≠ 0) :
    ∃ exceptional : Finset Fr, exceptional.card ≤ 2 * domain.size ∧
      ∀ waste keys, veKeys library waste g1 g2 = .ok keys → ∀ r s, ∃ proof,
        proveAdaptorVe library keys r s kBytes adCore ciphertext tau plaintext = .ok proof ∧
        (verifyAdaptorVe library keys proof adCore ciphertext tau = true ↔
          tPoint = scalarBytesToPoint secpGenerator (toArray32 plaintext) ∨ waste.tau ∈ exceptional) := by
  obtain ⟨z, synthesized, satisfies, inputs⟩ := checks.synthesized
  obtain ⟨h, returned, length, zero⟩ := libsnarkWitnessMap_defect created z
  refine ⟨z.withCopies.exceptionalPoints domain h, z.withCopies.exceptionalPoints_card_le h, ?_⟩
  intro waste keys generated r s
  obtain ⟨gamma, delta, other, located, rfl⟩ := veKeys_eq_ok generated
  obtain rfl : domain = other := Option.some.inj (created.symm.trans located)
  obtain ⟨proof, proved, accepted⟩ :=
    libsnarkProof_accepted_iff z returned length library.pairing nondegenerate gamma delta r s
  have ofCircuit : createProofOfCircuit library (waste.provingKey domain library.matrices.withCopies g1 g2) r s
      (statementCircuit library kBytes adCore ciphertext tau plaintext tPoint) = .ok proof := by
    rw [createProofOfCircuit, synthesized]
    exact proved
  refine ⟨_, checks.prove rfl rfl ofCircuit, ?_⟩
  rw [checks.verify rfl, ← inputs, ← verify_eq_verifyProof, accepted, z.withCopies.eval_defect_eq_zero_iff, zero,
    satisfies]

omit [DecidableEq GT] in
/-- The key of checked inputs is a witness exactly for the point of the plaintext. -/
theorem NativeChecks.hasWitness_iff (checks : NativeChecks library kBytes adCore ciphertext tau plaintext tPoint) :
    HasWitness library kBytes adCore ciphertext tau plaintext ↔
      tPoint = scalarBytesToPoint secpGenerator (toArray32 plaintext) := by
  have satisfied : Satisfied ((statementCircuit library kBytes adCore ciphertext tau plaintext
      tPoint).generateConstraints library.sponge) ↔
        tPoint = scalarBytesToPoint secpGenerator (toArray32 plaintext) := by
    rw [Satisfied, checks.run, Except.ok.injEq, Prod.mk.injEq, decide_eq_true_iff, and_iff_right rfl]
  rw [← satisfied]
  constructor
  · intro witnessed
    obtain ⟨point, located, holds⟩ := witnessed
    obtain rfl : tPoint = point := Except.ok.inj (checks.located.symm.trans located)
    exact holds
  · intro holds
    exact ⟨tPoint, checks.located, holds⟩

omit [DecidableEq GT] in
/-- Inputs that pass the checks are those that give a proof. -/
theorem exists_checks {waste : Trapdoor Fr} {g1 : G1} {g2 : G2} (generated : veKeys library waste g1 g2 = .ok keys)
    {r s : Fr} {proof : AdaptorVeProof G1 G2}
    (proved : proveAdaptorVe library keys r s kBytes adCore ciphertext tau plaintext = .ok proof) :
    ∃ tPoint, NativeChecks library kBytes adCore ciphertext tau plaintext tPoint := by
  obtain ⟨keyLen, ctLen⟩ := veKeys_lengths generated
  by_contra unchecked
  obtain ⟨error, failed⟩ := proveAdaptorVe_of_unchecked keyLen ctLen (not_exists.mp unchecked) r s
  rw [failed] at proved
  cases proved

/-- The keys that accept a proof of some inputs for a wrong point are few, whatever the point is. -/
theorem exists_exceptional (library : VeLibrary T G1 G2 GT) {g1 : G1} {g2 : G2}
    (nondegenerate : library.pairing.pairing g1 g2 ≠ 0) (kBytes adCore ciphertext tau plaintext : List UInt8) :
    ∃ exceptional : Finset Fr,
      (∀ domain, library.backend.newDomain library.matrices.qapDomainSize = some domain →
        exceptional.card ≤ 2 * domain.size) ∧
      ∀ tPoint, NativeChecks library kBytes adCore ciphertext tau plaintext tPoint →
        ∀ waste keys, veKeys library waste g1 g2 = .ok keys → ∀ r s, ∃ proof,
          proveAdaptorVe library keys r s kBytes adCore ciphertext tau plaintext = .ok proof ∧
          (verifyAdaptorVe library keys proof adCore ciphertext tau = true ↔
            tPoint = scalarBytesToPoint secpGenerator (toArray32 plaintext) ∨ waste.tau ∈ exceptional) := by
  cases created : library.backend.newDomain library.matrices.qapDomainSize with
  | none =>
      refine ⟨∅, fun domain impossible => (by cases impossible), ?_⟩
      intro tPoint checks waste keys generated
      obtain ⟨-, -, domain, located, -⟩ := veKeys_eq_ok generated
      rw [created] at located
      cases located
  | some domain =>
      by_cases passed : ∃ tPoint, NativeChecks library kBytes adCore ciphertext tau plaintext tPoint
      · obtain ⟨tPoint, checks⟩ := passed
        obtain ⟨exceptional, few, outcome⟩ := checks.outcome created nondegenerate
        refine ⟨exceptional, fun other same => Option.some.inj same ▸ few, ?_⟩
        intro point own
        obtain rfl : tPoint = point := Except.ok.inj (checks.located.symm.trans own.located)
        exact outcome
      · exact ⟨∅, fun _ _ => Nat.zero_le _, fun tPoint checks => absurd ⟨tPoint, checks⟩ passed⟩

/-- The prover keeps its promise exactly on the inputs whose point it would have to compare with the plaintext: when
they pass its checks, the point of the associated data is the point of the plaintext. But for few evaluation points of
the key, its proofs alone are valid exactly then. -/
theorem proveAdaptorVe_valid_iff (library : VeLibrary T G1 G2 GT) {g1 : G1} {g2 : G2}
    (nondegenerate : library.pairing.pairing g1 g2 ≠ 0) (kBytes adCore ciphertext tau plaintext : List UInt8) :
    ∃ exceptional : Finset Fr,
      (∀ domain, library.backend.newDomain library.matrices.qapDomainSize = some domain →
        exceptional.card ≤ 2 * domain.size) ∧
      ∀ waste keys, veKeys library waste g1 g2 = .ok keys →
        (((∀ r s proof, proveAdaptorVe library keys r s kBytes adCore ciphertext tau plaintext = .ok proof →
              verifyAdaptorVe library keys proof adCore ciphertext tau = true) ∧
            (¬ HasWitness library kBytes adCore ciphertext tau plaintext → ∀ r s, ∃ error,
              proveAdaptorVe library keys r s kBytes adCore ciphertext tau plaintext = .error (.error error))) ↔
          ∀ tPoint, NativeChecks library kBytes adCore ciphertext tau plaintext tPoint →
            tPoint = scalarBytesToPoint secpGenerator (toArray32 plaintext)) ∧
        (waste.tau ∉ exceptional →
          ((∀ r s proof, proveAdaptorVe library keys r s kBytes adCore ciphertext tau plaintext = .ok proof →
              verifyAdaptorVe library keys proof adCore ciphertext tau = true) ↔
            ∀ tPoint, NativeChecks library kBytes adCore ciphertext tau plaintext tPoint →
              tPoint = scalarBytesToPoint secpGenerator (toArray32 plaintext))) := by
  obtain ⟨exceptional, few, outcome⟩ :=
    exists_exceptional library nondegenerate kBytes adCore ciphertext tau plaintext
  refine ⟨exceptional, few, ?_⟩
  intro waste keys generated
  have accepts (points : ∀ tPoint, NativeChecks library kBytes adCore ciphertext tau plaintext tPoint →
      tPoint = scalarBytesToPoint secpGenerator (toArray32 plaintext)) (r s : Fr) (proof : AdaptorVeProof G1 G2)
      (proved : proveAdaptorVe library keys r s kBytes adCore ciphertext tau plaintext = .ok proof) :
      verifyAdaptorVe library keys proof adCore ciphertext tau = true := by
    obtain ⟨tPoint, checks⟩ := exists_checks generated proved
    obtain ⟨own, ownProved, verified⟩ := outcome tPoint checks waste keys generated r s
    obtain rfl : own = proof := Except.ok.inj (ownProved.symm.trans proved)
    exact verified.mpr (Or.inl (points tPoint checks))
  refine ⟨⟨?_, ?_⟩, fun outside => ⟨?_, accepts⟩⟩
  · intro promise tPoint checks
    by_contra different
    obtain ⟨proof, proved, -⟩ := outcome tPoint checks waste keys generated 0 0
    obtain ⟨error, failed⟩ := promise.2 (checks.hasWitness_iff.not.mpr different) 0 0
    rw [failed] at proved
    cases proved
  · intro points
    refine ⟨accepts points, fun witnessless r s => ?_⟩
    obtain ⟨keyLen, ctLen⟩ := veKeys_lengths generated
    apply proveAdaptorVe_of_unchecked keyLen ctLen
    intro tPoint checks
    exact witnessless (checks.hasWitness_iff.mpr (points tPoint checks))
  · intro accepted tPoint checks
    obtain ⟨proof, proved, verified⟩ := outcome tPoint checks waste keys generated 0 0
    exact (verified.mp (accepted 0 0 proof proved)).resolve_right outside

end Prover

section Sample

open Finset

/-- A sixteenth root of unity generates the domain. -/
def sixteenthRoots : EvaluationDomain Fr where
  size := 16
  groupGen := 0x20b1ce9140267af9dd1c0af834cec32c17beb312f20b6f7653ea61d87742bcce
  positive := by decide
  fitsWord := by decide
  primitive := by
    rw [IsPrimitiveRoot.iff_orderOf]
    exact orderOf_eq_prime_pow (p := 2) (n := 3) (by decide) (by decide)

def sixteenthRootsUpTo (k : ℕ) : Option (EvaluationDomain Fr) := if k ≤ 16 then some sixteenthRoots else none

theorem sixteenthRootsUpTo_eq {k : ℕ} {domain : EvaluationDomain Fr} (created : sixteenthRootsUpTo k = some domain) :
    k ≤ 16 ∧ domain = sixteenthRoots := by
  rw [sixteenthRootsUpTo] at created
  split at created
  case isTrue fits => exact ⟨fits, (Option.some.inj created).symm⟩
  case isFalse => cases created

def sixteenthBackend : PolynomialBackend Fr :=
  directBackend sixteenthRootsUpTo 7
    (by
      intro k domain created
      obtain ⟨fits, rfl⟩ := sixteenthRootsUpTo_eq created
      exact fits)
    (by decide)
    (by
      intro k domain created
      obtain ⟨-, rfl⟩ := sixteenthRootsUpTo_eq created
      decide)

/-- One row over ten public inputs: the witness is one. -/
def flagSystem : ConstraintMatrices Fr where
  numInstanceVariables := 11
  numWitnessVariables := 1
  numConstraints := 1
  a := [[(1, 11)]]
  b := [[(1, 0)]]
  c := [[(1, 0)]]
  instancePositive := by decide
  aLength := rfl
  bLength := rfl
  cLength := rfl
  aColumns := by simp
  bColumns := by simp
  cColumns := by simp

def flagAssignment (inputs : List Fr) (holds : Bool) : Assignment flagSystem where
  instanceAssignment := 1 :: tabulate 10 (inputs.getD · 0)
  witnessAssignment := [if holds then 1 else 0]
  instanceLength := by simp [flagSystem]
  witnessLength := rfl
  constantOne := rfl

theorem flagAssignment_value (inputs : List Fr) (holds : Bool) :
    (flagAssignment inputs holds).value 11 = if holds then 1 else 0 := by
  have witness := (flagAssignment inputs holds).value_witness 0
  exact witness.symm

theorem flagAssignment_satisfies_iff (inputs : List Fr) (holds : Bool) :
    (flagAssignment inputs holds).Satisfies ↔ holds = true := by
  have values (column : ℕ) : evaluateConstraint [(1, column)] (flagAssignment inputs holds).fullAssignment =
      (flagAssignment inputs holds).value column := by
    simp [evaluateConstraint, Assignment.value]
  have single : (flagAssignment inputs holds).Satisfies ↔
      (flagAssignment inputs holds).value 11 * (flagAssignment inputs holds).value 0 =
        (flagAssignment inputs holds).value 0 := by
    rw [← values, ← values]
    constructor
    · intro satisfied
      exact satisfied 0 (by decide)
    · intro holds i inside
      obtain rfl : i = 0 := Nat.lt_one_iff.mp inside
      exact holds
  rw [single, flagAssignment_value, Assignment.value_zero]
  cases holds <;> simp

/-- A sponge that squeezes zeros. -/
def silentSponge : PoseidonSponge Fr where
  State := Unit
  new := ()
  absorb _ _ := ()
  squeezeBytes _ count := List.replicate count 0
  squeezeBytes_length _ _ := List.length_replicate

/-- The values of the input variables, without limbs. -/
def flagInputs (circuit : AdaptorVeCircuit secp256k1) : List Fr :=
  assemblePublicInputs (fun _ => []) (circuit.hK.getD zeroDigest) (circuit.adDigest.getD zeroDigest)
    (circuit.ciphertext.getD []) (circuit.tag.getD zeroDigest).toList (circuit.hM.getD zeroDigest) circuit.tPoint

def flagSynthesis (circuit : AdaptorVeCircuit secp256k1) : Except SynthesisFault (Assignment flagSystem) :=
  (fun result => flagAssignment (flagInputs circuit) result.2) <$>
    (circuit.generateConstraints silentSponge).run true

theorem flagSynthesis_of_run {circuit : AdaptorVeCircuit secp256k1} {holds : Bool}
    (run : (circuit.generateConstraints silentSponge).run true = .ok ((), holds)) :
    flagSynthesis circuit = .ok (flagAssignment (flagInputs circuit) holds) := by
  rw [flagSynthesis, run]
  rfl

/-- The target group is a cyclic group of the prime order with a zero, and every point decodes to the given one. -/
def sampleLibrary (point : SecpAffine) : VeLibrary (WithZero (Multiplicative Fr)) Fr Fr Fr where
  sponge := silentSponge
  fromEncodedPoint _ := some point
  deserializeCompressed _ := some (Multiplicative.ofAdd (1 : Fr) : Multiplicative Fr)
  gtSerializedLen := 576
  limbs _ := []
  backend := sixteenthBackend
  pairing := mulPairing Fr frPrime
  display _ := "synthesis error"
  matrices := flagSystem
  synthesize := flagSynthesis
  synthesize_ok := by
    intro key ciphertext adDigest tag hK hM tPoint circuit holds length same run
    have inputs : flagInputs circuit =
        assemblePublicInputs (fun _ => []) hK adDigest ciphertext.toList tag.toList hM tPoint := by
      rw [same]
      rfl
    have words (digest : Digest) : (bytesToFieldElements digest.toList).length = 2 := by
      simp [bytesToFieldElements, chunks]
    have count : (flagInputs circuit).length = 10 := by
      simp [inputs, assemblePublicInputs, pointToFieldElements, words]
    refine ⟨flagAssignment (flagInputs circuit) holds, flagSynthesis_of_run run,
      flagAssignment_satisfies_iff _ _, ?_⟩
    rw [← inputs]
    conv_rhs => rw [← tabulate_of_list (flagInputs circuit) 0, count]
    rfl

theorem samplePairing_ne_zero (point : SecpAffine) : (sampleLibrary point).pairing.pairing 1 1 ≠ 0 := by
  change (1 : Fr) * 1 ≠ 0
  decide

/-- Toxic waste for an evaluation point. -/
def wasteAt (tau : Fr) : Trapdoor Fr := { alpha := 2, beta := 3, gamma := 6, delta := 5, tau := tau }

theorem veKeys_sample (point : SecpAffine) (tau : Fr) :
    ∃ keys, veKeys (sampleLibrary point) (wasteAt tau) 1 1 = .ok keys := by
  have made : libsnarkReduction.generateParametersWithQap sixteenthBackend flagSystem (wasteAt tau) (1 : Fr) (1 : Fr) =
      .ok ((wasteAt tau).provingKey sixteenthRoots flagSystem.withCopies 1 1) := by
    have gamma : (6 : Fr) ≠ 0 := by decide
    have delta : (5 : Fr) ≠ 0 := by decide
    exact libsnarkParameters_eq_ok.mpr ⟨gamma, delta, sixteenthRoots, rfl, rfl⟩
  exact ⟨_, by
    rw [veKeys, show (sampleLibrary point).backend = sixteenthBackend from rfl,
      show (sampleLibrary point).matrices = flagSystem from rfl, made]
    rfl⟩

/-- The plaintext two passes every check whatever the point of the associated data is. -/
theorem nativeChecks_sample {point : SecpAffine} (finite : point ≠ 0) :
    NativeChecks (sampleLibrary point) (List.replicate 576 1) (pathAdCore 0xc0 "compute").serialize
      (smallScalar 2).toList zeroDigest.toList (smallScalar 2).toList point where
  keyLength := List.length_replicate
  ciphertextLength := rfl
  plaintextLength := rfl
  tauLength := rfl
  element := by
    have zero : ((Multiplicative.ofAdd (1 : Fr) : Multiplicative Fr) : WithZero (Multiplicative Fr)) ≠ 0 :=
      WithZero.coe_ne_zero
    have identity : ((Multiplicative.ofAdd (1 : Fr) : Multiplicative Fr) : WithZero (Multiplicative Fr)) ≠ 1 := by
      rw [← WithZero.coe_one, ne_eq, WithZero.coe_inj, ofAdd_eq_one]
      decide
    have order :
        ((Multiplicative.ofAdd (1 : Fr) : Multiplicative Fr) : WithZero (Multiplicative Fr)) ^ frPrime = 1 := by
      rw [← WithZero.coe_pow, ← ofAdd_nsmul, nsmul_one, ZMod.natCast_self, ofAdd_zero, WithZero.coe_one]
    rw [validateGtElement, show (sampleLibrary point).deserializeCompressed (List.replicate 576 1) =
      some ((Multiplicative.ofAdd (1 : Fr) : Multiplicative Fr) : WithZero (Multiplicative Fr)) from rfl]
    simp only [if_neg zero, if_neg identity, if_neg (not_not.mpr order)]
    rfl
  located := by
    apply extractTFromAdCore_eq_ok_iff.mpr
    refine ⟨pathAdCore 0xc0 "compute", rfl, by unfold AdCore.Fits; decide, rfl, ?_⟩
    exact if_neg finite
  encrypted := by
    rw [DemP2.encrypt, DemP2.deriveKeystream_eq]
    change some ((smallScalar 2).toList.zipWith (fun p k => p ^^^ k) (List.replicate 32 0)) = _
    decide
  tagged := by
    change List.replicate 32 0 = zeroDigest.toList
    decide

/-- The point of the sample plaintext. -/
theorem samplePoint_eq :
    scalarBytesToPoint secpGenerator (toArray32 (smallScalar 2).toList) = 2 • secpGenerator := by
  have plain : toArray32 (smallScalar 2).toList = smallScalar 2 := by
    rw [← Vector.toList_inj, toArray32_toList Vector.length_toList]
  rw [plain, scalarBytesToPoint_eq, (midpointExcess_eq_zero _).mpr (by decide)]
  rfl

theorem secpGenerator_ne_zero : secpGenerator ≠ 0 := WeierstrassCurve.Affine.Point.some_ne_zero _

theorem two_smul_secpGenerator_ne_zero : 2 • secpGenerator ≠ 0 := by
  intro zero
  have divides := addOrderOf_dvd_of_nsmul_eq_zero zero
  rw [secpGenerator_order] at divides
  exact absurd (Nat.le_of_dvd (by decide) divides) (by decide)

/-- Few evaluation points leave another one. -/
theorem exists_evaluationPoint {exceptional : Finset Fr} (few : exceptional.card ≤ 2 * sixteenthRoots.size) :
    ∃ tau, tau ∉ exceptional := by
  by_contra every
  rw [not_exists] at every
  have whole : exceptional = univ := eq_univ_iff_forall.mpr fun tau => not_not.mp (every tau)
  rw [whole, card_univ, ZMod.card] at few
  exact absurd few (by decide)

/-- For the plaintext two and the generator the prover returns proofs, and the verifier rejects them all. -/
theorem proveAdaptorVe_generator : ∃ waste keys,
    veKeys (sampleLibrary secpGenerator) waste 1 1 = .ok keys ∧
    ¬ HasWitness (sampleLibrary secpGenerator) (List.replicate 576 1) (pathAdCore 0xc0 "compute").serialize
      (smallScalar 2).toList zeroDigest.toList (smallScalar 2).toList ∧
    ∀ r s, ∃ proof,
      proveAdaptorVe (sampleLibrary secpGenerator) keys r s (List.replicate 576 1)
        (pathAdCore 0xc0 "compute").serialize (smallScalar 2).toList zeroDigest.toList (smallScalar 2).toList =
          .ok proof ∧
      verifyAdaptorVe (sampleLibrary secpGenerator) keys proof (pathAdCore 0xc0 "compute").serialize
        (smallScalar 2).toList zeroDigest.toList = false := by
  have checks := nativeChecks_sample secpGenerator_ne_zero
  have different : secpGenerator ≠ scalarBytesToPoint secpGenerator (toArray32 (smallScalar 2).toList) := by
    rw [samplePoint_eq, two_nsmul, ne_eq, left_eq_add]
    exact secpGenerator_ne_zero
  have created : (sampleLibrary secpGenerator).backend.newDomain (sampleLibrary secpGenerator).matrices.qapDomainSize =
      some sixteenthRoots := rfl
  obtain ⟨exceptional, few, outcome⟩ := checks.outcome created (samplePairing_ne_zero secpGenerator)
  obtain ⟨tau, outside⟩ := exists_evaluationPoint few
  obtain ⟨keys, generated⟩ := veKeys_sample secpGenerator tau
  refine ⟨wasteAt tau, keys, generated, checks.hasWitness_iff.not.mpr different, ?_⟩
  intro r s
  obtain ⟨proof, proved, verified⟩ := outcome (wasteAt tau) keys generated r s
  refine ⟨proof, proved, ?_⟩
  rw [← Bool.not_eq_true, verified]
  exact not_or.mpr ⟨different, outside⟩

/-- With its own point the plaintext two gives an accepted proof. -/
theorem proveAdaptorVe_two : ∃ keys proof,
    veKeys (sampleLibrary (2 • secpGenerator)) (wasteAt 3) 1 1 = .ok keys ∧
    proveAdaptorVe (sampleLibrary (2 • secpGenerator)) keys 6 7 (List.replicate 576 1)
      (pathAdCore 0xc0 "compute").serialize (smallScalar 2).toList zeroDigest.toList (smallScalar 2).toList =
        .ok proof ∧
    verifyAdaptorVe (sampleLibrary (2 • secpGenerator)) keys proof (pathAdCore 0xc0 "compute").serialize
      (smallScalar 2).toList zeroDigest.toList = true := by
  obtain ⟨keys, generated⟩ := veKeys_sample (2 • secpGenerator) 3
  have checks := nativeChecks_sample two_smul_secpGenerator_ne_zero
  have nondegenerate := samplePairing_ne_zero (2 • secpGenerator)
  obtain ⟨_, -, outcome⟩ := checks.outcome rfl nondegenerate
  obtain ⟨proof, proved, -⟩ := outcome (wasteAt 3) keys generated 6 7
  obtain ⟨_, -, promise⟩ := proveAdaptorVe_valid_iff (sampleLibrary (2 • secpGenerator)) nondegenerate
    (List.replicate 576 1) (pathAdCore 0xc0 "compute").serialize (smallScalar 2).toList zeroDigest.toList
    (smallScalar 2).toList
  have valid := (promise (wasteAt 3) keys generated).1.mpr (by
    intro tPoint other
    rw [samplePoint_eq]
    exact Except.ok.inj (other.located.symm.trans checks.located))
  exact ⟨keys, proof, generated, proved, valid.1 6 7 proof proved⟩

end Sample

end Pvugc.Adaptor
