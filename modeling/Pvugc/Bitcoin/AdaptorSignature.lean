import Pvugc.Bitcoin.Taproot
import Mathlib.Algebra.Module.ZMod

namespace Pvugc.Bitcoin
open Pvugc.Algebra Pvugc.OneSided Pvugc.Secp

section Scalars

abbrev Scalar := ZMod secpOrder

instance secpOrder_neZero : NeZero secpOrder := ⟨secpOrder_prime.ne_zero⟩

theorem secpOrder_smul (P : AffinePoint) : secpOrder • P = 0 := by
  rw [← secp_card]
  exact card_nsmul_eq_zero'

instance scalarModule : Module Scalar AffinePoint := AddCommGroup.zmodModule secpOrder_smul

theorem natCast_smul (k : ℕ) (P : AffinePoint) : (k : Scalar) • P = k • P := Nat.cast_smul_eq_nsmul Scalar k P

theorem val_smul (s : Scalar) (P : AffinePoint) : s.val • P = s • P := by
  rw [← natCast_smul, ZMod.natCast_zmod_val]

theorem scalar_smul_eq_zero_iff {P : AffinePoint} (finite : P ≠ 0) (s : Scalar) : s • P = 0 ↔ s = 0 := by
  rw [← val_smul, secp_smul_eq_zero_iff finite, ← ZMod.natCast_eq_zero_iff, ZMod.natCast_zmod_val]

/-- A scalar is determined by its multiple of the generator. -/
theorem smul_generator_inj {s t : Scalar} : s • secpGenerator = t • secpGenerator ↔ s = t := by
  rw [← sub_eq_zero, ← sub_smul, scalar_smul_eq_zero_iff generator_ne_zero, sub_eq_zero]

end Scalars

section Code

/-- A key pair of an operator, whose secret is drawn again while it is zero. -/
structure Participant where
  secret : Scalar
  publicKey : AffinePoint
  nonzero : secret ≠ 0
  valid : publicKey = secret • secpGenerator

structure Nonce where
  secret : Scalar
  publicNonce : AffinePoint
  valid : publicNonce = secret • secpGenerator

/-- The fields of an operator's arming that the pre-signature reads. -/
structure OperatorArming where
  participant : Participant
  adaptorShare : Scalar
  nonzero : adaptorShare ≠ 0

def signatureBytes (r : AffinePoint) (s : Scalar) : Option (Vector UInt8 64) := do
  return (← encodedX r) ++ coordinateBytes s.val

variable (sha256 : List UInt8 → Digest)

/-- The coefficients, the aggregated key with an even second coordinate, and the hash of the key list. -/
def musigCoefficients (participants : List Participant) : Option (List Scalar × AffinePoint × Digest) := do
  if participants.isEmpty then none
  let encoded ← participants.mapM fun participant => encodedX participant.publicKey
  let l := sha256 (encoded.flatMap Vector.toList)
  let coeffs : List Scalar := encoded.map fun x => (reduceScalar (sha256 (l.toList ++ x.toList)) : Scalar)
  let agg := ((participants.zip coeffs).map fun entry => entry.2 • entry.1.publicKey).sum
  if ← yIsEven agg then return (coeffs, agg, l)
  return (coeffs.map (- ·), -agg, l)

/-- The sum of the nonces with an even second coordinate, and whether it was negated for that. -/
def aggregateNonces (nonces : List Nonce) : Option (AffinePoint × Bool) := do
  let agg := (nonces.map Nonce.publicNonce).sum
  if ← yIsEven agg then return (agg, false)
  return (-agg, true)

def maskedPartial (nonceNegated : Bool) (challenge : Scalar) (participant : Participant) (coeff : Scalar)
    (nonce : Nonce) (operator : OperatorArming) : Scalar :=
  let nonceSecret := if nonceNegated then -nonce.secret else nonce.secret
  nonceSecret + coeff * participant.secret * challenge - operator.adaptorShare

def maskedPartials (participants : List Participant) (coefficients : List Scalar) (nonces : List Nonce)
    (operators : List OperatorArming) (nonceNegated : Bool) (challenge : Scalar) : List Scalar :=
  (((participants.zip coefficients).zip nonces).zip operators).map fun entry =>
    maskedPartial nonceNegated challenge entry.1.1.1 entry.1.1.2 entry.1.2 entry.2

/-- The fields of the published package that a spend reads, beside the output key. -/
structure PreSignaturePackage where
  outputKey : AffinePoint
  aggregatedNonce : AffinePoint
  sPrime : Scalar
  message : Digest
  nonceNegated : Bool

/-- The adaptor pre-signature of the operators for a frozen signature hash. -/
def presign (operators : List OperatorArming) (nonces : List Nonce) (message : Digest) :
    Option PreSignaturePackage := do
  let participants := operators.map OperatorArming.participant
  let (coefficients, aggregatedKey, _) ← musigCoefficients sha256 participants
  let tweak ← taprootTweakScalar sha256 aggregatedKey none
  let outputKey ← taprootOutputKey sha256 aggregatedKey none
  let (aggregatedNonce, nonceNegated) ← aggregateNonces nonces
  let challenge : Scalar :=
    bip340Challenge sha256 (← encodedX aggregatedNonce) (← encodedX outputKey) message.toList
  let partials := maskedPartials participants coefficients nonces operators nonceNegated challenge
  return ⟨outputKey, aggregatedNonce, partials.sum + tweak * challenge, message, nonceNegated⟩

/-- The signature that an adaptor secret completes the pre-signature to. -/
def PreSignaturePackage.complete (package : PreSignaturePackage) (adaptorSecret : Scalar) :
    Option (Vector UInt8 64) :=
  signatureBytes package.aggregatedNonce (package.sPrime + adaptorSecret)

/-- The signature of a secret under its public key, by a nonce whose sign is made even. -/
def signWithKey (secret : Scalar) (publicKey : AffinePoint) (nonce : Nonce) (msg : List UInt8) :
    Option (Vector UInt8 64) := do
  let even ← yIsEven nonce.publicNonce
  let rAffine := if even then nonce.publicNonce else -nonce.publicNonce
  let nonceSecret := if even then nonce.secret else -nonce.secret
  let e : Scalar := bip340Challenge sha256 (← encodedX rAffine) (← encodedX publicKey) msg
  signatureBytes rAffine (nonceSecret + secret * e)

def bip340SingleSign (participant : Participant) (nonce : Nonce) (msg : List UInt8) : Option (Vector UInt8 64) :=
  signWithKey sha256 participant.secret participant.publicKey nonce msg

structure ReadyAttestation where
  message : Digest
  signatures : List (Vector UInt8 64)

/-- The signatures of the participants, each with the nonce drawn for it. -/
def ReadyAttestation.sign (participants : List Participant) (nonces : List Nonce) (message : Digest) :
    Option ReadyAttestation := do
  let signatures ← (participants.zip nonces).mapM fun entry => bip340SingleSign sha256 entry.1 entry.2 message.toList
  return ⟨message, signatures⟩

def ReadyAttestation.verify (attestation : ReadyAttestation) (participants : List Participant) : Option Bool :=
  if attestation.signatures.length ≠ participants.length then some false
  else (participants.zip attestation.signatures).allM fun entry =>
    verifySchnorrSignature sha256 entry.1.publicKey attestation.message.toList entry.2

end Code

section Aggregation

variable {sha256 : List UInt8 → Digest}

theorem yIsEven_eq_some {P : AffinePoint} {even : Bool} : yIsEven P = some even ↔ P ≠ 0 ∧ isEvenY P = even := by
  cases P with
  | zero => exact iff_of_false nofun fun same => same.1 rfl
  | some x y point =>
      rw [yIsEven_some point, Option.some_inj]
      exact (and_iff_right (WeierstrassCurve.Affine.Point.some_ne_zero point)).symm

theorem Participant.publicKey_ne_zero (participant : Participant) : participant.publicKey ≠ 0 := by
  rw [participant.valid, Ne, scalar_smul_eq_zero_iff generator_ne_zero]
  exact participant.nonzero

theorem mapM_encodedX (participants : List Participant) :
    participants.mapM (fun participant => encodedX participant.publicKey) =
      some (participants.map fun participant => coordinateBytes (xValue participant.publicKey)) := by
  induction participants with
  | nil => rfl
  | cons participant rest ih =>
      rw [List.mapM_cons, encodedX_of_ne_zero participant.publicKey_ne_zero, ih]
      rfl

/-- The secret of the weighted sum of the keys. -/
def aggregatedSecret (participants : List Participant) (coefficients : List Scalar) : Scalar :=
  ((participants.zip coefficients).map fun entry => entry.2 * entry.1.secret).sum

theorem sum_smul_publicKey (participants : List Participant) (coefficients : List Scalar) :
    ((participants.zip coefficients).map fun entry => entry.2 • entry.1.publicKey).sum =
      aggregatedSecret participants coefficients • secpGenerator := by
  rw [aggregatedSecret]
  induction participants.zip coefficients with
  | nil => exact (zero_smul Scalar secpGenerator).symm
  | cons head rest ih =>
      rw [List.map_cons, List.map_cons, List.sum_cons, List.sum_cons, ih, add_smul, head.1.valid, mul_smul]

theorem aggregatedSecret_neg (participants : List Participant) (coefficients : List Scalar) :
    aggregatedSecret participants (coefficients.map (- ·)) = -aggregatedSecret participants coefficients := by
  rw [aggregatedSecret, aggregatedSecret, List.zip_map_right, List.map_map]
  induction participants.zip coefficients with
  | nil => exact neg_zero.symm
  | cons head rest ih =>
      rw [List.map_cons, List.map_cons, List.sum_cons, List.sum_cons, ih, neg_add]
      exact congrArg (· + _) (neg_mul _ _)

/-- The aggregated key is the multiple by the weighted secrets, with an even second coordinate. -/
theorem musigCoefficients_spec {participants : List Participant} {coefficients : List Scalar} {K : AffinePoint}
    {l : Digest} (aggregated : musigCoefficients sha256 participants = some (coefficients, K, l)) :
    coefficients.length = participants.length ∧ K ≠ 0 ∧ isEvenY K ∧
      K = aggregatedSecret participants coefficients • secpGenerator := by
  unfold musigCoefficients at aggregated
  split at aggregated
  · cases aggregated
  rw [mapM_encodedX] at aggregated
  simp only [Option.bind_eq_bind, Option.bind_some, sum_smul_publicKey, Option.pure_def] at aggregated
  obtain ⟨even, parity, aggregated⟩ := Option.bind_eq_some_iff.mp aggregated
  obtain ⟨finite, parity⟩ := yIsEven_eq_some.mp parity
  cases even with
  | true =>
      cases aggregated
      exact ⟨by simp, finite, parity, rfl⟩
  | false =>
      cases aggregated
      refine ⟨by simp, neg_ne_zero.mpr finite, by rw [isEvenY_neg finite, parity]; rfl, ?_⟩
      rw [aggregatedSecret_neg, neg_smul]

theorem sum_publicNonce (nonces : List Nonce) :
    (nonces.map Nonce.publicNonce).sum = (nonces.map Nonce.secret).sum • secpGenerator := by
  induction nonces with
  | nil => exact (zero_smul Scalar secpGenerator).symm
  | cons nonce rest ih => rw [List.map_cons, List.map_cons, List.sum_cons, List.sum_cons, ih, add_smul, nonce.valid]

/-- The secret behind the aggregated nonce, with its sign. -/
def signedNonce (nonces : List Nonce) (nonceNegated : Bool) : Scalar :=
  if nonceNegated then -(nonces.map Nonce.secret).sum else (nonces.map Nonce.secret).sum

theorem aggregateNonces_spec {nonces : List Nonce} {R : AffinePoint} {nonceNegated : Bool}
    (aggregated : aggregateNonces nonces = some (R, nonceNegated)) :
    R ≠ 0 ∧ isEvenY R ∧ R = signedNonce nonces nonceNegated • secpGenerator := by
  rw [aggregateNonces, sum_publicNonce, Option.bind_eq_bind] at aggregated
  obtain ⟨even, parity, aggregated⟩ := Option.bind_eq_some_iff.mp aggregated
  obtain ⟨finite, parity⟩ := yIsEven_eq_some.mp parity
  cases even with
  | true =>
      cases aggregated
      exact ⟨finite, parity, rfl⟩
  | false =>
      cases aggregated
      refine ⟨neg_ne_zero.mpr finite, by rw [isEvenY_neg finite, parity]; rfl, ?_⟩
      rw [signedNonce, if_pos rfl, neg_smul]

/-- The masked partials add up to the signature of the aggregated key without the shares. -/
theorem maskedPartials_sum (nonceNegated : Bool) (challenge : Scalar) {participants : List Participant}
    {coefficients : List Scalar} {nonces : List Nonce} {operators : List OperatorArming}
    (coefficientCount : coefficients.length = participants.length) (nonceCount : nonces.length = participants.length)
    (operatorCount : operators.length = participants.length) :
    (maskedPartials participants coefficients nonces operators nonceNegated challenge).sum =
      signedNonce nonces nonceNegated + aggregatedSecret participants coefficients * challenge -
        (operators.map OperatorArming.adaptorShare).sum := by
  induction participants generalizing coefficients nonces operators with
  | nil =>
      obtain rfl := List.length_eq_zero_iff.mp coefficientCount
      obtain rfl := List.length_eq_zero_iff.mp nonceCount
      obtain rfl := List.length_eq_zero_iff.mp operatorCount
      simp [maskedPartials, signedNonce, aggregatedSecret]
  | cons participant rest ih =>
      obtain ⟨coeff, coefficients, rfl⟩ := List.exists_cons_of_length_eq_add_one coefficientCount
      obtain ⟨nonce, nonces, rfl⟩ := List.exists_cons_of_length_eq_add_one nonceCount
      obtain ⟨operator, operators, rfl⟩ := List.exists_cons_of_length_eq_add_one operatorCount
      have tail := ih (Nat.succ.inj coefficientCount) (Nat.succ.inj nonceCount) (Nat.succ.inj operatorCount)
      simp only [maskedPartials, maskedPartial, aggregatedSecret, signedNonce, List.zip_cons_cons, List.map_cons,
        List.sum_cons] at tail ⊢
      rw [tail]
      cases nonceNegated with
      | true => simp only [if_true]; ring
      | false => simp only [Bool.false_eq_true, if_false]; ring

end Aggregation

section Acceptance

variable {sha256 : List UInt8 → Digest}

theorem scalar_val_lt (s : Scalar) : s.val < secpPrime := (ZMod.val_lt s).trans (by decide)

theorem getElem_signatureR (sig : Vector UInt8 64) {index : ℕ} (inRange : index < 32) :
    (signatureR sig)[index] = sig[index] :=
  (Vector.getElem_extract inRange).trans (by simp only [Nat.zero_add])

theorem getElem_signatureS (sig : Vector UInt8 64) {index : ℕ} (inRange : index < 32) :
    (signatureS sig)[index] = sig[32 + index] :=
  Vector.getElem_extract inRange

theorem signatureR_append (r s : Digest) : signatureR (r ++ s) = r := by
  apply Vector.ext
  intro index inRange
  rw [getElem_signatureR _ inRange, Vector.getElem_append_left inRange]

theorem signatureS_append (r s : Digest) : signatureS (r ++ s) = s := by
  apply Vector.ext
  intro index inRange
  rw [getElem_signatureS _ inRange, Vector.getElem_append_right (Nat.add_lt_add_left inRange 32) (Nat.le_add_right _ _)]
  simp only [Nat.add_sub_cancel_left]

theorem signature_split (sig : Vector UInt8 64) : signatureR sig ++ signatureS sig = sig := by
  apply Vector.ext
  intro index inRange
  by_cases first : index < 32
  · rw [Vector.getElem_append_left first, getElem_signatureR sig first]
  · rw [Vector.getElem_append_right inRange (Nat.le_of_not_lt first), getElem_signatureS sig (by omega)]
    simp only [Nat.add_sub_cancel' (Nat.le_of_not_lt first)]

theorem signatureBytes_of_ne_zero {R : AffinePoint} (finite : R ≠ 0) (s : Scalar) :
    signatureBytes R s = some (coordinateBytes (xValue R) ++ coordinateBytes s.val) := by
  rw [signatureBytes, encodedX_of_ne_zero finite]
  rfl

/-- The strings with a given nonce and a canonical scalar. -/
theorem signatureBytes_eq_some_iff {R : AffinePoint} (finite : R ≠ 0) (s : Scalar) (sig : Vector UInt8 64) :
    signatureBytes R s = some sig ↔
      signatureR sig = coordinateBytes (xValue R) ∧ beValue (signatureS sig).toList = s.val := by
  rw [signatureBytes_of_ne_zero finite, Option.some_inj]
  constructor
  · rintro rfl
    rw [signatureR_append, signatureS_append]
    exact ⟨rfl, coordinateBytes_value (scalar_val_lt s)⟩
  · rintro ⟨nonce, scalar⟩
    rw [← nonce, (coordinateBytes_eq_iff (scalar_val_lt s) _).mpr scalar.symm, signature_split]

/-- For a nonce with an even second coordinate, the equation of a multiple of the generator has one canonical
solution. -/
theorem canonical_equation_iff {R : AffinePoint} {k d : Scalar} (finite : R ≠ 0) (even : isEvenY R)
    (nonce : R = k • secpGenerator) (s e : ℕ) :
    (s < secpOrder ∧ liftX (xValue R) = some (s • secpGenerator - e • (d • secpGenerator))) ↔
      s = (k + d * (e : Scalar)).val := by
  rw [liftX_xValue finite, evenPoint, if_pos even, Option.some_inj, nonce, ← natCast_smul s, ← natCast_smul e,
    ← mul_smul, ← sub_smul, smul_generator_inj]
  constructor
  · rintro ⟨canonical, rfl⟩
    rw [mul_comm d, sub_add_cancel, ZMod.val_natCast_of_lt canonical]
  · rintro rfl
    refine ⟨ZMod.val_lt _, ?_⟩
    rw [ZMod.natCast_zmod_val, mul_comm d, add_sub_cancel_right]

/-- The challenge of a key for a nonce. -/
def keyChallenge (sha256 : List UInt8 → Digest) (R pk : AffinePoint) (msg : List UInt8) : ℕ :=
  bip340Challenge sha256 (coordinateBytes (xValue R)) (coordinateBytes (xValue pk)) msg

section Nonce

variable {pk R : AffinePoint} {k d : Scalar} {sig : Vector UInt8 64}

/-- Of the signatures with a given nonce, the code accepts the one of the signing equation. -/
theorem verifySchnorrSignature_nonce_iff (finite : pk ≠ 0) (secret : pk = d • secpGenerator) (finiteNonce : R ≠ 0)
    (even : isEvenY R) (nonce : R = k • secpGenerator) (sameNonce : signatureR sig = coordinateBytes (xValue R))
    (msg : List UInt8) :
    verifySchnorrSignature sha256 pk msg sig = some true ↔
      signatureBytes R (k + d * (keyChallenge sha256 R pk msg : Scalar)) = some sig := by
  rw [verifySchnorrSignature_eq finite, Option.some_inj, decide_eq_true_iff, sameNonce,
    coordinateBytes_value (xValue_lt R), signatureBytes_eq_some_iff finiteNonce, and_iff_right sameNonce,
    ← canonical_equation_iff finiteNonce even nonce, ← secret, keyChallenge]

/-- The secret of the even one of a key and its opposite. -/
def evenSecret (pk : AffinePoint) (d : Scalar) : Scalar := if isEvenY pk then d else -d

/-- Of the signatures with a given nonce, the specification accepts the one for the secret of the even key. -/
theorem bip340Verify_nonce_iff (finite : pk ≠ 0) (secret : pk = d • secpGenerator) (finiteNonce : R ≠ 0)
    (even : isEvenY R) (nonce : R = k • secpGenerator) (sameNonce : signatureR sig = coordinateBytes (xValue R))
    (msg : List UInt8) :
    bip340Verify sha256 (coordinateBytes (xValue pk)) msg sig = true ↔
      signatureBytes R (k + evenSecret pk d * (keyChallenge sha256 R pk msg : Scalar)) = some sig := by
  have key : evenPoint pk = evenSecret pk d • secpGenerator := by
    rw [evenPoint, evenSecret]
    split
    · exact secret
    · rw [neg_smul, ← secret]
  rw [bip340Verify_eq finite, decide_eq_true_iff, sameNonce, coordinateBytes_value (xValue_lt R),
    signatureBytes_eq_some_iff finiteNonce, and_iff_right sameNonce, ← canonical_equation_iff finiteNonce even nonce,
    ← key, keyChallenge]

theorem signatureBytes_inj (finite : R ≠ 0) {s t : Scalar} : signatureBytes R s = signatureBytes R t ↔ s = t := by
  constructor
  · intro same
    have bytes := signatureBytes_of_ne_zero finite t
    have scalars := ((signatureBytes_eq_some_iff finite t _).mp bytes).2
    rw [← same] at bytes
    exact ZMod.val_injective secpOrder (((signatureBytes_eq_some_iff finite s _).mp bytes).2.symm.trans scalars)
  · exact congrArg _

/-- The specification accepts the signature for the full key where the key is even or the challenge zero. -/
theorem bip340Verify_signed_iff (finite : pk ≠ 0) (secret : pk = d • secpGenerator) (finiteNonce : R ≠ 0)
    (even : isEvenY R) (nonce : R = k • secpGenerator) (msg : List UInt8)
    (signed : signatureBytes R (k + d * (keyChallenge sha256 R pk msg : Scalar)) = some sig) :
    bip340Verify sha256 (coordinateBytes (xValue pk)) msg sig = true ↔
      isEvenY pk ∨ keyChallenge sha256 R pk msg = 0 := by
  have sameNonce := ((signatureBytes_eq_some_iff finiteNonce _ sig).mp signed).1
  rw [bip340Verify_nonce_iff finite secret finiteNonce even nonce sameNonce, ← signed, signatureBytes_inj finiteNonce,
    add_right_inj, ← smul_generator_inj, mul_comm, mul_smul, mul_comm d, mul_smul, ← secret, evenSecret,
    natCast_smul, natCast_smul]
  have residue : keyChallenge sha256 R pk msg < secpOrder := Nat.mod_lt _ secpOrder_prime.pos
  split
  case isTrue key => exact iff_of_true (by rw [← secret]) (.inl key)
  case isFalse key =>
    rw [or_iff_right key, neg_smul, ← secret, neg_nsmul, neg_eq_iff_add_eq_zero]
    constructor
    · intro doubled
      by_contra nonzero
      exact two_smul_residue_ne_zero finite residue nonzero doubled
    · intro zero
      rw [zero, zero_nsmul, add_zero]

theorem signatureBytes_verify {msg : List UInt8} (finite : pk ≠ 0) (secret : pk = d • secpGenerator)
    (finiteNonce : R ≠ 0) (even : isEvenY R) (nonce : R = k • secpGenerator)
    (signed : signatureBytes R (k + d * (keyChallenge sha256 R pk msg : Scalar)) = some sig) :
    verifySchnorrSignature sha256 pk msg sig = some true ∧
      (bip340Verify sha256 (coordinateBytes (xValue pk)) msg sig = true ↔ isEvenY pk ∨
        bip340Challenge sha256 (signatureR sig) (coordinateBytes (xValue pk)) msg = 0) := by
  have sameNonce := ((signatureBytes_eq_some_iff finiteNonce _ sig).mp signed).1
  constructor
  · rwa [verifySchnorrSignature_nonce_iff finite secret finiteNonce even nonce sameNonce]
  · rw [bip340Verify_signed_iff finite secret finiteNonce even nonce msg signed, sameNonce, keyChallenge]

end Nonce

end Acceptance

section Completion

variable {sha256 : List UInt8 → Digest} {operators : List OperatorArming} {nonces : List Nonce} {message : Digest}
  {package : PreSignaturePackage}

/-- The adaptor secret that the shares of all operators add up to. -/
def adaptorSecret (operators : List OperatorArming) : Scalar := (operators.map OperatorArming.adaptorShare).sum

/-- The full sum of the shares turns the pre-signature into the signature of the output key for its nonce. -/
structure PreSignaturePackage.SignsWith (sha256 : List UInt8 → Digest) (package : PreSignaturePackage)
    (shares k d : Scalar) : Prop where
  finite : package.outputKey ≠ 0
  secret : package.outputKey = d • secpGenerator
  finiteNonce : package.aggregatedNonce ≠ 0
  even : isEvenY package.aggregatedNonce
  nonce : package.aggregatedNonce = k • secpGenerator
  equation : package.sPrime + shares =
    k + d * (keyChallenge sha256 package.aggregatedNonce package.outputKey package.message.toList : Scalar)

/-- With the published nonce, only the signature that the full sum completes is accepted. -/
theorem PreSignaturePackage.SignsWith.accepted_iff {shares k d : Scalar} {sig : Vector UInt8 64}
    (spec : package.SignsWith sha256 shares k d)
    (sameNonce : signatureR sig = coordinateBytes (xValue package.aggregatedNonce)) :
    verifySchnorrSignature sha256 package.outputKey package.message.toList sig = some true ↔
      signatureBytes package.aggregatedNonce (package.sPrime + shares) = some sig := by
  rw [verifySchnorrSignature_nonce_iff spec.finite spec.secret spec.finiteNonce spec.even spec.nonce sameNonce,
    spec.equation]

theorem PreSignaturePackage.SignsWith.complete_iff {shares k d : Scalar}
    (spec : package.SignsWith sha256 shares k d) (secret : Scalar) :
    ∃ sig, package.complete secret = some sig ∧
      (verifySchnorrSignature sha256 package.outputKey package.message.toList sig = some true ↔ secret = shares) := by
  have bytes := signatureBytes_of_ne_zero spec.finiteNonce (package.sPrime + secret)
  refine ⟨_, bytes, ?_⟩
  rw [spec.accepted_iff (signatureR_append _ _), ← bytes, signatureBytes_inj spec.finiteNonce, add_right_inj, eq_comm]

theorem presign_spec (paired : nonces.length = operators.length)
    (signed : presign sha256 operators nonces message = some package) :
    package.message = message ∧ ∃ k d, package.SignsWith sha256 (adaptorSecret operators) k d := by
  simp only [presign, Option.bind_eq_bind, Option.bind_eq_some_iff, Option.pure_def, Option.some_inj] at signed
  obtain ⟨⟨coefficients, aggregatedKey, l⟩, aggregated, tweak, tweaked, outputKey, output, ⟨R, nonceNegated⟩, nonce,
    x, nonceX, y, keyX, rfl⟩ := signed
  obtain ⟨count, finite, -, key⟩ := musigCoefficients_spec aggregated
  obtain ⟨finiteNonce, even, nonce⟩ := aggregateNonces_spec nonce
  dsimp only at tweaked output nonceX ⊢
  rw [taprootTweakScalar, encodedX_of_ne_zero finite] at tweaked
  cases tweaked
  obtain ⟨finiteKey, output⟩ := (taprootOutputKey_eq_some finite none outputKey).mp output
  rw [encodedX_of_ne_zero finiteNonce] at nonceX
  rw [encodedX_of_ne_zero finiteKey] at keyX
  cases nonceX
  cases keyX
  set e : Scalar := ((bip340Challenge sha256 (coordinateBytes (xValue R)) (coordinateBytes (xValue outputKey))
    message.toList : ℕ) : Scalar)
  set t : ℕ := tapTweak sha256 (coordinateBytes (xValue aggregatedKey)) none
  have operatorCount : operators.length = (operators.map OperatorArming.participant).length :=
    (List.length_map _).symm
  have shares := maskedPartials_sum nonceNegated e count (paired.trans operatorCount) operatorCount
  refine ⟨rfl, signedNonce nonces nonceNegated,
    aggregatedSecret (operators.map OperatorArming.participant) coefficients + (t : Scalar), finiteKey, ?_,
    finiteNonce, even, nonce, ?_⟩
  · rw [← output, add_smul, ← key, natCast_smul]
  · have reduced : ((t % secpOrder : ℕ) : Scalar) = (t : Scalar) := ZMod.natCast_mod t secpOrder
    change _ + ((t % secpOrder : ℕ) : Scalar) * e + adaptorSecret operators = _ + _ * e
    rw [shares, reduced, adaptorSecret]
    ring

/-- The operators sign once their keys and their nonces aggregate. -/
theorem presign_of_keys {coefficients : List Scalar} {K P R : AffinePoint} {l : Digest} {nonceNegated : Bool}
    (aggregated : musigCoefficients sha256 (operators.map OperatorArming.participant) = some (coefficients, K, l))
    (output : taprootOutputKey sha256 K none = some P) (nonce : aggregateNonces nonces = some (R, nonceNegated)) :
    ∃ package, presign sha256 operators nonces message = some package ∧ package.outputKey = P ∧
      package.aggregatedNonce = R := by
  obtain ⟨-, finite, -, -⟩ := musigCoefficients_spec aggregated
  obtain ⟨finiteOutput, -⟩ := (taprootOutputKey_eq_some finite none P).mp output
  obtain ⟨finiteNonce, -, -⟩ := aggregateNonces_spec nonce
  simp [presign, aggregated, taprootTweakScalar, encodedX_of_ne_zero finite, output, nonce,
    encodedX_of_ne_zero finiteNonce, encodedX_of_ne_zero finiteOutput]

theorem presign_ne_nil (signed : presign sha256 operators nonces message = some package) : operators ≠ [] := by
  rintro rfl
  cases signed

section Sample

theorem multipleAt_spec {k x y : ℕ} (computed : MultipleAt k x y) (xFits : x < secpPrime) (yFits : y < secpPrime) :
    k • secpGenerator ≠ 0 ∧ xValue (k • secpGenerator) = x ∧ isEvenY (k • secpGenerator) = decide (y % 2 = 0) := by
  obtain ⟨point, multiple⟩ := computed.eq_some
  rw [multiple]
  refine ⟨WeierstrassCurve.Affine.Point.some_ne_zero point, ZMod.val_cast_of_lt xFits, ?_⟩
  rw [isEvenY, ZMod.val_cast_of_lt yFits]

/-- The generator as key, and a share with a midpoint window. -/
def evenOperator : OperatorArming where
  participant := ⟨1, secpGenerator, by decide, (one_smul Scalar secpGenerator).symm⟩
  adaptorShare := 32
  nonzero := by decide

/-- A key with an odd second coordinate. -/
def oddOperator : OperatorArming where
  participant := ⟨6, 6 • secpGenerator, by decide, (natCast_smul 6 secpGenerator).symm⟩
  adaptorShare := 1
  nonzero := by decide

def operatorPair : List OperatorArming := [evenOperator, oddOperator]

def fiveNonce : Nonce := ⟨5, 5 • secpGenerator, (natCast_smul 5 secpGenerator).symm⟩

def unitNonce : Nonce := ⟨1, secpGenerator, (one_smul Scalar secpGenerator).symm⟩

/-- Nonces whose sum has an odd second coordinate. -/
def noncePair : List Nonce := [fiveNonce, unitNonce]

/-- The secret of the weighted sum of the keys of the pair. -/
def pairSecret : ℕ := 0x5e3ace00ab527c5744099eb6c41064de2c980b3a9d4400f869bb4e887eaed9c8

/-- The secret of the output key of the pair. -/
def pairOutputSecret : ℕ := 0x14f38bb57c42ac8dfd2ece2b5971788446d2b3e9878af39878c76e2efcc56d3b

/-- The points of the run of the pair. -/
theorem multiples_pair :
    MultipleAt 5 0x2f8bde4d1a07209355b4a7250a5c5128e88b84bddc619ab7cba8d569b240efe4
      0xd8ac222636e5e3d6d4dba9dda6c9c426f788271bab0d6840dca87d3aa6ac62d6 ∧
    MultipleAt 6 0xfff97bd5755eeea420453a14355235d382f6472f8568a18b2f057a1460297556
      0xae12777aacfbb620f3be96017f45c560de80f0f6518fe4a03c870c36b075f297 ∧
    MultipleAt pairSecret 0xc81980969be34598634bcaf56447d6b23577d4c288fc08102c7e981e2cad2b99
      0x6e407bbd9932fb7a30cd22a2843017e38eab700fca092fedc5c1f912e7c3e543 ∧
    MultipleAt pairOutputSecret 0x3e6b42752a0ab61002e2b20576c4db84ba2e7dd58ee07c9fab0870477cf2f912
      0xf6001217977d05179f641559266f412d25d0dab01d3ba364649ad55a15d34365 := by
  decide +kernel

def pairCoefficients : List Scalar :=
  [0xf4e9952c7204a9269d77e4fcf0343500ce39f87e7e437f76e88d050d99b3baa4,
    0xe6e2dece098cf8881bc2f449a34f5d4e4a69355b5f1e0b26aaaf6acbf6601bc7]

/-- The encoded keys of the pair. -/
def pairKeys : List Digest :=
  [coordinateBytes 0x79BE667EF9DCBBAC55A06295CE870B07029BFCDB2DCE28D959F2815B16F81798,
    coordinateBytes 0xfff97bd5755eeea420453a14355235d382f6472f8568a18b2f057a1460297556]

/-- The hash of the key list of the pair. -/
def pairKeyHash : Digest := coordinateBytes 0x407818ed2ad5e9b00fc0d59f99cf0c0c86d067c2aca5587b1872d029984bbe4c

/-- The hashes and sums of the run of the pair. -/
theorem hashes_pair :
    Hash.sha256 (pairKeys.flatMap Vector.toList) = pairKeyHash ∧
    pairKeys.map (fun x => (reduceScalar (Hash.sha256 (pairKeyHash.toList ++ x.toList)) : Scalar)) =
      pairCoefficients ∧
    aggregatedSecret (operatorPair.map OperatorArming.participant) pairCoefficients = (pairSecret : Scalar) ∧
    -(pairSecret : Scalar) + ((tapTweak Hash.sha256
      (coordinateBytes 0xc81980969be34598634bcaf56447d6b23577d4c288fc08102c7e981e2cad2b99) none : ℕ) : Scalar) =
        (pairOutputSecret : Scalar) ∧
    bip340Challenge Hash.sha256
      (coordinateBytes 0xfff97bd5755eeea420453a14355235d382f6472f8568a18b2f057a1460297556)
      (coordinateBytes 0x3e6b42752a0ab61002e2b20576c4db84ba2e7dd58ee07c9fab0870477cf2f912)
      (coordinateBytes 0).toList ≠ 0 := by
  decide +kernel

theorem pairKeys_eq : (operatorPair.map OperatorArming.participant).map
    (fun participant => coordinateBytes (xValue participant.publicKey)) = pairKeys := by
  obtain ⟨-, sixX, -⟩ := multipleAt_spec multiples_pair.2.1 (by decide) (by decide)
  change [coordinateBytes (xValue secpGenerator), coordinateBytes (xValue (6 • secpGenerator))] = _
  rw [sixX]
  rfl

/-- Keys that add up to an odd key are negated. -/
theorem musigCoefficients_of_odd {sha256 : List UInt8 → Digest} {participants : List Participant} {keys : List Digest}
    {l : Digest} {coefficients : List Scalar} (nonempty : participants.isEmpty = false)
    (encoded : participants.map (fun participant => coordinateBytes (xValue participant.publicKey)) = keys)
    (hashed : sha256 (keys.flatMap Vector.toList) = l)
    (weights : keys.map (fun x => (reduceScalar (sha256 (l.toList ++ x.toList)) : Scalar)) = coefficients)
    (odd : yIsEven (aggregatedSecret participants coefficients • secpGenerator) = some false) :
    musigCoefficients sha256 participants =
      some (coefficients.map (- ·), -(aggregatedSecret participants coefficients • secpGenerator), l) := by
  simp only [musigCoefficients, nonempty, Bool.false_eq_true, if_false, mapM_encodedX, encoded, hashed, weights,
    sum_smul_publicKey, odd, Option.bind_eq_bind, Option.bind_some, Option.pure_def]

theorem musigCoefficients_pair : musigCoefficients Hash.sha256 (operatorPair.map OperatorArming.participant) =
    some (pairCoefficients.map (- ·), -(pairSecret • secpGenerator), pairKeyHash) := by
  obtain ⟨finite, -, odd⟩ := multipleAt_spec multiples_pair.2.2.1 (by decide) (by decide)
  have parity : yIsEven (pairSecret • secpGenerator) = some false :=
    yIsEven_eq_some.mpr ⟨finite, odd.trans (by decide)⟩
  obtain ⟨keyHash, coefficients, secret, -⟩ := hashes_pair
  rw [← natCast_smul, ← secret] at parity ⊢
  exact musigCoefficients_of_odd rfl pairKeys_eq keyHash coefficients parity

/-- The tweak of the aggregated key gives an odd output key. -/
theorem taprootOutputKey_pair :
    taprootOutputKey Hash.sha256 (-(pairSecret • secpGenerator)) none = some (pairOutputSecret • secpGenerator) := by
  obtain ⟨finite, x, -⟩ := multipleAt_spec multiples_pair.2.2.1 (by decide) (by decide)
  obtain ⟨finiteOutput, -, -⟩ := multipleAt_spec multiples_pair.2.2.2 (by decide) (by decide)
  obtain ⟨-, -, -, sum, -⟩ := hashes_pair
  rw [taprootOutputKey_eq_some (neg_ne_zero.mpr finite), xValue_neg, x, ← natCast_smul, ← natCast_smul,
    ← natCast_smul, ← neg_smul, ← add_smul, sum]
  exact ⟨by rwa [natCast_smul], rfl⟩

/-- The sum of the nonces of the pair is odd and negated. -/
theorem aggregateNonces_pair : aggregateNonces noncePair = some (-(6 • secpGenerator), true) := by
  obtain ⟨finite, -, odd⟩ := multipleAt_spec multiples_pair.2.1 (by decide) (by decide)
  have sum : (noncePair.map Nonce.publicNonce).sum = 6 • secpGenerator := by
    have secrets : (noncePair.map Nonce.secret).sum = ((6 : ℕ) : Scalar) := by decide
    rw [sum_publicNonce, secrets, natCast_smul]
  have parity : yIsEven (6 • secpGenerator) = some false := yIsEven_eq_some.mpr ⟨finite, odd.trans (by decide)⟩
  rw [aggregateNonces, sum, parity]
  rfl

theorem presign_pair : ∃ package,
    presign Hash.sha256 operatorPair noncePair (coordinateBytes 0) = some package ∧
      package.outputKey = pairOutputSecret • secpGenerator ∧ package.aggregatedNonce = -(6 • secpGenerator) :=
  presign_of_keys musigCoefficients_pair taprootOutputKey_pair aggregateNonces_pair

end Sample

/-- Of the adaptor secrets, exactly the sum of all shares completes the pre-signature to a signature that the code
accepts, and an accepted signature with the published nonce gives that sum away. -/
theorem presign_completes_iff (paired : nonces.length = operators.length)
    (signed : presign sha256 operators nonces message = some package) :
    (∀ secret, ∃ sig, package.complete secret = some sig ∧
      (verifySchnorrSignature sha256 package.outputKey message.toList sig = some true ↔
        secret = adaptorSecret operators)) ∧
    ∀ sig, some (signatureR sig) = encodedX package.aggregatedNonce →
      verifySchnorrSignature sha256 package.outputKey message.toList sig = some true →
      (beValue (signatureS sig).toList : Scalar) - package.sPrime = adaptorSecret operators := by
  obtain ⟨rfl, k, d, spec⟩ := presign_spec paired signed
  constructor
  · exact spec.complete_iff
  · intro sig sameNonce valid
    rw [encodedX_of_ne_zero spec.finiteNonce, Option.some_inj] at sameNonce
    have scalar := ((signatureBytes_eq_some_iff spec.finiteNonce _ sig).mp ((spec.accepted_iff sameNonce).mp valid)).2
    rw [scalar, ZMod.natCast_zmod_val, add_sub_cancel_left]

/-- The pair's shares together complete its pre-signature; the share with the midpoint window alone does not. -/
theorem presign_completes_pair : ∃ package,
    presign Hash.sha256 operatorPair noncePair (coordinateBytes 0) = some package ∧
    (∃ sig, package.complete 33 = some sig ∧
      verifySchnorrSignature Hash.sha256 package.outputKey (coordinateBytes 0).toList sig = some true) ∧
    ∃ sig, package.complete 32 = some sig ∧
      verifySchnorrSignature Hash.sha256 package.outputKey (coordinateBytes 0).toList sig ≠ some true := by
  obtain ⟨package, signed, -, -⟩ := presign_pair
  obtain ⟨completes, -⟩ := presign_completes_iff rfl signed
  obtain ⟨whole, wholeBytes, accepted⟩ := completes 33
  obtain ⟨part, partBytes, refused⟩ := completes 32
  exact ⟨package, signed, ⟨whole, wholeBytes, accepted.mpr (by decide)⟩,
    part, partBytes, refused.not.mpr (by decide)⟩

/-- The completed signature is one of BIP-340 where the output key is even or the challenge zero. -/
theorem presign_bip340_iff (paired : nonces.length = operators.length)
    (signed : presign sha256 operators nonces message = some package) :
    ∃ sig pkX, package.complete (adaptorSecret operators) = some sig ∧ encodedX package.outputKey = some pkX ∧
      (bip340Verify sha256 pkX message.toList sig = true ↔ isEvenY package.outputKey ∨
        bip340Challenge sha256 (signatureR sig) pkX message.toList = 0) := by
  obtain ⟨rfl, k, d, spec⟩ := presign_spec paired signed
  have bytes := signatureBytes_of_ne_zero spec.finiteNonce (package.sPrime + adaptorSecret operators)
  refine ⟨_, _, bytes, encodedX_of_ne_zero spec.finite,
    (signatureBytes_verify spec.finite spec.secret spec.finiteNonce spec.even spec.nonce ?_).2⟩
  rw [← spec.equation]
  exact bytes

/-- The code accepts the signature of the pair, whose output key is odd, and BIP-340 refuses it. -/
theorem presign_bip340_pair : ∃ package sig pkX,
    presign Hash.sha256 operatorPair noncePair (coordinateBytes 0) = some package ∧
    package.complete (adaptorSecret operatorPair) = some sig ∧ encodedX package.outputKey = some pkX ∧
    verifySchnorrSignature Hash.sha256 package.outputKey (coordinateBytes 0).toList sig = some true ∧
    bip340Verify Hash.sha256 pkX (coordinateBytes 0).toList sig = false := by
  obtain ⟨finiteNonce, nonceX, -⟩ := multipleAt_spec multiples_pair.2.1 (by decide) (by decide)
  obtain ⟨finiteOutput, outputX, odd⟩ := multipleAt_spec multiples_pair.2.2.2 (by decide) (by decide)
  obtain ⟨package, signed, output, nonce⟩ := presign_pair
  obtain ⟨sameMessage, k, d, spec⟩ := presign_spec rfl signed
  obtain ⟨own, ownBytes, accepted⟩ := spec.complete_iff (adaptorSecret operatorPair)
  obtain ⟨sig, pkX, bytes, key, valid⟩ := presign_bip340_iff rfl signed
  obtain rfl : own = sig := Option.some.inj (ownBytes.symm.trans bytes)
  refine ⟨package, own, pkX, signed, bytes, key, sameMessage ▸ accepted.mpr rfl, ?_⟩
  rw [Bool.eq_false_iff, ne_eq, valid, not_or]
  constructor
  · rw [output, odd]
    decide
  · have r := ((signatureBytes_eq_some_iff spec.finiteNonce _ own).mp bytes).1
    rw [nonce, xValue_neg, nonceX] at r
    rw [output, encodedX_of_ne_zero finiteOutput, outputX, Option.some_inj] at key
    rw [r, ← key]
    exact hashes_pair.2.2.2.2

end Completion

section Single

variable {sha256 : List UInt8 → Digest} {publicKey : AffinePoint} {secret : Scalar} {msg : List UInt8}
  {sig : Vector UInt8 64}

/-- A single signature is accepted by the code, and by BIP-340 where the key is even or the challenge zero. -/
theorem signWithKey_verify (finite : publicKey ≠ 0) (valid : publicKey = secret • secpGenerator) {nonce : Nonce}
    (signed : signWithKey sha256 secret publicKey nonce msg = some sig) :
    verifySchnorrSignature sha256 publicKey msg sig = some true ∧
      (bip340Verify sha256 (coordinateBytes (xValue publicKey)) msg sig = true ↔ isEvenY publicKey ∨
        bip340Challenge sha256 (signatureR sig) (coordinateBytes (xValue publicKey)) msg = 0) := by
  simp only [signWithKey, Option.bind_eq_bind, Option.bind_eq_some_iff, encodedX_of_ne_zero finite, Option.some_inj,
    exists_eq_left'] at signed
  obtain ⟨even, parity, r, nonceX, bytes⟩ := signed
  obtain ⟨finiteNonce, parity⟩ := yIsEven_eq_some.mp parity
  cases even with
  | true =>
      simp only [if_true] at nonceX bytes
      rw [encodedX_of_ne_zero finiteNonce] at nonceX
      cases nonceX
      exact signatureBytes_verify finite valid finiteNonce parity nonce.valid bytes
  | false =>
      have finiteNegated : -nonce.publicNonce ≠ 0 := neg_ne_zero.mpr finiteNonce
      simp only [Bool.false_eq_true, if_false] at nonceX bytes
      rw [encodedX_of_ne_zero finiteNegated] at nonceX
      cases nonceX
      exact signatureBytes_verify finite valid finiteNegated (by rw [isEvenY_neg finiteNonce, parity]; rfl)
        (by rw [neg_smul, ← nonce.valid]) bytes

/-- A finite nonce signs, and the signature shows its first coordinate. -/
theorem exists_signWithKey (finite : publicKey ≠ 0) {nonce : Nonce} (finiteNonce : nonce.publicNonce ≠ 0) :
    ∃ sig, signWithKey sha256 secret publicKey nonce msg = some sig ∧
      signatureR sig = coordinateBytes (xValue nonce.publicNonce) := by
  have parity : yIsEven nonce.publicNonce = some (isEvenY nonce.publicNonce) := yIsEven_eq_some.mpr ⟨finiteNonce, rfl⟩
  cases even : isEvenY nonce.publicNonce with
  | true =>
      simp only [signWithKey, parity, even, Option.bind_eq_bind, Option.bind_some, if_true,
        encodedX_of_ne_zero finite, encodedX_of_ne_zero finiteNonce, signatureBytes_of_ne_zero finiteNonce]
      exact ⟨_, rfl, signatureR_append _ _⟩
  | false =>
      have finiteNegated := neg_ne_zero.mpr finiteNonce
      simp only [signWithKey, parity, even, Option.bind_eq_bind, Option.bind_some, Bool.false_eq_true, if_false,
        encodedX_of_ne_zero finite, encodedX_of_ne_zero finiteNegated, signatureBytes_of_ne_zero finiteNegated]
      exact ⟨_, rfl, (signatureR_append _ _).trans (by rw [xValue_neg])⟩

/-- Every participant signs with one of the nonces. -/
theorem mapM_bip340SingleSign {participants : List Participant} {nonces : List Nonce}
    {signatures : List (Vector UInt8 64)} (paired : nonces.length = participants.length)
    (mapped : (participants.zip nonces).mapM (fun entry => bip340SingleSign sha256 entry.1 entry.2 msg) =
      some signatures) :
    signatures.length = participants.length ∧ ∀ entry ∈ participants.zip signatures,
      ∃ nonce, signWithKey sha256 entry.1.secret entry.1.publicKey nonce msg = some entry.2 := by
  induction participants generalizing nonces signatures with
  | nil =>
      cases mapped
      exact ⟨rfl, nofun⟩
  | cons participant rest ih =>
      obtain ⟨nonce, nonces, rfl⟩ := List.exists_cons_of_length_eq_add_one paired
      simp only [List.zip_cons_cons, List.mapM_cons, Option.bind_eq_bind, Option.bind_eq_some_iff,
        Option.pure_def, Option.some_inj] at mapped
      obtain ⟨first, single, others, mapped, rfl⟩ := mapped
      obtain ⟨count, each⟩ := ih (Nat.succ.inj paired) mapped
      refine ⟨congrArg (· + 1) count, List.forall_mem_cons.mpr ⟨⟨nonce, single⟩, each⟩⟩

theorem allM_eq_some_true {A : Type} {check : A → Option Bool} {entries : List A}
    (holds : ∀ entry ∈ entries, check entry = some true) : entries.allM check = some true := by
  induction entries with
  | nil => rfl
  | cons entry rest ih =>
      obtain ⟨first, others⟩ := List.forall_mem_cons.mp holds
      rw [List.allM, first]
      exact ih others

/-- The signatures of the participants are accepted by the code, and one by one by BIP-340 where the participant's key
is even or its challenge zero. -/
theorem readyAttestation_verify {participants : List Participant} {nonces : List Nonce} {message : Digest}
    {attestation : ReadyAttestation} (paired : nonces.length = participants.length)
    (signed : ReadyAttestation.sign sha256 participants nonces message = some attestation) :
    attestation.verify sha256 participants = some true ∧ ∀ entry ∈ participants.zip attestation.signatures,
      ∃ pkX, encodedX entry.1.publicKey = some pkX ∧
        (bip340Verify sha256 pkX message.toList entry.2 = true ↔ isEvenY entry.1.publicKey ∨
          bip340Challenge sha256 (signatureR entry.2) pkX message.toList = 0) := by
  rw [ReadyAttestation.sign, Option.bind_eq_bind, Option.bind_eq_some_iff] at signed
  obtain ⟨signatures, mapped, signed⟩ := signed
  cases signed
  obtain ⟨count, each⟩ := mapM_bip340SingleSign paired mapped
  have spec (entry) (member : entry ∈ participants.zip signatures) : _ ∧ _ :=
    let ⟨nonce, single⟩ := each entry member
    signWithKey_verify entry.1.publicKey_ne_zero entry.1.valid single
  constructor
  · rw [ReadyAttestation.verify, if_neg (not_not.mpr count)]
    exact allM_eq_some_true fun entry member => (spec entry member).1
  · intro entry member
    exact ⟨_, encodedX_of_ne_zero entry.1.publicKey_ne_zero, (spec entry member).2⟩

theorem ReadyAttestation.sign_pair {first second : Participant} {nonce nonce' : Nonce} {message : Digest}
    {sig sig' : Vector UInt8 64}
    (signed : bip340SingleSign sha256 first nonce message.toList = some sig)
    (signed' : bip340SingleSign sha256 second nonce' message.toList = some sig') :
    ReadyAttestation.sign sha256 [first, second] [nonce, nonce'] message = some ⟨message, [sig, sig']⟩ := by
  simp [ReadyAttestation.sign, signed, signed']

/-- The challenge of the odd key for the generator as nonce is not zero. -/
theorem challenge_odd : bip340Challenge Hash.sha256 (coordinateBytes secpGeneratorX.val)
    (coordinateBytes 0xfff97bd5755eeea420453a14355235d382f6472f8568a18b2f057a1460297556)
    (coordinateBytes 0).toList ≠ 0 := by decide +kernel

/-- The participants of the pair attest; BIP-340 refuses the signature of the one whose key is odd. -/
theorem readyAttestation_pair : ∃ attestation sig,
    ReadyAttestation.sign Hash.sha256 (operatorPair.map OperatorArming.participant) noncePair (coordinateBytes 0) =
      some attestation ∧
    attestation.verify Hash.sha256 (operatorPair.map OperatorArming.participant) = some true ∧
    attestation.signatures[1]? = some sig ∧
    bip340Verify Hash.sha256 (coordinateBytes (xValue oddOperator.participant.publicKey)) (coordinateBytes 0).toList
      sig = false := by
  obtain ⟨-, sixX, odd⟩ := multipleAt_spec multiples_pair.2.1 (by decide) (by decide)
  obtain ⟨finiteFive, -, -⟩ := multipleAt_spec multiples_pair.1 (by decide) (by decide)
  have finiteUnit : unitNonce.publicNonce ≠ 0 := generator_ne_zero
  obtain ⟨first, firstSigned, -⟩ : ∃ sig, bip340SingleSign Hash.sha256 evenOperator.participant fiveNonce
      (coordinateBytes 0).toList = some sig ∧ signatureR sig = coordinateBytes (xValue fiveNonce.publicNonce) :=
    exists_signWithKey evenOperator.participant.publicKey_ne_zero finiteFive
  obtain ⟨second, secondSigned, r⟩ : ∃ sig, bip340SingleSign Hash.sha256 oddOperator.participant unitNonce
      (coordinateBytes 0).toList = some sig ∧ signatureR sig = coordinateBytes (xValue unitNonce.publicNonce) :=
    exists_signWithKey oddOperator.participant.publicKey_ne_zero finiteUnit
  have signed := ReadyAttestation.sign_pair firstSigned secondSigned
  obtain ⟨accepted, each⟩ := readyAttestation_verify rfl signed
  obtain ⟨pkX, key, valid⟩ := each (oddOperator.participant, second) (by simp)
  refine ⟨_, second, signed, accepted, rfl, ?_⟩
  rw [encodedX_of_ne_zero oddOperator.participant.publicKey_ne_zero, Option.some_inj] at key
  rw [key, Bool.eq_false_iff, ne_eq, valid, not_or, r, ← key]
  constructor
  · change ¬isEvenY (6 • secpGenerator) = true
    rw [odd]
    decide
  · change bip340Challenge Hash.sha256 (coordinateBytes (xValue secpGenerator))
      (coordinateBytes (xValue (6 • secpGenerator))) (coordinateBytes 0).toList ≠ 0
    rw [sixX]
    exact challenge_odd

end Single

end Pvugc.Bitcoin
