import Pvugc.Adaptor.AdCore
import Pvugc.Adaptor.AdaptorVeProof
import Pvugc.Adaptor.BountyStatement
import Pvugc.Bitcoin.AdaptorSignature
import Pvugc.OneSided.HonestBundle

namespace Pvugc.Adaptor
open Pvugc.Algebra Pvugc.Bitcoin Pvugc.Groth16 Pvugc.OneSided Pvugc.Secp

/-- The third-party code under the harness. -/
structure BridgeLibrary (G2 GT : Type) where
  sponge : PoseidonSponge Fr
  serializeGt : GT → List UInt8
  serializeArms : ColumnArms G2 → List UInt8

/-- The associated data that all operators share. -/
structure BridgeBinding where
  vkHash : Digest
  xHash : Digest
  ctxHash : Digest
  tapleafHash : Digest
  txTemplate : List UInt8
  tAggregate : List UInt8
  gsDigest : Digest

structure EncryptedShare where
  ciphertext : List UInt8
  tau : Digest

/-- The fields of an operator's arming that a spend reads. -/
structure ArmedOperator (G2 GT : Type) where
  columnArms : ColumnArms G2
  expectedKey : GT
  adaptorCommitmentArkworks : List UInt8
  encryptedShare : EncryptedShare

section Commitments

/-- The compressed bytes of a point, whose coordinates are zero at the identity. -/
def compressSecpPoint (point : AffinePoint) : List UInt8 :=
  (if isEvenY point then 2 else 3) :: (coordinateBytes (xValue point)).toList

/-- No finite point has a zero first coordinate, since seven is no square. -/
theorem xValue_eq_zero_iff (P : AffinePoint) : xValue P = 0 ↔ P = 0 := by
  constructor
  · intro zero
    cases P with
    | zero => rfl
    | some x y point =>
        obtain rfl : x = 0 := (ZMod.val_eq_zero x).mp zero
        have square : y ^ 2 = 7 := by
          rw [secp_equation point]
          ring
        exact absurd (root_sq square) (by decide +kernel)
  · intro zero
    rw [zero]
    rfl

theorem compressSecpPoint_injective : Function.Injective compressSecpPoint := by
  intro P P' same
  obtain ⟨tag, bytes⟩ := List.cons.inj same
  have x : xValue P = xValue P' := by
    rw [← coordinateBytes_value (xValue_lt P), bytes, coordinateBytes_value (xValue_lt P')]
  have parity : isEvenY P = isEvenY P' := by
    cases even : isEvenY P <;> cases even' : isEvenY P' <;> simp [even, even'] at tag ⊢
  by_cases zero : P = 0
  · rw [(xValue_eq_zero_iff P).mpr zero, eq_comm, xValue_eq_zero_iff] at x
    rw [zero, x]
  · have finite : P' ≠ 0 := by
      rwa [Ne, ← xValue_eq_zero_iff, ← x, xValue_eq_zero_iff]
    exact eq_of_even zero finite x parity

end Commitments

section Code

variable {F G1 G2 GT D : Type} [Field F] [AddCommGroup G1] [Module F G1] [AddCommGroup G2] [Module F G2]
variable [AddCommGroup GT] [Module F GT] [DecidableEq F] [DecidableEq G1] [DecidableEq G2] [DecidableEq GT]
variable [DecidableEq D]

/-- The arms and the expected key of every operator: the first one sets up, the others arm its bases. -/
def armOperators (e : Pairing F G1 G2 GT) (hashG2 : G2 → D) (pvugcVk : PvugcVk G2 GT) (vk : VerifyingKey G1 G2)
    (publicInputs : List F) : List F → Option (List (ColumnArms G2 × GT))
  | [] => some []
  | rho :: rhos => do
    let (bases, initial, r, expectedKey) ← (setupAndArm e hashG2 pvugcVk vk publicInputs rho).toOption
    let others ← rhos.mapM fun rho => do
      let arms ← (armColumns bases rho).toOption
      return (arms, rho • r)
    return (initial, expectedKey) :: others

variable (library : BridgeLibrary G2 GT) (binding : BridgeBinding)

def bridgeAdCore (idx : ℕ) (columnArms : ColumnArms G2) (tI : List UInt8) : List UInt8 :=
  (AdCore.new binding.vkHash binding.xHash binding.ctxHash binding.tapleafHash 0xc0 binding.txTemplate "compute"
    (UInt32.ofNat idx) tI binding.tAggregate (library.serializeArms columnArms) [] binding.gsDigest).serialize

/-- The encryption of an operator's share under the expected key. -/
def encryptShare (idx : ℕ) (share : Scalar) (columnArms : ColumnArms G2) (expectedKey : GT) :
    Option (ArmedOperator G2 GT) := do
  let shareBytes := coordinateBytes share.val
  let tI := compressSecpPoint (scalarBytesToPoint secpGenerator shareBytes)
  let adBytes := bridgeAdCore library binding idx columnArms tI
  let kBytes := library.serializeGt expectedKey
  let ciphertext ← (DemP2.new library.sponge kBytes adBytes).encrypt library.sponge shareBytes.toList
  let tau := computeKeyCommitmentTag library.sponge kBytes adBytes ciphertext
  return ⟨columnArms, expectedKey, tI, ciphertext, tau⟩

def encryptShares (operators : List OperatorArming) (arms : List (ColumnArms G2 × GT)) :
    Option (List (ArmedOperator G2 GT)) :=
  (operators.zip arms).zipIdx.mapM fun entry =>
    encryptShare library binding entry.2 entry.1.1.adaptorShare entry.1.2.1 entry.1.2.2

variable (e : Pairing F G1 G2 GT) (debugAssertions : Bool) (commitments : OneSidedCommitments G1)

/-- The share that the commitments of a proof open; `none` is a failed assertion. -/
def recoverShare (idx : ℕ) (operator : ArmedOperator G2 GT) : Option Scalar := do
  let derivedKey ← (decapsulate debugAssertions e commitments operator.columnArms).toOption
  if operator.expectedKey ≠ derivedKey then none
  let adBytes := bridgeAdCore library binding idx operator.columnArms operator.adaptorCommitmentArkworks
  let kBytes := library.serializeGt derivedKey
  let encrypted := operator.encryptedShare
  if !verifyKeyCommitment library.sponge kBytes adBytes encrypted.ciphertext encrypted.tau then none
  let decrypted ← (DemP2.new library.sponge kBytes adBytes).decrypt library.sponge encrypted.ciphertext
  if decrypted.length ≠ 32 then none
  let share : Scalar := (← scalarFromRepr (toArray32 decrypted))
  if share = 0 then none
  return share

def recoverShares (operators : List (ArmedOperator G2 GT)) : Option (List Scalar) :=
  operators.zipIdx.mapM fun entry => recoverShare library binding e debugAssertions commitments entry.2 entry.1

/-- The signature that the recovered shares complete the pre-signature to. -/
def spend (package : PreSignaturePackage) (operators : List (ArmedOperator G2 GT)) : Option (Vector UInt8 64) := do
  let recovered ← recoverShares library binding e debugAssertions commitments operators
  package.complete recovered.sum

end Code

section Publication

variable {G2 GT : Type} {library : BridgeLibrary G2 GT} {binding : BridgeBinding}

/-- The first operator is encrypted under its index, the others under the next ones. -/
theorem encryptShares_cons {operator : OperatorArming} {operators : List OperatorArming}
    {entry : ColumnArms G2 × GT} {arms : List (ColumnArms G2 × GT)} {published : List (ArmedOperator G2 GT)} {start : ℕ}
    (encrypted : (((operator :: operators).zip (entry :: arms)).zipIdx start).mapM (fun entry =>
      encryptShare library binding entry.2 entry.1.1.adaptorShare entry.1.2.1 entry.1.2.2) = some published) :
    ∃ first others, encryptShare library binding start operator.adaptorShare entry.1 entry.2 = some first ∧
      ((operators.zip arms).zipIdx (start + 1)).mapM (fun entry =>
        encryptShare library binding entry.2 entry.1.1.adaptorShare entry.1.2.1 entry.1.2.2) = some others ∧
      published = first :: others := by
  simp only [List.zip_cons_cons, List.zipIdx_cons, List.mapM_cons, Option.bind_eq_bind, Option.bind_eq_some_iff,
    Option.pure_def, Option.some_inj] at encrypted
  obtain ⟨first, one, others, rest, made⟩ := encrypted
  exact ⟨first, others, one, rest, made.symm⟩

theorem scalarInteger_coordinateBytes (share : Scalar) : scalarInteger (coordinateBytes share.val) = share.val :=
  coordinateBytes_value (scalar_val_lt share)

/-- The published commitment is that of the share exactly for the shares without a midpoint window. -/
theorem encryptShare_commitment_iff {idx : ℕ} {share : Scalar} {columnArms : ColumnArms G2} {key : GT}
    {operator : ArmedOperator G2 GT}
    (encrypted : encryptShare library binding idx share columnArms key = some operator) :
    operator.adaptorCommitmentArkworks = compressSecpPoint (share • secpGenerator) ↔ MidpointFree share.val := by
  rw [encryptShare, Option.bind_eq_bind, Option.bind_eq_some_iff] at encrypted
  obtain ⟨ciphertext, -, made⟩ := encrypted
  cases made
  have right := scalarBytesToPoint_right_iff secpGenerator_order (coordinateBytes share.val)
  rw [scalarInteger_coordinateBytes, Nat.mod_eq_of_lt (ZMod.val_lt share), val_smul] at right
  rw [← right]
  exact compressSecpPoint_injective.eq_iff

/-- Operator by operator, the published commitment is that of the share exactly for a share without a midpoint window. -/
theorem encryptShares_commitments_iff {operators : List OperatorArming} {arms : List (ColumnArms G2 × GT)}
    {published : List (ArmedOperator G2 GT)} (paired : arms.length = operators.length)
    (encrypted : encryptShares library binding operators arms = some published) :
    published.length = operators.length ∧ ∀ entry ∈ operators.zip published,
      (entry.2.adaptorCommitmentArkworks = compressSecpPoint (entry.1.adaptorShare • secpGenerator) ↔
        MidpointFree entry.1.adaptorShare.val) := by
  rw [encryptShares] at encrypted
  -- The indices of the remaining operators start anywhere.
  generalize 0 = start at encrypted
  induction operators generalizing arms published start with
  | nil =>
      cases encrypted
      exact ⟨rfl, nofun⟩
  | cons operator rest ih =>
      obtain ⟨entry, arms, rfl⟩ := List.exists_cons_of_length_eq_add_one paired
      obtain ⟨first, others, one, following, rfl⟩ := encryptShares_cons encrypted
      obtain ⟨count, each⟩ := ih (Nat.succ.inj paired) (start + 1) following
      exact ⟨congrArg (· + 1) count, List.forall_mem_cons.mpr ⟨encryptShare_commitment_iff one, each⟩⟩

end Publication

section Runs

variable {F G1 G2 GT D : Type} [Field F] [AddCommGroup G1] [Module F G1] [AddCommGroup G2] [Module F G2]
variable [AddCommGroup GT] [Module F GT] [DecidableEq F] [DecidableEq G1] [DecidableEq G2] [DecidableEq GT]
variable [DecidableEq D]
variable {library : BridgeLibrary G2 GT} {binding : BridgeBinding} {e : Pairing F G1 G2 GT}
variable {commitments : OneSidedCommitments G1} {debugAssertions : Bool}

omit [DecidableEq F] in
/-- A share of an operator is recovered once its arms open to the expected key. -/
theorem recoverShare_encryptShare {idx : ℕ} {share : Scalar} {columnArms : ColumnArms G2} {key : GT}
    {operator : ArmedOperator G2 GT} (nonzero : share ≠ 0)
    (encrypted : encryptShare library binding idx share columnArms key = some operator)
    (opens : decapsulate debugAssertions e commitments columnArms = .ok key) :
    recoverShare library binding e debugAssertions commitments idx operator = some share := by
  rw [encryptShare, Option.bind_eq_bind, Option.bind_eq_some_iff] at encrypted
  obtain ⟨ciphertext, encrypted, made⟩ := encrypted
  cases made
  have length : (coordinateBytes share.val).toList.length = 32 := Vector.length_toList
  have digest : toArray32 (coordinateBytes share.val).toList = coordinateBytes share.val :=
    Vector.toList_inj.mp (toArray32_toList length)
  have canonical : scalarFromRepr (coordinateBytes share.val) = some share.val := by
    rw [scalarFromRepr, coordinateBytes_value (scalar_val_lt share), if_pos (ZMod.val_lt share)]
  simp [recoverShare, opens, Except.toOption, verifyKeyCommitment, decrypt_of_encrypt encrypted, length, digest,
    canonical, nonzero]

omit [DecidableEq F] in
/-- All shares are recovered by commitments that open all arms to their keys. -/
theorem recoverShares_encryptShares {operators : List OperatorArming} {arms : List (ColumnArms G2 × GT)}
    {published : List (ArmedOperator G2 GT)} (paired : arms.length = operators.length)
    (encrypted : encryptShares library binding operators arms = some published)
    (opens : ∀ entry ∈ arms, decapsulate debugAssertions e commitments entry.1 = .ok entry.2) :
    recoverShares library binding e debugAssertions commitments published =
      some (operators.map OperatorArming.adaptorShare) := by
  rw [encryptShares] at encrypted
  rw [recoverShares]
  -- The indices of the remaining operators start anywhere.
  generalize 0 = start at encrypted ⊢
  induction operators generalizing arms published start with
  | nil =>
      cases encrypted
      rfl
  | cons operator rest ih =>
      obtain ⟨entry, arms, rfl⟩ := List.exists_cons_of_length_eq_add_one paired
      obtain ⟨first, others, one, following, rfl⟩ := encryptShares_cons encrypted
      obtain ⟨opensFirst, opensOthers⟩ := List.forall_mem_cons.mp opens
      have recovered := ih (Nat.succ.inj paired) opensOthers (start + 1) following
      rw [List.zipIdx_cons, List.mapM_cons, recoverShare_encryptShare operator.nonzero one opensFirst, recovered]
      rfl

omit [DecidableEq GT] in
theorem mapM_armColumns {bases : ColumnBases G2} {r : GT} {rhos : List F} {arms : List (ColumnArms G2 × GT)}
    (mapped : (rhos.mapM fun rho => do
      let arms ← (armColumns bases rho).toOption
      return (arms, rho • r)) = some arms) :
    arms.length = rhos.length ∧ ∀ entry ∈ arms, ∃ rho : F, armColumns bases rho = .ok entry.1 ∧ entry.2 = rho • r := by
  induction rhos generalizing arms with
  | nil =>
      cases mapped
      exact ⟨rfl, nofun⟩
  | cons rho rhos ih =>
      simp only [List.mapM_cons, Option.bind_eq_bind, Option.bind_eq_some_iff, Option.pure_def,
        Option.some_inj] at mapped
      obtain ⟨first, ⟨raised, one, rfl⟩, others, mapped, rfl⟩ := mapped
      obtain ⟨count, each⟩ := ih mapped
      cases armed : armColumns bases rho with
      | error fault =>
          rw [armed] at one
          cases one
      | ok columnArms =>
          rw [armed] at one
          cases one
          exact ⟨congrArg (· + 1) count, List.forall_mem_cons.mpr ⟨⟨rho, armed, rfl⟩, each⟩⟩

/-- The arms of all operators raise the same bases, and their keys the same target. -/
theorem armOperators_cons {hashG2 : G2 → D} {pvugcVk : PvugcVk G2 GT} {vk : VerifyingKey G1 G2}
    {publicInputs : List F} {rho : F} {rhos : List F} {arms : List (ColumnArms G2 × GT)}
    (armed : armOperators e hashG2 pvugcVk vk publicInputs (rho :: rhos) = some arms) :
    ∃ bases initial r key, setupAndArm e hashG2 pvugcVk vk publicInputs rho = .ok (bases, initial, r, key) ∧
      arms.length = rhos.length + 1 ∧
      ∀ entry ∈ arms, ∃ rho : F, armColumns bases rho = .ok entry.1 ∧ entry.2 = rho • r := by
  rw [armOperators] at armed
  cases setup : setupAndArm e hashG2 pvugcVk vk publicInputs rho with
  | error fault =>
      rw [setup] at armed
      cases armed
  | ok result =>
      obtain ⟨bases, initial, r, key⟩ := result
      rw [setup, Except.toOption, Option.bind_eq_bind, Option.bind_some] at armed
      obtain ⟨others, mapped, made⟩ := Option.bind_eq_some_iff.mp armed
      cases made
      obtain ⟨-, -, -, -, -, -, first, expected⟩ := setupAndArm_eq_ok.mp setup
      obtain ⟨count, each⟩ := mapM_armColumns mapped
      exact ⟨bases, initial, r, key, rfl, congrArg (· + 1) count,
        List.forall_mem_cons.mpr ⟨⟨rho, first, expected⟩, each⟩⟩

variable {backend : PolynomialBackend F} {m : ConstraintMatrices F} {waste : Trapdoor F} {g1 : G1} {g2 : G2}
variable {pk : ProvingKey G1 G2} {hashG2 : G2 → D} {z : Assignment m} {rhos : List F}
variable {arms : List (ColumnArms G2 × GT)} {published : List (ArmedOperator G2 GT)}
variable {sha256 : List UInt8 → Digest} {operators : List OperatorArming} {nonces : List Nonce} {message : Digest}
variable {package : PreSignaturePackage}

/-- A proof of the statement opens the shares of all operators, and their sum completes the pre-signature to a
signature that is accepted for the output key; without one of the shares it is not. -/
theorem spend_armed (generated : generateParametersWithQap backend m waste g1 g2 = .ok pk)
    (characteristic : (e.modulus : F) = 0) (deriveRTheta : G1 → G1 → F → F) (satisfied : z.Satisfies)
    (armed : armOperators e hashG2 (PvugcVk.ofProvingKey pk (List.replicate m.numInstanceVariables 0)) pk.vk
      z.publicInputs rhos = some arms)
    (armedCount : rhos.length = operators.length) (nonceCount : nonces.length = operators.length)
    (encrypted : encryptShares library binding operators arms = some published)
    (signed : presign sha256 operators nonces message = some package) (r s : F) :
    (∃ proof commitments,
      proveAndBuildCommitments backend deriveRTheta pk z r s = .ok (proof, commitments, z.fullAssignment, s) ∧
      ∀ debugAssertions,
        recoverShares library binding e debugAssertions commitments published =
          some (operators.map OperatorArming.adaptorShare) ∧
        ∃ sig, spend library binding e debugAssertions commitments package published = some sig ∧
          verifySchnorrSignature sha256 package.outputKey message.toList sig = some true) ∧
    ∀ front operator back, operators = front ++ operator :: back →
      ∃ sig, package.complete ((front ++ back).map OperatorArming.adaptorShare).sum = some sig ∧
        verifySchnorrSignature sha256 package.outputKey message.toList sig ≠ some true := by
  obtain ⟨rfl, k, d, spec⟩ := presign_spec nonceCount signed
  constructor
  · have positive : rhos.length ≠ 0 := by
      rw [armedCount]
      exact mt List.length_eq_zero_iff.mp (presign_ne_nil signed)
    obtain ⟨rho, others, rfl⟩ := List.exists_cons_of_ne_nil (mt List.length_eq_zero_iff.mpr positive)
    obtain ⟨bases, initial, target, key, setup, count, each⟩ := armOperators_cons armed
    obtain ⟨proof, commitments, path, -, -, lengths, reached⟩ :=
      honestBundle_exists generated deriveRTheta satisfied setup r s
    refine ⟨proof, commitments, path, fun debugAssertions => ?_⟩
    have opens : ∀ entry ∈ arms, decapsulate debugAssertions e commitments entry.1 = .ok entry.2 := by
      intro entry member
      obtain ⟨rho, raised, expected⟩ := each entry member
      rw [expected]
      exact decapsulate_reached characteristic lengths reached raised debugAssertions
    have recovered := recoverShares_encryptShares (count.trans armedCount) encrypted opens
    obtain ⟨sig, complete, accepted⟩ := spec.complete_iff (adaptorSecret operators)
    refine ⟨recovered, sig, ?_, accepted.mpr rfl⟩
    rw [spend, recovered]
    exact complete
  · intro front operator back split
    subst split
    obtain ⟨sig, complete, accepted⟩ := spec.complete_iff ((front ++ back).map OperatorArming.adaptorShare).sum
    refine ⟨sig, complete, fun valid => operator.nonzero ?_⟩
    have missing := accepted.mp valid
    simp only [adaptorSecret, List.map_append, List.map_cons, List.sum_append, List.sum_cons] at missing
    linear_combination -missing

end Runs

section Sample

/-- A library over the residues, whose codes are a byte for each residue. -/
def bridgeSample : BridgeLibrary (ZMod 13) (ZMod 13) where
  sponge := recorder Fr
  serializeGt k := [UInt8.ofNat k.val]
  serializeArms arms := (arms.yColsRho ++ [arms.deltaRho]).map fun y => UInt8.ofNat y.val

def emptyBinding : BridgeBinding where
  vkHash := coordinateBytes 0
  xHash := coordinateBytes 0
  ctxHash := coordinateBytes 0
  tapleafHash := coordinateBytes 0
  txTemplate := []
  tAggregate := []
  gsDigest := coordinateBytes 0

theorem encryptShares_pair (first second : ColumnArms (ZMod 13) × ZMod 13) : ∃ published,
    encryptShares bridgeSample emptyBinding operatorPair [first, second] = some published := by
  simp [encryptShares, encryptShare, operatorPair, DemP2.encrypt, DemP2.deriveKeystream_eq]

/-- The share with the midpoint window gets another commitment, the share one its own. -/
theorem encryptShares_commitments_pair : ∃ first second,
    encryptShares bridgeSample emptyBinding operatorPair
      [({ yColsRho := [11, 1], deltaRho := 10 }, 5), ({ yColsRho := [10, 8], deltaRho := 2 }, 1)] =
        some [first, second] ∧
    first.adaptorCommitmentArkworks ≠ compressSecpPoint (evenOperator.adaptorShare • secpGenerator) ∧
    second.adaptorCommitmentArkworks = compressSecpPoint (oddOperator.adaptorShare • secpGenerator) := by
  obtain ⟨published, encrypted⟩ := encryptShares_pair
    ({ yColsRho := [11, 1], deltaRho := 10 }, 5) ({ yColsRho := [10, 8], deltaRho := 2 }, 1)
  obtain ⟨count, each⟩ := encryptShares_commitments_iff rfl encrypted
  obtain ⟨first, second, rfl⟩ := List.length_eq_two.mp count
  have windowed : ¬MidpointFree evenOperator.adaptorShare.val := by decide
  have plain : MidpointFree oddOperator.adaptorShare.val := by decide
  exact ⟨first, second, encrypted, (each (evenOperator, first) (by simp [operatorPair])).not.mpr windowed,
    (each (oddOperator, second) (by simp [operatorPair])).mpr plain⟩

/-- Two operators arm for a product and spend with a proof of it. -/
theorem spend_armed_pair :
    ∃ (pk : ProvingKey (ZMod 13) (ZMod 13)) (arms : List (ColumnArms (ZMod 13) × ZMod 13))
      (published : List (ArmedOperator (ZMod 13) (ZMod 13))) (package : PreSignaturePackage)
      (commitments : OneSidedCommitments (ZMod 13)) (sig : Vector UInt8 64),
      armOperators (mulPairing (ZMod 13) 13) id (PvugcVk.ofProvingKey pk [0, 0]) pk.vk [3] [2, 3] = some arms ∧
      encryptShares bridgeSample emptyBinding operatorPair arms = some published ∧
      presign Hash.sha256 operatorPair noncePair (coordinateBytes 0) = some package ∧
      spend bridgeSample emptyBinding (mulPairing (ZMod 13) 13) true commitments package published = some sig ∧
      verifySchnorrSignature Hash.sha256 package.outputKey (coordinateBytes 0).toList sig = some true := by
  set pk : ProvingKey (ZMod 13) (ZMod 13) := productWaste.provingKey fourthRoots publicProduct 1 1
  have generated : generateParametersWithQap smallBackend publicProduct productWaste 1 1 = .ok pk :=
    generateParametersWithQap_eq_ok.mpr ⟨by decide, by decide, fourthRoots, rfl, rfl⟩
  have setup : setupAndArm (mulPairing (ZMod 13) 13) id
      (PvugcVk.ofProvingKey pk (List.replicate publicProduct.numInstanceVariables (0 : ZMod 13)))
      pk.vk publicProductOfThree.publicInputs 2 =
        .ok ({ yCols := [12, 7], delta := 5 }, { yColsRho := [11, 1], deltaRho := 10 }, 9, 5) := by
    decide +kernel
  have armed : armOperators (mulPairing (ZMod 13) 13) id
      (PvugcVk.ofProvingKey pk (List.replicate publicProduct.numInstanceVariables (0 : ZMod 13)))
      pk.vk publicProductOfThree.publicInputs [2, 3] =
        some [({ yColsRho := [11, 1], deltaRho := 10 }, 5), ({ yColsRho := [10, 8], deltaRho := 2 }, 1)] := by
    rw [armOperators, setup]
    rfl
  obtain ⟨published, encrypted⟩ := encryptShares_pair
    ({ yColsRho := [11, 1], deltaRho := 10 }, 5) ({ yColsRho := [10, 8], deltaRho := 2 }, 1)
  obtain ⟨package, signed, -, -⟩ := presign_pair
  obtain ⟨⟨proof, commitments, -, spends⟩, -⟩ := spend_armed generated (by decide) (fun a c s => a + c + s)
    (by decide : publicProductOfThree.Satisfies) armed rfl rfl encrypted signed 6 7
  obtain ⟨-, sig, spent, accepted⟩ := spends true
  exact ⟨pk, _, published, package, commitments, sig, armed, encrypted, signed, spent, accepted⟩

end Sample

end Pvugc.Adaptor
