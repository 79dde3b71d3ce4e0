import Pvugc.Adaptor.AdaptorVeProof
import Pvugc.Adaptor.BountyPackage
import Pvugc.Adaptor.BountyStatement
import Pvugc.Adaptor.KeyCommitment
import Pvugc.Bitcoin.AdaptorSignature
import Pvugc.Hash.Sha256
import Pvugc.OneSided.HonestBundle

namespace Pvugc.Adaptor
open Pvugc.Algebra Pvugc.Bitcoin Pvugc.Encoding Pvugc.Groth16 Pvugc.OneSided Pvugc.Secp

/-- The third-party code under the binary: the hashes, the codes, the curve and the synthesis, whose matrices only depend
on the length of the passphrase and on the context. -/
structure BountyLibrary (G1 G2 GT D : Type) [AddCommGroup G1] [Module Fr G1] [AddCommGroup G2] [Module Fr G2]
    [AddCommGroup GT] [Module Fr GT] where
  sponge : PoseidonSponge Fr
  squeezeFieldElement : sponge.State → Fr
  sha256 : List UInt8 → Digest
  hashG2 : G2 → D
  deriveRTheta : G1 → G1 → Fr → Fr
  codes : PointCodes G1 G2
  serializeGt : GT → List UInt8
  backend : PolynomialBackend Fr
  pairing : Pairing Fr G1 G2 GT
  characteristic : (pairing.modulus : Fr) = 0
  p2wpkh : Scalar → String
  p2wpkh_length : ∀ secret, (asBytes (p2wpkh secret)).length < 256 ^ 4
  matrices : ℕ → List UInt8 → ConstraintMatrices Fr
  matrices_fit : ∀ count ctx, (matrices count ctx).numVars < 256 ^ 8
  synthesize : PreimageCircuit Fr → Option ((m : ConstraintMatrices Fr) × Assignment m)
  synthesize_eq : ∀ (h : Fr) (passphrase ctx : List UInt8), ∃ z : Assignment (matrices passphrase.length ctx),
    synthesize ⟨some h, some passphrase, ctx⟩ = some ⟨_, z⟩ ∧ z.publicInputs = [h] ∧
      (z.Satisfies ↔
        PreimageCircuit.generateConstraints sponge squeezeFieldElement ⟨some h, some passphrase, ctx⟩ = some true)

/-- How `decap` ends without a key; a share is given by its index. -/
inductive DecapExit where
  | statementHashMismatch
  | proofVerificationFailed
  | tagMismatch (idx : ℕ)
  | invalidShareLength (idx : ℕ)
  | addressMismatch
  | panic
  deriving DecidableEq

section Code

variable {G1 G2 GT D : Type} [AddCommGroup G1] [Module Fr G1] [AddCommGroup G2] [Module Fr G2] [AddCommGroup GT]
variable [Module Fr GT] [DecidableEq G1] [DecidableEq G2] [DecidableEq GT] [DecidableEq D]
variable (library : BountyLibrary G1 G2 GT D)

/-- The statement hash of a passphrase and a context. -/
def statementHash (passphrase ctx : List UInt8) : Fr :=
  library.squeezeFieldElement (statementState library.sponge passphrase ctx)

def buildBountyAdCore (vk : VerifyingKey G1 G2) (h : Fr) (shareIndex : ℕ) (colArms : ColumnArms G2) : List UInt8 :=
  let vkHash := library.sha256 (serializeVk library.codes vk)
  let hHash := library.sha256 (frCode.serialize h)
  asBytes "PVUGC/BOUNTY/v1" ++ vkHash.toList ++ hHash.toList ++ toLeBytes 4 shareIndex ++
    serializeArms library.codes colArms

/-- One round of the loop of `arm` over the shares; `none` is a panic. -/
def armShare (pvugcVk : PvugcVk G2 GT) (vk : VerifyingKey G1 G2) (h : Fr) (idx : ℕ) (share : Scalar) (rho : Fr) :
    Option (BountyShare G2) := do
  let (_, colArms, _, k) ← (setupAndArm library.pairing library.hashG2 pvugcVk vk [h] rho).toOption
  let shareBytes := (coordinateBytes share.val).toList
  let adCore := buildBountyAdCore library vk h idx colArms
  let kBytes := library.serializeGt k
  let ciphertext ← (DemP2.new library.sponge kBytes adCore).encrypt library.sponge shareBytes
  let tau := computeKeyCommitmentTag library.sponge kBytes adCore ciphertext
  return ⟨colArms, ciphertext, tau⟩

/-- The contents of the file that `arm` writes, with the randomness that it draws; `none` is a panic. -/
def arm (passphrase ctx : List UInt8) (waste : Trapdoor Fr) (g1 : G1) (g2 : G2) (alpha share1 : Scalar)
    (rho1 rho2 : Fr) : Option (List UInt8) := do
  let h := statementHash library passphrase ctx
  let circuit : PreimageCircuit Fr := ⟨some h, some passphrase, ctx⟩
  let ⟨m, _⟩ ← library.synthesize circuit
  let pk ← (generateParametersWithQap library.backend m waste g1 g2).toOption
  let qDummy := List.replicate pk.vk.gammaAbcG1.length 0
  let pvugcVk := PvugcVk.ofProvingKey pk qDummy
  let share2 := alpha - share1
  if alpha = 0 then none
  let first ← armShare library pvugcVk pk.vk h 0 share1 rho1
  let second ← armShare library pvugcVk pk.vk h 1 share2 rho2
  return writeBountyPackage library.codes ⟨library.p2wpkh alpha, h, pk, [first, second]⟩

/-- One round of the loop of `decap` over the shares of the package. -/
def openShare (debugAssertions : Bool) (vk : VerifyingKey G1 G2) (h : Fr) (commitments : OneSidedCommitments G1)
    (idx : ℕ) (share : BountyShare G2) : Except DecapExit Scalar :=
  match decapsulate debugAssertions library.pairing commitments share.colArms with
  | .error _ => .error .panic
  | .ok kDec =>
    let adCore := buildBountyAdCore library vk h idx share.colArms
    let kBytes := library.serializeGt kDec
    if !verifyKeyCommitment library.sponge kBytes adCore share.ciphertext share.tau then .error (.tagMismatch idx)
    else match (DemP2.new library.sponge kBytes adCore).decrypt library.sponge share.ciphertext with
    | none => .error .panic
    | some plain =>
      if plain.length ≠ 32 then .error (.invalidShareLength idx)
      else .ok (reduceScalar (toArray32 plain) : Scalar)

/-- The loop over the shares adds what they hold. -/
def openShares (debugAssertions : Bool) (vk : VerifyingKey G1 G2) (h : Fr) (commitments : OneSidedCommitments G1)
    (shares : List (BountyShare G2)) : Except DecapExit Scalar :=
  shares.zipIdx.foldlM (fun recovered (share, idx) =>
    (recovered + ·) <$> openShare library debugAssertions vk h commitments idx share) 0

/-- The secret that `decap` derives from a file, with the randomizers of its proof. -/
def decapBounty (debugAssertions : Bool) (passphrase ctx data : List UInt8) (r s : Fr) : Except DecapExit Scalar :=
  let h := statementHash library passphrase ctx
  match readBountyPackage library.codes data with
  | none => .error .panic
  | some package =>
    let vk := package.pk.vk
    if package.h ≠ h then .error .statementHashMismatch
    else match library.synthesize ⟨some package.h, some passphrase, ctx⟩ with
    | none => .error .panic
    | some ⟨_, z⟩ =>
      match proveAndBuildCommitments library.backend library.deriveRTheta package.pk z r s with
      | .error _ => .error .panic
      | .ok (proof, commitments, _, _) =>
        match verify library.pairing vk [package.h] proof with
        | .error _ => .error .panic
        | .ok false => .error .proofVerificationFailed
        | .ok true => do
          let recovered ← openShares library debugAssertions vk package.h commitments package.shares
          if recovered = 0 then .error .panic
          else if package.addr ≠ library.p2wpkh recovered then .error .addressMismatch
          else .ok recovered

end Code

section Runs

variable {G1 G2 GT D : Type} [AddCommGroup G1] [Module Fr G1] [AddCommGroup G2] [Module Fr G2] [AddCommGroup GT]
variable [Module Fr GT] [DecidableEq G1] [DecidableEq G2] [DecidableEq GT] [DecidableEq D]
variable {library : BountyLibrary G1 G2 GT D}

/-- The bytes of a scalar reduce to the scalar. -/
theorem reduceScalar_coordinateBytes (share : Scalar) : (reduceScalar (coordinateBytes share.val) : Scalar) = share := by
  rw [reduceScalar, coordinateBytes_value (scalar_val_lt share), Nat.mod_eq_of_lt (ZMod.val_lt share),
    ZMod.natCast_zmod_val]

/-- What a round of `arm` publishes. -/
theorem armShare_eq_some {pvugcVk : PvugcVk G2 GT} {vk : VerifyingKey G1 G2} {h : Fr} {idx : ℕ} {share : Scalar}
    {rho : Fr} {made : BountyShare G2} (armed : armShare library pvugcVk vk h idx share rho = some made) :
    ∃ bases target k, setupAndArm library.pairing library.hashG2 pvugcVk vk [h] rho =
        .ok (bases, made.colArms, target, k) ∧
      (DemP2.new library.sponge (library.serializeGt k) (buildBountyAdCore library vk h idx made.colArms)).encrypt
        library.sponge (coordinateBytes share.val).toList = some made.ciphertext ∧
      computeKeyCommitmentTag library.sponge (library.serializeGt k)
        (buildBountyAdCore library vk h idx made.colArms) made.ciphertext = made.tau := by
  rw [armShare] at armed
  cases setup : setupAndArm library.pairing library.hashG2 pvugcVk vk [h] rho with
  | error fault =>
      rw [setup] at armed
      cases armed
  | ok result =>
      obtain ⟨bases, colArms, target, k⟩ := result
      rw [setup, Except.toOption, Option.bind_eq_bind, Option.bind_some] at armed
      obtain ⟨ciphertext, encrypted, rest⟩ := Option.bind_eq_some_iff.mp armed
      cases rest
      exact ⟨bases, target, k, rfl, encrypted, rfl⟩

/-- A share opens with the key of its arms. -/
theorem openShare_armShare {pvugcVk : PvugcVk G2 GT} {vk : VerifyingKey G1 G2} {h : Fr} {idx : ℕ} {share : Scalar}
    {rho : Fr} {made : BountyShare G2} (armed : armShare library pvugcVk vk h idx share rho = some made)
    {debugAssertions : Bool} {commitments : OneSidedCommitments G1}
    (reaches : ∀ bases target key, setupAndArm library.pairing library.hashG2 pvugcVk vk [h] rho =
      .ok (bases, made.colArms, target, key) →
        decapsulate debugAssertions library.pairing commitments made.colArms = .ok key) :
    openShare library debugAssertions vk h commitments idx made = .ok share := by
  obtain ⟨bases, target, k, setup, encrypted, tagged⟩ := armShare_eq_some armed
  have committed : verifyKeyCommitment library.sponge (library.serializeGt k)
      (buildBountyAdCore library vk h idx made.colArms) made.ciphertext made.tau = true := decide_eq_true tagged
  have length : (coordinateBytes share.val).toList.length = 32 := Vector.length_toList
  have digest : toArray32 (coordinateBytes share.val).toList = coordinateBytes share.val :=
    Vector.toList_inj.mp (toArray32_toList length)
  rw [openShare, reaches bases target k setup]
  simp only [committed, decrypt_of_encrypt encrypted, length, digest, reduceScalar_coordinateBytes, Bool.not_true,
    Bool.false_eq_true, if_false, ne_eq, not_true_eq_false]

/-- What `arm` writes. -/
theorem arm_eq_some {passphrase ctx : List UInt8} {waste : Trapdoor Fr} {g1 : G1} {g2 : G2} {alpha share1 : Scalar}
    {rho1 rho2 : Fr} {data : List UInt8}
    (armed : arm library passphrase ctx waste g1 g2 alpha share1 rho1 rho2 = some data) :
    ∃ pk first second, alpha ≠ 0 ∧
      generateParametersWithQap library.backend (library.matrices passphrase.length ctx) waste g1 g2 = .ok pk ∧
      armShare library (PvugcVk.ofProvingKey pk (List.replicate pk.vk.gammaAbcG1.length 0)) pk.vk
        (statementHash library passphrase ctx) 0 share1 rho1 = some first ∧
      armShare library (PvugcVk.ofProvingKey pk (List.replicate pk.vk.gammaAbcG1.length 0)) pk.vk
        (statementHash library passphrase ctx) 1 (alpha - share1) rho2 = some second ∧
      data = writeBountyPackage library.codes
        ⟨library.p2wpkh alpha, statementHash library passphrase ctx, pk, [first, second]⟩ := by
  obtain ⟨z, synthesized, -, -⟩ := library.synthesize_eq (statementHash library passphrase ctx) passphrase ctx
  rw [arm] at armed
  dsimp only at armed
  rw [synthesized] at armed
  cases generated : generateParametersWithQap library.backend (library.matrices passphrase.length ctx) waste g1 g2 with
  | error fault =>
      rw [Option.bind_eq_bind, Option.bind_some, generated] at armed
      cases armed
  | ok pk =>
      rw [Option.bind_eq_bind, Option.bind_some, generated, Except.toOption, Option.bind_eq_bind,
        Option.bind_some] at armed
      by_cases zero : alpha = 0
      · rw [if_pos zero] at armed
        cases armed
      · rw [if_neg zero] at armed
        obtain ⟨first, one, rest⟩ := Option.bind_eq_some_iff.mp armed
        obtain ⟨second, two, written⟩ := Option.bind_eq_some_iff.mp rest
        cases written
        exact ⟨pk, first, second, zero, rfl, one, two, rfl⟩

/-- The key of a system whose variables fit in a machine word has machine lengths. -/
theorem generatedKey_fitsWord {backend : PolynomialBackend Fr} {m : ConstraintMatrices Fr} {waste : Trapdoor Fr}
    {g1 : G1} {g2 : G2} {pk : ProvingKey G1 G2} (generated : generateParametersWithQap backend m waste g1 g2 = .ok pk)
    (fits : m.numVars < 256 ^ 8) : FitsWord pk := by
  obtain ⟨-, -, domain, -, rfl⟩ := generateParametersWithQap_eq_ok.mp generated
  have instances : m.numInstanceVariables < 256 ^ 8 := (Nat.le_add_right _ _).trans_lt fits
  have witnesses : m.numWitnessVariables < 256 ^ 8 := (Nat.le_add_left _ _).trans_lt fits
  have quotients : domain.size - 1 < 256 ^ 8 := by
    have word := domain.fitsWord
    omega
  simp only [FitsWord, Trapdoor.provingKey, tabulate_length]
  exact ⟨instances, fits, fits, fits, quotients, witnesses⟩

/-- A ciphertext has the length of its plaintext. -/
theorem DemP2.encrypt_length {sponge : PoseidonSponge Fr} {dem : DemP2} {plaintext ciphertext : List UInt8}
    (encrypted : dem.encrypt sponge plaintext = some ciphertext) : ciphertext.length = plaintext.length := by
  rw [DemP2.encrypt, DemP2.deriveKeystream_eq] at encrypted
  cases encrypted
  rw [List.length_zipWith, sponge.squeezeBytes_length, Nat.min_self]

/-- The lengths of a published share. -/
theorem armShare_lengths {m : ConstraintMatrices Fr} {waste : Trapdoor Fr} {g1 : G1} {g2 : G2} {pk : ProvingKey G1 G2}
    (generated : generateParametersWithQap library.backend m waste g1 g2 = .ok pk) {q : List GT} {h : Fr} {idx : ℕ}
    {share : Scalar} {rho : Fr} {made : BountyShare G2}
    (armed : armShare library (PvugcVk.ofProvingKey pk q) pk.vk h idx share rho = some made) :
    made.ciphertext.length = 32 ∧ made.colArms.yColsRho.length = m.numWitnessVariables + 1 := by
  obtain ⟨bases, target, k, setup, encrypted, -⟩ := armShare_eq_some armed
  constructor
  · rw [DemP2.encrypt_length encrypted, Vector.length_toList]
  · obtain ⟨-, -, -, -, built, -, published, -⟩ := setupAndArm_eq_ok.mp setup
    obtain ⟨-, -, domain, -, rfl⟩ := generateParametersWithQap_eq_ok.mp generated
    obtain ⟨-, -, rfl⟩ := (waste.buildColumnBases_provingKey domain m g1 g2 q).mp built
    obtain ⟨-, -, arms⟩ := armColumns_eq_ok.mp published
    rw [arms, List.length_map, Trapdoor.columnBases, List.length_cons, tabulate_length]

/-- The circuit of a pair accepts the statement hash of the pair. -/
theorem synthesize_statementHash (library : BountyLibrary G1 G2 GT D) (passphrase ctx : List UInt8) :
    ∃ z : Assignment (library.matrices passphrase.length ctx),
      library.synthesize ⟨some (statementHash library passphrase ctx), some passphrase, ctx⟩ = some ⟨_, z⟩ ∧
        z.publicInputs = [statementHash library passphrase ctx] ∧ z.Satisfies := by
  obtain ⟨z, synthesized, inputs, satisfies⟩ :=
    library.synthesize_eq (statementHash library passphrase ctx) passphrase ctx
  have accepts : PreimageCircuit.generateConstraints library.sponge library.squeezeFieldElement
      ⟨some (statementHash library passphrase ctx), some passphrase, ctx⟩ = some true := by
    rw [PreimageCircuit.generateConstraints, Option.bind_eq_bind, Option.bind_some, Option.bind_eq_bind,
      Option.bind_some, PreimageCircuit.spongeState_eq]
    exact congrArg some (decide_eq_true rfl)
  exact ⟨z, synthesized, inputs, satisfies.mpr accepts⟩

variable {passphrase ctx : List UInt8} {waste : Trapdoor Fr} {g1 : G1} {g2 : G2} {alpha share1 : Scalar}
variable {rho1 rho2 : Fr} {data : List UInt8}

/-- A round of `arm` completes with its setup. -/
theorem armShare_exists {pvugcVk : PvugcVk G2 GT} {vk : VerifyingKey G1 G2} {h : Fr} {rho : Fr}
    {result : ColumnBases G2 × ColumnArms G2 × GT × GT}
    (setup : setupAndArm library.pairing library.hashG2 pvugcVk vk [h] rho = .ok result) (idx : ℕ) (share : Scalar) :
    ∃ made, armShare library pvugcVk vk h idx share rho = some made := by
  obtain ⟨bases, colArms, target, k⟩ := result
  rw [armShare, setup, Except.toOption, Option.bind_eq_bind, Option.bind_some]
  dsimp only
  rw [DemP2.encrypt, DemP2.deriveKeystream_eq]
  exact ⟨_, rfl⟩

/-- The randomness of a completed setup and a nonzero secret are enough for a file. -/
theorem arm_exists {pk : ProvingKey G1 G2} {result1 result2 : ColumnBases G2 × ColumnArms G2 × GT × GT}
    (generated : generateParametersWithQap library.backend (library.matrices passphrase.length ctx) waste g1 g2 = .ok pk)
    (nonzero : alpha ≠ 0) (share1 : Scalar)
    (setup1 : setupAndArm library.pairing library.hashG2
      (PvugcVk.ofProvingKey pk (List.replicate pk.vk.gammaAbcG1.length 0)) pk.vk
        [statementHash library passphrase ctx] rho1 = .ok result1)
    (setup2 : setupAndArm library.pairing library.hashG2
      (PvugcVk.ofProvingKey pk (List.replicate pk.vk.gammaAbcG1.length 0)) pk.vk
        [statementHash library passphrase ctx] rho2 = .ok result2) :
    ∃ data, arm library passphrase ctx waste g1 g2 alpha share1 rho1 rho2 = some data := by
  obtain ⟨z, synthesized, -, -⟩ := library.synthesize_eq (statementHash library passphrase ctx) passphrase ctx
  obtain ⟨first, one⟩ := armShare_exists setup1 0 share1
  obtain ⟨second, two⟩ := armShare_exists setup2 1 (alpha - share1)
  rw [arm]
  dsimp only
  rw [synthesized, Option.bind_eq_bind, Option.bind_some, generated, Except.toOption, Option.bind_eq_bind,
    Option.bind_some, if_neg nonzero, one, two]
  exact ⟨_, rfl⟩

/-- The lengths of the package of `arm`. -/
theorem arm_fits {pk : ProvingKey G1 G2} {first second : BountyShare G2} {h : Fr} {q : List GT}
    (generated : generateParametersWithQap library.backend (library.matrices passphrase.length ctx) waste g1 g2 = .ok pk)
    (one : armShare library (PvugcVk.ofProvingKey pk q) pk.vk h 0 share1 rho1 = some first)
    (two : armShare library (PvugcVk.ofProvingKey pk q) pk.vk h 1 (alpha - share1) rho2 = some second) :
    (⟨library.p2wpkh alpha, h, pk, [first, second]⟩ : BountyPackage G1 G2).Fits := by
  have fits := library.matrices_fit passphrase.length ctx
  have columns : (library.matrices passphrase.length ctx).numWitnessVariables + 1 < 256 ^ 8 := by
    have positive := (library.matrices passphrase.length ctx).instancePositive
    rw [ConstraintMatrices.numVars] at fits
    omega
  obtain ⟨ciphertext1, columns1⟩ := armShare_lengths generated one
  obtain ⟨ciphertext2, columns2⟩ := armShare_lengths generated two
  constructor
  case addr => exact library.p2wpkh_length alpha
  case pk => exact generatedKey_fitsWord generated fits
  case shares => exact (by decide : 2 < 256 ^ 4)
  case share =>
      have short : 32 < 256 ^ 4 := by decide
      intro share member
      rcases List.mem_cons.mp member with rfl | last
      · rw [ciphertext1, columns1]
        exact ⟨short, columns⟩
      · obtain rfl := List.mem_singleton.mp last
        rw [ciphertext2, columns2]
        exact ⟨short, columns⟩

/-- Two shares that open are added. -/
theorem openShares_pair {debugAssertions : Bool} {vk : VerifyingKey G1 G2} {h : Fr}
    {commitments : OneSidedCommitments G1} {first second : BountyShare G2} {share1 share2 : Scalar}
    (one : openShare library debugAssertions vk h commitments 0 first = .ok share1)
    (two : openShare library debugAssertions vk h commitments 1 second = .ok share2) :
    openShares library debugAssertions vk h commitments [first, second] = .ok (share1 + share2) := by
  simp only [openShares, List.zipIdx_cons, List.zipIdx_nil, List.foldlM_cons, List.foldlM_nil, Nat.zero_add, one, two]
  change Except.ok (0 + share1 + share2) = _
  rw [zero_add]

/-- The file of `arm` gives the secret back to the pair that it was armed for, whatever the randomness of the two runs and
the bytes behind the package; a pair with another statement hash and a truncated file give nothing. -/
theorem decapBounty_arm (armed : arm library passphrase ctx waste g1 g2 alpha share1 rho1 rho2 = some data) :
    (∀ debugAssertions rest r s,
      decapBounty library debugAssertions passphrase ctx (data ++ rest) r s = .ok alpha) ∧
      (∀ debugAssertions rest passphrase' ctx' r s,
        statementHash library passphrase' ctx' ≠ statementHash library passphrase ctx →
          decapBounty library debugAssertions passphrase' ctx' (data ++ rest) r s = .error .statementHashMismatch) ∧
      ∀ debugAssertions passphrase' ctx' r s front back, data = front ++ back → back ≠ [] →
        decapBounty library debugAssertions passphrase' ctx' front r s = .error .panic := by
  obtain ⟨pk, first, second, nonzero, generated, one, two, rfl⟩ := arm_eq_some armed
  have fits := arm_fits generated one two
  refine ⟨?_, ?_, ?_⟩
  · intro debugAssertions rest r s
    obtain ⟨z, synthesized, inputs, satisfied⟩ := synthesize_statementHash library passphrase ctx
    have length : pk.vk.gammaAbcG1.length = (library.matrices passphrase.length ctx).numInstanceVariables := by
      obtain ⟨-, -, domain, -, rfl⟩ := generateParametersWithQap_eq_ok.mp generated
      exact tabulate_length _ _
    -- The commitments of the one proof reach the key of both shares.
    have honest {rho : Fr} {bases : ColumnBases G2} {arms : ColumnArms G2} {target key : GT}
        (setup : setupAndArm library.pairing library.hashG2
          (PvugcVk.ofProvingKey pk (List.replicate pk.vk.gammaAbcG1.length 0)) pk.vk
            [statementHash library passphrase ctx] rho = .ok (bases, arms, target, key)) :
        ∃ proof commitments,
          proveAndBuildCommitments library.backend library.deriveRTheta pk z r s =
            .ok (proof, commitments, z.fullAssignment, s) ∧
          verify library.pairing pk.vk [statementHash library passphrase ctx] proof = .ok true ∧
          decapsulate debugAssertions library.pairing commitments arms = .ok key := by
      rw [length, ← inputs] at setup
      obtain ⟨proof, commitments, path, -, valid, columns, reached⟩ :=
        honestBundle_exists generated library.deriveRTheta satisfied setup r s
      rw [inputs] at valid
      obtain ⟨-, -, -, -, -, -, published, rfl⟩ := setupAndArm_eq_ok.mp setup
      exact ⟨proof, commitments, path, valid,
        decapsulate_reached library.characteristic columns reached published debugAssertions⟩
    obtain ⟨bases, target, k, setup, -, -⟩ := armShare_eq_some one
    obtain ⟨proof, commitments, path, valid, -⟩ := honest setup
    have reaches {rho : Fr} {arms : ColumnArms G2} (bases : ColumnBases G2) (target key : GT)
        (setup : setupAndArm library.pairing library.hashG2
          (PvugcVk.ofProvingKey pk (List.replicate pk.vk.gammaAbcG1.length 0)) pk.vk
            [statementHash library passphrase ctx] rho = .ok (bases, arms, target, key)) :
        decapsulate debugAssertions library.pairing commitments arms = .ok key := by
      obtain ⟨proof', commitments', path', -, reached⟩ := honest setup
      cases path.symm.trans path'
      exact reached
    have opened : openShares library debugAssertions pk.vk (statementHash library passphrase ctx) commitments
        [first, second] = .ok (share1 + (alpha - share1)) :=
      openShares_pair (openShare_armShare one reaches) (openShare_armShare two reaches)
    rw [add_sub_cancel] at opened
    rw [decapBounty, readBountyPackage_append library.codes fits rest]
    simp only [synthesized, path, valid, opened, ne_eq, not_true_eq_false, if_false]
    change (if alpha = 0 then _ else _) = _
    rw [if_neg nonzero, if_neg (not_not.mpr rfl)]
  · intro debugAssertions rest passphrase' ctx' r s different
    rw [decapBounty, readBountyPackage_append library.codes fits rest]
    exact if_pos different.symm
  · intro debugAssertions passphrase' ctx' r s front back split proper
    rw [decapBounty, readBountyPackage_truncated library.codes fits split proper]

end Runs

section Sample

/-- One row over the statement hash: the witness is one. -/
def acceptanceSystem : ConstraintMatrices Fr where
  numInstanceVariables := 2
  numWitnessVariables := 1
  numConstraints := 1
  a := [[(1, 2)]]
  b := [[(2, 0)]]
  c := [[(2, 0)]]
  instancePositive := Nat.two_pos
  aLength := rfl
  bLength := rfl
  cLength := rfl
  aColumns := by simp
  bColumns := by simp
  cColumns := by simp

def acceptanceAssignment (h : Fr) (accepts : Bool) : Assignment acceptanceSystem where
  instanceAssignment := [1, h]
  witnessAssignment := [bif accepts then 1 else 0]
  instanceLength := rfl
  witnessLength := rfl
  constantOne := rfl

theorem acceptanceAssignment_satisfies_iff (h : Fr) (accepts : Bool) :
    (acceptanceAssignment h accepts).Satisfies ↔ accepts = true := by
  constructor
  · intro satisfied
    have row := satisfied 0 (by decide)
    cases accepts
    · simp [acceptanceSystem, acceptanceAssignment, Assignment.fullAssignment, evaluateConstraint] at row
      exact absurd row (by decide)
    · rfl
  · rintro rfl i inside
    obtain rfl : i = 0 := Nat.lt_one_iff.mp inside
    simp [acceptanceSystem, acceptanceAssignment, Assignment.fullAssignment, evaluateConstraint]

/-- The sponge that records what it absorbs is squeezed to the sum of the record. -/
def sumSqueeze (sequence : List Fr) : Fr := sequence.sum

def bountySynthesize (circuit : PreimageCircuit Fr) : Option ((m : ConstraintMatrices Fr) × Assignment m) := do
  let h ← circuit.expectedHash
  let accepts ← PreimageCircuit.generateConstraints (recorder Fr) sumSqueeze circuit
  return ⟨acceptanceSystem, acceptanceAssignment h accepts⟩

/-- A library over the scalars, whose addresses only tell the parity of a key. -/
def bountySample : BountyLibrary Fr Fr Fr Fr where
  sponge := recorder Fr
  squeezeFieldElement := sumSqueeze
  sha256 := Hash.sha256
  hashG2 := id
  deriveRTheta a c s := a + c + s
  codes := ⟨frCode, frCode⟩
  serializeGt := frCode.serialize
  backend := sixteenthBackend
  pairing := mulPairing Fr frPrime
  characteristic := ZMod.natCast_self frPrime
  p2wpkh secret := if secret.val % 2 = 0 then "even" else "odd"
  p2wpkh_length secret := by split <;> decide
  matrices _ _ := acceptanceSystem
  matrices_fit _ _ := by decide
  synthesize := bountySynthesize
  synthesize_eq h passphrase ctx := by
    refine ⟨acceptanceAssignment h _, rfl, rfl, ?_⟩
    rw [acceptanceAssignment_satisfies_iff]
    exact (Option.some_inj).symm

def bountyWaste : Trapdoor Fr := ⟨2, 3, 5, 7, 6⟩

theorem exists_ok_of_isOk {ε A : Type} {x : Except ε A} (completes : x.isOk = true) : ∃ result, x = .ok result := by
  cases x with
  | error => cases completes
  | ok result => exact ⟨result, rfl⟩

def bountyKey : ProvingKey Fr Fr := bountyWaste.provingKey sixteenthRoots acceptanceSystem 1 1

/-- The setup of the sample completes. -/
theorem bountySetup_exists (rho : Fr) (sampled : rho = 2 ∨ rho = 3) : ∃ result,
    setupAndArm bountySample.pairing bountySample.hashG2
      (PvugcVk.ofProvingKey bountyKey (List.replicate bountyKey.vk.gammaAbcG1.length 0)) bountyKey.vk
        [statementHash bountySample [1, 2] [3]] rho = .ok result := by
  rw [setupAndArm_modulus bountySample.characteristic]
  apply exists_ok_of_isOk
  rcases sampled with rfl | rfl
  · decide +kernel
  · decide +kernel

/-- A file of the sample opens for its pair and not for another context. -/
theorem decapBounty_arm_sample : ∃ data,
    arm bountySample [1, 2] [3] bountyWaste 1 1 7 3 2 3 = some data ∧
      decapBounty bountySample true [1, 2] [3] (data ++ [4]) 5 6 = .ok 7 ∧
      decapBounty bountySample true [1, 2] [4] data 5 6 = .error .statementHashMismatch := by
  have generated : generateParametersWithQap bountySample.backend acceptanceSystem bountyWaste 1 1 = .ok bountyKey :=
    generateParametersWithQap_eq_ok.mpr ⟨by decide, by decide, sixteenthRoots, rfl, rfl⟩
  obtain ⟨first, setup1⟩ := bountySetup_exists 2 (Or.inl rfl)
  obtain ⟨second, setup2⟩ := bountySetup_exists 3 (Or.inr rfl)
  obtain ⟨data, armed⟩ := arm_exists generated (by decide : (7 : Scalar) ≠ 0) 3 setup1 setup2
  obtain ⟨opens, mismatch, -⟩ := decapBounty_arm armed
  have different : statementHash bountySample [1, 2] [4] ≠ statementHash bountySample [1, 2] [3] := by decide +kernel
  have other := mismatch true [] [1, 2] [4] 5 6 different
  rw [List.append_nil] at other
  exact ⟨data, armed, opens true [4] 5 6, other⟩

end Sample

end Pvugc.Adaptor
