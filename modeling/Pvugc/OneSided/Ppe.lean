import Pvugc.Groth16.Verifier

namespace Pvugc.OneSided
open Pvugc.Groth16

/-- The errors of the crate that the one-sided operations return. -/
inductive Error where
  | invalidSubgroup
  | zeroDelta
  | zeroRho
  | mismatchedSizes
  | crypto (reason : String)
  | publicInputLength (expected actual : ℕ)
  | zeroInstanceCommitment
  | degenerateTarget
  deriving DecidableEq, Repr

/-- An operation ends early with an error of the crate or with a panic. -/
inductive Fault where
  | error (error : Error)
  | panic
  deriving DecidableEq, Repr

/-- The verifying key of the wrapper; `tConstPointsGt` holds the baked quotient points. -/
@[ext]
structure PvugcVk (G2 GT : Type) where
  betaG2 : G2
  deltaG2 : G2
  bG2Query : List G2
  tConstPointsGt : List GT
  deriving DecidableEq

section Code

variable {F G1 G2 GT : Type} [AddCommGroup G1] [AddCommGroup G2] [AddCommGroup GT]
variable [SMul F G1] [SMul F G2] [SMul F GT] [DecidableEq G1] [DecidableEq G2] [DecidableEq GT]
variable (e : Pairing F G1 G2 GT)

/-- The subgroup check of a point: the identity passes, and so does a point of the right order. -/
def isGood {G : Type} [AddCommGroup G] [DecidableEq G] (modulus : ℕ) (g : G) : Bool :=
  g = 0 || modulus • g = 0

def validatePvugcVkSubgroups (pvugcVk : PvugcVk G2 GT) : Bool :=
  !pvugcVk.bG2Query.isEmpty &&
  !(pvugcVk.betaG2 = 0 || !isGood e.modulus pvugcVk.betaG2) &&
  !(pvugcVk.deltaG2 = 0 || !isGood e.modulus pvugcVk.deltaG2) &&
  !(pvugcVk.bG2Query.any fun g => !isGood e.modulus g) &&
  !(pvugcVk.tConstPointsGt.any fun g => !decide (e.modulus • g = 0))

def validateGroth16VkSubgroups (vk : VerifyingKey G1 G2) : Bool :=
  !(vk.alphaG1 = 0 || !isGood e.modulus vk.alphaG1) &&
  !(vk.betaG2 = 0 || !isGood e.modulus vk.betaG2) &&
  !(vk.gammaG2 = 0 || !isGood e.modulus vk.gammaG2) &&
  !(vk.deltaG2 = 0 || !isGood e.modulus vk.deltaG2) &&
  !(vk.gammaAbcG1.any fun g => !isGood e.modulus g)

end Code

section Curve

variable {F G1 G2 GT : Type} [AddCommGroup G1] [AddCommGroup G2] [AddCommGroup GT]
variable [SMul F G1] [SMul F G2] [SMul F GT] [DecidableEq G1] [DecidableEq G2] [DecidableEq GT]
variable (identityPanics : Bool) (e : Pairing F G1 G2 GT)

/-- `G2Prepared::from` on a curve: the identity panics when `identityPanics` is set, as on MNT6. -/
def prepareG2 (y : G2) : Except Fault G2 :=
  if identityPanics && y = 0 then .error .panic else .ok y

/-- `E::pairing` on a curve. -/
def pairingOn (p : G1) (y : G2) : Except Fault GT := do
  let prepared ← prepareG2 identityPanics y
  return e.pairing p prepared

/-- `compute_groth16_target` on a curve; a key without instance points panics once the lengths agree. -/
def computeGroth16TargetOn (vk : VerifyingKey G1 G2) (publicInputs : List F) : Except Fault GT :=
  let expectedInputs := vk.gammaAbcG1.length - 1
  if publicInputs.length ≠ expectedInputs then
    .error (.error (.publicInputLength expectedInputs publicInputs.length))
  else
    match vk.gammaAbcG1 with
    | [] => .error .panic
    | constant :: rest => do
      let l := (rest.zip publicInputs).foldl (fun l (base, input) => l + input • base) constant
      if l = 0 then .error (.error .zeroInstanceCommitment)
      else
        let ab ← pairingOn identityPanics e vk.alphaG1 vk.betaG2
        let ic ← pairingOn identityPanics e l vk.gammaG2
        if ab + ic = 0 then .error (.error .degenerateTarget) else .ok (ab + ic)

/-- `compute_baked_target` on a curve: the target of the key times the baked quotient of the statement. -/
def computeBakedTargetOn (vk : VerifyingKey G1 G2) (pvugcVk : PvugcVk G2 GT) (publicInputs : List F) :
    Except Fault GT :=
  match computeGroth16TargetOn identityPanics e vk publicInputs with
  | .error fault => .error fault
  | .ok rRaw =>
    if pvugcVk.tConstPointsGt.length ≠ publicInputs.length + 1 then
      .error (.error .mismatchedSizes)
    else
      match pvugcVk.tConstPointsGt with
      | [] => .error .panic
      | constant :: rest =>
        .ok (rRaw + (rest.zip publicInputs).foldl (fun tAcc (t, x) => tAcc + x • t) constant)

/-- The target on a curve whose pairing takes identities. -/
def computeGroth16Target (vk : VerifyingKey G1 G2) (publicInputs : List F) : Except Fault GT :=
  computeGroth16TargetOn false e vk publicInputs

/-- The baked target on a curve whose pairing takes identities. -/
def computeBakedTarget (vk : VerifyingKey G1 G2) (pvugcVk : PvugcVk G2 GT) (publicInputs : List F) :
    Except Fault GT :=
  computeBakedTargetOn false e vk pvugcVk publicInputs

end Curve

section Prepared

variable {F G1 G2 GT : Type} [AddCommGroup G1] [AddCommGroup G2] [AddCommGroup GT]
variable [SMul F G1] [SMul F G2] [SMul F GT] [DecidableEq G2]
variable {identityPanics : Bool} {e : Pairing F G1 G2 GT}

theorem prepareG2_eq {y : G2} (prepared : identityPanics = true → y ≠ 0) :
    prepareG2 identityPanics y = .ok y := by
  rw [prepareG2, if_neg]
  simpa only [Bool.and_eq_true, decide_eq_true_eq, not_and] using prepared

theorem prepareG2_zero : prepareG2 true (0 : G2) = .error .panic := by simp [prepareG2]

theorem pairingOn_eq (p : G1) {y : G2} (prepared : identityPanics = true → y ≠ 0) :
    pairingOn identityPanics e p y = .ok (e.pairing p y) := by
  rw [pairingOn, prepareG2_eq prepared]
  rfl

@[simp] theorem pairingOn_false (p : G1) (y : G2) : pairingOn false e p y = .ok (e.pairing p y) :=
  pairingOn_eq p fun panics => absurd panics Bool.false_ne_true

theorem pairingOn_zero (p : G1) : pairingOn true e p 0 = .error .panic := by
  rw [pairingOn, prepareG2_zero]
  rfl

end Prepared

end Pvugc.OneSided
