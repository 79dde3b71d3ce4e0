import Pvugc.Groth16.Keys

namespace Pvugc.Groth16

/-- A bilinear map on the groups of a pairing-friendly curve. The target group is written additively,
and `modulus` is the order that the subgroup checks multiply by. -/
structure Pairing (F G1 G2 GT : Type) [AddCommGroup G1] [AddCommGroup G2] [AddCommGroup GT]
    [SMul F G1] [SMul F G2] [SMul F GT] where
  modulus : ℕ
  pairing : G1 → G2 → GT
  add_left : ∀ p q y, pairing (p + q) y = pairing p y + pairing q y
  add_right : ∀ p y z, pairing p (y + z) = pairing p y + pairing p z
  smul_left : ∀ (c : F) p y, pairing (c • p) y = c • pairing p y
  smul_right : ∀ (c : F) p y, pairing p (c • y) = c • pairing p y

namespace Pairing

variable {F G1 G2 GT : Type} [AddCommGroup G1] [AddCommGroup G2] [AddCommGroup GT]
variable [SMul F G1] [SMul F G2] [SMul F GT] (e : Pairing F G1 G2 GT)

@[simp] theorem zero_left (y : G2) : e.pairing 0 y = 0 := by
  have doubled := e.add_left 0 0 y
  rwa [add_zero, left_eq_add] at doubled

@[simp] theorem zero_right (p : G1) : e.pairing p 0 = 0 := by
  have doubled := e.add_right p 0 0
  rwa [add_zero, left_eq_add] at doubled

theorem neg_left (p : G1) (y : G2) : e.pairing (-p) y = -e.pairing p y := by
  rw [eq_neg_iff_add_eq_zero, ← e.add_left, neg_add_cancel, zero_left]

theorem neg_right (p : G1) (y : G2) : e.pairing p (-y) = -e.pairing p y := by
  rw [eq_neg_iff_add_eq_zero, ← e.add_right, neg_add_cancel, zero_right]

theorem sub_left (p q : G1) (y : G2) : e.pairing (p - q) y = e.pairing p y - e.pairing q y := by
  rw [sub_eq_add_neg, e.add_left, e.neg_left, ← sub_eq_add_neg]

theorem sum_left {ι : Type} (s : Finset ι) (f : ι → G1) (y : G2) :
    e.pairing (∑ i ∈ s, f i) y = ∑ i ∈ s, e.pairing (f i) y := by
  classical
  induction s using Finset.induction_on with
  | empty => simp
  | insert i s absent ih => rw [Finset.sum_insert absent, Finset.sum_insert absent, e.add_left, ih]

end Pairing

/-- The multiplication of a commutative ring as a pairing of the ring with itself. -/
def mulPairing (R : Type) [CommRing R] (modulus : ℕ) : Pairing R R R R where
  modulus := modulus
  pairing := (· * ·)
  add_left := add_mul
  add_right := mul_add
  smul_left c x y := mul_assoc c x y
  smul_right c x y := mul_left_comm x c y

section Code

variable {F G1 G2 GT : Type} [AddCommGroup G1] [AddCommGroup G2] [AddCommGroup GT]
variable [SMul F G1] [SMul F G2] [SMul F GT]

/-- `prepare_inputs` compares the lengths before it reads the constant point. -/
def prepareInputs (vk : VerifyingKey G1 G2) (publicInputs : List F) : Except SynthesisError G1 :=
  match vk.gammaAbcG1 with
  | [] => .error .malformedVerifyingKey
  | constant :: rest =>
    if publicInputs.length + 1 ≠ (constant :: rest).length then .error .malformedVerifyingKey
    else .ok ((publicInputs.zip rest).foldl (fun gIc (input, base) => gIc + input • base) constant)

/-- `Groth16::verify`: the product of the three pairings is the prepared pairing of the key. -/
def verify [DecidableEq GT] (e : Pairing F G1 G2 GT) (vk : VerifyingKey G1 G2) (publicInputs : List F)
    (proof : Proof G1 G2) : Except SynthesisError Bool :=
  match prepareInputs vk publicInputs with
  | .error error => .error error
  | .ok gIc => .ok (decide (e.pairing proof.a proof.b + e.pairing gIc (-vk.gammaG2) +
      e.pairing proof.c (-vk.deltaG2) = e.pairing vk.alphaG1 vk.betaG2))

/-- The verifying key with the pairing of its first two points and the two negated points. -/
structure PreparedVerifyingKey (G1 G2 GT : Type) where
  vk : VerifyingKey G1 G2
  alphaG1BetaG2 : GT
  gammaG2NegPc : G2
  deltaG2NegPc : G2

def prepareVerifyingKey (e : Pairing F G1 G2 GT) (vk : VerifyingKey G1 G2) :
    PreparedVerifyingKey G1 G2 GT where
  vk := vk
  alphaG1BetaG2 := e.pairing vk.alphaG1 vk.betaG2
  gammaG2NegPc := -vk.gammaG2
  deltaG2NegPc := -vk.deltaG2

def verifyProofWithPreparedInputs [DecidableEq GT] (e : Pairing F G1 G2 GT)
    (pvk : PreparedVerifyingKey G1 G2 GT) (proof : Proof G1 G2) (preparedInputs : G1) : Bool :=
  decide (e.pairing proof.a proof.b + e.pairing preparedInputs pvk.gammaG2NegPc +
    e.pairing proof.c pvk.deltaG2NegPc = pvk.alphaG1BetaG2)

/-- `verify_proof` under a prepared key. -/
def verifyProof [DecidableEq GT] (e : Pairing F G1 G2 GT) (pvk : PreparedVerifyingKey G1 G2 GT)
    (proof : Proof G1 G2) (publicInputs : List F) : Except SynthesisError Bool :=
  match prepareInputs pvk.vk publicInputs with
  | .error error => .error error
  | .ok preparedInputs => .ok (verifyProofWithPreparedInputs e pvk proof preparedInputs)

theorem verify_eq_verifyProof [DecidableEq GT] (e : Pairing F G1 G2 GT) (vk : VerifyingKey G1 G2)
    (publicInputs : List F) (proof : Proof G1 G2) :
    verify e vk publicInputs proof = verifyProof e (prepareVerifyingKey e vk) proof publicInputs := rfl

end Code

end Pvugc.Groth16
