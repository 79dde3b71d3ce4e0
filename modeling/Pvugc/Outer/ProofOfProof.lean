import Pvugc.Circuit.BinaryGadget
import Pvugc.Circuit.OuterMatrices
import Pvugc.Groth16.Soundness
import Pvugc.Outer.OuterVerifier

namespace Pvugc.Outer
open Pvugc.Algebra Pvugc.Circuit Pvugc.Groth16 Pvugc.OneSided

section Code

variable {C : RecursionCycle} [Fact C.outerModulus.Prime] {I1 I2 IT G1 G2 GT : Type} [AddCommGroup I1]
variable [AddCommGroup I2] [AddCommGroup IT] [Module C.InnerScalar I1] [Module C.InnerScalar I2]
variable [Module C.InnerScalar IT] [AddCommGroup G1] [AddCommGroup G2] [AddCommGroup GT]
variable [Module C.OuterScalar G1] [Module C.OuterScalar G2] [Module C.OuterScalar GT]
variable {inner : Pairing C.InnerScalar I1 I2 IT} (P : PairingVar C.OuterScalar inner)

/-- The matrices and the assignment of a synthesized circuit. -/
def synthesize (circuit : OuterCircuit C I1 I2) :
    Except Failure ((m : ConstraintMatrices C.OuterScalar) × Assignment m) :=
  match (circuit.generateConstraints P).run .newRef with
  | (none, _) => .error .panic
  | (some (), cs) => if closed : cs.Closed then .ok ⟨cs.toMatrices closed, cs.toAssignment closed⟩ else .error .panic

variable (backend : PolynomialBackend C.OuterScalar)

/-- `setup_outer_params_for`: the key is generated from a circuit with dummy inputs and a dummy proof. -/
def setupOuterParamsFor (waste : Trapdoor C.OuterScalar) (g1 : G1) (g2 : G2) (vkInner : VerifyingKey I1 I2)
    (nInputs : ℕ) : Except Failure (ProvingKey G1 G2 × VerifyingKey G1 G2) := do
  let dummyX := List.replicate nInputs 0
  let dummyProof : Proof I1 I2 := ⟨0, 0, 0⟩
  let ⟨m, _⟩ ← synthesize P ⟨vkInner, dummyX, dummyProof⟩
  let pk ← (generateParametersWithQap backend m waste g1 g2).mapError .synthesis
  return (pk, pk.vk)

/-- `prove_outer_for` returns the proof, the key and the public inputs; a debug build asserts that the circuit is
satisfied. -/
def proveOuterFor (debugAssertions : Bool) (pkOuter : ProvingKey G1 G2) (vkInner : VerifyingKey I1 I2)
    (xInner : List C.InnerScalar) (proofInner : Proof I1 I2) (r s : C.OuterScalar) :
    Except Failure (Proof G1 G2 × VerifyingKey G1 G2 × List C.OuterScalar) := do
  let ⟨_, z⟩ ← synthesize P ⟨vkInner, xInner, proofInner⟩
  if debugAssertions && !decide z.Satisfies then .error .panic
  else
    let proofOuter ← createProofWithReduction backend pkOuter r s z
    return (proofOuter, pkOuter.vk, z.publicInputs)

/-- A whole run: the setup, the proof of a proof and its verification. -/
def proofOfProof [DecidableEq GT] (debugAssertions : Bool) (e : Pairing C.OuterScalar G1 G2 GT)
    (waste : Trapdoor C.OuterScalar) (g1 : G1) (g2 : G2) (vkInner : VerifyingKey I1 I2) (xInner : List C.InnerScalar)
    (proofInner : Proof I1 I2) (r s : C.OuterScalar) : Except Failure Bool := do
  let (pkOuter, vkOuter) ← setupOuterParamsFor P backend waste g1 g2 vkInner xInner.length
  let (proofOuter, _, publicInputs) ← proveOuterFor P backend debugAssertions pkOuter vkInner xInner proofInner r s
  verifyOuterFor e vkOuter publicInputs proofOuter none

end Code

section Runs

variable {C : RecursionCycle} [Fact C.outerModulus.Prime] {I1 I2 IT G1 G2 GT : Type} [AddCommGroup I1]
variable [AddCommGroup I2] [AddCommGroup IT] [Module C.InnerScalar I1] [Module C.InnerScalar I2]
variable [Module C.InnerScalar IT] [DecidableEq IT] [AddCommGroup G1] [AddCommGroup G2] [AddCommGroup GT]
variable [Module C.OuterScalar G1] [Module C.OuterScalar G2] [Module C.OuterScalar GT] [DecidableEq GT]
variable {inner : Pairing C.InnerScalar I1 I2 IT} {P : PairingVar C.OuterScalar inner} (lawful : P.Lawful)
include lawful

/-- A circuit for the number of inputs that its key asks for is synthesized. -/
theorem synthesize_eq (circuit : OuterCircuit C I1 I2)
    (lengths : circuit.xInner.length + 1 = circuit.vkInner.gammaAbcG1.length) :
    synthesize P circuit = .ok ⟨circuit.matrices lawful, circuit.assigned lawful⟩ := by
  have done := circuit.synthesized_of_lengths lawful (.inl lengths)
  have run : (circuit.generateConstraints P).run .newRef = (some (), circuit.system P) := Prod.ext done rfl
  rw [synthesize, run]
  exact dif_pos (circuit.closed lawful)

variable {backend : PolynomialBackend C.OuterScalar} {domain : EvaluationDomain C.OuterScalar}
variable {circuit : OuterCircuit C I1 I2} (lengths : circuit.xInner.length + 1 = circuit.vkInner.gammaAbcG1.length)
include lengths

omit [AddCommGroup GT] [Module C.OuterScalar GT] [DecidableEq GT] in
/-- The prover's public inputs are the embedded statement. -/
theorem proveOuterFor_eq (debugAssertions : Bool) (pkOuter : ProvingKey G1 G2) (r s : C.OuterScalar) :
    proveOuterFor P backend debugAssertions pkOuter circuit.vkInner circuit.xInner circuit.proofInner r s =
      if debugAssertions ∧ ¬ (circuit.assigned lawful).Satisfies then .error .panic
      else (createProofWithReduction backend pkOuter r s (circuit.assigned lawful)).map fun proofOuter =>
        (proofOuter, pkOuter.vk, circuit.xInner.map C.convertInnerToOuter) := by
  rw [proveOuterFor, synthesize_eq lawful circuit lengths, ← circuit.assigned_publicInputs lawful]
  change (if _ then _ else _) = _
  simp only [Bool.and_eq_true, Bool.not_eq_true', decide_eq_false_iff_not]
  refine if_congr Iff.rfl rfl ?_
  cases createProofWithReduction backend pkOuter r s (circuit.assigned lawful) <;> rfl

variable (uniform : P.Uniform)
include uniform

omit [AddCommGroup GT] [Module C.OuterScalar GT] [DecidableEq GT] in
/-- The setup generates the key from the matrices of every circuit for its inner key and number of inputs. -/
theorem setupOuterParamsFor_eq (waste : Trapdoor C.OuterScalar) (g1 : G1) (g2 : G2) :
    setupOuterParamsFor P backend waste g1 g2 circuit.vkInner circuit.xInner.length =
      ((generateParametersWithQap backend (circuit.matrices lawful) waste g1 g2).mapError .synthesis).map
        fun pk => (pk, pk.vk) := by
  let dummy : OuterCircuit C I1 I2 := ⟨circuit.vkInner, List.replicate circuit.xInner.length 0, ⟨0, 0, 0⟩⟩
  have count : dummy.xInner.length = circuit.xInner.length := List.length_replicate
  have key : dummy.vkInner = circuit.vkInner := rfl
  have same : dummy.matrices lawful = circuit.matrices lawful :=
    (OuterCircuit.generateConstraints_sameShape uniform key count).2.toMatrices_eq _ _
  rw [setupOuterParamsFor, synthesize_eq lawful dummy (count ▸ lengths), ← same]
  change (generateParametersWithQap _ _ _ _ _).mapError _ >>= _ = _
  cases generateParametersWithQap backend (dummy.matrices lawful) waste g1 g2 <;> rfl

/-- Every inner proof is proved by an outer proof, which is accepted exactly when the evaluation point of the key is a
root of the defect of the synthesized assignment; a debug build panics on a rejected inner proof. -/
theorem proofOfProof_eq (created : backend.newDomain (circuit.matrices lawful).qapDomainSize = some domain)
    {e : Pairing C.OuterScalar G1 G2 GT} {g1 : G1} {g2 : G2} (free : e.pairing g1 g2 ≠ 0) :
    ∃ h, witnessMapFromMatrices backend (circuit.matrices lawful) (circuit.assigned lawful).fullAssignment = .ok h ∧
      ∀ debugAssertions waste r s, waste.gamma ≠ 0 → waste.delta ≠ 0 →
        proofOfProof P backend debugAssertions e waste g1 g2 circuit.vkInner circuit.xInner circuit.proofInner r s =
          if debugAssertions ∧ ¬ (circuit.assigned lawful).Satisfies then .error .panic
          else .ok (decide (((circuit.assigned lawful).defect domain h).eval waste.tau = 0)) := by
  obtain ⟨h, returned, -⟩ := witnessMapFromMatrices_quotient_iff (circuit.assigned lawful) created
  refine ⟨h, returned, fun debugAssertions waste r s gammaNonzero deltaNonzero => ?_⟩
  have generated : generateParametersWithQap backend (circuit.matrices lawful) waste g1 g2 = _ :=
    generateParametersWithQap_eq_ok.mpr ⟨gammaNonzero, deltaNonzero, domain, created, rfl⟩
  obtain ⟨h', returned', proved⟩ :=
    verifyProof_createProof_iff created (circuit.assigned lawful) e free gammaNonzero deltaNonzero
  obtain rfl : h = h' := Except.ok.inj (returned.symm.trans returned')
  obtain ⟨proof, created', accepted⟩ := proved r s
  have verdict : verifyOuterFor e (waste.provingKey domain (circuit.matrices lawful) g1 g2).vk
      (circuit.xInner.map C.convertInnerToOuter) proof none =
        .ok (decide (((circuit.assigned lawful).defect domain h).eval waste.tau = 0)) := by
    have count : (circuit.assigned lawful).publicInputs.length + 1 =
        (waste.provingKey domain (circuit.matrices lawful) g1 g2).vk.gammaAbcG1.length := by
      rw [publicInputs_length, Nat.sub_add_cancel (circuit.matrices lawful).instancePositive]
      exact (tabulate_length _ _).symm
    obtain ⟨verdict, verified⟩ := exists_verify_eq_ok (e := e) _ count proof
    rw [verify_eq_verifyProof] at verified
    rw [verified] at accepted
    rw [← circuit.assigned_publicInputs lawful, verifyOuterFor, verified]
    refine congrArg Except.ok (Bool.eq_iff_iff.mpr ?_)
    rw [decide_eq_true_iff, ← accepted]
    exact ⟨congrArg Except.ok, Except.ok.inj⟩
  rw [proofOfProof, setupOuterParamsFor_eq lawful lengths uniform, generated]
  change proveOuterFor _ _ _ _ _ _ _ _ _ >>= _ = _
  rw [proveOuterFor_eq lawful lengths, created']
  split
  case isTrue => rfl
  case isFalse => exact verdict

end Runs

section Binary

/-- A small cycle: the inner scalars are bits, and the outer field has the domains that their circuit asks for. -/
def binaryCycle : RecursionCycle where
  name := "two and 12289"
  innerModulus := 2
  outerModulus := 12289
  positive := Nat.two_pos
  lt := by decide
  notDvd := by decide

instance binaryPrime : Fact binaryCycle.outerModulus.Prime := ⟨by norm_num [binaryCycle]⟩

instance binaryNontrivial : Nontrivial binaryCycle.InnerScalar := ⟨0, 1, by decide⟩

theorem binaryScalars : Binary binaryCycle.InnerScalar := by
  unfold Binary
  decide

/-- The gadgets of the product of inner scalars. -/
abbrev binaryGadgets : PairingVar binaryCycle.OuterScalar (mulPairing binaryCycle.InnerScalar binaryCycle.innerModulus) :=
  binaryPairing binaryScalars binaryCycle.innerModulus binaryCycle.OuterScalar

theorem binaryGadgets_lawful : binaryGadgets.Lawful := binaryPairing_lawful

theorem binaryGadgets_uniform : binaryGadgets.Uniform := binaryPairing_uniform

def thirtySecondRoots : EvaluationDomain binaryCycle.OuterScalar where
  size := 32
  groupGen := 5860
  positive := by decide
  fitsWord := by decide
  primitive := by
    rw [IsPrimitiveRoot.iff_orderOf]
    exact orderOf_eq_prime_pow (p := 2) (n := 4) (by decide +kernel) (by decide +kernel)

def thirtySecondRootsUpTo (k : ℕ) : Option (EvaluationDomain binaryCycle.OuterScalar) :=
  if k ≤ 32 then some thirtySecondRoots else none

theorem thirtySecondRootsUpTo_eq {k : ℕ} {domain : EvaluationDomain binaryCycle.OuterScalar}
    (created : thirtySecondRootsUpTo k = some domain) : k ≤ 32 ∧ domain = thirtySecondRoots := by
  rw [thirtySecondRootsUpTo] at created
  split at created
  case isTrue fits => exact ⟨fits, (Option.some.inj created).symm⟩
  case isFalse => cases created

def binaryBackend : PolynomialBackend binaryCycle.OuterScalar :=
  directBackend thirtySecondRootsUpTo 11
    (by
      intro k domain created
      obtain ⟨fits, rfl⟩ := thirtySecondRootsUpTo_eq created
      exact fits)
    (by decide)
    (by
      intro k domain created
      obtain ⟨-, rfl⟩ := thirtySecondRootsUpTo_eq created
      decide +kernel)

theorem binaryBackend_newDomain {k : ℕ} (fits : k ≤ 32) : binaryBackend.newDomain k = some thirtySecondRoots :=
  if_pos fits

abbrev binaryMatrices : ConstraintMatrices binaryCycle.OuterScalar :=
  (unitCircuit binaryCycle).matrices binaryGadgets_lawful

theorem binaryMatrices_size : binaryMatrices.qapDomainSize ≤ 32 := by decide +kernel

theorem binaryMatrices_created : binaryBackend.newDomain binaryMatrices.qapDomainSize = some thirtySecondRoots :=
  binaryBackend_newDomain binaryMatrices_size

/-- The evaluation point lies outside the domain. -/
abbrev binaryWaste : Trapdoor binaryCycle.OuterScalar := ⟨2, 3, 5, 7, 13⟩

end Binary

end Pvugc.Outer
