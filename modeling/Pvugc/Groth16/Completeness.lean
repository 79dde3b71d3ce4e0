import Pvugc.Groth16.Prover
import Pvugc.Groth16.Verifier

namespace Pvugc.Groth16
open Pvugc.Algebra Finset

namespace Pairing

variable {F G1 G2 GT : Type} [Field F] [AddCommGroup G1] [Module F G1] [AddCommGroup G2] [Module F G2]
variable [AddCommGroup GT] [Module F GT] (e : Pairing F G1 G2 GT)

theorem smul_left_right (a b : F) (g1 : G1) (g2 : G2) :
    e.pairing (a • g1) (b • g2) = (a * b) • e.pairing g1 g2 := by
  rw [e.smul_left, e.smul_right, mul_smul]

end Pairing

/-- A statement with the constant one in front. -/
def statementOf {F : Type} [Zero F] [One F] (x : List F) (k : ℕ) : F := (1 :: x).getD k 0

@[simp] theorem statementOf_zero {F : Type} [Zero F] [One F] (x : List F) : statementOf x 0 = 1 := rfl

theorem statementOf_eq {F : Type} [Zero F] [One F] (x : List F) :
    tabulate x.length (fun i => statementOf x (i + 1)) = x := by
  simpa only [statementOf, List.getD_cons_succ] using tabulate_of_list x 0

/-- The multi-scalar sum of a statement over points with a constant one in front. -/
theorem msm_statementOf {F G : Type} [Field F] [AddCommGroup G] [Module F G] (points : ℕ → G) (x : List F) :
    points 0 + msm (tabulate x.length fun i => points (i + 1)) x =
      ∑ k ∈ range (x.length + 1), statementOf x k • points k := by
  conv_lhs => arg 2; arg 2; rw [← statementOf_eq x]
  rw [msm_tabulate, sum_range_succ', statementOf_zero, one_smul, add_comm]

theorem statementOf_publicInputs {F : Type} [Field F] {m : ConstraintMatrices F} (z : Assignment m)
    {k : ℕ} (inside : k < m.numInstanceVariables) : statementOf z.publicInputs k = z.value k := by
  cases k with
  | zero => rw [statementOf_zero, z.value_zero]
  | succ k =>
      rw [z.publicInputs_eq, statementOf, List.getD_cons_succ]
      exact tabulate_getD (fun i => z.value (i + 1)) (by omega) 0

theorem publicInputs_length {F : Type} [Field F] {m : ConstraintMatrices F} (z : Assignment m) :
    z.publicInputs.length = m.numInstanceVariables - 1 := by
  rw [z.publicInputs_eq, tabulate_length]

namespace Trapdoor

variable {F G1 G2 GT : Type} [Field F] [AddCommGroup G1] [Module F G1] [AddCommGroup G2] [Module F G2]
variable [AddCommGroup GT] [Module F GT]
variable (waste : Trapdoor F) (domain : EvaluationDomain F) (m : ConstraintMatrices F)

/-- The exponent of the instance commitment, before the division by `gamma`. -/
def instanceScalar (x : ℕ → F) : F := ∑ k ∈ range m.numInstanceVariables, x k * waste.column domain m k

theorem instanceScalar_publicInputs {m : ConstraintMatrices F} (z : Assignment m) :
    waste.instanceScalar domain m (statementOf z.publicInputs) = waste.instanceScalar domain m z.value :=
  sum_congr rfl fun k member => by rw [statementOf_publicInputs z (mem_range.mp member)]

/-- The scalars of an honest proof satisfy the Groth16 equation. -/
theorem proof_equation {m : ConstraintMatrices F} (z : Assignment m) (r s : F) (nonzero : waste.delta ≠ 0) :
    waste.aScalar domain z r * waste.bScalar domain z s =
      waste.alpha * waste.beta + waste.instanceScalar domain m z.value +
        (waste.cLinearScalar domain z r s + waste.quotientScalar domain z) * waste.delta := by
  have columns : z.linear (waste.column domain m) = waste.beta * z.linear (waste.u domain m) +
      waste.alpha * z.linear (waste.v domain m) + z.linear (waste.w domain m) := by
    simp only [Assignment.linear, mul_sum, ← sum_add_distrib, column]
    apply sum_congr rfl
    intro k _
    ring
  have split := z.linear_split (waste.column domain m)
  have instances : waste.instanceScalar domain m z.value = z.instanceLinear (waste.column domain m) := rfl
  have witness : z.witnessLinear (waste.column domain m) = waste.beta * z.linear (waste.u domain m) +
      waste.alpha * z.linear (waste.v domain m) + z.linear (waste.w domain m) -
        waste.instanceScalar domain m z.value := by
    rw [← columns, split, instances, add_sub_cancel_left]
  rw [cLinearScalar, quotientScalar, witness]
  simp only [aScalar, bScalar]
  field_simp
  ring

/-- The instance points of a generated key commit to the instance scalar. -/
theorem instanceScalar_smul (g1 : G1) {x : List F} (length : x.length + 1 = m.numInstanceVariables) :
    ∑ k ∈ range (x.length + 1), statementOf x k • (waste.column domain m k * waste.gamma⁻¹) • g1 =
      (waste.instanceScalar domain m (statementOf x) * waste.gamma⁻¹) • g1 := by
  rw [instanceScalar, ← length, sum_mul, sum_smul]
  simp only [smul_smul, mul_assoc]

theorem prepareInputs_provingKey (g1 : G1) (g2 : G2) {x : List F}
    (length : x.length = m.numInstanceVariables - 1) :
    prepareInputs (waste.provingKey domain m g1 g2).vk x =
      .ok ((waste.instanceScalar domain m (statementOf x) * waste.gamma⁻¹) • g1) := by
  have number : x.length + 1 = m.numInstanceVariables := by
    rw [length, Nat.sub_add_cancel m.instancePositive]
  simp only [prepareInputs, provingKey, ← number, tabulate_succ, List.length_cons, tabulate_length, ne_eq,
    not_true_eq_false, if_false, foldl_scalars]
  rw [msm_statementOf fun k => (waste.column domain m k * waste.gamma⁻¹) • g1,
    waste.instanceScalar_smul domain m g1 number]

/-- The verifier accepts a proof under a generated key exactly when the Groth16 equation holds. -/
theorem verify_provingKey [DecidableEq GT] (e : Pairing F G1 G2 GT) (nonzero : waste.gamma ≠ 0) (g1 : G1)
    (g2 : G2) {x : List F} (length : x.length = m.numInstanceVariables - 1) (proof : Proof G1 G2) :
    verify e (waste.provingKey domain m g1 g2).vk x proof = .ok true ↔
      e.pairing proof.a proof.b =
        (waste.alpha * waste.beta + waste.instanceScalar domain m (statementOf x)) • e.pairing g1 g2 +
          e.pairing proof.c (waste.delta • g2) := by
  rw [verify, waste.prepareInputs_provingKey domain m g1 g2 length]
  simp only [Except.ok.injEq, decide_eq_true_eq, provingKey, e.neg_right, e.smul_left_right]
  rw [mul_assoc, inv_mul_cancel₀ nonzero, mul_one, add_smul]
  constructor
  · intro equation
    rw [← equation]
    abel
  · intro equation
    rw [equation]
    abel

end Trapdoor

end Pvugc.Groth16
