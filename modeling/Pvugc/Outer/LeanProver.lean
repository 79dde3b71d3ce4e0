import Pvugc.Groth16.Prover
import Pvugc.Outer.WitnessBases

namespace Pvugc.Outer
open Pvugc.Algebra Pvugc.Groth16 Finset

/-- The proving key without powers of the evaluation point. -/
@[ext]
structure LeanProvingKey (G1 G2 : Type) where
  vk : VerifyingKey G1 G2
  betaG1 : G1
  deltaG1 : G1
  aQueryWit : List G1
  bG1Query : List G1
  bG2Query : List G2
  hQueryWit : HQueryWit G1
  lQuery : List G1
  deriving DecidableEq

variable {F G1 G2 : Type} [Field F]
variable [AddCommGroup G1] [Module F G1] [AddCommGroup G2] [Module F G2]

/-- The lean key keeps every query of the proving key but the powers. -/
def leanProvingKey (pk : ProvingKey G1 G2) (hQueryWit : HQueryWit G1) : LeanProvingKey G1 G2 where
  vk := pk.vk
  betaG1 := pk.betaG1
  deltaG1 := pk.deltaG1
  aQueryWit := pk.aQuery
  bG1Query := pk.bG1Query
  bG2Query := pk.bG2Query
  hQueryWit := hQueryWit
  lQuery := pk.lQuery

/-- The quotient bases with nonzero coefficients. -/
def hBasesScalars [DecidableEq F] (hQueryWit : HQueryWit G1) (fullAssignment : List F) : List (G1 × F) :=
  hQueryWit.filterMap fun entry =>
    match fullAssignment[entry.1.toNat]?, fullAssignment[entry.2.1.toNat]? with
    | some left, some right => if left * right ≠ 0 then some (entry.2.2, left * right) else none
    | _, _ => none

/-- `MSM_CHUNK_SIZE`. -/
def msmChunkSize : ℕ := 2 ^ 20

/-- `prove_lean_with_randomizers` on a synthesized assignment. -/
def proveLeanWithRandomizers [DecidableEq F] (pk : LeanProvingKey G1 G2) {m : ConstraintMatrices F}
    (z : Assignment m) (r s : F) : Except SynthesisError (Proof G1 G2 × List F) :=
  let fullAssignment := z.fullAssignment
  let numInputs := z.instanceAssignment.length
  let numVars := fullAssignment.length
  if pk.aQueryWit.length ≠ numVars then .error .unsatisfiable
  else
    let aAcc := pk.vk.alphaG1 + msm pk.aQueryWit fullAssignment + r • pk.deltaG1
    if pk.bG2Query.length ≠ numVars then .error .unsatisfiable
    else
      let bG2Acc := pk.vk.betaG2 + msm pk.bG2Query fullAssignment + s • pk.vk.deltaG2
      let bG1Acc := pk.betaG1 + msm pk.bG1Query fullAssignment + s • pk.deltaG1
      let witness := fullAssignment.drop numInputs
      if pk.lQuery.length ≠ witness.length then .error .unsatisfiable
      else
        let chunkResults := (parChunksMut msmChunkSize (hBasesScalars pk.hQueryWit fullAssignment)).map
          fun chunk => msm (chunk.map Prod.fst) (chunk.map Prod.snd)
        let cAcc := msm pk.lQuery witness + chunkResults.sum + s • aAcc + r • bG1Acc +
          (-r * s) • pk.deltaG1
        .ok ({ a := aAcc, b := bG2Acc, c := cAcc }, fullAssignment)

/-- The sparse quadratic sum that the lean prover adds for the quotient. -/
def quadraticSum (hQueryWit : HQueryWit G1) {m : ConstraintMatrices F} (z : Assignment m) : G1 :=
  (hQueryWit.map fun entry => (z.value entry.1.toNat * z.value entry.2.1.toNat) • entry.2.2).sum

theorem hBasesScalars_sum [DecidableEq F] (hQueryWit : HQueryWit G1) {m : ConstraintMatrices F}
    (z : Assignment m) :
    ((hBasesScalars hQueryWit z.fullAssignment).map fun term => term.2 • term.1).sum =
      quadraticSum hQueryWit z := by
  induction hQueryWit with
  | nil => rfl
  | cons entry rest ih =>
      have tail := ih
      simp only [hBasesScalars, quadraticSum, List.filterMap_cons, List.map_cons, List.sum_cons] at tail ⊢
      rw [← tail]
      simp only [Assignment.value, List.getD_eq_getElem?_getD]
      cases left : z.fullAssignment[entry.1.toNat]? with
      | none => simp
      | some x =>
          cases right : z.fullAssignment[entry.2.1.toNat]? with
          | none => simp
          | some y =>
              by_cases zero : x * y = 0
              · simp [zero]
              · simp [zero]

/-- The lean proof under a generated key, as multiples of the generators and the quadratic sum. -/
theorem proveLeanWithRandomizers_eq [DecidableEq F] (waste : Trapdoor F) (domain : EvaluationDomain F)
    (g1 : G1) (g2 : G2) (hQueryWit : HQueryWit G1) {m : ConstraintMatrices F} (z : Assignment m)
    (r s : F) :
    proveLeanWithRandomizers (leanProvingKey (waste.provingKey domain m g1 g2) hQueryWit) z r s = .ok ({
      a := waste.aScalar domain z r • g1
      b := waste.bScalar domain z s • g2
      c := waste.cLinearScalar domain z r s • g1 + quadraticSum hQueryWit z }, z.fullAssignment) := by
  have query {G : Type} [AddCommGroup G] [Module F G] (g : G) (column : ℕ → F) :
      msm (tabulate m.numVars fun k => column k • g) z.fullAssignment = z.linear column • g := by
    rw [z.fullAssignment_eq, msm_tabulate, Assignment.linear, sum_smul]
    simp only [smul_smul]
  have lTerm : msm (tabulate m.numWitnessVariables fun k =>
      (waste.column domain m (m.numInstanceVariables + k) * waste.delta⁻¹) • g1) z.witnessAssignment =
        (z.witnessLinear (waste.column domain m) * waste.delta⁻¹) • g1 := by
    rw [z.witnessAssignment_eq, msm_tabulate, Assignment.witnessLinear, sum_mul, sum_smul]
    simp only [smul_smul, mul_assoc]
  have chunks : ((parChunksMut msmChunkSize (hBasesScalars hQueryWit z.fullAssignment)).map fun chunk =>
      msm (chunk.map Prod.fst) (chunk.map Prod.snd)).sum = quadraticSum hQueryWit z := by
    rw [← hBasesScalars_sum]
    conv_rhs => rw [← parChunksMut_flatten (show 0 < msmChunkSize by decide)
      (hBasesScalars hQueryWit z.fullAssignment), List.map_flatten, List.sum_flatten, List.map_map]
    congr 1
    apply List.map_congr_left
    intro chunk _
    exact msm_pairs chunk
  have witness : z.fullAssignment.drop z.instanceAssignment.length = z.witnessAssignment := by
    rw [z.instanceLength, z.fullAssignment_drop]
  simp only [proveLeanWithRandomizers, leanProvingKey, Trapdoor.provingKey, tabulate_length,
    z.fullAssignment_length, witness, z.witnessLength, query, lTerm, chunks, ne_eq, not_true_eq_false,
    if_false]
  congr 3
  · simp only [Trapdoor.aScalar]
    module
  · simp only [Trapdoor.bScalar]
    module
  · simp only [Trapdoor.cLinearScalar, Trapdoor.aScalar, Trapdoor.bScalar]
    module

end Pvugc.Outer
