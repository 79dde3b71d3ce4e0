import Pvugc.Outer.LeanKey
import Pvugc.Outer.ProofOfProof

namespace Pvugc.Outer
open Pvugc.Algebra Pvugc.Circuit Pvugc.Groth16 Pvugc.OneSided

section Code

/-- This is `canonical_sample_statements`: the zero statement and the unit statements. -/
def canonicalSampleStatements (C : RecursionCycle) (nInnerInputs : ℕ) : List (List C.InnerScalar) :=
  List.replicate nInnerInputs 0 :: (List.range nInnerInputs).map fun idx => (List.replicate nInnerInputs 0).set idx 1

variable {C : RecursionCycle} [Fact C.outerModulus.Prime] {I1 I2 IT G1 G2 GT : Type} [AddCommGroup I1]
variable [AddCommGroup I2] [AddCommGroup IT] [Module C.InnerScalar I1] [Module C.InnerScalar I2]
variable [Module C.InnerScalar IT] [AddCommGroup G1] [AddCommGroup G2] [AddCommGroup GT]
variable [Module C.OuterScalar G1] [Module C.OuterScalar G2] [Module C.OuterScalar GT]
variable [DecidableEq G1] [DecidableEq G2]
variable {inner : Pairing C.InnerScalar I1 I2 IT} (P : PairingVar C.OuterScalar inner)

/-- The gap of a sample statement under an inner proof that is generated for it. -/
def statementGap (backend : PolynomialBackend C.OuterScalar) (pkOuter : ProvingKey G1 G2)
    (leanPk : LeanProvingKey G1 G2) (vkInner : VerifyingKey I1 I2)
    (innerProofGenerator : List C.InnerScalar → Proof I1 I2) (statement : List C.InnerScalar) :
    Option (List C.OuterScalar × G1) :=
  match synthesize P ⟨vkInner, statement, innerProofGenerator statement⟩ with
  | .error _ => none
  | .ok ⟨_, z⟩ => sampleGap backend pkOuter leanPk z

/-- `build_pvugc_setup_from_pk_for_with_samples` without a cache file: the witness bases come from a circuit with
dummy inputs and a dummy proof, the baked points from the samples. -/
def buildPvugcSetupFromPkForWithSamplesUncached (e : Pairing C.OuterScalar G1 G2 GT)
    (backend : PolynomialBackend C.OuterScalar) (pkOuter : ProvingKey G1 G2) (vkInner : VerifyingKey I1 I2)
    (innerProofGenerator : List C.InnerScalar → Proof I1 I2) (sampleStatements : List (List C.InnerScalar)) :
    Option (PvugcVk G2 GT × LeanProvingKey G1 G2) :=
  if sampleStatements.length ≠ vkInner.gammaAbcG1.length then none
  else match synthesize P ⟨vkInner, List.replicate (vkInner.gammaAbcG1.length - 1) 0, ⟨0, 0, 0⟩⟩ with
  | .error _ => none
  | .ok ⟨m, _⟩ =>
    match buildLeanProvingKey backend pkOuter m with
    | none => none
    | some leanPk =>
      if sampleStatements.isEmpty || sampleStatements.any (·.length ≠ (sampleStatements.headD []).length) then none
      else match sampleStatements.mapM (statementGap P backend pkOuter leanPk vkInner innerProofGenerator) with
      | none => none
      | some gaps => (solveQConstFromSamples gaps).map fun qPoints =>
        (PvugcVk.ofProvingKey pkOuter (qPoints.map fun q => e.pairing q pkOuter.vk.deltaG2), leanPk)

/-- `build_pvugc_setup_from_pk_for` without a cache file. -/
def buildPvugcSetupFromPkForUncached (e : Pairing C.OuterScalar G1 G2 GT) (backend : PolynomialBackend C.OuterScalar)
    (pkOuter : ProvingKey G1 G2) (vkInner : VerifyingKey I1 I2)
    (innerProofGenerator : List C.InnerScalar → Proof I1 I2) : Option (PvugcVk G2 GT × LeanProvingKey G1 G2) :=
  buildPvugcSetupFromPkForWithSamplesUncached P e backend pkOuter vkInner innerProofGenerator
    (canonicalSampleStatements C (vkInner.gammaAbcG1.length - 1))

omit [DecidableEq G1] [DecidableEq G2] in
/-- The lean prover on the circuit of an inner proof. -/
def proveLeanOuter (leanPk : LeanProvingKey G1 G2) (vkInner : VerifyingKey I1 I2) (xInner : List C.InnerScalar)
    (proofInner : Proof I1 I2) (r s : C.OuterScalar) : Except Failure (Proof G1 G2 × List C.OuterScalar) :=
  match synthesize P ⟨vkInner, xInner, proofInner⟩ with
  | .error failure => .error failure
  | .ok ⟨_, z⟩ => (proveLeanWithRandomizers leanPk z r s).mapError .synthesis

end Code

section Samples

variable {C : RecursionCycle}

/-- The coordinates of the canonical statements. -/
def canonicalPoint (C : RecursionCycle) (n i : ℕ) : List C.OuterScalar := tabulate n fun k => if i = k + 1 then 1 else 0

theorem canonicalSampleStatements_eq (n : ℕ) : canonicalSampleStatements C n =
    tabulate (n + 1) fun i => tabulate n fun k => if i = k + 1 then 1 else 0 := by
  rw [tabulate_succ, canonicalSampleStatements]
  congr 1
  · exact List.ext_getElem (by simp) fun k _ _ => by simp [tabulate]
  · apply List.map_congr_left
    intro idx _
    refine List.ext_getElem (by simp) fun k _ _ => ?_
    simp [tabulate, List.getElem_set]

theorem convertInnerToOuter_zero : C.convertInnerToOuter 0 = 0 := by
  rw [C.convertInnerToOuter_eq, ZMod.val_zero, Nat.cast_zero]

theorem convertInnerToOuter_one : C.convertInnerToOuter 1 = 1 := by
  have large : Fact (1 < C.innerModulus) := by
    refine ⟨Nat.lt_of_le_of_ne C.positive fun single => C.notDvd ?_⟩
    rw [← single]
    exact one_dvd _
  rw [C.convertInnerToOuter_eq, ZMod.val_one, Nat.cast_one]

/-- The embedding of a canonical statement is canonical. -/
theorem canonicalPoint_eq (n i : ℕ) :
    (tabulate n fun k => if i = k + 1 then (1 : C.InnerScalar) else 0).map C.convertInnerToOuter =
      canonicalPoint C n i := by
  rw [tabulate_map, canonicalPoint]
  apply tabulate_congr
  intro k _
  rw [Function.comp_apply, apply_ite C.convertInnerToOuter, convertInnerToOuter_one, convertInnerToOuter_zero]

/-- The canonical statements are affinely independent. -/
theorem canonicalPoint_independent [Fact C.outerModulus.Prime] (n : ℕ) :
    AffineIndependent C.OuterScalar fun (i : Fin (n + 1)) (k : Fin n) =>
      statementOf (canonicalPoint C n i) (k + 1) := by
  have coordinate (i : Fin (n + 1)) (k : Fin n) :
      statementOf (canonicalPoint C n i) (k + 1) = if (i : ℕ) = k + 1 then 1 else 0 := by
    rw [statementOf, List.getD_cons_succ, canonicalPoint, tabulate_getD _ k.isLt]
  rw [affineIndependent_iff]
  intro s w total vanishes
  have units (k : Fin n) (member : k.succ ∈ s) : w k.succ = 0 := by
    have entry := congrFun vanishes k
    rw [Finset.sum_apply, Finset.sum_eq_single_of_mem k.succ member] at entry
    · rwa [Pi.smul_apply, coordinate, if_pos (Fin.val_succ k), smul_eq_mul, mul_one] at entry
    · intro i _ different
      have apart : (i : ℕ) ≠ k + 1 := fun same => different (Fin.ext same)
      rw [Pi.smul_apply, coordinate, if_neg apart, smul_zero]
  intro i member
  cases i using Fin.cases with
  | zero =>
      rw [Finset.sum_eq_single_of_mem 0 member] at total
      · exact total
      · intro j inside nonzero
        obtain ⟨k, rfl⟩ := Fin.exists_succ_eq.mpr nonzero
        exact units k inside
  | succ k => exact units k member

/-- The samples of an affine function at the canonical statements determine it. -/
theorem solveQConst_canonical [Fact C.outerModulus.Prime] {G1 : Type} [AddCommGroup G1] [Module C.OuterScalar G1]
    [DecidableEq G1] (n : ℕ) (q : ℕ → G1) :
    solveQConstFromSamples (tabulate (n + 1) fun i => (canonicalPoint C n i, affineAt q (canonicalPoint C n i))) =
      some (tabulate (n + 1) q) :=
  solveQConstFromSamples_affine (x := canonicalPoint C n) (fun _ _ => tabulate_length _ _)
    (canonicalPoint_independent n) q

end Samples

section Matrices

variable {F G1 G2 GT D : Type} [Field F] [DecidableEq F] [AddCommGroup G1] [Module F G1] [DecidableEq G1]
variable [AddCommGroup G2] [Module F G2] [DecidableEq G2] [AddCommGroup GT] [Module F GT] [DecidableEq GT]
variable [DecidableEq D] {m : ConstraintMatrices F} {waste : Trapdoor F} {domain : EvaluationDomain F} {g1 : G1} {g2 : G2}

/-- A lean proof of the armed statement is accepted with the baked points and decapsulates to the armed key. -/
theorem lean_decapsulates (shape : OuterShape m) {e : Pairing F G1 G2 GT} (characteristic : (e.modulus : F) = 0)
    {hashG2 : G2 → D} (deriveRTheta : G1 → G1 → F → F) (gammaNonzero : waste.gamma ≠ 0) (deltaNonzero : waste.delta ≠ 0)
    (fits : m.numVars ≤ 2 ^ 32) (rows : m.numConstraints ≤ domain.size) {z : Assignment m} (satisfied : z.Satisfies)
    {pvugcVk : PvugcVk G2 GT} (baked : pvugcVk = PvugcVk.ofProvingKey (waste.provingKey domain m g1 g2)
      (tabulate m.numInstanceVariables fun k => e.pairing (waste.gapPoint domain shape g1 k) (waste.delta • g2)))
    {rho : F} {bases : ColumnBases G2} {arms : ColumnArms G2} {target key : GT}
    (armed : setupAndArm e hashG2 pvugcVk (waste.provingKey domain m g1 g2).vk z.publicInputs rho =
      .ok (bases, arms, target, key)) (r s : F) :
    ∃ lean commitments,
      proveLeanWithRandomizers (leanProvingKey (waste.provingKey domain m g1 g2)
        (waste.publishedBases domain m g1)) z r s = .ok (lean, z.fullAssignment) ∧
      buildCommitments deriveRTheta lean.a lean.c s z.fullAssignment m.numInstanceVariables = some commitments ∧
      verifyOuterFor e (waste.provingKey domain m g1 g2).vk z.publicInputs lean (some pvugcVk) = .ok true ∧
      ∀ debugAssertions, decapsulate debugAssertions e commitments arms = .ok key := by
  subst baked
  obtain ⟨-, -, computed, -, columns, -, scaled, rfl⟩ := setupAndArm_eq_ok.mp armed
  have value := waste.computeBakedTarget_setup domain shape e gammaNonzero g1 g2 computed
  have proved := proveLeanWithRandomizers_eq waste domain g1 g2 (waste.publishedBases domain m g1) z r s
  set lean : Proof G1 G2 := {
    a := waste.aScalar domain z r • g1
    b := waste.bScalar domain z s • g2
    c := waste.cLinearScalar domain z r s • g1 + quadraticSum (waste.publishedBases domain m g1) z }
  have equation : e.pairing lean.a lean.b = target + e.pairing lean.c (waste.delta • g2) := by
    rw [value, bakedTarget_publicInputs]
    exact waste.lean_equation shape e deltaNonzero fits rows g1 g2 satisfied r s
  obtain ⟨commitments, committed⟩ := buildCommitments_exists deriveRTheta lean.a lean.c s z
  obtain ⟨lengths, reached⟩ := schedule_lean shape (e := e) deltaNonzero fits rows columns satisfied proved committed
  refine ⟨lean, commitments, proved, committed, ?_, fun debugAssertions => ?_⟩
  · obtain ⟨points, covered, -, -, split⟩ := (computeBakedTarget_eq_ok_iff ..).mp computed
    rw [verifyOuterFor_eq, if_neg (by rw [covered]; simp), if_pos points, ← split]
    exact congrArg Except.ok (decide_eq_true equation)
  · rw [decapsulate_armed scaled (good_of_module characteristic commitments) lengths, reached, value]

end Matrices

section Runs

variable {C : RecursionCycle} [Fact C.outerModulus.Prime] {I1 I2 IT G1 G2 GT : Type} [AddCommGroup I1]
variable [AddCommGroup I2] [AddCommGroup IT] [Module C.InnerScalar I1] [Module C.InnerScalar I2]
variable [Module C.InnerScalar IT] [DecidableEq IT] [AddCommGroup G1] [AddCommGroup G2] [AddCommGroup GT]
variable [Module C.OuterScalar G1] [Module C.OuterScalar G2] [Module C.OuterScalar GT]
variable [DecidableEq G1] [DecidableEq G2]
variable {inner : Pairing C.InnerScalar I1 I2 IT} {P : PairingVar C.OuterScalar inner} (lawful : P.Lawful)
variable {backend : PolynomialBackend C.OuterScalar} {domain : EvaluationDomain C.OuterScalar}
variable {waste : Trapdoor C.OuterScalar}

omit [DecidableEq IT] in
/-- The gap of a satisfied sample, for a key that is generated from matrices given elsewhere. -/
theorem sampleGap_of_matrices {m m' : ConstraintMatrices C.OuterScalar} (same : m' = m)
    (created : backend.newDomain m.qapDomainSize = some domain) (fits : m.numVars ≤ 2 ^ 32) (shape : OuterShape m)
    (g1 : G1) (g2 : G2) {z : Assignment m'} (satisfied : z.Satisfies) :
    sampleGap backend (waste.provingKey domain m g1 g2)
        (leanProvingKey (waste.provingKey domain m g1 g2) (waste.publishedBases domain m g1)) z =
      some (z.publicInputs, affineAt (waste.gapPoint domain shape g1) z.publicInputs) := by
  subst same
  exact sampleGap_eq created fits shape g1 g2 satisfied

variable (uniform : P.Uniform) {circuit : OuterCircuit C I1 I2}
variable (lengths : circuit.xInner.length + 1 = circuit.vkInner.gammaAbcG1.length)
include lawful uniform lengths

/-- The gap of a statement with an accepted inner proof. -/
theorem statementGap_eq (created : backend.newDomain (circuit.matrices lawful).qapDomainSize = some domain)
    (fits : (circuit.matrices lawful).numVars ≤ 2 ^ 32) (g1 : G1) (g2 : G2)
    {innerProofGenerator : List C.InnerScalar → Proof I1 I2} {statement : List C.InnerScalar}
    (count : statement.length = circuit.xInner.length)
    (accepted : verify inner circuit.vkInner statement (innerProofGenerator statement) = .ok true) :
    statementGap P backend (waste.provingKey domain (circuit.matrices lawful) g1 g2)
        (leanProvingKey (waste.provingKey domain (circuit.matrices lawful) g1 g2)
          (waste.publishedBases domain (circuit.matrices lawful) g1)) circuit.vkInner innerProofGenerator statement =
      some (statement.map C.convertInnerToOuter,
        affineAt (waste.gapPoint domain (circuit.outerShape lawful) g1) (statement.map C.convertInnerToOuter)) := by
  let sample : OuterCircuit C I1 I2 := ⟨circuit.vkInner, statement, innerProofGenerator statement⟩
  have key : sample.vkInner = circuit.vkInner := rfl
  have asked : sample.xInner.length + 1 = sample.vkInner.gammaAbcG1.length := by
    rw [← lengths, ← count]
  have same : sample.matrices lawful = circuit.matrices lawful :=
    (OuterCircuit.generateConstraints_sameShape uniform key count).2.toMatrices_eq _ _
  have satisfied := (sample.assigned_satisfies_iff lawful asked).mpr accepted
  have inputs : (sample.assigned lawful).publicInputs = statement.map C.convertInnerToOuter :=
    sample.assigned_publicInputs lawful
  rw [statementGap, synthesize_eq lawful sample asked, ← inputs]
  exact sampleGap_of_matrices same created fits (circuit.outerShape lawful) g1 g2 satisfied

/-- The inner proofs of the canonical statements give the samples of the affine gap. -/
theorem canonicalGaps_eq (created : backend.newDomain (circuit.matrices lawful).qapDomainSize = some domain)
    (fits : (circuit.matrices lawful).numVars ≤ 2 ^ 32) (g1 : G1) (g2 : G2)
    {innerProofGenerator : List C.InnerScalar → Proof I1 I2}
    (valid : ∀ statement ∈ canonicalSampleStatements C circuit.xInner.length,
      verify inner circuit.vkInner statement (innerProofGenerator statement) = .ok true) :
    (canonicalSampleStatements C circuit.xInner.length).mapM (statementGap P backend
        (waste.provingKey domain (circuit.matrices lawful) g1 g2)
        (leanProvingKey (waste.provingKey domain (circuit.matrices lawful) g1 g2)
          (waste.publishedBases domain (circuit.matrices lawful) g1)) circuit.vkInner innerProofGenerator) =
      some (tabulate (circuit.xInner.length + 1) fun i => (canonicalPoint C circuit.xInner.length i, affineAt
        (waste.gapPoint domain (circuit.outerShape lawful) g1) (canonicalPoint C circuit.xInner.length i))) := by
  rw [mapM_eq_some _ _ (fun statement => (statement.map C.convertInnerToOuter,
    affineAt (waste.gapPoint domain (circuit.outerShape lawful) g1) (statement.map C.convertInnerToOuter)))]
  · rw [canonicalSampleStatements_eq, tabulate_map]
    refine congrArg some (tabulate_congr fun i _ => ?_)
    rw [Function.comp_apply, canonicalPoint_eq]
  · intro statement member
    have count : statement.length = circuit.xInner.length := by
      rw [canonicalSampleStatements_eq] at member
      obtain ⟨i, -, rfl⟩ := mem_tabulate.mp member
      exact tabulate_length _ _
    exact statementGap_eq lawful uniform lengths created fits g1 g2 count (valid statement member)

/-- What the setup of a circuit returns: the lean key and the pairings of the gap points with `delta`. -/
theorem buildPvugcSetupFromPkForUncached_eq (e : Pairing C.OuterScalar G1 G2 GT)
    (created : backend.newDomain (circuit.matrices lawful).qapDomainSize = some domain)
    (outside : waste.tau ^ domain.size ≠ 1) (fits : (circuit.matrices lawful).numVars ≤ 2 ^ 32) {g1 : G1} {g2 : G2}
    {innerProofGenerator : List C.InnerScalar → Proof I1 I2}
    (valid : ∀ statement ∈ canonicalSampleStatements C circuit.xInner.length,
      verify inner circuit.vkInner statement (innerProofGenerator statement) = .ok true) :
    buildPvugcSetupFromPkForUncached P e backend (waste.provingKey domain (circuit.matrices lawful) g1 g2)
        circuit.vkInner innerProofGenerator =
      (buildLeanProvingKey backend (waste.provingKey domain (circuit.matrices lawful) g1 g2)
        (circuit.matrices lawful)).map fun leanPk =>
          (PvugcVk.ofProvingKey (waste.provingKey domain (circuit.matrices lawful) g1 g2)
            (tabulate (circuit.matrices lawful).numInstanceVariables fun k =>
              e.pairing (waste.gapPoint domain (circuit.outerShape lawful) g1 k) (waste.delta • g2)), leanPk) := by
  let dummy : OuterCircuit C I1 I2 := ⟨circuit.vkInner, List.replicate circuit.xInner.length 0, ⟨0, 0, 0⟩⟩
  have key : dummy.vkInner = circuit.vkInner := rfl
  have count : dummy.xInner.length = circuit.xInner.length := List.length_replicate
  have same : dummy.matrices lawful = circuit.matrices lawful :=
    (OuterCircuit.generateConstraints_sameShape uniform key count).2.toMatrices_eq _ _
  have number : circuit.vkInner.gammaAbcG1.length - 1 = circuit.xInner.length := by omega
  have samples : (canonicalSampleStatements C circuit.xInner.length).length = circuit.vkInner.gammaAbcG1.length := by
    rw [canonicalSampleStatements_eq, tabulate_length, lengths]
  have width : ((canonicalSampleStatements C circuit.xInner.length).isEmpty ||
      (canonicalSampleStatements C circuit.xInner.length).any
        (·.length ≠ ((canonicalSampleStatements C circuit.xInner.length).headD []).length)) = false := by
    have first : ((canonicalSampleStatements C circuit.xInner.length).headD []).length = circuit.xInner.length :=
      List.length_replicate
    rw [first, canonicalSampleStatements, List.isEmpty_cons, Bool.false_or, List.any_eq_false,
      ← canonicalSampleStatements]
    intro statement member
    rw [canonicalSampleStatements_eq] at member
    obtain ⟨i, -, rfl⟩ := mem_tabulate.mp member
    simp
  rw [buildPvugcSetupFromPkForUncached, buildPvugcSetupFromPkForWithSamplesUncached, number,
    if_neg (not_not.mpr samples), synthesize_eq lawful dummy (count ▸ lengths)]
  dsimp only
  rw [same]
  cases built : buildLeanProvingKey backend (waste.provingKey domain (circuit.matrices lawful) g1 g2)
      (circuit.matrices lawful) with
  | none => rfl
  | some leanPk =>
      obtain ⟨bases, computed, rfl, -⟩ := buildLeanProvingKey_eq_some built
      obtain rfl := computeWitnessBases_published created outside computed
      dsimp only
      rw [width, canonicalGaps_eq lawful uniform lengths created fits g1 g2 valid]
      dsimp only
      rw [solveQConst_canonical, circuit.matrices_instances lawful, Option.map_some, Option.map_some, tabulate_map]
      rfl

end Runs

section Binary

abbrev binaryPk : ProvingKey binaryCycle.OuterScalar binaryCycle.OuterScalar :=
  binaryWaste.provingKey thirtySecondRoots binaryMatrices 1 1

abbrev binaryLeanPk : LeanProvingKey binaryCycle.OuterScalar binaryCycle.OuterScalar :=
  leanProvingKey binaryPk (binaryWaste.publishedBases thirtySecondRoots binaryMatrices 1)

/-- An inner proof of any statement with one input. -/
def binaryProof (statement : List binaryCycle.InnerScalar) :
    Proof binaryCycle.InnerScalar binaryCycle.InnerScalar := ⟨1, 1, -statement.headD 0⟩

/-- The proofs of the samples are accepted. -/
theorem binarySamples_valid : ∀ statement ∈ canonicalSampleStatements binaryCycle 1,
    verify (mulPairing binaryCycle.InnerScalar binaryCycle.innerModulus) (unitCircuit binaryCycle).vkInner statement
      (binaryProof statement) = .ok true := by
  decide

theorem binarySetup : buildPvugcSetupFromPkForUncached binaryGadgets (mulPairing binaryCycle.OuterScalar 12289)
    binaryBackend binaryPk (unitCircuit binaryCycle).vkInner binaryProof =
      some (PvugcVk.ofProvingKey binaryPk [1996, 3582], binaryLeanPk) := by
  have outside : binaryWaste.tau ^ thirtySecondRoots.size ≠ 1 := by decide +kernel
  have fits : binaryMatrices.numVars ≤ 2 ^ 32 := by decide +kernel
  have published := buildLeanProvingKey_eq (L := 5) binaryMatrices_created rfl outside (by decide +kernel) fits
    ((unitCircuit binaryCycle).outerShape binaryGadgets_lawful) (1 : binaryCycle.OuterScalar)
    (1 : binaryCycle.OuterScalar)
  rw [buildPvugcSetupFromPkForUncached_eq binaryGadgets_lawful binaryGadgets_uniform rfl _ binaryMatrices_created
    outside fits binarySamples_valid, published, Option.map_some]
  refine congrArg (fun points => some (PvugcVk.ofProvingKey binaryPk points, binaryLeanPk)) ?_
  decide +kernel

theorem binarySetup_generated : setupOuterParamsFor binaryGadgets binaryBackend binaryWaste 1 1
    (unitCircuit binaryCycle).vkInner (unitCircuit binaryCycle).xInner.length = .ok (binaryPk, binaryPk.vk) := by
  have generated : generateParametersWithQap binaryBackend binaryMatrices binaryWaste 1 1 = .ok binaryPk :=
    generateParametersWithQap_eq_ok.mpr ⟨by decide, by decide, _, binaryMatrices_created, rfl⟩
  rw [setupOuterParamsFor_eq binaryGadgets_lawful rfl binaryGadgets_uniform, generated]
  rfl

/-- The columns of the statement one; some witnesses occur in no right side of a row. -/
def binaryColumns : ColumnBases binaryCycle.OuterScalar where
  yCols := [1050, 11902, 9051, 4803, 0, 11647, 0, 0, 0, 3676, 4875, 7298, 3227, 0, 0, 0, 0, 11024, 6856, 2480, 11333, 0,
    10755, 2035, 11178, 1174, 0, 8291, 3263, 5383, 4243, 9940]
  delta := 7

end Binary

end Pvugc.Outer
