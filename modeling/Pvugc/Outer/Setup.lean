import Pvugc.OneSided.GeneratedKey
import Pvugc.Outer.QuotientPoints
import Pvugc.Outer.StandardLean

namespace Pvugc.Outer
open Pvugc.Algebra Pvugc.Groth16 Pvugc.OneSided Finset

section Code

variable {F G1 G2 GT : Type} [AddCommGroup G1] [DecidableEq G1]

/-- A column of a public input, the constant one excluded. -/
def isPublicColumn (numPublic i : ℕ) : Bool := decide (0 < i) && decide (i < numPublic)

/-- `audit_witness_bases`. -/
def auditWitnessBases (numPublic : ℕ) (hQueryWit : HQueryWit G1) : Bool :=
  hQueryWit.all (fun (i, j, _) =>
    !(isPublicColumn numPublic i.toNat && isPublicColumn numPublic j.toNat) &&
      !isPublicColumn numPublic i.toNat) &&
  (hQueryWit.countP fun (i, j, _) => isPublicColumn numPublic i.toNat && decide (numPublic ≤ j.toNat)) == 0 &&
  (hQueryWit.countP fun (i, j, _) => i.toNat == 0 && j.toNat == 0) == 0

/-- The `A` query holds no handle of a public input. -/
def auditAQuery (numPublic : ℕ) (aQuery : List G1) : Bool :=
  ((aQuery.take numPublic).drop 1).all fun g => g = 0

/-- The checks on the lean key before it is serialized. -/
def auditLeanProvingKey (leanPk : LeanProvingKey G1 G2) : Bool :=
  let numPublic := leanPk.vk.gammaAbcG1.length
  auditAQuery numPublic leanPk.aQueryWit &&
  leanPk.hQueryWit.all fun (i, j, base) => decide (base ≠ 0) &&
    !(isPublicColumn numPublic i.toNat || isPublicColumn numPublic j.toNat) && !(i.toNat == 0 && j.toNat == 0)

variable [Field F] [DecidableEq F] [Module F G1] [AddCommGroup G2] [Module F G2] [DecidableEq G2]
variable [AddCommGroup GT] [Module F GT]

/-- The audited lean key of a proving key. -/
def buildLeanProvingKey (backend : PolynomialBackend F) (pkOuter : ProvingKey G1 G2)
    (m : ConstraintMatrices F) : Option (LeanProvingKey G1 G2) :=
  match computeWitnessBases backend m pkOuter with
  | none => none
  | some hQueryWit =>
    let numPublic := pkOuter.vk.gammaAbcG1.length
    if !auditWitnessBases numPublic hQueryWit then none
    else if !auditAQuery numPublic pkOuter.aQuery then none
    else
      let leanPk := leanProvingKey pkOuter hQueryWit
      if !auditLeanProvingKey leanPk then none else some leanPk

/-- The key and the baked points of `build_pvugc_setup_from_pk_for_with_samples` without a cache file;
the samples are synthesized assignments. -/
def computeSetup (e : Pairing F G1 G2 GT) (backend : PolynomialBackend F) (pkOuter : ProvingKey G1 G2)
    {m : ConstraintMatrices F} (samples : List (Assignment m)) :
    Option (LeanProvingKey G1 G2 × List GT) :=
  match buildLeanProvingKey backend pkOuter m with
  | none => none
  | some leanPk =>
    (computeTConstPointsGtFromGap e backend pkOuter leanPk samples).map fun tConstGt => (leanPk, tConstGt)

/-- `build_pvugc_setup_from_pk_for_with_samples` without a cache file. -/
def buildPvugcSetupFromPk (e : Pairing F G1 G2 GT) (backend : PolynomialBackend F)
    (pkOuter : ProvingKey G1 G2) {m : ConstraintMatrices F} (samples : List (Assignment m)) :
    Option (PvugcVk G2 GT × LeanProvingKey G1 G2) :=
  if samples.length ≠ m.numInstanceVariables then none
  else (computeSetup e backend pkOuter samples).map fun (leanPk, tConstGt) =>
    (PvugcVk.ofProvingKey pkOuter tConstGt, leanPk)

omit [AddCommGroup G2] [Module F G2] [DecidableEq G2] in
/-- A returned lean key carries the verifying key it was built for and has passed the audits. -/
theorem buildLeanProvingKey_eq_some {backend : PolynomialBackend F} {pkOuter : ProvingKey G1 G2}
    {m : ConstraintMatrices F} {leanPk : LeanProvingKey G1 G2}
    (built : buildLeanProvingKey backend pkOuter m = some leanPk) :
    ∃ hQueryWit, computeWitnessBases backend m pkOuter = some hQueryWit ∧
      leanPk = leanProvingKey pkOuter hQueryWit ∧ auditLeanProvingKey leanPk = true := by
  unfold buildLeanProvingKey at built
  split at built
  case h_1 => cases built
  case h_2 hQueryWit computed =>
    dsimp only at built
    split at built
    case isTrue => cases built
    case isFalse =>
      split at built
      case isTrue => cases built
      case isFalse =>
        split at built
        case isTrue => cases built
        case isFalse passed =>
          cases built
          exact ⟨hQueryWit, computed, rfl, by simpa using passed⟩

theorem buildPvugcSetupFromPk_of_points {e : Pairing F G1 G2 GT} {backend : PolynomialBackend F}
    {pkOuter : ProvingKey G1 G2} {m : ConstraintMatrices F} {samples : List (Assignment m)}
    {leanPk : LeanProvingKey G1 G2} {tConstGt : List GT} (count : samples.length = m.numInstanceVariables)
    (key : buildLeanProvingKey backend pkOuter m = some leanPk)
    (points : computeTConstPointsGtFromGap e backend pkOuter leanPk samples = some tConstGt) :
    buildPvugcSetupFromPk e backend pkOuter samples = some (PvugcVk.ofProvingKey pkOuter tConstGt, leanPk) := by
  rw [buildPvugcSetupFromPk, if_neg (not_not.mpr count), computeSetup, key]
  dsimp only
  rw [points]
  rfl

end Code

end Pvugc.Outer

namespace Pvugc.Groth16.Trapdoor
open Pvugc.Algebra Pvugc.Outer Finset

section Audits

variable {F G1 G2 : Type} [Field F] [AddCommGroup G1] [Module F G1] [DecidableEq G1]
variable (waste : Trapdoor F) (domain : EvaluationDomain F) {m : ConstraintMatrices F}

theorem u_eq_zero (shape : OuterShape m) {k : ℕ} (positive : 0 < k) (inside : k < m.numInstanceVariables) :
    waste.u domain m k = 0 := by
  rw [u, columnValue]
  apply sum_eq_zero
  intro i _
  rw [OuterShape.entry_eq_zero shape.a_free i positive inside, zero_mul]

theorem v_eq_zero (shape : OuterShape m) {k : ℕ} (positive : 0 < k) (inside : k < m.numInstanceVariables) :
    waste.v domain m k = 0 := by
  rw [v, columnValue]
  apply sum_eq_zero
  intro i _
  rw [OuterShape.entry_eq_zero shape.b_free i positive inside, zero_mul]

/-- Below the 32-bit limit a published base is nonzero, names no public column and is not the constant pair. -/
theorem publishedBases_index (shape : OuterShape m) (g1 : G1) (fits : m.numVars ≤ 2 ^ 32)
    {stored : UInt32 × UInt32 × G1} (member : stored ∈ waste.publishedBases domain m g1) :
    stored.2.2 ≠ 0 ∧ isPublicColumn m.numInstanceVariables stored.1.toNat = false ∧
      isPublicColumn m.numInstanceVariables stored.2.1.toNat = false ∧
        ¬(stored.1.toNat = 0 ∧ stored.2.1.toNat = 0) := by
  obtain ⟨⟨i, j⟩, active, published⟩ := List.mem_filterMap.mp member
  obtain ⟨left, right⟩ := activePairs_lt active
  obtain ⟨inA, inB, mixed, -⟩ := mem_activePairs.mp active
  have positive := m.instancePositive
  split at published
  case isTrue => cases published
  case isFalse nonzero =>
    cases published
    have notPublic {rows : List (Row F)} {k : ℕ}
        (free : ∀ i, ∀ term ∈ rows.getD i [], term.2 = 0 ∨ m.numInstanceVariables ≤ term.2)
        (occurs : k ∈ occurringColumns m.numVars domain.size rows) :
        isPublicColumn m.numInstanceVariables k = false := by
      obtain ⟨-, row, rowMember, term, termMember, rfl⟩ := mem_occurringColumns.mp occurs
      obtain ⟨index, located⟩ := List.mem_iff_getElem?.mp (List.mem_of_mem_take rowMember)
      have allowed := free index term (by rwa [List.getD_eq_getElem?_getD, located, Option.getD_some])
      simp only [isPublicColumn, Bool.and_eq_false_iff, decide_eq_false_iff_not]
      omega
    rw [UInt32.toNat_ofNat_of_lt' (left.trans_le fits), UInt32.toNat_ofNat_of_lt' (right.trans_le fits)]
    refine ⟨nonzero, notPublic shape.a_free inA, notPublic shape.b_free inB, ?_⟩
    rintro ⟨rfl, rfl⟩
    exact mixed ⟨positive, positive⟩

end Audits

end Pvugc.Groth16.Trapdoor

namespace Pvugc.Outer
open Pvugc.Algebra Pvugc.Groth16 Pvugc.OneSided Finset

section Build

variable {F G1 G2 GT : Type} [Field F] [DecidableEq F] [AddCommGroup G1] [Module F G1] [DecidableEq G1]
variable [AddCommGroup G2] [Module F G2] {backend : PolynomialBackend F} {m : ConstraintMatrices F}
variable {domain : EvaluationDomain F} {waste : Trapdoor F} {L : ℕ}

/-- The lean key of an outer-shaped system passes every audit. -/
theorem buildLeanProvingKey_eq (created : backend.newDomain m.qapDomainSize = some domain)
    (size : domain.size = 2 ^ L) (outside : waste.tau ^ domain.size ≠ 1) (two : (2 : F) ≠ 0)
    (fits : m.numVars ≤ 2 ^ 32) (shape : OuterShape m) (g1 : G1) (g2 : G2) :
    buildLeanProvingKey backend (waste.provingKey domain m g1 g2) m =
      some (leanProvingKey (waste.provingKey domain m g1 g2) (waste.publishedBases domain m g1)) := by
  have instances : (waste.provingKey domain m g1 g2).vk.gammaAbcG1.length = m.numInstanceVariables := by
    rw [Trapdoor.provingKey, tabulate_length]
  have index (stored : UInt32 × UInt32 × G1) (member : stored ∈ waste.publishedBases domain m g1) :=
    waste.publishedBases_index domain shape g1 fits member
  have witness : auditWitnessBases m.numInstanceVariables (waste.publishedBases domain m g1) = true := by
    simp only [auditWitnessBases, Bool.and_eq_true, List.all_eq_true, beq_iff_eq, List.countP_eq_zero]
    refine ⟨⟨?_, ?_⟩, ?_⟩
    · intro stored member
      simp [(index stored member).2.1]
    · intro stored member
      simp [(index stored member).2.1]
    · intro stored member
      simpa using (index stored member).2.2.2
  have aQuery : auditAQuery m.numInstanceVariables (waste.provingKey domain m g1 g2).aQuery = true := by
    have included : m.numInstanceVariables ≤ m.numVars := Nat.le_add_right _ _
    simp only [auditAQuery, Trapdoor.provingKey, tabulate_take _ included, tabulate_drop, List.all_eq_true]
    intro g member
    obtain ⟨k, inside, rfl⟩ := List.mem_map.mp member
    have bound := List.mem_range.mp inside
    rw [waste.u_eq_zero domain shape (by omega) (by omega), zero_smul]
    exact decide_eq_true rfl
  have published : auditLeanProvingKey (leanProvingKey (waste.provingKey domain m g1 g2)
      (waste.publishedBases domain m g1)) = true := by
    simp only [auditLeanProvingKey, leanProvingKey, instances, aQuery, Bool.true_and, List.all_eq_true]
    intro stored member
    obtain ⟨nonzero, left, right, mixed⟩ := index stored member
    simpa [nonzero, left, right, imp_iff_not_or] using mixed
  simp only [buildLeanProvingKey, computeWitnessBases_eq_some created size outside two fits g1 g2, instances,
    witness, aQuery, published, Bool.not_true, Bool.false_eq_true, if_false]

variable [DecidableEq G2]

/-- The gap of a satisfied sample is the affine gap of its public inputs. -/
theorem sampleGap_eq (created : backend.newDomain m.qapDomainSize = some domain) (fits : m.numVars ≤ 2 ^ 32)
    (shape : OuterShape m) (g1 : G1) (g2 : G2) {z : Assignment m} (satisfied : z.Satisfies) :
    sampleGap backend (waste.provingKey domain m g1 g2)
        (leanProvingKey (waste.provingKey domain m g1 g2) (waste.publishedBases domain m g1)) z =
      some (z.publicInputs, affineAt (waste.gapPoint domain shape g1) z.publicInputs) := by
  obtain ⟨standard, lean, standardOk, leanOk, sameA, sameB, difference⟩ :=
    standard_sub_lean created waste g1 g2 (waste.publishedBases domain m g1) satisfied 0 0
  have gap : standard.c - lean.c = affineAt (waste.gapPoint domain shape g1) z.publicInputs := by
    rw [difference, waste.quotient_sub_quadraticSum domain g1 satisfied fits,
      waste.leftOut_eq_gapAt domain shape g1 satisfied (newDomain_numConstraints created), Trapdoor.gapAt,
      affineAt, publicInputs_length, Nat.sub_add_cancel m.instancePositive]
    apply sum_congr rfl
    intro k member
    rw [statementOf_publicInputs z (mem_range.mp member)]
  rw [sampleGap_of_proofs standardOk leanOk sameA sameB, gap]

/-- The public inputs of an assignment as a point of the space of statements. -/
def instancePoint (z : Assignment m) (k : Fin (m.numInstanceVariables - 1)) : F := z.value (k + 1)

/-- Satisfied samples at affinely independent statements give the points of the affine gap. -/
theorem computeQConstPointsFromGap_eq (created : backend.newDomain m.qapDomainSize = some domain)
    (fits : m.numVars ≤ 2 ^ 32) (shape : OuterShape m) (g1 : G1) (g2 : G2) {samples : List (Assignment m)}
    (count : samples.length = m.numInstanceVariables) (satisfied : ∀ z ∈ samples, z.Satisfies)
    (independent : AffineIndependent F fun i : Fin samples.length => instancePoint (samples.get i)) :
    computeQConstPointsFromGap backend (waste.provingKey domain m g1 g2)
        (leanProvingKey (waste.provingKey domain m g1 g2) (waste.publishedBases domain m g1)) samples =
      some (tabulate m.numInstanceVariables (waste.gapPoint domain shape g1)) := by
  set q := waste.gapPoint domain shape g1
  set x : ℕ → List F := fun i => (samples.map Assignment.publicInputs).getD i [] with hx
  have total : m.numInstanceVariables - 1 + 1 = m.numInstanceVariables :=
    Nat.sub_add_cancel m.instancePositive
  have located (i : ℕ) (inside : i < samples.length) : x i = (samples.get ⟨i, inside⟩).publicInputs := by
    rw [hx]
    simp [List.getD_eq_getElem?_getD, List.getElem?_eq_getElem inside]
  have width (i : ℕ) (inside : i < m.numInstanceVariables - 1 + 1) :
      (x i).length = m.numInstanceVariables - 1 := by
    rw [located i (by omega), publicInputs_length]
  have points : AffineIndependent F fun (i : Fin (m.numInstanceVariables - 1 + 1))
      (k : Fin (m.numInstanceVariables - 1)) => statementOf (x i) (k + 1) := by
    have reindexed := (affineIndependent_equiv (finCongr (total.trans count.symm))).mpr independent
    convert reindexed using 2 with i
    funext k
    rw [located i (by omega), statementOf_publicInputs _ (by omega)]
    rfl
  have gaps : samples.mapM (sampleGap backend (waste.provingKey domain m g1 g2)
      (leanProvingKey (waste.provingKey domain m g1 g2) (waste.publishedBases domain m g1))) =
        some (tabulate (m.numInstanceVariables - 1 + 1) fun i => (x i, affineAt q (x i))) := by
    rw [mapM_eq_some samples _ (fun z => (z.publicInputs, affineAt q z.publicInputs))
      (fun z member => sampleGap_eq created fits shape g1 g2 (satisfied z member)), total, ← count,
      ← List.length_map (f := Assignment.publicInputs)]
    have listed := tabulate_of_list (samples.map Assignment.publicInputs) []
    have paired := congrArg (List.map fun x => (x, affineAt q x)) listed
    rw [tabulate_map, List.map_map] at paired
    exact congrArg some paired.symm
  rw [computeQConstPointsFromGap, gaps]
  dsimp only
  rw [solveQConstFromSamples_affine width points q, total]

variable [AddCommGroup GT] [Module F GT]

/-- The setup of an outer-shaped system returns the lean key and the pairings of the gap points with `delta`. -/
theorem buildPvugcSetupFromPk_eq (created : backend.newDomain m.qapDomainSize = some domain)
    (size : domain.size = 2 ^ L) (outside : waste.tau ^ domain.size ≠ 1) (two : (2 : F) ≠ 0)
    (fits : m.numVars ≤ 2 ^ 32) (shape : OuterShape m) (e : Pairing F G1 G2 GT) (g1 : G1) (g2 : G2)
    {samples : List (Assignment m)} (count : samples.length = m.numInstanceVariables)
    (satisfied : ∀ z ∈ samples, z.Satisfies)
    (independent : AffineIndependent F fun i : Fin samples.length => instancePoint (samples.get i)) :
    buildPvugcSetupFromPk e backend (waste.provingKey domain m g1 g2) samples =
      some (PvugcVk.ofProvingKey (waste.provingKey domain m g1 g2) (tabulate m.numInstanceVariables fun k =>
          e.pairing (waste.gapPoint domain shape g1 k) (waste.delta • g2)),
        leanProvingKey (waste.provingKey domain m g1 g2) (waste.publishedBases domain m g1)) := by
  rw [buildPvugcSetupFromPk, if_neg (not_not.mpr count), computeSetup,
    buildLeanProvingKey_eq created size outside two fits shape g1 g2]
  simp only [computeTConstPointsGtFromGap,
    computeQConstPointsFromGap_eq created fits shape g1 g2 count satisfied independent, Option.map_some,
    tabulate_map]
  rfl

/-- What a setup of an outer-shaped system returns, whatever its domain. -/
theorem buildPvugcSetupFromPk_shape (created : backend.newDomain m.qapDomainSize = some domain)
    (outside : waste.tau ^ domain.size ≠ 1) (fits : m.numVars ≤ 2 ^ 32) (shape : OuterShape m)
    {e : Pairing F G1 G2 GT} {g1 : G1} {g2 : G2} {samples : List (Assignment m)}
    (satisfied : ∀ z ∈ samples, z.Satisfies)
    (independent : AffineIndependent F fun i : Fin samples.length => instancePoint (samples.get i))
    {pvugcVk : PvugcVk G2 GT} {leanPk : LeanProvingKey G1 G2}
    (built : buildPvugcSetupFromPk e backend (waste.provingKey domain m g1 g2) samples =
      some (pvugcVk, leanPk)) :
    pvugcVk = PvugcVk.ofProvingKey (waste.provingKey domain m g1 g2) (tabulate m.numInstanceVariables fun k =>
        e.pairing (waste.gapPoint domain shape g1 k) (waste.delta • g2)) ∧
      leanPk = leanProvingKey (waste.provingKey domain m g1 g2) (waste.publishedBases domain m g1) := by
  unfold buildPvugcSetupFromPk at built
  split at built
  case isTrue => cases built
  case isFalse same =>
    have count : samples.length = m.numInstanceVariables := not_not.mp same
    obtain ⟨⟨key, points⟩, computed, pair⟩ := Option.map_eq_some_iff.mp built
    obtain ⟨rfl, rfl⟩ := Prod.mk.inj pair
    unfold computeSetup at computed
    split at computed
    case h_1 => cases computed
    case h_2 audited located =>
      obtain ⟨baked, solved, result⟩ := Option.map_eq_some_iff.mp computed
      obtain ⟨rfl, rfl⟩ := Prod.mk.inj result
      have published : audited = leanProvingKey (waste.provingKey domain m g1 g2)
          (waste.publishedBases domain m g1) := by
        obtain ⟨bases, witness, key, -⟩ := buildLeanProvingKey_eq_some located
        rw [key, computeWitnessBases_published created outside witness]
      subst published
      rw [computeTConstPointsGtFromGap,
        computeQConstPointsFromGap_eq created fits shape g1 g2 count satisfied independent, Option.map_some,
        tabulate_map] at solved
      cases solved
      exact ⟨rfl, rfl⟩

end Build

section Sample

def boundSquareShape : OuterShape boundSquare where
  bindRow _ := 0
  xWit _ := 2
  bindRow_lt _ _ _ := by decide
  aRow _ _ _ := rfl
  bRow _ _ _ := rfl
  cRow k positive inside := by
    rw [eq_one_of_lt_two positive inside]
    rfl
  xWit_witness _ _ _ := by decide
  xWit_injective k l kPositive kInside lPositive lInside _ := by
    rw [eq_one_of_lt_two kPositive kInside, eq_one_of_lt_two lPositive lInside]
  a_free i := match i with
    | 0 | 1 => by decide
    | i + 2 => by simp [boundSquare]
  b_free i := match i with
    | 0 | 1 => by decide
    | i + 2 => by simp [boundSquare]
  c_free i := match i with
    | 0 | 1 => by decide
    | i + 2 => by simp [boundSquare]

/-- The key with the baked points of the bound square. -/
def boundSquareVk : PvugcVk (ZMod 13) (ZMod 13) :=
  PvugcVk.ofProvingKey boundSquarePk
    (tabulate boundSquare.numInstanceVariables fun k => (mulPairing (ZMod 13) 13).pairing
      (smallWaste.gapPoint fourthRoots boundSquareShape (1 : ZMod 13) k) (smallWaste.delta • 1))

theorem boundSquare_samples : AffineIndependent (ZMod 13) fun i : Fin [boundSquareOf 0, boundSquareOf 1].length =>
    instancePoint ([boundSquareOf 0, boundSquareOf 1].get i) := by
  have points : (fun i : Fin [boundSquareOf 0, boundSquareOf 1].length =>
      instancePoint ([boundSquareOf 0, boundSquareOf 1].get i)) =
        ![instancePoint (boundSquareOf 0), instancePoint (boundSquareOf 1)] := by
    funext i
    match i with
    | 0 => rfl
    | 1 => rfl
  rw [points]
  apply affineIndependent_of_ne
  intro same
  exact absurd (congrFun same ⟨0, Nat.one_pos⟩) (by decide)

theorem boundSquare_setup : buildPvugcSetupFromPk (mulPairing (ZMod 13) 13) smallBackend
    boundSquarePk
    [boundSquareOf 0, boundSquareOf 1] =
      some (boundSquareVk, leanProvingKey boundSquarePk
        (smallWaste.publishedBases fourthRoots boundSquare 1)) :=
  buildPvugcSetupFromPk_eq (L := 2) rfl rfl (by decide) (by decide) (by decide) boundSquareShape _ 1 1 rfl
    (by decide) boundSquare_samples

end Sample

end Pvugc.Outer
