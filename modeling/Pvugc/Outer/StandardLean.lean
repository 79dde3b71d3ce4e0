import Pvugc.Outer.OuterShape

namespace Pvugc.Outer
open Pvugc.Algebra Pvugc.Groth16 Finset

section Gap

variable {F G1 G2 : Type} [Field F] [AddCommGroup G1] [Module F G1] [AddCommGroup G2] [Module F G2]

/-- No stored index names an omitted pair when the indices fit into 32 bits. -/
theorem hasOmittedPair_publishedBases [DecidableEq G1] {m : ConstraintMatrices F} (waste : Trapdoor F)
    (domain : EvaluationDomain F) (g1 : G1) (fits : m.numVars ≤ 2 ^ 32) :
    hasOmittedPair m domain.size (waste.publishedBases domain m g1) = false := by
  rw [hasOmittedPair, List.any_eq_false]
  intro stored member
  obtain ⟨pair, active, published⟩ := List.mem_filterMap.mp member
  obtain ⟨left, right⟩ := activePairs_lt active
  split at published
  case isTrue => cases published
  case isFalse =>
    cases published
    have leftIndex : (UInt32.ofNat pair.1).toNat = pair.1 := UInt32.toNat_ofNat_of_lt' (left.trans_le fits)
    have rightIndex : (UInt32.ofNat pair.2).toNat = pair.2 :=
      UInt32.toNat_ofNat_of_lt' (right.trans_le fits)
    simp only [Bool.and_eq_true, beq_iff_eq, decide_eq_true_eq, rightIndex]
    rintro ⟨zero, omitted⟩
    have first : pair.1 = 0 := by
      rw [← leftIndex, zero]
      rfl
    exact (mem_activePairs.mp active).2.2.2 ⟨first, omitted⟩

variable [DecidableEq F]

/-- The gap between the two provers for any computed bases. -/
theorem standard_sub_lean {backend : PolynomialBackend F} {m : ConstraintMatrices F}
    {domain : EvaluationDomain F} (created : backend.newDomain m.qapDomainSize = some domain)
    (waste : Trapdoor F) (g1 : G1) (g2 : G2) (bases : HQueryWit G1) {z : Assignment m}
    (satisfied : z.Satisfies) (r s : F) :
    ∃ standard lean : Proof G1 G2,
      createProofWithReduction backend (waste.provingKey domain m g1 g2) r s z = .ok standard ∧
      proveLeanWithRandomizers (leanProvingKey (waste.provingKey domain m g1 g2) bases) z r s =
        .ok (lean, z.fullAssignment) ∧
      standard.a = lean.a ∧ standard.b = lean.b ∧
      standard.c - lean.c = waste.quotientScalar domain z • g1 - quadraticSum bases z := by
  refine ⟨_, _, createProofWithReduction_eq created waste g1 g2 r s satisfied,
    proveLeanWithRandomizers_eq waste domain g1 g2 bases z r s, rfl, rfl, ?_⟩
  dsimp only
  rw [add_smul]
  abel

variable [DecidableEq G1]

/-- The witness bases of a generated key exist for every system below the 32-bit limit. -/
theorem computeWitnessBases_eq_some {backend : PolynomialBackend F} {m : ConstraintMatrices F}
    {domain : EvaluationDomain F} (created : backend.newDomain m.qapDomainSize = some domain) {L : ℕ}
    (size : domain.size = 2 ^ L) {waste : Trapdoor F} (outside : waste.tau ^ domain.size ≠ 1)
    (two : (2 : F) ≠ 0) (fits : m.numVars ≤ 2 ^ 32) (g1 : G1) (g2 : G2) :
    computeWitnessBases backend m (waste.provingKey domain m g1 g2) =
      some (waste.publishedBases domain m g1) := by
  rw [Trapdoor.computeWitnessBases_eq created size outside g1 g2, if_neg (domain.doubledSize_ne_zero_iff.mpr two),
    hasOmittedPair_publishedBases waste domain g1 fits]
  rfl

/-- Both provers agree on `A` and `B`, and their `C` differ by the pairs of instance columns and the
omitted pairs; under the outer shape this is an affine function of the public inputs. -/
theorem standardLeanGap {backend : PolynomialBackend F} {m : ConstraintMatrices F} {waste : Trapdoor F}
    {g1 : G1} {g2 : G2} {pk : ProvingKey G1 G2} {domain : EvaluationDomain F} {bases : HQueryWit G1}
    (generated : generateParametersWithQap backend m waste g1 g2 = .ok pk)
    (created : backend.newDomain m.qapDomainSize = some domain)
    (outside : waste.tau ^ domain.size ≠ 1) (fits : m.numVars ≤ 2 ^ 32)
    (computed : computeWitnessBases backend m pk = some bases) :
    (∀ z : Assignment m, z.Satisfies → ∀ r s : F, ∃ standard lean : Proof G1 G2,
      createProofWithReduction backend pk r s z = .ok standard ∧
      proveLeanWithRandomizers (leanProvingKey pk bases) z r s = .ok (lean, z.fullAssignment) ∧
      standard.a = lean.a ∧ standard.b = lean.b ∧
      standard.c - lean.c =
        ∑ i ∈ range m.numInstanceVariables, ∑ j ∈ range m.numInstanceVariables,
          (z.value i * z.value j) • waste.quotientBase domain m g1 i j +
        ∑ j ∈ omitConstWitCols m domain.size,
          (z.value 0 * z.value j) • waste.quotientBase domain m g1 0 j) ∧
    (∀ _ : OuterShape m, ∃ q : ℕ → G1, ∀ z : Assignment m, z.Satisfies → ∀ r s : F,
      ∀ standard lean : Proof G1 G2,
        createProofWithReduction backend pk r s z = .ok standard →
        proveLeanWithRandomizers (leanProvingKey pk bases) z r s = .ok (lean, z.fullAssignment) →
        standard.c - lean.c =
          q 0 + ∑ k ∈ Ico 1 m.numInstanceVariables, z.value k • q k) := by
  obtain ⟨-, -, _, located, rfl⟩ := generateParametersWithQap_eq_ok.mp generated
  cases created.symm.trans located
  obtain rfl := computeWitnessBases_published created outside computed
  have gap (z : Assignment m) (satisfied : z.Satisfies) (r s : F) :=
    standard_sub_lean created waste g1 g2 (waste.publishedBases domain m g1) satisfied r s
  constructor
  · intro z satisfied r s
    obtain ⟨standard, lean, standardOk, leanOk, sameA, sameB, difference⟩ := gap z satisfied r s
    refine ⟨standard, lean, standardOk, leanOk, sameA, sameB, ?_⟩
    rw [difference, waste.quotient_sub_quadraticSum domain g1 satisfied fits]
  · intro shape
    refine ⟨waste.gapPoint domain shape g1, ?_⟩
    intro z satisfied r s standard lean standardOk leanOk
    obtain ⟨standard', lean', standardOk', leanOk', -, -, difference⟩ := gap z satisfied r s
    cases standardOk.symm.trans standardOk'
    cases leanOk.symm.trans leanOk'
    rw [difference, waste.quotient_sub_quadraticSum domain g1 satisfied fits,
      waste.leftOut_eq_gapAt domain shape g1 satisfied (newDomain_numConstraints created),
      Trapdoor.gapAt, range_eq_Ico, sum_eq_sum_Ico_succ_bot m.instancePositive, z.value_zero, one_smul]

end Gap

section Sample

/-- One public input bound to a witness column, and the square of that column. -/
def boundSquare : ConstraintMatrices (ZMod 13) where
  numInstanceVariables := 2
  numWitnessVariables := 2
  numConstraints := 2
  a := [[(1, 0)], [(1, 2)]]
  b := [[(1, 2)], [(1, 2)]]
  c := [[(1, 1)], [(1, 3)]]
  instancePositive := Nat.two_pos
  aLength := rfl
  bLength := rfl
  cLength := rfl
  aColumns := by decide
  bColumns := by decide
  cColumns := by decide

/-- An input and its square. -/
def boundSquareOf (x : ZMod 13) : Assignment boundSquare where
  instanceAssignment := [1, x]
  witnessAssignment := [x, x * x]
  instanceLength := rfl
  witnessLength := rfl
  constantOne := rfl

abbrev boundSquarePk : ProvingKey (ZMod 13) (ZMod 13) := smallWaste.provingKey fourthRoots boundSquare 1 1

theorem boundSquare_generated : generateParametersWithQap smallBackend boundSquare smallWaste 1 1 =
    .ok boundSquarePk :=
  generateParametersWithQap_eq_ok.mpr ⟨by decide, by decide, fourthRoots, rfl, rfl⟩

theorem boundSquare_computed : computeWitnessBases smallBackend boundSquare
    boundSquarePk =
      some (smallWaste.publishedBases fourthRoots boundSquare 1) := by
  have created : smallBackend.newDomain boundSquare.qapDomainSize = some fourthRoots := rfl
  have outside : smallWaste.tau ^ fourthRoots.size ≠ 1 := by decide
  exact computeWitnessBases_eq_some created (L := 2) rfl outside (by decide) (by decide) 1 1

theorem standardLeanGap_boundSquare : ∃ (pk : ProvingKey (ZMod 13) (ZMod 13))
    (bases : HQueryWit (ZMod 13)) (standard lean : Proof (ZMod 13) (ZMod 13)),
    generateParametersWithQap smallBackend boundSquare smallWaste 1 1 = .ok pk ∧
    computeWitnessBases smallBackend boundSquare pk = some bases ∧
    createProofWithReduction smallBackend pk 6 7 (boundSquareOf 3) = .ok standard ∧
    proveLeanWithRandomizers (leanProvingKey pk bases) (boundSquareOf 3) 6 7 =
      .ok (lean, (boundSquareOf 3).fullAssignment) ∧ standard.c ≠ lean.c := by
  have created : smallBackend.newDomain boundSquare.qapDomainSize = some fourthRoots := rfl
  obtain ⟨standard, lean, standardOk, leanOk, -, -, gap⟩ :=
    (standardLeanGap boundSquare_generated created (by decide) (by decide) boundSquare_computed).1
      (boundSquareOf 3) (by decide) 6 7
  refine ⟨_, _, standard, lean, boundSquare_generated, boundSquare_computed, standardOk, leanOk, ?_⟩
  intro same
  rw [same, sub_self] at gap
  revert gap
  decide +kernel

/-- A system that says that the constant and one witness column are their own squares. -/
def idempotentColumn (col : ℕ) : ConstraintMatrices (ZMod 13) where
  numInstanceVariables := 1
  numWitnessVariables := col
  numConstraints := 2
  a := [[(1, 0)], [(1, col)]]
  b := [[(1, 0)], [(1, col)]]
  c := [[(1, 0)], [(1, col)]]
  instancePositive := by decide
  aLength := rfl
  bLength := rfl
  cLength := rfl
  aColumns := by simp
  bColumns := by simp
  cColumns := by simp

theorem idempotentWitness_length {col : ℕ} (positive : 0 < col) (bit : ZMod 13) :
    (List.replicate (col - 1) 0 ++ [bit]).length = (idempotentColumn col).numWitnessVariables := by
  rw [List.length_append, List.length_replicate, List.length_singleton, Nat.sub_add_cancel positive]
  rfl

/-- A bit in the constrained column and zero in the other witness columns. -/
def idempotentOf {col : ℕ} (positive : 0 < col) (bit : ZMod 13) : Assignment (idempotentColumn col) where
  instanceAssignment := [1]
  witnessAssignment := List.replicate (col - 1) 0 ++ [bit]
  instanceLength := rfl
  witnessLength := idempotentWitness_length positive bit
  constantOne := rfl

section Idempotent

variable {col : ℕ} (positive : 0 < col) (bit : ZMod 13)

theorem idempotentOf_value {k : ℕ} (inside : 0 < k) :
    (idempotentOf positive bit).value k = if k = col then bit else 0 := by
  obtain ⟨i, rfl⟩ : ∃ i, k = i + 1 := ⟨k - 1, by omega⟩
  rw [Assignment.value, Assignment.fullAssignment, idempotentOf, List.getD_eq_getElem?_getD,
    List.singleton_append, List.getElem?_cons_succ, List.getElem?_append, List.length_replicate]
  by_cases zeros : i < col - 1
  · rw [if_pos zeros, List.getElem?_replicate, if_pos zeros, if_neg (by omega), Option.getD_some]
  · rw [if_neg zeros]
    by_cases last : i + 1 = col
    · rw [if_pos last, show i - (col - 1) = 0 by omega]
      rfl
    · rw [if_neg last, List.getElem?_eq_none (by rw [List.length_singleton]; omega), Option.getD_none]

/-- Both matrices of the system take the value one on the first row and the bit on the second. -/
theorem idempotentOf_row (i : ℕ) : (idempotentOf positive bit).rowValue [[(1, 0)], [(1, col)]] i =
    [1, bit].getD i 0 := by
  have row : evaluateConstraint (([[(1, 0)], [(1, col)]] : List (Row (ZMod 13))).getD i [])
      (idempotentOf positive bit).fullAssignment =
        (idempotentOf positive bit).rowValue [[(1, 0)], [(1, col)]] i :=
    Assignment.evaluateConstraint_row _ (idempotentColumn col).aColumns i
  have constant := (idempotentOf positive bit).value_zero
  have value := idempotentOf_value positive bit positive
  rw [if_pos rfl, Assignment.value] at value
  rw [Assignment.value] at constant
  rw [← row]
  rcases i with _ | _ | i
  · simpa [evaluateConstraint] using constant
  · simpa [evaluateConstraint] using value
  · simp [evaluateConstraint]

theorem idempotentOf_satisfies {bit : ZMod 13} (idempotent : bit * bit = bit) :
    (idempotentOf positive bit).Satisfies := by
  intro i inside
  have row := Assignment.evaluateConstraint_row (idempotentOf positive bit)
    (idempotentColumn col).aColumns i
  change _ = (idempotentOf positive bit).rowValue [[(1, 0)], [(1, col)]] i at row
  rw [idempotentOf_row] at row
  change evaluateConstraint ((idempotentColumn col).a.getD i []) _ *
    evaluateConstraint ((idempotentColumn col).a.getD i []) _ =
      evaluateConstraint ((idempotentColumn col).a.getD i []) _
  rw [row]
  match i with
  | 0 => exact one_mul 1
  | 1 => exact idempotent
  | i + 2 => exact mul_zero 0

/-- The quotient of the system only depends on the bit. -/
theorem idempotentOf_quotient : smallWaste.quotientScalar fourthRoots (idempotentOf positive bit) =
    (∑ i ∈ range 4, [1, bit].getD i 0 * lagrange 5 4 i (2 : ZMod 13)) *
      (∑ i ∈ range 4, [1, bit].getD i 0 * lagrange 5 4 i (2 : ZMod 13) - 1) * 5⁻¹ := by
  have column : (idempotentOf positive bit).linear (columnValue fourthRoots [[(1, 0)], [(1, col)]] 2) =
      ∑ i ∈ range 4, [1, bit].getD i 0 * lagrange 5 4 i (2 : ZMod 13) := by
    rw [Assignment.linear_columnValue]
    exact sum_congr rfl fun i _ => by rw [idempotentOf_row]; rfl
  change ((idempotentOf positive bit).linear (columnValue fourthRoots [[(1, 0)], [(1, col)]] 2) *
    (idempotentOf positive bit).linear (columnValue fourthRoots [[(1, 0)], [(1, col)]] 2) -
      (idempotentOf positive bit).linear (columnValue fourthRoots [[(1, 0)], [(1, col)]] 2)) * 5⁻¹ = _
  rw [column]
  ring

end Idempotent

/-- The first system with a column whose 32-bit index names another witness column. -/
abbrev wrappedSystem : ConstraintMatrices (ZMod 13) := idempotentColumn (2 ^ 32 + 1)

abbrev wrappedOf (bit : ZMod 13) : Assignment wrappedSystem := idempotentOf (Nat.succ_pos (2 ^ 32)) bit

abbrev wrappedPk : ProvingKey (ZMod 13) (ZMod 13) := smallWaste.provingKey fourthRoots wrappedSystem 1 1

theorem wrappedSystem_generated : generateParametersWithQap smallBackend wrappedSystem smallWaste 1 1 =
    .ok wrappedPk :=
  generateParametersWithQap_eq_ok.mpr ⟨by decide, by decide, fourthRoots, rfl, rfl⟩

/-- The active pairs hold the constant and the wrapped column, and not the constant twice. -/
theorem activePairs_wrappedSystem {pair : ℕ × ℕ} (member : pair ∈ activePairs wrappedSystem fourthRoots.size) :
    pair = (0, 2 ^ 32 + 1) ∨ pair = (2 ^ 32 + 1, 0) ∨ pair = (2 ^ 32 + 1, 2 ^ 32 + 1) := by
  obtain ⟨left, right⟩ := pair
  obtain ⟨inA, inB, mixed, -⟩ := mem_activePairs.mp member
  have columns {k : ℕ} (occurs : k ∈ occurringColumns wrappedSystem.numVars fourthRoots.size
      [[((1 : ZMod 13), 0)], [(1, 2 ^ 32 + 1)]]) : k = 0 ∨ k = 2 ^ 32 + 1 := by
    obtain ⟨-, row, rowMember, term, termMember, rfl⟩ := mem_occurringColumns.mp occurs
    have isRow := List.mem_of_mem_take rowMember
    simp only [List.mem_cons, List.not_mem_nil, or_false] at isRow
    rcases isRow with rfl | rfl
    · left
      rw [List.mem_singleton.mp termMember]
    · right
      rw [List.mem_singleton.mp termMember]
  have constant : ¬(left = 0 ∧ right = 0) := by
    rintro ⟨rfl, rfl⟩
    exact mixed ⟨Nat.one_pos, Nat.one_pos⟩
  rcases columns inA with rfl | rfl <;> rcases columns inB with rfl | rfl <;> simp_all

/-- The stored indices of the wrapped system are those of the constant and of the first witness column. -/
theorem publishedBases_wrappedSystem {stored : UInt32 × UInt32 × ZMod 13}
    (member : stored ∈ smallWaste.publishedBases fourthRoots wrappedSystem (1 : ZMod 13)) :
    (stored.1 = 0 ∧ stored.2.1 = 1) ∨ (stored.1 = 1 ∧ stored.2.1 = 0) ∨ (stored.1 = 1 ∧ stored.2.1 = 1) := by
  obtain ⟨pair, active, published⟩ := List.mem_filterMap.mp member
  split at published
  case isTrue => cases published
  case isFalse =>
    cases published
    rcases activePairs_wrappedSystem active with rfl | rfl | rfl
    · left
      exact ⟨by decide, by decide⟩
    · right; left
      exact ⟨by decide, by decide⟩
    · right; right
      exact ⟨by decide, by decide⟩

/-- The lean prover reads the first witness column, which is zero. -/
theorem quadraticSum_wrappedOf (bit : ZMod 13) :
    quadraticSum (smallWaste.publishedBases fourthRoots wrappedSystem (1 : ZMod 13)) (wrappedOf bit) = 0 := by
  have zero : (wrappedOf bit).value 1 = 0 := by
    rw [idempotentOf_value _ _ Nat.one_pos, if_neg (by decide)]
  apply List.sum_eq_zero
  intro term member
  obtain ⟨stored, published, rfl⟩ := List.mem_map.mp member
  rcases publishedBases_wrappedSystem published with ⟨left, right⟩ | ⟨left, right⟩ | ⟨left, right⟩
  · rw [right, show (1 : UInt32).toNat = 1 from rfl, zero, mul_zero, zero_smul]
  · rw [left, show (1 : UInt32).toNat = 1 from rfl, zero, zero_mul, zero_smul]
  · rw [left, show (1 : UInt32).toNat = 1 from rfl, zero, zero_mul, zero_smul]

theorem wrappedSystem_computed : computeWitnessBases smallBackend wrappedSystem
    wrappedPk =
      some (smallWaste.publishedBases fourthRoots wrappedSystem 1) := by
  have noOmitted : omitConstWitCols wrappedSystem fourthRoots.size = ∅ := rfl
  have audit : hasOmittedPair wrappedSystem fourthRoots.size
      (smallWaste.publishedBases fourthRoots wrappedSystem (1 : ZMod 13)) = false := by
    rw [hasOmittedPair, List.any_eq_false]
    intro stored _
    simp [noOmitted]
  have invertible : (fourthRoots.size : ZMod 13) + fourthRoots.size ≠ 0 := by decide
  have created : smallBackend.newDomain wrappedSystem.qapDomainSize = some fourthRoots := rfl
  have outside : smallWaste.tau ^ fourthRoots.size ≠ 1 := by decide
  rw [Trapdoor.computeWitnessBases_eq created (L := 2) rfl outside (1 : ZMod 13) (1 : ZMod 13),
    if_neg invertible, audit]
  rfl

/-- At a column past the 32-bit limit the lean prover reads another column's value, and the gap is
not the sum over the left-out pairs. -/
theorem standardLeanGap_wrapped : ∃ (pk : ProvingKey (ZMod 13) (ZMod 13)) (bases : HQueryWit (ZMod 13))
    (standard lean : Proof (ZMod 13) (ZMod 13)),
    generateParametersWithQap smallBackend wrappedSystem smallWaste 1 1 = .ok pk ∧
    computeWitnessBases smallBackend wrappedSystem pk = some bases ∧
    (wrappedOf 1).Satisfies ∧
    createProofWithReduction smallBackend pk 0 0 (wrappedOf 1) = .ok standard ∧
    proveLeanWithRandomizers (leanProvingKey pk bases) (wrappedOf 1) 0 0 =
      .ok (lean, (wrappedOf 1).fullAssignment) ∧
    standard.c - lean.c ≠
      ∑ i ∈ range wrappedSystem.numInstanceVariables, ∑ j ∈ range wrappedSystem.numInstanceVariables,
        ((wrappedOf 1).value i * (wrappedOf 1).value j) •
          smallWaste.quotientBase fourthRoots wrappedSystem 1 i j +
      ∑ j ∈ omitConstWitCols wrappedSystem fourthRoots.size,
        ((wrappedOf 1).value 0 * (wrappedOf 1).value j) •
          smallWaste.quotientBase fourthRoots wrappedSystem 1 0 j := by
  have satisfied := idempotentOf_satisfies (Nat.succ_pos (2 ^ 32)) (one_mul (1 : ZMod 13))
  have created : smallBackend.newDomain wrappedSystem.qapDomainSize = some fourthRoots := rfl
  obtain ⟨standard, lean, standardOk, leanOk, -, -, gap⟩ := standard_sub_lean created smallWaste
    (1 : ZMod 13) (1 : ZMod 13) (smallWaste.publishedBases fourthRoots wrappedSystem 1) satisfied 0 0
  refine ⟨_, _, standard, lean, wrappedSystem_generated, wrappedSystem_computed, satisfied, standardOk,
    leanOk, ?_⟩
  have instancePairs : ∑ i ∈ range wrappedSystem.numInstanceVariables,
      ∑ j ∈ range wrappedSystem.numInstanceVariables, ((wrappedOf 1).value i * (wrappedOf 1).value j) •
        smallWaste.quotientBase fourthRoots wrappedSystem (1 : ZMod 13) i j =
          smallWaste.quotientBase fourthRoots wrappedSystem (1 : ZMod 13) 0 0 := by
    change ∑ i ∈ range 1, ∑ j ∈ range 1, _ = _
    rw [sum_range_one, sum_range_one, Assignment.value_zero, one_mul, one_smul]
  have noOmitted : omitConstWitCols wrappedSystem fourthRoots.size = ∅ := rfl
  rw [gap, quadraticSum_wrappedOf, idempotentOf_quotient, noOmitted, instancePairs, sum_empty]
  decide +kernel

end Sample

end Pvugc.Outer
