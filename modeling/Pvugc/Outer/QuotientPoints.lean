import Pvugc.Algebra.Elimination
import Pvugc.Groth16.Completeness
import Pvugc.Outer.LeanProver

namespace Pvugc.Outer
open Pvugc.Algebra Pvugc.Groth16 Finset

section Code

variable {F G1 G2 GT : Type} [Field F] [DecidableEq F] [AddCommGroup G1] [Module F G1]

/-- The first sample is zero and the later ones are the unit vectors. -/
def isCanonical (gaps : List (List F × G1)) : Bool :=
  match gaps with
  | [] => false
  | (row0, _) :: rest => row0.all (· = 0) && rest.zipIdx.all fun (row, i) =>
      row.1.zipIdx.all fun (v, j) => if j = i then v = 1 else v = 0

/-- The generic path of the solver: the inverse of the sample matrix applied to the gaps. -/
def solveLinearSystem (size : ℕ) (gaps : List (List F × G1)) : Option (List G1) :=
  let matrix : Fin size → Fin size → F := fun row col => statementOf (gaps.getD row ([], 0)).1 col
  (invertMatrix matrix).map fun inv => (List.finRange size).map fun row =>
    (List.finRange size).foldl (fun acc (col : Fin size) =>
      let coeff := inv row col
      if coeff ≠ 0 then acc + coeff • (gaps.getD col ([], 0)).2 else acc) 0

/-- `solve_q_const_from_samples`; a wide sample leaves the matrix and panics. -/
def solveQConstFromSamples (gaps : List (List F × G1)) : Option (List G1) :=
  match gaps with
  | [] => none
  | (x0, gap0) :: rest =>
    let n := x0.length
    if ((x0, gap0) :: rest).length ≠ n + 1 then none
    else if isCanonical ((x0, gap0) :: rest) then some (gap0 :: rest.map fun gap => gap.2 - gap0)
    else if ((x0, gap0) :: rest).any fun gap => n < gap.1.length then none
    else solveLinearSystem (n + 1) ((x0, gap0) :: rest)

variable [DecidableEq G1] [AddCommGroup G2] [Module F G2] [DecidableEq G2]

/-- The gap of one synthesized sample; the proofs must not be randomized and must agree on `A` and `B`. -/
def sampleGap (backend : PolynomialBackend F) (pkOuter : ProvingKey G1 G2) (leanPk : LeanProvingKey G1 G2)
    {m : ConstraintMatrices F} (sample : Assignment m) : Option (List F × G1) :=
  match createProofWithReductionNoZk backend pkOuter sample, proveLeanWithRandomizers leanPk sample 0 0 with
  | .ok standardProof, .ok (leanProof, _) =>
    if standardProof.a ≠ leanProof.a then none
    else if standardProof.b ≠ leanProof.b then none
    else some (sample.publicInputs, standardProof.c - leanProof.c)
  | _, _ => none

/-- Unrandomized proofs that agree on `A` and `B` give the difference of their `C`. -/
theorem sampleGap_of_proofs {backend : PolynomialBackend F} {pkOuter : ProvingKey G1 G2}
    {leanPk : LeanProvingKey G1 G2} {m : ConstraintMatrices F} {sample : Assignment m}
    {standardProof leanProof : Proof G1 G2} {full : List F}
    (standard : createProofWithReduction backend pkOuter 0 0 sample = .ok standardProof)
    (lean : proveLeanWithRandomizers leanPk sample 0 0 = .ok (leanProof, full))
    (sameA : standardProof.a = leanProof.a) (sameB : standardProof.b = leanProof.b) :
    sampleGap backend pkOuter leanPk sample = some (sample.publicInputs, standardProof.c - leanProof.c) := by
  rw [sampleGap, createProofWithReductionNoZk, standard, lean]
  simp only [sameA, sameB, ne_eq, not_true_eq_false, if_false]

/-- `compute_q_const_points_from_gap` on the synthesized samples. -/
def computeQConstPointsFromGap (backend : PolynomialBackend F) (pkOuter : ProvingKey G1 G2)
    (leanPk : LeanProvingKey G1 G2) {m : ConstraintMatrices F} (samples : List (Assignment m)) :
    Option (List G1) :=
  match samples.mapM (sampleGap backend pkOuter leanPk) with
  | none => none
  | some gaps => solveQConstFromSamples gaps

/-- `compute_t_const_points_gt_from_gap`. -/
def computeTConstPointsGtFromGap [AddCommGroup GT] [SMul F GT] (e : Pairing F G1 G2 GT)
    (backend : PolynomialBackend F) (pkOuter : ProvingKey G1 G2) (leanPk : LeanProvingKey G1 G2)
    {m : ConstraintMatrices F} (samples : List (Assignment m)) : Option (List GT) :=
  (computeQConstPointsFromGap backend pkOuter leanPk samples).map fun qPoints =>
    qPoints.map fun q => e.pairing q pkOuter.vk.deltaG2

/-- The solved gaps of the samples are paired with `delta`. -/
theorem computeTConstPointsGtFromGap_of_gaps [AddCommGroup GT] [SMul F GT] {e : Pairing F G1 G2 GT}
    {backend : PolynomialBackend F} {pkOuter : ProvingKey G1 G2} {leanPk : LeanProvingKey G1 G2}
    {m : ConstraintMatrices F} {samples : List (Assignment m)} {gaps : List (List F × G1)} {qPoints : List G1}
    (sampled : samples.mapM (sampleGap backend pkOuter leanPk) = some gaps)
    (solved : solveQConstFromSamples gaps = some qPoints) :
    computeTConstPointsGtFromGap e backend pkOuter leanPk samples =
      some (qPoints.map fun q => e.pairing q pkOuter.vk.deltaG2) := by
  rw [computeTConstPointsGtFromGap, computeQConstPointsFromGap, sampled]
  dsimp only
  rw [solved, Option.map_some]

end Code

section Affine

variable {F G1 : Type} [Field F] [AddCommGroup G1] [Module F G1]

/-- The value of an affine map with the points `q` at a statement. -/
def affineAt (q : ℕ → G1) (x : List F) : G1 := ∑ k ∈ range (x.length + 1), statementOf x k • q k

theorem affineAt_eq (q : ℕ → G1) {x : List F} {n : ℕ} (width : x.length = n) :
    affineAt q x = q 0 + ∑ k ∈ range n, x.getD k 0 • q (k + 1) := by
  rw [affineAt, sum_range_succ', statementOf_zero, one_smul, add_comm, width]
  rfl

end Affine

section Solve

variable {F G1 : Type} [Field F] [DecidableEq F]

/-- The entries of canonical samples. -/
theorem isCanonical_tabulate {n : ℕ} {x : ℕ → List F} {gap : ℕ → G1}
    (canonical : isCanonical (tabulate (n + 1) fun i => (x i, gap i)) = true) :
    (∀ k, (x 0).getD k 0 = 0) ∧
      ∀ i < n, ∀ k < (x (i + 1)).length, (x (i + 1)).getD k 0 = if k = i then 1 else 0 := by
  rw [tabulate_succ, isCanonical, Bool.and_eq_true, List.all_eq_true, List.all_eq_true] at canonical
  obtain ⟨zeros, units⟩ := canonical
  constructor
  · intro k
    rw [List.getD_eq_getElem?_getD]
    cases located : (x 0)[k]? with
    | none => rfl
    | some v => exact of_decide_eq_true (zeros v (List.mem_of_getElem? located))
  · intro i inside k below
    have row := units ((x (i + 1), gap (i + 1)), i)
      (List.mem_zipIdx_iff_getElem?.mpr (tabulate_get (fun i => (x (i + 1), gap (i + 1))) inside))
    have unit := List.all_eq_true.mp row ((x (i + 1)).getD k 0, k) (List.mem_zipIdx_iff_getElem?.mpr (by
      rw [List.getD_eq_getElem?_getD, List.getElem?_eq_getElem below, Option.getD_some]))
    split
    case isTrue same => simpa [same] using unit
    case isFalse other => simpa [other] using unit

/-- The entries of the sample matrix of canonical samples, where the matrix is invertible. -/
theorem canonical_entries {n : ℕ} {x : ℕ → List F} {gap : ℕ → G1} {inv : Fin (n + 1) → Fin (n + 1) → F}
    (canonical : isCanonical (tabulate (n + 1) fun i => (x i, gap i)) = true)
    (computed : invertMatrix (fun (row col : Fin (n + 1)) => statementOf (x row) col) = some inv) :
    (∀ k, statementOf (x 0) (k + 1) = 0) ∧
      ∀ i < n, ∀ k, statementOf (x (i + 1)) (k + 1) = if k = i then 1 else 0 := by
  obtain ⟨zeros, units⟩ := isCanonical_tabulate canonical
  refine ⟨zeros, ?_⟩
  intro i inside k
  by_cases below : k < (x (i + 1)).length
  · exact units i inside k below
  · have outside : statementOf (x (i + 1)) (k + 1) = 0 := by
      rw [statementOf, List.getD_cons_succ, List.getD_eq_default _ _ (Nat.le_of_not_lt below)]
    rw [outside]
    split
    case isFalse => rfl
    case isTrue same =>
      -- Without its unit the row is the first row, and the matrix is singular.
      have rows (j : ℕ) : statementOf (x (i + 1)) j = statementOf (x 0) j := by
        cases j with
        | zero => rfl
        | succ j =>
            rw [show statementOf (x 0) (j + 1) = 0 from zeros j, statementOf, List.getD_cons_succ]
            by_cases short : j < (x (i + 1)).length
            · rw [units i inside j short, if_neg (by omega)]
            · rw [List.getD_eq_default _ _ (Nat.le_of_not_lt short)]
      have product := (invertMatrix_eq_some_iff.mp computed).1
      have first := congrFun (congrFun product 0) 0
      have later := congrFun (congrFun product ⟨i + 1, Nat.succ_lt_succ inside⟩) 0
      rw [Matrix.mul_apply, Matrix.one_apply, if_pos rfl] at first
      rw [Matrix.mul_apply, Matrix.one_apply, if_neg (by simp [Fin.ext_iff])] at later
      simp only [Matrix.of_apply, rows, Fin.val_zero] at first later
      exact absurd (later.symm.trans first) zero_ne_one

variable [AddCommGroup G1] [Module F G1]

/-- On canonical samples the points are differences of the samples. -/
theorem affineAt_canonical {n : ℕ} {x : ℕ → List F} (width : ∀ i < n + 1, (x i).length = n) (q : ℕ → G1)
    (gap : ℕ → G1) (canonical : isCanonical (tabulate (n + 1) fun i => (x i, gap i)) = true) :
    affineAt q (x 0) = q 0 ∧ ∀ i < n, affineAt q (x (i + 1)) = q 0 + q (i + 1) := by
  obtain ⟨zeros, units⟩ := isCanonical_tabulate canonical
  constructor
  · rw [affineAt_eq q (width 0 (Nat.succ_pos n))]
    simp only [zeros, zero_smul, sum_const_zero, add_zero]
  · intro i inside
    have length := width (i + 1) (Nat.succ_lt_succ inside)
    rw [affineAt_eq q length, sum_eq_single_of_mem i (mem_range.mpr inside), units i inside i (by omega),
      if_pos rfl, one_smul]
    intro k member other
    rw [units i inside k (by rw [length]; exact mem_range.mp member), if_neg other, zero_smul]

/-- The inverse of the sample matrix recovers the points that the gaps combine. -/
theorem solveLinearSystem_of_combination {size : ℕ} {gaps : List (List F × G1)} {inv : Fin size → Fin size → F}
    (computed : invertMatrix (fun (row col : Fin size) => statementOf (gaps.getD row ([], 0)).1 col) = some inv)
    (q : ℕ → G1) (combined : ∀ row : Fin size, (gaps.getD row ([], 0)).2 =
      ∑ k : Fin size, statementOf (gaps.getD row ([], 0)).1 k • q k) :
    solveLinearSystem size gaps = some (tabulate size q) := by
  have inverse (i k : Fin size) : ∑ j : Fin size, inv i j * statementOf (gaps.getD j ([], 0)).1 k =
      if i = k then 1 else 0 := by
    have entry := congrFun (congrFun (mul_of_invertMatrix computed) i) k
    rwa [Matrix.mul_apply, Matrix.one_apply] at entry
  have point (row : Fin size) : (List.finRange size).foldl (fun acc (col : Fin size) =>
      if inv row col ≠ 0 then acc + inv row col • (gaps.getD col ([], 0)).2 else acc) 0 = q row := by
    have unguarded : (fun (acc : G1) (col : Fin size) =>
        if inv row col ≠ 0 then acc + inv row col • (gaps.getD col ([], 0)).2 else acc) =
          fun acc col => acc + inv row col • (gaps.getD col ([], 0)).2 := by
      funext acc col
      split
      case isTrue => rfl
      case isFalse zero => rw [not_not.mp zero, zero_smul, add_zero]
    rw [unguarded, foldl_add_eq, zero_add, ← List.ofFn_eq_map, List.sum_ofFn]
    simp only [combined, smul_sum, smul_smul]
    rw [sum_comm]
    simp only [← sum_smul, inverse, ite_smul, one_smul, zero_smul, sum_ite_eq, mem_univ, if_true]
  simp only [solveLinearSystem, computed, Option.map_some, point]
  rw [tabulate, ← List.map_coe_finRange_eq_range, List.map_map]
  rfl

/-- The inverse of the sample matrix recovers the points of an affine map. -/
theorem solveLinearSystem_affine {n : ℕ} {x : ℕ → List F} (width : ∀ i < n + 1, (x i).length = n)
    (independent : AffineIndependent F fun (i : Fin (n + 1)) (k : Fin n) => statementOf (x i) (k + 1))
    (q : ℕ → G1) :
    solveLinearSystem (n + 1) (tabulate (n + 1) fun i => (x i, affineAt q (x i))) =
      some (tabulate (n + 1) q) := by
  have sample (i : Fin (n + 1)) : (tabulate (n + 1) fun i => (x i, affineAt q (x i))).getD i ([], 0) =
      (x i, affineAt q (x i)) := tabulate_getD _ i.isLt _
  have kernel (v : Fin (n + 1) → F)
      (vanishes : ∀ i : Fin (n + 1), ∑ k : Fin (n + 1), statementOf (x i) k * v k = 0) : v = 0 := by
    apply kernel_of_affineIndependent independent
    intro i
    have row := vanishes i
    rw [Fin.sum_univ_succ, Fin.val_zero, statementOf_zero, one_mul] at row
    simpa only [Fin.val_succ] using row
  obtain ⟨inv, computed, -⟩ := invertMatrix_mul kernel
  apply solveLinearSystem_of_combination
  · simpa only [sample] using computed
  · intro row
    rw [sample, affineAt, width row row.isLt, Finset.sum_range]

/-- The samples of an affine map at affinely independent statements determine its points. -/
theorem solveQConstFromSamples_affine {n : ℕ} {x : ℕ → List F} (width : ∀ i < n + 1, (x i).length = n)
    (independent : AffineIndependent F fun (i : Fin (n + 1)) (k : Fin n) => statementOf (x i) (k + 1))
    (q : ℕ → G1) :
    solveQConstFromSamples (tabulate (n + 1) fun i => (x i, affineAt q (x i))) =
      some (tabulate (n + 1) q) := by
  have first : (x 0).length = n := width 0 (Nat.succ_pos n)
  have narrow : ((tabulate (n + 1) fun i => (x i, affineAt q (x i))).any fun gap =>
      decide (n < gap.1.length)) = false := by
    rw [List.any_eq_false]
    intro gap member
    obtain ⟨i, inside, rfl⟩ := List.mem_map.mp member
    simp [width i (List.mem_range.mp inside)]
  have generic := solveLinearSystem_affine width independent q
  have canonical := affineAt_canonical width q fun i => affineAt q (x i)
  rw [tabulate_succ] at narrow generic canonical ⊢
  simp only [solveQConstFromSamples, first, narrow, generic, List.length_cons, tabulate_length, ne_eq,
    not_true_eq_false, if_false, Bool.false_eq_true]
  split
  case isTrue shape =>
    obtain ⟨origin, units⟩ := canonical shape
    rw [tabulate_map, origin, tabulate_succ]
    congr 2
    apply tabulate_congr
    intro i inside
    rw [Function.comp_apply, units i inside, add_sub_cancel_left]
  case isFalse => rfl

/-- Where the generic path succeeds on canonical samples, it gives the differences of the fast path. -/
theorem solveLinearSystem_canonical {x0 : List F} {gap0 : G1} {rest : List (List F × G1)} {out : List G1}
    (count : rest.length = x0.length) (canonical : isCanonical ((x0, gap0) :: rest) = true)
    (solved : solveLinearSystem (x0.length + 1) ((x0, gap0) :: rest) = some out) :
    out = gap0 :: rest.map fun gap => gap.2 - gap0 := by
  set n := x0.length with hn
  set gaps := (x0, gap0) :: rest with hgaps
  set x : ℕ → List F := fun i => (gaps.getD i ([], 0)).1 with hx
  set gap : ℕ → G1 := fun i => (gaps.getD i ([], 0)).2 with hgap
  have listed : tabulate (n + 1) (fun i => (x i, gap i)) = gaps := by
    have whole := tabulate_of_list gaps ([], 0)
    rwa [hgaps, List.length_cons, count] at whole
  have invertible : ∃ inv, invertMatrix (fun (row col : Fin (n + 1)) => statementOf (x row) col) = some inv := by
    rw [solveLinearSystem] at solved
    obtain ⟨inv, computed, -⟩ := Option.map_eq_some_iff.mp solved
    exact ⟨inv, computed⟩
  obtain ⟨inv, computed⟩ := invertible
  obtain ⟨zeros, units⟩ := canonical_entries (listed ▸ canonical) computed
  let q : ℕ → G1 := fun k => if k = 0 then gap 0 else gap k - gap 0
  have fast := solveLinearSystem_of_combination computed q (by
    intro row
    change gap row = ∑ k : Fin (n + 1), statementOf (x row) k • q k
    rw [Fin.sum_univ_succ, Fin.val_zero, statementOf_zero, one_smul]
    refine Fin.cases ?_ (fun i => ?_) row
    · simp [zeros, q]
    · simp only [Fin.val_succ, units i i.isLt, ite_smul, one_smul, zero_smul, ← Fin.ext_iff, sum_ite_eq',
        mem_univ, if_true, q, if_neg (Nat.succ_ne_zero _), add_sub_cancel])
  have tail : tabulate n (fun i => gap (i + 1) - gap 0) = rest.map fun gap => gap.2 - gap0 := by
    have entries := tabulate_of_list rest ([], 0)
    rw [count] at entries
    conv_rhs => rw [← entries, tabulate_map]
    rfl
  rw [solved] at fast
  rw [Option.some.inj fast, tabulate_succ, ← tail]
  rfl

/-- The solver recovers the points of an affine map, its two paths agree where both give an answer, and the
elimination inverts exactly the invertible matrices. -/
theorem solveQConstFromSamples_recovers (F G1 : Type) [Field F] [DecidableEq F] [AddCommGroup G1] [Module F G1] :
    (∀ (n : ℕ) (q : Fin (n + 1) → G1) (x : Fin (n + 1) → Fin n → F), AffineIndependent F x →
      solveQConstFromSamples (List.ofFn fun s => (List.ofFn (x s), q 0 + ∑ i, x s i • q i.succ)) =
        some (List.ofFn q)) ∧
    (∀ (x0 : List F) (gap0 : G1) (rest : List (List F × G1)) (out : List G1), rest.length = x0.length →
      isCanonical ((x0, gap0) :: rest) = true →
      solveLinearSystem (x0.length + 1) ((x0, gap0) :: rest) = some out →
      solveQConstFromSamples ((x0, gap0) :: rest) = some out) ∧
    ∀ (n : ℕ) (matrix : Fin n → Fin n → F),
      (∀ inverse, invertMatrix matrix = some inverse ↔
        Matrix.of matrix * Matrix.of inverse = 1 ∧ Matrix.of inverse * Matrix.of matrix = 1) ∧
      (invertMatrix matrix = none ↔ ¬IsUnit (Matrix.of matrix)) := by
  refine ⟨?_, ?_, fun n matrix => ⟨fun inverse => invertMatrix_eq_some_iff, invertMatrix_eq_none_iff⟩⟩
  · intro n q x independent
    let extendedQ : ℕ → G1 := fun k => if inside : k < n + 1 then q ⟨k, inside⟩ else 0
    let extendedX : ℕ → List F := fun i => if inside : i < n + 1 then List.ofFn (x ⟨i, inside⟩) else []
    have points (k : Fin (n + 1)) : q k = extendedQ k := by simp only [extendedQ, dif_pos k.isLt]
    have statements (i : Fin (n + 1)) : List.ofFn (x i) = extendedX i := by simp only [extendedX, dif_pos i.isLt]
    have width (i : ℕ) (inside : i < n + 1) : (extendedX i).length = n := by
      rw [← statements ⟨i, inside⟩, List.length_ofFn]
    have entry (i : Fin (n + 1)) (k : Fin n) : (extendedX i).getD k 0 = x i k := by
      rw [← statements, List.getD_eq_getElem _ _ (by simp), List.getElem_ofFn]
    have solved := solveQConstFromSamples_affine width
      (by simpa only [statementOf, List.getD_cons_succ, entry] using independent) extendedQ
    rw [ofFn_eq_tabulate points, ← solved]
    congr 1
    apply ofFn_eq_tabulate
    intro i
    rw [affineAt_eq extendedQ (width i i.isLt), Finset.sum_range, ← statements]
    simp only [statements, entry, ← points, ← Fin.val_succ, ← Fin.val_zero (n + 1)]
  · intro x0 gap0 rest out count canonical solved
    rw [solveLinearSystem_canonical count canonical solved]
    simp only [solveQConstFromSamples, canonical, List.length_cons, count, ne_eq, not_true_eq_false, if_false,
      if_true]

theorem solveQConstFromSamples_line :
    solveQConstFromSamples [([(2 : ZMod 13)], (0 : ZMod 13)), ([4], 10)] = some [3, 5] ∧
    solveQConstFromSamples [([(0 : ZMod 13)], (3 : ZMod 13)), ([1], 8)] = some [3, 5] := by
  have recovers := solveQConstFromSamples_recovers (ZMod 13) (ZMod 13)
  constructor
  · have distinct : AffineIndependent (ZMod 13) ![![(2 : ZMod 13)], ![4]] := by
      apply affineIndependent_of_ne
      intro same
      exact absurd (congrFun same 0) (by decide)
    exact recovers.1 1 ![3, 5] ![![2], ![4]] distinct
  · have inverse : invertMatrix (fun row col : Fin 2 => statementOf
        (([([0], 3), ([1], 8)] : List (List (ZMod 13) × ZMod 13)).getD row ([], 0)).1 col) =
          some ![![1, 0], ![-1, 1]] :=
      invertMatrix_eq_some_iff.mpr (by decide)
    exact recovers.2.1 [0] 3 [([1], 8)] [3, 5] rfl (by decide)
      (solveLinearSystem_of_combination inverse (fun k => [3, 5].getD k 0) (by decide))

end Solve

end Pvugc.Outer
