import Pvugc.Algebra.DensePolynomial
import Pvugc.Outer.SpanSeparation

namespace Pvugc.Audit
open Pvugc.Algebra Pvugc.Groth16 Pvugc.Outer Finset

section Code

variable {F : Type} [Field F] [DecidableEq F]

/-- The dense values of a column; an entry on a row outside of the domain panics. -/
def columnEvals (size : ℕ) (entries : List (ℕ × F)) : Option (List F) :=
  entries.foldlM (fun evals entry =>
    if entry.1 < evals.length then some (evals.modify entry.1 (· + entry.2)) else none)
    (List.replicate size 0)

/-- `get_column_polys`. -/
def getColumnPolys (backend : PolynomialBackend F) (extractor : MatrixExtractor F) (col : ℕ) :
    Option (DensePolynomial F × DensePolynomial F × DensePolynomial F) := do
  let uEvals ← columnEvals extractor.domain.size (extractor.aCols.getD col [])
  let vEvals ← columnEvals extractor.domain.size (extractor.bCols.getD col [])
  let wEvals ← columnEvals extractor.domain.size (extractor.cCols.getD col [])
  return (DensePolynomial.fromCoefficientsSlice (backend.ifft extractor.domain uEvals),
    DensePolynomial.fromCoefficientsSlice (backend.ifft extractor.domain vEvals),
    DensePolynomial.fromCoefficientsSlice (backend.ifft extractor.domain wEvals))

/-- One entry of the sparse evaluation: an entry on the row of the point switches to the sum of the
values on that row, and the other entries are then ignored. -/
def evalSparseStep (domain : EvaluationDomain F) (r : F) (state : F × Option F) (entry : ℕ × F) :
    F × Option F :=
  let omegaI := domain.element entry.1
  let denom := r - omegaI
  if denom = 0 then (state.1, some (state.2.getD 0 + entry.2))
  else if state.2.isNone then (state.1 + entry.2 * omegaI * denom⁻¹, state.2)
  else state

/-- The barycentric evaluation of a sparse column; the size of a domain is invertible. -/
def evalSparse (domain : EvaluationDomain F) (r : F) (sparse : List (ℕ × F)) : F :=
  let nInv := domain.sizeAsFieldElement⁻¹
  let zHAtR := r ^ domain.size - 1
  let common := zHAtR * nInv
  let final := sparse.foldl (evalSparseStep domain r) (0, none)
  match final.2 with
  | some s => s
  | none => final.1 * common

/-- `evaluate_column`. -/
def evaluateColumn (extractor : MatrixExtractor F) (col : ℕ) (r : F) : F × F × F :=
  (evalSparse extractor.domain r (extractor.aCols.getD col []),
    evalSparse extractor.domain r (extractor.bCols.getD col []),
    evalSparse extractor.domain r (extractor.cCols.getD col []))

/-- The entries of a column lie on rows of the domain, as the extractor collects them. -/
def RowsInside (size : ℕ) (entries : List (ℕ × F)) : Prop := ∀ entry ∈ entries, entry.1 < size

instance (size : ℕ) (entries : List (ℕ × F)) : Decidable (RowsInside size entries) :=
  inferInstanceAs (Decidable (∀ entry ∈ entries, _))

end Code

section Dense

variable {F : Type} [Field F]

/-- The net value of a column on a row. -/
def netValue (entries : List (ℕ × F)) (row : ℕ) : F :=
  (entries.map fun entry => if entry.1 = row then entry.2 else 0).sum

@[simp] theorem netValue_nil (row : ℕ) : netValue ([] : List (ℕ × F)) row = 0 := rfl

@[simp] theorem netValue_cons (entry : ℕ × F) (rest : List (ℕ × F)) (row : ℕ) :
    netValue (entry :: rest) row = (if entry.1 = row then entry.2 else 0) + netValue rest row := by
  simp [netValue]

/-- A column's sum over its entries is the sum over the rows of its net values. -/
theorem sum_netValue {size : ℕ} {entries : List (ℕ × F)} (inside : RowsInside size entries) (φ : ℕ → F) :
    ∑ row ∈ range size, netValue entries row * φ row = columnSum entries φ := by
  induction entries with
  | nil => simp [columnSum]
  | cons entry rest ih =>
      have tail := ih fun other member => inside other (List.mem_cons_of_mem _ member)
      have first := inside entry List.mem_cons_self
      simp only [netValue_cons, add_mul, sum_add_distrib, tail, ite_mul, zero_mul]
      rw [sum_ite_eq, if_pos (mem_range.mpr first)]
      simp [columnSum]

/-- A row outside has no net value. -/
theorem netValue_of_le {size row : ℕ} {entries : List (ℕ × F)} (inside : RowsInside size entries)
    (beyond : size ≤ row) : netValue entries row = 0 := by
  apply List.sum_eq_zero
  intro x member
  obtain ⟨e, listed, rfl⟩ := List.mem_map.mp member
  exact if_neg ((inside e listed).trans_le beyond).ne

/-- The dense values of a column are its net values. -/
theorem columnEvals_eq {size : ℕ} {entries : List (ℕ × F)} (inside : RowsInside size entries) :
    columnEvals size entries = some (tabulate size (netValue entries)) := by
  have loop (rest : List (ℕ × F)) (restInside : RowsInside size rest) : ∀ f : ℕ → F,
      rest.foldlM (fun evals entry =>
        if entry.1 < evals.length then some (evals.modify entry.1 (· + entry.2)) else none)
        (tabulate size f) = some (tabulate size fun row => f row + netValue rest row) := by
    induction rest with
    | nil => simp
    | cons entry rest ih =>
        intro f
        have first := restInside entry List.mem_cons_self
        have modified : (tabulate size f).modify entry.1 (· + entry.2) =
            tabulate size fun row => f row + if entry.1 = row then entry.2 else 0 := by
          apply List.ext_getElem?
          intro row
          rw [List.getElem?_modify, tabulate_getElem?, tabulate_getElem?]
          by_cases bound : row < size
          · by_cases same : entry.1 = row
            · simp [bound, same]
            · simp [bound, same]
          · simp [bound]
        rw [List.foldlM_cons, tabulate_length, if_pos first, modified]
        simp only [Option.bind_eq_bind, Option.bind_some]
        rw [ih fun other member => restInside other (List.mem_cons_of_mem _ member)]
        simp only [netValue_cons, add_assoc]
  have zeros : List.replicate size (0 : F) = tabulate size fun _ => 0 := by
    simp [tabulate]
  rw [columnEvals, zeros, loop entries inside]
  simp

/-- The dense polynomial of a column interpolates its net values. -/
theorem evaluate_columnPoly [DecidableEq F] (backend : PolynomialBackend F) (domain : EvaluationDomain F)
    {entries : List (ℕ × F)} (inside : RowsInside domain.size entries) (r : F) :
    (DensePolynomial.fromCoefficientsSlice
        (backend.ifft domain (tabulate domain.size (netValue entries)))).evaluate r =
      columnSum entries fun row => lagrange domain.groupGen domain.size row r := by
  rw [backend.ifft_spec, DensePolynomial.evaluate_eq_eval, DensePolynomial.toPolynomial_fromCoefficientsSlice,
    ← DensePolynomial.evaluate_eq_eval, DensePolynomial.evaluate_tabulate, ← sum_smul_lagrange,
    sum_netValue inside]

/-- The extractor of a system collects its columns on the rows of its domain. -/
theorem extractor_rowsInside {backend : PolynomialBackend F} {m : ConstraintMatrices F}
    {extractor : MatrixExtractor F} (extracted : MatrixExtractor.new backend m = some extractor) (col : ℕ) :
    RowsInside extractor.domain.size (extractor.aCols.getD col []) ∧
      RowsInside extractor.domain.size (extractor.bCols.getD col []) ∧
      RowsInside extractor.domain.size (extractor.cCols.getD col []) := by
  obtain ⟨domain, -, rfl⟩ := Option.map_eq_some_iff.mp extracted
  exact ⟨columnRows_lt (collectColumns_spec (M := F) m.numVars domain.size m.a).1,
    columnRows_lt (collectColumns_spec (M := F) m.numVars domain.size m.b).1,
    columnRows_lt (collectColumns_spec (M := F) m.numVars domain.size m.c).1⟩

end Dense

section Sparse

variable {F : Type} [Field F] [DecidableEq F] {domain : EvaluationDomain F}

/-- Off the nodes of its entries a column evaluates to the barycentric sum. -/
theorem evalSparse_outside {r : F} {entries : List (ℕ × F)}
    (outside : ∀ entry ∈ entries, r - domain.element entry.1 ≠ 0) :
    evalSparse domain r entries = columnSum entries fun row => lagrange domain.groupGen domain.size row r := by
  have loop : entries.foldl (evalSparseStep domain r) (0, none) =
      (columnSum entries fun row => domain.element row * (r - domain.element row)⁻¹, none) := by
    have steps (rest : List (ℕ × F)) (restOutside : ∀ entry ∈ rest, r - domain.element entry.1 ≠ 0) :
        ∀ acc : F, rest.foldl (evalSparseStep domain r) (acc, none) =
          (acc + columnSum rest fun row => domain.element row * (r - domain.element row)⁻¹, none) := by
      induction rest with
      | nil => simp [columnSum]
      | cons entry rest ih =>
          intro acc
          have first := restOutside entry List.mem_cons_self
          have step : evalSparseStep domain r (acc, none) entry =
              (acc + entry.2 * domain.element entry.1 * (r - domain.element entry.1)⁻¹, none) := by
            rw [evalSparseStep, if_neg first]
            rfl
          rw [List.foldl_cons, step, ih fun other member => restOutside other (List.mem_cons_of_mem _ member)]
          simp only [columnSum, List.map_cons, List.sum_cons, smul_eq_mul]
          rw [add_assoc, mul_assoc]
    rw [steps entries outside, zero_add]
  have sized := size_ne_zero domain.primitive domain.positive
  have scaled : (columnSum entries fun row => domain.element row * (r - domain.element row)⁻¹) *
      ((r ^ domain.size - 1) * (domain.size : F)⁻¹) =
        (entries.map fun entry => entry.2 * (domain.element entry.1 * (r - domain.element entry.1)⁻¹) *
          ((r ^ domain.size - 1) * (domain.size : F)⁻¹)).sum := by
    rw [List.sum_map_mul_right]
    rfl
  rw [evalSparse, loop]
  dsimp only
  rw [EvaluationDomain.sizeAsFieldElement, scaled, columnSum]
  congr 1
  apply List.map_congr_left
  intro entry member
  have node := outside entry member
  have product := lagrange_mul_sub domain.primitive domain.positive entry.1 r
  have value : lagrange domain.groupGen domain.size entry.1 r = domain.element entry.1 *
      (r ^ domain.size - 1) * ((domain.size : F)⁻¹ * (r - domain.element entry.1)⁻¹) := by
    rw [EvaluationDomain.element, ← product, ← EvaluationDomain.element]
    field_simp
  rw [value, smul_eq_mul]
  ring

/-- At a node a column with an entry there evaluates to the sum of its values on that row. -/
theorem evalSparse_node {k : ℕ} {r : F} (node : r = domain.element k) (kInside : k < domain.size)
    {entries : List (ℕ × F)} (inside : RowsInside domain.size entries)
    (present : ∃ entry ∈ entries, entry.1 = k) : evalSparse domain r entries = netValue entries k := by
  have hits {row : ℕ} (rowInside : row < domain.size) : r - domain.element row = 0 ↔ row = k := by
    rw [node, sub_eq_zero]
    constructor
    · intro same
      exact (domain.primitive.pow_inj kInside rowInside same).symm
    · intro same
      rw [same]
  have steps (rest : List (ℕ × F)) (restInside : RowsInside domain.size rest) :
      ∀ (acc : F) (rootSum : Option F), (rootSum.isSome ∨ ∃ entry ∈ rest, entry.1 = k) →
        (rest.foldl (evalSparseStep domain r) (acc, rootSum)).2 =
          some (rootSum.getD 0 + netValue rest k) := by
    induction rest with
    | nil =>
        intro acc rootSum known
        obtain ⟨s, rfl⟩ := Option.isSome_iff_exists.mp (known.resolve_right (by simp))
        simp
    | cons entry rest ih =>
        intro acc rootSum known
        have first := restInside entry List.mem_cons_self
        have tail := ih fun other member => restInside other (List.mem_cons_of_mem _ member)
        rw [List.foldl_cons, evalSparseStep, netValue_cons]
        by_cases same : entry.1 = k
        · rw [if_pos ((hits first).mpr same), if_pos same, tail _ _ (Or.inl rfl), Option.getD_some, add_assoc]
        · have still : rootSum.isSome ∨ ∃ other ∈ rest, other.1 = k := by
            rcases known with found | later
            · exact Or.inl found
            · obtain ⟨other, member, here⟩ := later
              rcases List.mem_cons.mp member with rfl | deeper
              · exact absurd here same
              · exact Or.inr ⟨other, deeper, here⟩
          rw [if_neg (mt (hits first).mp same), if_neg same, zero_add]
          split
          case isTrue => exact tail _ _ still
          case isFalse => exact tail _ _ still
  have final := steps entries inside 0 none (Or.inr present)
  rw [Option.getD_none, zero_add] at final
  rw [evalSparse, final]

/-- The sparse evaluation of a column is the value of its interpolant, at the nodes too. -/
theorem evalSparse_eq {entries : List (ℕ × F)} (inside : RowsInside domain.size entries) (r : F) :
    evalSparse domain r entries = columnSum entries fun row => lagrange domain.groupGen domain.size row r := by
  by_cases hit : ∃ entry ∈ entries, r - domain.element entry.1 = 0
  · obtain ⟨entry, member, zero⟩ := hit
    have node := sub_eq_zero.mp zero
    have kInside := inside entry member
    rw [evalSparse_node node kInside inside ⟨entry, member, rfl⟩, ← sum_netValue inside,
      sum_eq_single_of_mem entry.1 (mem_range.mpr kInside)]
    · rw [node, EvaluationDomain.element, lagrange_node domain.primitive kInside kInside, if_pos rfl, mul_one]
    · intro row rowMember different
      rw [node, EvaluationDomain.element, lagrange_node domain.primitive (mem_range.mp rowMember) kInside,
        if_neg different, mul_zero]
  · apply evalSparse_outside
    intro entry member zero
    exact hit ⟨entry, member, zero⟩

/-- Both evaluations of a column agree at every point, for entries in any order and with repeated rows. -/
theorem evaluateColumn_eq (backend : PolynomialBackend F) (extractor : MatrixExtractor F) (col : ℕ)
    (aRows : RowsInside extractor.domain.size (extractor.aCols.getD col []))
    (bRows : RowsInside extractor.domain.size (extractor.bCols.getD col []))
    (cRows : RowsInside extractor.domain.size (extractor.cCols.getD col [])) :
    ∃ u v w, getColumnPolys backend extractor col = some (u, v, w) ∧
      ∀ r, evaluateColumn extractor col r = (u.evaluate r, v.evaluate r, w.evaluate r) := by
  refine ⟨_, _, _, by rw [getColumnPolys, columnEvals_eq aRows, columnEvals_eq bRows, columnEvals_eq cRows]; rfl,
    ?_⟩
  intro r
  rw [evaluateColumn, evalSparse_eq aRows, evalSparse_eq bRows, evalSparse_eq cRows,
    evaluate_columnPoly backend _ aRows, evaluate_columnPoly backend _ bRows, evaluate_columnPoly backend _ cRows]

theorem evaluateColumn_eq_repeatedRow :
    let extractor : MatrixExtractor (ZMod 13) :=
      { aCols := [[(2, 3), (0, 5), (2, 4)]], bCols := [[(1, 2), (1, 11)]], cCols := [[]], domain := fourthRoots }
    ∃ u v w, getColumnPolys smallBackend extractor 0 = some (u, v, w) ∧
      (u.evaluate (fourthRoots.element 2), v.evaluate (fourthRoots.element 2),
        w.evaluate (fourthRoots.element 2)) = (7, 0, 0) := by
  intro extractor
  obtain ⟨u, v, w, polys, value⟩ :=
    evaluateColumn_eq smallBackend extractor 0 (by decide) (by decide) (by decide)
  have node : evaluateColumn extractor 0 (fourthRoots.element 2) = (7, 0, 0) := by decide +kernel
  exact ⟨u, v, w, polys, (value _).symm.trans node⟩

end Sparse

end Pvugc.Audit
