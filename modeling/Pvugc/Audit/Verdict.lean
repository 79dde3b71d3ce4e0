import Pvugc.Audit.Independence
import Pvugc.Audit.SpanCheck

namespace Pvugc.Audit
open Pvugc.Algebra Pvugc.Groth16 Pvugc.Outer Finset

/-- The three results of the last line. -/
inductive AuditVerdict
  | secure
  | conditionallySafe
  | insecure
  deriving DecidableEq

/-- What one run of the audit evaluates. -/
structure AuditReport where
  publicInputsAZero : Bool
  publicInputsBZero : Bool
  publicInputsCNonzero : Bool
  structurallySeparated : Bool
  noPubAbOverlap : Bool
  isLinear : Bool
  isUnmixed : Bool
  vSpanSeparated : Bool
  uSpanSeparated : Bool
  wSpanSeparated : Bool
  allSafe : Bool

def AuditReport.fullSpanSeparated (report : AuditReport) : Bool :=
  report.vSpanSeparated && report.uSpanSeparated && report.wSpanSeparated

def AuditReport.fullySafe (report : AuditReport) : Bool :=
  report.isLinear && report.isUnmixed && report.allSafe && report.noPubAbOverlap

/-- The last line of the audit. -/
def AuditReport.verdict (report : AuditReport) : AuditVerdict :=
  if report.fullySafe && report.fullSpanSeparated then .secure
  else if report.fullySafe then .conditionallySafe
  else .insecure

/-- The last line is the good one exactly when the seven checks that it combines pass. -/
theorem AuditReport.verdict_eq_secure (report : AuditReport) : report.verdict = .secure ↔
    report.isLinear = true ∧ report.isUnmixed = true ∧ report.noPubAbOverlap = true ∧
      (report.uSpanSeparated = true ∧ report.vSpanSeparated = true ∧ report.wSpanSeparated = true) ∧
        report.allSafe = true := by
  have combined : report.verdict = .secure ↔ (report.fullySafe && report.fullSpanSeparated) = true := by
    rw [verdict]
    split
    case isTrue passes => exact iff_of_true rfl passes
    case isFalse fails =>
      apply iff_of_false _ fails
      split <;> decide
  rw [combined, fullySafe, fullSpanSeparated]
  simp only [Bool.and_eq_true]
  tauto

section Code

variable {F : Type} [Field F] [DecidableEq F]

/-- `check_public_ab_overlap`. -/
def checkPublicAbOverlap (extractor : MatrixExtractor F) (numPub : ℕ) : Bool :=
  (List.range' 1 (numPub - 1)).all fun col =>
    let aNet := toSparseRowVec (extractor.aCols.getD col [])
    let bNet := toSparseRowVec (extractor.bCols.getD col [])
    if aNet.isEmpty || bNet.isEmpty then true
    else aNet.entries.keys.all fun row => !bNet.entries.contains row

/-- `check_linearity`. -/
def checkLinearity (pubPolys : List (ColumnPolys F)) (numPub : ℕ) : Bool :=
  let none : ColumnPolys F := (DensePolynomial.zero, DensePolynomial.zero, DensePolynomial.zero)
  (List.range' 1 (numPub - 1)).all fun i => (List.range' 1 (numPub - 1)).all fun j =>
    ((pubPolys.getD i none).1.mul (pubPolys.getD j none).2.1).isZero

/-- `check_mixing`; the flags of the rows are kept as the lists of the marked ones. -/
def checkMixing (extractor : MatrixExtractor F) (numPub numVars : ℕ) : Bool :=
  let aCol := fun col => extractor.aCols.getD col []
  let bCol := fun col => extractor.bCols.getD col []
  let rowsPubA := netRows aCol (List.range' 1 (numPub - 1))
  let rowsPubB := netRows bCol (List.range' 1 (numPub - 1))
  (List.range' numPub (numVars - numPub)).all fun j =>
    ((toSparseRowVec (aCol j)).entries.keys.all fun row => !rowsPubB.contains row) &&
      (toSparseRowVec (bCol j)).entries.keys.all fun row => !rowsPubA.contains row

/-- `run_audit` on a synthesized circuit, without its printed lines; `rand` is the first sample of the
seeded generator, and `none` is a panic before the last line. -/
def runAudit (backend : PolynomialBackend F) (rand : ℕ → F) {m : ConstraintMatrices F} (z : Assignment m) :
    Option AuditReport := do
  let numPub := m.numInstanceVariables
  let numWit := m.numWitnessVariables
  let extractor ← MatrixExtractor.new backend m
  let publicColumns := List.range' 1 (numPub - 1)
  let publicInputsAZero := publicColumns.all fun i => (extractor.aCols.getD i []).isEmpty
  let publicInputsBZero := publicColumns.all fun i => (extractor.bCols.getD i []).isEmpty
  let publicInputsCNonzero := publicColumns.all fun i => !(extractor.cCols.getD i []).isEmpty
  let structurallySeparated ← verifyPublicOnlyInCAndWSpanSeparated extractor numPub numWit
  let noPubAbOverlap := checkPublicAbOverlap extractor numPub
  let pubPolys ← (List.range numPub).mapM (getColumnPolys backend extractor)
  let instanceValues := z.instanceAssignment
  if instanceValues.length ≠ numPub then none
  let isLinear := checkLinearity pubPolys numPub
  let isUnmixed := checkMixing extractor numPub (numPub + numWit)
  let vSpanSeparated ← checkSpanSeparationMatrix numPub (numPub + numWit) fun i => extractor.bCols.getD i []
  let uSpanSeparated ← checkSpanSeparationMatrix numPub (numPub + numWit) fun i => extractor.aCols.getD i []
  let wSpanSeparated ← checkSpanSeparationMatrix numPub (numPub + numWit) fun i => extractor.cCols.getD i []
  let target ← buildTarget pubPolys instanceValues
  let allSafe ← runIndependenceChecks rand extractor pubPolys instanceValues target (numPub + numWit) 4
  return {
    publicInputsAZero := publicInputsAZero
    publicInputsBZero := publicInputsBZero
    publicInputsCNonzero := publicInputsCNonzero
    structurallySeparated := structurallySeparated
    noPubAbOverlap := noPubAbOverlap
    isLinear := isLinear
    isUnmixed := isUnmixed
    vSpanSeparated := vSpanSeparated
    uSpanSeparated := uSpanSeparated
    wSpanSeparated := wSpanSeparated
    allSafe := allSafe }

end Code

section Matrices

variable {F : Type} [Field F]

/-- The instance columns other than the constant one. -/
def IsPublicColumn (m : ConstraintMatrices F) (col : ℕ) : Prop := 1 ≤ col ∧ col < m.numInstanceVariables

def IsWitnessColumn (m : ConstraintMatrices F) (col : ℕ) : Prop := m.numInstanceVariables ≤ col ∧ col < m.numVars

/-- The public columns occur in `C` only, each of them does, and never next to a witness column. -/
structure PublicOnlyInC (m : ConstraintMatrices F) : Prop where
  aFree : ∀ row, ∀ term ∈ m.a.getD row [], ¬ IsPublicColumn m term.2
  bFree : ∀ row, ∀ term ∈ m.b.getD row [], ¬ IsPublicColumn m term.2
  cBound : ∀ col, IsPublicColumn m col → ∃ row, ∃ term ∈ m.c.getD row [], term.2 = col
  cSeparated : ∀ row, ∀ term ∈ m.c.getD row [], IsPublicColumn m term.2 →
    ∀ other ∈ m.c.getD row [], ¬ IsWitnessColumn m other.2

/-- The span of the net columns of a matrix. -/
def netSpan (rows : List (Row F)) (columns : Set ℕ) : Submodule F (ℕ → F) :=
  Submodule.span F ((fun col row => entry rows row col) '' columns)

/-- The public columns and the witness columns of a matrix have spans that meet in zero only. -/
def SpansApart (m : ConstraintMatrices F) (rows : List (Row F)) : Prop :=
  netSpan rows {col | IsPublicColumn m col} ⊓ netSpan rows {col | IsWitnessColumn m col} = ⊥

/-- The value at a point of the interpolated instance part of a matrix. -/
def instanceValue (domain : EvaluationDomain F) {m : ConstraintMatrices F} (z : Assignment m)
    (rows : List (Row F)) (r : F) : F :=
  ∑ col ∈ range m.numInstanceVariables, z.value col * columnValue domain rows r col

/-- What the verdict asks of the matrices: the public columns vanish in `A` or vanish in `B`, no row joins a
public column of one with a witness column of the other, the spans are apart in all three matrices, and at
each sampled point the instance part of `A` or that of `C` is nonzero. -/
structure PassesVerdict (domain : EvaluationDomain F) (rand : ℕ → F) {m : ConstraintMatrices F}
    (z : Assignment m) : Prop where
  linear : (∀ row col, IsPublicColumn m col → entry m.a row col = 0) ∨
    ∀ row col, IsPublicColumn m col → entry m.b row col = 0
  unmixed : ∀ row col wit, IsPublicColumn m col → IsWitnessColumn m wit →
    entry m.b row col * entry m.a row wit = 0 ∧ entry m.a row col * entry m.b row wit = 0
  apart : SpansApart m m.a ∧ SpansApart m m.b ∧ SpansApart m m.c
  points : ∀ i < 4, instanceValue domain z m.a (rand (12345 + i)) ≠ 0 ∨
    instanceValue domain z m.c (rand (12345 + i)) ≠ 0

omit [Field F] in
theorem mem_publicColumns {m : ConstraintMatrices F} {col : ℕ} :
    col ∈ List.range' 1 (m.numInstanceVariables - 1) ↔ IsPublicColumn m col := by
  rw [List.mem_range'_1, IsPublicColumn]
  omega

omit [Field F] in
theorem mem_witnessColumns {m : ConstraintMatrices F} {col : ℕ} :
    col ∈ List.range' m.numInstanceVariables m.numWitnessVariables ↔ IsWitnessColumn m col := by
  rw [List.mem_range'_1, IsWitnessColumn, ConstraintMatrices.numVars]

omit [Field F] in
theorem IsPublicColumn.lt_numVars {m : ConstraintMatrices F} {col : ℕ} (column : IsPublicColumn m col) :
    col < m.numVars := column.2.trans_le (Nat.le_add_right _ _)

/-- The net value of a collected column on a row is the net coefficient of the matrix. -/
theorem netValue_collectColumns {numVars size col : ℕ} {rows : List (Row F)} (inside : col < numVars)
    (fits : rows.length ≤ size) :
    netValue ((collectColumns numVars size rows).getD col []) = fun row => entry rows row col := by
  obtain ⟨below, sums⟩ := collectColumns_spec (M := F) numVars size rows
  have rowsInside : RowsInside size ((collectColumns numVars size rows).getD col []) := columnRows_lt below
  funext row
  rcases Nat.lt_or_ge row size with here | beyond
  · have indicator := sums col inside fits fun other => if other = row then 1 else 0
    rw [← sum_netValue rowsInside, sum_eq_single_of_mem row (mem_range.mpr here)] at indicator
    · simpa [here] using indicator
    · intro other _ different
      rw [if_neg different, mul_zero]
  · rw [entry_eq_zero_of_length_le (fits.trans beyond), netValue_of_le rowsInside beyond]

theorem columnSpan_collectColumns {numVars size : ℕ} {rows : List (Row F)} {columns : List ℕ}
    (inside : ∀ col ∈ columns, col < numVars) (fits : rows.length ≤ size) :
    columnSpan (fun col => (collectColumns numVars size rows).getD col []) columns =
      netSpan rows {col | col ∈ columns} := by
  rw [columnSpan, rowSpan, netSpan]
  congr 1
  apply Set.image_congr
  intro col listed
  exact netValue_collectColumns (inside col listed) fits

end Matrices

section Structure

variable {F : Type} [Field F] {m : ConstraintMatrices F} {domain : EvaluationDomain F}

omit [Field F] in
theorem lt_of_mem_row {size row : ℕ} {rows : List (Row F)} (fits : rows.length ≤ size) {term : F × ℕ}
    (member : term ∈ rows.getD row []) : row < size := by
  by_contra beyond
  rw [List.getD_eq_default _ _ (fits.trans (Nat.le_of_not_lt beyond))] at member
  cases member

omit [Field F] in
/-- A collected column is empty exactly when it occurs in no row. -/
theorem collectColumns_isEmpty {numVars size col : ℕ} {rows : List (Row F)} (inside : col < numVars)
    (fits : rows.length ≤ size) : ((collectColumns numVars size rows).getD col []).isEmpty = true ↔
      ∀ row, ∀ term ∈ rows.getD row [], term.2 ≠ col := by
  rw [List.isEmpty_iff, List.eq_nil_iff_forall_not_mem]
  constructor
  · intro none row term member same
    apply none (row, term.1)
    rw [mem_collectColumns inside, ← same]
    exact ⟨lt_of_mem_row fits member, member⟩
  · intro absent e member
    exact absent e.1 _ ((mem_collectColumns inside rows).mp member).2 rfl

/-- All public columns of a matrix are empty exactly when no row holds one of them. -/
theorem publicColumns_isEmpty {rows : List (Row F)} (fits : rows.length ≤ domain.size) :
    ((List.range' 1 (m.numInstanceVariables - 1)).all fun col =>
      ((collectColumns m.numVars domain.size rows).getD col []).isEmpty) = true ↔
      ∀ row, ∀ term ∈ rows.getD row [], ¬ IsPublicColumn m term.2 := by
  rw [List.all_eq_true]
  constructor
  · intro vacant row term member column
    exact (collectColumns_isEmpty column.lt_numVars fits).mp (vacant _ (mem_publicColumns.mpr column)) row term
      member rfl
  · intro free col listed
    have column := mem_publicColumns.mp listed
    rw [collectColumns_isEmpty column.lt_numVars fits]
    intro row term member same
    exact free row term member (same ▸ column)

/-- Every public column of a matrix is nonempty exactly when some row holds it. -/
theorem publicColumns_nonempty {rows : List (Row F)} (fits : rows.length ≤ domain.size) :
    ((List.range' 1 (m.numInstanceVariables - 1)).all fun col =>
      !((collectColumns m.numVars domain.size rows).getD col []).isEmpty) = true ↔
      ∀ col, IsPublicColumn m col → ∃ row, ∃ term ∈ rows.getD row [], term.2 = col := by
  rw [List.all_eq_true]
  apply forall_congr'
  intro col
  rw [mem_publicColumns]
  apply imp_congr_right
  intro column
  rw [Bool.not_eq_true', ← Bool.not_eq_true, collectColumns_isEmpty column.lt_numVars fits]
  push Not
  rfl

/-- The rows of the public columns of `C` are apart from those of its witness columns exactly when no row
holds both. -/
theorem columnRows_disjoint {rows : List (Row F)} (fits : rows.length ≤ domain.size) :
    columnRows (collectColumns m.numVars domain.size rows) (List.range' 1 (m.numInstanceVariables - 1)) ∩
        columnRows (collectColumns m.numVars domain.size rows)
          (List.range' m.numInstanceVariables m.numWitnessVariables) = ∅ ↔
      ∀ row, ∀ term ∈ rows.getD row [], IsPublicColumn m term.2 →
        ∀ other ∈ rows.getD row [], ¬ IsWitnessColumn m other.2 := by
  have occurs {columns : List ℕ} (inside : ∀ col ∈ columns, col < m.numVars) {row : ℕ} :
      row ∈ columnRows (collectColumns m.numVars domain.size rows) columns ↔
        ∃ term ∈ rows.getD row [], term.2 ∈ columns := by
    simp only [columnRows, List.mem_toFinset, List.mem_flatMap, List.mem_map]
    constructor
    · intro occurrence
      obtain ⟨col, listed, e, entry, rfl⟩ := occurrence
      exact ⟨(e.2, col), ((mem_collectColumns (inside col listed) rows).mp entry).2, listed⟩
    · intro occurrence
      obtain ⟨term, member, listed⟩ := occurrence
      exact ⟨term.2, listed, (row, term.1),
        (mem_collectColumns (inside _ listed) rows).mpr ⟨lt_of_mem_row fits member, member⟩, rfl⟩
  have publicInside : ∀ col ∈ List.range' 1 (m.numInstanceVariables - 1), col < m.numVars := fun col listed =>
    (mem_publicColumns.mp listed).lt_numVars
  have witnessInside : ∀ col ∈ List.range' m.numInstanceVariables m.numWitnessVariables, col < m.numVars :=
    fun col listed => (mem_witnessColumns.mp listed).2
  rw [← disjoint_iff_inter_eq_empty, disjoint_left]
  constructor
  · intro apart row term member column other otherMember witness
    apply apart ((occurs publicInside).mpr ⟨term, member, mem_publicColumns.mpr column⟩)
    exact (occurs witnessInside).mpr ⟨other, otherMember, mem_witnessColumns.mpr witness⟩
  · intro apart row publicRow witnessRow
    obtain ⟨term, member, column⟩ := (occurs publicInside).mp publicRow
    obtain ⟨other, otherMember, witness⟩ := (occurs witnessInside).mp witnessRow
    exact apart row term member (mem_publicColumns.mp column) other otherMember (mem_witnessColumns.mp witness)

end Structure

section Checks

variable {F : Type} [Field F] [DecidableEq F] {m : ConstraintMatrices F} {domain : EvaluationDomain F}

/-- The interpolants of a column. -/
def columnPolys (backend : PolynomialBackend F) (extractor : MatrixExtractor F) (col : ℕ) : ColumnPolys F :=
  let dense := fun entries : List (ℕ × F) => DensePolynomial.fromCoefficientsSlice
    (backend.ifft extractor.domain (tabulate extractor.domain.size (netValue entries)))
  (dense (extractor.aCols.getD col []), dense (extractor.bCols.getD col []), dense (extractor.cCols.getD col []))

/-- The interpolants of the public columns are always computed. -/
theorem mapM_getColumnPolys {backend : PolynomialBackend F} {extractor : MatrixExtractor F}
    (extracted : MatrixExtractor.new backend m = some extractor) (numPub : ℕ) :
    (List.range numPub).mapM (getColumnPolys backend extractor) =
      some (tabulate numPub (columnPolys backend extractor)) := by
  apply mapM_eq_some
  intro col _
  obtain ⟨aRows, bRows, cRows⟩ := extractor_rowsInside extracted col
  rw [getColumnPolys, columnEvals_eq aRows, columnEvals_eq bRows, columnEvals_eq cRows]
  rfl

/-- The interpolant of a column is zero exactly when its net values are. -/
theorem columnPoly_eq_zero_iff (backend : PolynomialBackend F) {entries : List (ℕ × F)}
    (inside : RowsInside domain.size entries) :
    (DensePolynomial.fromCoefficientsSlice
      (backend.ifft domain (tabulate domain.size (netValue entries)))).toPolynomial = 0 ↔
        netValue entries = 0 := by
  constructor
  · intro zero
    funext row
    rcases Nat.lt_or_ge row domain.size with here | beyond
    · have node := evaluate_columnPoly backend domain inside (domain.element row)
      rw [DensePolynomial.evaluate_eq_eval, zero, Polynomial.eval_zero, ← sum_netValue inside,
        sum_eq_single_of_mem row (mem_range.mpr here)] at node
      · rw [EvaluationDomain.element, lagrange_node domain.primitive here here, if_pos rfl, mul_one] at node
        exact node.symm
      · intro other otherInside different
        rw [EvaluationDomain.element, lagrange_node domain.primitive (mem_range.mp otherInside) here,
          if_neg different, mul_zero]
    · exact netValue_of_le inside beyond
  · intro zero
    rw [zero, backend.ifft_spec, DensePolynomial.toPolynomial_fromCoefficientsSlice,
      ← DensePolynomial.isZero_iff, DensePolynomial.isZero, List.all_eq_true]
    intro c member
    obtain ⟨i, -, rfl⟩ := mem_tabulate.mp member
    simp [idft, dft]

/-- The linearity check passes exactly when the public columns vanish in `A` or vanish in `B`. -/
theorem checkLinearity_iff {backend : PolynomialBackend F} {extractor : MatrixExtractor F}
    (extracted : MatrixExtractor.new backend m = some extractor) :
    checkLinearity (tabulate m.numInstanceVariables (columnPolys backend extractor)) m.numInstanceVariables =
        true ↔
      (∀ col, IsPublicColumn m col → netValue (extractor.aCols.getD col []) = 0) ∨
        ∀ col, IsPublicColumn m col → netValue (extractor.bCols.getD col []) = 0 := by
  have pairs : checkLinearity (tabulate m.numInstanceVariables (columnPolys backend extractor))
      m.numInstanceVariables = true ↔ ∀ i, IsPublicColumn m i → ∀ j, IsPublicColumn m j →
        netValue (extractor.aCols.getD i []) = 0 ∨ netValue (extractor.bCols.getD j []) = 0 := by
    rw [checkLinearity, List.all_eq_true]
    apply forall_congr'
    intro i
    rw [mem_publicColumns]
    apply imp_congr_right
    intro iPublic
    rw [List.all_eq_true]
    apply forall_congr'
    intro j
    rw [mem_publicColumns]
    apply imp_congr_right
    intro jPublic
    rw [tabulate_getD _ iPublic.2, tabulate_getD _ jPublic.2, DensePolynomial.isZero_iff,
      DensePolynomial.toPolynomial_mul, mul_eq_zero]
    exact or_congr (columnPoly_eq_zero_iff backend (extractor_rowsInside extracted i).1)
      (columnPoly_eq_zero_iff backend (extractor_rowsInside extracted j).2.1)
  rw [pairs]
  constructor
  · intro products
    by_cases free : ∀ i, IsPublicColumn m i → netValue (extractor.aCols.getD i []) = 0
    · exact .inl free
    · push Not at free
      obtain ⟨i, iPublic, nonzero⟩ := free
      exact .inr fun j jPublic => (products i iPublic j jPublic).resolve_left nonzero
  · intro free i iPublic j jPublic
    exact free.imp (fun aFree => aFree i iPublic) (fun bFree => bFree j jPublic)

/-- The mixing check passes exactly when no row joins a public and a witness column of `A` and `B`. -/
theorem checkMixing_iff (extractor : MatrixExtractor F) :
    checkMixing extractor m.numInstanceVariables m.numVars = true ↔
      ∀ row col wit, IsPublicColumn m col → IsWitnessColumn m wit →
        netValue (extractor.bCols.getD col []) row * netValue (extractor.aCols.getD wit []) row = 0 ∧
          netValue (extractor.aCols.getD col []) row * netValue (extractor.bCols.getD wit []) row = 0 := by
  have keys (entries : List (ℕ × F)) (row : ℕ) :
      row ∈ (toSparseRowVec entries).entries.keys ↔ netValue entries row ≠ 0 := by
    have listed : row ∈ netRows (fun _ => entries) [0] ↔ _ := mem_netRows
    simpa [netRows] using listed
  have width : m.numVars - m.numInstanceVariables = m.numWitnessVariables := by
    rw [ConstraintMatrices.numVars, Nat.add_sub_cancel_left]
  rw [checkMixing, List.all_eq_true, width]
  simp only [Bool.and_eq_true, List.all_eq_true, Bool.not_eq_true', ← Bool.not_eq_true, List.contains_iff_mem,
    keys, mem_netRows, mem_publicColumns, mem_witnessColumns]
  constructor
  · intro unmixed row col wit column witness
    obtain ⟨rowsB, rowsA⟩ := unmixed wit witness
    constructor
    · by_contra product
      exact rowsB row (right_ne_zero_of_mul product) ⟨col, column, left_ne_zero_of_mul product⟩
    · by_contra product
      exact rowsA row (right_ne_zero_of_mul product) ⟨col, column, left_ne_zero_of_mul product⟩
  · intro unmixed wit witness
    constructor
    · intro row nonzero marked
      obtain ⟨col, column, marking⟩ := marked
      exact mul_ne_zero marking nonzero (unmixed row col wit column witness).1
    · intro row nonzero marked
      obtain ⟨col, column, marking⟩ := marked
      exact mul_ne_zero marking nonzero (unmixed row col wit column witness).2

/-- Public columns that vanish in `A` or vanish in `B` have no common row there. -/
theorem checkPublicAbOverlap_of_linear {extractor : MatrixExtractor F}
    (linear : (∀ col, IsPublicColumn m col → netValue (extractor.aCols.getD col []) = 0) ∨
      ∀ col, IsPublicColumn m col → netValue (extractor.bCols.getD col []) = 0) :
    checkPublicAbOverlap extractor m.numInstanceVariables = true := by
  rw [checkPublicAbOverlap, List.all_eq_true]
  intro col listed
  have column := mem_publicColumns.mp listed
  dsimp only
  rw [if_pos]
  rw [Bool.or_eq_true, toSparseRowVec_isEmpty, toSparseRowVec_isEmpty]
  exact linear.imp (fun aFree => aFree col column) (fun bFree => bFree col column)

/-- The interpolant of a collected column has the values of the column of the matrix. -/
theorem evaluate_collectColumns (backend : PolynomialBackend F) {numVars col : ℕ} {rows : List (Row F)}
    (inside : col < numVars) (fits : rows.length ≤ domain.size) (r : F) :
    (DensePolynomial.fromCoefficientsSlice (backend.ifft domain (tabulate domain.size
      (netValue ((collectColumns numVars domain.size rows).getD col []))))).evaluate r =
        columnValue domain rows r col := by
  obtain ⟨below, sums⟩ := collectColumns_spec (M := F) numVars domain.size rows
  rw [evaluate_columnPoly backend domain (columnRows_lt below), sums col inside fits]
  rfl

/-- The weighted values of the target are the instance parts of the matrices. -/
theorem weightedValue_instance (backend : PolynomialBackend F) (z : Assignment m)
    {extractor : MatrixExtractor F} {rows : List (Row F)} {poly : ColumnPolys F → DensePolynomial F} {r : F}
    (values : ∀ col < m.numInstanceVariables,
      (poly (columnPolys backend extractor col)).evaluate r = columnValue domain rows r col) :
    weightedValue (tabulate m.numInstanceVariables (columnPolys backend extractor)) z.instanceAssignment poly r =
      instanceValue domain z rows r := by
  rw [weightedValue, z.instanceAssignment_eq, tabulate_zip, tabulate_map, tabulate_sum, instanceValue]
  apply sum_congr rfl
  intro col member
  rw [Function.comp_apply, values col (mem_range.mp member)]

omit [DecidableEq F] in
/-- The public columns of a collected matrix vanish when they have no net coefficient. -/
theorem netValue_publicColumns {rows : List (Row F)} (fits : rows.length ≤ domain.size) :
    (∀ col, IsPublicColumn m col → netValue ((collectColumns m.numVars domain.size rows).getD col []) = 0) ↔
      ∀ row col, IsPublicColumn m col → entry rows row col = 0 := by
  constructor
  · intro vanish row col column
    rw [← congrFun (netValue_collectColumns column.lt_numVars fits) row, vanish col column, Pi.zero_apply]
  · intro vanish col column
    rw [netValue_collectColumns column.lt_numVars fits]
    funext row
    exact vanish row col column

omit [DecidableEq F] in
/-- The spans of the collected columns meet where the spans of the matrix do. -/
theorem columnSpan_apart_iff {rows : List (Row F)} (fits : rows.length ≤ domain.size) :
    columnSpan (fun col => (collectColumns m.numVars domain.size rows).getD col [])
        (List.range' 1 (m.numInstanceVariables - 1)) ⊓
      columnSpan (fun col => (collectColumns m.numVars domain.size rows).getD col [])
        (List.range' m.numInstanceVariables m.numWitnessVariables) = ⊥ ↔ SpansApart m rows := by
  rw [columnSpan_collectColumns (fun col listed => (mem_publicColumns.mp listed).lt_numVars) fits,
    columnSpan_collectColumns (fun col listed => (mem_witnessColumns.mp listed).2) fits]
  simp only [mem_publicColumns, mem_witnessColumns]
  rfl

/-- The mixing check on the collected columns reads the net coefficients of `A` and `B`. -/
theorem checkMixing_collectColumns {extractor : MatrixExtractor F}
    (aCollected : extractor.aCols = collectColumns m.numVars domain.size m.a)
    (bCollected : extractor.bCols = collectColumns m.numVars domain.size m.b)
    (aFits : m.a.length ≤ domain.size) (bFits : m.b.length ≤ domain.size) :
    checkMixing extractor m.numInstanceVariables m.numVars = true ↔
      ∀ row col wit, IsPublicColumn m col → IsWitnessColumn m wit →
        entry m.b row col * entry m.a row wit = 0 ∧ entry m.a row col * entry m.b row wit = 0 := by
  rw [checkMixing_iff, aCollected, bCollected]
  apply forall_congr'
  intro row
  apply forall_congr'
  intro col
  apply forall_congr'
  intro wit
  apply imp_congr_right
  intro column
  apply imp_congr_right
  intro witness
  rw [netValue_collectColumns column.lt_numVars aFits, netValue_collectColumns witness.2 aFits,
    netValue_collectColumns column.lt_numVars bFits, netValue_collectColumns witness.2 bFits]

omit [DecidableEq F] in
/-- The structural check joins the scans of the three matrices. -/
theorem verifyPublicOnly_spec {extractor : MatrixExtractor F} {numPub numWit : ℕ}
    (aLength : extractor.aCols.length = numPub + numWit) (bLength : extractor.bCols.length = numPub + numWit)
    (cLength : extractor.cCols.length = numPub + numWit) :
    ∃ passed, verifyPublicOnlyInCAndWSpanSeparated extractor numPub numWit = some passed ∧
      (passed = true ↔
        ((List.range' 1 (numPub - 1)).all fun i => (extractor.aCols.getD i []).isEmpty) = true ∧
        ((List.range' 1 (numPub - 1)).all fun i => (extractor.bCols.getD i []).isEmpty) = true ∧
        ((List.range' 1 (numPub - 1)).all fun i => !(extractor.cCols.getD i []).isEmpty) = true ∧
        columnRows extractor.cCols (List.range' 1 (numPub - 1)) ∩
          columnRows extractor.cCols (List.range' numPub numWit) = ∅) := by
  have vacant (cols : List (List (ℕ × F))) : (nonzeroPublicColumns cols numPub).isEmpty =
      (List.range' 1 (numPub - 1)).all fun i => (cols.getD i []).isEmpty := by
    rw [Bool.eq_iff_iff, List.isEmpty_iff, nonzeroPublicColumns, List.filterMap_eq_nil_iff, List.all_eq_true]
    apply forall_congr'
    intro i
    apply imp_congr_right
    intro _
    cases (cols.getD i []) with
    | nil => simp
    | cons entry rest => simp
  have present : ((List.range' 1 (numPub - 1)).filter fun col => (extractor.cCols.getD col []).isEmpty).isEmpty =
      (List.range' 1 (numPub - 1)).all fun i => !(extractor.cCols.getD i []).isEmpty := by
    rw [Bool.eq_iff_iff, List.isEmpty_iff, List.filter_eq_nil_iff, List.all_eq_true]
    simp only [Bool.not_eq_true', Bool.not_eq_true]
  rw [verifyPublicOnlyInCAndWSpanSeparated, if_neg (by simp [aLength, bLength, cLength])]
  refine ⟨_, rfl, ?_⟩
  rw [vacant, vacant, present]
  simp only [Bool.and_eq_true, decide_eq_true_eq, and_assoc]

/-- The audit only stops without a domain. Its structural results say that the public columns occur in `C`
only, and its last line says what the verdict asks of the matrices. -/
theorem runAudit_spec {backend : PolynomialBackend F} (located : quotientDomain backend m = some domain)
    (rand : ℕ → F) (z : Assignment m) :
    ∃ report, runAudit backend rand z = some report ∧
      (report.publicInputsAZero = true ∧ report.publicInputsBZero = true ∧
        report.publicInputsCNonzero = true ∧ report.structurallySeparated = true ↔ PublicOnlyInC m) ∧
      (report.verdict = .secure ↔ PassesVerdict domain rand z) := by
  have fits := quotientDomain_fits located
  have aFits : m.a.length ≤ domain.size := m.aLength.trans_le fits
  have bFits : m.b.length ≤ domain.size := m.bLength.trans_le fits
  have cFits : m.c.length ≤ domain.size := m.cLength.trans_le fits
  have extracted : MatrixExtractor.new backend m = some {
      aCols := collectColumns m.numVars domain.size m.a
      bCols := collectColumns m.numVars domain.size m.b
      cCols := collectColumns m.numVars domain.size m.c
      domain := domain } := by
    rw [MatrixExtractor.new, located]
    rfl
  set extractor : MatrixExtractor F := {
    aCols := collectColumns m.numVars domain.size m.a
    bCols := collectColumns m.numVars domain.size m.b
    cCols := collectColumns m.numVars domain.size m.c
    domain := domain } with hextractor
  have lengths : (tabulate m.numInstanceVariables (columnPolys backend extractor)).length =
      z.instanceAssignment.length := by
    rw [tabulate_length, z.instanceLength]
  obtain ⟨target, built, -, -⟩ := buildTarget_spec lengths
  obtain ⟨allSafe, checked, safe⟩ := runIndependenceChecks_spec rand extractor lengths built
    (m.numInstanceVariables + m.numWitnessVariables) 4
  obtain ⟨v, vChecked, vApart⟩ := checkSpanSeparationMatrix_spec m.numInstanceVariables m.numWitnessVariables
    fun col => extractor.bCols.getD col []
  obtain ⟨u, uChecked, uApart⟩ := checkSpanSeparationMatrix_spec m.numInstanceVariables m.numWitnessVariables
    fun col => extractor.aCols.getD col []
  obtain ⟨w, wChecked, wApart⟩ := checkSpanSeparationMatrix_spec m.numInstanceVariables m.numWitnessVariables
    fun col => extractor.cCols.getD col []
  have aLength : extractor.aCols.length = m.numInstanceVariables + m.numWitnessVariables :=
    collectColumns_length m.numVars domain.size m.a
  have bLength : extractor.bCols.length = m.numInstanceVariables + m.numWitnessVariables :=
    collectColumns_length m.numVars domain.size m.b
  have cLength : extractor.cCols.length = m.numInstanceVariables + m.numWitnessVariables :=
    collectColumns_length m.numVars domain.size m.c
  obtain ⟨passed, verified, structural⟩ := verifyPublicOnly_spec aLength bLength cLength
  have ran : runAudit backend rand z = some {
      publicInputsAZero := (List.range' 1 (m.numInstanceVariables - 1)).all fun i =>
        (extractor.aCols.getD i []).isEmpty
      publicInputsBZero := (List.range' 1 (m.numInstanceVariables - 1)).all fun i =>
        (extractor.bCols.getD i []).isEmpty
      publicInputsCNonzero := (List.range' 1 (m.numInstanceVariables - 1)).all fun i =>
        !(extractor.cCols.getD i []).isEmpty
      structurallySeparated := passed
      noPubAbOverlap := checkPublicAbOverlap extractor m.numInstanceVariables
      isLinear := checkLinearity (tabulate m.numInstanceVariables (columnPolys backend extractor))
        m.numInstanceVariables
      isUnmixed := checkMixing extractor m.numInstanceVariables m.numVars
      vSpanSeparated := v
      uSpanSeparated := u
      wSpanSeparated := w
      allSafe := allSafe } := by
    simp only [runAudit, extracted, verified, mapM_getColumnPolys extracted, vChecked, uChecked, wChecked, built,
      checked, z.instanceLength, Option.bind_eq_bind, Option.bind_some, ne_eq, not_true_eq_false, if_false]
    rfl
  refine ⟨_, ran, ?_, ?_⟩
  · dsimp only
    rw [structural, publicColumns_isEmpty aFits, publicColumns_isEmpty bFits, publicColumns_nonempty cFits,
      columnRows_disjoint cFits]
    constructor
    · intro checks
      exact ⟨checks.1, checks.2.1, checks.2.2.1, checks.2.2.2.2.2.2⟩
    · intro only
      exact ⟨only.aFree, only.bFree, only.cBound, only.aFree, only.bFree, only.cBound, only.cSeparated⟩
  · have uValue (r : F) : weightedValue (tabulate m.numInstanceVariables (columnPolys backend extractor))
        z.instanceAssignment (fun p => p.1) r = instanceValue domain z m.a r :=
      weightedValue_instance backend z fun col inside =>
        evaluate_collectColumns backend (inside.trans_le (Nat.le_add_right _ _)) aFits r
    have wValue (r : F) : weightedValue (tabulate m.numInstanceVariables (columnPolys backend extractor))
        z.instanceAssignment (fun p => p.2.2) r = instanceValue domain z m.c r :=
      weightedValue_instance backend z fun col inside =>
        evaluate_collectColumns backend (inside.trans_le (Nat.le_add_right _ _)) cFits r
    have aCollected : extractor.aCols = collectColumns m.numVars domain.size m.a := rfl
    have bCollected : extractor.bCols = collectColumns m.numVars domain.size m.b := rfl
    rw [AuditReport.verdict_eq_secure]
    dsimp only
    rw [checkLinearity_iff extracted, checkMixing_collectColumns aCollected bCollected aFits bFits, uApart,
      vApart, wApart, safe, columnSpan_apart_iff aFits, columnSpan_apart_iff bFits, columnSpan_apart_iff cFits]
    simp only [uValue, wValue]
    have linear := or_congr (netValue_publicColumns (m := m) aFits) (netValue_publicColumns (m := m) bFits)
    constructor
    · intro passes
      exact ⟨linear.mp passes.1, passes.2.1, passes.2.2.2.1, passes.2.2.2.2⟩
    · intro passes
      have free := linear.mpr passes.linear
      exact ⟨free, passes.unmixed, checkPublicAbOverlap_of_linear free, passes.apart, passes.points⟩

/-- Without a domain the audit stops before its last line. -/
theorem runAudit_eq_none {backend : PolynomialBackend F} (located : quotientDomain backend m = none)
    (rand : ℕ → F) (z : Assignment m) : runAudit backend rand z = none := by
  rw [runAudit, MatrixExtractor.new, located]
  rfl

/-- A secure last line implies the structural requirements exactly on the matrices whose public columns
occur in `C` only or that fail what the verdict asks of them. -/
theorem runAudit_secure_structural_iff (backend : PolynomialBackend F) (rand : ℕ → F) (z : Assignment m) :
    (∀ report, runAudit backend rand z = some report → report.verdict = .secure →
      report.publicInputsAZero = true ∧ report.publicInputsBZero = true ∧
        report.publicInputsCNonzero = true ∧ report.structurallySeparated = true) ↔
      ∀ domain, quotientDomain backend m = some domain →
        PublicOnlyInC m ∨ ¬ PassesVerdict domain rand z := by
  cases located : quotientDomain backend m with
  | none => simp [runAudit_eq_none located]
  | some domain =>
      obtain ⟨report, ran, structural, verdict⟩ := runAudit_spec located rand z
      rw [ran]
      constructor
      · intro follows other same
        rw [← Option.some.inj same, ← structural, ← verdict]
        by_cases secure : report.verdict = .secure
        · exact .inl (follows report rfl secure)
        · exact .inr secure
      · intro sound other same secure
        rw [← Option.some.inj same] at secure ⊢
        rcases sound domain rfl with only | fails
        · exact structural.mpr only
        · exact absurd (verdict.mp secure) fails

end Checks

section Sample

/-- `MockLinear`: the constant one, the public hash, its two parts and its witness copy. -/
def mockLinear : ConstraintMatrices (ZMod 13) where
  numInstanceVariables := 2
  numWitnessVariables := 3
  numConstraints := 2
  a := [[(1, 0)], [(1, 0)]]
  b := [[(1, 2), (1, 3)], [(1, 1)]]
  c := [[(1, 4)], [(1, 4)]]
  instancePositive := Nat.two_pos
  aLength := repeatedConstant.aLength
  bLength := rfl
  cLength := rfl
  aColumns := by decide
  bColumns := by decide
  cColumns := by decide

def mockLinearValues : Assignment mockLinear where
  instanceAssignment := [1, 5]
  witnessAssignment := [2, 3, 5]
  instanceLength := rfl
  witnessLength := rfl
  constantOne := rfl

/-- The audit calls a circuit secure whose public input occurs in `B` and not in `C`. -/
theorem runAudit_secure_structural_mockLinear :
    ¬ ∀ report, runAudit smallBackend (fun seed => (seed : ZMod 13) + 7) mockLinearValues = some report →
      report.verdict = .secure →
        report.publicInputsAZero = true ∧ report.publicInputsBZero = true ∧
          report.publicInputsCNonzero = true ∧ report.structurallySeparated = true := by
  intro follows
  have run : (runAudit smallBackend (fun seed => (seed : ZMod 13) + 7) mockLinearValues).map
      (fun report => (report.verdict, report.publicInputsCNonzero)) = some (.secure, false) := by
    decide +kernel
  obtain ⟨report, ran, values⟩ := Option.map_eq_some_iff.mp run
  have bound := (follows report ran (congrArg Prod.fst values)).2.2.1
  have unbound : report.publicInputsCNonzero = false := congrArg Prod.snd values
  rw [unbound] at bound
  cases bound

end Sample

end Pvugc.Audit
