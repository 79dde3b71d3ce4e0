import Pvugc.Groth16.WitnessMap

namespace Pvugc.Algebra
open Finset Polynomial

variable {F K : Type*} [Field F] [Field K]

theorem map_idft (f : F →+* K) (ω : F) (n : ℕ) (g : ℕ → F) (i : ℕ) :
    f (idft ω n g i) = idft (f ω) n (fun k => f (g k)) i := by
  simp [idft, dft]

/-- A value of an interpolation, over an extension of the field. -/
theorem aeval_interpolant [Algebra F K] {ω : F} {n : ℕ} (g : ℕ → F) (x : K) :
    aeval x (interpolant ω n g) =
      ∑ k ∈ range n, algebraMap F K (g k) * lagrange (algebraMap F K ω) n k x := by
  rw [← eval_interpolant, interpolant, interpolant, map_sum, eval_finsetSum]
  apply sum_congr rfl
  intro i _
  rw [map_mul, map_pow, aeval_C, aeval_X, eval_mul, eval_pow, eval_X, eval_C, map_idft]

end Pvugc.Algebra

namespace Pvugc.Groth16
open Pvugc.Algebra Finset Polynomial

variable {F K : Type} [Field F] [Field K]

/-- A domain over an extension of its field. -/
def EvaluationDomain.map (f : F →+* K) (domain : EvaluationDomain F) : EvaluationDomain K where
  size := domain.size
  groupGen := f domain.groupGen
  positive := domain.positive
  fitsWord := domain.fitsWord
  primitive := domain.primitive.map_of_injective f.injective

@[simp] theorem EvaluationDomain.map_size (f : F →+* K) (domain : EvaluationDomain F) :
    (domain.map f).size = domain.size := rfl

/-- The rows of a matrix over an extension of the field. -/
def mapRows (f : F →+* K) (rows : List (Row F)) : List (Row K) :=
  rows.map fun row => row.map fun term => (f term.1, term.2)

theorem mapRows_getD (f : F →+* K) (rows : List (Row F)) (i : ℕ) :
    (mapRows f rows).getD i [] = (rows.getD i []).map fun term => (f term.1, term.2) := by
  rw [mapRows, List.getD_eq_getElem?_getD, List.getElem?_map, List.getD_eq_getElem?_getD]
  cases rows[i]? <;> rfl

theorem columns_mapRows (f : F →+* K) {rows : List (Row F)} {n : ℕ}
    (columns : ∀ row ∈ rows, ∀ term ∈ row, term.2 < n) :
    ∀ row ∈ mapRows f rows, ∀ term ∈ row, term.2 < n := by
  intro row member term termMember
  obtain ⟨source, sourceMember, rfl⟩ := List.mem_map.mp member
  obtain ⟨sourceTerm, sourceTermMember, rfl⟩ := List.mem_map.mp termMember
  exact columns source sourceMember sourceTerm sourceTermMember

/-- The matrices of a circuit over an extension of its field. -/
def ConstraintMatrices.map (f : F →+* K) (m : ConstraintMatrices F) : ConstraintMatrices K where
  numInstanceVariables := m.numInstanceVariables
  numWitnessVariables := m.numWitnessVariables
  numConstraints := m.numConstraints
  a := mapRows f m.a
  b := mapRows f m.b
  c := mapRows f m.c
  instancePositive := m.instancePositive
  aLength := (List.length_map _).trans m.aLength
  bLength := (List.length_map _).trans m.bLength
  cLength := (List.length_map _).trans m.cLength
  aColumns := columns_mapRows f m.aColumns
  bColumns := columns_mapRows f m.bColumns
  cColumns := columns_mapRows f m.cColumns

theorem rowCoeff_map (f : F →+* K) (row : Row F) (k : ℕ) :
    rowCoeff (row.map fun term => (f term.1, term.2)) k = f (rowCoeff row k) := by
  induction row with
  | nil => simp
  | cons term rest inductionHypothesis =>
      rw [List.map_cons, rowCoeff_cons, rowCoeff_cons, inductionHypothesis, map_add]
      split <;> simp

theorem entry_mapRows (f : F →+* K) (rows : List (Row F)) (i k : ℕ) :
    entry (mapRows f rows) i k = f (entry rows i k) := by
  rw [entry, mapRows_getD, rowCoeff_map, entry]

/-- The value of a column over an extension is the value of its polynomial there. -/
theorem columnValue_mapRows [Algebra F K] (domain : EvaluationDomain F) (rows : List (Row F)) (x : K)
    (k : ℕ) : columnValue (domain.map (algebraMap F K)) (mapRows (algebraMap F K) rows) x k =
      aeval x (columnPolynomial domain rows k) := by
  rw [columnPolynomial, aeval_interpolant, columnValue]
  simp only [entry_mapRows]
  rfl

namespace Assignment

variable (f : F →+* K) {m : ConstraintMatrices F} (z : Assignment m)

/-- An assignment over an extension of its field. -/
def map : Assignment (m.map f) where
  instanceAssignment := z.instanceAssignment.map f
  witnessAssignment := z.witnessAssignment.map f
  instanceLength := (List.length_map _).trans z.instanceLength
  witnessLength := (List.length_map _).trans z.witnessLength
  constantOne := by simp [z.constantOne]

theorem value_map (k : ℕ) : (z.map f).value k = f (z.value k) := by
  rw [value, value, fullAssignment, fullAssignment, map, ← List.map_append, List.getD_eq_getElem?_getD,
    List.getElem?_map, List.getD_eq_getElem?_getD]
  cases (z.instanceAssignment ++ z.witnessAssignment)[k]? <;> simp

theorem publicInputs_map : (z.map f).publicInputs = z.publicInputs.map f := by
  rw [publicInputs, publicInputs, map, List.map_drop]

theorem rowValue_map (rows : List (Row F)) (i : ℕ) :
    (z.map f).rowValue (mapRows f rows) i = f (z.rowValue rows i) := by
  simp only [rowValue, entry_mapRows, value_map, map_sum, map_mul]
  rfl

theorem Satisfies.map [DecidableEq F] [DecidableEq K] {z : Assignment m} (satisfied : z.Satisfies) :
    (z.map f).Satisfies := by
  intro i _
  rw [(z.map f).evaluateConstraint_row (m.map f).aColumns, (z.map f).evaluateConstraint_row (m.map f).bColumns,
    (z.map f).evaluateConstraint_row (m.map f).cColumns]
  have row := congrArg f (satisfied.rows i)
  rw [map_mul, ← rowValue_map, ← rowValue_map, ← rowValue_map] at row
  exact row

end Assignment

end Pvugc.Groth16
