import Pvugc.Groth16.ConstraintSystem
import Pvugc.Groth16.Keys
import Pvugc.Groth16.PolynomialBackend

namespace Pvugc.Groth16
open Pvugc.Algebra Finset

variable {F : Type*} [Field F]

/-- Adds one scaled row into the column values. -/
def accumulateRow (columns : List F) (u : F) (row : Row F) : List F :=
  row.foldl (fun columns term => columns.modify term.2 (· + u * term.1)) columns

/-- The instance-map loop of one matrix, over the rows and their Lagrange values. -/
def accumulateRows (columns : List F) (u : List F) (rows : List (Row F)) : List F :=
  (u.zip rows).foldl (fun columns pair => accumulateRow columns pair.1 pair.2) columns

/-- The outputs of the instance map. -/
structure InstanceMap (F : Type*) where
  a : List F
  b : List F
  c : List F
  zt : F
  qapNumVariables : ℕ
  domainSize : ℕ

/-- `PvugcReduction::instance_map_with_evaluation`, without the implicit input copies. -/
def instanceMapWithEvaluation (backend : PolynomialBackend F) (m : ConstraintMatrices F) (t : F) :
    Except SynthesisError (InstanceMap F) :=
  match backend.newDomain m.qapDomainSize with
  | none => .error .polynomialDegreeTooLarge
  | some domain =>
    let u := (backend.evaluateAllLagrangeCoefficients domain t).take m.numConstraints
    let qapNumVariables := m.numInstanceVariables - 1 + m.numWitnessVariables
    let zero := List.replicate (qapNumVariables + 1) 0
    .ok {
      a := accumulateRows zero u m.a
      b := accumulateRows zero u m.b
      c := accumulateRows zero u m.c
      zt := domain.evaluateVanishingPolynomial t
      qapNumVariables := qapNumVariables
      domainSize := domain.size }

/-- `h_query_scalars`. -/
def hQueryScalars (maxPower : ℕ) (t zt deltaInverse : F) : List F :=
  tabulate maxPower fun i => zt * deltaInverse * t ^ i

/-- The values of a matrix on the domain: one per row and zeros for the padding. -/
def paddedValues [DecidableEq F] (size : ℕ) (rows : List (Row F)) (fullAssignment : List F) : List F :=
  rows.map (evaluateConstraint · fullAssignment) ++ List.replicate (size - rows.length) 0

/-- `PvugcReduction::witness_map_from_matrices`; the vanishing polynomial has no zero on the coset. -/
def witnessMapFromMatrices [DecidableEq F] (backend : PolynomialBackend F) (m : ConstraintMatrices F)
    (fullAssignment : List F) : Except SynthesisError (List F) :=
  match backend.newDomain m.qapDomainSize with
  | none => .error .polynomialDegreeTooLarge
  | some domain =>
    let onCoset rows := backend.cosetFft domain backend.generator
      (backend.ifft domain (paddedValues domain.size rows fullAssignment))
    let ab := List.zipWith (· * ·) (onCoset m.a) (onCoset m.b)
    let vanishingPolynomialOverCoset := (domain.evaluateVanishingPolynomial backend.generator)⁻¹
    .ok (backend.cosetIfft domain backend.generator
      (List.zipWith (fun ab c => (ab - c) * vanishingPolynomialOverCoset) ab (onCoset m.c)))

/-- A reduction to quadratic arithmetic programs; the exponents of its quotient query are those of `hQueryScalars`. -/
structure R1CSToQAP (F : Type*) [Field F] where
  instanceMapWithEvaluation : PolynomialBackend F → ConstraintMatrices F → F → Except SynthesisError (InstanceMap F)
  witnessMapFromMatrices : PolynomialBackend F → ConstraintMatrices F → List F → Except SynthesisError (List F)

def pvugcReduction [DecidableEq F] : R1CSToQAP F := ⟨instanceMapWithEvaluation, witnessMapFromMatrices⟩

/-- The value at `t` of the polynomial that interpolates a column of a matrix. -/
def columnValue (domain : EvaluationDomain F) (rows : List (Row F)) (t : F) (k : ℕ) : F :=
  ∑ i ∈ range domain.size, entry rows i k * lagrange domain.groupGen domain.size i t

/-- The columns of a system on a domain. -/
def ConstraintMatrices.instanceMap (m : ConstraintMatrices F) (domain : EvaluationDomain F) (t : F) : InstanceMap F where
  a := tabulate m.numVars (columnValue domain m.a t)
  b := tabulate m.numVars (columnValue domain m.b t)
  c := tabulate m.numVars (columnValue domain m.c t)
  zt := t ^ domain.size - 1
  qapNumVariables := m.numInstanceVariables - 1 + m.numWitnessVariables
  domainSize := domain.size

section InstanceMap

theorem tabulate_modify (n : ℕ) (f : ℕ → F) (k : ℕ) (x : F) :
    (tabulate n f).modify k (· + x) = tabulate n (fun j => f j + if k = j then x else 0) := by
  apply List.ext_getElem?
  intro j
  rw [List.getElem?_modify, tabulate_getElem?, tabulate_getElem?]
  by_cases inside : j < n
  · rw [if_pos inside, if_pos inside]
    by_cases same : k = j
    · simp [same]
    · simp [same]
  · rw [if_neg inside, if_neg inside]
    rfl

theorem accumulateRow_tabulate (n : ℕ) (f : ℕ → F) (u : F) (row : Row F) :
    accumulateRow (tabulate n f) u row = tabulate n (fun k => f k + rowCoeff row k * u) := by
  induction row generalizing f with
  | nil => simp [accumulateRow]
  | cons term rest ih =>
      rw [accumulateRow, List.foldl_cons, tabulate_modify, ← accumulateRow, ih]
      apply tabulate_congr
      intro k _
      rw [rowCoeff_cons, add_assoc, add_mul]
      split
      case isTrue => rw [mul_comm u]
      case isFalse => rw [zero_mul]

theorem accumulateRows_tabulate (n : ℕ) (f : ℕ → F) (u : ℕ → F) (rows : List (Row F)) :
    accumulateRows (tabulate n f) (tabulate rows.length u) rows =
      tabulate n (fun k => f k + ∑ i ∈ range rows.length, entry rows i k * u i) := by
  induction rows generalizing f u with
  | nil => simp [accumulateRows]
  | cons row rest ih =>
      rw [accumulateRows, List.length_cons, tabulate_succ, List.zip_cons_cons, List.foldl_cons,
        accumulateRow_tabulate, ← accumulateRows, ih]
      apply tabulate_congr
      intro k _
      rw [sum_range_succ']
      simp only [entry, List.getD_cons_succ, List.getD_cons_zero]
      ring

theorem columnValue_of_length_le (domain : EvaluationDomain F) {rows : List (Row F)}
    (fits : rows.length ≤ domain.size) (t : F) (k : ℕ) :
    columnValue domain rows t k =
      ∑ i ∈ range rows.length, entry rows i k * lagrange domain.groupGen domain.size i t := by
  symm
  apply sum_subset (range_subset_range.mpr fits)
  intro i _ outside
  rw [entry_eq_zero_of_length_le (by simpa using outside), zero_mul]

/-- The accumulated columns are the column polynomials at the evaluation point. -/
theorem accumulateRows_eq (backend : PolynomialBackend F) (domain : EvaluationDomain F) (t : F)
    {rows : List (Row F)} (fits : rows.length ≤ domain.size) (n : ℕ) :
    accumulateRows (List.replicate n 0)
      ((backend.evaluateAllLagrangeCoefficients domain t).take rows.length) rows =
        tabulate n (columnValue domain rows t) := by
  have zero : List.replicate n (0 : F) = tabulate n (fun _ => 0) := by
    simp [tabulate]
  rw [zero, backend.lagrange_spec, tabulate_take _ fits, accumulateRows_tabulate]
  apply tabulate_congr
  intro k _
  rw [zero_add, columnValue_of_length_le domain fits]

theorem newDomain_numConstraints {backend : PolynomialBackend F} {m : ConstraintMatrices F}
    {domain : EvaluationDomain F} (created : backend.newDomain m.qapDomainSize = some domain) :
    m.numConstraints ≤ domain.size := by
  have fits := backend.newDomain_fits created
  rw [ConstraintMatrices.qapDomainSize] at fits
  omega

theorem instanceMapWithEvaluation_eq {backend : PolynomialBackend F} {m : ConstraintMatrices F}
    {domain : EvaluationDomain F} (created : backend.newDomain m.qapDomainSize = some domain) (t : F) :
    instanceMapWithEvaluation backend m t = .ok (m.instanceMap domain t) := by
  have fits := newDomain_numConstraints created
  have positive := m.instancePositive
  have total : m.numInstanceVariables - 1 + m.numWitnessVariables + 1 = m.numVars := by
    rw [ConstraintMatrices.numVars]
    omega
  have column (rows : List (Row F)) (length : rows.length = m.numConstraints) :=
    accumulateRows_eq backend domain t (show rows.length ≤ domain.size by omega) m.numVars
  simp only [instanceMapWithEvaluation, ConstraintMatrices.instanceMap, created, total]
  congr 2
  · rw [← m.aLength]
    exact column m.a m.aLength
  · rw [← m.bLength]
    exact column m.b m.bLength
  · rw [← m.cLength]
    exact column m.c m.cLength

end InstanceMap

end Pvugc.Groth16
