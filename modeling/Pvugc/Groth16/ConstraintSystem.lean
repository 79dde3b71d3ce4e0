import Pvugc.Algebra.Tabulate

namespace Pvugc.Groth16
open Pvugc.Algebra Finset

/-- A linear combination lists coefficients with the columns they multiply. -/
abbrev Row (F : Type*) := List (F × ℕ)

/-- The matrices of a finalized constraint system. -/
structure ConstraintMatrices (F : Type*) where
  numInstanceVariables : ℕ
  numWitnessVariables : ℕ
  numConstraints : ℕ
  a : List (Row F)
  b : List (Row F)
  c : List (Row F)
  instancePositive : 0 < numInstanceVariables
  aLength : a.length = numConstraints
  bLength : b.length = numConstraints
  cLength : c.length = numConstraints
  aColumns : ∀ row ∈ a, ∀ term ∈ row, term.2 < numInstanceVariables + numWitnessVariables
  bColumns : ∀ row ∈ b, ∀ term ∈ row, term.2 < numInstanceVariables + numWitnessVariables
  cColumns : ∀ row ∈ c, ∀ term ∈ row, term.2 < numInstanceVariables + numWitnessVariables

namespace ConstraintMatrices

variable {F : Type*}

def numVars (m : ConstraintMatrices F) : ℕ := m.numInstanceVariables + m.numWitnessVariables

/-- The generator, the provers and the audits ask for a domain of this size. -/
def qapDomainSize (m : ConstraintMatrices F) : ℕ := m.numConstraints + m.numInstanceVariables

end ConstraintMatrices

/-- The values of all variables; the first instance variable is the constant one. -/
structure Assignment {F : Type*} [One F] (m : ConstraintMatrices F) where
  instanceAssignment : List F
  witnessAssignment : List F
  instanceLength : instanceAssignment.length = m.numInstanceVariables
  witnessLength : witnessAssignment.length = m.numWitnessVariables
  constantOne : instanceAssignment[0]? = some 1

section Evaluation

variable {F : Type*} [Field F]

/-- The net coefficient of a column in a row. -/
def rowCoeff (row : Row F) (k : ℕ) : F := (row.map fun term => if term.2 = k then term.1 else 0).sum

/-- The net coefficient of a column in a row of a matrix. -/
def entry (rows : List (Row F)) (i k : ℕ) : F := rowCoeff (rows.getD i []) k

@[simp] theorem rowCoeff_nil (k : ℕ) : rowCoeff ([] : Row F) k = 0 := rfl

@[simp] theorem rowCoeff_cons (term : F × ℕ) (row : Row F) (k : ℕ) :
    rowCoeff (term :: row) k = (if term.2 = k then term.1 else 0) + rowCoeff row k := by
  simp [rowCoeff]

theorem rowCoeff_eq_zero {row : Row F} {k : ℕ} (absent : ∀ term ∈ row, term.2 ≠ k) :
    rowCoeff row k = 0 := by
  induction row with
  | nil => rfl
  | cons term rest ih =>
      rw [rowCoeff_cons, if_neg (absent term (by simp)),
        ih (fun other member => absent other (by simp [member])), add_zero]

theorem entry_eq_zero_of_length_le {rows : List (Row F)} {i : ℕ} (beyond : rows.length ≤ i) (k : ℕ) :
    entry rows i k = 0 := by
  rw [entry, List.getD_eq_default _ _ beyond, rowCoeff_nil]

variable [DecidableEq F]

/-- `evaluate_constraint` skips the multiplication by a unit coefficient. -/
def evaluateConstraint (terms : Row F) (assignment : List F) : F :=
  (terms.map fun term =>
    let val := assignment.getD term.2 0
    if term.1 = 1 then val else val * term.1).sum

/-- A row evaluates to the sum of its net coefficients against the assignment. -/
theorem evaluateConstraint_eq {n : ℕ} {terms : Row F} (assignment : List F)
    (columns : ∀ term ∈ terms, term.2 < n) :
    evaluateConstraint terms assignment =
      ∑ k ∈ range n, rowCoeff terms k * assignment.getD k 0 := by
  induction terms with
  | nil => simp [evaluateConstraint]
  | cons term rest ih =>
      have tail := ih (fun other member => columns other (by simp [member]))
      have inside := columns term (by simp)
      have head : (if term.1 = 1 then assignment.getD term.2 0 else assignment.getD term.2 0 * term.1) =
          ∑ k ∈ range n, (if term.2 = k then term.1 else 0) * assignment.getD k 0 := by
        rw [sum_eq_single_of_mem term.2 (mem_range.mpr inside)
          (fun k _ different => by rw [if_neg different.symm, zero_mul]), if_pos rfl]
        split
        case isTrue unit => rw [unit, one_mul]
        case isFalse => rw [mul_comm]
      simp only [evaluateConstraint, List.map_cons, List.sum_cons, rowCoeff_cons, add_mul,
        sum_add_distrib] at tail ⊢
      rw [head, tail]

end Evaluation

namespace Assignment

variable {F : Type*} [Field F] {m : ConstraintMatrices F} (z : Assignment m)

/-- `[1, public_inputs..., witness...]`. -/
def fullAssignment : List F := z.instanceAssignment ++ z.witnessAssignment

def value (k : ℕ) : F := z.fullAssignment.getD k 0

/-- The instance assignment without the constant one. -/
def publicInputs : List F := z.instanceAssignment.drop 1

@[simp] theorem fullAssignment_length : z.fullAssignment.length = m.numVars := by
  simp [fullAssignment, z.instanceLength, z.witnessLength, ConstraintMatrices.numVars]

theorem fullAssignment_eq : z.fullAssignment = tabulate m.numVars z.value := by
  have self := tabulate_of_list z.fullAssignment (0 : F)
  rw [fullAssignment_length] at self
  exact self.symm

theorem value_instance {i : ℕ} (inside : i < m.numInstanceVariables) :
    z.instanceAssignment.getD i 0 = z.value i := by
  rw [value, fullAssignment, List.getD_eq_getElem?_getD, List.getD_eq_getElem?_getD,
    List.getElem?_append_left (by rw [z.instanceLength]; exact inside)]

theorem value_witness (i : ℕ) :
    z.witnessAssignment.getD i 0 = z.value (m.numInstanceVariables + i) := by
  rw [value, fullAssignment, List.getD_eq_getElem?_getD, List.getD_eq_getElem?_getD,
    List.getElem?_append_right (by rw [z.instanceLength]; omega), z.instanceLength,
    Nat.add_sub_cancel_left]

theorem instanceAssignment_eq : z.instanceAssignment = tabulate m.numInstanceVariables z.value := by
  have self := tabulate_of_list z.instanceAssignment (0 : F)
  rw [z.instanceLength] at self
  exact self.symm.trans (tabulate_congr fun i inside => z.value_instance inside)

theorem witnessAssignment_eq : z.witnessAssignment =
    tabulate m.numWitnessVariables (fun i => z.value (m.numInstanceVariables + i)) := by
  have self := tabulate_of_list z.witnessAssignment (0 : F)
  rw [z.witnessLength] at self
  exact self.symm.trans (tabulate_congr fun i _ => z.value_witness i)

theorem publicInputs_eq : z.publicInputs =
    tabulate (m.numInstanceVariables - 1) (fun i => z.value (i + 1)) := by
  have positive := m.instancePositive
  rw [publicInputs, instanceAssignment_eq]
  have window := tabulate_window 1 (m.numInstanceVariables - 1) z.value
    (show 1 + (m.numInstanceVariables - 1) ≤ m.numInstanceVariables by omega)
  rw [List.take_of_length_le (by simp)] at window
  rw [window]
  apply tabulate_congr
  intro i _
  rw [Nat.add_comm]

@[simp] theorem value_zero : z.value 0 = 1 := by
  have present : 0 < z.instanceAssignment.length := by
    rw [z.instanceLength]
    exact m.instancePositive
  rw [value, fullAssignment, List.getD_eq_getElem?_getD, List.getElem?_append_left present,
    z.constantOne, Option.getD_some]

variable [DecidableEq F]

/-- Every constraint row holds. -/
def Satisfies : Prop :=
  ∀ i < m.numConstraints, evaluateConstraint (m.a.getD i []) z.fullAssignment *
    evaluateConstraint (m.b.getD i []) z.fullAssignment =
      evaluateConstraint (m.c.getD i []) z.fullAssignment

instance : Decidable z.Satisfies := inferInstanceAs (Decidable (∀ i < m.numConstraints, _))

/-- The value of a matrix row under the assignment. -/
def rowValue (rows : List (Row F)) (i : ℕ) : F := ∑ k ∈ range m.numVars, entry rows i k * z.value k

theorem evaluateConstraint_row {rows : List (Row F)}
    (columns : ∀ row ∈ rows, ∀ term ∈ row, term.2 < m.numInstanceVariables + m.numWitnessVariables)
    (i : ℕ) : evaluateConstraint (rows.getD i []) z.fullAssignment = z.rowValue rows i := by
  apply evaluateConstraint_eq
  intro term member
  rw [List.getD_eq_getElem?_getD] at member
  cases located : rows[i]? with
  | none => simp [located] at member
  | some row =>
      rw [located, Option.getD_some] at member
      exact columns row (List.mem_of_getElem? located) term member

/-- A satisfying assignment satisfies every row of the padded system. -/
theorem Satisfies.rows {z : Assignment m} (satisfied : z.Satisfies) (i : ℕ) :
    z.rowValue m.a i * z.rowValue m.b i = z.rowValue m.c i := by
  by_cases inside : i < m.numConstraints
  · have row := satisfied i inside
    rwa [z.evaluateConstraint_row m.aColumns, z.evaluateConstraint_row m.bColumns,
      z.evaluateConstraint_row m.cColumns] at row
  · have beyond : m.numConstraints ≤ i := Nat.le_of_not_lt inside
    have zero (rows : List (Row F)) (length : rows.length = m.numConstraints) :
        z.rowValue rows i = 0 := by
      apply sum_eq_zero
      intro k _
      rw [entry_eq_zero_of_length_le (by omega), zero_mul]
    rw [zero m.a m.aLength, zero m.c m.cLength, zero_mul]

end Assignment

end Pvugc.Groth16
