import Pvugc.Circuit.Gadget
import Pvugc.Groth16.ConstraintSystem

namespace Pvugc.Circuit
open Pvugc.Algebra Pvugc.Groth16

section Columns

variable {F : Type}

/-- The variables of a system with these numbers of inputs and witnesses. -/
def Variable.Inside (instances witnesses : ℕ) : Variable → Prop
  | .one => True
  | .inputAt index => 0 < index ∧ index < instances
  | .witnessAt index => index < witnesses

instance Variable.decidableInside (instances witnesses : ℕ) (var : Variable) :
    Decidable (var.Inside instances witnesses) :=
  match var with
  | .one => .isTrue trivial
  | .inputAt index => inferInstanceAs (Decidable (0 < index ∧ index < instances))
  | .witnessAt index => inferInstanceAs (Decidable (index < witnesses))

/-- This is `get_index_unchecked`. -/
def Variable.column (instances : ℕ) : Variable → ℕ
  | .one => 0
  | .inputAt index => index
  | .witnessAt index => instances + index

theorem Variable.column_lt {instances witnesses : ℕ} (positive : 0 < instances) {var : Variable}
    (inside : var.Inside instances witnesses) : var.column instances < instances + witnesses := by
  cases var with
  | one => exact Nat.lt_of_lt_of_le positive (Nat.le_add_right _ _)
  | inputAt index => exact Nat.lt_of_lt_of_le inside.2 (Nat.le_add_right _ _)
  | witnessAt index => exact Nat.add_lt_add_left inside instances

def LinearCombination.Inside (instances witnesses : ℕ) (lc : LinearCombination F) : Prop :=
  ∀ term ∈ lc, term.2.Inside instances witnesses

instance LinearCombination.decidableInside (instances witnesses : ℕ) (lc : LinearCombination F) :
    Decidable (lc.Inside instances witnesses) :=
  inferInstanceAs (Decidable (∀ term ∈ lc, term.2.Inside instances witnesses))

structure Constraint.Inside (instances witnesses : ℕ) (row : Constraint F) : Prop where
  a : row.a.Inside instances witnesses
  b : row.b.Inside instances witnesses
  c : row.c.Inside instances witnesses

instance Constraint.decidableInside (instances witnesses : ℕ) (row : Constraint F) :
    Decidable (row.Inside instances witnesses) :=
  decidable_of_iff (row.a.Inside instances witnesses ∧ row.b.Inside instances witnesses ∧
    row.c.Inside instances witnesses) ⟨fun parts => ⟨parts.1, parts.2.1, parts.2.2⟩, fun row => ⟨row.a, row.b, row.c⟩⟩

theorem Variable.Witnessed.inside {bound : ℕ} (instances : ℕ) {var : Variable} (witnessed : var.Witnessed bound) :
    var.Inside instances bound := by
  cases var with
  | one => trivial
  | inputAt index => exact witnessed.elim
  | witnessAt index => exact witnessed

theorem Constraint.Witnessed.inside {bound : ℕ} (instances : ℕ) {row : Constraint F} (witnessed : row.Witnessed bound) :
    row.Inside instances bound where
  a term member := (witnessed.a term member).inside instances
  b term member := (witnessed.b term member).inside instances
  c term member := (witnessed.c term member).inside instances

variable [Zero F] [DecidableEq F]

/-- This is `make_row`, which drops the terms with a zero coefficient. -/
def makeRow (instances : ℕ) (lc : LinearCombination F) : Row F :=
  (lc.filter fun term => term.1 ≠ 0).map fun term => (term.1, term.2.column instances)

theorem makeRow_columns {instances witnesses : ℕ} (positive : 0 < instances) {lc : LinearCombination F}
    (inside : lc.Inside instances witnesses) : ∀ term ∈ makeRow instances lc, term.2 < instances + witnesses := by
  intro _ member
  obtain ⟨term, kept, rfl⟩ := List.mem_map.mp member
  exact Variable.column_lt positive (inside term (List.mem_of_mem_filter kept))

end Columns

section Matrices

variable {F : Type}

/-- A synthesized system starts with the constant one, and its rows mention its own variables. -/
structure ConstraintSystem.Closed [One F] (cs : ConstraintSystem F) : Prop where
  constantOne : cs.instanceAssignment[0]? = some 1
  inside : ∀ row ∈ cs.constraints, row.Inside cs.instanceAssignment.length cs.witnessAssignment.length

instance ConstraintSystem.decidableClosed [One F] [DecidableEq F] (cs : ConstraintSystem F) : Decidable cs.Closed :=
  decidable_of_iff (cs.instanceAssignment[0]? = some 1 ∧
    ∀ row ∈ cs.constraints, row.Inside cs.instanceAssignment.length cs.witnessAssignment.length)
    ⟨fun parts => ⟨parts.1, parts.2⟩, fun closed => ⟨closed.constantOne, closed.inside⟩⟩

theorem ConstraintSystem.Closed.positive [One F] {cs : ConstraintSystem F} (closed : cs.Closed) :
    0 < cs.instanceAssignment.length := (List.getElem?_eq_some_iff.mp closed.constantOne).1

/-- This is `to_matrices`. -/
def ConstraintSystem.toMatrices [Zero F] [One F] [DecidableEq F] (cs : ConstraintSystem F) (closed : cs.Closed) :
    ConstraintMatrices F where
  numInstanceVariables := cs.instanceAssignment.length
  numWitnessVariables := cs.witnessAssignment.length
  numConstraints := cs.constraints.length
  a := cs.constraints.map fun row => makeRow cs.instanceAssignment.length row.a
  b := cs.constraints.map fun row => makeRow cs.instanceAssignment.length row.b
  c := cs.constraints.map fun row => makeRow cs.instanceAssignment.length row.c
  instancePositive := closed.positive
  aLength := List.length_map _
  bLength := List.length_map _
  cLength := List.length_map _
  aColumns := List.forall_mem_map.mpr fun row member => makeRow_columns closed.positive (closed.inside row member).a
  bColumns := List.forall_mem_map.mpr fun row member => makeRow_columns closed.positive (closed.inside row member).b
  cColumns := List.forall_mem_map.mpr fun row member => makeRow_columns closed.positive (closed.inside row member).c

/-- The assignment that the synthesis has built. -/
def ConstraintSystem.toAssignment [Zero F] [One F] [DecidableEq F] (cs : ConstraintSystem F) (closed : cs.Closed) :
    Assignment (cs.toMatrices closed) where
  instanceAssignment := cs.instanceAssignment
  witnessAssignment := cs.witnessAssignment
  instanceLength := rfl
  witnessLength := rfl
  constantOne := closed.constantOne

variable [Field F] [DecidableEq F] {cs : ConstraintSystem F} (closed : cs.Closed)

/-- The values of the variables under an assignment of the columns. -/
def columnValues (z : Assignment (cs.toMatrices closed)) (var : Variable) : F :=
  z.value (var.column cs.instanceAssignment.length)

theorem evaluateConstraint_makeRow (z : Assignment (cs.toMatrices closed)) (lc : LinearCombination F) :
    evaluateConstraint (makeRow cs.instanceAssignment.length lc) z.fullAssignment =
      lc.evaluate (columnValues closed z) := by
  induction lc with
  | nil => rfl
  | cons term rest ih =>
      have tail : LinearCombination.evaluate (columnValues closed z) (term :: rest) =
          term.1 * columnValues closed z term.2 + LinearCombination.evaluate (columnValues closed z) rest := by
        simp [LinearCombination.evaluate]
      by_cases zero : term.1 = 0
      · have dropped : makeRow cs.instanceAssignment.length (term :: rest) =
            makeRow cs.instanceAssignment.length rest := by
          simp [makeRow, zero]
        rw [dropped, ih, tail, zero, zero_mul, zero_add]
      · have kept : makeRow cs.instanceAssignment.length (term :: rest) =
            (term.1, term.2.column cs.instanceAssignment.length) :: makeRow cs.instanceAssignment.length rest := by
          simp [makeRow, zero]
        have head : (if term.1 = 1 then z.fullAssignment.getD (term.2.column cs.instanceAssignment.length) 0
            else z.fullAssignment.getD (term.2.column cs.instanceAssignment.length) 0 * term.1) =
              term.1 * columnValues closed z term.2 := by
          rw [columnValues, Assignment.value]
          split
          case isTrue unit => rw [unit, one_mul]
          case isFalse => rw [mul_comm]
        rw [kept, tail, ← ih, ← head]
        rfl

/-- The rows of the matrices hold exactly when the rows of the system do. -/
theorem satisfies_iff (z : Assignment (cs.toMatrices closed)) :
    z.Satisfies ↔ ∀ row ∈ cs.constraints, row.Holds (columnValues closed z) := by
  have entries (i : ℕ) (inside : i < cs.constraints.length) (part : Constraint F → LinearCombination F) :
      (cs.constraints.map fun row => makeRow cs.instanceAssignment.length (part row)).getD i [] =
        makeRow cs.instanceAssignment.length (part cs.constraints[i]) := by
    simp [inside]
  rw [Assignment.Satisfies, List.forall_mem_iff_getElem]
  refine forall₂_congr fun i inside => ?_
  rw [Constraint.Holds, ← evaluateConstraint_makeRow, ← evaluateConstraint_makeRow, ← evaluateConstraint_makeRow,
    ← entries i inside, ← entries i inside, ← entries i inside]
  rfl

theorem columnValues_one (z : Assignment (cs.toMatrices closed)) : columnValues closed z .one = 1 := z.value_zero

theorem columnValues_toAssignment {var : Variable}
    (inside : var.Inside cs.instanceAssignment.length cs.witnessAssignment.length) :
    columnValues closed (cs.toAssignment closed) var = cs.assignment var := by
  cases var with
  | one => exact columnValues_one closed _
  | inputAt index => exact ((cs.toAssignment closed).value_instance inside.2).symm
  | witnessAt index => exact ((cs.toAssignment closed).value_witness index).symm

omit [DecidableEq F] in
theorem LinearCombination.Inside.evaluate_eq {instances witnesses : ℕ} {lc : LinearCombination F}
    (inside : lc.Inside instances witnesses) {z z' : Variable → F}
    (same : ∀ var : Variable, var.Inside instances witnesses → z var = z' var) : lc.evaluate z = lc.evaluate z' := by
  rw [evaluate, evaluate]
  congr 1
  apply List.map_congr_left
  intro term member
  rw [same term.2 (inside term member)]

omit [DecidableEq F] in
theorem Constraint.Inside.holds_iff {instances witnesses : ℕ} {row : Constraint F}
    (inside : row.Inside instances witnesses) {z z' : Variable → F}
    (same : ∀ var : Variable, var.Inside instances witnesses → z var = z' var) : row.Holds z ↔ row.Holds z' := by
  rw [Holds, Holds, inside.a.evaluate_eq same, inside.b.evaluate_eq same, inside.c.evaluate_eq same]

/-- The matrices hold for the synthesized assignment exactly when the rows do. -/
theorem toAssignment_satisfies_iff :
    (cs.toAssignment closed).Satisfies ↔ ∀ row ∈ cs.constraints, row.Holds cs.assignment := by
  rw [satisfies_iff]
  exact forall₂_congr fun row member =>
    (closed.inside row member).holds_iff fun _ inside => columnValues_toAssignment closed inside

end Matrices

theorem SameShape.toMatrices_eq {F : Type} [Zero F] [One F] [DecidableEq F] {cs cs' : ConstraintSystem F}
    (same : SameShape cs cs') (closed : cs.Closed) (closed' : cs'.Closed) :
    cs.toMatrices closed = cs'.toMatrices closed' := by
  simp only [ConstraintSystem.toMatrices, same.instances, same.witnesses, same.constraints]

end Pvugc.Circuit
