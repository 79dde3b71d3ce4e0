import Mathlib.Algebra.BigOperators.Group.List.Basic
import Mathlib.Algebra.Ring.Basic
import Pvugc.Algebra.Numerals

namespace Pvugc.Circuit

/-- This is `Variable` of the constraint system, without symbolic linear combinations. -/
inductive Variable
  | one
  | inputAt (index : ℕ)
  | witnessAt (index : ℕ)
  deriving DecidableEq

abbrev LinearCombination (F : Type) := List (F × Variable)

/-- A constraint `⟨a, z⟩ * ⟨b, z⟩ = ⟨c, z⟩`. -/
structure Constraint (F : Type) where
  a : LinearCombination F
  b : LinearCombination F
  c : LinearCombination F

/-- The state of `ConstraintSystem` while a circuit is synthesized. -/
structure ConstraintSystem (F : Type) where
  instanceAssignment : List F
  witnessAssignment : List F
  constraints : List (Constraint F)

abbrev Synthesis (F : Type) := StateM (ConstraintSystem F)

section Allocation

variable {F : Type}

/-- The system of `new_ref`: the constant one is the first instance value. -/
def ConstraintSystem.newRef [One F] : ConstraintSystem F := ⟨[1], [], []⟩

/-- This is `new_input_variable`. -/
def newInputVariable (value : F) : Synthesis F Variable :=
  modifyGet fun cs => (.inputAt cs.instanceAssignment.length,
    { cs with instanceAssignment := cs.instanceAssignment ++ [value] })

/-- This is `new_witness_variable`. -/
def newWitnessVariable (value : F) : Synthesis F Variable :=
  modifyGet fun cs => (.witnessAt cs.witnessAssignment.length,
    { cs with witnessAssignment := cs.witnessAssignment ++ [value] })

/-- This is `enforce_constraint`. -/
def enforceConstraint (a b c : LinearCombination F) : Synthesis F Unit :=
  modify fun cs => { cs with constraints := cs.constraints ++ [⟨a, b, c⟩] }

end Allocation

section Evaluation

variable {F : Type} [CommRing F]

/-- The value of a linear combination. -/
def LinearCombination.evaluate (z : Variable → F) (lc : LinearCombination F) : F :=
  (lc.map fun term => term.1 * z term.2).sum

@[simp] theorem LinearCombination.evaluate_nil (z : Variable → F) :
    LinearCombination.evaluate z [] = 0 := rfl

@[simp] theorem LinearCombination.evaluate_append (z : Variable → F) (left right : LinearCombination F) :
    LinearCombination.evaluate z (left ++ right) =
      LinearCombination.evaluate z left + LinearCombination.evaluate z right := by
  simp [LinearCombination.evaluate]

@[simp] theorem LinearCombination.evaluate_singleton (z : Variable → F) (coeff : F) (var : Variable) :
    LinearCombination.evaluate z [(coeff, var)] = coeff * z var := by
  simp [LinearCombination.evaluate]

/-- A constraint holds under an assignment of the variables. -/
def Constraint.Holds (z : Variable → F) (row : Constraint F) : Prop :=
  row.a.evaluate z * row.b.evaluate z = row.c.evaluate z

/-- The assignment that the synthesis has built. -/
def ConstraintSystem.assignment (cs : ConstraintSystem F) : Variable → F
  | .one => 1
  | .inputAt index => cs.instanceAssignment.getD index 0
  | .witnessAt index => cs.witnessAssignment.getD index 0

end Evaluation

end Pvugc.Circuit
