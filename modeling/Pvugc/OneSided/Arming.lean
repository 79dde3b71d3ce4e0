import Pvugc.OneSided.Ppe

namespace Pvugc.OneSided
open Pvugc.Groth16

/-- The statement-only bases that arming raises to `rho`. -/
@[ext]
structure ColumnBases (G2 : Type) where
  yCols : List G2
  delta : G2
  deriving DecidableEq

/-- The armed bases. -/
@[ext]
structure ColumnArms (G2 : Type) where
  yColsRho : List G2
  deltaRho : G2
  deriving DecidableEq

variable {F G2 : Type} [AddCommGroup G2] [SMul F G2] [DecidableEq G2] [Zero F] [DecidableEq F]

/-- `validate_subgroups` of the column bases. -/
def ColumnBases.validateSubgroups (modulus : ℕ) (bases : ColumnBases G2) : Except Fault Unit :=
  if bases.yCols.any fun y => !isGood modulus y then .error (.error .invalidSubgroup)
  else if bases.delta = 0 then .error (.error .zeroDelta)
  else if !isGood modulus bases.delta then .error (.error .invalidSubgroup)
  else .ok ()

/-- `arm_columns`. -/
def armColumns (bases : ColumnBases G2) (rho : F) : Except Fault (ColumnArms G2) :=
  if rho = 0 then .error (.error .zeroRho)
  else if bases.delta = 0 then .error (.error .zeroDelta)
  else .ok { yColsRho := bases.yCols.map (rho • ·), deltaRho := rho • bases.delta }

/-- Arming succeeds exactly for a nonzero `rho` and `delta`, and raises every base to `rho`. -/
theorem armColumns_eq_ok {bases : ColumnBases G2} {rho : F} {arms : ColumnArms G2} :
    armColumns bases rho = .ok arms ↔ rho ≠ 0 ∧ bases.delta ≠ 0 ∧
      arms = { yColsRho := bases.yCols.map (rho • ·), deltaRho := rho • bases.delta } := by
  unfold armColumns
  split
  case isTrue zero => simp [zero]
  case isFalse nonzero =>
    split
    case isTrue zero => simp [zero]
    case isFalse deltaNonzero => simp [nonzero, deltaNonzero, eq_comm]

end Pvugc.OneSided
