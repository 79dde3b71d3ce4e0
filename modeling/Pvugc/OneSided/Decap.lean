import Pvugc.Algebra.Tabulate
import Pvugc.OneSided.Arming

namespace Pvugc.OneSided
open Pvugc.Algebra Pvugc.Groth16

/-- The commitments of a one-sided bundle; every row has two limbs. -/
@[ext]
structure OneSidedCommitments (G1 : Type) where
  xBCols : List (G1 × G1)
  theta : List (G1 × G1)
  thetaDeltaCancel : G1 × G1
  deriving DecidableEq

section Code

variable {F G1 G2 GT : Type} [AddCommGroup G1] [AddCommGroup G2] [AddCommGroup GT]
variable [SMul F G1] [SMul F G2] [SMul F GT] [DecidableEq G1] [DecidableEq G2]

/-- `build_commitments`; `deriveRTheta` is the hash of the proof elements and of `s`. -/
def buildCommitments (deriveRTheta : G1 → G1 → F → F) (a c : G1) (s : F) (fullAssignment : List F)
    (numInstance : ℕ) : Option (OneSidedCommitments G1) :=
  if numInstance ≤ fullAssignment.length then
    let theta0 := s • a - c
    let randLimb := deriveRTheta a c s • a
    some {
      xBCols := (a, 0) :: (fullAssignment.drop numInstance).map fun b => (b • a, 0)
      theta := [(theta0, randLimb)]
      thetaDeltaCancel := (-randLimb, 0) }
  else none

/-- Both limbs of every row pass the subgroup check. -/
def OneSidedCommitments.good (modulus : ℕ) (commitments : OneSidedCommitments G1) : Bool :=
  commitments.xBCols.all (fun x => isGood modulus x.1 && isGood modulus x.2) &&
  commitments.theta.all (fun t => isGood modulus t.1 && isGood modulus t.2) &&
  (isGood modulus commitments.thetaDeltaCancel.1 && isGood modulus commitments.thetaDeltaCancel.2)

/-- The pairing schedule over the columns, the `delta` rows and the canceller. -/
def schedule (pair : G1 → G2 → GT) (commitments : OneSidedCommitments G1) (yCols : List G2)
    (delta : G2) : GT :=
  let columns := (commitments.xBCols.zip yCols).foldl
    (fun acc (x, y) => acc + pair x.1 y + pair x.2 y) 0
  let rows := commitments.theta.foldl (fun acc t => acc + pair t.1 delta + pair t.2 delta) columns
  rows + pair commitments.thetaDeltaCancel.1 delta + pair commitments.thetaDeltaCancel.2 delta

/-- A pairing that skips the identity. -/
def safePairing (e : Pairing F G1 G2 GT) (p : G1) (y : G2) : GT :=
  if p = 0 ∨ y = 0 then 0 else e.pairing p y

/-- `decap`; the subgroup checks run in debug builds only and panic. -/
def decap (debugAssertions : Bool) (e : Pairing F G1 G2 GT) (commitments : OneSidedCommitments G1)
    (colArms : ColumnArms G2) : Except Fault GT :=
  if commitments.xBCols.length ≠ colArms.yColsRho.length then .error (.error .mismatchedSizes)
  else if debugAssertions && !commitments.good e.modulus then .error .panic
  else .ok (schedule (safePairing e) commitments colArms.yColsRho colArms.deltaRho)

end Code

section Schedule

variable {F G1 G2 GT : Type} [AddCommGroup GT]

theorem smul_list_sum [DistribSMul F GT] (c : F) (l : List GT) : c • l.sum = (l.map (c • ·)).sum := by
  induction l with
  | nil => exact smul_zero c
  | cons a rest ih => rw [List.sum_cons, smul_add, ih, List.map_cons, List.sum_cons]

/-- The schedule adds one pairing for every limb. -/
theorem schedule_eq (pair : G1 → G2 → GT) (commitments : OneSidedCommitments G1) (yCols : List G2)
    (delta : G2) :
    schedule pair commitments yCols delta =
      ((commitments.xBCols.zip yCols).map fun column => pair column.1.1 column.2 + pair column.1.2 column.2).sum +
      (commitments.theta.map fun t => pair t.1 delta + pair t.2 delta).sum +
      (pair commitments.thetaDeltaCancel.1 delta + pair commitments.thetaDeltaCancel.2 delta) := by
  rw [schedule]
  simp only [add_assoc, foldl_add_eq, zero_add]

variable [AddCommGroup G1] [AddCommGroup G2] [SMul F G1] [SMul F G2] [DistribSMul F GT]

theorem safePairing_eq [DecidableEq G1] [DecidableEq G2] (e : Pairing F G1 G2 GT) :
    safePairing e = e.pairing := by
  funext p y
  unfold safePairing
  split
  case isTrue identity =>
    rcases identity with zero | zero
    · rw [zero, e.zero_left]
    · rw [zero, e.zero_right]
  case isFalse => rfl

/-- The schedule over armed bases is the armed schedule over the bases. -/
theorem schedule_armed (e : Pairing F G1 G2 GT) (commitments : OneSidedCommitments G1)
    (yCols : List G2) (delta : G2) (rho : F) :
    schedule e.pairing commitments (yCols.map (rho • ·)) (rho • delta) =
      rho • schedule e.pairing commitments yCols delta := by
  have columns : (commitments.xBCols.zip (yCols.map (rho • ·))).map
      (fun column => e.pairing column.1.1 column.2 + e.pairing column.1.2 column.2) =
      ((commitments.xBCols.zip yCols).map fun column =>
        e.pairing column.1.1 column.2 + e.pairing column.1.2 column.2).map (rho • ·) := by
    rw [List.zip_map_right, List.map_map, List.map_map]
    apply List.map_congr_left
    intro column _
    simp only [Function.comp_apply, Prod.map, id_eq, e.smul_right, smul_add]
  have rows : (commitments.theta.map fun t => e.pairing t.1 (rho • delta) + e.pairing t.2 (rho • delta)) =
      (commitments.theta.map fun t => e.pairing t.1 delta + e.pairing t.2 delta).map (rho • ·) := by
    rw [List.map_map]
    apply List.map_congr_left
    intro t _
    simp only [Function.comp_apply, e.smul_right, smul_add]
  rw [schedule_eq, schedule_eq, columns, rows, smul_add, smul_add, smul_list_sum, smul_list_sum]
  simp only [e.smul_right, smul_add]

end Schedule

end Pvugc.OneSided
