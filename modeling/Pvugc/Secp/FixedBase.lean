import Pvugc.Secp.Recoding
import Mathlib.Algebra.Module.NatInt
import Mathlib.GroupTheory.OrderOfElement
import Mathlib.Data.ZMod.Basic
import Mathlib.Tactic.Module

namespace Pvugc.Secp
open Finset

/-- This is `MAG_SIZE`. -/
abbrev magSize : ℕ := windowSize - 1

/-- This is `TABLE_LEN`. -/
abbrev tableLen : ℕ := 2 ^ magSize

section Group

variable {G : Type} [AddCommGroup G]

/-- One row of the table: the accumulated multiples of the window's base. -/
def windowRow (base : G) : List G :=
  ((List.range' 1 (tableLen - 1)).foldl (fun (accum, row) _ => (accum + base, row ++ [accum + base]))
    ((0 : G), [(0 : G)])).2

/-- The base of the next window. -/
def nextBase (base : G) : G := (List.range windowSize).foldl (fun base _ => base + base) base

/-- This is `FIXED_G_TABLE`. -/
def fixedGTable (generator : G) : List (List G) :=
  ((List.range numWindows).foldl (fun (base, table) _ => (nextBase base, table ++ [windowRow base]))
    (generator, [])).2

/-- One round of the loop of `scalar_bytes_to_point`. -/
def addDigit (table : List (List G)) (acc : G) (digit : ℤ × ℕ) : G :=
  let mag := digit.1.natAbs
  if mag = 0 then acc
  else
    let point := (table.getD digit.2 []).getD mag 0
    acc + if digit.1 < 0 then -point else point

/-- This is `scalar_bytes_to_point` on a group with the given generator. -/
def scalarBytesToPoint (generator : G) (bytes : Vector UInt8 32) : G :=
  (recodeSignedWindow6 bytes).1.zipIdx.foldl (addDigit (fixedGTable generator)) 0

variable (generator : G)

theorem windowRow_eq (base : G) :
    windowRow base = (List.range tableLen).map fun mag => mag • base := by
  have rows (count : ℕ) :
      (List.range' 1 count).foldl (fun (accum, row) _ => (accum + base, row ++ [accum + base]))
        ((0 : G), [(0 : G)]) =
          (count • base, (List.range (count + 1)).map fun mag => mag • base) := by
    induction count with
    | zero => simp
    | succ count inductionHypothesis =>
        rw [List.range'_concat, List.foldl_append, inductionHypothesis, List.foldl_cons,
          List.foldl_nil, List.range_succ (n := count + 1), List.map_append, List.map_singleton,
          succ_nsmul]
  rw [windowRow, rows]
  rfl

theorem nextBase_eq (base : G) : nextBase base = 64 • base := by
  have doubled (count : ℕ) :
      (List.range count).foldl (fun base _ => base + base) base = 2 ^ count • base := by
    induction count with
    | zero => simp
    | succ count inductionHypothesis =>
        rw [List.range_succ, List.foldl_append, inductionHypothesis, List.foldl_cons, List.foldl_nil,
          ← two_nsmul, smul_smul, pow_succ']
  rw [nextBase, doubled]
  rfl

/-- Row `w` of the table holds the multiples of `64 ^ w` times the generator. -/
theorem fixedGTable_eq :
    fixedGTable generator = (List.range numWindows).map fun w => windowRow (64 ^ w • generator) := by
  have rows (count : ℕ) :
      (List.range count).foldl (fun (base, table) _ => (nextBase base, table ++ [windowRow base]))
        (generator, []) =
          (64 ^ count • generator,
            (List.range count).map fun w => windowRow (64 ^ w • generator)) := by
    induction count with
    | zero => simp
    | succ count inductionHypothesis =>
        rw [List.range_succ, List.foldl_append, inductionHypothesis, List.foldl_cons, List.foldl_nil,
          List.map_append, List.map_singleton]
        dsimp only
        rw [nextBase_eq, smul_smul, pow_succ']
  rw [fixedGTable, rows]

theorem fixedGTable_getD {w mag : ℕ} (window : w < numWindows) (magnitude : mag < tableLen) :
    ((fixedGTable generator).getD w []).getD mag 0 = mag • 64 ^ w • generator := by
  simp only [fixedGTable_eq, windowRow_eq, List.getD_eq_getElem?_getD, List.getElem?_map,
    List.getElem?_range window, List.getElem?_range magnitude, Option.map_some, Option.getD_some]

/-- Adding a digit adds its multiple of the window's base. -/
theorem addDigit_eq (acc : G) {digit : ℤ} {w : ℕ} (window : w < numWindows)
    (small : digit.natAbs < tableLen) :
    addDigit (fixedGTable generator) acc (digit, w) = acc + (digit * 64 ^ w) • generator := by
  have entry := fixedGTable_getD generator window small
  have scaled : (digit.natAbs : ℤ) • ((64 : ℤ) ^ w) • generator =
      ((fixedGTable generator).getD w []).getD digit.natAbs 0 := by
    rw [entry, ← natCast_zsmul, ← natCast_zsmul]
    push_cast
    rfl
  simp only [addDigit, ← scaled, smul_smul]
  split
  case isTrue zero =>
    rw [Int.natAbs_eq_zero.mp zero, zero_mul, zero_smul, add_zero]
  case isFalse nonzero =>
    split
    case isTrue negative =>
      rw [Int.ofNat_natAbs_of_nonpos negative.le, neg_mul, neg_smul, neg_neg]
    case isFalse positive =>
      rw [Int.natAbs_of_nonneg (not_lt.mp positive)]

/-- The accumulator after the digits of the first `w` windows. -/
theorem addDigits_eq (digits : ℕ → ℤ) {w : ℕ} (windows : w ≤ numWindows)
    (small : ∀ i, (digits i).natAbs < tableLen) :
    ((List.range w).map digits).zipIdx.foldl (addDigit (fixedGTable generator)) 0 =
      (∑ i ∈ range w, digits i * 64 ^ i) • generator := by
  induction w with
  | zero => simp
  | succ w inductionHypothesis =>
      rw [List.range_succ, List.map_append, List.zipIdx_append, List.foldl_append,
        inductionHypothesis (by omega), List.length_map, List.length_range, zero_add,
        List.map_singleton, List.zipIdx_singleton, List.foldl_cons, List.foldl_nil,
        addDigit_eq generator _ (by omega) (small w), sum_range_succ, add_smul]

/-- The computed point for every scalar: the midpoint windows add their excess. -/
theorem scalarBytesToPoint_eq (bytes : Vector UInt8 32) :
    scalarBytesToPoint generator bytes =
      (scalarInteger bytes + midpointExcess (scalarInteger bytes) numWindows) • generator := by
  have value := digitAt_sum_scalar bytes
  rw [scalarBytesToPoint, recodeSignedWindow6_eq,
    addDigits_eq generator (digitAt (scalarInteger bytes)) le_rfl (digitAt_natAbs_lt _), value,
    natCast_zsmul]

end Group

/-- The order of the secp256k1 group. -/
def secpOrder : ℕ := 0xFFFFFFFFFFFFFFFFFFFFFFFFFFFFFFFEBAAEDCE6AF48A03BBFD25E8CD0364141

section Order

variable {G : Type} [AddCommGroup G] {generator : G} (order : addOrderOf generator = secpOrder)
include order

theorem smul_scalar_eq_iff (n k : ℕ) :
    n • generator = (k % secpOrder) • generator ↔ n ≡ k [MOD secpOrder] := by
  rw [← order, mod_addOrderOf_nsmul, nsmul_eq_nsmul_iff_modEq]

/-- The point is right exactly for the scalars without a midpoint window. -/
theorem scalarBytesToPoint_right_iff (bytes : Vector UInt8 32) :
    scalarBytesToPoint generator bytes = (scalarInteger bytes % secpOrder) • generator ↔
      MidpointFree (scalarInteger bytes) := by
  have small := midpointExcess_scalar_lt bytes
  have large : 64 ^ 42 < secpOrder := by decide
  rw [scalarBytesToPoint_eq, smul_scalar_eq_iff order, ← midpointExcess_eq_zero]
  constructor
  · intro congruent
    have zero : midpointExcess (scalarInteger bytes) numWindows ≡ 0 [MOD secpOrder] :=
      Nat.ModEq.add_left_cancel' _ congruent
    exact Nat.eq_zero_of_dvd_of_lt ((Nat.modEq_zero_iff_dvd).mp zero) (small.trans large)
  · intro zero
    rw [zero, add_zero]

end Order

theorem recodedValue_right_iff (bytes : Vector UInt8 32) :
    ∑ i ∈ range numWindows, (recodeSignedWindow6 bytes).1.getD i 0 * 64 ^ i = scalarInteger bytes ↔
      MidpointFree (scalarInteger bytes) := by
  rw [recodedValue_eq, ← midpointExcess_eq_zero]
  omega

/-- The recoding and the point are right exactly for the scalars without a midpoint window, and on
those different scalars have different points. -/
theorem scalarBytesToPoint_iff {G : Type} [AddCommGroup G] {generator : G}
    (order : addOrderOf generator = secpOrder) (bytes other : Vector UInt8 32) :
    ((scalarBytesToPoint generator bytes = (scalarInteger bytes % secpOrder) • generator ∧
        ∑ i ∈ range numWindows, (recodeSignedWindow6 bytes).1.getD i 0 * 64 ^ i =
          scalarInteger bytes ∧
        (∀ digit ∈ (recodeSignedWindow6 bytes).1, |digit| ≤ 31) ∧
        (recodeSignedWindow6 bytes).2.getD numWindows 1 = 0) ↔
      MidpointFree (scalarInteger bytes)) ∧
    (scalarBytesToPoint generator bytes = (scalarInteger bytes % secpOrder) • generator ↔
      MidpointFree (scalarInteger bytes)) ∧
    (MidpointFree (scalarInteger bytes) → MidpointFree (scalarInteger other) →
      scalarInteger bytes % secpOrder ≠ scalarInteger other % secpOrder →
        scalarBytesToPoint generator bytes ≠ scalarBytesToPoint generator other) := by
  have point := scalarBytesToPoint_right_iff order bytes
  refine ⟨⟨fun right => point.mp right.1, fun free => ⟨point.mpr free,
    (recodedValue_right_iff bytes).mpr free, ?_, finalCarry_eq_zero bytes⟩⟩, point, ?_⟩
  · intro digit member
    have small := recodedDigits_natAbs_lt bytes digit member
    rw [abs_le]
    omega
  · intro free otherFree different same
    rw [point.mpr free, (scalarBytesToPoint_right_iff order other).mpr otherFree,
      smul_scalar_eq_iff order] at same
    rw [Nat.ModEq, Nat.mod_mod] at same
    exact different same

theorem lastIndex_lt : 31 < 32 := by decide

/-- The scalar with the given last byte. -/
def smallScalar (byte : UInt8) : Vector UInt8 32 := (Vector.replicate 32 0).set 31 byte lastIndex_lt

/-- The scalar of the source's test has no midpoint window. -/
theorem scalarBytesToPoint_threes :
    scalarBytesToPoint (1 : ZMod secpOrder) (Vector.replicate 32 3) =
        (scalarInteger (Vector.replicate 32 3) % secpOrder) • 1 ∧
      scalarBytesToPoint (1 : ZMod secpOrder) (Vector.replicate 32 3) ≠
        scalarBytesToPoint (1 : ZMod secpOrder) (smallScalar 64) := by
  have right := scalarBytesToPoint_iff (ZMod.addOrderOf_one secpOrder) (Vector.replicate 32 3)
    (smallScalar 64)
  exact ⟨right.2.1.mpr (by decide), right.2.2 (by decide) (by decide) (by decide)⟩

/-- The scalar 32 gives the point of the scalar 64. -/
theorem scalarBytesToPoint_collision :
    scalarBytesToPoint (1 : ZMod secpOrder) (smallScalar 32) ≠
        (scalarInteger (smallScalar 32) % secpOrder) • 1 ∧
      scalarInteger (smallScalar 32) % secpOrder ≠ scalarInteger (smallScalar 64) % secpOrder ∧
      scalarBytesToPoint (1 : ZMod secpOrder) (smallScalar 32) =
        scalarBytesToPoint (1 : ZMod secpOrder) (smallScalar 64) := by
  have order := ZMod.addOrderOf_one secpOrder
  refine ⟨(scalarBytesToPoint_right_iff order _).not.mpr (by decide), by decide, ?_⟩
  rw [scalarBytesToPoint_eq, scalarBytesToPoint_eq]
  congr 1

end Pvugc.Secp
