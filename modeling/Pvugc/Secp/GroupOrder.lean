import Pvugc.Secp.Secp256k1
import Mathlib.FieldTheory.Finite.Basic
import Mathlib.GroupTheory.Perm.Cycle.Type

namespace Pvugc.Secp
open Pvugc.Algebra WeierstrassCurve.Affine

abbrev SecpPoint := (shortCurve (7 : SecpFq)).Point

/-- Minus seven is no cube, since its power by a third of the order of the units is not one. -/
theorem secp_cube_ne (x : SecpFq) : x ^ 3 ≠ -7 := by
  intro cube
  have nonzero : x ≠ 0 := by
    rintro rfl
    exact absurd cube (by decide)
  have power : (-7 : SecpFq) ^ ((secpPrime - 1) / 3) = 1 := by
    rw [← cube, ← pow_mul, show 3 * ((secpPrime - 1) / 3) = secpPrime - 1 by decide]
    exact ZMod.pow_card_sub_one_eq_one nonzero
  have residue : (-7 : SecpFq) = ((secpPrime - 7 : ℕ) : SecpFq) := by decide
  have computed : powMod secpPrime (secpPrime - 7) 256 ((secpPrime - 1) / 3) ≠ 1 := by decide +kernel
  rw [residue] at power
  exact computed ((powMod_eq_one_iff (by decide) (by decide)).mp power)

theorem secp_equation {x y : SecpFq} (point : (shortCurve (7 : SecpFq)).Nonsingular x y) : y ^ 2 = x ^ 3 + 7 :=
  (shortCurve_equation x y).mp point.1

/-- No point has order two. -/
theorem secp_y_ne_zero {x y : SecpFq} (point : (shortCurve (7 : SecpFq)).Nonsingular x y) : y ≠ 0 := by
  rintro rfl
  refine secp_cube_ne x ?_
  have equation := secp_equation point
  linear_combination -equation

theorem secp_nonsingular {x y : SecpFq} (equation : y ^ 2 = x ^ 3 + 7) :
    (shortCurve (7 : SecpFq)).Nonsingular x y := by
  apply shortCurve_nonsingular equation
  intro same
  have zero : y = 0 := by
    have double : (2 : SecpFq) * y = 0 := by linear_combination same
    exact (mul_eq_zero.mp double).resolve_left (by decide)
  refine secp_cube_ne x ?_
  rw [zero] at equation
  linear_combination -equation

section Parity

def isEvenY : SecpPoint → Bool
  | .zero => true
  | .some _ y _ => y.val % 2 = 0

/-- The opposite of a coordinate has the other parity. -/
theorem neg_parity {y : SecpFq} (nonzero : y ≠ 0) : (-y).val % 2 = 0 ↔ ¬y.val % 2 = 0 := by
  have positive : 0 < y.val := Nat.pos_of_ne_zero ((ZMod.val_ne_zero y).mpr nonzero)
  have below := ZMod.val_lt y
  have odd : secpPrime % 2 = 1 := by decide
  rw [ZMod.neg_val, if_neg nonzero]
  omega

theorem isEvenY_neg {P : SecpPoint} (finite : P ≠ 0) : isEvenY (-P) = !isEvenY P := by
  cases P with
  | zero => exact absurd rfl finite
  | some x y point =>
      rw [Point.neg_some, isEvenY, isEvenY, shortCurve_negY]
      simp only [neg_parity (secp_y_ne_zero point), decide_not]

/-- Points with the same first coordinate are equal or opposite. -/
theorem eq_or_eq_neg_of_x {x y y' : SecpFq} (point : (shortCurve (7 : SecpFq)).Nonsingular x y)
    (point' : (shortCurve (7 : SecpFq)).Nonsingular x y') :
    Point.some x y point = Point.some x y' point' ∨ Point.some x y point = -Point.some x y' point' := by
  rcases shortCurve_sameX point point' with rfl | rfl
  · exact .inl rfl
  · right
    simp only [Point.neg_some, shortCurve_negY]

/-- A point is its first coordinate and the parity of its second one. -/
def pointCode : SecpPoint → Option (SecpFq × Bool)
  | .zero => none
  | .some x y point => some (x, isEvenY (.some x y point))

theorem pointCode_injective : Function.Injective pointCode := by
  intro P P' same
  cases P with
  | zero =>
      cases P' with
      | zero => rfl
      | some x' y' point' => cases same
  | some x y point =>
      cases P' with
      | zero => cases same
      | some x' y' point' =>
        obtain ⟨sameX, parity⟩ := Prod.mk.inj (Option.some.inj same)
        subst sameX
        rcases eq_or_eq_neg_of_x point point' with equal | opposite
        · exact equal
        · rw [opposite, isEvenY_neg (Point.some_ne_zero point')] at parity
          exact absurd parity (Bool.not_ne_self _)

end Parity

section Order

instance : Finite SecpPoint := Finite.of_injective pointCode pointCode_injective

theorem secp_card_le : Nat.card SecpPoint ≤ 2 * secpPrime + 1 := by
  have codes : Nat.card (Option (SecpFq × Bool)) = 2 * secpPrime + 1 := by
    rw [Finite.card_option, Nat.card_prod, Nat.card_zmod, Nat.card_eq_fintype_card, Fintype.card_bool, mul_comm]
  rw [← codes]
  exact Nat.card_le_card_of_injective pointCode pointCode_injective

/-- The group of the curve has prime order. -/
theorem secp_card : Nat.card SecpPoint = secpOrder := by
  obtain ⟨k, multiple⟩ : secpOrder ∣ Nat.card SecpPoint := by
    rw [← secpGenerator_order]
    exact addOrderOf_dvd_natCard secpGenerator
  have positive : 0 < Nat.card SecpPoint := Nat.card_pos
  have bound := secp_card_le
  have margin : 2 * secpPrime + 1 < secpOrder * 3 := by decide
  have few : k < 3 := by
    by_contra many
    have product := Nat.mul_le_mul_left secpOrder (Nat.le_of_not_lt many)
    omega
  have some : k ≠ 0 := by
    rintro rfl
    omega
  -- a second multiple would give a point of order two
  have notTwo : k ≠ 2 := by
    rintro rfl
    have : Fact (Nat.Prime 2) := ⟨Nat.prime_two⟩
    obtain ⟨P, order⟩ := exists_prime_addOrderOf_dvd_card' 2 (by rw [multiple]; exact Nat.dvd_mul_left 2 secpOrder)
    have finite : P ≠ 0 := by
      rintro rfl
      rw [addOrderOf_zero] at order
      omega
    have doubled : 2 • P = 0 := by rw [← order]; exact addOrderOf_nsmul_eq_zero P
    have opposite : -P = P := neg_eq_of_add_eq_zero_left (by rwa [two_nsmul] at doubled)
    have parity := isEvenY_neg finite
    rw [opposite] at parity
    exact absurd parity.symm (Bool.not_ne_self _)
  obtain rfl : k = 1 := by omega
  rw [multiple, mul_one]

/-- Multiples of a point are determined modulo the order. -/
theorem secp_smul_eq_zero_iff {P : SecpPoint} (finite : P ≠ 0) (k : ℕ) : k • P = 0 ↔ secpOrder ∣ k := by
  have order : addOrderOf P = secpOrder := by
    have divides := addOrderOf_dvd_natCard P
    rw [secp_card] at divides
    exact ((Nat.dvd_prime secpOrder_prime).mp divides).resolve_left
      (fun one => finite (AddMonoid.addOrderOf_eq_one_iff.mp one))
  rw [← order, addOrderOf_dvd_iff_nsmul_eq_zero]

/-- The order is odd. -/
theorem secp_two_smul_ne_zero {P : SecpPoint} (finite : P ≠ 0) : 2 • P ≠ 0 := by
  rw [Ne, secp_smul_eq_zero_iff finite]
  decide

end Order

end Pvugc.Secp
