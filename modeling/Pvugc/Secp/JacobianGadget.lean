import Pvugc.Algebra.Jacobian

namespace Pvugc.Secp
open Pvugc.Algebra WeierstrassCurve.Affine

/-- This is `SecpJacVar`; an emulated-field variable stands for its value. -/
abbrev SecpJacVar (F : Type) := Jacobian F

/-- This is `SecpAffineVar`. -/
structure SecpAffineVar (F : Type) where
  x : F
  y : F

namespace SecpJacVar

variable {F : Type} [Field F]

def infinity : SecpJacVar F := ⟨0, 1, 0⟩

def double (p : SecpJacVar F) : SecpJacVar F :=
  let xx := p.x ^ 2
  let yy := p.y ^ 2
  let yyyy := yy ^ 2
  let s := 2 * ((p.x + yy) ^ 2 - xx - yyyy)
  let m := 2 * xx + xx
  let t := m ^ 2
  let x := t - 2 * s
  let eightC := 2 * (2 * (2 * yyyy))
  let y := m * (s - x) - eightC
  let z := 2 * (p.y * p.z)
  ⟨x, y, z⟩

/-- The sum that `add_mixed` computes before its selections. -/
def addUnchecked (p : SecpJacVar F) (other : SecpAffineVar F) : SecpJacVar F :=
  let z1z1 := p.z ^ 2
  let u2 := other.x * z1z1
  let s2 := other.y * p.z * z1z1
  let h := u2 - p.x
  let hh := h ^ 2
  let i := 2 * (2 * hh)
  let j := h * i
  let r := 2 * (s2 - p.y)
  let v := p.x * i
  let x3 := r ^ 2 - j - 2 * v
  let y3 := r * (v - x3) - 2 * (p.y * j)
  let z3 := (p.z + h) ^ 2 - z1z1 - hh
  ⟨x3, y3, z3⟩

def conditionalSelect (cond : Bool) (whenTrue whenFalse : SecpJacVar F) : SecpJacVar F :=
  ⟨if cond then whenTrue.x else whenFalse.x, if cond then whenTrue.y else whenFalse.y,
    if cond then whenTrue.z else whenFalse.z⟩

def addMixed [DecidableEq F] (p : SecpJacVar F) (other : SecpAffineVar F) : SecpJacVar F :=
  let z1IsZero := decide (p.z = 0)
  let hIsZero := decide (other.x * p.z ^ 2 - p.x = 0)
  let rIsZero := decide (2 * (other.y * p.z * p.z ^ 2 - p.y) = 0)
  let addOrInf := conditionalSelect (hIsZero && !rIsZero) infinity (p.addUnchecked other)
  let addOrDouble := conditionalSelect (hIsZero && rIsZero) p.double addOrInf
  conditionalSelect z1IsZero ⟨other.x, other.y, 1⟩ addOrDouble

omit [Field F] in
@[simp] theorem conditionalSelect_eq (cond : Bool) (whenTrue whenFalse : SecpJacVar F) :
    conditionalSelect cond whenTrue whenFalse = if cond then whenTrue else whenFalse := by
  cases cond <;> rfl

section Group

variable [DecidableEq F] {b : F} (twoNonzero : (2 : F) ≠ 0)
include twoNonzero

/-- The gadget doubles every point. -/
theorem represents_double {p : SecpJacVar F} {P : (shortCurve b).Point} (input : p.Represents P) :
    (double p).Represents (P + P) := by
  cases input with
  | infinity zero =>
      rw [← Point.zero_def, add_zero]
      apply Jacobian.Represents.infinity
      simp only [double, zero, mul_zero]
  | @finite x y _ nonzero xInput yInput =>
      by_cases finite : y = 0
      · apply Jacobian.represents_opposite rfl (by rw [finite, neg_zero])
        simp only [double, yInput, finite, zero_mul, mul_zero]
      · have tangent : 2 * y ≠ 0 := mul_ne_zero twoNonzero finite
        obtain ⟨slope, line⟩ : ∃ slope, slope * (2 * y) = 3 * x ^ 2 :=
          ⟨3 * x ^ 2 / (2 * y), div_mul_cancel₀ _ tangent⟩
        have zValue : (double p).z = 2 * y * p.z ^ 4 := by
          simp only [double, yInput]
          ring
        have xValue : (double p).x = (slope ^ 2 - x - x) * (double p).z ^ 2 := by
          rw [zValue]
          simp only [double, xInput, yInput]
          linear_combination -p.z ^ 8 * (slope * (2 * y) + 3 * x ^ 2) * line
        have yFormula : (double p).y = 3 * p.x ^ 2 * (4 * p.x * p.y ^ 2 - (double p).x) - 8 * p.y ^ 4 := by
          simp only [double]
          ring
        apply Jacobian.represents_tangent twoNonzero finite _ line xValue
        · rw [yFormula, xValue, zValue, xInput, yInput]
          linear_combination -4 * y ^ 2 * p.z ^ 12 * (x - (slope ^ 2 - x - x)) * line
        · rw [zValue]
          exact mul_ne_zero tangent (pow_ne_zero 4 nonzero)

/-- The formulas of `add_mixed` add points with different first coordinates. -/
theorem represents_addUnchecked {p : SecpJacVar F} {x y x₂ y₂ : F} {h₁ : (shortCurve b).Nonsingular x y}
    {h₂ : (shortCurve b).Nonsingular x₂ y₂} (input : p.Represents (Point.some x y h₁)) (distinct : x ≠ x₂) :
    (addUnchecked p ⟨x₂, y₂⟩).Represents (Point.some x y h₁ + Point.some x₂ y₂ h₂) := by
  cases input with
  | finite nonzero xInput yInput =>
      have chord : x - x₂ ≠ 0 := sub_ne_zero.mpr distinct
      obtain ⟨slope, line⟩ : ∃ slope, slope * (x - x₂) = y - y₂ :=
        ⟨(y - y₂) / (x - x₂), div_mul_cancel₀ _ chord⟩
      have zValue : (addUnchecked p ⟨x₂, y₂⟩).z = -2 * (x - x₂) * p.z ^ 3 := by
        simp only [addUnchecked, xInput]
        ring
      have xValue : (addUnchecked p ⟨x₂, y₂⟩).x = (slope ^ 2 - x - x₂) * (addUnchecked p ⟨x₂, y₂⟩).z ^ 2 := by
        rw [zValue]
        simp only [addUnchecked, xInput, yInput]
        linear_combination -4 * p.z ^ 6 * (slope * (x - x₂) + (y - y₂)) * line
      have yFormula : (addUnchecked p ⟨x₂, y₂⟩).y =
          2 * (y₂ * p.z ^ 3 - p.y) * (4 * p.x * (x₂ * p.z ^ 2 - p.x) ^ 2 - (addUnchecked p ⟨x₂, y₂⟩).x) -
            8 * p.y * (x₂ * p.z ^ 2 - p.x) ^ 3 := by
        simp only [addUnchecked]
        ring
      apply Jacobian.represents_chord distinct _ line xValue
      · rw [yFormula, xValue, zValue, xInput, yInput]
        linear_combination
          8 * (x - x₂) ^ 2 * p.z ^ 9 * (x - (slope ^ 2 - x - x₂)) * line
      · rw [zValue]
        exact mul_ne_zero (mul_ne_zero (neg_ne_zero.mpr twoNonzero) chord) (pow_ne_zero 3 nonzero)

/-- The zero tests of `add_mixed` select the branch by the two points alone. -/
theorem addMixed_eq {p : SecpJacVar F} {P : (shortCurve b).Point} (input : p.Represents P) {x₂ y₂ : F}
    (h₂ : (shortCurve b).Nonsingular x₂ y₂) :
    addMixed p ⟨x₂, y₂⟩ =
      if P = 0 then ⟨x₂, y₂, 1⟩
      else if P = .some x₂ y₂ h₂ then double p
      else if P = -.some x₂ y₂ h₂ then infinity
      else addUnchecked p ⟨x₂, y₂⟩ := by
  cases input with
  | infinity zero => simp [addMixed, zero, ← Point.zero_def]
  | @finite x y h₁ nonzero xInput yInput =>
      have hValue : x₂ * p.z ^ 2 - p.x = (x₂ - x) * p.z ^ 2 := by
        rw [xInput]
        ring
      have rValue : 2 * (y₂ * p.z * p.z ^ 2 - p.y) = 2 * (y₂ - y) * p.z ^ 3 := by
        rw [yInput]
        ring
      have hZero : x₂ * p.z ^ 2 - p.x = 0 ↔ x = x₂ := by
        rw [hValue, mul_eq_zero, or_iff_left (pow_ne_zero 2 nonzero), sub_eq_zero, eq_comm]
      have rZero : 2 * (y₂ * p.z * p.z ^ 2 - p.y) = 0 ↔ y = y₂ := by
        rw [rValue, mul_eq_zero, or_iff_left (pow_ne_zero 3 nonzero), mul_eq_zero, or_iff_right twoNonzero,
          sub_eq_zero, eq_comm]
      rw [if_neg (Point.some_ne_zero h₁)]
      simp only [addMixed, conditionalSelect_eq, hZero, rZero, nonzero, decide_false, Point.neg_some,
        shortCurve_negY, Point.some.injEq]
      by_cases sameX : x = x₂
      · subst sameX
        by_cases sameY : y = y₂
        · simp [sameY]
        · have opposite := (shortCurve_sameX h₁ h₂).resolve_left sameY
          simp only [sameY, decide_false, decide_true, Bool.and_false, Bool.not_false, Bool.and_true,
            Bool.false_eq_true, and_false, if_false, if_true]
          rw [if_pos ⟨trivial, opposite⟩]
      · simp [sameX]

/-- The gadget adds a finite point to every point. -/
theorem represents_addMixed {p : SecpJacVar F} {P : (shortCurve b).Point} (input : p.Represents P)
    {x₂ y₂ : F} (h₂ : (shortCurve b).Nonsingular x₂ y₂) :
    (addMixed p ⟨x₂, y₂⟩).Represents (P + Point.some x₂ y₂ h₂) := by
  rw [addMixed_eq twoNonzero input h₂]
  split
  case isTrue zero =>
    rw [zero, zero_add]
    exact .finite one_ne_zero (by simp) (by simp)
  case isFalse finite =>
    split
    case isTrue same =>
      rw [← same]
      exact represents_double twoNonzero input
    case isFalse different =>
      split
      case isTrue opposite =>
        rw [opposite, neg_add_cancel]
        exact .infinity rfl
      case isFalse generic =>
        cases P with
        | zero => exact absurd rfl finite
        | some x y h₁ =>
            apply represents_addUnchecked twoNonzero input
            rintro rfl
            rcases shortCurve_sameX h₁ h₂ with rfl | rfl
            · exact different rfl
            · apply generic
              simp only [Point.neg_some, shortCurve_negY]

end Group

end SecpJacVar

end Pvugc.Secp
