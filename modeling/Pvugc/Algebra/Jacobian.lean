import Mathlib.AlgebraicGeometry.EllipticCurve.Affine.Point
import Mathlib.Tactic.FieldSimp
import Mathlib.Tactic.LinearCombination
import Pvugc.Algebra.Numerals

namespace Pvugc.Algebra
open WeierstrassCurve.Affine

/-- The curve `y² = x³ + b`. -/
def shortCurve {F : Type*} [Zero F] (b : F) : WeierstrassCurve.Affine F := ⟨0, 0, 0, 0, b⟩

/-- Jacobian coordinates stand for `(x / z², y / z³)`; for `z = 0` they stand for the point at infinity. -/
structure Jacobian (F : Type*) where
  x : F
  y : F
  z : F

section Curve

variable {F : Type*} [Field F] {b : F}

theorem shortCurve_equation (x y : F) : (shortCurve b).Equation x y ↔ y ^ 2 = x ^ 3 + b := by
  simp [WeierstrassCurve.Affine.equation_iff, shortCurve]

theorem shortCurve_nonsingular {x y : F} (equation : y ^ 2 = x ^ 3 + b) (finite : y ≠ -y) :
    (shortCurve b).Nonsingular x y := by
  refine (nonsingular_iff _ _).mpr ⟨(shortCurve_equation x y).mpr equation, Or.inr ?_⟩
  simpa [shortCurve] using finite

@[simp] theorem shortCurve_negY (x y : F) : (shortCurve b).negY x y = -y := by
  simp [negY, shortCurve]

/-- Points with the same first coordinate have equal or opposite second coordinates. -/
theorem shortCurve_sameX {x y₁ y₂ : F} (h₁ : (shortCurve b).Nonsingular x y₁) (h₂ : (shortCurve b).Nonsingular x y₂) :
    y₁ = y₂ ∨ y₁ = -y₂ := by
  have first := (shortCurve_equation x y₁).mp h₁.1
  have second := (shortCurve_equation x y₂).mp h₂.1
  exact sq_eq_sq_iff_eq_or_eq_neg.mp (first.trans second.symm)

/-- The coordinates stand for the point. -/
inductive Jacobian.Represents (p : Jacobian F) : (shortCurve b).Point → Prop where
  | infinity (zero : p.z = 0) : p.Represents .zero
  | finite {x y : F} {point : (shortCurve b).Nonsingular x y} (nonzero : p.z ≠ 0)
      (xValue : p.x = x * p.z ^ 2) (yValue : p.y = y * p.z ^ 3) : p.Represents (.some x y point)

/-- The third coordinate tells whether the point is at infinity. -/
theorem Jacobian.Represents.eq_zero_iff {p : Jacobian F} {P : (shortCurve b).Point} (input : p.Represents P) :
    P = 0 ↔ p.z = 0 := by
  cases input with
  | infinity zero => exact iff_of_true rfl zero
  | finite nonzero => exact iff_of_false (Point.some_ne_zero _) nonzero

variable [DecidableEq F] {x₁ y₁ x₂ y₂ : F} {h₁ : (shortCurve b).Nonsingular x₁ y₁}
variable {h₂ : (shortCurve b).Nonsingular x₂ y₂} {p : Jacobian F} {slope : F}

/-- The sum of two points from the slope of their line. -/
theorem Jacobian.represents_of_slope (distinct : ¬(x₁ = x₂ ∧ y₁ = -y₂)) (nonzero : p.z ≠ 0)
    (line : (shortCurve b).slope x₁ x₂ y₁ y₂ = slope) (xValue : p.x = (slope ^ 2 - x₁ - x₂) * p.z ^ 2)
    (yValue : p.y = (slope * (x₁ - (slope ^ 2 - x₁ - x₂)) - y₁) * p.z ^ 3) :
    p.Represents (Point.some x₁ y₁ h₁ + Point.some x₂ y₂ h₂) := by
  rw [Point.add_some (by rwa [shortCurve_negY])]
  apply Represents.finite nonzero
  · rw [xValue, line]
    simp [addX, shortCurve]
  · rw [yValue, line]
    simp only [addY, negAddY, addX, shortCurve_negY]
    simp only [shortCurve]
    ring

/-- Two points with different first coordinates add along their chord. -/
theorem Jacobian.represents_chord (distinct : x₁ ≠ x₂) (nonzero : p.z ≠ 0)
    (line : slope * (x₁ - x₂) = y₁ - y₂) (xValue : p.x = (slope ^ 2 - x₁ - x₂) * p.z ^ 2)
    (yValue : p.y = (slope * (x₁ - (slope ^ 2 - x₁ - x₂)) - y₁) * p.z ^ 3) :
    p.Represents (Point.some x₁ y₁ h₁ + Point.some x₂ y₂ h₂) := by
  apply represents_of_slope (fun same => distinct same.1) nonzero _ xValue yValue
  rw [slope_of_X_ne distinct, ← line, mul_div_cancel_right₀ _ (sub_ne_zero.mpr distinct)]

/-- A point whose double is finite doubles along its tangent. -/
theorem Jacobian.represents_tangent (twoNonzero : (2 : F) ≠ 0) (finite : y₁ ≠ 0) (nonzero : p.z ≠ 0)
    (line : slope * (2 * y₁) = 3 * x₁ ^ 2) (xValue : p.x = (slope ^ 2 - x₁ - x₁) * p.z ^ 2)
    (yValue : p.y = (slope * (x₁ - (slope ^ 2 - x₁ - x₁)) - y₁) * p.z ^ 3) :
    p.Represents (Point.some x₁ y₁ h₁ + Point.some x₁ y₁ h₁) := by
  have double : 2 * y₁ ≠ 0 := mul_ne_zero twoNonzero finite
  have distinct : y₁ ≠ -y₁ := by
    intro same
    apply double
    linear_combination same
  apply represents_of_slope (fun same => distinct same.2) nonzero _ xValue yValue
  rw [slope_of_Y_ne rfl (by rwa [shortCurve_negY]), shortCurve_negY]
  simp only [shortCurve]
  rw [div_eq_iff (by rwa [sub_neg_eq_add, ← two_mul])]
  linear_combination -line

/-- A point and its opposite add to infinity. -/
theorem Jacobian.represents_opposite (sameX : x₁ = x₂) (opposite : y₁ = -y₂) (zero : p.z = 0) :
    p.Represents (Point.some x₁ y₁ h₁ + Point.some x₂ y₂ h₂) := by
  rw [Point.add_of_Y_eq sameX (by rw [shortCurve_negY, opposite])]
  exact .infinity zero

end Curve

end Pvugc.Algebra
