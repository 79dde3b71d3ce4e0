import Pvugc.Secp.Secp256k1

namespace Pvugc.Secp
open Pvugc.Algebra WeierstrassCurve.Affine

namespace SecpJacVar

section Curve

variable {F : Type} [Field F] {b : F}

/-- Outside of characteristics two and three a curve with a nonzero constant is smooth. -/
theorem nonsingular_of_equation (two : (2 : F) ≠ 0) (three : (3 : F) ≠ 0) (constant : b ≠ 0) {x y : F}
    (onCurve : y ^ 2 = x ^ 3 + b) : (shortCurve b).Nonsingular x y := by
  by_cases zero : y = 0
  · refine (nonsingular_iff _ _).mpr ⟨(shortCurve_equation x y).mpr onCurve, Or.inl ?_⟩
    have base : x ≠ 0 := by
      intro origin
      apply constant
      rw [zero, origin] at onCurve
      linear_combination -onCurve
    simpa [shortCurve] using (mul_ne_zero three (pow_ne_zero 2 base)).symm
  · apply shortCurve_nonsingular onCurve
    intro same
    apply mul_ne_zero two zero
    linear_combination same

/-- Every nonzero scaling of a point represents it. -/
theorem represents_scaled {x y : F} (point : (shortCurve b).Nonsingular x y) {scale : F} (nonzero : scale ≠ 0) :
    Jacobian.Represents ⟨x * scale ^ 2, y * scale ^ 3, scale⟩ (Point.some x y point) :=
  .finite nonzero rfl rfl

end Curve

/-- The gadget is complete: on every representative of every point, doubling gives the double, adding an
affine point gives the sum, and the branch that the selections take is the one of the two points. -/
theorem addMixed_complete {F : Type} [Field F] [DecidableEq F] (two : (2 : F) ≠ 0) (three : (3 : F) ≠ 0)
    (seven : (7 : F) ≠ 0) {p : SecpJacVar F} {P : (shortCurve (7 : F)).Point} (input : p.Represents P) {x y : F}
    (onCurve : y ^ 2 = x ^ 3 + 7) :
    (double p).Represents (2 • P) ∧
      ∃ point : (shortCurve (7 : F)).Nonsingular x y,
        (addMixed p ⟨x, y⟩).Represents (P + .some x y point) ∧
        addMixed p ⟨x, y⟩ =
          if P = 0 then ⟨x, y, 1⟩
          else if P = .some x y point then double p
          else if P = -.some x y point then infinity
          else addUnchecked p ⟨x, y⟩ := by
  have point := nonsingular_of_equation two three seven onCurve
  refine ⟨?_, point, represents_addMixed two input point, addMixed_eq two input point⟩
  rw [two_nsmul]
  exact represents_double two input

/-- On secp256k1, a scaled generator is doubled by adding the generator to it. -/
theorem addMixed_complete_generator :
    (addMixed ⟨secpGeneratorX * 3 ^ 2, secpGeneratorY * 3 ^ 3, 3⟩ ⟨secpGeneratorX, secpGeneratorY⟩).Represents
      (secpGenerator + secpGenerator) := by
  have input : Jacobian.Represents ⟨secpGeneratorX * 3 ^ 2, secpGeneratorY * 3 ^ 3, 3⟩ secpGenerator :=
    represents_scaled secpGenerator_nonsingular (by decide)
  have onCurve : secpGeneratorY ^ 2 = secpGeneratorX ^ 3 + 7 := by decide
  obtain ⟨-, _, sum, -⟩ := addMixed_complete (by decide) (by decide) (by decide) input onCurve
  exact sum

end SecpJacVar

end Pvugc.Secp
