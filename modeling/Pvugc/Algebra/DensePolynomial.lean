import Mathlib
import Pvugc.Algebra.Tabulate

namespace Pvugc.Algebra
open Finset Polynomial

/-- A polynomial by its coefficients, the constant one first. -/
@[ext]
structure DensePolynomial (F : Type*) where
  coeffs : List F

namespace DensePolynomial

variable {F : Type*} [Field F]

/-- The polynomial that a coefficient list stands for. -/
noncomputable def toPolynomial (p : DensePolynomial F) : F[X] :=
  p.coeffs.foldr (fun c acc => C c + X * acc) 0

/-- Evaluation by Horner's rule. -/
def evaluate (p : DensePolynomial F) (x : F) : F := p.coeffs.foldr (fun c acc => c + x * acc) 0

def zero : DensePolynomial F := { coeffs := [] }

/-- Coefficients are added in place, and the longer list keeps its tail. -/
def addCoeffs : List F → List F → List F
  | [], q => q
  | p, [] => p
  | a :: p, b :: q => (a + b) :: addCoeffs p q

def add (p q : DensePolynomial F) : DensePolynomial F := { coeffs := addCoeffs p.coeffs q.coeffs }

def scale (p : DensePolynomial F) (c : F) : DensePolynomial F := { coeffs := p.coeffs.map (· * c) }

/-- Row by row multiplication. -/
def mulCoeffs : List F → List F → List F
  | [], _ => []
  | a :: p, q => addCoeffs (q.map (a * ·)) (0 :: mulCoeffs p q)

def mul (p q : DensePolynomial F) : DensePolynomial F := { coeffs := mulCoeffs p.coeffs q.coeffs }

section Zero

variable [DecidableEq F]

def isZero (p : DensePolynomial F) : Bool := p.coeffs.all (· = 0)

/-- `from_coefficients_slice` drops the zeros at the end. -/
def fromCoefficientsSlice (coeffs : List F) : DensePolynomial F := { coeffs := coeffs.rdropWhile (· = 0) }

end Zero

@[simp] theorem toPolynomial_nil : toPolynomial ({ coeffs := [] } : DensePolynomial F) = 0 := rfl

@[simp] theorem toPolynomial_cons (c : F) (coeffs : List F) :
    toPolynomial { coeffs := c :: coeffs } = C c + X * toPolynomial { coeffs := coeffs } := rfl

theorem evaluate_eq_eval (p : DensePolynomial F) (x : F) : p.evaluate x = p.toPolynomial.eval x := by
  obtain ⟨coeffs⟩ := p
  induction coeffs with
  | nil => simp [evaluate]
  | cons c rest ih =>
      simp only [evaluate, List.foldr_cons, toPolynomial_cons, eval_add, eval_C, eval_mul, eval_X] at ih ⊢
      rw [ih]

theorem toPolynomial_addCoeffs (p q : List F) :
    toPolynomial { coeffs := addCoeffs p q } = toPolynomial { coeffs := p } + toPolynomial { coeffs := q } := by
  induction p, q using addCoeffs.induct with
  | case1 q => simp [addCoeffs]
  | case2 p nonempty =>
      cases p with
      | nil => simp [addCoeffs]
      | cons a p => simp [addCoeffs]
  | case3 a p b q ih =>
      simp only [addCoeffs, toPolynomial_cons, ih, map_add]
      ring

@[simp] theorem toPolynomial_add (p q : DensePolynomial F) :
    (p.add q).toPolynomial = p.toPolynomial + q.toPolynomial := toPolynomial_addCoeffs _ _

@[simp] theorem toPolynomial_scale (p : DensePolynomial F) (c : F) :
    (p.scale c).toPolynomial = C c * p.toPolynomial := by
  obtain ⟨coeffs⟩ := p
  induction coeffs with
  | nil => simp [scale]
  | cons a rest ih =>
      simp only [scale, List.map_cons, toPolynomial_cons, map_mul] at ih ⊢
      rw [ih]
      ring

@[simp] theorem toPolynomial_mul (p q : DensePolynomial F) :
    (p.mul q).toPolynomial = p.toPolynomial * q.toPolynomial := by
  obtain ⟨coeffs⟩ := p
  induction coeffs with
  | nil => simp [mul, mulCoeffs]
  | cons a rest ih =>
      have scaled := toPolynomial_scale q a
      simp only [scale, mul_comm _ a] at scaled
      simp only [mul, mulCoeffs, toPolynomial_addCoeffs, toPolynomial_cons, map_zero, zero_add] at ih ⊢
      rw [scaled, ih]
      ring

@[simp] theorem evaluate_zero (x : F) : (zero : DensePolynomial F).evaluate x = 0 := rfl

@[simp] theorem evaluate_add (p q : DensePolynomial F) (x : F) :
    (p.add q).evaluate x = p.evaluate x + q.evaluate x := by
  simp only [evaluate_eq_eval, toPolynomial_add, eval_add]

@[simp] theorem evaluate_scale (p : DensePolynomial F) (c x : F) :
    (p.scale c).evaluate x = c * p.evaluate x := by
  simp only [evaluate_eq_eval, toPolynomial_scale, eval_mul, eval_C]

/-- The zeros at the end do not count. -/
theorem toPolynomial_fromCoefficientsSlice [DecidableEq F] (coeffs : List F) :
    (fromCoefficientsSlice coeffs).toPolynomial = toPolynomial { coeffs := coeffs } := by
  induction coeffs using List.reverseRecOn with
  | nil => rfl
  | append_singleton rest c ih =>
      rw [fromCoefficientsSlice, List.rdropWhile_concat]
      split
      case isTrue zero =>
        have last : toPolynomial ({ coeffs := rest ++ [c] } : DensePolynomial F) =
            toPolynomial { coeffs := rest } := by
          simp only [toPolynomial, List.foldr_append, List.foldr_cons, List.foldr_nil,
            of_decide_eq_true zero, map_zero, mul_zero, add_zero]
        rw [last, ← ih, fromCoefficientsSlice]
      case isFalse => rfl

/-- A list without a nonzero coefficient is the zero polynomial. -/
theorem isZero_iff [DecidableEq F] (p : DensePolynomial F) : p.isZero = true ↔ p.toPolynomial = 0 := by
  obtain ⟨coeffs⟩ := p
  induction coeffs with
  | nil => simp [isZero]
  | cons c rest ih =>
      have constant : (C c + X * toPolynomial { coeffs := rest }).coeff 0 = c := by simp
      simp only [isZero, List.all_cons, Bool.and_eq_true, decide_eq_true_eq, toPolynomial_cons] at ih ⊢
      rw [ih]
      constructor
      · intro zeros
        rw [zeros.1, zeros.2, map_zero, mul_zero, add_zero]
      · intro zero
        have first : c = 0 := by rw [← constant, zero, coeff_zero]
        refine ⟨first, ?_⟩
        rw [first, map_zero, zero_add] at zero
        exact (mul_eq_zero.mp zero).resolve_left X_ne_zero

/-- The values of a listed sequence are the sums of its coefficients against the powers. -/
theorem evaluate_tabulate (n : ℕ) (f : ℕ → F) (x : F) :
    evaluate { coeffs := tabulate n f } x = ∑ i ∈ range n, f i * x ^ i := by
  induction n generalizing f with
  | zero => rfl
  | succ n ih =>
      have tail := ih fun i => f (i + 1)
      rw [tabulate_succ, sum_range_succ', pow_zero, mul_one, add_comm]
      simp only [evaluate, List.foldr_cons] at tail ⊢
      rw [tail, mul_sum]
      congr 1
      apply sum_congr rfl
      intro i _
      ring

end DensePolynomial

end Pvugc.Algebra
