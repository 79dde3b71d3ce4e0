import Pvugc.Groth16.PolynomialBackend
import Mathlib.Data.List.MinMax

namespace Pvugc.Groth16

/-- What `GeneralEvaluationDomain::new` documents: a radix-2 domain when that subgroup is large enough. The
exponent `TWO_ADICITY` is the largest one of a subgroup whose order is a power of two. -/
structure GeneralDomains {F : Type*} [Field F] (backend : PolynomialBackend F) (twoAdicity : ℕ) : Prop where
  radix2 : ∀ {k}, k ≤ 2 ^ twoAdicity → ∃ domain L, backend.newDomain k = some domain ∧ domain.size = 2 ^ L
  adicity : ∀ {root : F} {L}, IsPrimitiveRoot root (2 ^ L) → L ≤ twoAdicity

theorem GeneralDomains.size_le {F : Type*} [Field F] {backend : PolynomialBackend F} {twoAdicity : ℕ}
    (documented : GeneralDomains backend twoAdicity) {domain : EvaluationDomain F} {L : ℕ}
    (size : domain.size = 2 ^ L) : domain.size ≤ 2 ^ twoAdicity := by
  have order : IsPrimitiveRoot domain.groupGen (2 ^ L) := size ▸ domain.primitive
  rw [size]
  exact Nat.pow_le_pow_right Nat.two_pos (documented.adicity order)

/-- The constants of `FftField` for a field with a small odd subgroup. -/
structure FftField (F : Type*) [Field F] where
  twoAdicity : ℕ
  smallSubgroupBase : ℕ
  smallSubgroupBaseAdicity : ℕ
  largeSubgroupRootOfUnity : F
  generator : F
  basePositive : 0 < smallSubgroupBase
  fitsWord : 2 ^ twoAdicity * smallSubgroupBase ^ smallSubgroupBaseAdicity < 2 ^ 64
  primitive : IsPrimitiveRoot largeSubgroupRootOfUnity
    (2 ^ twoAdicity * smallSubgroupBase ^ smallSubgroupBaseAdicity)
  adicity : ∀ {root : F} {L}, IsPrimitiveRoot root (2 ^ L) → L ≤ twoAdicity
  generator_outside : generator ^ (2 ^ twoAdicity * smallSubgroupBase ^ smallSubgroupBaseAdicity) ≠ 1
  generator_ne_zero : generator ≠ 0

namespace FftField

variable {F : Type*} [Field F] (field : FftField F)

/-- The exponents of a subgroup order `2 ^ a * q ^ b`. -/
abbrev Exponents := Fin (field.twoAdicity + 1) × Fin (field.smallSubgroupBaseAdicity + 1)

def order (e : field.Exponents) : ℕ := 2 ^ (e.1 : ℕ) * field.smallSubgroupBase ^ (e.2 : ℕ)

/-- The power of the large root by the missing factors. -/
def getRootOfUnity (e : field.Exponents) : F :=
  field.largeSubgroupRootOfUnity ^
    (2 ^ (field.twoAdicity - e.1) * field.smallSubgroupBase ^ (field.smallSubgroupBaseAdicity - e.2))

theorem cofactor_mul_order (e : field.Exponents) :
    2 ^ field.twoAdicity * field.smallSubgroupBase ^ field.smallSubgroupBaseAdicity =
      (2 ^ (field.twoAdicity - e.1) * field.smallSubgroupBase ^ (field.smallSubgroupBaseAdicity - e.2)) *
        field.order e := by
  have two := Nat.sub_add_cancel (Nat.le_of_lt_succ e.1.isLt)
  have base := Nat.sub_add_cancel (Nat.le_of_lt_succ e.2.isLt)
  rw [order, mul_mul_mul_comm, ← pow_add, ← pow_add, two, base]

theorem order_positive (e : field.Exponents) : 0 < field.order e :=
  Nat.mul_pos (Nat.pow_pos Nat.two_pos) (Nat.pow_pos field.basePositive)

theorem order_dvd (e : field.Exponents) :
    field.order e ∣ 2 ^ field.twoAdicity * field.smallSubgroupBase ^ field.smallSubgroupBaseAdicity :=
  ⟨_, (field.cofactor_mul_order e).trans (Nat.mul_comm _ _)⟩

theorem largeOrder_positive :
    0 < 2 ^ field.twoAdicity * field.smallSubgroupBase ^ field.smallSubgroupBaseAdicity :=
  Nat.mul_pos (Nat.pow_pos Nat.two_pos) (Nat.pow_pos field.basePositive)

/-- The domain of the subgroup with the given exponents. -/
def subgroup (e : field.Exponents) : EvaluationDomain F where
  size := field.order e
  groupGen := field.getRootOfUnity e
  positive := field.order_positive e
  fitsWord := (Nat.le_of_dvd field.largeOrder_positive (field.order_dvd e)).trans_lt field.fitsWord
  primitive := field.primitive.pow field.largeOrder_positive (field.cofactor_mul_order e)

/-- The doublings of `q ^ b` that reach the number of coefficients. -/
def doublings (b : Fin (field.smallSubgroupBaseAdicity + 1)) (numCoeffs : ℕ) : Option field.Exponents :=
  ((List.finRange (field.twoAdicity + 1)).map (·, b)).find? fun e => numCoeffs ≤ field.order e

/-- This is `best_mixed_domain_size`, by the exponents of the size. -/
def bestMixedDomainSize (numCoeffs : ℕ) : Option field.Exponents :=
  ((List.finRange (field.smallSubgroupBaseAdicity + 1)).filterMap fun b =>
    field.doublings b numCoeffs).argmin field.order

/-- A radix-2 subgroup comes first, then the smallest subgroup that fits. -/
def exponents (numCoeffs : ℕ) : Option field.Exponents :=
  field.doublings 0 numCoeffs <|> field.bestMixedDomainSize numCoeffs

def newDomain (numCoeffs : ℕ) : Option (EvaluationDomain F) := (field.exponents numCoeffs).map field.subgroup

theorem doublings_fits {b : Fin (field.smallSubgroupBaseAdicity + 1)} {numCoeffs : ℕ} {e : field.Exponents}
    (found : field.doublings b numCoeffs = some e) : numCoeffs ≤ field.order e :=
  of_decide_eq_true (List.find?_some (p := fun e => decide (numCoeffs ≤ field.order e)) found)

theorem exponents_fits {numCoeffs : ℕ} {e : field.Exponents} (found : field.exponents numCoeffs = some e) :
    numCoeffs ≤ field.order e := by
  rw [exponents] at found
  cases radix2 : field.doublings 0 numCoeffs with
  | some direct =>
      rw [radix2] at found
      cases found
      exact field.doublings_fits radix2
  | none =>
      rw [radix2] at found
      have listed := List.argmin_mem (f := field.order) found
      obtain ⟨b, -, located⟩ := List.mem_filterMap.mp listed
      exact field.doublings_fits located

/-- The library of a field with these constants. -/
def backend : PolynomialBackend F :=
  directBackend field.newDomain field.generator
    (by
      intro k domain created
      obtain ⟨e, found, rfl⟩ := Option.map_eq_some_iff.mp created
      exact field.exponents_fits found)
    field.generator_ne_zero
    (by
      intro k domain created one
      obtain ⟨e, -, rfl⟩ := Option.map_eq_some_iff.mp created
      apply field.generator_outside
      rw [field.cofactor_mul_order e, Nat.mul_comm, pow_mul]
      change field.generator ^ field.order e = 1 at one
      rw [one, one_pow])

/-- Its domains are the documented ones. -/
theorem generalDomains : GeneralDomains field.backend field.twoAdicity where
  radix2 := by
    intro k small
    have some : (field.doublings 0 k).isSome := by
      rw [doublings, List.find?_isSome]
      refine ⟨(Fin.last _, 0), List.mem_map.mpr ⟨_, List.mem_finRange _, rfl⟩, ?_⟩
      simpa [order] using small
    obtain ⟨e, found⟩ := Option.isSome_iff_exists.mp some
    have radix2 : e.2 = 0 := by
      obtain ⟨a, -, rfl⟩ := List.mem_map.mp (List.mem_of_find?_eq_some found)
      rfl
    refine ⟨field.subgroup e, e.1, ?_, ?_⟩
    · change (field.exponents k).map field.subgroup = _
      rw [exponents, found]
      rfl
    · change field.order e = _
      simp [order, radix2]
  adicity := field.adicity

end FftField

end Pvugc.Groth16
