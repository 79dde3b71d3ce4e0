import Pvugc.Outer.CGap

namespace Pvugc.Outer
open Pvugc.Algebra Pvugc.Groth16 Finset

/-- The matrices that `OuterCircuit::generate_constraints` makes for its packed public inputs: each
public column occurs once, in `C`, on a row `1 * x_wit = x_pub` with a witness column of its own. -/
structure OuterShape {F : Type} [One F] (m : ConstraintMatrices F) where
  bindRow : ℕ → ℕ
  xWit : ℕ → ℕ
  bindRow_lt : ∀ k, 0 < k → k < m.numInstanceVariables → bindRow k < m.numConstraints
  aRow : ∀ k, 0 < k → k < m.numInstanceVariables → m.a.getD (bindRow k) [] = [(1, 0)]
  bRow : ∀ k, 0 < k → k < m.numInstanceVariables → m.b.getD (bindRow k) [] = [(1, xWit k)]
  cRow : ∀ k, 0 < k → k < m.numInstanceVariables → m.c.getD (bindRow k) [] = [(1, k)]
  xWit_witness : ∀ k, 0 < k → k < m.numInstanceVariables → m.numInstanceVariables ≤ xWit k
  xWit_injective : ∀ k l, 0 < k → k < m.numInstanceVariables → 0 < l → l < m.numInstanceVariables →
    xWit k = xWit l → k = l
  a_free : ∀ i, ∀ term ∈ m.a.getD i [], term.2 = 0 ∨ m.numInstanceVariables ≤ term.2
  b_free : ∀ i, ∀ term ∈ m.b.getD i [], term.2 = 0 ∨ m.numInstanceVariables ≤ term.2
  c_free : ∀ i, ∀ term ∈ m.c.getD i [], term.2 = 0 ∨ m.numInstanceVariables ≤ term.2 ∨
    i = bindRow term.2

theorem eq_one_of_lt_two {k : ℕ} (positive : 0 < k) (inside : k < 2) : k = 1 := by omega

namespace OuterShape

variable {F : Type} [Field F] {m : ConstraintMatrices F} (shape : OuterShape m)

theorem entry_eq_zero {rows : List (Row F)}
    (free : ∀ i, ∀ term ∈ rows.getD i [], term.2 = 0 ∨ m.numInstanceVariables ≤ term.2) (i : ℕ) {k : ℕ}
    (positive : 0 < k) (inside : k < m.numInstanceVariables) : entry rows i k = 0 := by
  apply rowCoeff_eq_zero
  intro term member same
  have allowed := free i term member
  omega

/-- The binding rows copy each public input into its witness column. -/
theorem value_xWit [DecidableEq F] {z : Assignment m} (satisfied : z.Satisfies) {k : ℕ}
    (positive : 0 < k) (inside : k < m.numInstanceVariables) : z.value (shape.xWit k) = z.value k := by
  have row := satisfied (shape.bindRow k) (shape.bindRow_lt k positive inside)
  rw [shape.aRow k positive inside, shape.bRow k positive inside, shape.cRow k positive inside] at row
  have product : z.value 0 * z.value (shape.xWit k) = z.value k := by
    simpa [evaluateConstraint, Assignment.value] using row
  rwa [z.value_zero, one_mul] at product

/-- The omitted columns are the witness columns of the binding rows. -/
theorem omitConstWitCols_eq {domainSize : ℕ} (fits : m.numConstraints ≤ domainSize) :
    omitConstWitCols m domainSize = (Ico 1 m.numInstanceVariables).image shape.xWit := by
  have witCols (k : ℕ) (positive : 0 < k) (inside : k < m.numInstanceVariables) :
      bWitCols m (shape.bindRow k) = [shape.xWit k] := by
    rw [bWitCols, shape.bRow k positive inside]
    simp [shape.xWit_witness k positive inside]
  have bound (k row : ℕ) (positive : 0 < k) (inside : k < m.numInstanceVariables) :
      row ∈ cRows m domainSize k ↔ row = shape.bindRow k := by
    simp only [cRows, List.mem_filter, List.mem_range, m.cLength, Bool.and_eq_true, decide_eq_true_eq,
      List.any_eq_true, beq_iff_eq]
    constructor
    · rintro ⟨-, -, term, member, same⟩
      have allowed := shape.c_free row term member
      rw [same] at allowed
      omega
    · rintro rfl
      have rowInside := shape.bindRow_lt k positive inside
      exact ⟨rowInside, by omega, (1, k), by rw [shape.cRow k positive inside]; simp, rfl⟩
  ext col
  simp only [omitConstWitCols, List.mem_toFinset, List.mem_flatMap, List.mem_range'_1,
    List.mem_filterMap, mem_image, mem_Ico]
  constructor
  · rintro ⟨k, range, row, member, single⟩
    have isBound := (bound k row (by omega) (by omega)).mp member
    rw [isBound, witCols k (by omega) (by omega)] at single
    exact ⟨k, by omega, Option.some.inj single⟩
  · rintro ⟨k, range, rfl⟩
    refine ⟨k, by omega, shape.bindRow k, (bound k _ (by omega) (by omega)).mpr rfl, ?_⟩
    rw [witCols k (by omega) (by omega)]

end OuterShape

end Pvugc.Outer

namespace Pvugc.Groth16.Trapdoor
open Pvugc.Algebra Pvugc.Outer Finset

variable {F G1 : Type} [Field F] [AddCommGroup G1] [Module F G1]
variable (waste : Trapdoor F) (domain : EvaluationDomain F) {m : ConstraintMatrices F}

/-- The points of the affine gap: the base of the constant pair and those of the omitted pairs. -/
def gapPoint (shape : OuterShape m) (g1 : G1) (k : ℕ) : G1 :=
  waste.quotientBase domain m g1 0 (if k = 0 then 0 else shape.xWit k)

/-- The affine gap of a statement given with its leading one. -/
def gapAt (shape : OuterShape m) (g1 : G1) (x : ℕ → F) : G1 :=
  ∑ k ∈ range m.numInstanceVariables, x k • waste.gapPoint domain shape g1 k

/-- Under the outer shape the left-out pairs give an affine function of the public inputs. -/
theorem leftOut_eq_gapAt [DecidableEq F] (shape : OuterShape m) (g1 : G1) {z : Assignment m}
    (satisfied : z.Satisfies) (fits : m.numConstraints ≤ domain.size) :
    ∑ i ∈ range m.numInstanceVariables, ∑ j ∈ range m.numInstanceVariables,
        (z.value i * z.value j) • waste.quotientBase domain m g1 i j +
      ∑ j ∈ omitConstWitCols m domain.size,
        (z.value 0 * z.value j) • waste.quotientBase domain m g1 0 j =
      waste.gapAt domain shape g1 z.value := by
  have positive := m.instancePositive
  have constant : ∑ i ∈ range m.numInstanceVariables, ∑ j ∈ range m.numInstanceVariables,
      (z.value i * z.value j) • waste.quotientBase domain m g1 i j =
        waste.quotientBase domain m g1 0 0 := by
    rw [sum_eq_single_of_mem 0 (mem_range.mpr positive), sum_eq_single_of_mem 0 (mem_range.mpr positive),
      z.value_zero, one_mul, one_smul]
    · intro j member nonzero
      rw [waste.quotientBase_eq_zero domain g1 (Or.inr fun k _ =>
        OuterShape.entry_eq_zero shape.b_free k (Nat.pos_of_ne_zero nonzero) (mem_range.mp member)),
        smul_zero]
    · intro i member nonzero
      apply sum_eq_zero
      intro j _
      rw [waste.quotientBase_eq_zero domain g1 (Or.inl fun k _ =>
        OuterShape.entry_eq_zero shape.a_free k (Nat.pos_of_ne_zero nonzero) (mem_range.mp member)),
        smul_zero]
  have injective : Set.InjOn shape.xWit (Ico 1 m.numInstanceVariables : Finset ℕ) := by
    intro k kMember l lMember same
    have kBounds := mem_Ico.mp kMember
    have lBounds := mem_Ico.mp lMember
    exact shape.xWit_injective k l (by omega) kBounds.2 (by omega) lBounds.2 same
  rw [constant, shape.omitConstWitCols_eq fits, sum_image injective, gapAt, range_eq_Ico,
    sum_eq_sum_Ico_succ_bot positive, z.value_zero, one_smul, gapPoint, if_pos rfl]
  congr 1
  apply sum_congr rfl
  intro k member
  have bounds := mem_Ico.mp member
  rw [one_mul, shape.value_xWit satisfied (by omega) bounds.2, gapPoint, if_neg (by omega)]

end Pvugc.Groth16.Trapdoor
