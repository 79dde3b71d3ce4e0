import Pvugc.Outer.Reachability

namespace Pvugc.Outer
open Pvugc.Algebra Pvugc.Groth16 Pvugc.OneSided Finset Polynomial

section Formal

variable (F : Type) [Field F]

/-- The field of the formal labels. -/
abbrev Label := FractionRing (MvPolynomial Indeterminate F)

noncomputable instance : DecidableEq (Label F) := Classical.decEq _

noncomputable def formal (s : Indeterminate) : Label F :=
  algebraMap (MvPolynomial Indeterminate F) (Label F) (MvPolynomial.X s)

/-- The trapdoor of the algebraic model. -/
noncomputable def formalTrapdoor : Trapdoor (Label F) where
  alpha := formal F .alpha
  beta := formal F .beta
  gamma := formal F .gamma
  delta := formal F .delta
  tau := formal F .tau

theorem formalTrapdoor_generic : Generic F (formalTrapdoor F) (formal F .rho) := by
  have values : labelValue (formalTrapdoor F) (formal F .rho) = formal F := by
    funext s
    cases s <;> rfl
  have labels : ∀ P, labelOf (formalTrapdoor F) (formal F .rho) P =
      algebraMap (MvPolynomial Indeterminate F) (Label F) P := by
    intro P
    rw [labelOf, values]
    exact (MvPolynomial.aeval_algebraMap_apply (Label F) MvPolynomial.X P).trans
      (congrArg _ (MvPolynomial.aeval_X_left_apply P))
  intro P Q same
  rw [labels, labels] at same
  exact IsFractionRing.injective (MvPolynomial Indeterminate F) (Label F) same

end Formal

section Handles

variable {F : Type} [Field F] {domain : EvaluationDomain F} {m : ConstraintMatrices F} (shape : OuterShape m)

theorem natDegree_handles_lt {p : F[X]} (member : p ∈ handles domain m) : p.natDegree < 2 * domain.size := by
  have double (q : F[X]) (small : q.natDegree < domain.size) : q.natDegree < 2 * domain.size := by omega
  rcases member with ⟨k, j, -, -, -, rfl | rfl⟩ | ⟨k, -, -, rfl⟩ | ⟨pair, -, rfl⟩
  · exact natDegree_columnProduct_lt domain m.a m.b k j
  · exact natDegree_columnProduct_lt domain m.b m.b k j
  · exact (natDegree_sub_le _ _).trans_lt (max_lt (double _ (natDegree_interpolant_lt domain _))
      (natDegree_columnProduct_lt domain m.a m.b k 0))
  · exact (natDegree_sub_le _ _).trans_lt (max_lt (natDegree_columnProduct_lt domain m.a m.b pair.1 pair.2)
      (double _ (natDegree_interpolant_lt domain _)))

/-- Weights on the coefficients that every handle fails to see. -/
def Hides (domain : EvaluationDomain F) (m : ConstraintMatrices F) (weight : ℕ → F) : Prop :=
  ∀ p ∈ handles domain m, weighted (2 * domain.size) 0 weight p = 0

/-- A residual is no combination of handles exactly when some hidden weight sees it. -/
theorem residual_notMem_iff (x : ℕ → F) : residual domain shape x ∉ Submodule.span F (handles domain m) ↔
    ∃ weight, Hides domain m weight ∧ weighted (2 * domain.size) 0 weight (residual domain shape x) ≠ 0 := by
  have small : (residual domain shape x).natDegree < 2 * domain.size := by
    have bound : (residual domain shape x).natDegree < domain.size := natDegree_interpolant_lt domain _
    omega
  exact notMem_span_iff_weighted small fun p member => natDegree_handles_lt member

theorem residual_sub (x y : ℕ → F) : residual domain shape (fun k => x k - y k) =
    residual domain shape x - residual domain shape y := by
  simp only [residual_eq, map_sub, sub_mul, sum_sub_distrib]

end Handles

section Keys

variable {F : Type} [Field F] (domain : EvaluationDomain F) {m : ConstraintMatrices F} (shape : OuterShape m)

/-- The armed baked target of a statement, in the algebraic model. -/
noncomputable def armedTarget (x : List F) : Label F :=
  formal F .rho * (formalTrapdoor F).bakedTarget (domain.over (Label F)) (shape.map (algebraMap F (Label F)))
    (mulPairing (Label F) (ringChar F)) (1 : Label F) (1 : Label F)
    (statementOf (x.map (algebraMap F (Label F))))

/-- What public pairings reach in the algebraic model. -/
noncomputable def formalSpan (m : ConstraintMatrices F) (x : List F) : Submodule F (Label F) :=
  publicSpan (formalTrapdoor F) (formal F .rho) domain m x

/-- An armed target is a reached product and the value of its residual, up to handles. -/
theorem armedTarget_eq (x y : List F) : ∃ t ∈ formalSpan domain m y, armedTarget domain shape x =
    t + formal F .rho * aeval (formalTrapdoor F).tau (residual domain shape (statementOf x) +
      statementProduct domain shape (statementOf x)) := by
  have alpha := mul_mem_publicSpan (formalTrapdoor F) (formal F .rho) domain shape y .alpha .leg
  have constant := mul_mem_publicSpan (formalTrapdoor F) (formal F .rho) domain shape y
    (.aQuery (Nat.add_pos_left m.instancePositive _)) .leg
  refine ⟨_, Submodule.add_mem _ alpha constant, ?_⟩
  rw [armedTarget, bakedTarget_over _ _ _ (formalTrapdoor_generic F).delta_ne_zero]
  ring

variable {domain}

/-- An armed target is reached exactly when its residual is a combination of handles. -/
theorem armedTarget_mem_iff (x : List F) : armedTarget domain shape x ∈ formalSpan domain m x ↔
    residual domain shape (statementOf x) ∈ Submodule.span F (handles domain m) := by
  obtain ⟨t, reached, same⟩ := armedTarget_eq domain shape x x
  rw [same, Submodule.add_mem_iff_right _ reached, formalSpan,
    mem_publicSpan_iff shape (formalTrapdoor_generic F),
    Submodule.add_mem_iff_left _ (statementProduct_mem domain shape _)]

/-- The difference of two armed targets is reached exactly when the difference of the residuals is a
combination of handles. -/
theorem armedTarget_sub_mem_iff (x y : List F) :
    armedTarget domain shape x - armedTarget domain shape y ∈ formalSpan domain m y ↔
      residual domain shape (fun k => statementOf x k - statementOf y k) ∈
        Submodule.span F (handles domain m) := by
  obtain ⟨t, reached, same⟩ := armedTarget_eq domain shape x y
  obtain ⟨t', reached', same'⟩ := armedTarget_eq domain shape y y
  have difference : armedTarget domain shape x - armedTarget domain shape y =
      (t - t') + formal F .rho * aeval (formalTrapdoor F).tau
        (residual domain shape (fun k => statementOf x k - statementOf y k) +
          (statementProduct domain shape (statementOf x) - statementProduct domain shape (statementOf y))) := by
    rw [same, same', residual_sub]
    simp only [map_add, map_sub]
    ring
  have products := Submodule.sub_mem _ (statementProduct_mem domain shape (statementOf x))
    (statementProduct_mem domain shape (statementOf y))
  rw [difference, Submodule.add_mem_iff_right _ (Submodule.sub_mem _ reached reached'), formalSpan,
    mem_publicSpan_iff shape (formalTrapdoor_generic F), Submodule.add_mem_iff_left _ products]

/-- Pairings of combinations of published points are reached. -/
theorem span_mul_mem_formalSpan (shape : OuterShape m) (y : List F) {g t : Label F}
    (combined : g ∈ Submodule.span F {g | PublishedLabel (formalTrapdoor F) domain m g})
    (armed : ArmedLabel (formalTrapdoor F) domain (formal F .rho) m t) : g * t ∈ formalSpan domain m y := by
  induction combined using Submodule.span_induction with
  | mem g published => exact mul_mem_publicSpan _ _ domain shape y published armed
  | zero =>
      rw [zero_mul]
      exact Submodule.zero_mem _
  | add g g' _ _ left right =>
      rw [add_mul]
      exact Submodule.add_mem _ left right
  | smul c g _ inner =>
      rw [smul_mul_assoc]
      exact Submodule.smul_mem _ c inner

section Honest

variable (domain) (z : Assignment m)

/-- `A` of an honest lean proof without randomness, as a label. -/
noncomputable def honestA : Label F :=
  (formalTrapdoor F).aScalar (domain.over (Label F)) (z.map (algebraMap F (Label F))) 0

/-- `C` of an honest lean proof without randomness, as a label. -/
noncomputable def honestC : Label F :=
  (formalTrapdoor F).cLinearScalar (domain.over (Label F)) (z.map (algebraMap F (Label F))) 0 0 +
    quadraticSum ((formalTrapdoor F).publishedBases (domain.over (Label F)) (m.over (Label F)) (1 : Label F))
      (z.map (algebraMap F (Label F)))

theorem smul_mem_span_published (c : F) {g : Label F}
    (published : PublishedLabel (formalTrapdoor F) domain m g) : algebraMap F (Label F) c * g ∈
      Submodule.span F {g | PublishedLabel (formalTrapdoor F) domain m g} := by
  rw [← Algebra.smul_def]
  exact Submodule.smul_mem _ c (Submodule.subset_span published)

theorem honestA_mem : honestA domain z ∈
    Submodule.span F {g | PublishedLabel (formalTrapdoor F) domain m g} := by
  rw [honestA, Trapdoor.aScalar, zero_mul, add_zero]
  apply Submodule.add_mem _ (Submodule.subset_span .alpha)
  apply Submodule.sum_mem
  intro k member
  rw [z.value_map, u_over]
  exact smul_mem_span_published domain _ (.aQuery (mem_range.mp member))

theorem honestC_mem : honestC domain z ∈
    Submodule.span F {g | PublishedLabel (formalTrapdoor F) domain m g} := by
  rw [honestC, Trapdoor.cLinearScalar, zero_mul, zero_mul, zero_mul, zero_mul, add_zero, sub_zero, zero_add]
  apply Submodule.add_mem
  · rw [Assignment.witnessLinear, sum_mul]
    apply Submodule.sum_mem
    intro k member
    rw [z.value_map, mul_assoc, Trapdoor.column, u_over, v_over, w_over]
    exact smul_mem_span_published domain _
      (.lQuery (Nat.le_add_right _ _) (Nat.add_lt_add_left (mem_range.mp member) _))
  · apply list_sum_mem
    intro t member
    obtain ⟨base, stored, rfl⟩ := List.mem_map.mp member
    rw [z.value_map, z.value_map, ← map_mul, smul_eq_mul]
    apply smul_mem_span_published
    apply (mem_g1Points (formalTrapdoor F) domain).mp
    exact Or.inr (Or.inr (Or.inr (Or.inr (Or.inr (Or.inr ⟨base, stored, rfl⟩)))))

variable {domain z} [DecidableEq F]

/-- The honest decapsulation of a satisfied statement's key, over the armed bases. -/
theorem armedTarget_of_satisfies (satisfied : z.Satisfies) (fits : m.numVars ≤ 2 ^ 32)
    (rows : m.numConstraints ≤ domain.size) : armedTarget domain shape z.publicInputs =
      honestA domain z * (formal F .rho * ((formalTrapdoor F).beta +
        aeval (formalTrapdoor F).tau (columnPolynomial domain m.b 0))) +
      honestA domain z * (formal F .rho * (z.map (algebraMap F (Label F))).witnessLinear
        ((formalTrapdoor F).v (domain.over (Label F)) (m.over (Label F)))) -
      honestC domain z * (formal F .rho * (formalTrapdoor F).delta) := by
  set extended := z.map (algebraMap F (Label F)) with hextended
  have inputs : extended.publicInputs = z.publicInputs.map (algebraMap F (Label F)) := z.publicInputs_map _
  have equation : honestA domain z * (formalTrapdoor F).bScalar (domain.over (Label F)) extended 0 =
      (formalTrapdoor F).bakedTarget (domain.over (Label F)) (shape.map (algebraMap F (Label F)))
        (mulPairing (Label F) (ringChar F)) (1 : Label F) (1 : Label F) extended.value +
          honestC domain z * (formalTrapdoor F).delta := by
    have covered : (m.over (Label F)).numConstraints ≤ (domain.over (Label F)).size := rows
    have proved := (formalTrapdoor F).lean_equation (shape.map (algebraMap F (Label F)))
      (mulPairing (Label F) (ringChar F)) (formalTrapdoor_generic F).delta_ne_zero fits covered (1 : Label F)
      (1 : Label F) (satisfied.map (algebraMap F (Label F))) 0 0
    simp only [smul_eq_mul, mul_one] at proved
    exact proved
  have split : (formalTrapdoor F).bScalar (domain.over (Label F)) extended 0 =
      (formalTrapdoor F).beta + aeval (formalTrapdoor F).tau (columnPolynomial domain m.b 0) +
        extended.witnessLinear ((formalTrapdoor F).v (domain.over (Label F)) (m.over (Label F))) := by
    rw [← bScalar_eq, publicLeg_eq (shape.map (algebraMap F (Label F))), v_over, zero_mul, add_zero]
  rw [armedTarget, ← inputs, bakedTarget_publicInputs, eq_sub_of_add_eq equation.symm, split]
  ring

/-- The key of a satisfied statement is reached, by the combination that an honest decapsulation makes. -/
theorem armedTarget_mem_of_satisfies (satisfied : z.Satisfies) (fits : m.numVars ≤ 2 ^ 32)
    (rows : m.numConstraints ≤ domain.size) :
    armedTarget domain shape z.publicInputs ∈ formalSpan domain m z.publicInputs := by
  have leg := span_mul_mem_formalSpan shape z.publicInputs (honestA_mem domain z) .leg
  have quotient := span_mul_mem_formalSpan shape z.publicInputs (honestC_mem domain z) .delta
  have columns : honestA domain z * (formal F .rho * (z.map (algebraMap F (Label F))).witnessLinear
      ((formalTrapdoor F).v (domain.over (Label F)) (m.over (Label F)))) ∈
        formalSpan domain m z.publicInputs := by
    rw [Assignment.witnessLinear, mul_sum, mul_sum]
    apply Submodule.sum_mem
    intro k member
    have armed := span_mul_mem_formalSpan shape z.publicInputs (honestA_mem domain z)
      (.column (Nat.le_add_right m.numInstanceVariables k) (Nat.add_lt_add_left (mem_range.mp member) _))
    rw [z.value_map, v_over, mul_left_comm (formal F .rho), mul_left_comm (honestA domain z),
      ← Algebra.smul_def]
    exact Submodule.smul_mem _ _ armed
  rw [armedTarget_of_satisfies shape satisfied fits rows]
  exact Submodule.sub_mem _ (Submodule.add_mem _ leg columns) quotient

end Honest

/-- A statement that leaves nothing open on any row has its residual zero. -/
theorem residual_eq_zero {x : ℕ → F} (closed : ∀ row, residualRow shape x row = 0) :
    residual domain shape x = 0 := by
  simp [residual, interpolant, idft, dft, closed]

/-- The check passes every circuit of the outer shape, and the key of a statement is hidden from public
pairings exactly where some hidden weight sees the residual of the statement. -/
theorem armedTarget_hidden_iff (backend : PolynomialBackend F) (x : List F) :
    (quotientDomain backend m = some domain → SpanSeparated backend m domain) ∧
      (armedTarget domain shape x ∉ formalSpan domain m x ↔
        ∃ weight, Hides domain m weight ∧
          weighted (2 * domain.size) 0 weight (residual domain shape (statementOf x)) ≠ 0) := by
  refine ⟨shape.spanSeparated, ?_⟩
  rw [armedTarget_mem_iff, residual_notMem_iff]

/-- The keys of two statements are independent exactly where some hidden weight sees the difference of
their residuals. -/
theorem armedTarget_independent_iff (x y : List F) :
    (x ≠ y → armedTarget domain shape x - armedTarget domain shape y ∉ formalSpan domain m y) ↔
      (x ≠ y → ∃ weight, Hides domain m weight ∧ weighted (2 * domain.size) 0 weight
        (residual domain shape fun k => statementOf x k - statementOf y k) ≠ 0) := by
  rw [armedTarget_sub_mem_iff, residual_notMem_iff]

end Keys

section Sample

/-- A binding row for the public input, and a row that makes it a bit. -/
def bitStatement : ConstraintMatrices (ZMod 13) where
  numInstanceVariables := 2
  numWitnessVariables := 1
  numConstraints := 2
  a := [[(1, 0)], [(1, 2)]]
  b := [[(1, 2)], [(1, 2), (-1, 0)]]
  c := [[(1, 1)], []]
  instancePositive := Nat.two_pos
  aLength := boundSquare.aLength
  bLength := rfl
  cLength := repeatedConstant.cLength
  aColumns := by decide
  bColumns := by decide
  cColumns := by decide

def bitStatementShape : OuterShape bitStatement where
  bindRow _ := 0
  xWit _ := 2
  bindRow_lt _ _ _ := by decide
  aRow _ _ _ := rfl
  bRow _ _ _ := rfl
  cRow k positive inside := by
    rw [eq_one_of_lt_two positive inside]
    rfl
  xWit_witness _ _ _ := by decide
  xWit_injective k l kPositive kInside lPositive lInside _ := by
    rw [eq_one_of_lt_two kPositive kInside, eq_one_of_lt_two lPositive lInside]
  a_free i := match i with
    | 0 | 1 => by decide
    | i + 2 => by simp [bitStatement]
  b_free i := match i with
    | 0 | 1 => by decide
    | i + 2 => by simp [bitStatement]
  c_free i := match i with
    | 0 | 1 => by decide
    | i + 2 => by simp [bitStatement]

/-- The only row with a constant in `A` is the binding row, so no statement leaves anything open. -/
theorem residualRow_bitStatement (x : ℕ → ZMod 13) (row : ℕ) : residualRow bitStatementShape x row = 0 := by
  rw [residualRow, show bitStatement.numInstanceVariables = 2 from rfl, sum_range_succ, sum_range_one]
  match row with
  | 0 => simp [entry, bitStatement, bitStatementShape]
  | 1 => simp [entry, bitStatement, bitStatementShape]
  | row + 2 => simp [entry, bitStatement]

/-- The statement that no bit satisfies. -/
theorem not_satisfies_two (z : Assignment bitStatement) (satisfied : z.Satisfies) : z.publicInputs ≠ [2] := by
  intro two
  have statement : z.value 1 = 2 := by
    rw [← statementOf_publicInputs z (by decide : 1 < bitStatement.numInstanceVariables), two]
    rfl
  have copied : z.value 2 = 2 := by
    rw [← statement]
    exact bitStatementShape.value_xWit satisfied (by decide) (by decide : 1 < bitStatement.numInstanceVariables)
  have row : evaluateConstraint [(1, 2)] z.fullAssignment *
      evaluateConstraint [(1, 2), (-1, 0)] z.fullAssignment = evaluateConstraint [] z.fullAssignment :=
    satisfied 1 (by decide)
  have bit : z.value 2 * (z.value 2 + z.value 0 * -1) = 0 := by
    simpa [evaluateConstraint, Assignment.value, show (-1 : ZMod 13) ≠ 1 by decide] using row
  rw [copied, z.value_zero] at bit
  exact absurd bit (by decide)

theorem armedTarget_reached : SpanSeparated smallBackend bitStatement fourthRoots ∧
    (∀ z : Assignment bitStatement, z.Satisfies → z.publicInputs ≠ [2]) ∧
    armedTarget fourthRoots bitStatementShape [2] ∈ formalSpan fourthRoots bitStatement [2] := by
  refine ⟨bitStatementShape.spanSeparated rfl, not_satisfies_two, ?_⟩
  rw [armedTarget_mem_iff, residual_eq_zero _ (residualRow_bitStatement _)]
  exact Submodule.zero_mem _

theorem armedTarget_dependent : SpanSeparated smallBackend bitStatement fourthRoots ∧
    (∃ z : Assignment bitStatement, z.Satisfies ∧ z.publicInputs = [1]) ∧
    (∀ z : Assignment bitStatement, z.Satisfies → z.publicInputs ≠ [2]) ∧
    armedTarget fourthRoots bitStatementShape [2] - armedTarget fourthRoots bitStatementShape [1] ∈
      formalSpan fourthRoots bitStatement [1] := by
  refine ⟨bitStatementShape.spanSeparated rfl,
    ⟨⟨[1, 1], [1], rfl, rfl, rfl⟩, by decide, rfl⟩, not_satisfies_two, ?_⟩
  rw [armedTarget_sub_mem_iff, residual_eq_zero _ (residualRow_bitStatement _)]
  exact Submodule.zero_mem _

end Sample

end Pvugc.Outer
