import Pvugc.Outer.AlgebraicModel

namespace Pvugc.Outer
open Pvugc.Algebra Pvugc.Groth16 Pvugc.OneSided Finset Polynomial

section Residual

variable {F : Type} [Field F] (domain : EvaluationDomain F) {m : ConstraintMatrices F} (shape : OuterShape m)

/-- The residual of a statement, by public columns. -/
theorem residual_eq (x : ℕ → F) : residual domain shape x = ∑ k ∈ range m.numInstanceVariables, C (x k) *
    (columnPolynomial domain m.c k - interpolant domain.groupGen domain.size fun row =>
      entry m.a row 0 * entry m.b row (if k = 0 then 0 else shape.xWit k)) := by
  have difference (f g : ℕ → F) : interpolant domain.groupGen domain.size (fun row => f row - g row) =
      interpolant domain.groupGen domain.size f - interpolant domain.groupGen domain.size g := by
    simp only [interpolant, idft, dft, smul_sub, sum_sub_distrib, map_sub, sub_mul]
  rw [residual, show residualRow shape x = fun row => ∑ k ∈ range m.numInstanceVariables, x k *
    (entry m.c row k - entry m.a row 0 * entry m.b row (if k = 0 then 0 else shape.xWit k)) from rfl,
    interpolant_sum]
  apply sum_congr rfl
  intro k _
  rw [difference, columnPolynomial]

/-- The products of the constant column of `A` with the witness columns that carry a statement. -/
noncomputable def statementProduct (x : ℕ → F) : F[X] :=
  ∑ k ∈ Ico 1 m.numInstanceVariables, x k •
    (columnPolynomial domain m.a 0 * columnPolynomial domain m.b (shape.xWit k))

theorem xWit_lt {k : ℕ} (positive : 0 < k) (inside : k < m.numInstanceVariables) :
    shape.xWit k < m.numVars := by
  have row : m.b.getD (shape.bindRow k) [] ∈ m.b := by
    have below : shape.bindRow k < m.b.length := by
      rw [m.bLength]
      exact shape.bindRow_lt k positive inside
    rw [List.getD_eq_getElem _ _ below]
    exact List.getElem_mem below
  exact m.bColumns _ row (1, shape.xWit k) (by rw [shape.bRow k positive inside]; simp)

theorem statementProduct_mem (x : ℕ → F) :
    statementProduct domain shape x ∈ Submodule.span F (handles domain m) := by
  apply Submodule.sum_mem
  intro k member
  have bounds := mem_Ico.mp member
  apply Submodule.smul_mem
  apply Submodule.subset_span
  exact Or.inl ⟨0, shape.xWit k, Nat.add_pos_left m.instancePositive _,
    shape.xWit_witness k bounds.1 bounds.2, xWit_lt shape bounds.1 bounds.2, Or.inl rfl⟩

end Residual

section Target

variable {F K : Type} [Field F] [Field K] [Algebra F K] (waste : Trapdoor K) (domain : EvaluationDomain F)
variable {m : ConstraintMatrices F} (shape : OuterShape m)

/-- The baked target of a statement: a product of published and armed points, and a polynomial in the
evaluation point. -/
theorem bakedTarget_over (deltaNonzero : waste.delta ≠ 0) (modulus : ℕ) (x : List F) :
    waste.bakedTarget (domain.over K) (shape.map (algebraMap F K)) (mulPairing K modulus) (1 : K) (1 : K)
        (statementOf (x.map (algebraMap F K))) =
      (waste.alpha + aeval waste.tau (columnPolynomial domain m.a 0)) *
          (waste.beta + aeval waste.tau (columnPolynomial domain m.b 0)) +
        aeval waste.tau (residual domain shape (statementOf x) +
          statementProduct domain shape (statementOf x)) := by
  set extended := shape.map (algebraMap F K) with hextended
  set y : ℕ → K := statementOf (x.map (algebraMap F K)) with hy
  have statement (k : ℕ) : y k = algebraMap F K (statementOf x k) := statementOf_map x k
  have one : y 0 = 1 := rfl
  have publicU : ∑ k ∈ range m.numInstanceVariables, y k * waste.u (domain.over K) (m.over K) k =
      waste.u (domain.over K) (m.over K) 0 := by
    rw [sum_eq_single_of_mem 0 (mem_range.mpr m.instancePositive), one, one_mul]
    intro k member nonzero
    rw [waste.u_eq_zero (domain.over K) extended (Nat.pos_of_ne_zero nonzero) (mem_range.mp member), mul_zero]
  have publicV : ∑ k ∈ range m.numInstanceVariables, y k * waste.v (domain.over K) (m.over K) k =
      waste.v (domain.over K) (m.over K) 0 := publicLeg_eq extended (x.map (algebraMap F K))
  have statementColumns : ∑ k ∈ range m.numInstanceVariables, y k *
      waste.v (domain.over K) (m.over K) (if k = 0 then 0 else shape.xWit k) =
        waste.v (domain.over K) (m.over K) 0 + ∑ k ∈ Ico 1 m.numInstanceVariables, y k *
          waste.v (domain.over K) (m.over K) (shape.xWit k) := by
    rw [range_eq_Ico, sum_eq_sum_Ico_succ_bot m.instancePositive, one, one_mul, if_pos rfl]
    congr 1
    apply sum_congr rfl
    intro k member
    rw [if_neg (Nat.ne_of_gt (mem_Ico.mp member).1)]
  have rest : aeval waste.tau (residual domain shape (statementOf x)) =
      ∑ k ∈ range m.numInstanceVariables, y k * (waste.w (domain.over K) (m.over K) k -
        waste.overlap (domain.over K) (m.over K) 0 (if k = 0 then 0 else shape.xWit k)) := by
    simp only [residual_eq, map_sum, map_mul, map_sub, aeval_C, statement, w_over, overlap_over]
  have product : aeval waste.tau (statementProduct domain shape (statementOf x)) =
      waste.u (domain.over K) (m.over K) 0 * ∑ k ∈ Ico 1 m.numInstanceVariables, y k *
        waste.v (domain.over K) (m.over K) (shape.xWit k) := by
    simp only [statementProduct, map_sum, map_mul, Algebra.smul_def, AlgHom.commutes, statement, u_over, v_over,
      mul_sum]
    apply sum_congr rfl
    intro k _
    ring
  have linear : waste.instanceScalar (domain.over K) (m.over K) y =
      waste.beta * waste.u (domain.over K) (m.over K) 0 + waste.alpha * waste.v (domain.over K) (m.over K) 0 +
        ∑ k ∈ range m.numInstanceVariables, y k * waste.w (domain.over K) (m.over K) k := by
    rw [← publicU, ← publicV, mul_sum, mul_sum, ← sum_add_distrib, ← sum_add_distrib]
    apply sum_congr rfl
    intro k _
    rw [Trapdoor.column]
    ring
  have baked : waste.bakedScalar (domain.over K) extended y =
      waste.u (domain.over K) (m.over K) 0 * (waste.v (domain.over K) (m.over K) 0 +
        ∑ k ∈ Ico 1 m.numInstanceVariables, y k * waste.v (domain.over K) (m.over K) (shape.xWit k)) -
      ∑ k ∈ range m.numInstanceVariables, y k *
        waste.overlap (domain.over K) (m.over K) 0 (if k = 0 then 0 else shape.xWit k) := by
    rw [← statementColumns, mul_sum, ← sum_sub_distrib]
    apply sum_congr rfl
    intro k _
    simp only [hextended, OuterShape.map]
    ring
  have unit : (mulPairing K modulus).pairing (1 : K) (1 : K) = 1 := one_mul 1
  rw [Trapdoor.bakedTarget, Trapdoor.pairing_gapAt_bakedScalar _ _ _ _ deltaNonzero, unit, linear, baked,
    map_add, rest, product, ← u_over, ← v_over]
  simp only [smul_eq_mul, mul_one, mul_sub, sum_sub_distrib]
  ring

end Target

section Combine

variable {F K : Type} [Field F] [Field K] [Algebra F K] [DecidableEq K] (waste : Trapdoor K) (rho : K)
variable (domain : EvaluationDomain F) (m : ConstraintMatrices F)

/-- What public pairings of a generated lean key with the armed bases of a statement reach. -/
noncomputable abbrev publicSpan (x : List F) : Submodule F K :=
  reachable F (mulPairing K (ringChar F))
    (leanProvingKey (waste.provingKey (domain.over K) (m.over K) (1 : K) (1 : K))
      (waste.publishedBases (domain.over K) (m.over K) (1 : K))) (armedBases waste domain rho m x)

variable {m}

theorem mul_mem_publicSpan (shape : OuterShape m) (x : List F) {g y : K}
    (published : PublishedLabel waste domain m g) (armed : ArmedLabel waste domain rho m y) :
    g * y ∈ publicSpan waste rho domain m x :=
  Submodule.subset_span ⟨g, (mem_g1Points waste domain).mpr published, y,
    (mem_armedPoints waste domain shape rho x).mpr armed, rfl⟩

variable {waste rho domain}

/-- Every combination of handles is reached. -/
theorem mem_publicSpan_of_handles (shape : OuterShape m) (deltaNonzero : waste.delta ≠ 0) (x : List F)
    {p : F[X]} (member : p ∈ Submodule.span F (handles domain m)) :
    rho * aeval waste.tau p ∈ publicSpan waste rho domain m x := by
  let value : F[X] →ₗ[F] K := LinearMap.mulLeft F rho ∘ₗ (aeval waste.tau).toLinearMap
  have below : Submodule.span F (handles domain m) ≤ (publicSpan waste rho domain m x).comap value := by
    apply Submodule.span_le.mpr
    rintro q (⟨k, j, inside, isWitness, jInside, rfl | rfl⟩ | ⟨k, isWitness, inside, rfl⟩ | ⟨pair, active, rfl⟩)
    · have pairing := mul_mem_publicSpan waste rho domain shape x (.aQuery inside)
        (.column isWitness jInside)
      simpa [value, mul_left_comm] using pairing
    · have pairing := mul_mem_publicSpan waste rho domain shape x (.bG1Query inside)
        (.column isWitness jInside)
      simpa [value, mul_left_comm] using pairing
    · have linear := mul_mem_publicSpan waste rho domain shape x (.lQuery isWitness inside)
        (.delta)
      have leg := mul_mem_publicSpan waste rho domain shape x (.aQuery inside)
        (.leg)
      have alpha := mul_mem_publicSpan waste rho domain shape x (.alpha)
        (.column isWitness inside)
      have combined := Submodule.sub_mem _ (Submodule.sub_mem _ linear leg) alpha
      have same : value (columnPolynomial domain m.c k -
          columnPolynomial domain m.a k * columnPolynomial domain m.b 0) = (waste.beta *
            aeval waste.tau (columnPolynomial domain m.a k) + waste.alpha *
              aeval waste.tau (columnPolynomial domain m.b k) +
                aeval waste.tau (columnPolynomial domain m.c k)) * waste.delta⁻¹ * (rho * waste.delta) -
          aeval waste.tau (columnPolynomial domain m.a k) *
            (rho * (waste.beta + aeval waste.tau (columnPolynomial domain m.b 0))) -
          waste.alpha * (rho * aeval waste.tau (columnPolynomial domain m.b k)) := by
        simp only [value, LinearMap.comp_apply, AlgHom.toLinearMap_apply, LinearMap.mulLeft_apply, map_sub,
          map_mul]
        field_simp
        ring
      change value _ ∈ publicSpan waste rho domain m x
      rw [same]
      exact combined
    · by_cases zero : aeval waste.tau (quotientNumerator domain m pair.1 pair.2) * waste.delta⁻¹ = 0
      · have vanishes : aeval waste.tau (quotientNumerator domain m pair.1 pair.2) = 0 :=
          (mul_eq_zero.mp zero).resolve_right (inv_ne_zero deltaNonzero)
        simp [value, vanishes]
      · have pairing := mul_mem_publicSpan waste rho domain shape x (.hQueryWit active zero) (.delta)
        have same : value (quotientNumerator domain m pair.1 pair.2) =
            aeval waste.tau (quotientNumerator domain m pair.1 pair.2) * waste.delta⁻¹ *
              (rho * waste.delta) := by
          simp only [value, LinearMap.comp_apply, AlgHom.toLinearMap_apply, LinearMap.mulLeft_apply]
          field_simp
        change value _ ∈ publicSpan waste rho domain m x
        rw [same]
        exact pairing
  exact below member

end Combine

section Formal

/-- The indeterminates of the algebraic model. -/
inductive Indeterminate where
  | alpha | beta | gamma | delta | tau | rho

variable {F K : Type} [Field F] [Field K] [Algebra F K] (waste : Trapdoor K) (rho : K)
variable (domain : EvaluationDomain F) (m : ConstraintMatrices F)

/-- The values of the indeterminates. -/
def labelValue : Indeterminate → K
  | .alpha => waste.alpha
  | .beta => waste.beta
  | .gamma => waste.gamma
  | .delta => waste.delta
  | .tau => waste.tau
  | .rho => rho

/-- The label of a formal polynomial. -/
noncomputable def labelOf : MvPolynomial Indeterminate F →ₐ[F] K := MvPolynomial.aeval (labelValue waste rho)

/-- The trapdoor and `rho` satisfy no polynomial equation over the scalars. -/
def Generic (F : Type) {K : Type} [Field F] [Field K] [Algebra F K] (waste : Trapdoor K) (rho : K) : Prop :=
  Function.Injective (labelOf (F := F) waste rho)

/-- The specialization kills `alpha` and the public leg and keeps `delta` apart from the evaluation point. -/
noncomputable def specialValue : Indeterminate → F[X][X]
  | .alpha => 0
  | .beta => -C (columnPolynomial domain m.b 0)
  | .gamma => 1
  | .delta => X
  | .tau => C X
  | .rho => 1

noncomputable def specialize : MvPolynomial Indeterminate F →ₐ[F] F[X][X] :=
  MvPolynomial.aeval (specialValue domain m)

/-- A polynomial in the evaluation point, among the formal polynomials. -/
noncomputable def formalAt (p : F[X]) : MvPolynomial Indeterminate F := aeval (MvPolynomial.X .tau) p

@[simp] theorem labelOf_X (s : Indeterminate) :
    labelOf (F := F) waste rho (MvPolynomial.X s) = labelValue waste rho s :=
  MvPolynomial.aeval_X _ s

@[simp] theorem labelOf_formalAt (p : F[X]) : labelOf waste rho (formalAt p) = aeval waste.tau p := by
  rw [formalAt, ← aeval_algHom_apply, labelOf_X, labelValue]

@[simp] theorem specialize_X (s : Indeterminate) :
    specialize domain m (MvPolynomial.X s) = specialValue domain m s :=
  MvPolynomial.aeval_X _ s

@[simp] theorem specialize_formalAt (p : F[X]) : specialize domain m (formalAt p) = C p := by
  have embedded : aeval (C X : F[X][X]) p = C (aeval X p) := aeval_algebraMap_apply F[X][X] (X : F[X]) p
  rw [formalAt, ← aeval_algHom_apply, specialize_X, specialValue, embedded, aeval_X_left_apply]

variable {waste domain m}

/-- A formal numerator of a published label: the parts without `delta` and with one `delta` of its
specialization only pair to handles. -/
theorem PublishedLabel.numerator (deltaNonzero : waste.delta ≠ 0) {g : K}
    (published : PublishedLabel waste domain m g) : ∃ P : MvPolynomial Indeterminate F,
      labelOf waste rho P = waste.delta * g ∧
      (specialize domain m P).coeff 0 ∈ Submodule.span F (handles domain m) ∧
      ∀ j, m.numInstanceVariables ≤ j → j < m.numVars →
        (specialize domain m P).coeff 1 * columnPolynomial domain m.b j ∈
          Submodule.span F (handles domain m) := by
  have productA {k j : ℕ} (inside : k < m.numVars) (isWitness : m.numInstanceVariables ≤ j)
      (jInside : j < m.numVars) : columnPolynomial domain m.a k * columnPolynomial domain m.b j ∈
        Submodule.span F (handles domain m) :=
    Submodule.subset_span (Or.inl ⟨k, j, inside, isWitness, jInside, Or.inl rfl⟩)
  have productB {k j : ℕ} (inside : k < m.numVars) (isWitness : m.numInstanceVariables ≤ j)
      (jInside : j < m.numVars) : columnPolynomial domain m.b k * columnPolynomial domain m.b j ∈
        Submodule.span F (handles domain m) :=
    Submodule.subset_span (Or.inl ⟨k, j, inside, isWitness, jInside, Or.inr rfl⟩)
  have positive : 0 < m.numVars := Nat.add_pos_left m.instancePositive _
  cases published with
  | alpha =>
      refine ⟨MvPolynomial.X Indeterminate.delta * MvPolynomial.X Indeterminate.alpha, ?_, ?_, fun j _ _ => ?_⟩
      · simp [labelValue]
      · simp [specialValue]
      · simp [specialValue]
  | beta =>
      refine ⟨MvPolynomial.X Indeterminate.delta * MvPolynomial.X Indeterminate.beta, ?_, ?_,
        fun j isWitness inside => ?_⟩
      · simp [labelValue]
      · simp [specialValue]
      · simpa [specialValue] using productB positive isWitness inside
  | delta =>
      refine ⟨MvPolynomial.X Indeterminate.delta * MvPolynomial.X Indeterminate.delta, ?_, ?_, fun j _ _ => ?_⟩
      · simp [labelValue]
      · simp [specialValue]
      · simp [specialValue]
  | @aQuery k kInside =>
      refine ⟨MvPolynomial.X Indeterminate.delta * formalAt (columnPolynomial domain m.a k), ?_, ?_,
        fun j isWitness inside => ?_⟩
      · rw [map_mul, labelOf_formalAt, labelOf_X, labelValue]
      · simp [specialValue]
      · simpa [specialValue, coeff_X_mul] using productA kInside isWitness inside
  | @bG1Query k kInside =>
      refine ⟨MvPolynomial.X Indeterminate.delta * formalAt (columnPolynomial domain m.b k), ?_, ?_,
        fun j isWitness inside => ?_⟩
      · rw [map_mul, labelOf_formalAt, labelOf_X, labelValue]
      · simp [specialValue]
      · simpa [specialValue, coeff_X_mul] using productB kInside isWitness inside
  | @lQuery k kWitness kInside =>
      have linear : columnPolynomial domain m.c k -
          columnPolynomial domain m.a k * columnPolynomial domain m.b 0 ∈ Submodule.span F (handles domain m) :=
        Submodule.subset_span (Or.inr (Or.inl ⟨k, kWitness, kInside, rfl⟩))
      have special : specialize domain m
          (MvPolynomial.X Indeterminate.beta * formalAt (columnPolynomial domain m.a k) +
            MvPolynomial.X Indeterminate.alpha * formalAt (columnPolynomial domain m.b k) +
              formalAt (columnPolynomial domain m.c k)) =
          C (columnPolynomial domain m.c k - columnPolynomial domain m.a k * columnPolynomial domain m.b 0) := by
        simp only [map_add, map_mul, specialize_formalAt, specialize_X, specialValue, map_sub]
        ring
      refine ⟨MvPolynomial.X Indeterminate.beta * formalAt (columnPolynomial domain m.a k) +
        MvPolynomial.X Indeterminate.alpha * formalAt (columnPolynomial domain m.b k) +
          formalAt (columnPolynomial domain m.c k), ?_, ?_, fun j _ _ => ?_⟩
      · simp only [map_add, map_mul, labelOf_formalAt, labelOf_X, labelValue]
        field_simp
      · rw [special, coeff_C_zero]
        exact linear
      · rw [special, coeff_C_of_ne_zero one_ne_zero, zero_mul]
        exact Submodule.zero_mem _
  | @hQueryWit pair active nonzero =>
      refine ⟨formalAt (quotientNumerator domain m pair.1 pair.2), ?_, ?_, fun j _ _ => ?_⟩
      · rw [labelOf_formalAt]
        field_simp
      · rw [specialize_formalAt, coeff_C_zero]
        exact Submodule.subset_span (Or.inr (Or.inr ⟨pair, active, rfl⟩))
      · rw [specialize_formalAt, coeff_C_of_ne_zero one_ne_zero, zero_mul]
        exact Submodule.zero_mem _

variable {rho}

/-- The specialization of an armed label is zero for the leg, a witness column of `B` or `delta`. -/
theorem ArmedLabel.formal {y : K} (armed : ArmedLabel waste domain rho m y) :
    ∃ Q : MvPolynomial Indeterminate F, labelOf waste rho Q = y ∧
      (specialize domain m Q = 0 ∨
        (∃ j, m.numInstanceVariables ≤ j ∧ j < m.numVars ∧
          specialize domain m Q = C (columnPolynomial domain m.b j)) ∨
        specialize domain m Q = X) := by
  cases armed with
  | leg =>
      refine ⟨MvPolynomial.X Indeterminate.rho *
        (MvPolynomial.X Indeterminate.beta + formalAt (columnPolynomial domain m.b 0)), ?_, Or.inl ?_⟩
      · simp only [map_mul, map_add, labelOf_formalAt, labelOf_X, labelValue]
      · simp only [map_mul, map_add, specialize_formalAt, specialize_X, specialValue]
        ring
  | @column j isWitness inside =>
      refine ⟨MvPolynomial.X Indeterminate.rho * formalAt (columnPolynomial domain m.b j), ?_,
        Or.inr (Or.inl ⟨j, isWitness, inside, ?_⟩)⟩
      · simp only [map_mul, labelOf_formalAt, labelOf_X, labelValue]
      · simp only [map_mul, specialize_formalAt, specialize_X, specialValue, one_mul]
  | delta =>
      refine ⟨MvPolynomial.X Indeterminate.rho * MvPolynomial.X Indeterminate.delta, ?_, Or.inr (Or.inr ?_)⟩
      · simp only [map_mul, labelOf_X, labelValue]
      · simp only [map_mul, specialize_X, specialValue, one_mul]

/-- Whatever is reached has a formal numerator whose part with one `delta` specializes to a combination of
handles. -/
theorem numerator_of_mem_publicSpan [DecidableEq K] (shape : OuterShape m) (deltaNonzero : waste.delta ≠ 0)
    {x : List F} {t : K} (reached : t ∈ publicSpan waste rho domain m x) :
    ∃ R : MvPolynomial Indeterminate F, labelOf waste rho R = waste.delta * t ∧
      (specialize domain m R).coeff 1 ∈ Submodule.span F (handles domain m) := by
  induction reached using Submodule.span_induction with
  | mem t member =>
      obtain ⟨g, gMember, y, yMember, rfl⟩ := member
      obtain ⟨P, pValue, constant, linear⟩ :=
        ((mem_g1Points waste domain).mp gMember).numerator rho deltaNonzero
      obtain ⟨Q, qValue, special⟩ := ((mem_armedPoints waste domain shape rho x).mp yMember).formal
      refine ⟨P * Q, ?_, ?_⟩
      · rw [map_mul, pValue, qValue, mul_assoc]
        rfl
      · rw [map_mul]
        rcases special with zero | ⟨j, isWitness, inside, column⟩ | delta
        · rw [zero, mul_zero, coeff_zero]
          exact Submodule.zero_mem _
        · rw [column, coeff_mul_C]
          exact linear j isWitness inside
        · rw [delta, coeff_mul_X]
          exact constant
  | zero => exact ⟨0, by simp, by simp⟩
  | add t t' _ _ left right =>
      obtain ⟨R, value, member⟩ := left
      obtain ⟨R', value', member'⟩ := right
      refine ⟨R + R', by rw [map_add, value, value', mul_add], ?_⟩
      rw [map_add, coeff_add]
      exact Submodule.add_mem _ member member'
  | smul c t _ inner =>
      obtain ⟨R, value, member⟩ := inner
      refine ⟨c • R, by rw [map_smul, value, mul_smul_comm], ?_⟩
      rw [map_smul, coeff_smul]
      exact Submodule.smul_mem _ c member

theorem Generic.delta_ne_zero (generic : Generic F waste rho) : waste.delta ≠ 0 := by
  intro zero
  have same : labelOf (F := F) waste rho (MvPolynomial.X Indeterminate.delta) = labelOf (F := F) waste rho 0 := by
    rw [labelOf_X, labelValue, zero, map_zero]
  exact MvPolynomial.X_ne_zero Indeterminate.delta (generic same)

/-- Over a generic trapdoor the values of polynomials in the evaluation point that are reached are those of
the combinations of handles. -/
theorem mem_publicSpan_iff [DecidableEq K] (shape : OuterShape m) (generic : Generic F waste rho)
    (x : List F) (p : F[X]) : rho * aeval waste.tau p ∈ publicSpan waste rho domain m x ↔
      p ∈ Submodule.span F (handles domain m) := by
  have deltaNonzero := generic.delta_ne_zero
  refine ⟨fun reached => ?_, mem_publicSpan_of_handles shape deltaNonzero x⟩
  obtain ⟨R, value, member⟩ := numerator_of_mem_publicSpan shape deltaNonzero reached
  have same : R = MvPolynomial.X Indeterminate.delta * (MvPolynomial.X Indeterminate.rho * formalAt p) := by
    apply generic
    rw [value]
    simp only [map_mul, labelOf_formalAt, labelOf_X, labelValue]
  rw [same] at member
  simpa [specialValue, coeff_X_mul] using member

end Formal

end Pvugc.Outer
