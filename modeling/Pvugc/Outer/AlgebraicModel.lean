import Pvugc.Groth16.BaseChange
import Pvugc.Outer.LeanKey
import Pvugc.Outer.SpanSeparation

namespace Pvugc.Groth16
open Pvugc.Algebra

section Over

variable {F : Type} [Field F] (K : Type) [Field K] [Algebra F K]

/-- A domain of the scalars, in a field of labels. -/
abbrev EvaluationDomain.over (domain : EvaluationDomain F) : EvaluationDomain K := domain.map (algebraMap F K)

/-- The matrices of a circuit, in a field of labels. -/
abbrev ConstraintMatrices.over (m : ConstraintMatrices F) : ConstraintMatrices K := m.map (algebraMap F K)

end Over

end Pvugc.Groth16

namespace Pvugc.Outer
open Pvugc.Algebra Pvugc.Groth16 Pvugc.OneSided Finset Polynomial

section BaseChange

variable {F K : Type} [Field F] [Field K] (f : F →+* K) (m : ConstraintMatrices F)

theorem occurringColumns_mapRows (numVars domainSize : ℕ) (rows : List (Row F)) :
    occurringColumns numVars domainSize (mapRows f rows) = occurringColumns numVars domainSize rows := by
  simp [occurringColumns, mapRows, ← List.map_take, List.any_map, Function.comp_def]

theorem omitConstWitCols_map (domainSize : ℕ) :
    omitConstWitCols (m.map f) domainSize = omitConstWitCols m domainSize := by
  have rows (pubCol : ℕ) : cRows (m.map f) domainSize pubCol = cRows m domainSize pubCol := by
    simp only [cRows, ConstraintMatrices.map, mapRows_getD, List.any_map, Function.comp_def]
    simp [mapRows]
  have columns (row : ℕ) : bWitCols (m.map f) row = bWitCols m row := by
    simp only [bWitCols, ConstraintMatrices.map, mapRows_getD, List.filterMap_map, Function.comp_def]
    rfl
  simp only [omitConstWitCols, rows, columns]
  rfl

/-- The published pairs only depend on the columns of the entries. -/
theorem activePairs_map (domainSize : ℕ) : activePairs (m.map f) domainSize = activePairs m domainSize := by
  rw [activePairs, omitConstWitCols_map, activePairs]
  simp only [ConstraintMatrices.map, occurringColumns_mapRows]
  rfl

variable {m}

/-- The outer shape over an extension of the field. -/
def OuterShape.map (shape : OuterShape m) : OuterShape (m.map f) where
  bindRow := shape.bindRow
  xWit := shape.xWit
  bindRow_lt := shape.bindRow_lt
  aRow k positive inside := by
    change (mapRows f m.a).getD _ [] = _
    rw [mapRows_getD, shape.aRow k positive inside]
    simp
  bRow k positive inside := by
    change (mapRows f m.b).getD _ [] = _
    rw [mapRows_getD, shape.bRow k positive inside]
    simp
  cRow k positive inside := by
    change (mapRows f m.c).getD _ [] = _
    rw [mapRows_getD, shape.cRow k positive inside]
    simp
  xWit_witness := shape.xWit_witness
  xWit_injective := shape.xWit_injective
  a_free i term member := by
    change term ∈ (mapRows f m.a).getD i [] at member
    rw [mapRows_getD] at member
    obtain ⟨source, sourceMember, rfl⟩ := List.mem_map.mp member
    exact shape.a_free i source sourceMember
  b_free i term member := by
    change term ∈ (mapRows f m.b).getD i [] at member
    rw [mapRows_getD] at member
    obtain ⟨source, sourceMember, rfl⟩ := List.mem_map.mp member
    exact shape.b_free i source sourceMember
  c_free i term member := by
    change term ∈ (mapRows f m.c).getD i [] at member
    rw [mapRows_getD] at member
    obtain ⟨source, sourceMember, rfl⟩ := List.mem_map.mp member
    exact shape.c_free i source sourceMember

end BaseChange

section Published

/-- The points of the first group that a lean key publishes. -/
def LeanProvingKey.g1Points {G1 G2 : Type} (pk : LeanProvingKey G1 G2) : Set G1 :=
  {g | g = pk.vk.alphaG1 ∨ g = pk.betaG1 ∨ g = pk.deltaG1 ∨ g ∈ pk.aQueryWit ∨ g ∈ pk.bG1Query ∨
    g ∈ pk.lQuery ∨ ∃ base ∈ pk.hQueryWit, g = base.2.2}

/-- The points of the second group that an arming publishes. -/
def armedPoints {G2 : Type} (arms : ColumnArms G2) : Set G2 := {y | y ∈ arms.yColsRho ∨ y = arms.deltaRho}

/-- What public pairings of a lean key with an arming reach. -/
def reachable (F : Type) {S G1 G2 GT : Type} [Field F] [Field S] [AddCommGroup G1] [Module S G1]
    [AddCommGroup G2] [Module S G2] [AddCommGroup GT] [Module S GT] [Module F GT] (e : Pairing S G1 G2 GT)
    (pk : LeanProvingKey G1 G2) (arms : ColumnArms G2) : Submodule F GT :=
  Submodule.span F {t | ∃ g ∈ pk.g1Points, ∃ y ∈ armedPoints arms, t = e.pairing g y}

end Published

section Model

variable {F : Type} [Field F] (domain : EvaluationDomain F) (m : ConstraintMatrices F)

/-- The polynomials in the evaluation point that public pairings reach. -/
def handles : Set F[X] :=
  {p | (∃ k j, k < m.numVars ∧ m.numInstanceVariables ≤ j ∧ j < m.numVars ∧
      (p = columnPolynomial domain m.a k * columnPolynomial domain m.b j ∨
        p = columnPolynomial domain m.b k * columnPolynomial domain m.b j)) ∨
    (∃ k, m.numInstanceVariables ≤ k ∧ k < m.numVars ∧ p = columnPolynomial domain m.c k -
      columnPolynomial domain m.a k * columnPolynomial domain m.b 0) ∨
    ∃ pair ∈ activePairs m domain.size, p = quotientNumerator domain m pair.1 pair.2}

variable {m}

/-- What a statement leaves open on a row: its part of `C` without the product of the constant column of
`A` with the columns of `B` that carry the statement. -/
def residualRow (shape : OuterShape m) (x : ℕ → F) (row : ℕ) : F :=
  ∑ k ∈ range m.numInstanceVariables, x k *
    (entry m.c row k - entry m.a row 0 * entry m.b row (if k = 0 then 0 else shape.xWit k))

noncomputable def residual (shape : OuterShape m) (x : ℕ → F) : F[X] :=
  interpolant domain.groupGen domain.size (residualRow shape x)

end Model

section Labels

variable {F K : Type} [Field F] [Field K] [Algebra F K] (waste : Trapdoor K) (domain : EvaluationDomain F)
variable (m : ConstraintMatrices F)

theorem u_over (k : ℕ) : waste.u (domain.over K) (m.over K) k =
    aeval waste.tau (columnPolynomial domain m.a k) :=
  columnValue_mapRows domain m.a waste.tau k

theorem v_over (k : ℕ) : waste.v (domain.over K) (m.over K) k =
    aeval waste.tau (columnPolynomial domain m.b k) :=
  columnValue_mapRows domain m.b waste.tau k

theorem w_over (k : ℕ) : waste.w (domain.over K) (m.over K) k =
    aeval waste.tau (columnPolynomial domain m.c k) :=
  columnValue_mapRows domain m.c waste.tau k

theorem overlap_over (i j : ℕ) : waste.overlap (domain.over K) (m.over K) i j =
    aeval waste.tau (interpolant domain.groupGen domain.size fun k => entry m.a k i * entry m.b k j) := by
  rw [aeval_interpolant, Trapdoor.overlap]
  apply sum_congr rfl
  intro k _
  rw [map_mul, ← entry_mapRows, ← entry_mapRows]
  rfl

/-- A published quotient base is the value of the numerator, over `delta`. -/
theorem quotientBase_over (i j : ℕ) : waste.quotientBase (domain.over K) (m.over K) (1 : K) i j =
    aeval waste.tau (quotientNumerator domain m i j) * waste.delta⁻¹ := by
  rw [Trapdoor.quotientBase, u_over, v_over, overlap_over, quotientNumerator, map_sub, map_mul, smul_eq_mul,
    mul_one]

variable {m}

/-- The armed bases of a statement. -/
def armedBases (rho : K) (m : ConstraintMatrices F) (x : List F) : ColumnArms K where
  yColsRho :=
    (waste.columnBases (domain.over K) (m.over K) (1 : K) (x.map (algebraMap F K))).yCols.map (rho • ·)
  deltaRho := rho • (waste.columnBases (domain.over K) (m.over K) (1 : K) (x.map (algebraMap F K))).delta

/-- The armed bases are what arming makes of the column bases. -/
theorem armColumns_columnBases [DecidableEq K] {rho : K} (rhoNonzero : rho ≠ 0)
    (deltaNonzero : waste.delta ≠ 0) (x : List F) :
    armColumns (waste.columnBases (domain.over K) (m.over K) (1 : K) (x.map (algebraMap F K))) rho =
      .ok (armedBases waste domain rho m x) :=
  armColumns_eq_ok.mpr ⟨rhoNonzero, by simpa [Trapdoor.columnBases] using deltaNonzero, rfl⟩

theorem statementOf_map (x : List F) (k : ℕ) :
    statementOf (x.map (algebraMap F K)) k = algebraMap F K (statementOf x k) := by
  rw [statementOf, statementOf, ← List.getD_map (f := algebraMap F K)]
  simp

/-- The labels of the published points of the first group. -/
inductive PublishedLabel (m : ConstraintMatrices F) : K → Prop
  | alpha : PublishedLabel m waste.alpha
  | beta : PublishedLabel m waste.beta
  | delta : PublishedLabel m waste.delta
  | aQuery {k : ℕ} (inside : k < m.numVars) :
      PublishedLabel m (aeval waste.tau (columnPolynomial domain m.a k))
  | bG1Query {k : ℕ} (inside : k < m.numVars) :
      PublishedLabel m (aeval waste.tau (columnPolynomial domain m.b k))
  | lQuery {k : ℕ} (isWitness : m.numInstanceVariables ≤ k) (inside : k < m.numVars) :
      PublishedLabel m ((waste.beta * aeval waste.tau (columnPolynomial domain m.a k) +
        waste.alpha * aeval waste.tau (columnPolynomial domain m.b k) +
          aeval waste.tau (columnPolynomial domain m.c k)) * waste.delta⁻¹)
  | hQueryWit {pair : ℕ × ℕ} (active : pair ∈ activePairs m domain.size)
      (nonzero : aeval waste.tau (quotientNumerator domain m pair.1 pair.2) * waste.delta⁻¹ ≠ 0) :
      PublishedLabel m (aeval waste.tau (quotientNumerator domain m pair.1 pair.2) * waste.delta⁻¹)

/-- The labels of the armed points of an outer-shaped circuit. -/
inductive ArmedLabel (rho : K) (m : ConstraintMatrices F) : K → Prop
  | leg : ArmedLabel rho m (rho * (waste.beta + aeval waste.tau (columnPolynomial domain m.b 0)))
  | column {j : ℕ} (isWitness : m.numInstanceVariables ≤ j) (inside : j < m.numVars) :
      ArmedLabel rho m (rho * aeval waste.tau (columnPolynomial domain m.b j))
  | delta : ArmedLabel rho m (rho * waste.delta)

theorem mem_armedPoints (shape : OuterShape m) (rho : K) (x : List F) {y : K} :
    y ∈ armedPoints (armedBases waste domain rho m x) ↔ ArmedLabel waste domain rho m y := by
  have leg : ∑ k ∈ range (m.over K).numInstanceVariables, statementOf (x.map (algebraMap F K)) k *
      waste.v (domain.over K) (m.over K) k = waste.v (domain.over K) (m.over K) 0 :=
    publicLeg_eq (shape.map (algebraMap F K)) (x.map (algebraMap F K))
  have points : y ∈ armedPoints (armedBases waste domain rho m x) ↔
      y = rho * (waste.beta + aeval waste.tau (columnPolynomial domain m.b 0)) ∨
      (∃ k < m.numWitnessVariables,
        y = rho * aeval waste.tau (columnPolynomial domain m.b (m.numInstanceVariables + k))) ∨
      y = rho * waste.delta := by
    simp only [armedPoints, armedBases, Trapdoor.columnBases]
    rw [leg]
    simp only [Set.mem_ofPred_eq, List.map_cons, List.mem_cons, tabulate_map, mem_tabulate, v_over,
      Function.comp_apply, smul_eq_mul, mul_one, or_assoc]
    rfl
  rw [points]
  constructor
  · rintro (rfl | ⟨k, inside, rfl⟩ | rfl)
    · exact .leg
    · exact .column (Nat.le_add_right _ _) (Nat.add_lt_add_left inside _)
    · exact .delta
  · rintro (_ | @⟨j, isWitness, inside⟩ | _)
    · exact Or.inl rfl
    · refine Or.inr (Or.inl ⟨j - m.numInstanceVariables, Nat.sub_lt_left_of_lt_add isWitness inside, ?_⟩)
      rw [Nat.add_sub_cancel' isWitness]
    · exact Or.inr (Or.inr rfl)

theorem mem_g1Points [DecidableEq K] {g : K} :
    g ∈ (leanProvingKey (waste.provingKey (domain.over K) (m.over K) (1 : K) (1 : K))
        (waste.publishedBases (domain.over K) (m.over K) (1 : K))).g1Points ↔
      PublishedLabel waste domain m g := by
  have quotients : (∃ base ∈ waste.publishedBases (domain.over K) (m.over K) (1 : K), g = base.2.2) ↔
      ∃ pair ∈ activePairs m domain.size,
        g = aeval waste.tau (quotientNumerator domain m pair.1 pair.2) * waste.delta⁻¹ ∧ g ≠ 0 := by
    simp only [Trapdoor.publishedBases, EvaluationDomain.map_size, activePairs_map, List.mem_filterMap,
      ← quotientBase_over]
    constructor
    · rintro ⟨base, ⟨pair, active, located⟩, rfl⟩
      split at located
      case isTrue => cases located
      case isFalse nonzero =>
        cases located
        exact ⟨pair, active, rfl, nonzero⟩
    · rintro ⟨pair, active, rfl, nonzero⟩
      exact ⟨_, ⟨pair, active, if_neg nonzero⟩, rfl⟩
  have points : g ∈ (leanProvingKey (waste.provingKey (domain.over K) (m.over K) (1 : K) (1 : K))
        (waste.publishedBases (domain.over K) (m.over K) (1 : K))).g1Points ↔
      g = waste.alpha ∨ g = waste.beta ∨ g = waste.delta ∨
      (∃ k < m.numVars, g = aeval waste.tau (columnPolynomial domain m.a k)) ∨
      (∃ k < m.numVars, g = aeval waste.tau (columnPolynomial domain m.b k)) ∨
      (∃ k < m.numWitnessVariables, g = (waste.beta *
        aeval waste.tau (columnPolynomial domain m.a (m.numInstanceVariables + k)) + waste.alpha *
          aeval waste.tau (columnPolynomial domain m.b (m.numInstanceVariables + k)) +
            aeval waste.tau (columnPolynomial domain m.c (m.numInstanceVariables + k))) * waste.delta⁻¹) ∨
      ∃ pair ∈ activePairs m domain.size,
        g = aeval waste.tau (quotientNumerator domain m pair.1 pair.2) * waste.delta⁻¹ ∧ g ≠ 0 := by
    simp only [LeanProvingKey.g1Points, leanProvingKey, Trapdoor.provingKey, Set.mem_ofPred_eq, quotients,
      mem_tabulate, Trapdoor.column, u_over, v_over, w_over, smul_eq_mul, mul_one]
    rfl
  rw [points]
  constructor
  · rintro (rfl | rfl | rfl | ⟨k, inside, rfl⟩ | ⟨k, inside, rfl⟩ | ⟨k, inside, rfl⟩ |
      ⟨pair, active, rfl, nonzero⟩)
    · exact .alpha
    · exact .beta
    · exact .delta
    · exact .aQuery inside
    · exact .bG1Query inside
    · exact .lQuery (Nat.le_add_right _ _) (Nat.add_lt_add_left inside _)
    · exact .hQueryWit active nonzero
  · rintro (_ | _ | _ | @⟨k, inside⟩ | @⟨k, inside⟩ | @⟨k, isWitness, inside⟩ | @⟨pair, active, nonzero⟩)
    · exact Or.inl rfl
    · exact Or.inr (Or.inl rfl)
    · exact Or.inr (Or.inr (Or.inl rfl))
    · exact Or.inr (Or.inr (Or.inr (Or.inl ⟨k, inside, rfl⟩)))
    · exact Or.inr (Or.inr (Or.inr (Or.inr (Or.inl ⟨k, inside, rfl⟩))))
    · refine Or.inr (Or.inr (Or.inr (Or.inr (Or.inr (Or.inl
        ⟨k - m.numInstanceVariables, Nat.sub_lt_left_of_lt_add isWitness inside, ?_⟩)))))
      rw [Nat.add_sub_cancel' isWitness]
    · exact Or.inr (Or.inr (Or.inr (Or.inr (Or.inr (Or.inr ⟨pair, active, rfl, nonzero⟩)))))

end Labels

end Pvugc.Outer
