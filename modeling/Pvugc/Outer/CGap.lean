import Pvugc.Outer.LeanProver
import Pvugc.Outer.QuotientBases

namespace Pvugc.Outer
open Pvugc.Algebra Pvugc.Groth16 Finset

section Pairs

variable {F : Type} {m : ConstraintMatrices F} {domainSize : ℕ}

theorem mem_occurringColumns {numVars : ℕ} {rows : List (Row F)} {k : ℕ} :
    k ∈ occurringColumns numVars domainSize rows ↔
      k < numVars ∧ ∃ row ∈ rows.take domainSize, ∃ term ∈ row, term.2 = k := by
  simp [occurringColumns]

theorem mem_activePairs {pair : ℕ × ℕ} : pair ∈ activePairs m domainSize ↔
    pair.1 ∈ occurringColumns m.numVars domainSize m.a ∧
      pair.2 ∈ occurringColumns m.numVars domainSize m.b ∧
        ¬(pair.1 < m.numInstanceVariables ∧ pair.2 < m.numInstanceVariables) ∧
          ¬(pair.1 = 0 ∧ pair.2 ∈ omitConstWitCols m domainSize) := by
  obtain ⟨i, j⟩ := pair
  rw [activePairs, List.mem_filter, List.pair_mem_product]
  simp only [Bool.and_eq_true, Bool.not_eq_eq_eq_not, Bool.not_true, Bool.and_eq_false_iff,
    decide_eq_false_iff_not, beq_eq_false_iff_ne, and_assoc]
  tauto

theorem activePairs_nodup : (activePairs m domainSize).Nodup :=
  ((List.nodup_range.filter _).product (List.nodup_range.filter _)).filter _

/-- An omitted column is a witness column. -/
theorem omitConstWitCols_bounds {col : ℕ} (member : col ∈ omitConstWitCols m domainSize) :
    m.numInstanceVariables ≤ col ∧ col < m.numVars := by
  obtain ⟨pubCol, -, rowMember⟩ := List.mem_flatMap.mp (List.mem_toFinset.mp member)
  obtain ⟨row, -, single⟩ := List.mem_filterMap.mp rowMember
  have isWitCol : col ∈ bWitCols m row := by
    split at single
    case h_1 only cols => rw [cols, ← Option.some.inj single]; simp
    case h_2 => cases single
  obtain ⟨term, termMember, chosen⟩ := List.mem_filterMap.mp isWitCol
  split at chosen
  case isTrue isWitness =>
    cases chosen
    refine ⟨isWitness, ?_⟩
    rw [List.getD_eq_getElem?_getD] at termMember
    cases located : m.b[row]? with
    | none => simp [located] at termMember
    | some terms =>
        rw [located, Option.getD_some] at termMember
        exact m.bColumns terms (List.mem_of_getElem? located) term termMember
  case isFalse => cases chosen

theorem entry_eq_zero_of_not_occurring [Field F] {numVars : ℕ} {rows : List (Row F)} {k i : ℕ}
    (inside : k < numVars) (row : i < domainSize) (absent : k ∉ occurringColumns numVars domainSize rows) :
    entry rows i k = 0 := by
  apply rowCoeff_eq_zero
  intro term member same
  apply absent
  rw [mem_occurringColumns]
  refine ⟨inside, rows.getD i [], ?_, term, member, same⟩
  rw [List.getD_eq_getElem?_getD] at member ⊢
  cases located : rows[i]? with
  | none => simp [located] at member
  | some terms =>
      rw [Option.getD_some]
      apply List.mem_of_getElem? (i := i)
      rw [List.getElem?_take, if_pos row, located]

end Pairs

end Pvugc.Outer

namespace Pvugc.Groth16.Trapdoor
open Pvugc.Algebra Pvugc.Outer Finset

variable {F G1 G2 : Type} [Field F] [AddCommGroup G1] [Module F G1] [AddCommGroup G2] [Module F G2]
variable (waste : Trapdoor F) (domain : EvaluationDomain F) {m : ConstraintMatrices F}

/-- A quotient base is zero when one of its columns has no entry. -/
theorem quotientBase_eq_zero (g1 : G1) {i j : ℕ}
    (absent : (∀ k < domain.size, entry m.a k i = 0) ∨ ∀ k < domain.size, entry m.b k j = 0) :
    waste.quotientBase domain m g1 i j = 0 := by
  have zero : waste.u domain m i * waste.v domain m j = 0 ∧ waste.overlap domain m i j = 0 := by
    rcases absent with absentA | absentB
    · have column : waste.u domain m i = 0 := by
        rw [u, columnValue]
        apply sum_eq_zero
        intro k member
        rw [absentA k (mem_range.mp member), zero_mul]
      refine ⟨by rw [column, zero_mul], ?_⟩
      apply sum_eq_zero
      intro k member
      rw [absentA k (mem_range.mp member), zero_mul, zero_mul]
    · have column : waste.v domain m j = 0 := by
        rw [v, columnValue]
        apply sum_eq_zero
        intro k member
        rw [absentB k (mem_range.mp member), zero_mul]
      refine ⟨by rw [column, mul_zero], ?_⟩
      apply sum_eq_zero
      intro k member
      rw [absentB k (mem_range.mp member), mul_zero, zero_mul]
  rw [quotientBase, zero.1, zero.2, sub_zero, zero_mul, zero_smul]

/-- The quotient of a satisfied system is the quadratic sum of the quotient bases. -/
theorem quotientScalar_eq [DecidableEq F] (g1 : G1) {z : Assignment m} (satisfied : z.Satisfies) :
    waste.quotientScalar domain z • g1 =
      ∑ pair ∈ range m.numVars ×ˢ range m.numVars,
        (z.value pair.1 * z.value pair.2) • waste.quotientBase domain m g1 pair.1 pair.2 := by
  have overlaps : z.linear (waste.w domain m) = ∑ pair ∈ range m.numVars ×ˢ range m.numVars,
      z.value pair.1 * z.value pair.2 * waste.overlap domain m pair.1 pair.2 := by
    change z.linear (columnValue domain m.c waste.tau) = _
    rw [z.linear_columnValue]
    simp only [overlap, mul_sum]
    rw [sum_comm]
    apply sum_congr rfl
    intro k _
    rw [← satisfied.rows k, Assignment.rowValue, Assignment.rowValue, sum_mul_sum, sum_mul, sum_product]
    apply sum_congr rfl
    intro i _
    rw [sum_mul]
    apply sum_congr rfl
    intro j _
    ring
  have products : z.linear (waste.u domain m) * z.linear (waste.v domain m) =
      ∑ pair ∈ range m.numVars ×ˢ range m.numVars,
        z.value pair.1 * z.value pair.2 * (waste.u domain m pair.1 * waste.v domain m pair.2) := by
    rw [Assignment.linear, Assignment.linear, sum_mul_sum, sum_product]
    apply sum_congr rfl
    intro i _
    apply sum_congr rfl
    intro j _
    ring
  rw [quotientScalar, overlaps, products, ← sum_sub_distrib, sum_mul, sum_smul]
  apply sum_congr rfl
  intro pair _
  rw [quotientBase, smul_smul]
  congr 1
  ring

variable [DecidableEq G1]

/-- The lean prover's sum reads the assignment at the stored indices of the active pairs. -/
theorem quadraticSum_publishedBases (g1 : G1) (z : Assignment m) :
    quadraticSum (waste.publishedBases domain m g1) z =
      ∑ pair ∈ (activePairs m domain.size).toFinset,
        (z.value (UInt32.ofNat pair.1).toNat * z.value (UInt32.ofNat pair.2).toNat) •
          waste.quotientBase domain m g1 pair.1 pair.2 := by
  rw [List.sum_toFinset _ activePairs_nodup, publishedBases]
  induction activePairs m domain.size with
  | nil => rfl
  | cons pair rest ih =>
      simp only [quadraticSum, List.filterMap_cons, List.map_cons, List.sum_cons] at ih ⊢
      rw [← ih]
      by_cases zero : waste.quotientBase domain m g1 pair.1 pair.2 = 0
      · simp [zero]
      · simp [zero]

/-- Below the 32-bit limit the sum leaves out the pairs of instance columns and the omitted pairs. -/
theorem quotient_sub_quadraticSum [DecidableEq F] (g1 : G1) {z : Assignment m}
    (satisfied : z.Satisfies) (fits : m.numVars ≤ 2 ^ 32) :
    waste.quotientScalar domain z • g1 - quadraticSum (waste.publishedBases domain m g1) z =
      ∑ i ∈ range m.numInstanceVariables, ∑ j ∈ range m.numInstanceVariables,
        (z.value i * z.value j) • waste.quotientBase domain m g1 i j +
      ∑ j ∈ omitConstWitCols m domain.size,
        (z.value 0 * z.value j) • waste.quotientBase domain m g1 0 j := by
  set term : ℕ × ℕ → G1 := fun pair =>
    (z.value pair.1 * z.value pair.2) • waste.quotientBase domain m g1 pair.1 pair.2 with hterm
  set columns := range m.numVars ×ˢ range m.numVars with hcolumns
  have stored : quadraticSum (waste.publishedBases domain m g1) z =
      ∑ pair ∈ columns, if pair ∈ activePairs m domain.size then term pair else 0 := by
    have activeColumns : (activePairs m domain.size).toFinset =
        columns.filter (· ∈ activePairs m domain.size) := by
      ext pair
      simp only [List.mem_toFinset, mem_filter, hcolumns, mem_product, mem_range]
      exact ⟨fun member => ⟨activePairs_lt member, member⟩, fun member => member.2⟩
    rw [quadraticSum_publishedBases, activeColumns, sum_filter]
    apply sum_congr rfl
    intro pair member
    obtain ⟨left, right⟩ := mem_product.mp member
    have leftFits := (mem_range.mp left).trans_le fits
    have rightFits := (mem_range.mp right).trans_le fits
    rw [UInt32.toNat_ofNat_of_lt' leftFits, UInt32.toNat_ofNat_of_lt' rightFits]
  have classified : ∀ pair ∈ columns,
      (term pair - if pair ∈ activePairs m domain.size then term pair else 0) =
        (if pair ∈ range m.numInstanceVariables ×ˢ range m.numInstanceVariables then term pair else 0) +
          if pair ∈ {0} ×ˢ omitConstWitCols m domain.size then term pair else 0 := by
    intro pair member
    obtain ⟨left, right⟩ := mem_product.mp member
    have leftInside := mem_range.mp left
    have rightInside := mem_range.mp right
    simp only [mem_product, mem_range, mem_singleton]
    by_cases bothPublic : pair.1 < m.numInstanceVariables ∧ pair.2 < m.numInstanceVariables
    · have notOmitted : ¬(pair.1 = 0 ∧ pair.2 ∈ omitConstWitCols m domain.size) := fun omitted =>
        absurd (omitConstWitCols_bounds omitted.2).1 (Nat.not_le_of_lt bothPublic.2)
      have inactive : pair ∉ activePairs m domain.size := fun active =>
        (mem_activePairs.mp active).2.2.1 bothPublic
      rw [if_neg inactive, if_pos bothPublic, if_neg notOmitted, sub_zero, add_zero]
    · rw [if_neg bothPublic, zero_add]
      by_cases omitted : pair.1 = 0 ∧ pair.2 ∈ omitConstWitCols m domain.size
      · have inactive : pair ∉ activePairs m domain.size := fun active =>
          (mem_activePairs.mp active).2.2.2 omitted
        rw [if_neg inactive, if_pos omitted, sub_zero]
      · rw [if_neg omitted]
        by_cases active : pair ∈ activePairs m domain.size
        · rw [if_pos active, sub_self]
        · have absent : pair.1 ∉ occurringColumns m.numVars domain.size m.a ∨
              pair.2 ∉ occurringColumns m.numVars domain.size m.b := by
            by_contra both
            rw [not_or, not_not, not_not] at both
            exact active (mem_activePairs.mpr ⟨both.1, both.2, bothPublic, omitted⟩)
          have zero : waste.quotientBase domain m g1 pair.1 pair.2 = 0 := by
            apply waste.quotientBase_eq_zero
            exact absent.imp
              (fun absentA k row => entry_eq_zero_of_not_occurring leftInside row absentA)
              (fun absentB k row => entry_eq_zero_of_not_occurring rightInside row absentB)
          rw [if_neg active, sub_zero, hterm]
          simp only [zero, smul_zero]
  have instanceColumns : range m.numInstanceVariables ×ˢ range m.numInstanceVariables ⊆ columns :=
    product_subset_product (range_subset_range.mpr (Nat.le_add_right _ _))
      (range_subset_range.mpr (Nat.le_add_right _ _))
  have omittedColumns : {0} ×ˢ omitConstWitCols m domain.size ⊆ columns := by
    intro pair member
    obtain ⟨left, right⟩ := mem_product.mp member
    have bounds := omitConstWitCols_bounds right
    have zero := mem_singleton.mp left
    exact mem_product.mpr ⟨mem_range.mpr (by omega), mem_range.mpr bounds.2⟩
  rw [waste.quotientScalar_eq domain g1 satisfied, stored, ← sum_sub_distrib,
    sum_congr rfl classified, sum_add_distrib, sum_ite_mem, sum_ite_mem,
    inter_eq_right.mpr instanceColumns, inter_eq_right.mpr omittedColumns, sum_product, sum_product,
    sum_singleton]

end Pvugc.Groth16.Trapdoor
