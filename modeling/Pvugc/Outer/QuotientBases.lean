import Pvugc.Algebra.Quotient
import Pvugc.Outer.WitnessBases

namespace Pvugc.Outer
open Pvugc.Algebra Pvugc.Groth16 Finset

section Columns

variable {F M : Type}

theorem pushTerms_length (columns : List (List (ℕ × F))) (row : ℕ) (terms : Row F) :
    (pushTerms columns row terms).length = columns.length := by
  induction terms generalizing columns with
  | nil => rfl
  | cons term rest ih =>
      rw [pushTerms, List.foldl_cons, ← pushTerms, ih, List.length_modify]

theorem pushTerms_rows (columns : List (List (ℕ × F))) (row : ℕ) (terms : Row F) (bound : ℕ)
    (inside : row < bound) (below : ∀ column ∈ columns, ∀ entry ∈ column, entry.1 < bound) :
    ∀ column ∈ pushTerms columns row terms, ∀ entry ∈ column, entry.1 < bound := by
  induction terms generalizing columns with
  | nil => exact below
  | cons term rest ih =>
      rw [pushTerms, List.foldl_cons, ← pushTerms]
      apply ih
      intro column member entry entryMember
      obtain ⟨i, hi, located⟩ := List.getElem_of_mem member
      rw [List.getElem_modify] at located
      split at located
      case isTrue =>
        subst located
        rcases List.mem_append.mp entryMember with earlier | added
        · exact below _ (List.getElem_mem _) entry earlier
        · rw [List.mem_singleton.mp added]
          exact inside
      case isFalse =>
        subst located
        exact below _ (List.getElem_mem _) entry entryMember

theorem columnRows_lt {columns : List (List (ℕ × F))} {bound k : ℕ}
    (below : ∀ column ∈ columns, ∀ entry ∈ column, entry.1 < bound) :
    ∀ entry ∈ columns.getD k [], entry.1 < bound := by
  intro entry member
  rw [List.getD_eq_getElem?_getD] at member
  cases located : columns[k]? with
  | none => simp [located] at member
  | some column =>
      rw [located, Option.getD_some] at member
      exact below column (List.mem_of_getElem? located) entry member

theorem activePairs_lt {m : ConstraintMatrices F} {domainSize : ℕ} {pair : ℕ × ℕ}
    (member : pair ∈ activePairs m domainSize) : pair.1 < m.numVars ∧ pair.2 < m.numVars := by
  obtain ⟨product, -⟩ := List.mem_filter.mp member
  obtain ⟨left, right⟩ := List.mem_product.mp product
  exact ⟨List.mem_range.mp (List.mem_filter.mp left).1, List.mem_range.mp (List.mem_filter.mp right).1⟩

variable [Field F] [AddCommGroup M] [Module F M]

/-- The sum of a column's entries against a sequence of row values. -/
def columnSum (terms : List (ℕ × F)) (φ : ℕ → M) : M := (terms.map fun term => term.2 • φ term.1).sum

theorem columnSum_pushTerms (columns : List (List (ℕ × F))) (row : ℕ) (terms : Row F) {k : ℕ}
    (inside : k < columns.length) (φ : ℕ → M) :
    columnSum ((pushTerms columns row terms).getD k []) φ =
      columnSum (columns.getD k []) φ + rowCoeff terms k • φ row := by
  induction terms generalizing columns with
  | nil => simp [pushTerms]
  | cons term rest ih =>
      rw [pushTerms, List.foldl_cons, ← pushTerms, ih _ (by rw [List.length_modify]; exact inside),
        rowCoeff_cons, add_smul, ← add_assoc]
      congr 1
      rw [List.getD_eq_getElem?_getD, List.getElem?_modify, List.getD_eq_getElem?_getD,
        List.getElem?_eq_getElem inside]
      by_cases same : term.2 = k
      · simp [same, columnSum]
      · simp [same]

/-- The collected columns hold the net entries of the matrix, on rows of the domain. -/
theorem collectColumns_spec (numVars domainSize : ℕ) (rows : List (Row F)) :
    (∀ column ∈ collectColumns numVars domainSize rows, ∀ entry ∈ column, entry.1 < domainSize) ∧
      ∀ k < numVars, rows.length ≤ domainSize → ∀ φ : ℕ → M,
        columnSum ((collectColumns numVars domainSize rows).getD k []) φ =
          ∑ i ∈ range domainSize, entry rows i k • φ i := by
  constructor
  · have invariant := foldl_value (M := ℕ)
      (fun columns entry => if entry.2 < domainSize then pushTerms columns entry.2 entry.1 else columns)
      (fun columns : List (List (ℕ × F)) => ∀ column ∈ columns, ∀ entry ∈ column, entry.1 < domainSize)
      (fun _ => 0) (fun _ => 0) rows.zipIdx
      (by
        intro columns below entry _
        refine ⟨?_, rfl⟩
        split
        case isTrue inside => exact pushTerms_rows columns entry.2 entry.1 domainSize inside below
        case isFalse => exact below)
      (List.replicate numVars []) (by
        intro column member entry entryMember
        rw [List.eq_of_mem_replicate member] at entryMember
        cases entryMember)
    exact invariant.1
  · intro k inside fits φ
    have loop := foldl_value
      (fun columns entry => if entry.2 < domainSize then pushTerms columns entry.2 entry.1 else columns)
      (fun columns : List (List (ℕ × F)) => columns.length = numVars)
      (fun columns => columnSum (columns.getD k []) φ)
      (fun entry => rowCoeff entry.1 k • φ entry.2) rows.zipIdx
      (by
        intro columns length entry member
        have bound : entry.2 < domainSize := by
          have located := List.mem_zipIdx_iff_getElem?.mp member
          have short := (List.getElem?_eq_some_iff.mp located).1
          omega
        rw [if_pos bound]
        exact ⟨by rw [pushTerms_length, length],
          columnSum_pushTerms columns entry.2 entry.1 (by rw [length]; exact inside) φ⟩)
      (List.replicate numVars []) (by simp)
    have empty : columnSum ((List.replicate numVars ([] : List (ℕ × F))).getD k []) φ = 0 := by
      rw [List.getD_replicate _ inside]
      rfl
    have entries : (rows.zipIdx.map fun entry => rowCoeff entry.1 k • φ entry.2).sum =
        ∑ i ∈ range rows.length, entry rows i k • φ i := by
      rw [← tabulate_sum]
      congr 1
      apply List.ext_getElem?
      intro i
      rw [List.getElem?_map, tabulate_getElem?, List.getElem?_zipIdx]
      by_cases short : i < rows.length
      · simp [short, entry]
      · simp [short]
    rw [collectColumns, loop.2, empty, zero_add, entries]
    apply sum_subset (range_subset_range.mpr fits)
    intro i _ outside
    rw [entry_eq_zero_of_length_le (by simpa using outside), zero_smul]

end Columns

section Accumulators

variable {F G : Type} [Field F] [AddCommGroup G] [Module F G]

/-- The value of a row of accumulators against a table of bases. -/
def weigh (rows : List (ℕ × F)) (acc : List F) (bases : ℕ → G) : G :=
  (List.zipWith (fun row (scalar : F) => scalar • bases row.1) rows acc).sum

theorem weigh_modify {rows : List (ℕ × F)} {acc : List F} {idx : ℕ} {row : ℕ × F}
    (located : rows[idx]? = some row) (length : acc.length = rows.length) (x : F) (bases : ℕ → G) :
    weigh rows (acc.modify idx (· + x)) bases = weigh rows acc bases + x • bases row.1 := by
  induction rows generalizing acc idx with
  | nil => simp at located
  | cons head rest ih =>
      cases acc with
      | nil => simp at length
      | cons scalar acc =>
          cases idx with
          | zero =>
              have same : head = row := by simpa using located
              subst same
              simp only [weigh, List.modify_zero_cons, List.zipWith_cons_cons, List.sum_cons]
              module
          | succ idx =>
              have tail : weigh rest (acc.modify idx (· + x)) bases =
                  weigh rest acc bases + x • bases row.1 :=
                ih (by simpa using located) (by simpa using length)
              simp only [weigh, List.modify_succ_cons, List.zipWith_cons_cons, List.sum_cons] at tail ⊢
              rw [tail, add_assoc]

theorem weigh_zero (rows : List (ℕ × F)) (bases : ℕ → G) :
    weigh rows (List.replicate rows.length 0) bases = 0 := by
  induction rows with
  | nil => rfl
  | cons head rest ih =>
      simp only [weigh, List.length_cons, List.replicate_succ, List.zipWith_cons_cons, List.sum_cons,
        zero_smul, zero_add] at ih ⊢
      exact ih

/-- The group element that one pair of entries adds to the accumulators. -/
def contribution (domain : EvaluationDomain F) (inv : List F) (bases diagonals : ℕ → G)
    (left right : ℕ × F) : G :=
  if left.1 = right.1 then (left.2 * right.2) • diagonals left.1
  else
    let d := if left.1 ≥ right.1 then left.1 - right.1 else left.1 + domain.size - right.1
    let common := left.2 * right.2 * -(invDomainElement domain right.1 * inv.getD d 0)
    (common * domain.element right.1) • bases left.1 - (common * domain.element left.1) • bases right.1

/-- The value that the accumulators of a pair stand for. -/
def PairAccumulators.value (state : PairAccumulators F) (rowsU rowsV : List (ℕ × F))
    (bases diagonals : ℕ → G) : G :=
  weigh rowsU state.accU bases + weigh rowsV state.accV bases + columnSum state.diagTerms diagonals

/-- One pass of the double loop adds the contribution of its two entries. -/
theorem accumulateEntry_value (domain : EvaluationDomain F) (inv : List F) (bases diagonals : ℕ → G)
    {rowsU rowsV : List (ℕ × F)} {left right : (ℕ × F) × ℕ} (leftMember : left ∈ rowsU.zipIdx)
    (rightMember : right ∈ rowsV.zipIdx) {state : PairAccumulators F}
    (lengthU : state.accU.length = rowsU.length) (lengthV : state.accV.length = rowsV.length) :
    ((accumulateEntry domain inv left right state).accU.length = rowsU.length ∧
      (accumulateEntry domain inv left right state).accV.length = rowsV.length) ∧
    (accumulateEntry domain inv left right state).value rowsU rowsV bases diagonals =
      state.value rowsU rowsV bases diagonals +
        contribution domain inv bases diagonals left.1 right.1 := by
  have leftLocated := List.mem_zipIdx_iff_getElem?.mp leftMember
  have rightLocated := List.mem_zipIdx_iff_getElem?.mp rightMember
  by_cases same : left.1.1 = right.1.1
  · have entry : accumulateEntry domain inv left right state = { state with
        diagTerms := state.diagTerms ++ [(left.1.1, left.1.2 * right.1.2)] } := if_pos same
    rw [entry, contribution, if_pos same]
    refine ⟨⟨lengthU, lengthV⟩, ?_⟩
    simp only [PairAccumulators.value, columnSum, List.map_append, List.sum_append, List.map_cons,
      List.map_nil, List.sum_cons, List.sum_nil, add_zero]
    abel
  · set d := if left.1.1 ≥ right.1.1 then left.1.1 - right.1.1
      else left.1.1 + domain.size - right.1.1 with hd
    set common := left.1.2 * right.1.2 * -(invDomainElement domain right.1.1 * inv.getD d 0)
      with hcommon
    have entry : accumulateEntry domain inv left right state = { state with
        accU := state.accU.modify left.2 (· + common * domain.element right.1.1)
        accV := state.accV.modify right.2 (· - common * domain.element left.1.1) } := if_neg same
    have added : contribution domain inv bases diagonals left.1 right.1 =
        (common * domain.element right.1.1) • bases left.1.1 -
          (common * domain.element left.1.1) • bases right.1.1 := if_neg same
    rw [entry, added]
    refine ⟨⟨by simpa using lengthU, by simpa using lengthV⟩, ?_⟩
    simp only [PairAccumulators.value, sub_eq_add_neg, ← neg_smul]
    rw [weigh_modify leftLocated lengthU, weigh_modify rightLocated lengthV]
    abel

theorem sum_zipIdx {A : Type} (l : List A) (f : A → G) :
    (l.zipIdx.map fun entry => f entry.1).sum = (l.map f).sum := by
  rw [← Function.comp_def f Prod.fst, ← List.map_map, List.zipIdx_map_fst]

/-- The double loop adds up the contributions of all pairs of entries. -/
theorem accumulatePair_value (domain : EvaluationDomain F) (inv : List F) (bases diagonals : ℕ → G)
    (rowsU rowsV : List (ℕ × F)) :
    (accumulatePair domain inv rowsU rowsV).value rowsU rowsV bases diagonals =
      (rowsU.map fun left => (rowsV.map fun right =>
        contribution domain inv bases diagonals left right).sum).sum := by
  have inner (left : (ℕ × F) × ℕ) (leftMember : left ∈ rowsU.zipIdx) (state : PairAccumulators F)
      (lengths : state.accU.length = rowsU.length ∧ state.accV.length = rowsV.length) :=
    foldl_value (fun state right => accumulateEntry domain inv left right state)
      (fun state => state.accU.length = rowsU.length ∧ state.accV.length = rowsV.length)
      (fun state => state.value rowsU rowsV bases diagonals)
      (fun right => contribution domain inv bases diagonals left.1 right.1) rowsV.zipIdx
      (fun state holds right member =>
        accumulateEntry_value domain inv bases diagonals leftMember member holds.1 holds.2) state lengths
  have outer := foldl_value (fun state left =>
      rowsV.zipIdx.foldl (fun state right => accumulateEntry domain inv left right state) state)
    (fun state => state.accU.length = rowsU.length ∧ state.accV.length = rowsV.length)
    (fun state => state.value rowsU rowsV bases diagonals)
    (fun left => (rowsV.zipIdx.map fun right =>
      contribution domain inv bases diagonals left.1 right.1).sum) rowsU.zipIdx
    (fun state holds left member => inner left member state holds)
    { accU := List.replicate rowsU.length 0, accV := List.replicate rowsV.length 0, diagTerms := [] }
    (by simp)
  rw [accumulatePair, outer.2]
  simp only [PairAccumulators.value, weigh_zero, columnSum, List.map_nil, List.sum_nil, add_zero,
    zero_add, sum_zipIdx]
  exact sum_zipIdx rowsU fun left =>
    (rowsV.map fun right => contribution domain inv bases diagonals left right).sum

/-- The base of a pair is published exactly when it is not the identity. -/
theorem pairBase_eq [DecidableEq G] (terms : List (G × F)) :
    pairBase terms = if (terms.map fun term => term.2 • term.1).sum = 0 then none
      else some (terms.map fun term => term.2 • term.1).sum := by
  rw [pairBase, msm_pairs]
  cases terms with
  | nil => simp
  | cons => rfl

variable [DecidableEq F]

theorem nonzeroTerms_sum (table : List G) (rows : List (ℕ × F)) (acc : List F) :
    ((nonzeroTerms table rows acc).map fun term => term.2 • term.1).sum =
      weigh rows acc (table.getD · 0) := by
  induction rows generalizing acc with
  | nil => rfl
  | cons row rest ih =>
      cases acc with
      | nil => rfl
      | cons scalar acc =>
          have tail := ih acc
          simp only [nonzeroTerms, weigh, List.zip_cons_cons, List.zipWith_cons_cons, List.sum_cons,
            List.filterMap_cons] at tail ⊢
          by_cases zero : scalar = 0
          · simpa [zero] using tail
          · simpa [zero] using tail

/-- Aggregation by row keeps the sum of the diagonal terms. -/
theorem aggregateDiagonal_sum (diagTerms : List (ℕ × F)) (diagonals : ℕ → G) :
    columnSum (aggregateDiagonal diagTerms) diagonals = columnSum diagTerms diagonals := by
  have sorted := (List.mergeSort_perm diagTerms (fun left right => left.1 ≤ right.1)).map
    (fun term : ℕ × F => term.2 • diagonals term.1)
  rw [columnSum, columnSum, ← sorted.sum_eq, aggregateDiagonal]
  split
  case h_1 empty => rw [empty]
  case h_2 first rest cons =>
    rw [cons]
    have loop := foldl_value aggregateStep (fun _ => True)
      (fun state => columnSum state.1 diagonals + state.2.2 • diagonals state.2.1)
      (fun term => term.2 • diagonals term.1) (first :: rest)
      (by
        intro state _ term _
        refine ⟨trivial, ?_⟩
        rw [aggregateStep]
        by_cases closes : term.1 ≠ state.2.1
        · rw [if_pos closes]
          by_cases zero : state.2.2 = 0
          · simp [zero]
          · simp [zero, columnSum]
        · rw [if_neg closes, not_not.mp closes, add_smul, add_assoc])
      ([], first.1, 0) trivial
    have total := loop.2
    have start : columnSum ([] : List (ℕ × F)) diagonals = 0 := rfl
    rw [zero_smul, add_zero, start, zero_add] at total
    rw [← total]
    dsimp only
    split
    case isTrue nonzero => simp [columnSum]
    case isFalse zero =>
      rw [not_not.mp zero, zero_smul, add_zero]
      rfl

/-- The multi-scalar terms of a pair add up to the contributions of its entries. -/
theorem pairTerms_sum (domain : EvaluationDomain F) (inv : List F) (lagrangeSrs qVec : List G)
    (rowsU rowsV : List (ℕ × F)) :
    ((pairTerms domain inv lagrangeSrs qVec rowsU rowsV).map fun term => term.2 • term.1).sum =
      (rowsU.map fun left => (rowsV.map fun right =>
        contribution domain inv (lagrangeSrs.getD · 0) (qVec.getD · 0) left right).sum).sum := by
  rw [pairTerms]
  split
  case isTrue empty =>
    rcases (Bool.or_eq_true _ _).mp empty with emptyU | emptyV
    · rw [List.isEmpty_iff.mp emptyU]
      rfl
    · rw [List.isEmpty_iff.mp emptyV]
      simp
  case isFalse =>
    rw [← accumulatePair_value]
    simp only [List.map_append, List.sum_append, nonzeroTerms_sum, List.map_map]
    rw [PairAccumulators.value, ← aggregateDiagonal_sum]
    rfl

end Accumulators

section Tables

variable {F G : Type} [Field F] [AddCommGroup G] [Module F G] {domain : EvaluationDomain F}

theorem kernelTable_eq [DecidableEq F] (domain : EvaluationDomain F) :
    kernelTable domain = if (domain.size : F) + domain.size = 0 then none
      else some (tabulate domain.size (kernel domain.groupGen domain.size)) := rfl

/-- The diagonal vector is the correlation of the kernel with the Lagrange bases. -/
theorem qVector_tabulate {L : ℕ} (size : domain.size = 2 ^ L) (u : ℕ → F) (bases : ℕ → G) :
    qVector domain (tabulate domain.size u) (tabulate domain.size bases) =
      some (tabulate domain.size fun k =>
        ∑ j ∈ range domain.size, u ((j + domain.size - k) % domain.size) • bases j) := by
  have reversed : (if domain.size > 1 then reverseTail (tabulate domain.size u)
      else tabulate domain.size u) =
        tabulate domain.size fun j => u ((domain.size - j) % domain.size) := by
    split
    case isTrue => exact tabulate_reverse_tail domain.positive u
    case isFalse short =>
      apply tabulate_congr
      intro j inside
      rw [show j = 0 by omega]
      simp
  rw [qVector, reversed, parallelFftScalar, parallelFftG1_tabulate domain size,
    parallelFftG1_tabulate domain size]
  simp only [Option.bind_eq_bind, Option.bind_some, tabulate_zipWith]
  rw [parallelIfftG1_tabulate domain size]
  congr 1
  apply tabulate_congr
  intro k inside
  exact idft_correlation domain.primitive u bases inside

theorem fitLength_tabulate (n : ℕ) (f : ℕ → G) :
    fitLength n (tabulate (n - 1) f) = tabulate n fun i => if i < n - 1 then f i else 0 := by
  by_cases short : n - 1 < n
  · have padding : List.replicate (n - (n - 1)) (0 : G) = tabulate (n - (n - 1)) fun _ => 0 := by
      simp [tabulate]
    rw [fitLength, tabulate_length, if_pos short, padding, tabulate_append, Nat.add_sub_cancel' short.le]
  · obtain rfl : n = 0 := by omega
    rfl

theorem invDomainElement_eq {m : ℕ} (inside : m < domain.size) :
    invDomainElement domain m = (domain.element m)⁻¹ := by
  rw [invDomainElement]
  split
  case isTrue zero => simp [zero]
  case isFalse =>
    apply eq_inv_of_mul_eq_one_left
    rw [EvaluationDomain.element, EvaluationDomain.element, ← pow_add, Nat.sub_add_cancel inside.le,
      domain.primitive.pow_eq_one]

/-- The table entry that an off-diagonal term reads is the inverse of the node difference. -/
theorem invDenom_eq {k m : ℕ} (kInside : k < domain.size) (mInside : m < domain.size)
    (different : k ≠ m) :
    -(invDomainElement domain m * (tabulate domain.size (kernel domain.groupGen domain.size)).getD
        (if k ≥ m then k - m else k + domain.size - m) 0) =
      (domain.size * (domain.groupGen ^ k - domain.groupGen ^ m))⁻¹ := by
  set d := if k ≥ m then k - m else k + domain.size - m with hd
  have dInside : d < domain.size := by
    rw [hd]
    split <;> omega
  have dNonzero : d ≠ 0 := by
    rw [hd]
    split <;> omega
  have shifted : domain.groupGen ^ m * domain.groupGen ^ d = domain.groupGen ^ k := by
    rw [hd, ← pow_add]
    split
    case isTrue ahead => rw [Nat.add_sub_cancel' ahead]
    case isFalse behind =>
      rw [Nat.add_sub_cancel' (by omega), pow_add, domain.primitive.pow_eq_one, mul_one]
  have factored : (domain.size : F) * (domain.groupGen ^ k - domain.groupGen ^ m) =
      -(domain.groupGen ^ m * (domain.size * (1 - domain.groupGen ^ d))) := by
    rw [← shifted]
    ring
  rw [tabulate_getD _ dInside, kernel, if_neg dNonzero, invDomainElement_eq mInside, factored,
    inv_neg, mul_inv (domain.groupGen ^ m), EvaluationDomain.element]

end Tables

end Pvugc.Outer

namespace Pvugc.Groth16.Trapdoor
open Pvugc.Algebra Pvugc.Outer Finset

variable {F G1 G2 : Type} [Field F] [AddCommGroup G1] [Module F G1] [AddCommGroup G2] [Module F G2]
variable (waste : Trapdoor F) (domain : EvaluationDomain F) (m : ConstraintMatrices F)

/-- The interpolation on the domain of the products of two columns' entries. -/
def overlap (i j : ℕ) : F :=
  ∑ k ∈ range domain.size, entry m.a k i * entry m.b k j *
    lagrange domain.groupGen domain.size k waste.tau

/-- The quotient base of a column pair: what the product of the column polynomials exceeds its
interpolation by, divided by `delta`. -/
def quotientBase (g1 : G1) (i j : ℕ) : G1 :=
  ((waste.u domain m i * waste.v domain m j - waste.overlap domain m i j) * waste.delta⁻¹) • g1

/-- The Lagrange bases that the group transform returns miss the top power of `tau`. -/
def srsScalar (k : ℕ) : F :=
  waste.vanishing domain * waste.delta⁻¹ * (lagrange domain.groupGen domain.size k waste.tau -
    (domain.size : F)⁻¹ * domain.groupGen ^ k * waste.tau ^ (domain.size - 1))

theorem lagrangeSrs_eq {L : ℕ} (size : domain.size = 2 ^ L) (g1 : G1) (g2 : G2) :
    parallelIfftG1 domain (fitLength domain.size (waste.provingKey domain m g1 g2).hQuery) =
      some (tabulate domain.size fun k => waste.srsScalar domain k • g1) := by
  rw [provingKey, fitLength_tabulate, parallelIfftG1_tabulate domain size]
  congr 1
  apply tabulate_congr
  intro k inside
  have positive := domain.positive
  have last : (domain.groupGen⁻¹) ^ ((domain.size - 1) * k) = domain.groupGen ^ k :=
    inv_pow_top domain.primitive positive k
  have whole : lagrange domain.groupGen domain.size k waste.tau = (domain.size : F)⁻¹ *
      (∑ i ∈ range (domain.size - 1), (domain.groupGen⁻¹) ^ (i * k) * waste.tau ^ i +
        domain.groupGen ^ k * waste.tau ^ (domain.size - 1)) := by
    rw [lagrange, ← last, ← sum_range_succ, Nat.sub_add_cancel positive]
  have lower : idft domain.groupGen domain.size
      (fun i => if i < domain.size - 1 then
        (waste.vanishing domain * waste.delta⁻¹ * waste.tau ^ i) • g1 else 0) k =
      ((domain.size : F)⁻¹ * ∑ i ∈ range (domain.size - 1), (domain.groupGen⁻¹) ^ (i * k) *
        (waste.vanishing domain * waste.delta⁻¹ * waste.tau ^ i)) • g1 := by
    rw [idft, dft, mul_smul, sum_smul]
    congr 1
    conv_lhs => rw [← Nat.sub_add_cancel (show 1 ≤ domain.size from positive)]
    rw [sum_range_succ, Nat.add_sub_cancel, if_neg (lt_irrefl _), smul_zero, add_zero]
    apply sum_congr rfl
    intro i member
    rw [if_pos (mem_range.mp member), smul_smul]
  rw [lower, srsScalar, whole]
  congr 1
  rw [mul_add, mul_assoc (domain.size : F)⁻¹, add_sub_cancel_right, mul_sum, mul_sum, mul_sum]
  apply sum_congr rfl
  intro i _
  ring

variable {waste domain m}

/-- The correlation of the kernel with the Lagrange bases gives the diagonal quotients. -/
theorem sum_kernel_srsScalar (two : (2 : F) ≠ 0) (outside : waste.tau ^ domain.size ≠ 1) {k : ℕ}
    (inside : k < domain.size) :
    ∑ j ∈ range domain.size,
        kernel domain.groupGen domain.size ((j + domain.size - k) % domain.size) * waste.srsScalar domain j =
      waste.delta⁻¹ * (lagrange domain.groupGen domain.size k waste.tau *
        lagrange domain.groupGen domain.size k waste.tau -
          lagrange domain.groupGen domain.size k waste.tau) := by
  have nodes := sum_kernel_offset domain.primitive two inside
  have squares := lagrange_sq_sub domain.primitive two outside inside
  calc ∑ j ∈ range domain.size,
        kernel domain.groupGen domain.size ((j + domain.size - k) % domain.size) * waste.srsScalar domain j
      = waste.vanishing domain * waste.delta⁻¹ * (∑ j ∈ range domain.size,
          kernel domain.groupGen domain.size ((j + domain.size - k) % domain.size) *
            lagrange domain.groupGen domain.size j waste.tau -
          (domain.size : F)⁻¹ * waste.tau ^ (domain.size - 1) * ∑ j ∈ range domain.size,
            kernel domain.groupGen domain.size ((j + domain.size - k) % domain.size) *
              domain.groupGen ^ j) := by
        rw [mul_sum (range domain.size) _ ((domain.size : F)⁻¹ * _), ← sum_sub_distrib, mul_sum]
        apply sum_congr rfl
        intro j _
        rw [srsScalar]
        ring
    _ = waste.delta⁻¹ * ((waste.tau ^ domain.size - 1) * ∑ j ∈ range domain.size,
          kernel domain.groupGen domain.size ((j + domain.size - k) % domain.size) *
            lagrange domain.groupGen domain.size j waste.tau) := by
        rw [nodes, mul_zero, sub_zero, vanishing]
        ring
    _ = _ := by rw [squares]

/-- The exponent that a pair of unit entries adds to the quotient base of its columns. -/
def entryScalar (waste : Trapdoor F) (domain : EvaluationDomain F) (k m : ℕ) : F :=
  (lagrange domain.groupGen domain.size k waste.tau * lagrange domain.groupGen domain.size m waste.tau -
    if k = m then lagrange domain.groupGen domain.size k waste.tau else 0) * waste.delta⁻¹

/-- Each pass of the double loop adds the quotient of its two Lagrange polynomials. -/
theorem contribution_eq (two : (2 : F) ≠ 0) (outside : waste.tau ^ domain.size ≠ 1) (g1 : G1)
    {left right : ℕ × F} (leftInside : left.1 < domain.size) (rightInside : right.1 < domain.size) :
    contribution domain (tabulate domain.size (kernel domain.groupGen domain.size))
        ((tabulate domain.size fun k => waste.srsScalar domain k • g1).getD · 0)
        ((tabulate domain.size fun k => ∑ j ∈ range domain.size, kernel domain.groupGen domain.size
          ((j + domain.size - k) % domain.size) • waste.srsScalar domain j • g1).getD · 0) left right =
      right.2 • left.2 • waste.entryScalar domain left.1 right.1 • g1 := by
  obtain ⟨k, x⟩ := left
  obtain ⟨l, y⟩ := right
  dsimp only at leftInside rightInside ⊢
  by_cases same : k = l
  · subst same
    have diagonal := sum_kernel_srsScalar two outside leftInside
    rw [contribution, if_pos rfl, tabulate_getD _ leftInside]
    simp only [smul_smul, ← sum_smul]
    rw [diagonal, entryScalar, if_pos rfl]
    congr 1
    ring
  · have product := lagrange_mul_lagrange domain.primitive outside leftInside rightInside same
    have nodes := node_sub_node_ne_zero domain.primitive leftInside rightInside same
    rw [contribution, if_neg same]
    dsimp only
    rw [invDenom_eq leftInside rightInside same, tabulate_getD _ leftInside,
      tabulate_getD _ rightInside, smul_smul, smul_smul, ← sub_smul, smul_smul, smul_smul, entryScalar,
      if_neg same, sub_zero, product, srsScalar, srsScalar, vanishing, EvaluationDomain.element,
      EvaluationDomain.element]
    congr 1
    ring

/-- The multi-scalar terms of a column pair add up to its quotient base. -/
theorem pairTerms_quotientBase [DecidableEq F] (two : (2 : F) ≠ 0)
    (outside : waste.tau ^ domain.size ≠ 1) (g1 : G1) {i j : ℕ} (iInside : i < m.numVars)
    (jInside : j < m.numVars) (fits : m.numConstraints ≤ domain.size) :
    ((pairTerms domain (tabulate domain.size (kernel domain.groupGen domain.size))
        (tabulate domain.size fun k => waste.srsScalar domain k • g1)
        (tabulate domain.size fun k => ∑ j ∈ range domain.size, kernel domain.groupGen domain.size
          ((j + domain.size - k) % domain.size) • waste.srsScalar domain j • g1)
        ((collectColumns m.numVars domain.size m.a).getD i [])
        ((collectColumns m.numVars domain.size m.b).getD j [])).map fun term => term.2 • term.1).sum =
      waste.quotientBase domain m g1 i j := by
  have specA := collectColumns_spec (M := G1) m.numVars domain.size m.a
  have specB := collectColumns_spec (M := G1) m.numVars domain.size m.b
  have aFits : m.a.length ≤ domain.size := by
    rw [m.aLength]
    exact fits
  have bFits : m.b.length ≤ domain.size := by
    rw [m.bLength]
    exact fits
  have inner (left : ℕ × F) (leftInside : left.1 < domain.size) :
      (((collectColumns m.numVars domain.size m.b).getD j []).map fun right =>
        contribution domain (tabulate domain.size (kernel domain.groupGen domain.size))
          ((tabulate domain.size fun k => waste.srsScalar domain k • g1).getD · 0)
          ((tabulate domain.size fun k => ∑ j ∈ range domain.size, kernel domain.groupGen domain.size
            ((j + domain.size - k) % domain.size) • waste.srsScalar domain j • g1).getD · 0)
          left right).sum =
        left.2 • ∑ l ∈ range domain.size, entry m.b l j • waste.entryScalar domain left.1 l • g1 := by
    rw [List.map_congr_left fun right member =>
      contribution_eq two outside g1 leftInside (columnRows_lt specB.1 right member)]
    change columnSum _ (fun l => left.2 • waste.entryScalar domain left.1 l • g1) = _
    rw [specB.2 j jInside bFits, smul_sum]
    apply sum_congr rfl
    intro l _
    rw [smul_comm]
  rw [pairTerms_sum, List.map_congr_left fun left member =>
    inner left (columnRows_lt specA.1 left member)]
  change columnSum _ (fun k => ∑ l ∈ range domain.size,
    entry m.b l j • waste.entryScalar domain k l • g1) = _
  rw [specA.2 i iInside aFits]
  simp only [smul_smul, ← sum_smul]
  rw [quotientBase, u, v, columnValue, columnValue, overlap, sum_mul_sum, ← sum_sub_distrib, sum_mul]
  congr 1
  apply sum_congr rfl
  intro k member
  rw [mul_sum]
  have diagonal : entry m.a k i * entry m.b k j * lagrange domain.groupGen domain.size k waste.tau =
      ∑ l ∈ range domain.size, entry m.a k i * entry m.b l j *
        if k = l then lagrange domain.groupGen domain.size k waste.tau else 0 := by
    rw [sum_eq_single_of_mem k member fun l _ different => by rw [if_neg different.symm, mul_zero],
      if_pos rfl]
  rw [diagonal, ← sum_sub_distrib, sum_mul]
  apply sum_congr rfl
  intro l _
  rw [entryScalar]
  ring

/-- The active pairs with their quotient bases, without the identities. -/
def publishedBases [DecidableEq G1] (waste : Trapdoor F) (domain : EvaluationDomain F)
    (m : ConstraintMatrices F) (g1 : G1) : HQueryWit G1 :=
  (activePairs m domain.size).filterMap fun pair =>
    if waste.quotientBase domain m g1 pair.1 pair.2 = 0 then none
    else some (UInt32.ofNat pair.1, UInt32.ofNat pair.2, waste.quotientBase domain m g1 pair.1 pair.2)

/-- The computed witness bases are the quotient bases of the active pairs. -/
theorem computeWitnessBases_eq [DecidableEq F] [DecidableEq G1] {backend : PolynomialBackend F}
    (created : backend.newDomain m.qapDomainSize = some domain) {L : ℕ} (size : domain.size = 2 ^ L)
    (outside : waste.tau ^ domain.size ≠ 1) (g1 : G1) (g2 : G2) :
    computeWitnessBases backend m (waste.provingKey domain m g1 g2) =
      if (domain.size : F) + domain.size = 0 then none
      else if hasOmittedPair m domain.size (waste.publishedBases domain m g1) then none
      else some (waste.publishedBases domain m g1) := by
  have fits := newDomain_numConstraints created
  have located := quotientDomain_of_newDomain created
  rw [computeWitnessBases, located]
  simp only [Option.bind_eq_bind, Option.bind_some]
  rw [lagrangeSrs_eq waste domain m size, kernelTable_eq]
  simp only [Option.bind_some]
  split
  case isTrue => rfl
  case isFalse invertible =>
    have two := domain.doubledSize_ne_zero_iff.mp invertible
    simp only [Option.bind_some]
    rw [qVector_tabulate size]
    simp only [Option.bind_some]
    have bases : pairBases domain m (tabulate domain.size (kernel domain.groupGen domain.size))
        (tabulate domain.size fun k => waste.srsScalar domain k • g1)
        (tabulate domain.size fun k => ∑ j ∈ range domain.size, kernel domain.groupGen domain.size
          ((j + domain.size - k) % domain.size) • waste.srsScalar domain j • g1) =
        waste.publishedBases domain m g1 := by
      apply List.filterMap_congr
      intro pair member
      obtain ⟨left, right⟩ := activePairs_lt member
      rw [pairBase_eq, pairTerms_quotientBase two outside g1 left right fits]
      split <;> rfl
    rw [bases]

end Pvugc.Groth16.Trapdoor

namespace Pvugc.Outer
open Pvugc.Algebra Pvugc.Groth16

variable {F G1 G2 : Type} [Field F] [DecidableEq F] [AddCommGroup G1] [Module F G1] [DecidableEq G1]
variable {backend : PolynomialBackend F} {m : ConstraintMatrices F} {domain : EvaluationDomain F}

/-- Witness bases are only computed over domains of power-of-two size. -/
theorem computeWitnessBases_size (created : backend.newDomain m.qapDomainSize = some domain)
    {pk : ProvingKey G1 G2} {bases : HQueryWit G1}
    (computed : computeWitnessBases backend m pk = some bases) : ∃ L, domain.size = 2 ^ L := by
  have located := quotientDomain_of_newDomain created
  rw [computeWitnessBases, located] at computed
  simp only [Option.bind_eq_bind, Option.bind_some] at computed
  obtain ⟨lagrangeSrs, inverse, -⟩ := Option.bind_eq_some_iff.mp computed
  obtain ⟨transformed, run, -⟩ := Option.bind_eq_some_iff.mp inverse
  have length := fitLength_length domain.size pk.hQuery
  rw [← length]
  exact parallelFftG1_length (by rw [length]; exact domain.positive) (by rw [length]; exact domain.fitsWord) run

variable [AddCommGroup G2] [Module F G2]

/-- Computed witness bases are the published bases of the trapdoor. -/
theorem computeWitnessBases_published {waste : Trapdoor F}
    (created : backend.newDomain m.qapDomainSize = some domain) (outside : waste.tau ^ domain.size ≠ 1)
    {g1 : G1} {g2 : G2} {bases : HQueryWit G1}
    (computed : computeWitnessBases backend m (waste.provingKey domain m g1 g2) = some bases) :
    bases = waste.publishedBases domain m g1 := by
  obtain ⟨L, size⟩ := computeWitnessBases_size created computed
  rw [Trapdoor.computeWitnessBases_eq created size outside g1 g2] at computed
  split at computed
  case isTrue => cases computed
  case isFalse =>
    split at computed
    case isTrue => cases computed
    case isFalse => exact (Option.some.inj computed).symm

end Pvugc.Outer
