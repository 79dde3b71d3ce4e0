import Pvugc.Algebra.Separation
import Pvugc.Audit.DenseBasis
import Pvugc.Groth16.WitnessMap
import Pvugc.Outer.StandardLean

namespace Pvugc.Outer
open Pvugc.Algebra Pvugc.Audit Pvugc.Groth16 Finset Polynomial

section Audit

variable {F : Type} [Field F]

/-- The columns of the three matrices and the domain of the audited circuit. -/
structure MatrixExtractor (F : Type) [Field F] where
  aCols : List (List (ℕ × F))
  bCols : List (List (ℕ × F))
  cCols : List (List (ℕ × F))
  domain : EvaluationDomain F

/-- `MatrixExtractor::new`; `none` is the panic of the domain expectation. -/
def MatrixExtractor.new (backend : PolynomialBackend F) (m : ConstraintMatrices F) :
    Option (MatrixExtractor F) :=
  (quotientDomain backend m).map fun domain => {
    aCols := collectColumns m.numVars domain.size m.a
    bCols := collectColumns m.numVars domain.size m.b
    cCols := collectColumns m.numVars domain.size m.c
    domain := domain }

/-- The public columns with entries and their numbers of entries. -/
def nonzeroPublicColumns (cols : List (List (ℕ × F))) (numPub : ℕ) : List (ℕ × ℕ) :=
  (List.range' 1 (numPub - 1)).filterMap fun col =>
    let entries := cols.getD col []
    if !entries.isEmpty then some (col, entries.length) else none

/-- The rows in which some of the given columns has an entry. -/
def columnRows (cols : List (List (ℕ × F))) (columns : List ℕ) : Finset ℕ :=
  (columns.flatMap fun col => (cols.getD col []).map Prod.fst).toFinset

/-- `verify_public_only_in_c_and_w_span_separated` without its printed diagnostics; `none` is a failed
assertion on the numbers of columns. -/
def verifyPublicOnlyInCAndWSpanSeparated (extractor : MatrixExtractor F) (numPub numWit : ℕ) : Option Bool :=
  let numVars := numPub + numWit
  if extractor.aCols.length ≠ numVars ∨ extractor.bCols.length ≠ numVars ∨
      extractor.cCols.length ≠ numVars then none
  else
    let uPubNonzero := nonzeroPublicColumns extractor.aCols numPub
    let vPubNonzero := nonzeroPublicColumns extractor.bCols numPub
    let cPubMissing := (List.range' 1 (numPub - 1)).filter fun col => (extractor.cCols.getD col []).isEmpty
    let wPubRows := columnRows extractor.cCols (List.range' 1 (numPub - 1))
    let wWitRows := columnRows extractor.cCols (List.range' numPub numWit)
    let wSep := decide (wPubRows ∩ wWitRows = ∅)
    some (uPubNonzero.isEmpty && vPubNonzero.isEmpty && cPubMissing.isEmpty && wSep)

/-- The circuits that the check passes. -/
def SpanSeparated (backend : PolynomialBackend F) (m : ConstraintMatrices F) (domain : EvaluationDomain F) :
    Prop :=
  ∃ extractor, MatrixExtractor.new backend m = some extractor ∧ extractor.domain = domain ∧
    verifyPublicOnlyInCAndWSpanSeparated extractor m.numInstanceVariables m.numWitnessVariables = some true

end Audit

section Shape

variable {F : Type}

theorem mem_pushTerms {columns : List (List (ℕ × F))} {row k : ℕ} {terms : Row F}
    (inside : k < columns.length) {e : ℕ × F} : e ∈ (pushTerms columns row terms).getD k [] ↔
      e ∈ columns.getD k [] ∨ e.1 = row ∧ (e.2, k) ∈ terms := by
  induction terms generalizing columns with
  | nil => simp [pushTerms]
  | cons term rest inductionHypothesis =>
      have pushed : e ∈ (columns.modify term.2 (· ++ [(row, term.1)])).getD k [] ↔
          e ∈ columns.getD k [] ∨ e.1 = row ∧ (e.2, k) = term := by
        rw [List.getD_eq_getElem?_getD, List.getElem?_modify, List.getD_eq_getElem?_getD,
          List.getElem?_eq_getElem inside]
        by_cases same : term.2 = k
        · simp [same, Prod.ext_iff]
        · simp [same, Prod.ext_iff, Ne.symm same]
      rw [pushTerms, List.foldl_cons, ← pushTerms,
        inductionHypothesis (by rw [List.length_modify]; exact inside), pushed, List.mem_cons]
      tauto

theorem collectColumns_length (numVars domainSize : ℕ) (rows : List (Row F)) :
    (collectColumns numVars domainSize rows).length = numVars := by
  have loop (entries : List (Row F × ℕ)) : ∀ columns : List (List (ℕ × F)), (entries.foldl (fun columns entry =>
      if entry.2 < domainSize then pushTerms columns entry.2 entry.1 else columns) columns).length =
        columns.length := by
    induction entries with
    | nil => simp
    | cons entry rest inductionHypothesis =>
        intro columns
        rw [List.foldl_cons, inductionHypothesis]
        split
        case isTrue => rw [pushTerms_length]
        case isFalse => rfl
  rw [collectColumns, loop, List.length_replicate]

/-- A collected column holds its entries on the rows of the domain. -/
theorem mem_collectColumns {numVars domainSize k : ℕ} (inside : k < numVars) (rows : List (Row F)) {e : ℕ × F} :
    e ∈ (collectColumns numVars domainSize rows).getD k [] ↔
      e.1 < domainSize ∧ (e.2, k) ∈ rows.getD e.1 [] := by
  have loop (entries : List (Row F × ℕ)) : ∀ columns : List (List (ℕ × F)), columns.length = numVars →
      (e ∈ (entries.foldl (fun columns entry =>
          if entry.2 < domainSize then pushTerms columns entry.2 entry.1 else columns) columns).getD k [] ↔
        e ∈ columns.getD k [] ∨
          ∃ entry ∈ entries, entry.2 < domainSize ∧ e.1 = entry.2 ∧ (e.2, k) ∈ entry.1) := by
    induction entries with
    | nil => simp
    | cons entry rest inductionHypothesis =>
        intro columns length
        rw [List.foldl_cons]
        split
        case isTrue row =>
          rw [inductionHypothesis _ (by rw [pushTerms_length, length]),
            mem_pushTerms (by rw [length]; exact inside)]
          simp only [List.mem_cons, exists_eq_or_imp, row, true_and]
          tauto
        case isFalse beyond =>
          rw [inductionHypothesis _ length]
          simp [beyond]
  rw [collectColumns, loop _ _ (by simp), List.getD_replicate _ inside]
  simp only [List.not_mem_nil, false_or]
  constructor
  · rintro ⟨entry, member, row, same, term⟩
    have located := List.mem_zipIdx_iff_getElem?.mp member
    rw [← same] at located row
    refine ⟨row, ?_⟩
    rw [List.getD_eq_getElem?_getD, located]
    exact term
  · rintro ⟨row, term⟩
    rw [List.getD_eq_getElem?_getD] at term
    cases located : rows[e.1]? with
    | none => simp [located] at term
    | some terms =>
        rw [located] at term
        exact ⟨(terms, e.1), List.mem_zipIdx_iff_getElem?.mpr located, row, rfl, term⟩

variable [Field F] {backend : PolynomialBackend F} {domain : EvaluationDomain F} {m : ConstraintMatrices F}

/-- The check passes every circuit of the outer shape. -/
theorem OuterShape.spanSeparated (shape : OuterShape m) (located : quotientDomain backend m = some domain) :
    SpanSeparated backend m domain := by
  have fits := quotientDomain_fits located
  have total : m.numInstanceVariables ≤ m.numVars := Nat.le_add_right _ _
  have empty (rows : List (Row F))
      (free : ∀ i, ∀ term ∈ rows.getD i [], term.2 = 0 ∨ m.numInstanceVariables ≤ term.2) :
      nonzeroPublicColumns (collectColumns m.numVars domain.size rows) m.numInstanceVariables = [] := by
    rw [nonzeroPublicColumns, List.filterMap_eq_nil_iff]
    intro col member
    have bounds := List.mem_range'_1.mp member
    have vacant : (collectColumns m.numVars domain.size rows).getD col [] = [] := by
      apply List.eq_nil_iff_forall_not_mem.mpr
      intro e entry
      have allowed := free e.1 _ ((mem_collectColumns (by omega) rows).mp entry).2
      dsimp only at allowed
      omega
    simp only [vacant]
    rfl
  have publicRow {col : ℕ} (positive : 0 < col) (inside : col < m.numInstanceVariables) {e : ℕ × F}
      (entry : e ∈ (collectColumns m.numVars domain.size m.c).getD col []) : e.1 = shape.bindRow col := by
    have allowed := shape.c_free e.1 _ ((mem_collectColumns (by omega) m.c).mp entry).2
    dsimp only at allowed
    omega
  have bound {col : ℕ} (positive : 0 < col) (inside : col < m.numInstanceVariables) :
      (shape.bindRow col, (1 : F)) ∈ (collectColumns m.numVars domain.size m.c).getD col [] := by
    rw [mem_collectColumns (by omega), shape.cRow col positive inside]
    exact ⟨(shape.bindRow_lt col positive inside).trans_le fits, List.mem_singleton_self _⟩
  have missing : ((List.range' 1 (m.numInstanceVariables - 1)).filter fun col =>
      ((collectColumns m.numVars domain.size m.c).getD col []).isEmpty) = [] := by
    rw [List.filter_eq_nil_iff]
    intro col member
    have bounds := List.mem_range'_1.mp member
    have entry := @bound col (by omega) (by omega)
    simp only [List.isEmpty_iff]
    intro vacant
    rw [vacant] at entry
    cases entry
  have separated : columnRows (collectColumns m.numVars domain.size m.c)
      (List.range' 1 (m.numInstanceVariables - 1)) ∩ columnRows (collectColumns m.numVars domain.size m.c)
        (List.range' m.numInstanceVariables m.numWitnessVariables) = ∅ := by
    rw [← disjoint_iff_inter_eq_empty, disjoint_left]
    intro row publicMember witnessMember
    simp only [columnRows, List.mem_toFinset, List.mem_flatMap, List.mem_map] at publicMember witnessMember
    obtain ⟨col, colMember, e, entry, rfl⟩ := publicMember
    obtain ⟨witness, witnessRange, e', entry', same⟩ := witnessMember
    have bounds := List.mem_range'_1.mp colMember
    have witnessBounds := List.mem_range'_1.mp witnessRange
    have row := publicRow (by omega) (by omega) entry
    have term := ((mem_collectColumns witnessBounds.2 m.c).mp entry').2
    rw [same, row, shape.cRow col (by omega) (by omega), List.mem_singleton] at term
    have columns := congrArg Prod.snd term
    dsimp only at columns
    omega
  refine ⟨_, by rw [MatrixExtractor.new, located]; rfl, rfl, ?_⟩
  rw [verifyPublicOnlyInCAndWSpanSeparated, if_neg (by
    simp [collectColumns_length, ConstraintMatrices.numVars])]
  dsimp only
  rw [empty m.a shape.a_free, empty m.b shape.b_free, missing, separated]
  rfl

end Shape

section Quotients

variable {F : Type} [Field F] (domain : EvaluationDomain F) (m : ConstraintMatrices F)

/-- What the product of two columns' polynomials exceeds the interpolation of their row products by. -/
noncomputable def quotientNumerator (i j : ℕ) : F[X] :=
  columnPolynomial domain m.a i * columnPolynomial domain m.b j -
    interpolant domain.groupGen domain.size fun k => entry m.a k i * entry m.b k j

/-- The quotient `H_ij` of a column pair. -/
noncomputable def quotientPolynomial (i j : ℕ) : F[X] := quotientNumerator domain m i j /ₘ (X ^ domain.size - 1)

/-- The quotients of the published pairs. -/
def publishedQuotients : Set F[X] :=
  {h | ∃ pair ∈ activePairs m domain.size, h = quotientPolynomial domain m pair.1 pair.2}

/-- The baked quotient of an assignment. -/
noncomputable def qConst (z : Assignment m) : F[X] :=
  ∑ i ∈ range m.numInstanceVariables, ∑ j ∈ range m.numInstanceVariables,
      (z.value i * z.value j) • quotientPolynomial domain m i j +
    ∑ j ∈ omitConstWitCols m domain.size, z.value j • quotientPolynomial domain m 0 j

theorem natDegree_interpolant_lt (f : ℕ → F) :
    (interpolant domain.groupGen domain.size f).natDegree < domain.size :=
  (natDegree_interpolant_le f).trans_lt (Nat.sub_lt domain.positive Nat.one_pos)

theorem natDegree_columnProduct_lt (rows rows' : List (Row F)) (i j : ℕ) :
    (columnPolynomial domain rows i * columnPolynomial domain rows' j).natDegree < 2 * domain.size := by
  have left : (columnPolynomial domain rows i).natDegree < domain.size := natDegree_interpolant_lt domain _
  have right : (columnPolynomial domain rows' j).natDegree < domain.size := natDegree_interpolant_lt domain _
  have product : (columnPolynomial domain rows i * columnPolynomial domain rows' j).natDegree ≤ _ :=
    natDegree_mul_le
  omega

theorem quotientPolynomial_mul (i j : ℕ) :
    quotientPolynomial domain m i j * (X ^ domain.size - 1) = quotientNumerator domain m i j := by
  have monic : (X ^ domain.size - 1 : F[X]).Monic := monic_X_pow_sub_C 1 domain.positive.ne'
  have multiple : (X ^ domain.size - 1 : F[X]) ∣ quotientNumerator domain m i j := by
    apply vanishing_dvd domain.primitive domain.positive
    intro k inside
    rw [quotientNumerator, columnPolynomial, columnPolynomial, eval_sub, eval_mul,
      eval_interpolant_node domain.primitive _ inside, eval_interpolant_node domain.primitive _ inside,
      eval_interpolant_node domain.primitive _ inside, sub_self]
  obtain ⟨q, factored⟩ := multiple
  rw [quotientPolynomial, factored, mul_divByMonic_cancel_left q monic, mul_comm]

variable {domain m}

theorem natDegree_quotientPolynomial_lt (i j : ℕ) :
    (quotientPolynomial domain m i j).natDegree < domain.size :=
  natDegree_quotient_lt domain.positive (quotientPolynomial_mul domain m i j)
    (natDegree_columnProduct_lt domain m.a m.b i j) (natDegree_interpolant_lt domain _)

theorem degree_quotientPolynomial_lt (i j : ℕ) : (quotientPolynomial domain m i j).degree < domain.size :=
  degree_le_natDegree.trans_lt (by exact_mod_cast natDegree_quotientPolynomial_lt i j)

theorem degree_qConst_lt (z : Assignment m) : (qConst domain m z).degree < domain.size := by
  have small (c : F) (i j : ℕ) : c • quotientPolynomial domain m i j ∈ degreeLT F domain.size :=
    Submodule.smul_mem _ _ (mem_degreeLT.mpr (degree_quotientPolynomial_lt i j))
  rw [← mem_degreeLT, qConst]
  apply Submodule.add_mem
  · exact Submodule.sum_mem _ fun i _ => Submodule.sum_mem _ fun j _ => small _ i j
  · exact Submodule.sum_mem _ fun j _ => small _ 0 j

/-- At the points of the domain a quotient is computed from the entries of its two columns. -/
theorem nodeValues_quotientPolynomial (i j : ℕ) {k : ℕ} (inside : k < domain.size) :
    nodeValues domain.groupGen domain.size (quotientPolynomial domain m i j) k =
      quotientValue domain.groupGen domain.size (entry m.a · i) (entry m.b · j) k := by
  rw [nodeValues_apply, if_pos inside]
  exact eval_quotient_node domain.primitive (quotientPolynomial_mul domain m i j) inside

/-- The published bases of a key are the values of the published quotients. -/
theorem quotientBase_quotientPolynomial {G1 : Type} [AddCommGroup G1] [Module F G1] (waste : Trapdoor F)
    (g1 : G1) (i j : ℕ) : waste.quotientBase domain m g1 i j =
      (waste.vanishing domain * waste.delta⁻¹ * (quotientPolynomial domain m i j).eval waste.tau) • g1 := by
  have value := congrArg (eval waste.tau) (quotientPolynomial_mul domain m i j)
  rw [quotientNumerator, eval_mul, eval_sub (columnPolynomial domain m.a i * _), eval_mul, columnPolynomial,
    columnPolynomial, eval_interpolant, eval_interpolant, eval_interpolant] at value
  rw [Trapdoor.quotientBase, Trapdoor.u, Trapdoor.v, columnValue, columnValue, Trapdoor.overlap, ← value,
    Trapdoor.vanishing]
  congr 1
  simp
  ring

end Quotients

section Condition

variable {F : Type} [Field F] [DecidableEq F] (domain : EvaluationDomain F) (m : ConstraintMatrices F)

/-- The values of a quotient at the points of the domain, from the entries of its two columns. -/
def quotientVector (a b : ℕ → F) : Vector F domain.size :=
  Vector.ofFn fun k => quotientValue domain.groupGen domain.size a b k

/-- The vectors of the published pairs. -/
def publishedVectors : List (Vector F domain.size) :=
  (activePairs m domain.size).map fun pair => quotientVector domain (entry m.a · pair.1) (entry m.b · pair.2)

/-- The vector of the constant column of `A` and the columns of `B` that are left out next to it. -/
def leftOutVector (z : Assignment m) : Vector F domain.size :=
  quotientVector domain (entry m.a · 0) fun k =>
    entry m.b k 0 + ∑ j ∈ omitConstWitCols m domain.size, z.value j * entry m.b k j

/-- What the dense elimination of the audit leaves of the left-out vector after the vectors of the published pairs. -/
def leftOutResidual (z : Assignment m) : Vector F domain.size :=
  ((publishedVectors domain m).foldl Basis.insert Basis.new).reduce (leftOutVector domain m z)

variable {domain m}

omit [DecidableEq F] in
theorem denseValue_quotientVector (a b : ℕ → F) (k : ℕ) : denseValue (quotientVector domain a b) k =
    if k < domain.size then quotientValue domain.groupGen domain.size a b k else 0 := by
  by_cases inside : k < domain.size
  · rw [denseValue_of_lt _ inside, quotientVector, Vector.getElem_ofFn, if_pos inside]
  · rw [denseValue_of_le _ (Nat.le_of_not_lt inside), if_neg inside]

omit [DecidableEq F] in
/-- The check leaves the public columns of `A` and `B` without entries on the domain. -/
theorem SpanSeparated.publicColumn {backend : PolynomialBackend F} (passed : SpanSeparated backend m domain) {i : ℕ}
    (positive : 0 < i) (inside : i < m.numInstanceVariables) {k : ℕ} (bound : k < domain.size) :
    entry m.a k i = 0 ∧ entry m.b k i = 0 := by
  obtain ⟨extractor, made, rfl, verified⟩ := passed
  rw [MatrixExtractor.new, Option.map_eq_some_iff] at made
  obtain ⟨domain, -, rfl⟩ := made
  rw [verifyPublicOnlyInCAndWSpanSeparated] at verified
  split at verified
  case isTrue => cases verified
  case isFalse =>
    simp only [Option.some_inj, Bool.and_eq_true, List.isEmpty_iff] at verified
    obtain ⟨⟨⟨uPub, vPub⟩, -⟩, -⟩ := verified
    have column : i < m.numVars := inside.trans_le (Nat.le_add_right _ _)
    have vacant {rows : List (Row F)} (none : nonzeroPublicColumns (collectColumns m.numVars domain.size rows)
        m.numInstanceVariables = []) : entry rows k i = 0 := by
      rw [nonzeroPublicColumns, List.filterMap_eq_nil_iff] at none
      have empty := none i (List.mem_range'_1.mpr ⟨positive, by omega⟩)
      apply rowCoeff_eq_zero
      rintro ⟨c, j⟩ member rfl
      have pushed := (mem_collectColumns (e := (k, c)) column rows).mpr ⟨bound, member⟩
      simp only [ite_eq_right_iff, reduceCtorEq, imp_false, Bool.not_eq_true', Bool.not_eq_false,
        List.isEmpty_iff] at empty
      rw [empty] at pushed
      cases pushed
    exact ⟨vacant uPub, vacant vPub⟩

omit [DecidableEq F] in
/-- On a circuit that passes the check, the baked quotient is the quotient of the left-out columns. -/
theorem SpanSeparated.nodeValues_qConst {backend : PolynomialBackend F} (passed : SpanSeparated backend m domain)
    (z : Assignment m) : nodeValues domain.groupGen domain.size (qConst domain m z) =
      denseValue (leftOutVector domain m z) := by
  funext k
  rw [leftOutVector, denseValue_quotientVector]
  split
  case isFalse outside => rw [nodeValues_apply, if_neg outside]
  case isTrue inside =>
    have publicPairs : ∑ i ∈ range m.numInstanceVariables, ∑ j ∈ range m.numInstanceVariables,
        z.value i * z.value j * quotientValue domain.groupGen domain.size (entry m.a · i) (entry m.b · j) k =
          quotientValue domain.groupGen domain.size (entry m.a · 0) (entry m.b · 0) k := by
      have constant := mem_range.mpr m.instancePositive
      rw [sum_eq_single_of_mem 0 constant, sum_eq_single_of_mem 0 constant, z.value_zero, one_mul, one_mul]
      · intro j member different
        rw [quotientValue_comm, quotientValue_of_zero_left _ _ inside, mul_zero]
        intro s bound
        exact (passed.publicColumn (Nat.pos_of_ne_zero different) (mem_range.mp member) bound).2
      · intro i member different
        apply sum_eq_zero
        intro j _
        rw [quotientValue_of_zero_left _ _ inside, mul_zero]
        intro s bound
        exact (passed.publicColumn (Nat.pos_of_ne_zero different) (mem_range.mp member) bound).1
    simp only [qConst, map_add, map_sum, map_smul, Pi.add_apply, Finset.sum_apply, Pi.smul_apply, smul_eq_mul,
      nodeValues_quotientPolynomial _ _ inside, publicPairs]
    rw [quotientValue_add_sum]

/-- On a circuit that passes the check, the baked quotient is zero exactly where the left-out vector is. -/
theorem SpanSeparated.qConst_eq_zero_iff {backend : PolynomialBackend F} (passed : SpanSeparated backend m domain)
    (z : Assignment m) :
    qConst domain m z = 0 ↔ (leftOutVector domain m z).toList.all (· = 0) = true := by
  rw [all_zero_iff, ← passed.nodeValues_qConst]
  constructor
  · intro vanishes
    rw [vanishes, map_zero]
  · intro vanishes
    apply eq_of_eval_nodes domain.primitive (degree_qConst_lt z)
    · rw [degree_zero]
      exact WithBot.bot_lt_coe _
    · intro k inside
      have value := congrFun vanishes k
      rw [nodeValues_apply, if_pos inside] at value
      rw [value, eval_zero]
      rfl

/-- The elimination decides about the span of the published quotients. -/
theorem SpanSeparated.qConst_mem_span_iff {backend : PolynomialBackend F} (passed : SpanSeparated backend m domain)
    (z : Assignment m) : qConst domain m z ∈ Submodule.span F (publishedQuotients domain m) ↔
      (leftOutResidual domain m z).toList.all (· = 0) = true := by
  obtain ⟨echelon, spanned⟩ := Basis.echelon_new.inserts (publishedVectors domain m)
  rw [Basis.span_new, bot_sup_eq] at spanned
  have vectors : nodeValues domain.groupGen domain.size '' publishedQuotients domain m =
      {w | ∃ v ∈ publishedVectors domain m, denseValue v = w} := by
    have pairVector (pair : ℕ × ℕ) : denseValue (quotientVector domain (entry m.a · pair.1) (entry m.b · pair.2)) =
        nodeValues domain.groupGen domain.size (quotientPolynomial domain m pair.1 pair.2) := by
      funext k
      rw [denseValue_quotientVector]
      split
      case isTrue inside => exact (nodeValues_quotientPolynomial _ _ inside).symm
      case isFalse outside => rw [nodeValues_apply, if_neg outside]
    ext w
    constructor
    · rintro ⟨h, ⟨pair, active, rfl⟩, rfl⟩
      exact ⟨_, List.mem_map.mpr ⟨pair, active, rfl⟩, pairVector pair⟩
    · rintro ⟨v, member, rfl⟩
      obtain ⟨pair, active, rfl⟩ := List.mem_map.mp member
      exact ⟨_, ⟨pair, active, rfl⟩, (pairVector pair).symm⟩
  rw [mem_span_iff_nodeValues domain.primitive (degree_qConst_lt z), vectors, ← spanned, passed.nodeValues_qConst,
    leftOutResidual, echelon.reduce_all_zero_iff]
  rintro h ⟨pair, -, rfl⟩
  exact degree_quotientPolynomial_lt pair.1 pair.2

end Condition

section Sample

/-- A binding row for the public input, and a second row on which the constant column of `B` occurs next to
a witness column that occurs nowhere else. -/
def repeatedConstant : ConstraintMatrices (ZMod 13) where
  numInstanceVariables := 2
  numWitnessVariables := 2
  numConstraints := 2
  a := [[(1, 0)], [(1, 0)]]
  b := [[(1, 2)], [(1, 0), (1, 3)]]
  c := [[(1, 1)], []]
  instancePositive := Nat.two_pos
  aLength := rfl
  bLength := rfl
  cLength := rfl
  aColumns := by decide
  bColumns := by decide
  cColumns := by decide

def repeatedConstantShape : OuterShape repeatedConstant where
  bindRow _ := 0
  xWit _ := 2
  bindRow_lt _ _ _ := by decide
  aRow _ _ _ := rfl
  bRow _ _ _ := rfl
  cRow k positive inside := by
    rw [eq_one_of_lt_two positive inside]
    rfl
  xWit_witness _ _ _ := by decide
  xWit_injective k l kPositive kInside lPositive lInside _ := by
    rw [eq_one_of_lt_two kPositive kInside, eq_one_of_lt_two lPositive lInside]
  a_free i := match i with
    | 0 | 1 => by decide
    | i + 2 => by simp [repeatedConstant]
  b_free i := match i with
    | 0 | 1 => by decide
    | i + 2 => by simp [repeatedConstant]
  c_free i := match i with
    | 0 | 1 => by decide
    | i + 2 => by simp [repeatedConstant]

/-- The statement zero. -/
def repeatedConstantAtZero : Assignment repeatedConstant where
  instanceAssignment := [1, 0]
  witnessAssignment := [0, 12]
  instanceLength := rfl
  witnessLength := rfl
  constantOne := rfl

end Sample

end Pvugc.Outer
