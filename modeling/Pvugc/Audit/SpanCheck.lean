import Pvugc.Audit.RowBasis

namespace Pvugc.Audit
open Pvugc.Algebra

section Code

variable {F : Type} [Field F] [DecidableEq F]

/-- The rows in which some of the given columns has a nonzero net value. -/
def netRows (getCol : ℕ → List (ℕ × F)) (columns : List ℕ) : List ℕ :=
  columns.flatMap fun col => (toSparseRowVec (getCol col)).entries.keys

/-- The row basis of the witness columns, without the empty ones. -/
def witnessBasis (getCol : ℕ → List (ℕ × F)) (columns : List ℕ) : RowBasis F :=
  columns.foldl (fun basis j =>
    let entries := getCol j
    if entries.isEmpty then basis
    else
      let v := toSparseRowVec entries
      if !v.isEmpty then basis.insert v else basis) RowBasis.new

/-- The accumulators of the loop over the public columns. -/
structure PublicScan (F : Type) [Zero F] where
  allSeparated : Bool
  pubBasis : RowBasis F
  pubReducedBasis : RowBasis F

/-- One public column: net-zero columns are skipped, and a column in the span of the witness columns
fails the check. -/
def scanColumn (witBasis : RowBasis F) (getCol : ℕ → List (ℕ × F)) (scan : PublicScan F) (i : ℕ) :
    PublicScan F :=
  let pubVec := toSparseRowVec (getCol i)
  if pubVec.isEmpty then scan
  else
    let pubBasis := scan.pubBasis.insert pubVec
    let reduced := witBasis.reduce pubVec
    if reduced.isEmpty then { scan with allSeparated := false, pubBasis := pubBasis }
    else { scan with pubBasis := pubBasis, pubReducedBasis := scan.pubReducedBasis.insert reduced }

/-- `check_span_separation_matrix` without its printed lines; `none` is the overflow of the number of
witness columns. -/
def checkSpanSeparationMatrix (numPub numVars : ℕ) (getCol : ℕ → List (ℕ × F)) : Option Bool :=
  if numVars < numPub then none
  else
    let numWit := numVars - numPub
    let pubColumns := List.range' 1 (numPub - 1)
    let witColumns := List.range' numPub numWit
    let pubRows := netRows getCol pubColumns
    let overlappingWitnesses := witColumns.filter fun j =>
      (netRows getCol [j]).any pubRows.contains
    if numWit = 0 then some true
    else if pubRows.isEmpty then some true
    else if overlappingWitnesses.isEmpty then some true
    else
      let scan := pubColumns.foldl (scanColumn (witnessBasis getCol witColumns) getCol)
        { allSeparated := true, pubBasis := RowBasis.new, pubReducedBasis := RowBasis.new }
      if scan.allSeparated then
        let rankPub := scan.pubBasis.pivots.size
        let rankImg := scan.pubReducedBasis.pivots.size
        some (!decide (rankImg < rankPub))
      else some false

end Code

variable {F : Type} [Field F]

/-- The span of the given columns. -/
def columnSpan (getCol : ℕ → List (ℕ × F)) (columns : List ℕ) : Submodule F (ℕ → F) :=
  rowSpan columns fun col => netValue (getCol col)

variable [DecidableEq F] {getCol : ℕ → List (ℕ × F)}

theorem mem_netRows {columns : List ℕ} {row : ℕ} :
    row ∈ netRows getCol columns ↔ ∃ col ∈ columns, netValue (getCol col) row ≠ 0 := by
  rw [netRows, List.mem_flatMap]
  apply exists_congr
  intro col
  rw [Std.ExtTreeMap.mem_keys, ← Std.ExtTreeMap.contains_iff_mem, SparseRowVec.contains_iff, value_toSparseRowVec]

theorem toSparseRowVec_isEmpty (entries : List (ℕ × F)) :
    (toSparseRowVec entries).isEmpty = true ↔ netValue entries = 0 := by
  rw [SparseRowVec.isEmpty_iff, value_toSparseRowVec]

/-- The witness basis is reduced and spans the witness columns. -/
theorem witnessBasis_spec (getCol : ℕ → List (ℕ × F)) (columns : List ℕ) :
    (witnessBasis getCol columns).Reduced ∧ (witnessBasis getCol columns).span = columnSpan getCol columns := by
  have loop : ∀ basis : RowBasis F, basis.Reduced →
      let final := columns.foldl (fun basis j =>
        let entries := getCol j
        if entries.isEmpty then basis
        else
          let v := toSparseRowVec entries
          if !v.isEmpty then basis.insert v else basis) basis
      final.Reduced ∧ final.span = basis.span ⊔ columnSpan getCol columns := by
    induction columns with
    | nil => simp [columnSpan, rowSpan]
    | cons j rest ih =>
        intro basis reduced
        have step : ∃ next : RowBasis F, next.Reduced ∧
            next.span = basis.span ⊔ Submodule.span F {netValue (getCol j)} ∧
            (if (getCol j).isEmpty then basis
              else if !(toSparseRowVec (getCol j)).isEmpty then basis.insert (toSparseRowVec (getCol j))
              else basis) = next := by
          have unchanged (zero : netValue (getCol j) = 0) :
              basis.span = basis.span ⊔ Submodule.span F {netValue (getCol j)} := by
            rw [zero, Submodule.span_zero_singleton, sup_bot_eq]
          by_cases empty : (getCol j).isEmpty = true
          · have zero : netValue (getCol j) = 0 := by
              rw [List.isEmpty_iff.mp empty]
              rfl
            exact ⟨basis, reduced, unchanged zero, if_pos empty⟩
          · rw [if_neg empty]
            by_cases zero : netValue (getCol j) = 0
            · refine ⟨basis, reduced, unchanged zero, ?_⟩
              rw [(toSparseRowVec_isEmpty _).mpr zero]
              rfl
            · have inserted := reduced.insert (toSparseRowVec (getCol j))
              rw [value_toSparseRowVec] at inserted
              refine ⟨_, inserted.1, inserted.2, ?_⟩
              rw [Bool.eq_false_iff.mpr fun isEmpty => zero ((toSparseRowVec_isEmpty _).mp isEmpty)]
              rfl
        obtain ⟨next, nextReduced, added, same⟩ := step
        obtain ⟨final, spanned⟩ := ih next nextReduced
        dsimp only at final spanned ⊢
        rw [List.foldl_cons, same]
        refine ⟨final, ?_⟩
        rw [spanned, added, columnSpan, columnSpan, rowSpan_cons, sup_assoc]
  have run := loop RowBasis.new RowBasis.reduced_new
  rw [RowBasis.span_new, bot_sup_eq] at run
  exact run

/-- The loop over the public columns: the first basis spans them, the second one their residuals, and
the flag tells whether a nonzero column lies in the span of the witness columns. -/
theorem scan_spec {witBasis : RowBasis F} (witReduced : witBasis.Reduced) (getCol : ℕ → List (ℕ × F))
    (columns : List ℕ) :
    ∀ scan : PublicScan F, scan.pubBasis.Reduced → scan.pubReducedBasis.Reduced →
      let final := columns.foldl (scanColumn witBasis getCol) scan
      final.pubBasis.Reduced ∧ final.pubReducedBasis.Reduced ∧
        final.pubBasis.span = scan.pubBasis.span ⊔ columnSpan getCol columns ∧
        final.pubReducedBasis.span = scan.pubReducedBasis.span ⊔
          rowSpan columns (fun col => (witBasis.reduce (toSparseRowVec (getCol col))).value) ∧
        (final.allSeparated = true ↔ scan.allSeparated = true ∧
          ∀ col ∈ columns, netValue (getCol col) ∈ witBasis.span → netValue (getCol col) = 0) := by
  induction columns with
  | nil =>
      intro scan pub image
      simp [columnSpan, rowSpan, pub, image]
  | cons i rest ih =>
      intro scan pub image
      set v := toSparseRowVec (getCol i) with hv
      have value : v.value = netValue (getCol i) := value_toSparseRowVec _
      obtain ⟨inserted, pubAdded⟩ := pub.insert v
      have residual := witReduced.residual v
      have step : ∃ next, scanColumn witBasis getCol scan i = next ∧ next.pubBasis.Reduced ∧
          next.pubReducedBasis.Reduced ∧
          next.pubBasis.span = scan.pubBasis.span ⊔ Submodule.span F {v.value} ∧
          next.pubReducedBasis.span = scan.pubReducedBasis.span ⊔ Submodule.span F {(witBasis.reduce v).value} ∧
          (next.allSeparated = true ↔ scan.allSeparated = true ∧ (v.value ∈ witBasis.span → v.value = 0)) := by
        refine ⟨_, rfl, ?_⟩
        rw [scanColumn, ← hv]
        dsimp only
        by_cases empty : v.isEmpty = true
        · have zero := (SparseRowVec.isEmpty_iff v).mp empty
          have image0 : (witBasis.reduce v).value = 0 := by
            rw [RowBasis.value_reduce, zero, eliminate_eq_zero_iff witReduced.isEchelon]
            exact Submodule.zero_mem _
          rw [if_pos empty, image0, zero, Submodule.span_zero_singleton, sup_bot_eq, sup_bot_eq]
          exact ⟨pub, image, rfl, rfl, by simp⟩
        · have nonzero : v.value ≠ 0 := fun zero => empty ((SparseRowVec.isEmpty_iff v).mpr zero)
          rw [if_neg empty]
          by_cases inside : (witBasis.reduce v).isEmpty = true
          · have image0 := (SparseRowVec.isEmpty_iff _).mp inside
            rw [if_pos inside, image0, Submodule.span_zero_singleton, sup_bot_eq]
            refine ⟨inserted, image, pubAdded, rfl, ?_⟩
            have member := (witReduced.reduce_isEmpty_iff v).mp inside
            simp [member, nonzero]
          · obtain ⟨imageInserted, imageAdded⟩ := image.insert (witBasis.reduce v)
            rw [if_neg inside]
            refine ⟨inserted, imageInserted, pubAdded, imageAdded, ?_⟩
            have outside : v.value ∉ witBasis.span :=
              fun member => inside ((witReduced.reduce_isEmpty_iff v).mpr member)
            simp [outside]
      obtain ⟨next, same, nextPub, nextImage, pubSpan, imageSpan, flag⟩ := step
      obtain ⟨finalPub, finalImage, finalSpan, finalImageSpan, finalFlag⟩ := ih next nextPub nextImage
      dsimp only at finalPub finalImage finalSpan finalImageSpan finalFlag ⊢
      rw [List.foldl_cons, same]
      refine ⟨finalPub, finalImage, ?_, ?_, ?_⟩
      · rw [finalSpan, pubSpan, value, columnSpan, columnSpan, rowSpan_cons, sup_assoc]
      · rw [finalImageSpan, imageSpan, rowSpan_cons, sup_assoc]
      · rw [finalFlag, flag, value, List.forall_mem_cons, and_assoc]

/-- Columns without a common row have spans that meet in zero only. -/
theorem inf_columnSpan_eq_bot {pub wit : List ℕ}
    (disjoint : ∀ j ∈ wit, ∀ row ∈ netRows getCol pub, netValue (getCol j) row = 0) :
    columnSpan getCol pub ⊓ columnSpan getCol wit = ⊥ := by
  rw [Submodule.eq_bot_iff]
  intro v member
  obtain ⟨inPub, inWit⟩ := Submodule.mem_inf.mp member
  funext row
  by_cases listed : row ∈ netRows getCol pub
  · apply apply_eq_zero_of_mem inWit
    intro j witness
    exact disjoint j witness row listed
  · apply apply_eq_zero_of_mem inPub
    intro i column
    by_contra nonzero
    exact listed (mem_netRows.mpr ⟨i, column, nonzero⟩)

/-- The residuals modulo the witness columns meet their span in zero only and complete it to the span of
all columns. -/
theorem residualSpan {witBasis : RowBasis F} (witReduced : witBasis.Reduced) (getCol : ℕ → List (ℕ × F))
    (columns : List ℕ) :
    let residuals := rowSpan columns fun col => (witBasis.reduce (toSparseRowVec (getCol col))).value
    residuals ⊓ witBasis.span = ⊥ ∧ residuals ⊔ witBasis.span = columnSpan getCol columns ⊔ witBasis.span := by
  have difference (col : ℕ) : netValue (getCol col) - (witBasis.reduce (toSparseRowVec (getCol col))).value ∈
      witBasis.span := by
    have residual := (witReduced.residual (toSparseRowVec (getCol col))).2
    rwa [value_toSparseRowVec] at residual
  dsimp only
  constructor
  · rw [Submodule.eq_bot_iff]
    intro v member
    obtain ⟨inResiduals, inWitness⟩ := Submodule.mem_inf.mp member
    apply eq_zero_of_mem_rowSpan witReduced.isEchelon inWitness
    intro p pivot
    obtain ⟨pv, found⟩ := mem_stored_keys.mp pivot
    apply apply_eq_zero_of_mem inResiduals
    intro col _
    exact (witReduced.residual (toSparseRowVec (getCol col))).1 p pv found
  · apply le_antisymm
    · apply sup_le _ le_sup_right
      apply rowSpan_le
      intro col listed
      have column : netValue (getCol col) ∈ columnSpan getCol columns := row_mem_rowSpan listed
      have member := Submodule.sub_mem _ (Submodule.mem_sup_left column) (Submodule.mem_sup_right (difference col))
      rwa [sub_sub_cancel] at member
    · apply sup_le _ le_sup_right
      apply rowSpan_le
      intro col listed
      have residual : (witBasis.reduce (toSparseRowVec (getCol col))).value ∈
          rowSpan columns fun col => (witBasis.reduce (toSparseRowVec (getCol col))).value :=
        row_mem_rowSpan listed
      have member := Submodule.add_mem _ (Submodule.mem_sup_left residual)
        (Submodule.mem_sup_right (difference col))
      rwa [add_sub_cancel] at member

/-- The check answers whether the public columns `1..numPub` and the witness columns have spans that
meet in zero only. -/
theorem checkSpanSeparationMatrix_spec (numPub numWit : ℕ) (getCol : ℕ → List (ℕ × F)) :
    ∃ separated, checkSpanSeparationMatrix numPub (numPub + numWit) getCol = some separated ∧
      (separated = true ↔ columnSpan getCol (List.range' 1 (numPub - 1)) ⊓
        columnSpan getCol (List.range' numPub numWit) = ⊥) := by
  set pub := List.range' 1 (numPub - 1) with hpub
  set wit := List.range' numPub numWit with hwit
  rw [checkSpanSeparationMatrix, if_neg (by omega), Nat.add_sub_cancel_left, ← hpub]
  dsimp only
  rw [← hwit]
  split
  case isTrue none =>
    refine ⟨true, rfl, iff_of_true rfl ?_⟩
    apply inf_columnSpan_eq_bot
    intro j witness
    rw [hwit, none] at witness
    cases witness
  case isFalse =>
    split
    case isTrue noRows =>
      refine ⟨true, rfl, iff_of_true rfl ?_⟩
      apply inf_columnSpan_eq_bot
      intro j _ row listed
      rw [List.isEmpty_iff.mp noRows] at listed
      cases listed
    case isFalse =>
      split
      case isTrue noOverlap =>
        refine ⟨true, rfl, iff_of_true rfl ?_⟩
        apply inf_columnSpan_eq_bot
        intro j witness row listed
        by_contra nonzero
        have overlaps : j ∈ wit.filter fun j => (netRows getCol [j]).any (netRows getCol pub).contains := by
          rw [List.mem_filter, List.any_eq_true]
          refine ⟨witness, row, mem_netRows.mpr ⟨j, List.mem_singleton_self j, nonzero⟩, ?_⟩
          exact List.contains_iff_mem.mpr listed
        rw [List.isEmpty_iff.mp noOverlap] at overlaps
        cases overlaps
      case isFalse =>
        obtain ⟨witReduced, witSpan⟩ := witnessBasis_spec getCol wit
        obtain ⟨pubReduced, imageReduced, pubSpan, imageSpan, flag⟩ := scan_spec witReduced getCol pub
          { allSeparated := true, pubBasis := RowBasis.new, pubReducedBasis := RowBasis.new }
          RowBasis.reduced_new RowBasis.reduced_new
        obtain ⟨apart, joined⟩ := residualSpan witReduced getCol pub
        rw [RowBasis.span_new, bot_sup_eq] at pubSpan imageSpan
        rw [← imageSpan, ← pubSpan] at joined
        rw [← imageSpan] at apart
        have rank := finrank_lt_iff_inf_ne_bot apart joined
        rw [← pubReduced.size_eq, ← imageReduced.size_eq, pubSpan, witSpan] at rank
        rw [witSpan] at flag
        split
        case isTrue separated =>
          refine ⟨_, rfl, ?_⟩
          rw [Bool.not_eq_true', decide_eq_false_iff_not, rank, not_not]
        case isFalse failed =>
          refine ⟨false, rfl, iff_of_false Bool.false_ne_true ?_⟩
          intro trivial
          apply failed
          refine flag.mpr ⟨rfl, ?_⟩
          intro col listed spanned
          have column : netValue (getCol col) ∈ columnSpan getCol pub := row_mem_rowSpan listed
          have both := Submodule.mem_inf.mpr ⟨column, spanned⟩
          rwa [trivial, Submodule.mem_bot] at both

/-- The span separation check is exact for every split of the columns, and every sequence of insertions
leaves a reduced basis that recognizes the span of the inserted vectors and counts its rank. -/
theorem checkSpanSeparationMatrix_exact :
    (∀ (numPub numWit : ℕ) (getCol : ℕ → List (ℕ × F)),
      ∃ separated, checkSpanSeparationMatrix numPub (numPub + numWit) getCol = some separated ∧
        (separated = true ↔ columnSpan getCol (List.range' 1 (numPub - 1)) ⊓
          columnSpan getCol (List.range' numPub numWit) = ⊥)) ∧
    ∀ vs : List (SparseRowVec F),
      let basis := vs.foldl RowBasis.insert RowBasis.new
      let inserted := Submodule.span F {w | ∃ v ∈ vs, v.value = w}
      basis.Reduced ∧ (∀ v : SparseRowVec F, (basis.reduce v).isEmpty = true ↔ v.value ∈ inserted) ∧
        basis.pivots.size = Module.finrank F inserted := by
  constructor
  · exact checkSpanSeparationMatrix_spec
  · intro vs
    obtain ⟨reduced, spanned⟩ := RowBasis.reduced_new.inserts vs
    rw [RowBasis.span_new, bot_sup_eq] at spanned
    dsimp only
    refine ⟨reduced, ?_, ?_⟩
    · intro v
      rw [reduced.reduce_isEmpty_iff, spanned]
    · rw [reduced.size_eq, spanned]

end Pvugc.Audit
