import Mathlib
import Pvugc.Algebra.Numerals

namespace Pvugc.Algebra
open Finset

section Code

variable {F : Type} [Field F] [DecidableEq F] {n : ℕ}

/-- A square matrix next to the matrix that records the row operations. -/
abbrev Augmented (F : Type) (n : ℕ) := Fin n → Fin n ⊕ Fin n → F

/-- The first row from the diagonal down with a nonzero entry in the column. -/
def findPivot (aug : Augmented F n) (col : Fin n) : Option (Fin n) :=
  (List.finRange n).find? fun r => decide (col ≤ r) && decide (aug r (.inl col) ≠ 0)

/-- The pivot row is swapped up, scaled, and subtracted from every other row. -/
def eliminateWith (aug : Augmented F n) (col pivotRow : Fin n) : Augmented F n :=
  let swapped : Augmented F n := fun r => aug (Equiv.swap col pivotRow r)
  let invPivot := (swapped col (.inl col))⁻¹
  let pivot := fun j => swapped col j * invPivot
  fun row =>
    if row = col then pivot
    else
      let factor := swapped row (.inl col)
      if factor ≠ 0 then fun j => swapped row j - pivot j * factor else swapped row

/-- One round of the elimination. -/
def eliminateColumn (aug : Augmented F n) (col : Fin n) : Option (Augmented F n) :=
  match findPivot aug col with
  | none => none
  | some pivotRow => some (eliminateWith aug col pivotRow)

/-- Gauss-Jordan elimination; the right half of the reduced matrix is the inverse. -/
def invertMatrix (matrix : Fin n → Fin n → F) : Option (Fin n → Fin n → F) :=
  let aug : Augmented F n := fun i => Sum.elim (matrix i) fun j => if j = i then 1 else 0
  ((List.finRange n).foldlM eliminateColumn aug).map fun aug i j => aug i (.inr j)

end Code

variable {F : Type} [Field F] {n : ℕ}

/-- The left half is the right half times the matrix, it has a trivial kernel, and its first `count`
columns are unit columns. -/
structure Reduced (matrix : Fin n → Fin n → F) (count : ℕ) (aug : Augmented F n) : Prop where
  product : ∀ i k, aug i (.inl k) = ∑ j, aug i (.inr j) * matrix j k
  kernel : ∀ v : Fin n → F, (∀ i, ∑ k, aug i (.inl k) * v k = 0) → v = 0
  unit : ∀ i k : Fin n, k.val < count → aug i (.inl k) = if i = k then 1 else 0

/-- The augmented matrix starts out reduced in no column. -/
theorem reduced_zero {matrix : Fin n → Fin n → F}
    (kernel : ∀ v : Fin n → F, (∀ i, ∑ k, matrix i k * v k = 0) → v = 0) :
    Reduced matrix 0 fun i => Sum.elim (matrix i) fun j => if j = i then 1 else 0 where
  product i k := by simp
  kernel := kernel
  unit i k impossible := absurd impossible (Nat.not_lt_zero _)

/-- The interpolation matrix of affinely independent points has a trivial kernel. -/
theorem kernel_of_affineIndependent {p : Fin (n + 1) → Fin n → F} (independent : AffineIndependent F p)
    (v : Fin (n + 1) → F) (vanishes : ∀ i, v 0 + ∑ k, p i k * v k.succ = 0) : v = 0 := by
  set M : Matrix (Fin (n + 1)) (Fin (n + 1)) F := Matrix.of fun i => Fin.cons 1 (p i) with hM
  have rows : LinearIndependent F M.row := by
    rw [Fintype.linearIndependent_iff]
    intro w combination i
    have weights : ∑ j, w j = 0 := by
      have first := congrFun combination 0
      simpa [hM, Matrix.row] using first
    have points : ∑ j, w j • p j = 0 := by
      funext k
      have coordinate := congrFun combination k.succ
      simpa [hM, Matrix.row] using coordinate
    exact affineIndependent_iff.mp independent univ w weights points i (mem_univ i)
  have injective := Matrix.mulVec_injective_of_isUnit (Matrix.linearIndependent_rows_iff_isUnit.mp rows)
  apply injective
  rw [Matrix.mulVec_zero]
  funext i
  rw [Matrix.mulVec, dotProduct, Fin.sum_univ_succ]
  simpa [hM] using vanishes i

variable {matrix : Fin n → Fin n → F} {aug : Augmented F n}

/-- A column without a pivot would be a combination of the columns before it. -/
theorem Reduced.exists_pivot {col : Fin n} (reduced : Reduced matrix col aug) :
    ∃ r, col ≤ r ∧ aug r (.inl col) ≠ 0 := by
  by_contra missing
  push Not at missing
  let v : Fin n → F := fun k => if k = col then 1 else if k < col then -aug k (.inl col) else 0
  have zero : v = 0 := by
    apply reduced.kernel
    intro i
    have term (k : Fin n) : aug i (.inl k) * v k =
        (if k = col then aug i (.inl col) else 0) -
          if k = i then (if i < col then aug i (.inl col) else 0) else 0 := by
      simp only [v]
      by_cases same : k = col
      · subst same
        rw [if_pos rfl, if_pos rfl, mul_one]
        by_cases diagonal : k = i
        · subst diagonal
          rw [if_pos rfl, if_neg (lt_irrefl _), sub_zero]
        · rw [if_neg diagonal, sub_zero]
      · rw [if_neg same, if_neg same, zero_sub]
        by_cases before : k < col
        · rw [if_pos before, reduced.unit i k before]
          by_cases diagonal : k = i
          · subst diagonal
            rw [if_pos rfl, if_pos rfl, if_pos before, one_mul]
          · rw [if_neg (Ne.symm diagonal), if_neg diagonal, zero_mul, neg_zero]
        · rw [if_neg before, mul_zero]
          by_cases diagonal : k = i
          · subst diagonal
            rw [if_pos rfl, if_neg before, neg_zero]
          · rw [if_neg diagonal, neg_zero]
    rw [sum_congr rfl fun k _ => term k, sum_sub_distrib, sum_ite_eq' univ, sum_ite_eq' univ,
      if_pos (mem_univ _), if_pos (mem_univ _)]
    by_cases before : i < col
    · rw [if_pos before, sub_self]
    · rw [if_neg before, missing i (not_lt.mp before), sub_zero]
  have one : v col = 1 := if_pos rfl
  rw [zero] at one
  exact zero_ne_one one

variable [DecidableEq F]

theorem findPivot_eq_some {col pivotRow : Fin n} (found : findPivot aug col = some pivotRow) :
    col ≤ pivotRow ∧ aug pivotRow (.inl col) ≠ 0 := by
  simpa using List.find?_some found

theorem Reduced.findPivot_exists {col : Fin n} (reduced : Reduced matrix col aug) :
    ∃ pivotRow, findPivot aug col = some pivotRow := by
  obtain ⟨r, below, nonzero⟩ := reduced.exists_pivot
  have present : (findPivot aug col).isSome := by
    rw [findPivot, List.find?_isSome]
    exact ⟨r, List.mem_finRange r, by simp [below, nonzero]⟩
  exact Option.isSome_iff_exists.mp present

/-- The entries of a round, with the pivot row read before the swap. -/
theorem eliminateWith_apply (aug : Augmented F n) (col pivotRow row : Fin n) (j : Fin n ⊕ Fin n) :
    eliminateWith aug col pivotRow row j =
      if row = col then aug pivotRow j * (aug pivotRow (.inl col))⁻¹
      else aug (Equiv.swap col pivotRow row) j -
        aug pivotRow j * (aug pivotRow (.inl col))⁻¹ * aug (Equiv.swap col pivotRow row) (.inl col) := by
  simp only [eliminateWith, Equiv.swap_apply_left]
  split
  case isTrue => rfl
  case isFalse =>
    split
    case isTrue => rfl
    case isFalse zero => rw [not_not.mp zero, mul_zero, sub_zero]

/-- The left half stays the right half times the matrix through a round. -/
theorem eliminateWith_product (product : ∀ i k, aug i (.inl k) = ∑ j, aug i (.inr j) * matrix j k)
    (col pivotRow i k : Fin n) : eliminateWith aug col pivotRow i (.inl k) =
      ∑ j, eliminateWith aug col pivotRow i (.inr j) * matrix j k := by
  simp only [eliminateWith_apply]
  split
  case isTrue =>
    rw [product pivotRow k, sum_mul]
    apply sum_congr rfl
    intro j _
    ring
  case isFalse =>
    rw [product _ k, product pivotRow k, sum_mul, sum_mul, ← sum_sub_distrib]
    apply sum_congr rfl
    intro j _
    ring

/-- The rows before a round are combinations of the rows after it. -/
theorem Reduced.eliminateWith_kernel {count : ℕ} (reduced : Reduced matrix count aug) {col pivotRow : Fin n}
    (nonzero : aug pivotRow (.inl col) ≠ 0) (v : Fin n → F)
    (vanishes : ∀ i, ∑ k, eliminateWith aug col pivotRow i (.inl k) * v k = 0) : v = 0 := by
  have pivotVanishes : ∑ k, aug pivotRow (.inl k) * v k = 0 := by
    have row := vanishes col
    simp only [eliminateWith_apply, if_true, mul_right_comm _ (aug pivotRow (.inl col))⁻¹] at row
    rw [← sum_mul] at row
    exact (mul_eq_zero.mp row).resolve_right (inv_ne_zero nonzero)
  have swappedVanishes (i : Fin n) : ∑ k, aug (Equiv.swap col pivotRow i) (.inl k) * v k = 0 := by
    by_cases same : i = col
    · rw [same, Equiv.swap_apply_left]
      exact pivotVanishes
    · have row := vanishes i
      simp only [eliminateWith_apply, if_neg same, sub_mul, sum_sub_distrib] at row
      have cleared : ∑ k, aug pivotRow (.inl k) * (aug pivotRow (.inl col))⁻¹ *
          aug (Equiv.swap col pivotRow i) (.inl col) * v k =
            (aug pivotRow (.inl col))⁻¹ * aug (Equiv.swap col pivotRow i) (.inl col) *
              ∑ k, aug pivotRow (.inl k) * v k := by
        rw [mul_sum]
        apply sum_congr rfl
        intro k _
        ring
      rwa [cleared, pivotVanishes, mul_zero, sub_zero] at row
  apply reduced.kernel
  intro i
  have row := swappedVanishes (Equiv.swap col pivotRow i)
  rwa [Equiv.swap_apply_self] at row

/-- The pivot column becomes a unit column, and the earlier unit columns stay. -/
theorem eliminateWith_unit {col pivotRow : Fin n}
    (unit : ∀ i k : Fin n, k.val < col → aug i (.inl k) = if i = k then 1 else 0) (below : col ≤ pivotRow)
    (nonzero : aug pivotRow (.inl col) ≠ 0) (i k : Fin n) (before : k.val < col + 1) :
    eliminateWith aug col pivotRow i (.inl k) = if i = k then 1 else 0 := by
  rw [eliminateWith_apply]
  by_cases same : k = col
  · subst same
    rw [mul_inv_cancel₀ nonzero, one_mul, sub_self]
  · have earlier : k < col := lt_of_le_of_ne (Fin.le_def.mpr (Nat.lt_succ_iff.mp before)) same
    rw [unit pivotRow k earlier, if_neg (ne_of_gt (earlier.trans_le below)), zero_mul, zero_mul, sub_zero,
      unit _ k earlier]
    by_cases row : i = col
    · rw [if_pos row, row, if_neg (ne_of_gt earlier)]
    · rw [if_neg row]
      by_cases swap : i = pivotRow
      · rw [swap, Equiv.swap_apply_right, if_neg (ne_of_gt earlier), if_neg (ne_of_gt (earlier.trans_le below))]
      · rw [Equiv.swap_apply_of_ne_of_ne row swap]

/-- A round reduces one more column. -/
theorem Reduced.eliminateColumn {col : Fin n} (reduced : Reduced matrix col aug) :
    ∃ next, eliminateColumn aug col = some next ∧ Reduced matrix (col + 1) next := by
  obtain ⟨pivotRow, found⟩ := reduced.findPivot_exists
  obtain ⟨below, nonzero⟩ := findPivot_eq_some found
  refine ⟨eliminateWith aug col pivotRow, ?_, ?_⟩
  · simp only [Algebra.eliminateColumn, found]
  · exact ⟨eliminateWith_product reduced.product col pivotRow, reduced.eliminateWith_kernel nonzero,
      eliminateWith_unit reduced.unit below nonzero⟩

/-- Consecutive rounds reduce consecutive columns. -/
theorem Reduced.foldlM_eliminateColumn (columns : List (Fin n)) {start : ℕ} {aug : Augmented F n}
    (consecutive : columns.map Fin.val = List.range' start columns.length)
    (reduced : Reduced matrix start aug) :
    ∃ last, columns.foldlM Algebra.eliminateColumn aug = some last ∧
      Reduced matrix (start + columns.length) last := by
  induction columns generalizing start aug with
  | nil => exact ⟨aug, rfl, reduced⟩
  | cons col rest ih =>
      rw [List.map_cons, List.length_cons, List.range'_succ, List.cons.injEq] at consecutive
      obtain ⟨rfl, tail⟩ := consecutive
      obtain ⟨next, step, nextReduced⟩ := reduced.eliminateColumn
      obtain ⟨last, run, lastReduced⟩ := ih tail nextReduced
      refine ⟨last, ?_, ?_⟩
      · rw [List.foldlM_cons, step]
        exact run
      · rwa [List.length_cons, Nat.add_comm rest.length, ← Nat.add_assoc]

/-- The elimination inverts every matrix with a trivial kernel. -/
theorem invertMatrix_mul (kernel : ∀ v : Fin n → F, (∀ i, ∑ k, matrix i k * v k = 0) → v = 0) :
    ∃ inverse, invertMatrix matrix = some inverse ∧
      ∀ i k, ∑ j, inverse i j * matrix j k = if i = k then 1 else 0 := by
  obtain ⟨last, run, reduced⟩ := (reduced_zero kernel).foldlM_eliminateColumn (List.finRange n)
    (by rw [List.map_coe_finRange_eq_range, List.length_finRange, List.range_eq_range'])
  refine ⟨fun i j => last i (.inr j), ?_, ?_⟩
  · simp only [invertMatrix, run, Option.map_some]
  · intro i k
    rw [← reduced.product, reduced.unit i k (by simp)]

/-- The left half is the right half times the matrix, and its first `count` columns are unit columns. -/
structure Linked (matrix : Fin n → Fin n → F) (count : ℕ) (aug : Augmented F n) : Prop where
  product : ∀ i k, aug i (.inl k) = ∑ j, aug i (.inr j) * matrix j k
  unit : ∀ i k : Fin n, k.val < count → aug i (.inl k) = if i = k then 1 else 0

/-- A round that finds a pivot links one more column. -/
theorem Linked.eliminateColumn {col : Fin n} {next : Augmented F n} (linked : Linked matrix col aug)
    (step : Algebra.eliminateColumn aug col = some next) : Linked matrix (col + 1) next := by
  rw [Algebra.eliminateColumn] at step
  split at step
  case h_1 => cases step
  case h_2 pivotRow found =>
    obtain ⟨below, nonzero⟩ := findPivot_eq_some found
    cases step
    exact ⟨eliminateWith_product linked.product col pivotRow, eliminateWith_unit linked.unit below nonzero⟩

/-- Consecutive rounds that all find a pivot link consecutive columns. -/
theorem Linked.foldlM_eliminateColumn (columns : List (Fin n)) {start : ℕ} {aug last : Augmented F n}
    (consecutive : columns.map Fin.val = List.range' start columns.length) (linked : Linked matrix start aug)
    (run : columns.foldlM Algebra.eliminateColumn aug = some last) :
    Linked matrix (start + columns.length) last := by
  induction columns generalizing start aug with
  | nil =>
      cases run
      exact linked
  | cons col rest ih =>
      rw [List.map_cons, List.length_cons, List.range'_succ, List.cons.injEq] at consecutive
      obtain ⟨rfl, tail⟩ := consecutive
      obtain ⟨next, step, others⟩ := Option.bind_eq_some_iff.mp run
      have lastLinked := ih tail (linked.eliminateColumn step) others
      rwa [List.length_cons, Nat.add_comm rest.length, ← Nat.add_assoc]

/-- What the elimination returns is a left inverse. -/
theorem mul_of_invertMatrix {inverse : Fin n → Fin n → F} (computed : invertMatrix matrix = some inverse) :
    Matrix.of inverse * Matrix.of matrix = 1 := by
  obtain ⟨last, run, rfl⟩ := Option.map_eq_some_iff.mp computed
  have start : Linked matrix 0 fun i => Sum.elim (matrix i) fun j => if j = i then 1 else 0 :=
    ⟨fun i k => by simp, fun i k impossible => absurd impossible (Nat.not_lt_zero _)⟩
  have linked := start.foldlM_eliminateColumn (List.finRange n)
    (by rw [List.map_coe_finRange_eq_range, List.length_finRange, List.range_eq_range']) run
  ext i k
  rw [Matrix.mul_apply, Matrix.one_apply, ← linked.unit i k (by simp)]
  exact (linked.product i k).symm

/-- The elimination returns the inverse of an invertible matrix. -/
theorem invertMatrix_eq_some_iff {inverse : Fin n → Fin n → F} : invertMatrix matrix = some inverse ↔
    Matrix.of matrix * Matrix.of inverse = 1 ∧ Matrix.of inverse * Matrix.of matrix = 1 := by
  constructor
  · intro computed
    have left := mul_of_invertMatrix computed
    exact ⟨mul_eq_one_comm.mp left, left⟩
  · rintro ⟨right, left⟩
    have kernel (v : Fin n → F) (vanishes : ∀ i, ∑ k, matrix i k * v k = 0) : v = 0 := by
      have zero : (Matrix.of matrix).mulVec v = 0 := funext vanishes
      rw [← Matrix.one_mulVec v, ← left, ← Matrix.mulVec_mulVec, zero, Matrix.mulVec_zero]
    obtain ⟨inverse', computed, -⟩ := invertMatrix_mul kernel
    have same : Matrix.of inverse' = Matrix.of inverse :=
      left_inv_eq_right_inv (mul_of_invertMatrix computed) right
    rw [computed, Matrix.of.injective same]

/-- The elimination fails exactly on singular matrices. -/
theorem invertMatrix_eq_none_iff : invertMatrix matrix = none ↔ ¬IsUnit (Matrix.of matrix) := by
  rw [← not_iff_not, not_not, ← ne_eq, Option.ne_none_iff_exists']
  constructor
  · rintro ⟨inverse, computed⟩
    obtain ⟨right, left⟩ := invertMatrix_eq_some_iff.mp computed
    exact ⟨⟨_, _, right, left⟩, rfl⟩
  · rintro ⟨unit, same⟩
    refine ⟨Matrix.of.symm (unit⁻¹ : (Matrix (Fin n) (Fin n) F)ˣ).val, invertMatrix_eq_some_iff.mpr ?_⟩
    rw [← same, Equiv.apply_symm_apply]
    exact ⟨unit.mul_inv, unit.inv_mul⟩

end Pvugc.Algebra
