import Pvugc.Algebra.Echelon

namespace Pvugc.Audit
open Pvugc.Algebra

/-- Normalized dense vectors keyed by their pivot indices. -/
structure Basis (F : Type) (n : ℕ) where
  rows : Std.ExtTreeMap ℕ (Vector F n)

section Value

variable {F : Type} [Zero F] {n : ℕ}

/-- The coordinate of a dense vector, zero beyond its length. -/
def denseValue (v : Vector F n) (k : ℕ) : F := v[k]?.getD 0

theorem denseValue_of_lt (v : Vector F n) {k : ℕ} (inside : k < n) : denseValue v k = v[k] := by
  rw [denseValue, Vector.getElem?_eq_getElem inside, Option.getD_some]

theorem denseValue_of_le (v : Vector F n) {k : ℕ} (outside : n ≤ k) : denseValue v k = 0 := by
  rw [denseValue, Vector.getElem?_eq_none outside, Option.getD_none]

theorem denseValue_zero (k : ℕ) : denseValue (Vector.replicate n (0 : F)) k = 0 := by
  rcases Nat.lt_or_ge k n with inside | outside
  · rw [denseValue_of_lt _ inside, Vector.getElem_replicate]
  · exact denseValue_of_le _ outside

theorem denseValue_set (v : Vector F n) {i : ℕ} (inside : i < n) (x : F) (k : ℕ) :
    denseValue (v.setIfInBounds i x) k = if k = i then x else denseValue v k := by
  rw [denseValue, Vector.getElem?_setIfInBounds]
  by_cases same : k = i
  · rw [if_pos same, if_pos same.symm, if_pos inside, Option.getD_some]
  · rw [if_neg same, if_neg (Ne.symm same), denseValue]

variable [DecidableEq F]

/-- A vector is zero in all coordinates exactly when the scan of its entries says so. -/
theorem all_zero_iff (v : Vector F n) : v.toList.all (· = 0) = true ↔ denseValue v = 0 := by
  rw [List.all_eq_true]
  constructor
  · intro zeros
    funext k
    rcases Nat.lt_or_ge k n with inside | outside
    · have entry := zeros v[k] (Vector.mem_toList_iff.mpr (Vector.getElem_mem inside))
      rw [denseValue_of_lt _ inside]
      exact of_decide_eq_true entry
    · exact denseValue_of_le v outside
  · intro zero x member
    obtain ⟨k, inside, rfl⟩ := Vector.mem_iff_getElem.mp (Vector.mem_toList_iff.mp member)
    rw [← denseValue_of_lt v inside, zero]
    exact decide_eq_true rfl

end Value

namespace Basis

section Code

variable {F : Type} [Field F] [DecidableEq F] {n : ℕ}

def new : Basis F n where
  rows := ∅

/-- The elimination of one row, from its pivot on. -/
def reduceRow (v : Vector F n) (pivot : ℕ) (row : Vector F n) : Vector F n :=
  if inside : pivot < n then
    let factor := v[pivot]
    if factor ≠ 0 then Vector.ofFn fun k => if pivot ≤ k then v[k] - factor * row[k] else v[k]
    else v
  else v

/-- `reduce` visits the rows in ascending order of their pivots. -/
def reduce (basis : Basis F n) (v : Vector F n) : Vector F n := basis.rows.foldl reduceRow v

/-- `insert` keeps the rows that are already stored and normalizes the residual at its first nonzero
coordinate. -/
def insert (basis : Basis F n) (v : Vector F n) : Basis F n :=
  let reduced := basis.reduce v
  match reduced.toList.findIdx? (· ≠ 0) with
  | none => basis
  | some pivot =>
    let inv := (denseValue reduced pivot)⁻¹
    { rows := basis.rows.insert pivot (reduced.map (· * inv)) }

end Code

variable {F : Type} [Field F] {n : ℕ}

/-- The span of the rows. -/
def span (basis : Basis F n) : Submodule F (ℕ → F) := storedSpan denseValue basis.rows

/-- The rows are in echelon form, not reduced against each other. -/
abbrev Echelon (basis : Basis F n) : Prop := StoredEchelon denseValue basis.rows

theorem echelon_new : (new : Basis F n).Echelon where
  unit p row found := by simp [new] at found
  before p row found := by simp [new] at found

theorem span_new : (new : Basis F n).span = ⊥ := storedSpan_empty

variable [DecidableEq F]

/-- `reduce` eliminates the rows in the order of their pivots, as they are zero before these. -/
theorem Echelon.value_reduce {basis : Basis F n} (echelon : basis.Echelon) (v : Vector F n) :
    denseValue (basis.reduce v) =
      eliminate (storedRow denseValue basis.rows) basis.rows.keys (denseValue v) := by
  rw [reduce]
  apply value_foldl_stored
  intro v pivot row found
  have inside : pivot < n := by
    by_contra outside
    have unit := echelon.unit pivot row found
    rw [denseValue_of_le row (Nat.le_of_not_lt outside)] at unit
    exact zero_ne_one unit
  rw [reduceRow, dif_pos inside, denseValue_of_lt v inside]
  dsimp only
  by_cases zero : v[pivot] = 0
  · rw [if_neg (not_not.mpr zero), zero, zero_smul, sub_zero]
  · rw [if_pos zero]
    funext k
    rw [Pi.sub_apply, Pi.smul_apply, smul_eq_mul]
    rcases Nat.lt_or_ge k n with bound | outside
    · rw [denseValue_of_lt _ bound, Vector.getElem_ofFn, denseValue_of_lt v bound, denseValue_of_lt row bound]
      split
      case isTrue => rfl
      case isFalse earlier =>
        have clear := echelon.before pivot row found k (Nat.lt_of_not_le earlier)
        rw [denseValue_of_lt row bound] at clear
        rw [clear, mul_zero, sub_zero]
        rfl
    · rw [denseValue_of_le _ outside, denseValue_of_le _ outside, denseValue_of_le _ outside, mul_zero, sub_zero]

/-- The residual of a vector is zero exactly on the span of the basis. -/
theorem Echelon.reduce_all_zero_iff {basis : Basis F n} (echelon : basis.Echelon) (v : Vector F n) :
    (basis.reduce v).toList.all (· = 0) = true ↔ denseValue v ∈ basis.span := by
  rw [all_zero_iff, echelon.value_reduce]
  exact eliminate_eq_zero_iff echelon.isEchelon _

/-- The first nonzero coordinate of a residual. -/
theorem findIdx?_spec {v : Vector F n} {pivot : ℕ} (found : v.toList.findIdx? (· ≠ 0) = some pivot) :
    denseValue v pivot ≠ 0 ∧ ∀ q < pivot, denseValue v q = 0 := by
  obtain ⟨inside, nonzero, earlier⟩ := List.findIdx?_eq_some_iff_getElem.mp found
  have bound : pivot < n := by simpa using inside
  constructor
  · rw [denseValue_of_lt v bound]
    simpa using nonzero
  · intro q before
    rw [denseValue_of_lt v (before.trans bound)]
    simpa using earlier q before

omit [DecidableEq F] in
/-- A row with a new pivot keeps the echelon form. -/
theorem Echelon.add_row {basis : Basis F n} (echelon : basis.Echelon) {pivot : ℕ} {w : Vector F n}
    (unit : denseValue w pivot = 1) (before : ∀ q < pivot, denseValue w q = 0) :
    StoredEchelon denseValue (basis.rows.insert pivot w) := by
  constructor
  · intro p row present
    rw [getElem?_insert_pivot] at present
    split at present
    case isTrue same =>
      rw [← Option.some.inj present, same]
      exact unit
    case isFalse => exact echelon.unit p row present
  · intro p row present q earlier
    rw [getElem?_insert_pivot] at present
    split at present
    case isTrue same =>
      rw [same] at earlier
      rw [← Option.some.inj present]
      exact before q earlier
    case isFalse => exact echelon.before p row present q earlier

omit [DecidableEq F] in
/-- A row with a new pivot adds its span. -/
theorem storedSpan_add_row {basis : Basis F n} {pivot : ℕ} (fresh : basis.rows[pivot]? = none) (w : Vector F n) :
    storedSpan denseValue (basis.rows.insert pivot w) = basis.span ⊔ Submodule.span F {denseValue w} := by
  apply le_antisymm
  · apply storedSpan_le
    intro p row present
    rw [getElem?_insert_pivot] at present
    split at present
    case isTrue =>
      rw [← Option.some.inj present]
      exact Submodule.mem_sup_right (Submodule.mem_span_singleton_self _)
    case isFalse => exact Submodule.mem_sup_left (value_mem_storedSpan present)
  · apply sup_le
    · apply storedSpan_le
      intro p row present
      apply value_mem_storedSpan (p := p)
      rw [getElem?_insert_pivot, if_neg]
      · exact present
      · intro same
        rw [same, fresh] at present
        cases present
    · rw [Submodule.span_singleton_le_iff_mem]
      apply value_mem_storedSpan (p := pivot)
      rw [getElem?_insert_pivot, if_pos rfl]

/-- Insertion keeps the echelon form and adds the vector to the span. -/
theorem Echelon.insert {basis : Basis F n} (echelon : basis.Echelon) (v : Vector F n) :
    (basis.insert v).Echelon ∧ (basis.insert v).span = basis.span ⊔ Submodule.span F {denseValue v} := by
  have difference : denseValue v - denseValue (basis.reduce v) ∈ basis.span := by
    rw [echelon.value_reduce]
    exact sub_eliminate_mem _ _ _
  rw [Basis.insert]
  dsimp only
  split
  case h_1 none =>
    have zero : denseValue (basis.reduce v) = 0 := by
      rw [← all_zero_iff, List.all_eq_true]
      intro x member
      simpa using List.findIdx?_eq_none_iff.mp none x member
    rw [zero, sub_zero] at difference
    refine ⟨echelon, ?_⟩
    symm
    rw [sup_eq_left, Submodule.span_singleton_le_iff_mem]
    exact difference
  case h_2 pivot found =>
    obtain ⟨nonzero, earlier⟩ := findIdx?_spec found
    set c := denseValue (basis.reduce v) pivot with hc
    set w := (basis.reduce v).map (· * c⁻¹) with hw
    have scaled : denseValue w = c⁻¹ • denseValue (basis.reduce v) := by
      funext k
      rw [hw, Pi.smul_apply, smul_eq_mul]
      rcases Nat.lt_or_ge k n with inside | outside
      · rw [denseValue_of_lt _ inside, Vector.getElem_map, denseValue_of_lt _ inside, mul_comm]
      · rw [denseValue_of_le _ outside, denseValue_of_le _ outside, mul_zero]
    have unit : denseValue w pivot = 1 := by
      rw [scaled, Pi.smul_apply, ← hc, smul_eq_mul, inv_mul_cancel₀ nonzero]
    have before : ∀ q < pivot, denseValue w q = 0 := by
      intro q first
      rw [scaled, Pi.smul_apply, earlier q first, smul_zero]
    have fresh : basis.rows[pivot]? = none := by
      rw [Option.eq_none_iff_forall_not_mem]
      intro row present
      apply nonzero
      rw [hc, echelon.value_reduce]
      exact eliminate_pivot echelon.isEchelon _ (mem_stored_keys.mpr ⟨row, present⟩)
    refine ⟨echelon.add_row unit before, ?_⟩
    rw [span, storedSpan_add_row fresh, scaled]
    exact sup_span_smul_residual difference (inv_ne_zero nonzero)

/-- Every sequence of insertions keeps the echelon form and spans the inserted vectors. -/
theorem Echelon.inserts {basis : Basis F n} (echelon : basis.Echelon) (vs : List (Vector F n)) :
    (vs.foldl Basis.insert basis).Echelon ∧ (vs.foldl Basis.insert basis).span =
      basis.span ⊔ Submodule.span F {w | ∃ v ∈ vs, denseValue v = w} := by
  induction vs generalizing basis with
  | nil => simp [echelon]
  | cons v rest ih =>
      obtain ⟨next, added⟩ := echelon.insert v
      obtain ⟨final, spanned⟩ := ih next
      refine ⟨final, ?_⟩
      have values : {w | ∃ u ∈ v :: rest, denseValue u = w} =
          {denseValue v} ∪ {w | ∃ u ∈ rest, denseValue u = w} := by
        ext w
        simp [eq_comm]
      rw [List.foldl_cons, spanned, added, values, Submodule.span_union, sup_assoc]

end Basis

end Pvugc.Audit
