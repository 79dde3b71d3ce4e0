import Pvugc.Algebra.Echelon
import Pvugc.Audit.ColumnEvaluation

namespace Pvugc.Audit
open Pvugc.Algebra

/-- A vector sorted by rows that stores no zero coefficient. -/
structure SparseRowVec (F : Type) [Zero F] where
  entries : Std.ExtTreeMap ℕ F
  nonzero : ∀ row : ℕ, entries[row]? ≠ some 0

/-- Normalized vectors sorted by their pivot rows. -/
structure RowBasis (F : Type) [Zero F] where
  pivots : Std.ExtTreeMap ℕ (SparseRowVec F)

section Code

variable {F : Type} [Field F] [DecidableEq F]

namespace SparseRowVec

def empty : SparseRowVec F where
  entries := ∅
  nonzero row := by simp

/-- The coefficient of a row, zero when it is not stored. -/
def value (v : SparseRowVec F) (row : ℕ) : F := v.entries[row]?.getD 0

def isEmpty (v : SparseRowVec F) : Bool := v.entries.isEmpty

/-- Changes the entry of a row, zero when it is not stored, and removes it when it becomes zero. -/
def update (v : SparseRowVec F) (row : ℕ) (change : F → F) : SparseRowVec F where
  entries := v.entries.alter row fun entry =>
    let changed := change (entry.getD 0)
    if changed = 0 then none else some changed
  nonzero other := by
    rw [Std.ExtTreeMap.getElem?_alter]
    split
    case isTrue =>
      dsimp only
      split
      case isTrue => simp
      case isFalse changed => simpa using changed
    case isFalse => exact v.nonzero other

/-- `v -= coeff * pv`, row by row. -/
def subMul (v : SparseRowVec F) (coeff : F) (pv : SparseRowVec F) : SparseRowVec F :=
  pv.entries.foldl (fun v row c => v.update row (· - coeff * c)) v

/-- Multiplies every stored coefficient by a nonzero factor. -/
def scale (v : SparseRowVec F) (factor : F) (unit : factor ≠ 0) : SparseRowVec F where
  entries := v.entries.map fun _ coeff => coeff * factor
  nonzero row := by
    rw [Std.ExtTreeMap.getElem?_map, ne_eq, Option.map_eq_some_iff]
    intro zero
    obtain ⟨coeff, stored, product⟩ := zero
    rw [(mul_eq_zero.mp product).resolve_right unit] at stored
    exact v.nonzero row stored

omit [DecidableEq F] in
/-- The first stored coefficient is not zero. -/
theorem first_nonzero {v : SparseRowVec F} {row : ℕ} {coeff : F} {rest : List (ℕ × F)}
    (first : v.entries.toList = (row, coeff) :: rest) : coeff ≠ 0 := by
  intro zero
  have member : (row, coeff) ∈ v.entries.toList := by simp [first]
  rw [Std.ExtTreeMap.mem_toList_iff_getElem?_eq_some, zero] at member
  exact v.nonzero row member

end SparseRowVec

/-- `to_sparse_row_vec` adds the nonzero entries of a column up by their rows. -/
def toSparseRowVec (entries : List (ℕ × F)) : SparseRowVec F :=
  entries.foldl (fun v entry => if entry.2 ≠ 0 then v.update entry.1 (· + entry.2) else v)
    SparseRowVec.empty

namespace RowBasis

def new : RowBasis F where
  pivots := ∅

/-- The elimination of one pivot from a vector. -/
def reducePivot (v : SparseRowVec F) (p : ℕ) (pv : SparseRowVec F) : SparseRowVec F :=
  match v.entries[p]? with
  | some coeff => if coeff ≠ 0 then v.subMul coeff pv else v
  | none => v

/-- `reduce` visits the pivots in ascending order. -/
def reduce (basis : RowBasis F) (v : SparseRowVec F) : SparseRowVec F :=
  basis.pivots.foldl reducePivot v

/-- A vector of the basis is removed and inserted again without its entry on the new pivot row, which
it has by the choice of the vectors. -/
def eliminatePivot (pivotRow : ℕ) (v : SparseRowVec F) (pivots : Std.ExtTreeMap ℕ (SparseRowVec F))
    (row : ℕ) : Std.ExtTreeMap ℕ (SparseRowVec F) :=
  match pivots[row]? with
  | none => pivots
  | some existingVec =>
    let rest := pivots.erase row
    let coeff := existingVec.value pivotRow
    let updated := if coeff ≠ 0 then existingVec.subMul coeff v else existingVec
    if updated.isEmpty then rest else rest.insert row updated

/-- `insert` takes the first entry of the residual as the new pivot. -/
def insert (basis : RowBasis F) (v : SparseRowVec F) : RowBasis F :=
  let reduced := basis.reduce v
  match first : reduced.entries.toList with
  | [] => basis
  | (pivotRow, pivotCoeff) :: _ =>
    let normalized := reduced.scale pivotCoeff⁻¹ (inv_ne_zero (SparseRowVec.first_nonzero first))
    let rowsToUpdate := (basis.pivots.toList.filter fun entry =>
      entry.2.entries.contains pivotRow).map Prod.fst
    { pivots := (rowsToUpdate.foldl (eliminatePivot pivotRow normalized) basis.pivots).insert
        pivotRow normalized }

end RowBasis

end Code

namespace SparseRowVec

variable {F : Type} [Field F]

theorem ext_value {v w : SparseRowVec F} (same : ∀ row, v.value row = w.value row) : v = w := by
  obtain ⟨ventries, vnonzero⟩ := v
  obtain ⟨wentries, wnonzero⟩ := w
  congr 1
  apply Std.ExtTreeMap.ext_getElem?
  intro row
  have values := same row
  have vStored := vnonzero row
  have wStored := wnonzero row
  simp only [value] at values
  cases vFound : ventries[row]? with
  | none =>
      cases wFound : wentries[row]? with
      | none => rfl
      | some d =>
          rw [vFound, wFound] at values
          rw [wFound, show d = 0 from values.symm] at wStored
          exact absurd rfl wStored
  | some c =>
      cases wFound : wentries[row]? with
      | none =>
          rw [vFound, wFound] at values
          rw [vFound, show c = 0 from values] at vStored
          exact absurd rfl vStored
      | some d =>
          rw [vFound, wFound] at values
          exact congrArg some values

@[simp] theorem value_empty (row : ℕ) : (empty : SparseRowVec F).value row = 0 := by
  simp [value, empty]

theorem isEmpty_iff (v : SparseRowVec F) : v.isEmpty = true ↔ v.value = 0 := by
  rw [isEmpty, Std.ExtTreeMap.isEmpty_iff]
  constructor
  · intro none
    funext row
    simp [value, none]
  · intro zero
    have same : v = empty := ext_value fun row => by rw [zero, value_empty]; rfl
    rw [same, empty]

theorem contains_iff (v : SparseRowVec F) (row : ℕ) : v.entries.contains row = true ↔ v.value row ≠ 0 := by
  have stored := v.nonzero row
  rw [Std.ExtTreeMap.contains_eq_isSome_getElem?, value]
  cases found : v.entries[row]? with
  | none => simp
  | some c =>
      rw [found] at stored
      simpa using stored

/-- The entries of a vector in order have its coefficients as net values. -/
theorem netValue_toList (v : SparseRowVec F) (row : ℕ) : netValue v.entries.toList row = v.value row := by
  have net (l : List (ℕ × F)) (distinct : l.Pairwise fun a b => a.1 ≠ b.1) :
      (∀ c, (row, c) ∈ l → netValue l row = c) ∧ ((∀ c, (row, c) ∉ l) → netValue l row = 0) := by
    induction l with
    | nil => simp
    | cons entry rest ih =>
        obtain ⟨later, tail⟩ := List.pairwise_cons.mp distinct
        obtain ⟨present, absent⟩ := ih tail
        constructor
        · intro c member
          rcases List.mem_cons.mp member with rfl | inRest
          · rw [netValue_cons, if_pos rfl, absent fun d repeated => later _ repeated rfl, add_zero]
          · rw [netValue_cons, if_neg (later _ inRest), zero_add, present c inRest]
        · intro none
          have different : entry.1 ≠ row := fun same => none entry.2 (by rw [← same]; exact List.mem_cons_self)
          rw [netValue_cons, if_neg different, zero_add, absent fun c inRest => none c (List.mem_cons_of_mem _ inRest)]
  obtain ⟨present, absent⟩ := net v.entries.toList
    (Std.ExtTreeMap.distinct_keys_toList.imp fun different => fun same => different (by rw [same]; simp))
  rw [value]
  cases found : v.entries[row]? with
  | none =>
      apply absent
      intro c member
      rw [Std.ExtTreeMap.mem_toList_iff_getElem?_eq_some, found] at member
      cases member
  | some c =>
      exact present c (Std.ExtTreeMap.mem_toList_iff_getElem?_eq_some.mpr found)

/-- The first entry is the only one on its row and the rows before it have none. -/
theorem value_first {v : SparseRowVec F} {row : ℕ} {coeff : F} {rest : List (ℕ × F)}
    (first : v.entries.toList = (row, coeff) :: rest) : v.value row = coeff ∧ ∀ q < row, v.value q = 0 := by
  have ordered : v.entries.toList.Pairwise fun a b => compare a.1 b.1 = .lt :=
    Std.ExtTreeMap.ordered_keys_toList
  rw [first, List.pairwise_cons] at ordered
  constructor
  · have member : (row, coeff) ∈ v.entries.toList := by simp [first]
    rw [Std.ExtTreeMap.mem_toList_iff_getElem?_eq_some] at member
    rw [value, member, Option.getD_some]
  · intro q before
    rw [value]
    cases found : v.entries[q]? with
    | none => rfl
    | some c =>
        have member := Std.ExtTreeMap.mem_toList_iff_getElem?_eq_some.mpr found
        rw [first] at member
        rcases List.mem_cons.mp member with same | later
        · cases same
          exact absurd before (lt_irrefl _)
        · have after := ordered.1 _ later
          rw [Nat.compare_eq_lt] at after
          exact absurd before after.le.not_gt

theorem value_scale (v : SparseRowVec F) (factor : F) (unit : factor ≠ 0) :
    (v.scale factor unit).value = factor • v.value := by
  funext row
  rw [value, scale, Std.ExtTreeMap.getElem?_map, Pi.smul_apply, smul_eq_mul, value]
  cases v.entries[row]? with
  | none => simp
  | some c => simp [mul_comm]

variable [DecidableEq F]

theorem value_update (v : SparseRowVec F) (row : ℕ) (change : F → F) (other : ℕ) :
    (v.update row change).value other = if row = other then change (v.value row) else v.value other := by
  rw [value, update, Std.ExtTreeMap.getElem?_alter]
  by_cases same : row = other
  · rw [if_pos (by rw [same]; simp), if_pos same]
    dsimp only
    rw [← value]
    split
    case isTrue zero => rw [zero]; rfl
    case isFalse => rfl
  · rw [if_neg (by simpa using same), if_neg same]
    rfl

/-- Subtracting a multiple row by row subtracts it from the vector. -/
theorem value_subMul (v : SparseRowVec F) (coeff : F) (pv : SparseRowVec F) :
    (v.subMul coeff pv).value = v.value - coeff • pv.value := by
  have loop (l : List (ℕ × F)) : ∀ v : SparseRowVec F, ∀ row,
      (l.foldl (fun v entry => v.update entry.1 (· - coeff * entry.2)) v).value row =
        v.value row - coeff * netValue l row := by
    induction l with
    | nil => simp
    | cons entry rest ih =>
        intro v row
        rw [List.foldl_cons, ih, value_update, netValue_cons]
        by_cases same : entry.1 = row
        · rw [if_pos same, if_pos same, same]
          ring
        · rw [if_neg same, if_neg same, zero_add]
  funext row
  rw [subMul, Std.ExtTreeMap.foldl_eq_foldl_toList, loop, netValue_toList, Pi.sub_apply, Pi.smul_apply,
    smul_eq_mul]

theorem subMul_zero (v pv : SparseRowVec F) : v.subMul 0 pv = v := by
  apply ext_value
  intro row
  rw [value_subMul, zero_smul, sub_zero]

end SparseRowVec

/-- The sparse vector of a column has its net values. -/
theorem value_toSparseRowVec {F : Type} [Field F] [DecidableEq F] (entries : List (ℕ × F)) :
    (toSparseRowVec entries).value = netValue entries := by
  have loop (l : List (ℕ × F)) : ∀ v : SparseRowVec F, ∀ row,
      (l.foldl (fun v entry => if entry.2 ≠ 0 then v.update entry.1 (· + entry.2) else v) v).value row =
        v.value row + netValue l row := by
    induction l with
    | nil => simp
    | cons entry rest ih =>
        intro v row
        rw [List.foldl_cons, ih, netValue_cons, ← add_assoc]
        congr 1
        by_cases zero : entry.2 = 0
        · rw [if_neg (not_not.mpr zero), zero, ite_self, add_zero]
        · rw [if_pos zero, SparseRowVec.value_update]
          by_cases same : entry.1 = row
          · rw [if_pos same, if_pos same, same]
          · rw [if_neg same, if_neg same, add_zero]
  funext row
  rw [toSparseRowVec, loop, SparseRowVec.value_empty, zero_add]

namespace RowBasis

section Rows

variable {F : Type} [Field F]

/-- The span of the vectors of the basis. -/
def span (basis : RowBasis F) : Submodule F (ℕ → F) := storedSpan SparseRowVec.value basis.pivots

/-- Each vector is one at its own pivot, zero at the pivots of the others, and zero on the rows before
its pivot. -/
structure Reduced (basis : RowBasis F) : Prop extends StoredEchelon SparseRowVec.value basis.pivots where
  others : ∀ (p : ℕ) (pv : SparseRowVec F), basis.pivots[p]? = some pv →
    ∀ (q : ℕ) (qv : SparseRowVec F), basis.pivots[q]? = some qv → q ≠ p → pv.value q = 0

theorem reduced_new : (new : RowBasis F).Reduced where
  unit p pv found := by simp [new] at found
  before p pv found := by simp [new] at found
  others p pv found := by simp [new] at found

theorem span_new : (new : RowBasis F).span = ⊥ := storedSpan_empty

/-- The number of pivots of a reduced basis is its rank. -/
theorem Reduced.size_eq {basis : RowBasis F} (reduced : basis.Reduced) :
    basis.pivots.size = Module.finrank F basis.span := by
  rw [span, storedSpan, reduced.isEchelon.finrank_rowSpan, Std.ExtTreeMap.length_keys]

instance (basis : RowBasis F) : FiniteDimensional F basis.span :=
  inferInstanceAs (FiniteDimensional F (storedSpan SparseRowVec.value basis.pivots))

theorem getElem?_erase (pivots : Std.ExtTreeMap ℕ (SparseRowVec F)) (row p : ℕ) :
    (pivots.erase row)[p]? = if p = row then none else pivots[p]? := by
  rw [Std.ExtTreeMap.getElem?_erase]
  by_cases same : p = row
  · rw [if_pos (by simp [same]), if_pos same]
  · rw [if_neg (by simpa using Ne.symm same), if_neg same]

end Rows

variable {F : Type} [Field F] [DecidableEq F]

/-- `reduce` eliminates the rows of the basis in the order of their pivots. -/
theorem value_reduce (basis : RowBasis F) (v : SparseRowVec F) : (basis.reduce v).value =
    eliminate (storedRow SparseRowVec.value basis.pivots) basis.pivots.keys v.value := by
  rw [reduce]
  apply value_foldl_stored
  intro v p pv _
  have coefficient : v.value p = (v.entries[p]?).getD 0 := rfl
  rw [reducePivot, coefficient]
  cases v.entries[p]? with
  | none => simp
  | some coeff =>
      by_cases zero : coeff = 0
      · simp [zero]
      · simp only [if_pos zero, Option.getD_some]
        exact v.value_subMul coeff pv

/-- The residual of a vector is empty exactly on the span of the basis. -/
theorem Reduced.reduce_isEmpty_iff {basis : RowBasis F} (reduced : basis.Reduced) (v : SparseRowVec F) :
    (basis.reduce v).isEmpty = true ↔ v.value ∈ basis.span := by
  rw [SparseRowVec.isEmpty_iff, value_reduce]
  exact eliminate_eq_zero_iff reduced.isEchelon v.value

/-- The residual is zero at the pivots and differs from the vector by a member of the span. -/
theorem Reduced.residual {basis : RowBasis F} (reduced : basis.Reduced) (v : SparseRowVec F) :
    (∀ (p : ℕ) (pv : SparseRowVec F), basis.pivots[p]? = some pv → (basis.reduce v).value p = 0) ∧
      v.value - (basis.reduce v).value ∈ basis.span := by
  rw [value_reduce]
  constructor
  · intro p pv found
    exact eliminate_pivot reduced.isEchelon v.value (mem_stored_keys.mpr ⟨pv, found⟩)
  · exact sub_eliminate_mem _ _ v.value

/-- Eliminating the new pivot rewrites the vector at one row, which stays one at its own pivot. -/
theorem getElem?_eliminatePivot {pivotRow : ℕ} {v : SparseRowVec F}
    {pivots : Std.ExtTreeMap ℕ (SparseRowVec F)} {row : ℕ}
    (unit : ∀ pv : SparseRowVec F, pivots[row]? = some pv → pv.value row = 1 ∧ v.value row = 0) (p : ℕ) :
    (eliminatePivot pivotRow v pivots row)[p]? =
      if p = row then (pivots[row]?).map fun (pv : SparseRowVec F) => pv.subMul (pv.value pivotRow) v
      else pivots[p]? := by
  rw [eliminatePivot]
  cases found : pivots[row]? with
  | none =>
      by_cases same : p = row
      · rw [if_pos same, same, Option.map_none]
        exact found
      · rw [if_neg same]
  | some pv =>
      obtain ⟨one, clear⟩ := unit pv found
      have updated : (if pv.value pivotRow ≠ 0 then pv.subMul (pv.value pivotRow) v else pv) =
          pv.subMul (pv.value pivotRow) v := by
        split
        case isTrue => rfl
        case isFalse zero => rw [not_not.mp zero, SparseRowVec.subMul_zero]
      have present : (pv.subMul (pv.value pivotRow) v).isEmpty = false := by
        rw [← Bool.not_eq_true, SparseRowVec.isEmpty_iff]
        intro zero
        have pivot := congrFun zero row
        rw [SparseRowVec.value_subMul, Pi.sub_apply, Pi.smul_apply, clear, smul_zero, sub_zero, one] at pivot
        exact one_ne_zero pivot
      dsimp only
      rw [updated, present, if_neg Bool.false_ne_true, getElem?_insert_pivot, getElem?_erase, Option.map_some]
      by_cases same : p = row
      · rw [if_pos same, if_pos same]
      · rw [if_neg same, if_neg same, if_neg same]

/-- The loop rewrites each listed vector once and leaves the other vectors. -/
theorem getElem?_foldl_eliminatePivot (pivotRow : ℕ) {v : SparseRowVec F}
    {stored : Std.ExtTreeMap ℕ (SparseRowVec F)}
    (unit : ∀ (p : ℕ) (pv : SparseRowVec F), stored[p]? = some pv → pv.value p = 1 ∧ v.value p = 0)
    {rows : List ℕ} (distinct : rows.Nodup) {pivots : Std.ExtTreeMap ℕ (SparseRowVec F)}
    (untouched : ∀ p ∈ rows, pivots[p]? = stored[p]?) (p : ℕ) :
    (rows.foldl (eliminatePivot pivotRow v) pivots)[p]? =
      if p ∈ rows then (stored[p]?).map fun (pv : SparseRowVec F) => pv.subMul (pv.value pivotRow) v
      else pivots[p]? := by
  induction rows generalizing pivots with
  | nil => simp
  | cons row others ih =>
      obtain ⟨fresh, tail⟩ := List.nodup_cons.mp distinct
      have here := untouched row List.mem_cons_self
      have step (q : ℕ) : (eliminatePivot pivotRow v pivots row)[q]? =
          if q = row then (stored[row]?).map fun (pv : SparseRowVec F) => pv.subMul (pv.value pivotRow) v
          else pivots[q]? := by
        rw [← here]
        apply getElem?_eliminatePivot
        intro pv found
        rw [here] at found
        exact unit row pv found
      have kept : ∀ q ∈ others, (eliminatePivot pivotRow v pivots row)[q]? = stored[q]? := by
        intro q later
        have other : q ≠ row := by
          intro same
          rw [same] at later
          exact fresh later
        rw [step, if_neg other]
        exact untouched q (List.mem_cons_of_mem _ later)
      rw [List.foldl_cons, ih tail kept, step]
      by_cases same : p = row
      · rw [if_neg (by rw [same]; exact fresh), if_pos same, if_pos (by simp [same]), same]
      · rw [if_neg same]
        by_cases later : p ∈ others
        · rw [if_pos later, if_pos (by simp [later])]
        · rw [if_neg later, if_neg (by simp [same, later])]

omit [DecidableEq F] in
/-- The rows that the source collects before the loop are distinct. -/
theorem nodup_pivotRows (basis : RowBasis F) (listed : ℕ × SparseRowVec F → Bool) :
    ((basis.pivots.toList.filter listed).map Prod.fst).Nodup := by
  have keys : (basis.pivots.toList.map Prod.fst).Nodup := by
    rw [Std.ExtTreeMap.map_fst_toList_eq_keys]
    exact Std.ExtTreeMap.distinct_keys.imp fun different same => different (by rw [same]; simp)
  exact keys.sublist (List.filter_sublist.map Prod.fst)

/-- The basis `next` stores the vector `w` at a new pivot row and the old vectors without their entry there. -/
structure AddsPivot (basis next : RowBasis F) (pivotRow : ℕ) (w : SparseRowVec F) : Prop where
  clear : ∀ (p : ℕ) (pv : SparseRowVec F), basis.pivots[p]? = some pv → w.value p = 0
  pivot : w.value pivotRow = 1
  before : ∀ q < pivotRow, w.value q = 0
  stored : ∀ p, next.pivots[p]? = if p = pivotRow then some w
    else (basis.pivots[p]?).map fun (pv : SparseRowVec F) => pv.subMul (pv.value pivotRow) w

section AddsPivot

variable {basis next : RowBasis F} {pivotRow : ℕ} {w : SparseRowVec F}

theorem AddsPivot.cases (added : AddsPivot basis next pivotRow w) {p : ℕ} {pv : SparseRowVec F}
    (found : next.pivots[p]? = some pv) :
    (p = pivotRow ∧ pv = w) ∨ p ≠ pivotRow ∧ ∃ old : SparseRowVec F, basis.pivots[p]? = some old ∧
      pv.value = old.value - old.value pivotRow • w.value := by
  rw [added.stored] at found
  by_cases same : p = pivotRow
  · rw [if_pos same] at found
    exact .inl ⟨same, (Option.some.inj found).symm⟩
  · rw [if_neg same] at found
    obtain ⟨old, present, rfl⟩ := Option.map_eq_some_iff.mp found
    exact .inr ⟨same, old, present, SparseRowVec.value_subMul _ _ _⟩

theorem AddsPivot.new (added : AddsPivot basis next pivotRow w) : next.pivots[pivotRow]? = some w := by
  rw [added.stored, if_pos rfl]

theorem AddsPivot.old (added : AddsPivot basis next pivotRow w) {p : ℕ} {old : SparseRowVec F}
    (found : basis.pivots[p]? = some old) :
    next.pivots[p]? = some (old.subMul (old.value pivotRow) w) := by
  have other : p ≠ pivotRow := by
    intro same
    have zero := added.clear p old found
    rw [same, added.pivot] at zero
    exact one_ne_zero zero
  rw [added.stored, if_neg other, found]
  rfl

/-- Adding a pivot keeps the basis reduced. -/
theorem AddsPivot.reduced (added : AddsPivot basis next pivotRow w) (reduced : basis.Reduced) : next.Reduced := by
  refine ⟨⟨?_, ?_⟩, ?_⟩
  · intro p pv found
    rcases added.cases found with ⟨rfl, rfl⟩ | ⟨_, old, present, value⟩
    · exact added.pivot
    · rw [value, Pi.sub_apply, Pi.smul_apply, added.clear p old present, reduced.unit p old present, smul_zero,
        sub_zero]
  · intro p pv found q before
    rcases added.cases found with ⟨rfl, rfl⟩ | ⟨_, old, present, value⟩
    · exact added.before q before
    · rw [value, Pi.sub_apply, Pi.smul_apply, reduced.before p old present q before, zero_sub, neg_eq_zero,
        smul_eq_mul, mul_eq_zero]
      rcases lt_or_ge q pivotRow with first | later
      · exact .inr (added.before q first)
      · exact .inl (reduced.before p old present pivotRow (later.trans_lt before))
  · intro p pv found q qv other different
    rcases added.cases found with ⟨rfl, rfl⟩ | ⟨_, old, present, value⟩
    · rcases added.cases other with ⟨same, _⟩ | ⟨_, qOld, qPresent, _⟩
      · exact absurd same different
      · exact added.clear q qOld qPresent
    · rw [value, Pi.sub_apply, Pi.smul_apply]
      rcases added.cases other with ⟨same, _⟩ | ⟨_, qOld, qPresent, _⟩
      · rw [same, added.pivot, smul_eq_mul, mul_one, sub_self]
      · rw [reduced.others p old present q qOld qPresent different, added.clear q qOld qPresent, smul_zero,
          sub_zero]

/-- Adding a pivot adds its vector to the span. -/
theorem AddsPivot.span_eq (added : AddsPivot basis next pivotRow w) :
    next.span = basis.span ⊔ Submodule.span F {w.value} := by
  have member : w.value ∈ next.span := value_mem_storedSpan added.new
  apply le_antisymm
  · have present : w.value ∈ basis.span ⊔ Submodule.span F {w.value} :=
      Submodule.mem_sup_right (Submodule.mem_span_singleton_self _)
    apply storedSpan_le
    intro p pv found
    rcases added.cases found with ⟨_, rfl⟩ | ⟨_, old, stored, value⟩
    · exact present
    · rw [value]
      exact Submodule.sub_mem _ (Submodule.mem_sup_left (value_mem_storedSpan stored))
        (Submodule.smul_mem _ _ present)
  · apply sup_le
    · apply storedSpan_le
      intro p old found
      have sum := Submodule.add_mem _ (value_mem_storedSpan (added.old found))
        (Submodule.smul_mem _ (old.value pivotRow) member)
      rwa [SparseRowVec.value_subMul, sub_add_cancel] at sum
    · rw [Submodule.span_singleton_le_iff_mem]
      exact member

end AddsPivot

/-- Insertion does nothing on the span; otherwise it adds the normalized residual and eliminates its
pivot from the other vectors. -/
theorem Reduced.insert_cases {basis : RowBasis F} (reduced : basis.Reduced) (v : SparseRowVec F) :
    ((basis.reduce v).value = 0 ∧ basis.insert v = basis) ∨
    ∃ (pivotRow : ℕ) (c : F) (normalized : SparseRowVec F), c ≠ 0 ∧
      normalized.value = c • (basis.reduce v).value ∧ basis.AddsPivot (basis.insert v) pivotRow normalized := by
  have clear := (reduced.residual v).1
  rw [insert]
  dsimp only
  split
  case h_1 first =>
    left
    have none : (basis.reduce v).isEmpty = true := by
      rw [SparseRowVec.isEmpty, Std.ExtTreeMap.isEmpty_iff]
      exact Std.ExtTreeMap.toList_eq_nil_iff.mp first
    exact ⟨(SparseRowVec.isEmpty_iff _).mp none, rfl⟩
  case h_2 pivotRow pivotCoeff rest first =>
    right
    have nonzero := SparseRowVec.first_nonzero first
    obtain ⟨leading, earlier⟩ := SparseRowVec.value_first first
    set normalized := (basis.reduce v).scale pivotCoeff⁻¹ (inv_ne_zero nonzero) with hnormalized
    have scaled : normalized.value = pivotCoeff⁻¹ • (basis.reduce v).value := SparseRowVec.value_scale _ _ _
    have normalizedClear (p : ℕ) (pv : SparseRowVec F) (found : basis.pivots[p]? = some pv) :
        normalized.value p = 0 := by
      rw [scaled, Pi.smul_apply, clear p pv found, smul_zero]
    refine ⟨pivotRow, (pivotCoeff : F)⁻¹, normalized, inv_ne_zero nonzero, scaled, normalizedClear, ?_, ?_, ?_⟩
    · rw [scaled, Pi.smul_apply, leading, smul_eq_mul, inv_mul_cancel₀ nonzero]
    · intro q before
      rw [scaled, Pi.smul_apply, earlier q before, smul_zero]
    · intro p
      have loop := getElem?_foldl_eliminatePivot pivotRow
        (fun p pv found => ⟨reduced.unit p pv found, normalizedClear p pv found⟩)
        (basis.nodup_pivotRows fun entry => entry.2.entries.contains pivotRow) (fun _ _ => rfl) p
      dsimp only
      rw [getElem?_insert_pivot, loop]
      by_cases same : p = pivotRow
      · rw [if_pos same, if_pos same]
      · rw [if_neg same, if_neg same]
        split
        case isTrue => rfl
        case isFalse unlisted =>
          cases found : basis.pivots[p]? with
          | none => rfl
          | some pv =>
              have zero : pv.value pivotRow = 0 := by
                by_contra present
                apply unlisted
                refine List.mem_map.mpr ⟨(p, pv), List.mem_filter.mpr ⟨?_, ?_⟩, rfl⟩
                · exact Std.ExtTreeMap.mem_toList_iff_getElem?_eq_some.mpr found
                · exact (SparseRowVec.contains_iff pv pivotRow).mpr present
              rw [Option.map_some, zero, SparseRowVec.subMul_zero]

/-- Insertion keeps the basis reduced and adds the vector to its span. -/
theorem Reduced.insert {basis : RowBasis F} (reduced : basis.Reduced) (v : SparseRowVec F) :
    (basis.insert v).Reduced ∧ (basis.insert v).span = basis.span ⊔ Submodule.span F {v.value} := by
  have difference := (reduced.residual v).2
  rcases reduced.insert_cases v with ⟨zero, same⟩ | ⟨pivotRow, c, w, unit, scaled, added⟩
  · rw [zero, sub_zero] at difference
    rw [same]
    refine ⟨reduced, ?_⟩
    symm
    rw [sup_eq_left, Submodule.span_singleton_le_iff_mem]
    exact difference
  · refine ⟨added.reduced reduced, ?_⟩
    rw [added.span_eq, scaled]
    exact sup_span_smul_residual difference unit

/-- Every sequence of insertions keeps the basis reduced and spans the inserted vectors. -/
theorem Reduced.inserts {basis : RowBasis F} (reduced : basis.Reduced) (vs : List (SparseRowVec F)) :
    (vs.foldl RowBasis.insert basis).Reduced ∧ (vs.foldl RowBasis.insert basis).span =
      basis.span ⊔ Submodule.span F {w | ∃ v ∈ vs, v.value = w} := by
  induction vs generalizing basis with
  | nil => simp [reduced]
  | cons v rest ih =>
      obtain ⟨next, added⟩ := reduced.insert v
      obtain ⟨final, spanned⟩ := ih next
      refine ⟨final, ?_⟩
      have values : {w | ∃ u ∈ v :: rest, u.value = w} = {v.value} ∪ {w | ∃ u ∈ rest, u.value = w} := by
        ext w
        simp [eq_comm]
      rw [List.foldl_cons, spanned, added, values, Submodule.span_union, sup_assoc]

end RowBasis

end Pvugc.Audit
