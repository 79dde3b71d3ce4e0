import Mathlib
import Pvugc.Algebra.Numerals

namespace Pvugc.Algebra

section Residual

variable {F V : Type*} [Field F] [AddCommGroup V] [Module F V] {S : Submodule F V} {v residual : V}

/-- A nonzero multiple of the residual of a vector adds to a subspace what the vector adds to it. -/
theorem sup_span_smul_residual (difference : v - residual ∈ S) {c : F} (unit : c ≠ 0) :
    S ⊔ Submodule.span F {c • residual} = S ⊔ Submodule.span F {v} := by
  rw [Submodule.span_singleton_smul_eq (IsUnit.mk0 c unit)]
  apply le_antisymm
  · apply sup_le le_sup_left
    rw [Submodule.span_singleton_le_iff_mem]
    have split : residual = v - (v - residual) := by abel
    rw [split]
    apply Submodule.sub_mem
    · exact Submodule.mem_sup_right (Submodule.mem_span_singleton_self _)
    · exact Submodule.mem_sup_left difference
  · apply sup_le le_sup_left
    rw [Submodule.span_singleton_le_iff_mem]
    have split : v = (v - residual) + residual := by abel
    rw [split]
    apply Submodule.add_mem
    · exact Submodule.mem_sup_left difference
    · exact Submodule.mem_sup_right (Submodule.mem_span_singleton_self _)

end Residual

section Rows

variable {ι F : Type*} [LinearOrder ι] [Field F]

/-- The pivots ascend, and each row is one at its pivot and zero before it. -/
structure IsEchelon (pivots : List ι) (row : ι → ι → F) : Prop where
  ascending : pivots.Pairwise (· < ·)
  unit : ∀ p ∈ pivots, row p p = 1
  before : ∀ p ∈ pivots, ∀ q < p, row p q = 0

/-- Subtracts from a vector its multiple of each row, in the order of the pivots. -/
def eliminate (row : ι → ι → F) (pivots : List ι) (v : ι → F) : ι → F :=
  pivots.foldl (fun v p => v - v p • row p) v

/-- The span of the rows of the pivots. -/
def rowSpan (pivots : List ι) (row : ι → ι → F) : Submodule F (ι → F) :=
  Submodule.span F (row '' {p | p ∈ pivots})

variable {pivots : List ι} {row : ι → ι → F}

theorem IsEchelon.tail {p : ι} {rest : List ι} (echelon : IsEchelon (p :: rest) row) :
    IsEchelon rest row where
  ascending := (List.pairwise_cons.mp echelon.ascending).2
  unit q member := echelon.unit q (List.mem_cons_of_mem p member)
  before q member := echelon.before q (List.mem_cons_of_mem p member)

omit [LinearOrder ι] in
theorem row_mem_rowSpan {p : ι} (member : p ∈ pivots) : row p ∈ rowSpan pivots row :=
  Submodule.subset_span ⟨p, member, rfl⟩

omit [LinearOrder ι] in
theorem rowSpan_le {W : Submodule F (ι → F)} (rows : ∀ p ∈ pivots, row p ∈ W) : rowSpan pivots row ≤ W := by
  apply Submodule.span_le.mpr
  intro w image
  obtain ⟨p, member, rfl⟩ := image
  exact rows p member

omit [LinearOrder ι] in
theorem rowSpan_cons (p : ι) (rest : List ι) :
    rowSpan (p :: rest) row = Submodule.span F {row p} ⊔ rowSpan rest row := by
  have rows : row '' {q | q ∈ p :: rest} = {row p} ∪ row '' {q | q ∈ rest} := by
    ext w
    simp [eq_comm]
  rw [rowSpan, rows, Submodule.span_union, rowSpan]

omit [LinearOrder ι] in
theorem rowSpan_le_cons (p : ι) (rest : List ι) : rowSpan rest row ≤ rowSpan (p :: rest) row := by
  rw [rowSpan_cons]
  exact le_sup_right

omit [LinearOrder ι] in
/-- A column in which every row vanishes vanishes on the span. -/
theorem apply_eq_zero_of_mem {v : ι → F} (member : v ∈ rowSpan pivots row) {q : ι}
    (zeros : ∀ p ∈ pivots, row p q = 0) : v q = 0 := by
  have included : rowSpan pivots row ≤ LinearMap.ker (LinearMap.proj (R := F) (φ := fun _ : ι => F) q) :=
    rowSpan_le zeros
  exact included member

omit [LinearOrder ι] in
/-- Elimination changes a vector by a member of the span. -/
theorem sub_eliminate_mem (row : ι → ι → F) (pivots : List ι) (v : ι → F) :
    v - eliminate row pivots v ∈ rowSpan pivots row := by
  induction pivots generalizing v with
  | nil => simp [eliminate]
  | cons p rest ih =>
      have tail := rowSpan_le_cons p rest (ih (v - v p • row p))
      have first : row p ∈ rowSpan (p :: rest) row := row_mem_rowSpan List.mem_cons_self
      have head := Submodule.smul_mem _ (v p) first
      have split : v - eliminate row (p :: rest) v =
          v p • row p + (v - v p • row p - eliminate row rest (v - v p • row p)) := by
        rw [show eliminate row (p :: rest) v = eliminate row rest (v - v p • row p) from rfl]
        abel
      rw [split]
      exact Submodule.add_mem _ head tail

omit [LinearOrder ι] in
/-- Elimination leaves the columns in which every row vanishes. -/
theorem eliminate_apply_of_zeros (v : ι → F) {q : ι} (zeros : ∀ p ∈ pivots, row p q = 0) :
    eliminate row pivots v q = v q := by
  have difference := apply_eq_zero_of_mem (sub_eliminate_mem row pivots v) zeros
  rw [Pi.sub_apply, sub_eq_zero] at difference
  exact difference.symm

/-- Elimination clears every pivot. -/
theorem eliminate_pivot (echelon : IsEchelon pivots row) (v : ι → F) {p : ι} (member : p ∈ pivots) :
    eliminate row pivots v p = 0 := by
  induction pivots generalizing v with
  | nil => cases member
  | cons first rest ih =>
      rw [show eliminate row (first :: rest) v = eliminate row rest (v - v first • row first) from rfl]
      rcases List.mem_cons.mp member with rfl | later
      · have zeros : ∀ q ∈ rest, row q p = 0 := fun q inRest =>
          echelon.before q (List.mem_cons_of_mem p inRest) p
            ((List.pairwise_cons.mp echelon.ascending).1 q inRest)
        rw [eliminate_apply_of_zeros _ zeros, Pi.sub_apply, Pi.smul_apply,
          echelon.unit p List.mem_cons_self, smul_eq_mul, mul_one, sub_self]
      · exact ih echelon.tail _ later

/-- A member of the span that is zero at every pivot is zero. -/
theorem eq_zero_of_mem_rowSpan (echelon : IsEchelon pivots row) {v : ι → F}
    (member : v ∈ rowSpan pivots row) (zeros : ∀ p ∈ pivots, v p = 0) : v = 0 := by
  induction pivots generalizing v with
  | nil => simpa [rowSpan] using member
  | cons p rest ih =>
      rw [rowSpan_cons, Submodule.mem_sup] at member
      obtain ⟨first, inFirst, w, inRest, rfl⟩ := member
      obtain ⟨c, rfl⟩ := Submodule.mem_span_singleton.mp inFirst
      have clear : w p = 0 := by
        apply apply_eq_zero_of_mem inRest
        intro q later
        exact echelon.before q (List.mem_cons_of_mem p later) p
          ((List.pairwise_cons.mp echelon.ascending).1 q later)
      have pivot := zeros p List.mem_cons_self
      rw [Pi.add_apply, Pi.smul_apply, echelon.unit p List.mem_cons_self, clear, smul_eq_mul, mul_one,
        add_zero] at pivot
      rw [pivot, zero_smul, zero_add] at zeros ⊢
      exact ih echelon.tail inRest fun q later => zeros q (List.mem_cons_of_mem p later)

/-- Elimination ends in zero exactly on the span of the rows. -/
theorem eliminate_eq_zero_iff (echelon : IsEchelon pivots row) (v : ι → F) :
    eliminate row pivots v = 0 ↔ v ∈ rowSpan pivots row := by
  have difference := sub_eliminate_mem row pivots v
  constructor
  · intro zero
    rwa [zero, sub_zero] at difference
  · intro member
    apply eq_zero_of_mem_rowSpan echelon
    · have residual := Submodule.sub_mem _ member difference
      rwa [sub_sub_cancel] at residual
    · intro p pivot
      exact eliminate_pivot echelon v pivot

/-- The rows of an echelon family are independent. -/
theorem IsEchelon.linearIndepOn (echelon : IsEchelon pivots row) : LinearIndepOn F row {p | p ∈ pivots} := by
  induction pivots with
  | nil => simp
  | cons p rest ih =>
      have listed : {q | q ∈ p :: rest} = insert p {q | q ∈ rest} := by
        ext q
        simp
      have later := (List.pairwise_cons.mp echelon.ascending).1
      have fresh : p ∉ {q | q ∈ rest} := fun repeated => lt_irrefl p (later p repeated)
      rw [listed, linearIndepOn_insert fresh]
      refine ⟨ih echelon.tail, ?_⟩
      intro spanned
      have zero : row p p = 0 := by
        apply apply_eq_zero_of_mem spanned
        intro q inRest
        exact echelon.before q (List.mem_cons_of_mem p inRest) p (later q inRest)
      rw [echelon.unit p List.mem_cons_self] at zero
      exact one_ne_zero zero

/-- The rank of an echelon family is its number of pivots. -/
theorem IsEchelon.finrank_rowSpan (echelon : IsEchelon pivots row) :
    Module.finrank F (rowSpan pivots row) = pivots.length := by
  have nodup : pivots.Nodup := echelon.ascending.imp fun before => before.ne
  have independent : LinearIndependent F fun p : {p // p ∈ pivots} => row p := echelon.linearIndepOn
  have rank := finrank_span_eq_card independent
  have rows : Set.range (fun p : {p // p ∈ pivots} => row p) = row '' {p | p ∈ pivots} := by
    ext w
    simp
  have card : Fintype.card {p // p ∈ pivots} = pivots.length := by
    rw [Fintype.card_of_subtype pivots.toFinset (fun p => List.mem_toFinset), List.toFinset_card_of_nodup nodup]
  rw [rowSpan, ← rows, ← card]
  exact rank

instance : FiniteDimensional F (rowSpan pivots row) :=
  FiniteDimensional.span_of_finite F ((List.finite_toSet pivots).image row)

end Rows

section Stored

variable {R F : Type*} [Field F] {value : R → ℕ → F} {stored : Std.ExtTreeMap ℕ R}

/-- The row stored at a pivot, zero where none is. -/
def storedRow (value : R → ℕ → F) (stored : Std.ExtTreeMap ℕ R) (p : ℕ) : ℕ → F :=
  ((stored[p]?).map value).getD 0

/-- The span of the stored rows. -/
def storedSpan (value : R → ℕ → F) (stored : Std.ExtTreeMap ℕ R) : Submodule F (ℕ → F) :=
  rowSpan stored.keys (storedRow value stored)

/-- Each stored row is one at its pivot and zero before it. -/
structure StoredEchelon (value : R → ℕ → F) (stored : Std.ExtTreeMap ℕ R) : Prop where
  unit : ∀ (p : ℕ) (r : R), stored[p]? = some r → value r p = 1
  before : ∀ (p : ℕ) (r : R), stored[p]? = some r → ∀ q < p, value r q = 0

theorem mem_stored_keys {p : ℕ} : p ∈ stored.keys ↔ ∃ r : R, stored[p]? = some r := by
  rw [Std.ExtTreeMap.mem_keys, Std.ExtTreeMap.mem_iff_isSome_getElem?, Option.isSome_iff_exists]

theorem storedRow_eq {p : ℕ} {r : R} (found : stored[p]? = some r) : storedRow value stored p = value r := by
  rw [storedRow, found]
  rfl

theorem StoredEchelon.isEchelon (echelon : StoredEchelon value stored) :
    IsEchelon stored.keys (storedRow value stored) where
  ascending := Std.ExtTreeMap.ordered_keys.imp fun before => Nat.compare_eq_lt.mp before
  unit p member := by
    obtain ⟨r, found⟩ := mem_stored_keys.mp member
    rw [storedRow_eq found]
    exact echelon.unit p r found
  before p member q earlier := by
    obtain ⟨r, found⟩ := mem_stored_keys.mp member
    rw [storedRow_eq found]
    exact echelon.before p r found q earlier

/-- The stored rows are in their span. -/
theorem value_mem_storedSpan {p : ℕ} {r : R} (found : stored[p]? = some r) :
    value r ∈ storedSpan value stored := by
  have row : storedRow value stored p = value r := storedRow_eq found
  rw [← row]
  exact row_mem_rowSpan (mem_stored_keys.mpr ⟨r, found⟩)

theorem storedSpan_le {W : Submodule F (ℕ → F)}
    (rows : ∀ (p : ℕ) (r : R), stored[p]? = some r → value r ∈ W) : storedSpan value stored ≤ W := by
  apply rowSpan_le
  intro p member
  obtain ⟨r, found⟩ := mem_stored_keys.mp member
  rw [storedRow_eq found]
  exact rows p r found

theorem storedSpan_empty : storedSpan value (∅ : Std.ExtTreeMap ℕ R) = ⊥ := by
  rw [eq_bot_iff]
  apply storedSpan_le
  intro p r found
  simp at found

instance : FiniteDimensional F (storedSpan value stored) :=
  inferInstanceAs (FiniteDimensional F (rowSpan stored.keys (storedRow value stored)))

theorem getElem?_insert_pivot (stored : Std.ExtTreeMap ℕ R) (row p : ℕ) (r : R) :
    (stored.insert row r)[p]? = if p = row then some r else stored[p]? := by
  rw [Std.ExtTreeMap.getElem?_insert]
  by_cases same : p = row
  · rw [if_pos (by simp [same]), if_pos same]
  · rw [if_neg (by simpa using Ne.symm same), if_neg same]

/-- A loop over the stored rows that subtracts a multiple of each one eliminates them in the order of
their pivots. -/
theorem value_foldl_stored {S : Type*} {toRow : S → ℕ → F} {step : S → ℕ → R → S}
    (steps : ∀ (v : S) (p : ℕ) (r : R), stored[p]? = some r →
      toRow (step v p r) = toRow v - toRow v p • value r) (v : S) :
    toRow (stored.foldl step v) = eliminate (storedRow value stored) stored.keys (toRow v) := by
  have loop (l : List (ℕ × R)) (present : ∀ entry ∈ l, stored[entry.1]? = some entry.2) : ∀ v : S,
      toRow (l.foldl (fun v entry => step v entry.1 entry.2) v) =
        eliminate (storedRow value stored) (l.map Prod.fst) (toRow v) := by
    induction l with
    | nil => simp [eliminate]
    | cons entry rest ih =>
        intro v
        have first := present entry List.mem_cons_self
        have row : storedRow value stored entry.1 = value entry.2 := storedRow_eq first
        rw [List.foldl_cons, ih fun other member => present other (List.mem_cons_of_mem _ member),
          steps v _ _ first, List.map_cons, ← row]
        rfl
  rw [Std.ExtTreeMap.foldl_eq_foldl_toList, ← Std.ExtTreeMap.map_fst_toList_eq_keys]
  exact loop _ (fun entry member => Std.ExtTreeMap.mem_toList_iff_getElem?_eq_some.mp member) v

end Stored

section Image

variable {F V : Type*} [Field F] [AddCommGroup V] [Module F V]

/-- A complement of `W` in `U ⊔ W` has a smaller rank than `U` exactly when `U` meets `W`. -/
theorem finrank_lt_iff_inf_ne_bot {U W R : Submodule F V} [FiniteDimensional F U] [FiniteDimensional F W]
    [FiniteDimensional F R] (apart : R ⊓ W = ⊥) (joined : R ⊔ W = U ⊔ W) :
    Module.finrank F R < Module.finrank F U ↔ U ⊓ W ≠ ⊥ := by
  have sumR := Submodule.finrank_sup_add_finrank_inf_eq R W
  have sumU := Submodule.finrank_sup_add_finrank_inf_eq U W
  rw [apart, finrank_bot, joined] at sumR
  rw [ne_eq, ← Submodule.finrank_eq_zero (S := U ⊓ W)]
  omega

end Image

end Pvugc.Algebra
