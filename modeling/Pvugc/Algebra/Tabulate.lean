import Mathlib
import Pvugc.Algebra.Numerals

namespace Pvugc.Algebra

/-- The list of the first `n` values of a sequence. -/
def tabulate {A : Type*} (n : ℕ) (f : ℕ → A) : List A := (List.range n).map f

section Lists

variable {A B : Type*}

@[simp] theorem tabulate_length (n : ℕ) (f : ℕ → A) : (tabulate n f).length = n := by
  simp [tabulate]

theorem mem_tabulate {n : ℕ} {f : ℕ → A} {a : A} : a ∈ tabulate n f ↔ ∃ i < n, a = f i := by
  simp [tabulate, eq_comm]

theorem tabulate_succ (n : ℕ) (f : ℕ → A) :
    tabulate (n + 1) f = f 0 :: tabulate n (fun i => f (i + 1)) := by
  simp [tabulate, List.range_succ_eq_map, Function.comp_def]

theorem tabulate_getElem? (n : ℕ) (f : ℕ → A) (i : ℕ) :
    (tabulate n f)[i]? = if i < n then some (f i) else none := by
  split
  case isTrue inside => simp [tabulate, List.getElem?_range inside]
  case isFalse outside => simp [tabulate, Nat.le_of_not_lt outside]

theorem tabulate_get {n i : ℕ} (f : ℕ → A) (inside : i < n) :
    (tabulate n f)[i]? = some (f i) := by
  rw [tabulate_getElem?, if_pos inside]

theorem tabulate_getD {n i : ℕ} (f : ℕ → A) (inside : i < n) (default : A) :
    (tabulate n f).getD i default = f i := by
  rw [List.getD_eq_getElem?_getD, tabulate_get f inside, Option.getD_some]

theorem tabulate_congr {n : ℕ} {f g : ℕ → A} (same : ∀ i < n, f i = g i) :
    tabulate n f = tabulate n g := by
  apply List.map_congr_left
  intro i member
  exact same i (List.mem_range.mp member)

/-- Every list is the tabulation of its own entries. -/
theorem tabulate_of_list (l : List A) (default : A) :
    tabulate l.length (fun i => l.getD i default) = l := by
  apply List.ext_getElem?
  intro i
  rw [tabulate_getElem?]
  split
  case isTrue inside => simp [List.getElem?_eq_getElem inside]
  case isFalse outside => simp [Nat.le_of_not_lt outside]

/-- A finite sequence is listed by every sequence that extends it. -/
theorem ofFn_eq_tabulate {n : ℕ} {f : Fin n → A} {g : ℕ → A} (same : ∀ i, f i = g i) :
    List.ofFn f = tabulate n g := by
  rw [List.ofFn_eq_map, tabulate, ← List.map_coe_finRange_eq_range, List.map_map]
  exact List.map_congr_left fun i _ => same i

@[simp] theorem tabulate_map (n : ℕ) (f : ℕ → A) (g : A → B) :
    (tabulate n f).map g = tabulate n (g ∘ f) := by
  simp [tabulate]

theorem tabulate_zipWith {C : Type*} (n : ℕ) (f : ℕ → A) (g : ℕ → B) (h : A → B → C) :
    List.zipWith h (tabulate n f) (tabulate n g) = tabulate n (fun i => h (f i) (g i)) := by
  simp [tabulate, List.zipWith_map]

/-- An in-place write changes one value of the sequence. -/
theorem tabulate_set (n : ℕ) (f : ℕ → A) (i : ℕ) (a : A) :
    (tabulate n f).set i a = tabulate n (Function.update f i a) := by
  apply List.ext_getElem?
  intro j
  rw [List.getElem?_set, tabulate_getElem?, tabulate_getElem?, tabulate_length]
  by_cases same : i = j
  · subst same
    simp
  · simp [same, Function.update_of_ne (Ne.symm same)]

theorem tabulate_append (m n : ℕ) (f g : ℕ → A) :
    tabulate m f ++ tabulate n g = tabulate (m + n) (fun i => if i < m then f i else g (i - m)) := by
  apply List.ext_getElem?
  intro i
  rw [List.getElem?_append, tabulate_getElem?, tabulate_getElem?, tabulate_getElem?, tabulate_length]
  by_cases lower : i < m
  · simp [lower, Nat.lt_add_right n lower]
  · simp only [lower, if_false]
    by_cases upper : i < m + n
    · rw [if_pos (by omega), if_pos upper]
    · rw [if_neg (by omega), if_neg upper]

/-- A window of a tabulated list is the tabulation of the shifted sequence. -/
theorem tabulate_window {n : ℕ} (start width : ℕ) (f : ℕ → A) (fits : start + width ≤ n) :
    ((tabulate n f).drop start).take width = tabulate width (fun i => f (start + i)) := by
  apply List.ext_getElem?
  intro i
  rw [List.getElem?_take, List.getElem?_drop, tabulate_getElem?, tabulate_getElem?]
  by_cases inside : i < width
  · rw [if_pos inside, if_pos (by omega), if_pos inside]
  · rw [if_neg inside, if_neg inside]

theorem tabulate_take {n width : ℕ} (f : ℕ → A) (fits : width ≤ n) :
    (tabulate n f).take width = tabulate width f := by
  have window := tabulate_window 0 width f (by omega : 0 + width ≤ n)
  simpa using window

theorem tabulate_drop (n start : ℕ) (f : ℕ → A) :
    (tabulate n f).drop start = tabulate (n - start) (fun i => f (start + i)) := by
  apply List.ext_getElem?
  intro i
  rw [List.getElem?_drop, tabulate_getElem?, tabulate_getElem?]
  simp only [Nat.lt_sub_iff_add_lt']

theorem tabulate_zip {B : Type*} (n : ℕ) (f : ℕ → A) (g : ℕ → B) :
    (tabulate n f).zip (tabulate n g) = tabulate n (fun i => (f i, g i)) :=
  tabulate_zipWith n f g Prod.mk

/-- Equal tiles laid side by side tabulate a sequence of tile offsets. -/
theorem tabulate_flatten (count width : ℕ) (tile : ℕ → ℕ → A) :
    ((List.range count).map fun c => tabulate width (tile c)).flatten =
      tabulate (count * width) (fun p => tile (p / width) (p % width)) := by
  induction count with
  | zero => simp [tabulate]
  | succ count ih =>
      rw [List.range_succ, List.map_append, List.flatten_append, ih, List.map_singleton,
        List.flatten_singleton, tabulate_append, Nat.succ_mul]
      apply tabulate_congr
      intro p inside
      split
      case isTrue earlier => rfl
      case isFalse last =>
        have offset : p - count * width < width := by omega
        have decomposed : p = p - count * width + count * width := by omega
        rw [decomposed, Nat.add_mul_div_right _ _ (by omega), Nat.add_mul_mod_self_right,
          Nat.div_eq_of_lt offset, Nat.mod_eq_of_lt offset, Nat.zero_add, Nat.add_sub_cancel]

/-- Reversing all entries but the first reads the sequence at the negated index. -/
theorem tabulate_reverse_tail {n : ℕ} (positive : 0 < n) (f : ℕ → A) :
    (tabulate n f).take 1 ++ ((tabulate n f).drop 1).reverse =
      tabulate n (fun i => f ((n - i) % n)) := by
  obtain ⟨m, rfl⟩ : ∃ m, n = m + 1 := ⟨n - 1, by omega⟩
  have head : (tabulate (m + 1) f).take 1 = tabulate 1 f := by
    have window := tabulate_window 0 1 f (show 0 + 1 ≤ m + 1 by omega)
    simpa using window
  have tail : (tabulate (m + 1) f).drop 1 = tabulate m (fun i => f (1 + i)) := by
    have window := tabulate_window 1 m f (show 1 + m ≤ m + 1 by omega)
    rwa [List.take_of_length_le (by simp)] at window
  have reversed : (tabulate m (fun i => f (1 + i))).reverse = tabulate m (fun i => f (m - i)) := by
    apply List.ext_getElem?
    intro i
    by_cases inside : i < m
    · rw [List.getElem?_reverse (by simpa using inside), tabulate_get _ inside, tabulate_length,
        tabulate_get _ (by omega)]
      congr 2
      omega
    · rw [List.getElem?_eq_none (by simpa using inside),
        List.getElem?_eq_none (by simpa using inside)]
  rw [head, tail, reversed, tabulate_append, Nat.add_comm 1 m]
  apply tabulate_congr
  intro i inside
  split
  case isTrue zero =>
    rw [show i = 0 by omega]
    simp
  case isFalse later =>
    rw [Nat.mod_eq_of_lt (by omega)]
    congr 1
    omega

theorem tabulate_sum {M : Type*} [AddCommMonoid M] (n : ℕ) (f : ℕ → M) :
    (tabulate n f).sum = ∑ i ∈ Finset.range n, f i := by
  induction n with
  | zero => simp [tabulate]
  | succ n ih =>
      rw [tabulate, List.range_succ, List.map_append, List.sum_append, Finset.sum_range_succ,
        ← ih, tabulate]
      simp

end Lists

section Loops

variable {A : Type*}

/-- A counted loop whose body takes each announced state to the next ends in the last one. -/
theorem foldlM_range_eq (step : A → ℕ → Option A) (state : ℕ → A) (n : ℕ)
    (advance : ∀ k < n, step (state k) k = some (state (k + 1))) :
    (List.range n).foldlM step (state 0) = some (state n) := by
  induction n with
  | zero => rfl
  | succ n ih =>
      rw [List.range_succ, List.foldlM_append, ih (fun k inside => advance k (by omega))]
      simp [advance n (by omega)]

theorem foldl_add_eq {M : Type*} [AddCommMonoid M] (f : A → M) (l : List A) (start : M) :
    l.foldl (fun acc a => acc + f a) start = start + (l.map f).sum := by
  induction l generalizing start with
  | nil => simp
  | cons a rest ih => rw [List.foldl_cons, ih, List.map_cons, List.sum_cons, add_assoc]

/-- A fold that keeps an invariant and adds a term at each entry adds the sum of the terms. -/
theorem foldl_value {A S M : Type*} [AddCommMonoid M] (step : S → A → S) (inv : S → Prop)
    (value : S → M) (term : A → M) (l : List A)
    (advance : ∀ state, inv state → ∀ a ∈ l,
      inv (step state a) ∧ value (step state a) = value state + term a)
    (state : S) (start : inv state) :
    inv (l.foldl step state) ∧ value (l.foldl step state) = value state + (l.map term).sum := by
  induction l generalizing state with
  | nil => simpa using start
  | cons a rest ih =>
      obtain ⟨kept, added⟩ := advance state start a (by simp)
      obtain ⟨restKept, restAdded⟩ := ih
        (fun state holds b member => advance state holds b (by simp [member])) _ kept
      refine ⟨restKept, ?_⟩
      rw [List.foldl_cons, restAdded, added, List.map_cons, List.sum_cons, add_assoc]

/-- A loop that ends keeps its invariant and has run each step from a state with the invariant. -/
theorem foldlM_inv {S : Type*} {step : S → A → Option S} {inv : S → Prop}
    (keep : ∀ s a s', inv s → step s a = some s' → inv s') (l : List A) {start final : S}
    (holds : inv start) (run : l.foldlM step start = some final) :
    inv final ∧ ∀ a ∈ l, ∃ s s', inv s ∧ step s a = some s' := by
  induction l generalizing start with
  | nil =>
      cases run
      exact ⟨holds, fun a member => absurd member List.not_mem_nil⟩
  | cons a rest ih =>
      rw [List.foldlM_cons] at run
      obtain ⟨next, stepped, tail⟩ := Option.bind_eq_some_iff.mp run
      obtain ⟨kept, visited⟩ := ih (keep start a next holds stepped) tail
      refine ⟨kept, ?_⟩
      intro b member
      rcases List.mem_cons.mp member with rfl | later
      · exact ⟨start, next, holds, stepped⟩
      · exact visited b later

theorem mapM_eq_some {B : Type*} (l : List A) (f : A → Option B) (g : A → B)
    (each : ∀ a ∈ l, f a = some (g a)) : l.mapM f = some (l.map g) := by
  induction l with
  | nil => rfl
  | cons a rest ih =>
      rw [List.mapM_cons, each a (by simp), ih (fun b member => each b (by simp [member]))]
      rfl

/-- The blocks of a concatenation of blocks of one width. -/
theorem flatMap_window {f : A → List B} {width : ℕ} (widths : ∀ x, (f x).length = width)
    (xs : List A) {k : ℕ} (inside : k < xs.length) :
    ((xs.flatMap f).drop (k * width)).take width = f xs[k] := by
  induction xs generalizing k with
  | nil => exact absurd inside (Nat.not_lt_zero k)
  | cons x xs inductionHypothesis =>
      rw [List.flatMap_cons]
      cases k with
      | zero => rw [Nat.zero_mul, List.drop_zero, List.take_left' (widths x), List.getElem_cons_zero]
      | succ k =>
          rw [Nat.succ_mul, Nat.add_comm, ← List.drop_drop, List.drop_left' (widths x),
            inductionHypothesis (Nat.lt_of_succ_lt_succ inside), List.getElem_cons_succ]

/-- A map over lists that keeps each length keeps the total length, and has run on every list. -/
theorem mapM_flatten_length {f : List A → Option (List A)}
    (keep : ∀ chunk result, f chunk = some result → result.length = chunk.length) (l : List (List A))
    {results : List (List A)} (run : l.mapM f = some results) :
    results.flatten.length = l.flatten.length ∧ ∀ chunk ∈ l, ∃ result, f chunk = some result := by
  induction l generalizing results with
  | nil =>
      cases run
      exact ⟨rfl, fun chunk member => absurd member List.not_mem_nil⟩
  | cons chunk rest ih =>
      rw [List.mapM_cons] at run
      obtain ⟨result, mapped, tail⟩ := Option.bind_eq_some_iff.mp run
      obtain ⟨others, mappedRest, whole⟩ := Option.bind_eq_some_iff.mp tail
      cases whole
      obtain ⟨lengths, visited⟩ := ih mappedRest
      refine ⟨by simp [keep chunk result mapped, lengths], ?_⟩
      intro other member
      rcases List.mem_cons.mp member with rfl | later
      · exact ⟨result, mapped⟩
      · exact visited other later

end Loops

end Pvugc.Algebra
