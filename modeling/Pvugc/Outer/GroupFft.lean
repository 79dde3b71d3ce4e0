import Pvugc.Algebra.Radix2
import Pvugc.Algebra.Tabulate
import Pvugc.Groth16.EvaluationDomain

namespace Pvugc.Outer
open Pvugc.Algebra Pvugc.Groth16

/-- The number of low zero bits of a machine word of the given width. -/
def trailingZeros : ℕ → ℕ → ℕ
  | 0, _ => 0
  | width + 1, k => if k % 2 = 1 then 0 else 1 + trailingZeros width (k / 2)

section Code

variable {F G : Type*} [Field F] [AddCommGroup G] [SMul F G]

/-- An exchange fails when an index is out of bounds. -/
def swap (a : List G) (i j : ℕ) : Option (List G) := do
  let x ← a[i]?
  let y ← a[j]?
  return (a.set i y).set j x

/-- A shift of a 64-bit word takes its amount modulo the width, as in a release build. -/
def wrappingShr (k amount : ℕ) : ℕ := k >>> (amount % 64)

/-- The exchange loop visits every index and swaps it once with its reversal. -/
def bitReverse (a : List G) : Option (List G) :=
  let logN := trailingZeros 64 a.length
  (List.range a.length).foldlM (fun a k =>
    let rk := wrappingShr (reverseBits 64 k) (64 - logN)
    if k < rk then swap a k rk else some a) a

/-- One butterfly updates its two entries and the running twiddle. -/
def butterfly (omegaM : F) (m : ℕ) (state : List G × F) (j : ℕ) : Option (List G × F) :=
  state.1[j + m]?.bind fun upper => state.1[j]?.bind fun u =>
    let t := state.2 • upper
    some ((state.1.set j (u + t)).set (j + m) (u - t), state.2 * omegaM)

/-- The butterfly loop over one chunk fails when the chunk is shorter than `2 * m`. -/
def butterflies (omegaM : F) (m : ℕ) (chunk : List G) : Option (List G) :=
  ((List.range m).foldlM (butterfly omegaM m) (chunk, 1)).map Prod.fst

/-- The consecutive chunks of the given width; the last one may be shorter. -/
def parChunksMut (width : ℕ) (a : List G) : List (List G) :=
  (List.range ((a.length + width - 1) / width)).map fun c => (a.drop (c * width)).take width

/-- One level runs the butterflies of every chunk of `2 * m` entries. -/
def fftLevel (domain : EvaluationDomain F) (m : ℕ) (a : List G) : Option (List G) := do
  let chunks ← (parChunksMut (2 * m) a).mapM
    (butterflies (domain.element (domain.size / (2 * m))) m)
  return chunks.flatten

/-- The levels `m = 1, 2, 4, ...` below the length of a 64-bit slice. -/
def fftLevels (n : ℕ) : List ℕ := (List.range 64).filter fun l => 2 ^ l < n

/-- `parallel_fft_g1`; `parallel_fft_scalar` is the same code over the field. -/
def parallelFftG1 (domain : EvaluationDomain F) (a : List G) : Option (List G) :=
  if a.length ≤ 1 then some a
  else do
    let permuted ← bitReverse a
    (fftLevels a.length).foldlM (fun a l => fftLevel domain (2 ^ l) a) permuted

def parallelFftScalar (domain : EvaluationDomain F) (a : List F) : Option (List F) :=
  parallelFftG1 domain a

/-- `a[1..].reverse()`. -/
def reverseTail {A : Type*} (a : List A) : List A := a.take 1 ++ (a.drop 1).reverse

def parallelIfftG1 (domain : EvaluationDomain F) (a : List G) : Option (List G) := do
  let transformed ← parallelFftG1 domain a
  let reversed := if a.length > 1 then reverseTail transformed else transformed
  return reversed.map fun x => domain.sizeAsFieldElement⁻¹ • x

end Code

section BitReversal

variable {G : Type*}

theorem trailingZeros_two_pow {width L : ℕ} (fits : L ≤ width) : trailingZeros width (2 ^ L) = L := by
  induction L generalizing width with
  | zero => cases width <;> simp [trailingZeros]
  | succ L ih =>
      obtain ⟨width, rfl⟩ : ∃ w, width = w + 1 := ⟨width - 1, by omega⟩
      rw [trailingZeros, pow_succ, if_neg (by omega), Nat.mul_div_cancel _ (by omega),
        ih (by omega), Nat.add_comm]

/-- After the indices below `k` the entries with a visited partner are in reversed position. -/
def halfReversed (L : ℕ) (f : ℕ → G) (k p : ℕ) : G :=
  if p < k ∨ reverseBits L p < k then f (reverseBits L p) else f p

theorem halfReversed_step {L k : ℕ} (f : ℕ → G) (inside : k < 2 ^ L) :
    (if k < reverseBits L k then
      swap (tabulate (2 ^ L) (halfReversed L f k)) k (reverseBits L k)
    else some (tabulate (2 ^ L) (halfReversed L f k))) =
      some (tabulate (2 ^ L) (halfReversed L f (k + 1))) := by
  have partner := reverseBits_lt L k
  have twice := reverseBits_reverseBits L k inside
  split
  case isTrue ahead =>
    rw [swap, tabulate_get _ inside, tabulate_get _ partner]
    simp only [Option.pure_def, Option.bind_eq_bind, Option.bind_some, tabulate_set]
    congr 1
    apply tabulate_congr
    intro p pInside
    have pTwice := reverseBits_reverseBits L p pInside
    by_cases isPartner : p = reverseBits L k
    · subst isPartner
      simp only [Function.update_self, halfReversed, twice]
      rw [if_neg (by omega), if_pos (by omega)]
    · by_cases isSelf : p = k
      · subst isSelf
        simp only [Function.update_of_ne isPartner, Function.update_self, halfReversed, twice]
        rw [if_neg (by omega), if_pos (by omega)]
      · have reversedOther : reverseBits L p ≠ k := fun same => isPartner (by rw [← same, pTwice])
        simp only [Function.update_of_ne isPartner, Function.update_of_ne isSelf, halfReversed]
        congr 1
        apply propext
        omega
  case isFalse behind =>
    congr 1
    apply tabulate_congr
    intro p pInside
    have pTwice := reverseBits_reverseBits L p pInside
    simp only [halfReversed]
    by_cases isSelf : p = k
    · subst isSelf
      by_cases fixed : reverseBits L p = p
      · simp [fixed]
      · rw [if_pos (by omega), if_pos (by omega)]
    · by_cases reversedSelf : reverseBits L p = k
      · have back : p = reverseBits L k := by rw [← reversedSelf, pTwice]
        by_cases fixed : reverseBits L k = k
        · omega
        · rw [if_pos (by omega), if_pos (by omega)]
      · congr 1
        apply propext
        omega

/-- The exchange loop moves each entry to its reversed index. -/
theorem bitReverse_tabulate {L : ℕ} (fits : L ≤ 63) (f : ℕ → G) :
    bitReverse (tabulate (2 ^ L) f) = some (tabulate (2 ^ L) fun p => f (reverseBits L p)) := by
  have start : tabulate (2 ^ L) f = tabulate (2 ^ L) (halfReversed L f 0) := by
    apply tabulate_congr
    intro p _
    simp [halfReversed]
  have finish : tabulate (2 ^ L) (fun p => f (reverseBits L p)) =
      tabulate (2 ^ L) (halfReversed L f (2 ^ L)) := by
    apply tabulate_congr
    intro p inside
    simp [halfReversed, inside]
  rw [bitReverse, tabulate_length, finish]
  conv_lhs => rw [start]
  apply foldlM_range_eq _ (fun k => tabulate (2 ^ L) (halfReversed L f k))
  intro k inside
  have word : wrappingShr (reverseBits 64 k) (64 - trailingZeros 64 (2 ^ L)) = reverseBits L k := by
    rw [trailingZeros_two_pow (by omega), wrappingShr]
    rcases Nat.eq_zero_or_pos L with zero | positive
    · subst zero
      obtain rfl : k = 0 := by simpa using inside
      decide
    · rw [Nat.mod_eq_of_lt (by omega), Nat.shiftRight_eq_div_pow, ← reverseBits_shift (64 - L) L k inside,
        Nat.add_sub_cancel' (by omega)]
  simp only [word]
  exact halfReversed_step f inside

end BitReversal

section Levels

variable {F G : Type*} [Field F] [AddCommGroup G] [Module F G]

/-- The chunk after the first `j` butterflies. -/
def halfCombined (w : F) (m : ℕ) (f : ℕ → G) (j p : ℕ) : G :=
  if p < j then f p + w ^ p • f (p + m)
  else if m ≤ p ∧ p < m + j then f (p - m) - w ^ (p - m) • f p
  else f p

theorem butterflies_tabulate (w : F) (m : ℕ) (f : ℕ → G) :
    butterflies w m (tabulate (2 * m) f) = some (tabulate (2 * m) (stage w m f)) := by
  have start : (tabulate (2 * m) f, (1 : F)) = (tabulate (2 * m) (halfCombined w m f 0), w ^ 0) := by
    rw [pow_zero]
    congr 1
    apply tabulate_congr
    intro p _
    simp [halfCombined]
  have loop := foldlM_range_eq (butterfly w m)
    (fun j => (tabulate (2 * m) (halfCombined w m f j), w ^ j)) m (by
      intro j inside
      rw [butterfly]
      dsimp only
      rw [tabulate_get _ (by omega), tabulate_get _ (by omega)]
      simp only [Option.bind_some, tabulate_set, pow_succ]
      congr 2
      apply tabulate_congr
      intro p pInside
      have untouched : halfCombined w m f j (j + m) = f (j + m) := by
        rw [halfCombined, if_neg (by omega), if_neg (by omega)]
      have untouched' : halfCombined w m f j j = f j := by
        rw [halfCombined, if_neg (by omega), if_neg (by omega)]
      rw [untouched, untouched']
      by_cases isUpper : p = j + m
      · subst isUpper
        rw [Function.update_self, halfCombined, if_neg (by omega), if_pos (by omega),
          Nat.add_sub_cancel]
      · by_cases isLower : p = j
        · subst isLower
          rw [Function.update_of_ne isUpper, Function.update_self, halfCombined, if_pos (by omega)]
        · rw [Function.update_of_ne isUpper, Function.update_of_ne isLower]
          simp only [halfCombined]
          congr 1
          · apply propext
            omega
          · congr 1
            apply propext
            omega)
  rw [butterflies, start, loop]
  simp only [Option.map_some]
  congr 1
  apply tabulate_congr
  intro p inside
  rw [halfCombined, stage, Nat.mod_eq_of_lt inside]
  by_cases lower : p < m
  · rw [if_pos lower, if_pos lower]
  · rw [if_neg lower, if_neg lower, if_pos (by omega)]

/-- One level on a list made of whole chunks is one stage of the transform. -/
theorem fftLevel_tabulate (domain : EvaluationDomain F) {m : ℕ} (positive : 0 < m) (count : ℕ)
    (f : ℕ → G) :
    fftLevel domain m (tabulate (count * (2 * m)) f) =
      some (tabulate (count * (2 * m)) (stage (domain.element (domain.size / (2 * m))) m f)) := by
  set w := domain.element (domain.size / (2 * m)) with hw
  have chunks : parChunksMut (2 * m) (tabulate (count * (2 * m)) f) =
      (List.range count).map fun c => tabulate (2 * m) (fun i => f (c * (2 * m) + i)) := by
    rw [parChunksMut, tabulate_length]
    have number : (count * (2 * m) + 2 * m - 1) / (2 * m) = count := by
      rw [show count * (2 * m) + 2 * m - 1 = (2 * m - 1) + count * (2 * m) by omega,
        Nat.add_mul_div_right _ _ (by omega), Nat.div_eq_of_lt (by omega), Nat.zero_add]
    rw [number]
    apply List.map_congr_left
    intro c member
    have inside := List.mem_range.mp member
    apply tabulate_window
    calc c * (2 * m) + 2 * m = (c + 1) * (2 * m) := by ring
      _ ≤ count * (2 * m) := Nat.mul_le_mul_right _ inside
  rw [fftLevel, chunks, ← hw, List.mapM_map]
  rw [mapM_eq_some _ _ (fun c => tabulate (2 * m) (stage w m (fun i => f (c * (2 * m) + i))))
    (by intro c _; exact butterflies_tabulate w m _)]
  simp only [Option.pure_def, Option.bind_eq_bind, Option.bind_some]
  rw [tabulate_flatten]
  congr 1
  apply tabulate_congr
  intro p _
  have rest : p % (2 * m) < 2 * m := Nat.mod_lt _ (by omega)
  have decomposed : p / (2 * m) * (2 * m) + p % (2 * m) = p := Nat.div_add_mod' p (2 * m)
  rw [stage, stage, Nat.mod_mod]
  split
  case isTrue lower =>
    rw [decomposed, ← Nat.add_assoc, decomposed]
  case isFalse upper =>
    rw [decomposed, show p / (2 * m) * (2 * m) + (p % (2 * m) - m) = p - m by omega]

theorem fftLevels_two_pow {L : ℕ} (fits : L ≤ 64) : fftLevels (2 ^ L) = List.range L := by
  rw [fftLevels]
  obtain ⟨rest, hrest⟩ : ∃ rest, 64 = L + rest := ⟨64 - L, by omega⟩
  rw [hrest, List.range_add, List.filter_append]
  have kept : (List.range L).filter (fun l => decide (2 ^ l < 2 ^ L)) = List.range L := by
    apply List.filter_eq_self.mpr
    intro l member
    simpa using Nat.pow_lt_pow_right (by omega) (List.mem_range.mp member)
  have dropped : ((List.range rest).map (L + ·)).filter (fun l => decide (2 ^ l < 2 ^ L)) = [] := by
    apply List.filter_eq_nil_iff.mpr
    intro l member
    obtain ⟨i, _, rfl⟩ := List.mem_map.mp member
    simpa using Nat.pow_le_pow_right (show 1 ≤ 2 by omega) (Nat.le_add_right L i)
  rw [kept, dropped, List.append_nil]

/-- The group FFT computes the transform on every domain of power-of-two size. -/
theorem parallelFftG1_tabulate (domain : EvaluationDomain F) {L : ℕ}
    (size : domain.size = 2 ^ L) (f : ℕ → G) :
    parallelFftG1 domain (tabulate domain.size f) =
      some (tabulate domain.size (dft domain.groupGen domain.size f)) := by
  have fits : L ≤ 63 := by
    have word := domain.fitsWord
    rw [size] at word
    have exponent := (Nat.pow_lt_pow_iff_right (show 1 < 2 by omega)).mp word
    omega
  have primitive : IsPrimitiveRoot domain.groupGen (2 ^ L) := size ▸ domain.primitive
  rw [size, parallelFftG1, tabulate_length]
  split
  case isTrue short =>
    have zero : L = 0 := by
      by_contra nonzero
      have large := Nat.one_lt_two_pow nonzero
      omega
    subst zero
    congr 1
    apply tabulate_congr
    intro i inside
    rw [show i = 0 by omega, pow_zero, dft_one]
  case isFalse long =>
    rw [bitReverse_tabulate fits, fftLevels_two_pow (by omega)]
    simp only [Option.bind_eq_bind, Option.bind_some]
    have loop := foldlM_range_eq (fun a l => fftLevel domain (2 ^ l) a)
      (fun l => tabulate (2 ^ L) (stages domain.groupGen L (fun p => f (reverseBits L p)) l)) L (by
        intro l level
        have half : 2 ^ L = 2 ^ (L - (l + 1)) * (2 * 2 ^ l) := by
          rw [← pow_succ', ← pow_add]
          congr 1
          omega
        have twiddle : domain.size / (2 * 2 ^ l) = 2 ^ (L - (l + 1)) := by
          rw [size, half, Nat.mul_div_cancel _ (by positivity)]
        rw [half, fftLevel_tabulate domain (by positivity), twiddle]
        rfl)
    rw [show tabulate (2 ^ L) (fun p => f (reverseBits L p)) = tabulate (2 ^ L)
      (stages domain.groupGen L (fun p => f (reverseBits L p)) 0) from rfl, loop]
    congr 1
    apply tabulate_congr
    intro p inside
    rw [stages_reverseBits primitive (le_refl L), blockValues_final _ _ _ inside]

/-- The inverse group FFT computes the inverse transform. -/
theorem parallelIfftG1_tabulate (domain : EvaluationDomain F) {L : ℕ}
    (size : domain.size = 2 ^ L) (f : ℕ → G) :
    parallelIfftG1 domain (tabulate domain.size f) =
      some (tabulate domain.size (idft domain.groupGen domain.size f)) := by
  rw [parallelIfftG1, parallelFftG1_tabulate domain size]
  simp only [Option.pure_def, Option.bind_eq_bind, Option.bind_some, tabulate_length]
  have reversed : (if domain.size > 1 then
      reverseTail (tabulate domain.size (dft domain.groupGen domain.size f))
      else tabulate domain.size (dft domain.groupGen domain.size f)) =
      tabulate domain.size (fun i => dft domain.groupGen domain.size f
        ((domain.size - i) % domain.size)) := by
    split
    case isTrue => exact tabulate_reverse_tail domain.positive _
    case isFalse short =>
      apply tabulate_congr
      intro i inside
      rw [show i = 0 by omega]
      simp
  rw [reversed, tabulate_map]
  congr 1
  apply tabulate_congr
  intro k inside
  rw [Function.comp_apply, idft, EvaluationDomain.sizeAsFieldElement]
  congr 1
  apply Finset.sum_congr rfl
  intro i _
  congr 1
  rw [Nat.mul_comm, pow_mul, Nat.mul_comm i k, pow_mul,
    ← pow_eq_pow_mod _ domain.primitive.pow_eq_one]
  congr 1
  rw [inv_pow]
  apply eq_inv_of_mul_eq_one_left
  rw [← pow_add, Nat.sub_add_cancel inside.le, domain.primitive.pow_eq_one]

end Levels

section PowerOfTwo

variable {F G : Type*} [Field F]

/-- The chunks of a list put together are the list. -/
theorem parChunksMut_flatten {A : Type*} {width : ℕ} (positive : 0 < width) (a : List A) :
    (parChunksMut width a).flatten = a := by
  have prefixes (count : ℕ) : ((List.range count).map fun c => (a.drop (c * width)).take width).flatten =
      a.take (count * width) := by
    induction count with
    | zero => simp
    | succ count ih =>
        rw [List.range_succ, List.map_append, List.flatten_append, ih, List.map_singleton,
          List.flatten_singleton, Nat.succ_mul, List.take_add]
  rw [parChunksMut, prefixes]
  apply List.take_of_length_le
  have quotient := Nat.div_add_mod (a.length + width - 1) width
  have remainder := Nat.mod_lt (a.length + width - 1) positive
  rw [Nat.mul_comm] at quotient
  omega

theorem bitReverse_length {a permuted : List G} (run : bitReverse a = some permuted) :
    permuted.length = a.length := by
  refine (@foldlM_inv _ _ _ (fun state : List G => state.length = a.length) ?_ _ _ _ rfl run).1
  intro state k next holds step
  dsimp only at step
  split at step
  case isTrue =>
    obtain ⟨x, -, rest⟩ := Option.bind_eq_some_iff.mp step
    obtain ⟨y, -, swapped⟩ := Option.bind_eq_some_iff.mp rest
    cases swapped
    rw [List.length_set, List.length_set, holds]
  case isFalse =>
    cases step
    exact holds

variable [AddCommGroup G] [SMul F G]

/-- The butterflies keep the length of a chunk and need an entry past its middle. -/
theorem butterflies_length {w : F} {m : ℕ} {chunk result : List G} (run : butterflies w m chunk = some result) :
    result.length = chunk.length ∧ (0 < m → m < chunk.length) := by
  obtain ⟨final, loop, rfl⟩ := Option.map_eq_some_iff.mp run
  have keep (state : List G × F) (j : ℕ) (next : List G × F) (holds : state.1.length = chunk.length)
      (step : butterfly w m state j = some next) : next.1.length = chunk.length := by
    obtain ⟨upper, -, rest⟩ := Option.bind_eq_some_iff.mp step
    obtain ⟨u, -, combined⟩ := Option.bind_eq_some_iff.mp rest
    cases combined
    rw [List.length_set, List.length_set, holds]
  obtain ⟨length, visited⟩ := foldlM_inv keep _ rfl loop
  refine ⟨length, ?_⟩
  intro positive
  obtain ⟨state, next, holds, step⟩ := visited 0 (List.mem_range.mpr positive)
  obtain ⟨upper, located, -⟩ := Option.bind_eq_some_iff.mp step
  have inside := (List.getElem?_eq_some_iff.mp located).1
  omega

/-- A level keeps the length, and no chunk of it ends at its middle or before. -/
theorem fftLevel_length {domain : EvaluationDomain F} {m : ℕ} (positive : 0 < m) {a result : List G}
    (run : fftLevel domain m a = some result) :
    result.length = a.length ∧ (a.length % (2 * m) = 0 ∨ m < a.length % (2 * m)) := by
  obtain ⟨chunks, mapped, whole⟩ := Option.bind_eq_some_iff.mp run
  cases whole
  obtain ⟨length, visited⟩ := mapM_flatten_length (fun chunk result step => (butterflies_length step).1) _ mapped
  rw [parChunksMut_flatten (by omega)] at length
  refine ⟨length, ?_⟩
  by_cases whole : a.length % (2 * m) = 0
  · exact Or.inl whole
  · right
    have decomposed := Nat.div_add_mod a.length (2 * m)
    have short := Nat.mod_lt a.length (show 2 * m > 0 by omega)
    have count : a.length / (2 * m) < (a.length + 2 * m - 1) / (2 * m) := by
      rw [Nat.lt_div_iff_mul_lt (by omega), Nat.mul_comm]
      omega
    obtain ⟨last, step⟩ := visited ((a.drop (a.length / (2 * m) * (2 * m))).take (2 * m))
      (List.mem_map.mpr ⟨_, List.mem_range.mpr count, rfl⟩)
    have inside := (butterflies_length step).2 positive
    have remainder : a.length - a.length / (2 * m) * (2 * m) = a.length % (2 * m) := by
      rw [Nat.mul_comm]
      omega
    rw [List.length_take, List.length_drop, remainder] at inside
    exact (lt_min_iff.mp inside).2

/-- The transform only ends on lists of power-of-two length. -/
theorem parallelFftG1_length {domain : EvaluationDomain F} {a result : List G} (nonempty : 0 < a.length)
    (fitsWord : a.length < 2 ^ 64) (run : parallelFftG1 domain a = some result) : ∃ L, a.length = 2 ^ L := by
  rw [parallelFftG1] at run
  split at run
  case isTrue short => exact ⟨0, by rw [pow_zero]; omega⟩
  case isFalse long =>
    obtain ⟨permuted, reversed, levels⟩ := Option.bind_eq_some_iff.mp run
    have keep (state : List G) (l : ℕ) (next : List G) (holds : state.length = a.length)
        (step : fftLevel domain (2 ^ l) state = some next) : next.length = a.length := by
      rw [(fftLevel_length (by positivity) step).1, holds]
    have visited := (foldlM_inv keep _ (bitReverse_length reversed) levels).2
    have divides (l : ℕ) (below : 2 ^ l < 2 * a.length) : 2 ^ l ∣ a.length := by
      induction l with
      | zero => exact one_dvd _
      | succ l ih =>
          rw [pow_succ'] at below ⊢
          obtain ⟨factor, product⟩ := ih (by omega)
          have word : l < 64 := by
            by_contra large
            have power := Nat.pow_le_pow_right (show 1 ≤ 2 by omega) (not_lt.mp large)
            omega
          obtain ⟨state, next, holds, step⟩ := visited l (List.mem_filter.mpr
            ⟨List.mem_range.mpr word, decide_eq_true (by omega)⟩)
          have remainder := (fftLevel_length (by positivity) step).2
          rw [holds, product, Nat.mul_comm 2, Nat.mul_mod_mul_left] at remainder
          apply Nat.dvd_of_mod_eq_zero
          rw [product, Nat.mul_comm 2, Nat.mul_mod_mul_left]
          rcases remainder with zero | large
          · exact zero
          · have parity := Nat.mod_lt factor (show 2 > 0 by omega)
            have single : 2 ^ l * (factor % 2) ≤ 2 ^ l * 1 := Nat.mul_le_mul_left _ (by omega)
            omega
    refine ⟨Nat.log 2 a.length, ?_⟩
    have lower := Nat.pow_log_le_self 2 (show a.length ≠ 0 by omega)
    have upper := Nat.lt_pow_succ_log_self (show 1 < 2 by omega) a.length
    by_contra different
    have next := Nat.le_of_dvd nonempty (divides (Nat.log 2 a.length + 1) (by rw [pow_succ']; omega))
    rw [Nat.succ_eq_add_one] at upper
    omega

end PowerOfTwo

end Pvugc.Outer
