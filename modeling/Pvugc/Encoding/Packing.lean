import Pvugc.Algebra.Bytes

namespace Pvugc.Encoding
open Pvugc.Algebra

/-- The number of words of a byte string; the empty string takes one. -/
def wordCount (width : ℕ) (bytes : List UInt8) : ℕ := max 1 ((bytes.length + width - 1) / width)

/-- The little-endian words of a byte string. -/
def packWords (width : ℕ) (bytes : List UInt8) : List ℕ :=
  (List.range (wordCount width bytes)).map fun c => leValue ((bytes.drop (c * width)).take width)

/-- The byte string with the zeros that complete its last word. -/
def zeroPadded (width : ℕ) (bytes : List UInt8) : List UInt8 :=
  bytes ++ List.replicate (wordCount width bytes * width - bytes.length) 0

section Words

variable {width : ℕ} (positive : 0 < width)
include positive

theorem length_le_words (bytes : List UInt8) : bytes.length ≤ wordCount width bytes * width := by
  have enough : bytes.length ≤ (bytes.length + width - 1) / width * width := by
    have quotient := Nat.div_add_mod (bytes.length + width - 1) width
    have remainder := Nat.mod_lt (bytes.length + width - 1) positive
    rw [Nat.mul_comm] at quotient
    omega
  exact enough.trans (Nat.mul_le_mul_right width (Nat.le_max_right _ _))

theorem zeroPadded_length (bytes : List UInt8) : (zeroPadded width bytes).length = wordCount width bytes * width := by
  have enough := length_le_words positive bytes
  rw [zeroPadded, List.length_append, List.length_replicate]
  omega

/-- Zeros at the end of a window do not change its word. -/
theorem packWords_eq (bytes : List UInt8) : packWords width bytes =
    (List.range ((zeroPadded width bytes).length / width)).map fun c =>
      leValue (((zeroPadded width bytes).drop (c * width)).take width) := by
  rw [zeroPadded_length positive, Nat.mul_div_cancel _ positive, packWords]
  apply List.map_congr_left
  intro c _
  rw [zeroPadded, List.drop_append, List.take_append, leValue_append, List.drop_replicate,
    List.take_replicate, leValue_zeros, Nat.mul_zero, Nat.add_zero]

/-- The bytes of the words are the padded byte string. -/
theorem flatMap_packWords (bytes : List UInt8) :
    (packWords width bytes).flatMap (toLeBytes width) = zeroPadded width bytes := by
  set padded := zeroPadded width bytes with hpadded
  have windows (count : ℕ) (fits : count * width ≤ padded.length) :
      ((List.range count).map fun c => leValue ((padded.drop (c * width)).take width)).flatMap (toLeBytes width) =
        padded.take (count * width) := by
    induction count with
    | zero => simp
    | succ count inductionHypothesis =>
        rw [Nat.succ_mul] at fits ⊢
        have window : ((padded.drop (count * width)).take width).length = width := by
          rw [List.length_take, List.length_drop]
          omega
        have last := toLeBytes_leValue ((padded.drop (count * width)).take width)
        rw [window] at last
        rw [List.range_succ, List.map_append, List.flatMap_append, inductionHypothesis (by omega),
          List.map_singleton, List.flatMap_singleton, last, List.take_add]
  have length : padded.length = padded.length / width * width := by
    rw [hpadded, zeroPadded_length positive, Nat.mul_div_cancel _ positive]
  rw [packWords_eq positive, windows _ (by rw [← length]), ← length, List.take_length]

/-- Two byte strings have the same words exactly when they agree with their zeros. -/
theorem packWords_eq_iff {bytes bytes' : List UInt8} :
    packWords width bytes = packWords width bytes' ↔ zeroPadded width bytes = zeroPadded width bytes' := by
  constructor
  · intro same
    rw [← flatMap_packWords positive, same, flatMap_packWords positive]
  · intro same
    rw [packWords_eq positive, same, ← packWords_eq positive]

/-- The words determine a byte string of known length. -/
theorem packWords_inj {bytes bytes' : List UInt8} (length : bytes.length = bytes'.length)
    (same : packWords width bytes = packWords width bytes') : bytes = bytes' :=
  (List.append_inj ((packWords_eq_iff positive).mp same) length).1

omit positive in
theorem words_le_length (bytes : List UInt8) : wordCount width bytes * width ≤ bytes.length + width := by
  rw [wordCount]
  rcases Nat.le_total 1 ((bytes.length + width - 1) / width) with some | none
  · rw [Nat.max_eq_right some]
    exact (Nat.div_mul_le_self _ _).trans (Nat.sub_le _ _)
  · rw [Nat.max_eq_left none, Nat.one_mul]
    exact Nat.le_add_left _ _

/-- Byte strings with the same words differ in length by at most a word. -/
theorem length_le_of_packWords {bytes bytes' : List UInt8}
    (same : packWords width bytes = packWords width bytes') : bytes.length ≤ bytes'.length + width := by
  have counts := congrArg List.length same
  rw [packWords, packWords, List.length_map, List.length_map, List.length_range, List.length_range] at counts
  have enough := length_le_words positive bytes
  rw [counts] at enough
  exact enough.trans (words_le_length bytes')

/-- A zero byte in the room that the last word leaves does not change the words. -/
theorem packWords_append_zero {bytes : List UInt8} (room : bytes.length < wordCount width bytes * width) :
    packWords width (bytes ++ [0]) = packWords width bytes := by
  have count : wordCount width (bytes ++ [0]) = wordCount width bytes := by
    apply le_antisymm
    · rw [wordCount, List.length_append, List.length_singleton]
      apply Nat.max_le.mpr
      refine ⟨Nat.le_max_left _ _, ?_⟩
      rw [Nat.div_le_iff_le_mul positive]
      omega
    · apply max_le_max_left
      apply Nat.div_le_div_right
      rw [List.length_append]
      omega
  rw [packWords_eq_iff positive, zeroPadded, zeroPadded, count, List.append_assoc, List.length_append,
    List.length_singleton]
  congr 1
  rw [List.singleton_append, ← List.replicate_succ]
  congr 1
  omega

/-- Byte strings with the same words agree, unless the last word has room for zeros or ends in one. -/
theorem packWords_determines_iff (several : 1 < width) (bytes : List UInt8) :
    (∀ bytes', packWords width bytes' = packWords width bytes → bytes' = bytes) ↔
      bytes.length = wordCount width bytes * width ∧ bytes.getLast? ≠ some 0 := by
  have enough := length_le_words positive bytes
  constructor
  · intro determines
    have full : bytes.length = wordCount width bytes * width := by
      by_contra room
      have longer := determines _ (packWords_append_zero positive (enough.lt_of_ne room))
      have lengths := congrArg List.length longer
      rw [List.length_append, List.length_singleton] at lengths
      omega
    refine ⟨full, ?_⟩
    intro last
    obtain ⟨init, rfl⟩ := List.getLast?_eq_some_iff.mp last
    rw [List.length_append, List.length_singleton] at full
    have room : init.length < wordCount width init * width := by
      apply lt_of_le_of_ne (length_le_words positive init)
      intro initFull
      rw [initFull] at full
      have divides : width ∣ 1 :=
        (Nat.dvd_add_right (Nat.dvd_mul_left width _)).mp (full ▸ Nat.dvd_mul_left width _)
      exact absurd (Nat.le_of_dvd Nat.one_pos divides) (not_le.mpr several)
    have shorter := determines init (packWords_append_zero positive room).symm
    have lengths := congrArg List.length shorter
    rw [List.length_append, List.length_singleton] at lengths
    omega
  · intro full bytes' same
    rw [packWords_eq_iff positive] at same
    have padded : zeroPadded width bytes = bytes := by
      rw [zeroPadded, full.1, Nat.sub_self, List.replicate_zero, List.append_nil]
    rw [padded, zeroPadded] at same
    cases missing : wordCount width bytes' * width - bytes'.length with
    | zero =>
        rw [missing, List.replicate_zero, List.append_nil] at same
        exact same
    | succ n =>
        rw [missing, List.replicate_succ', ← List.append_assoc] at same
        apply absurd _ full.2
        rw [← same, List.getLast?_concat]

/-- A byte string of whole words is packed before another one without sharing a word. -/
theorem packWords_append {first second : List UInt8} {n : ℕ} (whole : first.length = (n + 1) * width)
    (nonempty : second ≠ []) :
    packWords width (first ++ second) = packWords width first ++ packWords width second := by
  have some : 0 < second.length := List.length_pos_iff.mpr nonempty
  have tail : wordCount width second = (second.length + width - 1) / width := by
    apply Nat.max_eq_right
    rw [Nat.le_div_iff_mul_le positive]
    omega
  have head : wordCount width first = n + 1 := by
    have quotient : (first.length + width - 1) / width = n + 1 := by
      rw [whole, Nat.add_sub_assoc positive, Nat.add_comm, Nat.add_mul_div_right _ _ positive,
        Nat.div_eq_of_lt (by omega), Nat.zero_add]
    rw [wordCount, quotient, Nat.max_eq_right (by omega)]
  have count : wordCount width (first ++ second) = (n + 1) + wordCount width second := by
    have quotient : ((first ++ second).length + width - 1) / width =
        (n + 1) + (second.length + width - 1) / width := by
      rw [List.length_append, whole, Nat.add_assoc, Nat.add_sub_assoc (by omega), Nat.add_comm,
        Nat.add_mul_div_right _ _ positive, Nat.add_comm]
    rw [wordCount, quotient, ← tail, Nat.max_eq_right (by omega)]
  rw [packWords, packWords, packWords, count, head, List.range_add, List.map_append, List.map_map]
  congr 1
  · apply List.map_congr_left
    intro c member
    have inside : (c + 1) * width ≤ first.length := by
      rw [whole]
      exact Nat.mul_le_mul_right width (Nat.succ_le_of_lt (List.mem_range.mp member))
    rw [Nat.succ_mul] at inside
    rw [List.drop_append_of_le_length (by omega), List.take_append_of_le_length (by rw [List.length_drop]; omega)]
  · apply List.map_congr_left
    intro c _
    have shift : (n + 1 + c) * width = first.length + c * width := by rw [whole, Nat.add_mul]
    rw [Function.comp_apply, shift, ← List.drop_drop, List.drop_left]
end Words

/-- A word fits its width. -/
theorem packWords_lt {width : ℕ} {bytes : List UInt8} {word : ℕ} (member : word ∈ packWords width bytes) :
    word < 256 ^ width := by
  obtain ⟨c, -, rfl⟩ := List.mem_map.mp member
  exact (leValue_lt _).trans_le (Nat.pow_le_pow_right (by decide) (List.length_take_le _ _))

end Pvugc.Encoding
