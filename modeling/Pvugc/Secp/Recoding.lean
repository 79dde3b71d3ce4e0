import Pvugc.Algebra.Bits
import Mathlib.Data.Int.ModEq
import Mathlib.Algebra.BigOperators.Intervals
import Mathlib.Tactic.LinearCombination
import Mathlib.Tactic.Linarith

namespace Pvugc.Secp
open Pvugc.Algebra Finset

/-- This is `WINDOW_SIZE`. -/
abbrev windowSize : ℕ := 6

/-- This is `NUM_WINDOWS`. -/
def numWindows : ℕ := (256 + windowSize - 1) / windowSize

/-- This is `scalar_bits_le`. -/
def scalarBitsLe (bytes : Vector UInt8 32) : List Bool :=
  bytes.toList.reverse.flatMap fun byte =>
    (List.range 8).map fun bit => (byte.toNat >>> bit) &&& 1 == 1

/-- The sum of the incoming carry and the bits of one window; bits past the end count as zero. -/
def windowChunk (bits : List Bool) (window : ℕ) (carry : ℤ) : ℤ :=
  (List.range windowSize).foldl
    (fun chunk bit =>
      if window * windowSize + bit < bits.length ∧ bits.getD (window * windowSize + bit) false = true
        then chunk + 2 ^ bit else chunk) carry

/-- The digit that the recoding loop takes out of a chunk, with the next carry. -/
def recodeWindow (chunk carry : ℤ) : ℤ × ℤ :=
  let digit := if chunk ≥ 2 ^ windowSize then chunk - 2 ^ windowSize else chunk
  let (digit, carry) :=
    if digit = 32 then (0, 1) else if digit > 32 then (digit - 64, carry) else (digit, 0)
  (digit, if carry = 0 then (chunk - digit) >>> windowSize else carry)

/-- The mutable variables of the recoding loop. -/
structure Recoding where
  carry : ℤ
  digits : List ℤ
  carries : List ℤ

/-- One round of the recoding loop; `Int.bmod` is the cast to `i8` and `%` the cast to `u8`. -/
def recodeStep (bits : List Bool) (state : Recoding) (window : ℕ) : Recoding :=
  let (digit, carry) := recodeWindow (windowChunk bits window state.carry) state.carry
  ⟨carry, state.digits ++ [digit.bmod 256], state.carries ++ [carry % 256]⟩

/-- This is `recode_signed_window6_inner`. -/
def recodeSignedWindow6Inner (bits : List Bool) : List ℤ × List ℤ :=
  let final := (List.range numWindows).foldl (recodeStep bits) ⟨0, [], [0]⟩
  (final.digits, final.carries)

/-- This is `recode_signed_window6`. -/
def recodeSignedWindow6 (bytes : Vector UInt8 32) : List ℤ × List ℤ :=
  recodeSignedWindow6Inner (scalarBitsLe bytes)

/-- The big-endian integer of a byte string. -/
def scalarInteger (bytes : Vector UInt8 32) : ℕ :=
  Nat.ofDigits 256 (bytes.toList.reverse.map UInt8.toNat)

theorem scalarBitsLe_value (bytes : Vector UInt8 32) :
    bitsValue (scalarBitsLe bytes) = scalarInteger bytes := by
  rw [scalarBitsLe, scalarInteger]
  induction bytes.toList.reverse with
  | nil => rfl
  | cons byte rest inductionHypothesis =>
      have eight := bitsValue_testBit byte.toNat 8
      rw [Nat.mod_eq_of_lt byte.toNat_lt] at eight
      have bits : (List.range 8).map (fun bit => (byte.toNat >>> bit) &&& 1 == 1) =
          (List.range 8).map byte.toNat.testBit := by
        apply List.map_congr_left
        intro bit _
        rw [Nat.testBit_eq_decide_div_mod_eq, Nat.shiftRight_eq_div_pow, Nat.and_one_is_mod]
        rfl
      rw [List.flatMap_cons, bitsValue_append, bits, eight, inductionHypothesis, List.map_cons,
        Nat.ofDigits_cons, List.length_map, List.length_range]
      rfl

theorem scalarInteger_lt (bytes : Vector UInt8 32) : scalarInteger bytes < 256 ^ 32 := by
  have bound := Nat.ofDigits_lt_base_pow_length (b := 256) (by decide)
    (l := bytes.toList.reverse.map UInt8.toNat) (by
      intro digit member
      obtain ⟨byte, -, rfl⟩ := List.mem_map.mp member
      exact byte.toNat_lt)
  rw [List.length_map, List.length_reverse, Vector.length_toList] at bound
  exact bound

/-- The largest number with `w` base-64 digits whose recoding carries nothing out: every digit
is 31. -/
def carryFree (w : ℕ) : ℕ := ∑ i ∈ range w, 31 * 64 ^ i

/-- The carry that the low `w` digits of a number send into digit `w`. -/
def carryInto (n w : ℕ) : ℕ := if carryFree w < n % 64 ^ w then 1 else 0

/-- Digit `w` of a number with the carry into it. -/
def chunkAt (n w : ℕ) : ℕ := n / 64 ^ w % 64 + carryInto n w

theorem carryFree_succ (w : ℕ) : carryFree (w + 1) = carryFree w + 31 * 64 ^ w :=
  sum_range_succ _ w

theorem carryFree_lt (w : ℕ) : carryFree w < 64 ^ w := by
  induction w with
  | zero => exact Nat.one_pos
  | succ w inductionHypothesis =>
      rw [carryFree_succ, pow_succ]
      omega

theorem mod_pow_succ (n w : ℕ) : n % 64 ^ (w + 1) = n % 64 ^ w + 64 ^ w * (n / 64 ^ w % 64) :=
  Nat.mod_pow_succ

theorem lt_digit_iff {weight bound lower : ℕ} (digit : ℕ) (small : lower < weight)
    (free : bound < weight) :
    bound + 31 * weight < lower + weight * digit ↔ 32 ≤ digit + if bound < lower then 1 else 0 := by
  rcases Nat.lt_trichotomy digit 31 with below | rfl | above
  · have product : weight * digit ≤ weight * 30 := Nat.mul_le_mul_left _ (by omega)
    split <;> omega
  · split <;> omega
  · have product : weight * 32 ≤ weight * digit := Nat.mul_le_mul_left _ (by omega)
    split <;> omega

theorem digit_le_iff {weight bound lower : ℕ} (digit : ℕ) (small : lower < weight)
    (free : bound < weight) :
    lower + weight * digit ≤ bound + 32 * weight ↔
      digit + (if bound < lower then 1 else 0) ≤ 32 := by
  rcases Nat.lt_trichotomy digit 32 with below | rfl | above
  · have product : weight * digit ≤ weight * 31 := Nat.mul_le_mul_left _ (by omega)
    split <;> omega
  · split <;> omega
  · have product : weight * 33 ≤ weight * digit := Nat.mul_le_mul_left _ (by omega)
    split <;> omega

theorem mod_weight_lt (n w : ℕ) : n % 64 ^ w < 64 ^ w := Nat.mod_lt n (Nat.pow_pos (by decide))

/-- A digit carries out exactly when its chunk is at least 32. -/
theorem carryInto_succ (n w : ℕ) : carryInto n (w + 1) = if 32 ≤ chunkAt n w then 1 else 0 := by
  unfold carryInto chunkAt carryInto
  simp only [carryFree_succ, mod_pow_succ, lt_digit_iff _ (mod_weight_lt n w) (carryFree_lt w)]

/-- The low digits of a number whose chunk at digit `w` is the midpoint 32. -/
theorem chunkAt_midpoint_iff (n w : ℕ) :
    chunkAt n w = 32 ↔ carryFree (w + 1) < n % 64 ^ (w + 1) ∧
      n % 64 ^ (w + 1) ≤ carryFree (w + 1) + 64 ^ w := by
  have above := lt_digit_iff (n / 64 ^ w % 64) (mod_weight_lt n w) (carryFree_lt w)
  have below := digit_le_iff (n / 64 ^ w % 64) (mod_weight_lt n w) (carryFree_lt w)
  rw [carryFree_succ, mod_pow_succ, above, show carryFree w + 31 * 64 ^ w + 64 ^ w =
    carryFree w + 32 * 64 ^ w by ring, below, chunkAt, carryInto]
  omega

theorem chunkAt_le (n w : ℕ) : chunkAt n w ≤ 64 := by
  have digit := Nat.mod_lt (n / 64 ^ w) (show 0 < 64 by decide)
  unfold chunkAt carryInto
  split <;> omega

/-- The digit that the loop writes for window `w`. -/
def digitAt (n w : ℕ) : ℤ :=
  if chunkAt n w = 32 then 0 else if chunkAt n w > 32 then chunkAt n w - 64 else chunkAt n w

theorem digitAt_natAbs_lt (n w : ℕ) : (digitAt n w).natAbs < 32 := by
  have bound := chunkAt_le n w
  unfold digitAt
  split
  case isTrue => decide
  case isFalse => split <;> omega

theorem windowChunk_eq (bits : List Bool) (w : ℕ) (carry : ℤ) :
    windowChunk bits w carry = carry + (bitsValue bits / 64 ^ w % 64 : ℕ) := by
  rw [windowChunk, foldl_bits, bitsValue_window, windowSize, Nat.mul_comm, Nat.pow_mul]
  rfl

/-- One window of the recoding: the digit, and a carry from 32 on. -/
theorem recodeWindow_eq {chunk carry : ℕ} (bound : chunk ≤ 64) (bit : carry ≤ 1) :
    recodeWindow chunk carry =
      (if chunk = 32 then 0 else if chunk > 32 then (chunk : ℤ) - 64 else chunk,
        if 32 ≤ chunk then 1 else 0) := by
  have shift (value : ℤ) : value >>> (6 : ℕ) = value / 64 := Int.shiftRight_eq_div_pow value 6
  simp only [recodeWindow, windowSize, shift]
  rcases Nat.lt_trichotomy chunk 32 with below | rfl | above
  · rw [if_neg (show ¬ chunk = 32 by omega), if_neg (show ¬ chunk > 32 by omega),
      if_neg (show ¬ 32 ≤ chunk by omega), if_neg (show ¬ (chunk : ℤ) ≥ 2 ^ 6 by omega),
      if_neg (show ¬ (chunk : ℤ) = 32 by omega), if_neg (show ¬ (chunk : ℤ) > 32 by omega)]
    simp
  · rfl
  · rw [if_neg (show ¬ chunk = 32 by omega), if_pos (show chunk > 32 from above),
      if_pos (show 32 ≤ chunk by omega)]
    rcases Nat.lt_or_ge chunk 64 with small | large
    · rw [if_neg (show ¬ (chunk : ℤ) ≥ 2 ^ 6 by omega),
        if_neg (show ¬ (chunk : ℤ) = 32 by omega), if_pos (show (chunk : ℤ) > 32 by omega)]
      simp only [sub_sub_cancel, Prod.mk.injEq, true_and]
      split <;> omega
    · obtain rfl : chunk = 64 := by omega
      rfl

theorem carryInto_le (n w : ℕ) : carryInto n w ≤ 1 := by
  unfold carryInto
  split <;> decide

/-- One round of the loop from the carry of the lower digits. -/
theorem recodeStep_eq (bits : List Bool) (w : ℕ) (digits carries : List ℤ) :
    recodeStep bits ⟨carryInto (bitsValue bits) w, digits, carries⟩ w =
      ⟨carryInto (bitsValue bits) (w + 1), digits ++ [digitAt (bitsValue bits) w],
        carries ++ [(carryInto (bitsValue bits) (w + 1) : ℤ)]⟩ := by
  generalize number : bitsValue bits = n
  have chunk : windowChunk bits w (carryInto n w) = (chunkAt n w : ℤ) := by
    rw [windowChunk_eq, number, chunkAt]
    push_cast
    ring
  have window := recodeWindow_eq (chunkAt_le n w) (carryInto_le n w)
  have next : (if 32 ≤ chunkAt n w then 1 else 0 : ℤ) = carryInto n (w + 1) := by
    rw [carryInto_succ]
    split <;> rfl
  have small := digitAt_natAbs_lt n w
  have bit := carryInto_le n (w + 1)
  have byte : (digitAt n w).bmod 256 = digitAt n w := Int.bmod_eq_of_le (by omega) (by omega)
  have unsigned : (carryInto n (w + 1) : ℤ) % 256 = carryInto n (w + 1) := by omega
  simp only [recodeStep, chunk, window, next]
  rw [unsigned]
  change Recoding.mk _ (digits ++ [(digitAt n w).bmod 256]) _ = _
  rw [byte]

/-- The loop after `w` windows. -/
theorem recodeSteps (bits : List Bool) (w : ℕ) :
    (List.range w).foldl (recodeStep bits) ⟨0, [], [0]⟩ =
      ⟨carryInto (bitsValue bits) w, (List.range w).map (digitAt (bitsValue bits)),
        (List.range (w + 1)).map fun i => (carryInto (bitsValue bits) i : ℤ)⟩ := by
  induction w with
  | zero => simp [carryInto, carryFree, Nat.mod_one]
  | succ w inductionHypothesis =>
      rw [List.range_succ, List.foldl_append, inductionHypothesis, List.foldl_cons, List.foldl_nil,
        recodeStep_eq, List.map_append, List.range_succ (n := w + 1), List.map_append]
      rfl

theorem recodeSignedWindow6_eq (bytes : Vector UInt8 32) :
    recodeSignedWindow6 bytes =
      ((List.range numWindows).map (digitAt (scalarInteger bytes)),
        (List.range (numWindows + 1)).map fun i => (carryInto (scalarInteger bytes) i : ℤ)) := by
  rw [recodeSignedWindow6, recodeSignedWindow6Inner, recodeSteps, scalarBitsLe_value]

/-- What the midpoint chunks of the first `w` windows add: a digit 32 is dropped and carried. -/
def midpointExcess (n w : ℕ) : ℕ := ∑ i ∈ range w, if chunkAt n i = 32 then 32 * 64 ^ i else 0

theorem midpointExcess_succ (n w : ℕ) :
    midpointExcess n (w + 1) = midpointExcess n w + if chunkAt n w = 32 then 32 * 64 ^ w else 0 :=
  sum_range_succ _ w

/-- The digits and the carry after `w` windows: a midpoint chunk counts twice. -/
theorem digitAt_sum (n w : ℕ) :
    ∑ i ∈ range w, digitAt n i * 64 ^ i + carryInto n w * 64 ^ w =
      (n % 64 ^ w : ℕ) + midpointExcess n w := by
  induction w with
  | zero => simp [midpointExcess, carryInto, carryFree, Nat.mod_one]
  | succ w inductionHypothesis =>
      have window : digitAt n w + 64 * carryInto n (w + 1) =
          (n / 64 ^ w % 64 : ℕ) + carryInto n w + if chunkAt n w = 32 then 32 else 0 := by
        rw [carryInto_succ, digitAt]
        have chunk : chunkAt n w = n / 64 ^ w % 64 + carryInto n w := rfl
        split_ifs <;> omega
      have excess : (midpointExcess n (w + 1) : ℤ) =
          midpointExcess n w + (if chunkAt n w = 32 then 32 else 0) * 64 ^ w := by
        rw [midpointExcess_succ]
        split <;> push_cast <;> ring
      rw [sum_range_succ, mod_pow_succ, excess]
      push_cast at window inductionHypothesis ⊢
      linear_combination inductionHypothesis + 64 ^ w * window

theorem midpointExcess_lt (n w : ℕ) : midpointExcess n w < 64 ^ w := by
  induction w with
  | zero => exact Nat.one_pos
  | succ w inductionHypothesis =>
      rw [midpointExcess_succ, pow_succ]
      split <;> omega

theorem midpointExcess_eq_zero_iff (n w : ℕ) :
    midpointExcess n w = 0 ↔ ∀ i < w, chunkAt n i ≠ 32 := by
  rw [midpointExcess, sum_eq_zero_iff]
  constructor
  · intro zero i inside midpoint
    have term := zero i (mem_range.mpr inside)
    rw [if_pos midpoint] at term
    exact absurd term (Nat.mul_pos (by decide) (Nat.pow_pos (by decide))).ne'
  · intro none i member
    rw [if_neg (none i (mem_range.mp member))]

/-- No window of the number has six bits that together with the carry from below make 32. -/
def MidpointFree (n : ℕ) : Prop :=
  ∀ w < numWindows, ¬ (carryFree (w + 1) < n % 64 ^ (w + 1) ∧
    n % 64 ^ (w + 1) ≤ carryFree (w + 1) + 64 ^ w)

instance (n : ℕ) : Decidable (MidpointFree n) := by
  unfold MidpointFree
  infer_instance

theorem midpointExcess_eq_zero (n : ℕ) : midpointExcess n numWindows = 0 ↔ MidpointFree n := by
  rw [midpointExcess_eq_zero_iff]
  exact forall₂_congr fun w _ => (chunkAt_midpoint_iff n w).not

section Scalar

variable (bytes : Vector UInt8 32)

/-- The top window of a scalar has four bits: no carry leaves it and it is not a midpoint. -/
theorem carryInto_numWindows : carryInto (scalarInteger bytes) numWindows = 0 := by
  have bound := scalarInteger_lt bytes
  have large : 256 ^ 32 ≤ carryFree numWindows := by decide
  have small := Nat.mod_le (scalarInteger bytes) (64 ^ numWindows)
  exact if_neg (by omega)

theorem midpointExcess_scalar_lt :
    midpointExcess (scalarInteger bytes) numWindows < 64 ^ 42 := by
  have bound := scalarInteger_lt bytes
  have lower := midpointExcess_lt (scalarInteger bytes) 42
  have top : scalarInteger bytes / 64 ^ 42 < 16 := Nat.div_lt_of_lt_mul (by omega)
  have carry := carryInto_le (scalarInteger bytes) 42
  have chunk : chunkAt (scalarInteger bytes) 42 ≠ 32 := by
    unfold chunkAt
    omega
  have last := midpointExcess_succ (scalarInteger bytes) 42
  rw [if_neg chunk, add_zero] at last
  exact last.trans_lt lower

/-- The digits of a scalar add up to it and the excess of its midpoint windows. -/
theorem digitAt_sum_scalar :
    ∑ i ∈ range numWindows, digitAt (scalarInteger bytes) i * 64 ^ i =
      (scalarInteger bytes + midpointExcess (scalarInteger bytes) numWindows : ℕ) := by
  have sum := digitAt_sum (scalarInteger bytes) numWindows
  have bound : scalarInteger bytes < 64 ^ numWindows := (scalarInteger_lt bytes).trans (by decide)
  rw [carryInto_numWindows, Nat.mod_eq_of_lt bound, Nat.cast_zero, zero_mul, add_zero] at sum
  rw [sum, Nat.cast_add]

theorem recodedDigit_eq {w : ℕ} (window : w < numWindows) :
    (recodeSignedWindow6 bytes).1.getD w 0 = digitAt (scalarInteger bytes) w := by
  rw [recodeSignedWindow6_eq, List.getD_eq_getElem?_getD, List.getElem?_map, List.getElem?_range window,
    Option.map_some, Option.getD_some]

theorem recodedCarry_eq {w : ℕ} (window : w < numWindows + 1) (default : ℤ) :
    (recodeSignedWindow6 bytes).2.getD w default = carryInto (scalarInteger bytes) w := by
  rw [recodeSignedWindow6_eq, List.getD_eq_getElem?_getD, List.getElem?_map, List.getElem?_range window,
    Option.map_some, Option.getD_some]

theorem recodedValue_eq :
    ∑ i ∈ range numWindows, (recodeSignedWindow6 bytes).1.getD i 0 * 64 ^ i =
      (scalarInteger bytes + midpointExcess (scalarInteger bytes) numWindows : ℕ) := by
  rw [← digitAt_sum_scalar]
  apply sum_congr rfl
  intro i member
  rw [recodedDigit_eq bytes (mem_range.mp member)]

/-- Every digit fits the table, also at midpoints. -/
theorem recodedDigits_natAbs_lt : ∀ digit ∈ (recodeSignedWindow6 bytes).1, digit.natAbs < 32 := by
  rw [recodeSignedWindow6_eq]
  intro digit member
  obtain ⟨w, -, rfl⟩ := List.mem_map.mp member
  exact digitAt_natAbs_lt _ w

theorem finalCarry_eq_zero : (recodeSignedWindow6 bytes).2.getD numWindows 1 = 0 := by
  rw [recodedCarry_eq bytes (Nat.lt_succ_self _), carryInto_numWindows, Nat.cast_zero]

end Scalar

end Pvugc.Secp
