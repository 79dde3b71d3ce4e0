import Mathlib.Data.Nat.Digits.Lemmas
import Mathlib.Tactic.Ring
import Mathlib.Tactic.Linarith
import Pvugc.Algebra.Numerals

namespace Pvugc.Algebra

/-- The natural number of a little-endian list of bits. -/
def bitsValue (bits : List Bool) : ℕ := Nat.ofDigits 2 (bits.map Bool.toNat)

@[simp] theorem bitsValue_nil : bitsValue [] = 0 := rfl

@[simp] theorem bitsValue_cons (bit : Bool) (bits : List Bool) :
    bitsValue (bit :: bits) = bit.toNat + 2 * bitsValue bits := Nat.ofDigits_cons

theorem bitsValue_append (low high : List Bool) :
    bitsValue (low ++ high) = bitsValue low + 2 ^ low.length * bitsValue high := by
  rw [bitsValue, List.map_append, Nat.ofDigits_append, List.length_map]
  rfl

theorem bitsValue_lt (bits : List Bool) : bitsValue bits < 2 ^ bits.length := by
  induction bits with
  | nil => exact Nat.one_pos
  | cons bit bits inductionHypothesis =>
      have small := bit.toNat_lt
      rw [bitsValue_cons, List.length_cons, pow_succ]
      omega

/-- The low digits of a number give it back modulo the power of the base. -/
theorem ofDigits_lowDigits (base n width : ℕ) :
    Nat.ofDigits base ((List.range width).map fun i => n / base ^ i % base) = n % base ^ width := by
  induction width with
  | zero => simp [Nat.mod_one]
  | succ width inductionHypothesis =>
      rw [List.range_succ, List.map_append, Nat.ofDigits_append, inductionHypothesis,
        List.length_map, List.length_range, List.map_singleton, Nat.ofDigits_singleton,
        Nat.mod_pow_succ]

/-- The low bits of a number give it back modulo the power of two. -/
theorem bitsValue_testBit (n width : ℕ) :
    bitsValue ((List.range width).map n.testBit) = n % 2 ^ width := by
  rw [bitsValue, List.map_map, ← ofDigits_lowDigits]
  congr 2
  funext i
  exact Nat.toNat_testBit n i

/-- A window of the bits is a digit of their number. -/
theorem bitsValue_window (bits : List Bool) (start width : ℕ) :
    bitsValue ((bits.drop start).take width) = bitsValue bits / 2 ^ start % 2 ^ width := by
  have dropped : bitsValue bits / 2 ^ start = bitsValue (bits.drop start) := by
    rcases Nat.le_total start bits.length with inside | outside
    · have split := bitsValue_append (bits.take start) (bits.drop start)
      have small := bitsValue_lt (bits.take start)
      rw [List.take_append_drop] at split
      rw [List.length_take_of_le inside] at split small
      rw [split, Nat.add_mul_div_left _ _ (Nat.two_pow_pos start), Nat.div_eq_of_lt small, zero_add]
    · rw [List.drop_of_length_le outside]
      apply Nat.div_eq_of_lt
      exact (bitsValue_lt bits).trans_le (Nat.pow_le_pow_right Nat.two_pos outside)
  rw [dropped]
  generalize bits.drop start = rest
  rcases Nat.le_total width rest.length with inside | outside
  · have split := bitsValue_append (rest.take width) (rest.drop width)
    have small := bitsValue_lt (rest.take width)
    rw [List.take_append_drop] at split
    rw [List.length_take_of_le inside] at split small
    rw [split, Nat.add_mul_mod_self_left, Nat.mod_eq_of_lt small]
  · rw [List.take_of_length_le outside]
    exact (Nat.mod_eq_of_lt ((bitsValue_lt rest).trans_le
      (Nat.pow_le_pow_right Nat.two_pos outside))).symm

/-- The bits of the number are the bits of the list, and zero past its end. -/
theorem testBit_bitsValue (bits : List Bool) (i : ℕ) : (bitsValue bits).testBit i = bits.getD i false := by
  induction bits generalizing i with
  | nil => simp
  | cons bit bits inductionHypothesis =>
      rw [bitsValue_cons]
      cases i with
      | zero => cases bit <;> simp [Nat.testBit_zero, Nat.add_mod]
      | succ i =>
          have half : (bit.toNat + 2 * bitsValue bits) / 2 = bitsValue bits := by
            have small := bit.toNat_lt
            omega
          rw [Nat.testBit_succ, half, inductionHypothesis]
          rfl

/-- A window of the bits, padded with zeros past their end, is a digit of their number. -/
theorem bitsValue_getD (bits : List Bool) (start width : ℕ) :
    bitsValue ((List.range width).map fun i => bits.getD (start + i) false) =
      bitsValue bits / 2 ^ start % 2 ^ width := by
  rw [← bitsValue_testBit, ← Nat.shiftRight_eq_div_pow]
  congr 1
  apply List.map_congr_left
  intro i _
  rw [Nat.testBit_shiftRight, testBit_bitsValue]

/-- Adding the weights of the set bits one after the other adds the number of the bits. -/
theorem foldl_bits (bits : List Bool) (start width : ℕ) (initial : ℤ) :
    (List.range width).foldl
        (fun chunk bit => if start + bit < bits.length ∧ bits.getD (start + bit) false = true
          then chunk + 2 ^ bit else chunk) initial =
      initial + bitsValue ((bits.drop start).take width) := by
  induction width with
  | zero => simp
  | succ width inductionHypothesis =>
      rw [List.range_succ, List.foldl_append, inductionHypothesis, List.foldl_cons, List.foldl_nil,
        List.take_add_one, bitsValue_append, List.getElem?_drop]
      rcases Nat.lt_or_ge (start + width) bits.length with inside | outside
      · have full : ((bits.drop start).take width).length = width := by
          rw [List.length_take, List.length_drop]
          omega
        rw [List.getD_eq_getElem?_getD, List.getElem?_eq_getElem inside, full]
        cases bits[start + width] <;> simp [inside, add_assoc]
      · rw [List.getElem?_eq_none outside, if_neg (by omega)]
        simp

end Pvugc.Algebra
