import Pvugc.Algebra.Fourier

namespace Pvugc.Algebra
open Finset

/-- The low bits of a word in reverse order. -/
def reverseBits : ℕ → ℕ → ℕ
  | 0, _ => 0
  | width + 1, k => (k % 2) * 2 ^ width + reverseBits width (k / 2)

@[simp] theorem reverseBits_zero (width : ℕ) : reverseBits width 0 = 0 := by
  induction width with
  | zero => rfl
  | succ width ih => simp [reverseBits, ih]

theorem reverseBits_lt (width k : ℕ) : reverseBits width k < 2 ^ width := by
  induction width generalizing k with
  | zero => simp [reverseBits]
  | succ width ih =>
      have tail := ih (k / 2)
      have bit : k % 2 ≤ 1 := by omega
      have head := Nat.mul_le_mul_right (2 ^ width) bit
      simp only [reverseBits, pow_succ]
      omega

/-- The top bit of a word becomes the low bit of its reversal. -/
theorem reverseBits_top (width k : ℕ) (bit : ℕ) (low : k < 2 ^ width) (isBit : bit ≤ 1) :
    reverseBits (width + 1) (bit * 2 ^ width + k) = 2 * reverseBits width k + bit := by
  induction width generalizing k with
  | zero =>
      have zero : k = 0 := by simpa using low
      subst zero
      simp only [reverseBits]
      omega
  | succ width ih =>
      have doubled : bit * 2 ^ (width + 1) = 2 * (bit * 2 ^ width) := by ring
      have parity : (bit * 2 ^ (width + 1) + k) % 2 = k % 2 := by omega
      have half : (bit * 2 ^ (width + 1) + k) / 2 = bit * 2 ^ width + k / 2 := by omega
      have tail := ih (k / 2) (by rw [pow_succ] at low; omega)
      rw [reverseBits, parity, half, tail,
        show reverseBits (width + 1) k = (k % 2) * 2 ^ width + reverseBits width (k / 2) from rfl,
        pow_succ]
      ring

/-- Reversing the bits of a word twice returns the word. -/
theorem reverseBits_reverseBits (width k : ℕ) (low : k < 2 ^ width) :
    reverseBits width (reverseBits width k) = k := by
  induction width generalizing k with
  | zero =>
      have zero : k = 0 := by simpa using low
      simp [zero, reverseBits]
  | succ width ih =>
      have half : k / 2 < 2 ^ width := by
        rw [pow_succ] at low
        omega
      rw [show reverseBits (width + 1) k = (k % 2) * 2 ^ width + reverseBits width (k / 2) from rfl,
        reverseBits_top width _ _ (reverseBits_lt width _) (by omega), ih _ half]
      omega

/-- A wide reversal shifted down is the reversal at the narrow width. -/
theorem reverseBits_shift (extra width k : ℕ) (low : k < 2 ^ width) :
    reverseBits (width + extra) k / 2 ^ extra = reverseBits width k := by
  induction width generalizing k with
  | zero =>
      have zero : k = 0 := by simpa using low
      simp [zero, reverseBits]
  | succ width ih =>
      have half : k / 2 < 2 ^ width := by
        rw [pow_succ] at low
        omega
      rw [show width + 1 + extra = width + extra + 1 by omega, reverseBits, reverseBits,
        ← ih _ half, pow_add, ← Nat.mul_assoc, Nat.add_comm, Nat.add_mul_div_right _ _ (by positivity),
        Nat.add_comm]

section Stages

variable {F G : Type*} [Field F] [AddCommGroup G] [Module F G]

/-- One level combines each half-block with the twiddled half-block that follows it. -/
def stage (w : F) (m : ℕ) (f : ℕ → G) (p : ℕ) : G :=
  if p % (2 * m) < m then
    f p + w ^ (p % (2 * m)) • f (p + m)
  else
    f (p - m) - w ^ (p % (2 * m) - m) • f p

/-- The values held after `l` of `L` levels: each block of `2 ^ l` entries transforms the
entries of the input whose reversed index names the block. -/
def blockValues (ω : F) (L l : ℕ) (f : ℕ → G) (p : ℕ) : G :=
  dft (ω ^ 2 ^ (L - l)) (2 ^ l)
    (fun i => f (i * 2 ^ (L - l) + reverseBits (L - l) (p / 2 ^ l))) (p % 2 ^ l)

theorem blockValues_start (ω : F) (L : ℕ) (f : ℕ → G) (p : ℕ) :
    blockValues ω L 0 f p = f (reverseBits L p) := by
  simp [blockValues]

theorem blockValues_final (ω : F) (L : ℕ) (f : ℕ → G) {p : ℕ} (inside : p < 2 ^ L) :
    blockValues ω L L f p = dft ω (2 ^ L) f p := by
  simp [blockValues, reverseBits, Nat.mod_eq_of_lt inside]

theorem pow_half_eq_neg_one {ω : F} {h : ℕ} (primitive : IsPrimitiveRoot ω (2 * h))
    (positive : 0 < h) : ω ^ h = -1 := by
  have square : (ω ^ h) ^ 2 = 1 := by
    rw [← pow_mul, Nat.mul_comm, primitive.pow_eq_one]
  have different : ω ^ h ≠ 1 := primitive.pow_ne_one_of_pos_of_lt positive.ne' (by omega)
  exact (sq_eq_one_iff.mp square).resolve_left different

/-- A butterfly level takes the values after `l` levels to the values after `l + 1` levels. -/
theorem stage_blockValues {ω : F} {L l : ℕ} (primitive : IsPrimitiveRoot ω (2 ^ L))
    (level : l < L) (f : ℕ → G) (p : ℕ) :
    stage (ω ^ 2 ^ (L - (l + 1))) (2 ^ l) (blockValues ω L l f) p =
      blockValues ω L (l + 1) f p := by
  obtain ⟨d, rfl⟩ : ∃ d, L = l + 1 + d := ⟨L - (l + 1), by omega⟩
  have depth : l + 1 + d - l = d + 1 := by omega
  have depth' : l + 1 + d - (l + 1) = d := by omega
  have positive : 0 < 2 ^ l := by positivity
  set w := ω ^ 2 ^ d with hw
  have twiddle : IsPrimitiveRoot w (2 * 2 ^ l) := by
    refine primitive.pow (by positivity) ?_
    rw [show l + 1 + d = d + (l + 1) by omega, pow_add, pow_succ]
    ring
  have square : ω ^ 2 ^ (d + 1) = w ^ 2 := by
    rw [hw, ← pow_mul, ← pow_succ]
  -- The two halves of block `q` hold the transforms of its even and odd entries.
  set q := p / (2 * 2 ^ l) with hq
  set t := p % (2 * 2 ^ l) with ht
  have decomposed : p = q * (2 * 2 ^ l) + t := by
    rw [hq, ht, Nat.mul_comm]
    exact (Nat.div_add_mod p _).symm
  have tLess : t < 2 * 2 ^ l := Nat.mod_lt _ (by positivity)
  set entry : ℕ → G := fun i => f (i * 2 ^ d + reverseBits d q) with hentry
  have lower (s : ℕ) (inside : s < 2 ^ l) :
      blockValues ω (l + 1 + d) l f (q * (2 * 2 ^ l) + s) =
        dft (w ^ 2) (2 ^ l) (fun i => entry (2 * i)) s := by
    have block : (q * (2 * 2 ^ l) + s) / 2 ^ l = 2 * q := by
      rw [show q * (2 * 2 ^ l) + s = s + 2 * q * 2 ^ l by ring, Nat.add_mul_div_right _ _ positive,
        Nat.div_eq_of_lt inside, Nat.zero_add]
    have offset : (q * (2 * 2 ^ l) + s) % 2 ^ l = s := by
      rw [show q * (2 * 2 ^ l) + s = s + 2 * q * 2 ^ l by ring, Nat.add_mul_mod_self_right,
        Nat.mod_eq_of_lt inside]
    rw [blockValues, depth, square, block, offset]
    apply dft_congr
    intro i _
    rw [hentry, reverseBits]
    dsimp only
    congr 1
    rw [show 2 * q % 2 = 0 by omega, show 2 * q / 2 = q by omega, pow_succ]
    ring
  have upper (s : ℕ) (inside : s < 2 ^ l) :
      blockValues ω (l + 1 + d) l f (q * (2 * 2 ^ l) + (2 ^ l + s)) =
        dft (w ^ 2) (2 ^ l) (fun i => entry (2 * i + 1)) s := by
    have block : (q * (2 * 2 ^ l) + (2 ^ l + s)) / 2 ^ l = 2 * q + 1 := by
      rw [show q * (2 * 2 ^ l) + (2 ^ l + s) = s + (2 * q + 1) * 2 ^ l by ring,
        Nat.add_mul_div_right _ _ positive, Nat.div_eq_of_lt inside, Nat.zero_add]
    have offset : (q * (2 * 2 ^ l) + (2 ^ l + s)) % 2 ^ l = s := by
      rw [show q * (2 * 2 ^ l) + (2 ^ l + s) = s + (2 * q + 1) * 2 ^ l by ring,
        Nat.add_mul_mod_self_right, Nat.mod_eq_of_lt inside]
    rw [blockValues, depth, square, block, offset]
    apply dft_congr
    intro i _
    rw [hentry, reverseBits]
    dsimp only
    congr 1
    rw [show (2 * q + 1) % 2 = 1 by omega, show (2 * q + 1) / 2 = q by omega, pow_succ]
    ring
  have target : blockValues ω (l + 1 + d) (l + 1) f p = dft w (2 * 2 ^ l) entry t := by
    rw [blockValues, depth', pow_succ 2 l, Nat.mul_comm (2 ^ l) 2]
  rw [target, depth', dft_double, stage, ← ht]
  split
  case isTrue first =>
    rw [decomposed, lower t first, show q * (2 * 2 ^ l) + t + 2 ^ l =
      q * (2 * 2 ^ l) + (2 ^ l + t) by ring, upper t first]
  case isFalse second =>
    obtain ⟨s, hs⟩ : ∃ s, t = 2 ^ l + s := ⟨t - 2 ^ l, by omega⟩
    have sLess : s < 2 ^ l := by omega
    have closed : (w ^ 2) ^ 2 ^ l = 1 := by
      rw [← pow_mul, twiddle.pow_eq_one]
    have sign : w ^ t = -w ^ s := by
      rw [hs, pow_add, pow_half_eq_neg_one twiddle positive, neg_one_mul]
    have first : p - 2 ^ l = q * (2 * 2 ^ l) + s := by omega
    rw [first, lower s sLess, show t - 2 ^ l = s by omega, sign, neg_smul, ← sub_eq_add_neg]
    congr 1
    · rw [hs, Nat.add_comm, dft_add_size closed]
    · rw [decomposed, hs, upper s sLess, Nat.add_comm (2 ^ l) s, dft_add_size closed]

/-- The levels from bit-reversed input to the full transform. -/
def stages (ω : F) (L : ℕ) (f : ℕ → G) : ℕ → ℕ → G
  | 0 => f
  | l + 1 => stage (ω ^ 2 ^ (L - (l + 1))) (2 ^ l) (stages ω L f l)

/-- All levels on bit-reversed input compute the transform. -/
theorem stages_reverseBits {ω : F} {L l : ℕ} (primitive : IsPrimitiveRoot ω (2 ^ L))
    (level : l ≤ L) (f : ℕ → G) :
    stages ω L (fun p => f (reverseBits L p)) l = blockValues ω L l f := by
  induction l with
  | zero =>
      funext p
      rw [stages, blockValues_start]
  | succ l ih =>
      funext p
      rw [stages, ih (by omega), stage_blockValues primitive (by omega)]

end Stages

end Pvugc.Algebra
