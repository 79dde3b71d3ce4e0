import Mathlib.FieldTheory.Finite.Basic
import Mathlib.NumberTheory.LucasPrimality
import Mathlib.RingTheory.RootsOfUnity.PrimitiveRoots
import Mathlib.Data.List.Prime
import Pvugc.Algebra.Numerals

namespace Pvugc.Algebra

/-- The power of `base` modulo `m` for exponents of at most the given number of bits. -/
def powMod (m base : ℕ) : ℕ → ℕ → ℕ
  | 0, _ => 1 % m
  | bits + 1, n =>
      let square := powMod m base bits (n / 2) ^ 2 % m
      if n % 2 = 1 then square * base % m else square

theorem powMod_eq (m base : ℕ) {bits n : ℕ} (fits : n < 2 ^ bits) : powMod m base bits n = base ^ n % m := by
  induction bits generalizing n with
  | zero =>
      obtain rfl : n = 0 := by simpa using fits
      rfl
  | succ bits inductionHypothesis =>
      have half : n / 2 < 2 ^ bits := by
        rw [pow_succ] at fits
        omega
      have square : powMod m base bits (n / 2) ^ 2 % m = base ^ (2 * (n / 2)) % m := by
        rw [inductionHypothesis half, ← Nat.pow_mod, ← pow_mul, Nat.mul_comm]
      simp only [powMod, square]
      split
      case isTrue odd =>
        have exponent : n = 2 * (n / 2) + 1 := by omega
        rw [Nat.mod_mul_mod, ← pow_succ, ← exponent]
      case isFalse even =>
        have exponent : n = 2 * (n / 2) := by omega
        rw [← exponent]

/-- A power is one modulo `m` exactly when its computed residue is. -/
theorem powMod_eq_one_iff {m base bits n : ℕ} (large : 1 < m) (fits : n < 2 ^ bits) :
    (base : ZMod m) ^ n = 1 ↔ powMod m base bits n = 1 := by
  rw [powMod_eq m base fits, ← Nat.cast_pow, ← Nat.cast_one, ZMod.natCast_eq_natCast_iff',
    Nat.one_mod_eq_one.mpr large.ne']

/-- A number is prime when an element has the order of all units, by the prime factors of that order. -/
theorem prime_of_certificate {p : ℕ} (bits base : ℕ) (factors : List ℕ) (primes : ∀ q ∈ factors, q.Prime)
    (checked : 1 < p ∧ p < 2 ^ bits ∧ factors.prod = p - 1 ∧ powMod p base bits (p - 1) = 1 ∧
      ∀ q ∈ factors, powMod p base bits ((p - 1) / q) ≠ 1) : p.Prime := by
  obtain ⟨large, fits, product, order, exact⟩ := checked
  have power {n : ℕ} (below : n ≤ p - 1) : (base : ZMod p) ^ n = 1 ↔ powMod p base bits n = 1 :=
    powMod_eq_one_iff large (by omega)
  apply lucas_primality p (base : ZMod p) ((power le_rfl).mpr order)
  intro q prime divides
  rw [← product] at divides
  obtain ⟨factor, member, divides⟩ := (Prime.dvd_prod_iff prime.prime).mp divides
  obtain rfl := (Nat.prime_dvd_prime_iff_eq prime (primes factor member)).mp divides
  exact (power (Nat.div_le_self _ _)).not.mpr (exact q member)

/-- A residue whose powers by the prime parts of the order of the units are not one gives a primitive root of
every order that has only these primes. -/
theorem isPrimitiveRoot_pow_div {p n : ℕ} [Fact p.Prime] {g : ZMod p} (nonzero : g ≠ 0) (divides : n ∣ p - 1)
    (exact : ∀ q, q.Prime → q ∣ n → g ^ ((p - 1) / q) ≠ 1) : IsPrimitiveRoot (g ^ ((p - 1) / n)) n := by
  have units : 0 < p - 1 := Nat.sub_pos_of_lt (Fact.out : p.Prime).one_lt
  have positive : 0 < n := Nat.pos_of_dvd_of_pos divides units
  have order : orderOf (g ^ ((p - 1) / n)) = n := by
    apply orderOf_eq_of_pow_and_pow_div_prime positive
    · rw [← pow_mul, Nat.div_mul_cancel divides]
      exact ZMod.pow_card_sub_one_eq_one nonzero
    · intro q prime part
      have exponent : (p - 1) / n * (n / q) = (p - 1) / q := by
        rw [Nat.div_mul_div_comm divides part, Nat.mul_comm n q, Nat.mul_div_mul_right _ _ positive]
      rw [← pow_mul, exponent]
      exact exact q prime part
  have root := IsPrimitiveRoot.orderOf (g ^ ((p - 1) / n))
  rwa [order] at root

end Pvugc.Algebra
