import Pvugc.Algebra.Bits

namespace Pvugc.Algebra

/-- The little-endian bytes of an integer. -/
def toLeBytes (width n : ℕ) : List UInt8 := (List.range width).map fun i => UInt8.ofNat (n / 256 ^ i)

/-- The big-endian bytes of an integer. -/
def toBeBytes (width n : ℕ) : List UInt8 := (toLeBytes width n).reverse

/-- The integer of little-endian bytes. -/
def leValue (bytes : List UInt8) : ℕ := Nat.ofDigits 256 (bytes.map UInt8.toNat)

/-- The integer of big-endian bytes. -/
def beValue (bytes : List UInt8) : ℕ := leValue bytes.reverse

/-- A statement about bytes is a statement about 256 numbers. -/
theorem byte_induction {P : UInt8 → Prop} (all : ∀ n : Fin 256, P (UInt8.ofNat n)) (byte : UInt8) : P byte := by
  have numbered := all ⟨byte.toNat, byte.toNat_lt⟩
  rwa [UInt8.ofNat_toNat] at numbered

@[simp] theorem toLeBytes_length (width n : ℕ) : (toLeBytes width n).length = width := by simp [toLeBytes]

@[simp] theorem toBeBytes_length (width n : ℕ) : (toBeBytes width n).length = width := by simp [toBeBytes]

theorem digits_lt (bytes : List UInt8) : ∀ digit ∈ bytes.map UInt8.toNat, digit < 256 := by
  intro digit member
  obtain ⟨byte, -, rfl⟩ := List.mem_map.mp member
  exact byte.toNat_lt

theorem leValue_lt (bytes : List UInt8) : leValue bytes < 256 ^ bytes.length := by
  have bound := Nat.ofDigits_lt_base_pow_length (by decide) (digits_lt bytes)
  rwa [List.length_map] at bound

theorem beValue_lt (bytes : List UInt8) : beValue bytes < 256 ^ bytes.length := by
  simpa [beValue] using leValue_lt bytes.reverse

theorem leValue_append (low high : List UInt8) :
    leValue (low ++ high) = leValue low + 256 ^ low.length * leValue high := by
  rw [leValue, List.map_append, Nat.ofDigits_append, List.length_map]
  rfl

@[simp] theorem leValue_zeros (n : ℕ) : leValue (List.replicate n 0) = 0 := by
  simp [leValue, Nat.ofDigits_replicate_zero]

/-- Bytes of one length are determined by their integer. -/
theorem leValue_inj {bytes bytes' : List UInt8} (length : bytes.length = bytes'.length)
    (same : leValue bytes = leValue bytes') : bytes = bytes' := by
  have digits := Nat.ofDigits_inj_of_len_eq (by decide) (by simpa using length) (digits_lt bytes)
    (digits_lt bytes') same
  exact (List.map_injective_iff.mpr fun _ _ => UInt8.toNat_inj.mp) digits

/-- The written bytes keep the low part of an integer. -/
theorem leValue_toLeBytes_mod (width n : ℕ) : leValue (toLeBytes width n) = n % 256 ^ width := by
  rw [leValue, toLeBytes, List.map_map, ← ofDigits_lowDigits]
  rfl

theorem leValue_toLeBytes {width n : ℕ} (fits : n < 256 ^ width) : leValue (toLeBytes width n) = n := by
  rw [leValue_toLeBytes_mod, Nat.mod_eq_of_lt fits]

theorem toLeBytes_leValue (bytes : List UInt8) : toLeBytes bytes.length (leValue bytes) = bytes :=
  leValue_inj (toLeBytes_length _ _) (leValue_toLeBytes (leValue_lt bytes))

theorem toBeBytes_succ (width n : ℕ) :
    toBeBytes (width + 1) n = UInt8.ofNat (n / 256 ^ width) :: toBeBytes width n := by
  simp [toBeBytes, toLeBytes, List.range_succ]

theorem beValue_toBeBytes {width n : ℕ} (fits : n < 256 ^ width) : beValue (toBeBytes width n) = n := by
  rw [beValue, toBeBytes, List.reverse_reverse, leValue_toLeBytes fits]

theorem toBeBytes_beValue (bytes : List UInt8) : toBeBytes bytes.length (beValue bytes) = bytes := by
  have whole := toLeBytes_leValue bytes.reverse
  rw [List.length_reverse] at whole
  rw [toBeBytes, beValue, whole, List.reverse_reverse]

end Pvugc.Algebra
