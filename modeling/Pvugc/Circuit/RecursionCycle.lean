import Pvugc.Algebra.Bits
import Mathlib.Data.Nat.Size
import Mathlib.Data.ZMod.Basic

namespace Pvugc.Circuit
open Pvugc.Algebra

/-- This is `RecursionCycle`: the name and the scalar fields of the inner and outer curve. The inner
order is below the outer one and does not divide it. -/
structure RecursionCycle where
  name : String
  innerModulus : ℕ
  outerModulus : ℕ
  positive : 0 < innerModulus
  lt : innerModulus < outerModulus
  notDvd : ¬ innerModulus ∣ outerModulus

/-- The default-security cycle: inner BLS12-377, outer BW6-761. -/
def bls12Bw6Cycle : RecursionCycle where
  name := "BLS12-377/BW6-761"
  innerModulus := 8444461749428370424248824938781546531375899335154063827935233455917409239041
  outerModulus := 258664426012969094010652733694893533536393512754914660539884262666720468348340822774968888139573360124440321458177
  positive := by decide
  lt := by decide
  notDvd := by decide

/-- The low-security cycle: inner MNT4-298, outer MNT6-298. -/
def mnt4Mnt6Cycle : RecursionCycle where
  name := "MNT4-298/MNT6-298"
  innerModulus := 475922286169261325753349249653048451545124878552823515553267735739164647307408490559963137
  outerModulus := 475922286169261325753349249653048451545124879242694725395555128576210262817955800483758081
  positive := by decide
  lt := by decide
  notDvd := by decide

namespace RecursionCycle

variable (C : RecursionCycle)

abbrev InnerScalar := ZMod C.innerModulus

abbrev OuterScalar := ZMod C.outerModulus

instance : NeZero C.innerModulus := ⟨C.positive.ne'⟩

instance : Fact (1 < C.outerModulus) := ⟨lt_of_le_of_lt C.positive C.lt⟩

instance : NeZero C.outerModulus := ⟨by have := C.lt; omega⟩

/-- This is `MODULUS_BIT_SIZE` of the inner scalar field, read by `inner_modulus_bits`. -/
def innerModulusBits : ℕ := C.innerModulus.size

/-- The number of 64-bit limbs of an inner scalar. -/
def innerLimbs : ℕ := (C.innerModulusBits + 63) / 64

/-- This is `to_bytes_le` of the integer of an inner scalar. -/
def toBytesLe (x : C.InnerScalar) : List ℕ :=
  (List.range (8 * C.innerLimbs)).map fun i => x.val / 256 ^ i % 256

/-- This is `to_bits_le` of the integer of an inner scalar. -/
def toBitsLe (x : C.InnerScalar) : List Bool := (List.range (64 * C.innerLimbs)).map x.val.testBit

/-- This is `from_le_bytes_mod_order` of the outer scalar field. -/
def fromLeBytesModOrder (bytes : List ℕ) : C.OuterScalar := (Nat.ofDigits 256 bytes : ℕ)

/-- This is `convert_inner_to_outer`, and `fr_inner_to_outer_for` has the same body. -/
def convertInnerToOuter (x : C.InnerScalar) : C.OuterScalar := C.fromLeBytesModOrder (C.toBytesLe x)

/-- This is `normalized_inner_bits_le`. -/
def normalizedInnerBitsLe (x : C.InnerScalar) : List Bool :=
  let bits := (C.toBitsLe x).take C.innerModulusBits
  bits ++ List.replicate (C.innerModulusBits - bits.length) false

theorem val_lt_two_pow (x : C.InnerScalar) : x.val < 2 ^ C.innerModulusBits :=
  (ZMod.val_lt x).trans (Nat.lt_size_self _)

theorem modulusBits_le : C.innerModulusBits ≤ 64 * C.innerLimbs := by
  unfold innerLimbs
  omega

/-- The conversion embeds the integer of the inner scalar. -/
theorem convertInnerToOuter_eq (x : C.InnerScalar) :
    C.convertInnerToOuter x = (x.val : C.OuterScalar) := by
  have wide : x.val < 256 ^ (8 * C.innerLimbs) := by
    rw [show 256 = 2 ^ 8 from rfl, ← pow_mul, ← mul_assoc]
    exact (C.val_lt_two_pow x).trans_le (Nat.pow_le_pow_right Nat.two_pos C.modulusBits_le)
  rw [convertInnerToOuter, fromLeBytesModOrder, toBytesLe, ofDigits_lowDigits, Nat.mod_eq_of_lt wide]

theorem normalizedInnerBitsLe_eq (x : C.InnerScalar) :
    C.normalizedInnerBitsLe x = (List.range C.innerModulusBits).map x.val.testBit := by
  have enough := C.modulusBits_le
  rw [normalizedInnerBitsLe, toBitsLe, ← List.map_take, List.take_range, min_eq_left enough,
    List.length_map, List.length_range, Nat.sub_self, List.replicate_zero, List.append_nil]

/-- The normalized bits are a decomposition of the scalar. -/
theorem normalizedInnerBitsLe_value (x : C.InnerScalar) :
    bitsValue (C.normalizedInnerBitsLe x) = x.val := by
  rw [normalizedInnerBitsLe_eq, bitsValue_testBit, Nat.mod_eq_of_lt (C.val_lt_two_pow x)]

end RecursionCycle

end Pvugc.Circuit
