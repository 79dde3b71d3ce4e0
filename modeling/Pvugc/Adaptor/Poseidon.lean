import Pvugc.Algebra.Bits
import Mathlib.Algebra.Field.Defs
import Mathlib.Data.UInt

namespace Pvugc.Adaptor

/-- The Poseidon sponge of the library under the parameters of the crate, on the values of its field. -/
structure PoseidonSponge (F : Type) where
  State : Type
  new : State
  absorb : State → F → State
  squeezeBytes : State → ℕ → List UInt8
  squeezeBytes_length : ∀ state count, (squeezeBytes state count).length = count

/-- The consecutive chunks of the given width; the last one may be shorter. -/
def chunks (width : ℕ) (bytes : List UInt8) : List (List UInt8) :=
  (List.range ((bytes.length + width - 1) / width)).map fun c => (bytes.drop (c * width)).take width

/-- The little-endian word of a chunk. -/
def packChunk (chunk : List UInt8) : UInt64 :=
  chunk.zipIdx.foldl (fun acc (byte, i) => acc ||| (byte.toUInt64 <<< (8 * UInt64.ofNat i))) 0

section Absorb

variable {F : Type} [Field F] (sponge : PoseidonSponge F)

def absorbBytesNativeFr (state : sponge.State) (bytes : List UInt8) : sponge.State :=
  if bytes.isEmpty then sponge.absorb state 0
  else (chunks 8 bytes).foldl (fun state chunk => sponge.absorb state ((packChunk chunk).toNat : F)) state

def bytesToFieldLe (bytes : List UInt8) : F :=
  if bytes.isEmpty then 0
  else (bytes.foldl (fun (acc, pow) byte => (acc + byte.toNat * pow, pow * 256)) ((0 : F), (1 : F))).1

/-- The absorption of the circuit; the gadget computes the sponge on the same elements. -/
def absorbBytesVarFr (state : sponge.State) (bytes : List UInt8) : sponge.State :=
  if bytes.isEmpty then sponge.absorb state 0
  else (chunks 8 bytes).foldl (fun state chunk => sponge.absorb state (bytesToFieldLe chunk)) state

theorem bytesToFieldLe_eq (bytes : List UInt8) :
    bytesToFieldLe (F := F) bytes = (Nat.ofDigits 256 (bytes.map UInt8.toNat) : ℕ) := by
  have loop (acc pow : F) : (bytes.foldl (fun (acc, pow) byte => (acc + byte.toNat * pow, pow * 256))
      (acc, pow)).1 = acc + pow * (Nat.ofDigits 256 (bytes.map UInt8.toNat) : ℕ) := by
    induction bytes generalizing acc pow with
    | nil => simp
    | cons byte bytes inductionHypothesis =>
        rw [List.foldl_cons, inductionHypothesis, List.map_cons, Nat.ofDigits_cons]
        push_cast
        ring
  rw [bytesToFieldLe]
  split
  case isTrue empty =>
    rw [List.isEmpty_iff.mp empty]
    simp
  case isFalse => rw [loop, zero_add, one_mul]

/-- A chunk fits the word. -/
theorem packChunk_toNat {chunk : List UInt8} (fits : chunk.length ≤ 8) :
    (packChunk chunk).toNat = Nat.ofDigits 256 (chunk.map UInt8.toNat) := by
  induction chunk using List.reverseRecOn with
  | nil => rfl
  | append_singleton chunk byte inductionHypothesis =>
      rw [List.length_append, List.length_singleton] at fits
      have low := inductionHypothesis (by omega)
      have small : Nat.ofDigits 256 (chunk.map UInt8.toNat) < 256 ^ chunk.length := by
        have bound := Nat.ofDigits_lt_base_pow_length (b := 256) (by decide) (l := chunk.map UInt8.toNat)
          fun digit member => by
            obtain ⟨byte, -, rfl⟩ := List.mem_map.mp member
            exact byte.toNat_lt
        rwa [List.length_map] at bound
      have shift : (8 * UInt64.ofNat chunk.length).toNat % 64 = 8 * chunk.length := by
        rw [UInt64.toNat_mul, UInt64.toNat_ofNat', show (8 : UInt64).toNat = 8 from rfl]
        omega
      have weight : 2 ^ (8 * chunk.length) = 256 ^ chunk.length := by rw [Nat.pow_mul]
      have high : (byte.toUInt64 <<< (8 * UInt64.ofNat chunk.length)).toNat =
          256 ^ chunk.length * byte.toNat := by
        have bound : 256 ^ chunk.length * byte.toNat < 2 ^ 64 := by
          have power : 256 ^ (chunk.length + 1) ≤ 256 ^ 8 := Nat.pow_le_pow_right (by decide) fits
          have strict : 256 ^ chunk.length * byte.toNat < 256 ^ chunk.length * 256 :=
            Nat.mul_lt_mul_of_pos_left byte.toNat_lt (Nat.pow_pos (by decide))
          rw [pow_succ] at power
          omega
        rw [UInt64.toNat_shiftLeft, shift, UInt8.toNat_toUInt64, Nat.shiftLeft_eq, weight, Nat.mul_comm,
          Nat.mod_eq_of_lt bound]
      have whole : packChunk (chunk ++ [byte]) =
          packChunk chunk ||| (byte.toUInt64 <<< (8 * UInt64.ofNat chunk.length)) := by
        rw [packChunk, List.zipIdx_append, List.foldl_append]
        simp [packChunk]
      rw [whole, UInt64.toNat_or, high, low, List.map_append, Nat.ofDigits_append, List.length_map,
        List.map_singleton, Nat.ofDigits_singleton, ← weight, Nat.or_comm,
        ← Nat.two_pow_add_eq_or_of_lt (by rwa [weight]), Nat.add_comm]

/-- The circuit absorbs the elements that the native code absorbs. -/
theorem absorbBytesVarFr_eq (state : sponge.State) (bytes : List UInt8) :
    absorbBytesVarFr sponge state bytes = absorbBytesNativeFr sponge state bytes := by
  rw [absorbBytesVarFr, absorbBytesNativeFr]
  congr 1
  apply List.foldl_ext
  intro state chunk member
  have fits : chunk.length ≤ 8 := by
    obtain ⟨c, -, rfl⟩ := List.mem_map.mp member
    exact List.length_take_le _ _
  rw [bytesToFieldLe_eq, packChunk_toNat fits]

end Absorb

end Pvugc.Adaptor
