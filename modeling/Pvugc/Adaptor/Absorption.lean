import Mathlib.Tactic.NormNum.Prime
import Pvugc.Adaptor.Ciphertext
import Pvugc.Algebra.Pratt
import Pvugc.Encoding.Packing

namespace Pvugc.Adaptor
open Pvugc.Algebra Pvugc.Encoding Pvugc.OneSided

/-- The order of the scalar field of BLS12-381. -/
abbrev frPrime : ℕ := 0x73EDA753299D7D483339D80809A1D80553BDA402FFFE5BFEFFFFFFFF00000001

theorem frPrime_prime : frPrime.Prime := by
  apply prime_of_certificate 255 7 (List.replicate 32 2 ++ [3, 11, 19, 10177, 125527, 859267, 906349, 906349,
    2508409, 2529403, 52437899, 254760293, 254760293])
  · norm_num
  · decide +kernel

instance : Fact frPrime.Prime := ⟨frPrime_prime⟩

/-- The type `Fr` of the sponge. -/
abbrev Fr := ZMod frPrime

section Absorbed

variable {F : Type} [Field F]

/-- The field elements that a byte string absorbs. -/
def absorbedFr (bytes : List UInt8) : List F :=
  if bytes.isEmpty then [0] else (chunks 8 bytes).map fun chunk => ((packChunk chunk).toNat : F)

theorem absorbBytesNativeFr_eq (sponge : PoseidonSponge F) (state : sponge.State) (bytes : List UInt8) :
    absorbBytesNativeFr sponge state bytes = (absorbedFr bytes).foldl sponge.absorb state := by
  rw [absorbBytesNativeFr, absorbedFr]
  split
  · rfl
  · rw [List.foldl_map]

/-- The field elements that byte strings absorb one after the other. -/
def absorbed (parts : List (List UInt8)) : List F := parts.flatMap absorbedFr

theorem absorbAll_eq (sponge : PoseidonSponge F) (parts : List (List UInt8)) :
    absorbAll sponge parts = (absorbed parts).foldl sponge.absorb sponge.new := by
  have loop (state : sponge.State) : parts.foldl (absorbBytesNativeFr sponge) state =
      (absorbed parts).foldl sponge.absorb state := by
    induction parts generalizing state with
    | nil => rfl
    | cons part parts inductionHypothesis =>
        rw [List.foldl_cons, inductionHypothesis, absorbBytesNativeFr_eq, absorbed, absorbed, List.flatMap_cons,
          List.foldl_append]
  exact loop sponge.new

/-- A sponge whose state is the sequence that it absorbed. -/
abbrev recorder (F : Type) : PoseidonSponge F where
  State := List F
  new := []
  absorb sequence element := sequence ++ [element]
  squeezeBytes _ count := List.replicate count 0
  squeezeBytes_length _ _ := List.length_replicate

theorem absorbAll_recorder (parts : List (List UInt8)) :
    absorbAll (recorder F) parts = absorbed parts := by
  have loop (elements sequence : List F) :
      elements.foldl (recorder F).absorb sequence = sequence ++ elements := by
    induction elements generalizing sequence with
    | nil => simp
    | cons element rest inductionHypothesis =>
        rw [List.foldl_cons, inductionHypothesis]
        exact List.append_assoc sequence [element] rest
  rw [absorbAll_eq, loop]
  rfl

/-- A sponge squeezes behind the sequence that the code absorbs. -/
theorem absorbAll_eq_foldl (sponge : PoseidonSponge F) (parts : List (List UInt8)) :
    absorbAll sponge parts = (absorbAll (recorder F) parts).foldl sponge.absorb sponge.new := by
  rw [absorbAll_recorder, absorbAll_eq]

/-- The sponge has no collision between the digests of two sequences. -/
def Separates (sponge : PoseidonSponge F) (elements elements' : List F) : Prop :=
  bytes32FromSponge sponge (elements.foldl sponge.absorb sponge.new) =
    bytes32FromSponge sponge (elements'.foldl sponge.absorb sponge.new) → elements = elements'

/-- The absorbed elements are the words of the byte string. -/
theorem absorbedFr_eq (bytes : List UInt8) :
    (absorbedFr bytes : List F) = (packWords 8 bytes).map (Nat.cast : ℕ → F) := by
  rw [absorbedFr]
  split
  case isTrue empty =>
    rw [List.isEmpty_iff.mp empty]
    simp [packWords, wordCount, leValue]
  case isFalse nonempty =>
    have count : wordCount 8 bytes = (bytes.length + 8 - 1) / 8 := by
      have some : bytes.length ≠ 0 := by simpa [List.isEmpty_iff] using nonempty
      rw [wordCount]
      omega
    rw [chunks, packWords, count, List.map_map, List.map_map]
    apply List.map_congr_left
    intro c _
    rw [Function.comp_apply, Function.comp_apply, packChunk_toNat (List.length_take_le _ _), leValue]

end Absorbed

/-- The absorbed scalars determine the words, which are below the order of the field. -/
theorem packWords_of_absorbedFr {bytes bytes' : List UInt8}
    (same : (absorbedFr bytes : List Fr) = absorbedFr bytes') : packWords 8 bytes = packWords 8 bytes' := by
  have recovered (bytes : List UInt8) : (absorbedFr bytes : List Fr).map ZMod.val = packWords 8 bytes := by
    rw [absorbedFr_eq, List.map_map]
    conv_rhs => rw [← List.map_id (packWords 8 bytes)]
    apply List.map_congr_left
    intro word member
    have large : 256 ^ 8 ≤ frPrime := by decide
    exact ZMod.val_cast_of_lt ((packWords_lt member).trans_le large)
  rw [← recovered bytes, same, recovered]

theorem absorbedFr_length (bytes : List UInt8) : (absorbedFr bytes : List Fr).length = wordCount 8 bytes := by
  rw [absorbedFr_eq, List.length_map, packWords, List.length_map, List.length_range]

/-- The scalars of byte strings of one length determine the strings. -/
theorem absorbedFr_inj {bytes bytes' : List UInt8} (length : bytes.length = bytes'.length)
    (same : (absorbedFr bytes : List Fr) = absorbedFr bytes') : bytes = bytes' :=
  packWords_inj (by decide) length (packWords_of_absorbedFr same)

/-- A byte string is absorbed after its length without loss. -/
theorem absorbed_length_inj {bytes bytes' : List UInt8}
    (same : (absorbed [toLeBytes 8 bytes.length, bytes] : List Fr) =
      absorbed [toLeBytes 8 bytes'.length, bytes']) : bytes = bytes' := by
  simp only [absorbed, List.flatMap_cons, List.flatMap_nil, List.append_nil] at same
  have counts : (absorbedFr (toLeBytes 8 bytes.length) : List Fr).length =
      (absorbedFr (toLeBytes 8 bytes'.length) : List Fr).length := by
    rw [absorbedFr_length, absorbedFr_length, wordCount, wordCount, toLeBytes_length, toLeBytes_length]
  obtain ⟨lengths, contents⟩ := List.append_inj same counts
  have headers := congrArg leValue
    (absorbedFr_inj ((toLeBytes_length 8 _).trans (toLeBytes_length 8 _).symm) lengths)
  rw [leValue_toLeBytes_mod, leValue_toLeBytes_mod] at headers
  have words := packWords_of_absorbedFr contents
  have upper := length_le_of_packWords (by decide) words
  have lower := length_le_of_packWords (by decide) words.symm
  exact packWords_inj (by decide) (by omega) words

end Pvugc.Adaptor
