import Pvugc.Adaptor.Poseidon
import Pvugc.Algebra.Bytes
import Pvugc.OneSided.Context

namespace Pvugc.Adaptor
open Pvugc.Algebra Pvugc.OneSided

def adCoreHashDomain : List UInt8 := asBytes "PVUGC/AD_CORE"

def demKeystreamDomain : List UInt8 := asBytes "PVUGC/DEM/keystream"

def demTagDomain : List UInt8 := asBytes "PVUGC/DEM/tag"

section Ciphertext

variable {F : Type} [Field F] (sponge : PoseidonSponge F)

/-- The state after the byte strings are absorbed one after the other. -/
def absorbAll (parts : List (List UInt8)) : sponge.State := parts.foldl (absorbBytesNativeFr sponge) sponge.new

/-- This is `bytes32_from_sponge`; the number of squeezed bytes is right. -/
def bytes32FromSponge (state : sponge.State) : Digest :=
  ⟨(sponge.squeezeBytes state 32).toArray, by simp [sponge.squeezeBytes_length]⟩

/-- The state from which `ad_core_digest` squeezes. -/
def adCoreState (adCore : List UInt8) : sponge.State :=
  absorbAll sponge [adCoreHashDomain, toLeBytes 8 adCore.length, adCore]

def adCoreDigest (adCore : List UInt8) : Digest := bytes32FromSponge sponge (adCoreState sponge adCore)

/-- The cipher with its key and the digest of the associated data. -/
structure DemP2 where
  key : List UInt8
  adDigest : Digest

def DemP2.new (kBytes adCore : List UInt8) : DemP2 := ⟨kBytes, adCoreDigest sponge adCore⟩

/-- The loop of `derive_keystream` panics when its counter overflows. -/
def DemP2.keystreamLoop (dem : DemP2) (len : ℕ) (keystream : List UInt8) (counter : ℕ) : Option (List UInt8) :=
  if short : keystream.length < len then
    let state := absorbAll sponge [demKeystreamDomain, dem.key, dem.adDigest.toList, toLeBytes 4 counter]
    let block := sponge.squeezeBytes state (len - keystream.length)
    if counter + 1 < 2 ^ 32 then dem.keystreamLoop len (keystream ++ block) (counter + 1) else none
  else some keystream
termination_by len - keystream.length
decreasing_by
  rw [List.length_append, sponge.squeezeBytes_length]
  omega

def DemP2.deriveKeystream (dem : DemP2) (len : ℕ) : Option (List UInt8) := dem.keystreamLoop sponge len [] 0

def DemP2.encrypt (dem : DemP2) (plaintext : List UInt8) : Option (List UInt8) := do
  let keystream ← dem.deriveKeystream sponge plaintext.length
  return plaintext.zipWith (fun p k => p ^^^ k) keystream

def DemP2.decrypt (dem : DemP2) (ciphertext : List UInt8) : Option (List UInt8) := dem.encrypt sponge ciphertext

/-- The state from which the tag is squeezed. -/
def keyCommitmentState (kBytes : List UInt8) (adDigest : Digest) (ciphertext : List UInt8) : sponge.State :=
  absorbAll sponge [demTagDomain, kBytes, adDigest.toList, ciphertext]

/-- The tag under the digest of the associated data. -/
def keyCommitmentTag (kBytes : List UInt8) (adDigest : Digest) (ciphertext : List UInt8) : Digest :=
  bytes32FromSponge sponge (keyCommitmentState sponge kBytes adDigest ciphertext)

def computeKeyCommitmentTag (kBytes adCore ciphertext : List UInt8) : Digest :=
  keyCommitmentTag sponge kBytes (adCoreDigest sponge adCore) ciphertext

theorem DemP2.keystreamLoop_full (dem : DemP2) {len : ℕ} {keystream : List UInt8}
    (full : len ≤ keystream.length) (counter : ℕ) :
    dem.keystreamLoop sponge len keystream counter = some keystream := by
  rw [keystreamLoop, dif_neg (not_lt.mpr full)]

/-- One squeeze gives the whole keystream. -/
theorem DemP2.deriveKeystream_eq (dem : DemP2) (len : ℕ) :
    dem.deriveKeystream sponge len = some (sponge.squeezeBytes
      (absorbAll sponge [demKeystreamDomain, dem.key, dem.adDigest.toList, toLeBytes 4 0]) len) := by
  rw [deriveKeystream]
  rcases Nat.eq_zero_or_pos len with rfl | positive
  · rw [keystreamLoop_full sponge dem (Nat.zero_le _), List.length_eq_zero_iff.mp (sponge.squeezeBytes_length _ 0)]
  · have short : ([] : List UInt8).length < len := positive
    rw [keystreamLoop, dif_pos short]
    dsimp only
    rw [if_pos (by decide), keystreamLoop_full sponge dem (by simp [sponge.squeezeBytes_length])]
    rfl

end Ciphertext

end Pvugc.Adaptor
