import Pvugc.Adaptor.Absorption

namespace Pvugc.Adaptor
open Pvugc.Algebra Pvugc.Encoding Pvugc.OneSided

section Code

variable {F : Type} [Field F] (sponge : PoseidonSponge F)

/-- The comparison of the digests takes constant time in the code. -/
def verifyKeyCommitment (kBytes adCore ciphertext : List UInt8) (tauI : Digest) : Bool :=
  decide (computeKeyCommitmentTag sponge kBytes adCore ciphertext = tauI)

end Code

section Absorbed

variable (sponge : PoseidonSponge Fr)

/-- The digest of the associated data is squeezed behind the sequence that its code absorbs. -/
theorem adCoreDigest_eq (adCore : List UInt8) : adCoreDigest sponge adCore =
    bytes32FromSponge sponge ((adCoreState (recorder Fr) adCore).foldl sponge.absorb sponge.new) := by
  rw [adCoreDigest, adCoreState, adCoreState, absorbAll_eq_foldl]

theorem computeKeyCommitmentTag_eq (kBytes adCore ciphertext : List UInt8) :
    computeKeyCommitmentTag sponge kBytes adCore ciphertext = bytes32FromSponge sponge
      ((keyCommitmentState (recorder Fr) kBytes (adCoreDigest sponge adCore) ciphertext).foldl
        sponge.absorb sponge.new) := by
  rw [computeKeyCommitmentTag, keyCommitmentTag, keyCommitmentState, keyCommitmentState, absorbAll_eq_foldl]

/-- The sequence absorbed for a digest determines the associated data. -/
theorem adCoreState_inj {adCore adCore' : List UInt8}
    (same : adCoreState (recorder Fr) adCore = adCoreState (recorder Fr) adCore') : adCore = adCore' := by
  apply absorbed_length_inj
  rw [adCoreState, adCoreState, absorbAll_recorder, absorbAll_recorder] at same
  simpa only [absorbed, List.flatMap_cons, List.append_cancel_left_eq] using same

/-- The sequence absorbed for a tag determines the digest of the associated data, and the ciphertext up to its
zero padding. -/
theorem keyCommitmentState_eq_iff (kBytes : List UInt8) (adDigest adDigest' : Digest)
    (ciphertext ciphertext' : List UInt8) :
    keyCommitmentState (recorder Fr) kBytes adDigest ciphertext =
      keyCommitmentState (recorder Fr) kBytes adDigest' ciphertext' ↔
      adDigest = adDigest' ∧ zeroPadded 8 ciphertext = zeroPadded 8 ciphertext' := by
  rw [keyCommitmentState, keyCommitmentState, absorbAll_recorder, absorbAll_recorder]
  simp only [absorbed, List.flatMap_cons, List.flatMap_nil, List.append_nil, List.append_cancel_left_eq]
  constructor
  · intro same
    have lengths : adDigest.toList.length = adDigest'.toList.length := by
      rw [Vector.length_toList, Vector.length_toList]
    have counts : (absorbedFr adDigest.toList : List Fr).length =
        (absorbedFr adDigest'.toList : List Fr).length := by
      rw [absorbedFr_length, absorbedFr_length, wordCount, wordCount, lengths]
    obtain ⟨digests, ciphertexts⟩ := List.append_inj same counts
    exact ⟨Vector.toList_inj.mp (absorbedFr_inj lengths digests),
      (packWords_eq_iff (by decide)).mp (packWords_of_absorbedFr ciphertexts)⟩
  · intro agree
    rw [agree.1, absorbedFr_eq ciphertext, absorbedFr_eq ciphertext',
      (packWords_eq_iff (by decide)).mpr agree.2]

end Absorbed

/-- A tag binds two pairs exactly when their ciphertexts do not agree up to zero padding under one associated
data. -/
theorem keyCommitment_binds_iff (kBytes adCore adCore' ciphertext ciphertext' : List UInt8) :
    (∀ sponge : PoseidonSponge Fr,
      Separates sponge (adCoreState (recorder Fr) adCore) (adCoreState (recorder Fr) adCore') →
      (keyCommitmentState (recorder Fr) kBytes (adCoreDigest sponge adCore) ciphertext =
          keyCommitmentState (recorder Fr) kBytes (adCoreDigest sponge adCore') ciphertext' →
        adCore = adCore' ∧ ciphertext = ciphertext') ∧
      (Separates sponge (keyCommitmentState (recorder Fr) kBytes (adCoreDigest sponge adCore) ciphertext)
          (keyCommitmentState (recorder Fr) kBytes (adCoreDigest sponge adCore') ciphertext') →
        ∀ tauI, verifyKeyCommitment sponge kBytes adCore ciphertext tauI = true →
          verifyKeyCommitment sponge kBytes adCore' ciphertext' tauI = true →
          adCore = adCore' ∧ ciphertext = ciphertext')) ↔
    ¬(adCore = adCore' ∧ ciphertext ≠ ciphertext' ∧ zeroPadded 8 ciphertext = zeroPadded 8 ciphertext') := by
  constructor
  · rintro binds ⟨rfl, different, padded⟩
    have same := (keyCommitmentState_eq_iff kBytes (adCoreDigest (recorder Fr) adCore) _ _ _).mpr ⟨rfl, padded⟩
    exact different ((binds (recorder Fr) fun _ => rfl).1 same).2
  · intro apart sponge adCores
    have bound (same : keyCommitmentState (recorder Fr) kBytes (adCoreDigest sponge adCore) ciphertext =
        keyCommitmentState (recorder Fr) kBytes (adCoreDigest sponge adCore') ciphertext') :
        adCore = adCore' ∧ ciphertext = ciphertext' := by
      obtain ⟨digests, padded⟩ := (keyCommitmentState_eq_iff _ _ _ _ _).mp same
      rw [adCoreDigest_eq, adCoreDigest_eq] at digests
      have data := adCoreState_inj (adCores digests)
      exact ⟨data, by_contra fun different => apart ⟨data, different, padded⟩⟩
    refine ⟨bound, ?_⟩
    intro tags tauI verified verified'
    have equal : computeKeyCommitmentTag sponge kBytes adCore ciphertext =
        computeKeyCommitmentTag sponge kBytes adCore' ciphertext' :=
      (of_decide_eq_true verified).trans (of_decide_eq_true verified').symm
    rw [computeKeyCommitmentTag_eq, computeKeyCommitmentTag_eq] at equal
    exact bound (tags equal)

/-- One tag verifies for a ciphertext and for the ciphertext with a zero byte more, whatever the sponge. -/
theorem verifyKeyCommitment_extended : ([1] : List UInt8) ≠ [1, 0] ∧ ∀ sponge : PoseidonSponge Fr,
    keyCommitmentState (recorder Fr) [] (adCoreDigest sponge []) [1] =
      keyCommitmentState (recorder Fr) [] (adCoreDigest sponge []) [1, 0] ∧
    verifyKeyCommitment sponge [] [] [1] (computeKeyCommitmentTag sponge [] [] [1]) = true ∧
    verifyKeyCommitment sponge [] [] [1, 0] (computeKeyCommitmentTag sponge [] [] [1]) = true := by
  refine ⟨by decide, ?_⟩
  intro sponge
  have same := (keyCommitmentState_eq_iff [] (adCoreDigest sponge []) _ [1] [1, 0]).mpr ⟨rfl, by decide⟩
  refine ⟨same, decide_eq_true rfl, decide_eq_true ?_⟩
  rw [computeKeyCommitmentTag_eq, computeKeyCommitmentTag_eq, same]

end Pvugc.Adaptor
