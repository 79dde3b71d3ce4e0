import Pvugc.Adaptor.KeyCommitment
import Pvugc.Encoding.Framing
import Pvugc.OneSided.ContextBinding

namespace Pvugc.Adaptor
open Pvugc.Encoding Pvugc.Algebra Pvugc.OneSided

def demProfileId : List UInt8 := asBytes "PVUGC/DEM-Poseidon-v1"

/-- The components that a ciphertext is bound to. -/
@[ext]
structure AdCore where
  profile : List UInt8
  vkHash : Digest
  xHash : Digest
  ctxHash : Digest
  tapleafHash : Digest
  tapleafVersion : UInt8
  txidTemplate : List UInt8
  pathTag : List UInt8
  shareIndex : UInt32
  tI : List UInt8
  tAggregate : List UInt8
  armedBases : List UInt8
  armedDelta : List UInt8
  gsInstanceDigest : Digest

namespace AdCore

def new (vkHash xHash ctxHash tapleafHash : Digest) (tapleafVersion : UInt8) (txidTemplate : List UInt8)
    (pathTag : String) (shareIndex : UInt32) (tI tAggregate armedBases armedDelta : List UInt8)
    (gsInstanceDigest : Digest) : AdCore where
  profile := demProfileId
  vkHash := vkHash
  xHash := xHash
  ctxHash := ctxHash
  tapleafHash := tapleafHash
  tapleafVersion := tapleafVersion
  txidTemplate := txidTemplate
  pathTag := asBytes pathTag
  shareIndex := shareIndex
  tI := tI
  tAggregate := tAggregate
  armedBases := armedBases
  armedDelta := armedDelta
  gsInstanceDigest := gsInstanceDigest

/-- The lengths are written as `u32`. -/
def serialize (ad : AdCore) : List UInt8 :=
  ad.profile ++ ad.vkHash.toList ++ ad.xHash.toList ++ ad.ctxHash.toList ++ ad.tapleafHash.toList ++
  [ad.tapleafVersion] ++
  toLeBytes 4 ad.txidTemplate.length ++ ad.txidTemplate ++
  toLeBytes 4 ad.pathTag.length ++ ad.pathTag ++
  toLeBytes 4 ad.shareIndex.toNat ++
  toLeBytes 4 ad.tI.length ++ ad.tI ++
  toLeBytes 4 ad.tAggregate.length ++ ad.tAggregate ++
  toLeBytes 4 ad.armedBases.length ++ ad.armedBases ++
  toLeBytes 4 ad.armedDelta.length ++ ad.armedDelta ++
  ad.gsInstanceDigest.toList

/-- Every variable field is shorter than `2 ^ 32` bytes. -/
def Fits (ad : AdCore) : Prop :=
  ∀ field ∈ [ad.txidTemplate, ad.pathTag, ad.tI, ad.tAggregate, ad.armedBases, ad.armedDelta],
    field.length < 2 ^ 32

/-- The value is made by `AdCore::new`. -/
def Made (ad : AdCore) : Prop :=
  ad.profile = demProfileId ∧ ∃ pathTag : String, ad.pathTag = asBytes pathTag

theorem made_new (vkHash xHash ctxHash tapleafHash : Digest) (tapleafVersion : UInt8)
    (txidTemplate : List UInt8) (pathTag : String) (shareIndex : UInt32)
    (tI tAggregate armedBases armedDelta : List UInt8) (gsInstanceDigest : Digest) :
    (new vkHash xHash ctxHash tapleafHash tapleafVersion txidTemplate pathTag shareIndex tI tAggregate
      armedBases armedDelta gsInstanceDigest).Made :=
  ⟨rfl, pathTag, rfl⟩

/-- The code of the lengths. -/
abbrev lengthCode : LengthCode := .littleEndian 4

/-- The fields after the profile, with the labels of their errors. -/
def layouts : List FieldLayout :=
  [.fixed "vk_hash" 32, .fixed "x_hash" 32, .fixed "ctx_hash" 32, .fixed "tapleaf_hash" 32,
    .fixed "tapleaf_version" 1, .prefixed "txid_template", .prefixed "path_tag", .fixed "share_index" 4,
    .prefixed "t_i", .prefixed "t_aggregate", .prefixed "armed_bases", .prefixed "armed_delta",
    .fixed "gs_instance_digest" 32]

def fields (ad : AdCore) : List (List UInt8) :=
  [ad.vkHash.toList, ad.xHash.toList, ad.ctxHash.toList, ad.tapleafHash.toList, [ad.tapleafVersion],
    ad.txidTemplate, ad.pathTag, toLeBytes 4 ad.shareIndex.toNat, ad.tI, ad.tAggregate, ad.armedBases,
    ad.armedDelta, ad.gsInstanceDigest.toList]

/-- The serialization is the profile and the frame of the fields. -/
theorem serialize_eq (ad : AdCore) : ad.serialize = ad.profile ++ encodeFields lengthCode layouts ad.fields := by
  have code (n : ℕ) : lengthCode.encode n = toLeBytes 4 n := rfl
  unfold serialize
  simp only [fields, layouts, encodeFields, FieldLayout.encode, code, List.append_assoc, List.append_nil]

theorem shareIndex_inj {m n : UInt32} (same : toLeBytes 4 m.toNat = toLeBytes 4 n.toNat) : m = n := by
  have values := congrArg leValue same
  rw [leValue_toLeBytes m.toNat_lt, leValue_toLeBytes n.toNat_lt] at values
  exact UInt32.toNat_inj.mp values

theorem fields_inj {ad ad' : AdCore} (profile : ad.profile = ad'.profile) (same : ad.fields = ad'.fields) :
    ad = ad' := by
  simp only [fields, List.cons.injEq, Vector.toList_inj, and_true] at same
  obtain ⟨vkHash, xHash, ctxHash, tapleafHash, tapleafVersion, txidTemplate, pathTag, shareIndex, tI, tAggregate,
    armedBases, armedDelta, gsInstanceDigest⟩ := same
  exact AdCore.ext profile vkHash xHash ctxHash tapleafHash tapleafVersion txidTemplate pathTag
    (shareIndex_inj shareIndex) tI tAggregate armedBases armedDelta gsInstanceDigest

theorem fits_iff (ad : AdCore) : ad.Fits ↔ List.Forall₂ (FieldLayout.Fits lengthCode) layouts ad.fields := by
  simp [Fits, layouts, fields, FieldLayout.Fits, LengthCode.littleEndian]

/-- Serializations of fitting values determine the values. -/
theorem serialize_inj {ad ad' : AdCore} (profile : ad.profile = ad'.profile) (fits : ad.Fits) (fits' : ad'.Fits)
    (same : ad.serialize = ad'.serialize) : ad = ad' := by
  rw [serialize_eq, serialize_eq, profile, List.append_cancel_left_eq] at same
  have ended : encodeFields lengthCode layouts ad.fields ++ [] = encodeFields lengthCode layouts ad'.fields ++ [] := by
    rw [same]
  exact fields_inj profile (encodeFields_inj (ad.fits_iff.mp fits) (ad'.fits_iff.mp fits') ended).1

end AdCore

/-- The digest of the associated data binds every component. -/
theorem adCore_binds {ad ad' : AdCore} (made : ad.Made) (made' : ad'.Made) (fits : ad.Fits) (fits' : ad'.Fits) :
    (adCoreState (recorder Fr) ad.serialize = adCoreState (recorder Fr) ad'.serialize → ad = ad') ∧
    ∀ sponge : PoseidonSponge Fr,
      Separates sponge (adCoreState (recorder Fr) ad.serialize) (adCoreState (recorder Fr) ad'.serialize) →
      ad ≠ ad' →
      adCoreDigest sponge ad.serialize ≠ adCoreDigest sponge ad'.serialize ∧
      ∀ kBytes, (DemP2.new sponge kBytes ad.serialize).adDigest ≠
        (DemP2.new sponge kBytes ad'.serialize).adDigest := by
  have bound (same : adCoreState (recorder Fr) ad.serialize = adCoreState (recorder Fr) ad'.serialize) :
      ad = ad' :=
    AdCore.serialize_inj (made.1.trans made'.1.symm) fits fits' (adCoreState_inj same)
  refine ⟨bound, ?_⟩
  intro sponge separates different
  have digests : adCoreDigest sponge ad.serialize ≠ adCoreDigest sponge ad'.serialize := by
    intro same
    rw [adCoreDigest_eq, adCoreDigest_eq] at same
    exact different (bound (separates same))
  exact ⟨digests, fun _ => digests⟩

/-- A value with zero hashes and the given leaf version and path. -/
def pathAdCore (tapleafVersion : UInt8) (pathTag : String) : AdCore :=
  AdCore.new zeroDigest zeroDigest zeroDigest zeroDigest tapleafVersion [5] pathTag 0 [2] [2] [] [] zeroDigest

/-- A sponge that squeezes the low byte of its third element; for a digest this is the length of the data. -/
abbrev thirdElement : PoseidonSponge Fr where
  State := List Fr
  new := []
  absorb sequence element := sequence ++ [element]
  squeezeBytes sequence count := List.replicate count (UInt8.ofNat (sequence.getD 2 0).val)
  squeezeBytes_length _ _ := List.length_replicate

theorem adCore_binds_path :
    adCoreState (recorder Fr) (pathAdCore 0xc0 "compute").serialize ≠
      adCoreState (recorder Fr) (pathAdCore 0xc0 "abort").serialize ∧
    adCoreDigest thirdElement (pathAdCore 0xc0 "compute").serialize ≠
      adCoreDigest thirdElement (pathAdCore 0xc0 "abort").serialize := by
  have different : pathAdCore 0xc0 "compute" ≠ pathAdCore 0xc0 "abort" :=
    fun same => absurd (congrArg AdCore.pathTag same) (by decide)
  have binds := adCore_binds (AdCore.made_new zeroDigest zeroDigest zeroDigest zeroDigest 0xc0 [5] "compute" 0 [2] [2]
    [] [] zeroDigest) (AdCore.made_new zeroDigest zeroDigest zeroDigest zeroDigest 0xc0 [5] "abort" 0 [2] [2] [] []
    zeroDigest) (by unfold AdCore.Fits; decide) (by unfold AdCore.Fits; decide)
  refine ⟨fun same => different (binds.1 same), (binds.2 thirdElement ?_ different).1⟩
  intro same
  exact absurd same (by decide +kernel)

end Pvugc.Adaptor
