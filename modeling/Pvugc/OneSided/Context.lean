import Mathlib.Data.Set.Function
import Pvugc.Algebra.Numerals

namespace Pvugc.OneSided

/-- The type `[u8; 32]`. -/
abbrev Digest := Vector UInt8 32

def asBytes (s : String) : List UInt8 := s.toUTF8.data.toList

structure PvugcContextBuilder where
  vkHash : Digest
  xHash : Digest
  yColsDigest : Digest
  tapleafHash : Option Digest
  tapleafVersion : UInt8
  txidTemplate : List UInt8
  pathTag : String
  epochNonce : Digest

namespace PvugcContextBuilder

def new (vkHash xHash yColsDigest epochNonce : Digest) : PvugcContextBuilder where
  vkHash := vkHash
  xHash := xHash
  yColsDigest := yColsDigest
  tapleafHash := none
  tapleafVersion := 0xc0
  txidTemplate := []
  pathTag := "compute"
  epochNonce := epochNonce

def withTapleaf (builder : PvugcContextBuilder) (tapleafHash : Digest) (version : UInt8) :
    PvugcContextBuilder :=
  { builder with tapleafHash := some tapleafHash, tapleafVersion := version }

def withTxidTemplate (builder : PvugcContextBuilder) (templateBytes : List UInt8) : PvugcContextBuilder :=
  { builder with txidTemplate := templateBytes }

def withPathTag (builder : PvugcContextBuilder) (tag : String) : PvugcContextBuilder :=
  { builder with pathTag := tag }

/-- The bytes that `build_ctx_core` feeds to the hash, in order. -/
def ctxCoreBytes (builder : PvugcContextBuilder) : List UInt8 :=
  asBytes "PVUGC/CTX_CORE" ++ builder.vkHash.toList ++ builder.xHash.toList ++
  (match builder.tapleafHash with
    | some tapleaf => tapleaf.toList ++ [builder.tapleafVersion]
    | none => []) ++
  builder.txidTemplate ++ asBytes builder.pathTag ++ builder.yColsDigest.toList ++
  builder.epochNonce.toList

end PvugcContextBuilder

/-- The two byte strings of the arming package. -/
structure ArmingPackage (S : Type) where
  armedBasesBytes : S
  headerMetadata : S
  deriving DecidableEq

/-- The byte strings of the pre-signature package. -/
structure PresigPackage (S : Type) where
  m : S
  t : S
  r : S
  signerSet : S
  musigCoeffs : S
  deriving DecidableEq

def ArmingPackage.map {S T : Type} (f : S → T) (package : ArmingPackage S) : ArmingPackage T where
  armedBasesBytes := f package.armedBasesBytes
  headerMetadata := f package.headerMetadata

def ArmingPackage.fields {S : Type} (package : ArmingPackage S) : List S :=
  [package.armedBasesBytes, package.headerMetadata]

def PresigPackage.map {S T : Type} (f : S → T) (package : PresigPackage S) : PresigPackage T where
  m := f package.m
  t := f package.t
  r := f package.r
  signerSet := f package.signerSet
  musigCoeffs := f package.musigCoeffs

def PresigPackage.fields {S : Type} (package : PresigPackage S) : List S :=
  [package.m, package.t, package.r, package.signerSet, package.musigCoeffs]

/-- The bytes of `build_arming_pkg_hash`. -/
def armingPkgBytes (package : ArmingPackage (List UInt8)) : List UInt8 :=
  asBytes "PVUGC/ARM" ++ package.armedBasesBytes ++ package.headerMetadata

/-- The bytes of `build_presig_pkg_hash`. -/
def presigPkgBytes (package : PresigPackage (List UInt8)) : List UInt8 :=
  asBytes "PVUGC/PRESIG" ++ package.m ++ package.t ++ package.r ++ package.signerSet ++ package.musigCoeffs

structure PvugcContext where
  ctxCore : Digest
  armingPkgHash : Option Digest
  presigPkgHash : Option Digest
  ctxHash : Digest
  epochNonce : Digest

def optionalBytes (hash : Option Digest) : List UInt8 := (hash.map Vector.toList).getD []

/-- The bytes that `finalize` feeds to the last hash. -/
def ctxBytes (ctxCore : Digest) (armingPkgHash presigPkgHash : Option Digest) : List UInt8 :=
  asBytes "PVUGC/CTX" ++ ctxCore.toList ++ optionalBytes armingPkgHash ++ optionalBytes presigPkgHash

section Code

variable (sha256 : List UInt8 → Digest)

def PvugcContextBuilder.buildCtxCore (builder : PvugcContextBuilder) : Digest := sha256 builder.ctxCoreBytes

def buildArmingPkgHash (package : ArmingPackage (List UInt8)) : Digest := sha256 (armingPkgBytes package)

def buildPresigPkgHash (package : PresigPackage (List UInt8)) : Digest := sha256 (presigPkgBytes package)

def PvugcContextBuilder.finalize (builder : PvugcContextBuilder)
    (armingPkgHash presigPkgHash : Option Digest) : PvugcContext where
  ctxCore := builder.buildCtxCore sha256
  armingPkgHash := armingPkgHash
  presigPkgHash := presigPkgHash
  ctxHash := sha256 (ctxBytes (builder.buildCtxCore sha256) armingPkgHash presigPkgHash)
  epochNonce := builder.epochNonce

end Code

/-- Everything that a context is built from. -/
@[ext]
structure ContextInput where
  vkHash : Digest
  xHash : Digest
  yColsDigest : Digest
  epochNonce : Digest
  tapleaf : Option (Digest × UInt8)
  txidTemplate : List UInt8
  pathTag : String
  arming : Option (ArmingPackage (List UInt8))
  presig : Option (PresigPackage (List UInt8))

namespace ContextInput

/-- The builder after the calls that set the layers of the input. -/
def builder (input : ContextInput) : PvugcContextBuilder :=
  let base := ((PvugcContextBuilder.new input.vkHash input.xHash input.yColsDigest input.epochNonce).withTxidTemplate
    input.txidTemplate).withPathTag input.pathTag
  match input.tapleaf with
  | some (hash, version) => base.withTapleaf hash version
  | none => base

/-- The context of the input, with the package hashes of its packages. -/
def context (sha256 : List UInt8 → Digest) (input : ContextInput) : PvugcContext :=
  input.builder.finalize sha256 (input.arming.map (buildArmingPkgHash sha256))
    (input.presig.map (buildPresigPkgHash sha256))

/-- The strings that are hashed for the context of the input. -/
def hashed (sha256 : List UInt8 → Digest) (input : ContextInput) : List (List UInt8) :=
  ctxBytes (input.builder.buildCtxCore sha256) (input.arming.map (buildArmingPkgHash sha256))
    (input.presig.map (buildPresigPkgHash sha256)) ::
  input.builder.ctxCoreBytes ::
  ((input.arming.map armingPkgBytes).toList ++ (input.presig.map presigPkgBytes).toList)

end ContextInput

/-- The builders that calls of the builder methods reach, in any order and number. -/
inductive PvugcContextBuilder.Reachable : PvugcContextBuilder → Prop where
  | new (vkHash xHash yColsDigest epochNonce : Digest) :
      Reachable (PvugcContextBuilder.new vkHash xHash yColsDigest epochNonce)
  | withTapleaf {builder : PvugcContextBuilder} (tapleafHash : Digest) (version : UInt8) :
      Reachable builder → Reachable (builder.withTapleaf tapleafHash version)
  | withTxidTemplate {builder : PvugcContextBuilder} (templateBytes : List UInt8) :
      Reachable builder → Reachable (builder.withTxidTemplate templateBytes)
  | withPathTag {builder : PvugcContextBuilder} (tag : String) :
      Reachable builder → Reachable (builder.withPathTag tag)

/-- Every reachable builder is the builder of an input. -/
theorem PvugcContextBuilder.Reachable.exists_input {builder : PvugcContextBuilder}
    (reachable : builder.Reachable) (arming : Option (ArmingPackage (List UInt8)))
    (presig : Option (PresigPackage (List UInt8))) :
    ∃ input : ContextInput, input.builder = builder ∧ input.arming = arming ∧ input.presig = presig := by
  induction reachable with
  | new vkHash xHash yColsDigest epochNonce =>
      exact ⟨⟨vkHash, xHash, yColsDigest, epochNonce, none, [], "compute", arming, presig⟩, rfl, rfl, rfl⟩
  | withTapleaf tapleafHash version _ inductionHypothesis =>
      obtain ⟨input, rfl, sameArming, samePresig⟩ := inductionHypothesis
      refine ⟨{ input with tapleaf := some (tapleafHash, version) }, ?_, sameArming, samePresig⟩
      rw [ContextInput.builder, ContextInput.builder]
      cases input.tapleaf <;> rfl
  | withTxidTemplate templateBytes _ inductionHypothesis =>
      obtain ⟨input, rfl, sameArming, samePresig⟩ := inductionHypothesis
      refine ⟨{ input with txidTemplate := templateBytes }, ?_, sameArming, samePresig⟩
      cases tapleaf : input.tapleaf <;> simp only [ContextInput.builder, tapleaf] <;> rfl
  | withPathTag tag _ inductionHypothesis =>
      obtain ⟨input, rfl, sameArming, samePresig⟩ := inductionHypothesis
      refine ⟨{ input with pathTag := tag }, ?_, sameArming, samePresig⟩
      cases tapleaf : input.tapleaf <;> simp only [ContextInput.builder, tapleaf] <;> rfl

/-- The hash has no collision among the strings that the two contexts hash. -/
def CollisionFree (sha256 : List UInt8 → Digest) (input input' : ContextInput) : Prop :=
  Set.InjOn sha256 {s | s ∈ input.hashed sha256 ∨ s ∈ input'.hashed sha256}

end Pvugc.OneSided
