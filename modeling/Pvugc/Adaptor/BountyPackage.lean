import Pvugc.Adaptor.Absorption
import Pvugc.Encoding.Stream
import Pvugc.Groth16.Keys
import Pvugc.OneSided.Arming

namespace Pvugc.Adaptor
open Pvugc.Algebra Pvugc.Encoding Pvugc.Groth16 Pvugc.OneSided

/-- The compressed code of the scalars; a number that is not below the modulus is rejected. -/
def frCode : StreamCode Fr where
  serialize x := toLeBytes 32 x.val
  deserialize := do
    let n ← readLe 32
    StateT.lift (if n < frPrime then some (n : Fr) else none)
  reads x := by
    have below : x.val < frPrime := ZMod.val_lt x
    have value : (if x.val < frPrime then some (x.val : Fr) else none) = some x := by
      rw [if_pos below, ZMod.natCast_zmod_val]
    rw [← List.append_nil (toLeBytes 32 x.val)]
    apply Reads.bind (readLe_reads (below.trans (by decide : frPrime < 256 ^ 32)))
    exact Reads.lift value
  sequential := (readLe_sequential 32).bind fun _ => Sequential.lift _

/-- The compressed codes of the points, which are those of the library. -/
structure PointCodes (G1 G2 : Type) where
  g1 : StreamCode G1
  g2 : StreamCode G2

/-- The column arms, the ciphertext and the tag of one share. -/
structure BountyShare (G2 : Type) where
  colArms : ColumnArms G2
  ciphertext : List UInt8
  tau : Digest

/-- The contents of a package: the address, the statement hash, the proving key and the shares. -/
structure BountyPackage (G1 G2 : Type) where
  addr : String
  h : Fr
  pk : ProvingKey G1 G2
  shares : List (BountyShare G2)

section Code

variable {A G1 G2 : Type}

/-- A vector is serialized behind its length. -/
def serializeVec (code : StreamCode A) (values : List A) : List UInt8 := writeCounted 8 code.serialize values

def deserializeVec (code : StreamCode A) : StreamReader (List A) := readCounted 8 code.deserialize

variable (codes : PointCodes G1 G2)

def serializeVk (vk : VerifyingKey G1 G2) : List UInt8 :=
  codes.g1.serialize vk.alphaG1 ++ codes.g2.serialize vk.betaG2 ++ codes.g2.serialize vk.gammaG2 ++
    codes.g2.serialize vk.deltaG2 ++ serializeVec codes.g1 vk.gammaAbcG1

def deserializeVk : StreamReader (VerifyingKey G1 G2) := do
  let alphaG1 ← codes.g1.deserialize
  let betaG2 ← codes.g2.deserialize
  let gammaG2 ← codes.g2.deserialize
  let deltaG2 ← codes.g2.deserialize
  let gammaAbcG1 ← deserializeVec codes.g1
  return ⟨alphaG1, betaG2, gammaG2, deltaG2, gammaAbcG1⟩

def serializePk (pk : ProvingKey G1 G2) : List UInt8 :=
  serializeVk codes pk.vk ++ codes.g1.serialize pk.betaG1 ++ codes.g1.serialize pk.deltaG1 ++
    serializeVec codes.g1 pk.aQuery ++ serializeVec codes.g1 pk.bG1Query ++ serializeVec codes.g2 pk.bG2Query ++
    serializeVec codes.g1 pk.hQuery ++ serializeVec codes.g1 pk.lQuery

def deserializePk : StreamReader (ProvingKey G1 G2) := do
  let vk ← deserializeVk codes
  let betaG1 ← codes.g1.deserialize
  let deltaG1 ← codes.g1.deserialize
  let aQuery ← deserializeVec codes.g1
  let bG1Query ← deserializeVec codes.g1
  let bG2Query ← deserializeVec codes.g2
  let hQuery ← deserializeVec codes.g1
  let lQuery ← deserializeVec codes.g1
  return ⟨vk, betaG1, deltaG1, aQuery, bG1Query, bG2Query, hQuery, lQuery⟩

def serializeArms (colArms : ColumnArms G2) : List UInt8 :=
  serializeVec codes.g2 colArms.yColsRho ++ codes.g2.serialize colArms.deltaRho

def deserializeArms : StreamReader (ColumnArms G2) := do
  let yColsRho ← deserializeVec codes.g2
  let deltaRho ← codes.g2.deserialize
  return ⟨yColsRho, deltaRho⟩

/-- An array of 32 bytes that is filled by `read_exact`. -/
def readArray32 : StreamReader Digest := (fun bytes => Vector.ofFn fun i => bytes.getD i 0) <$> readExact 32

/-- One round of the loop over the shares; the length of the ciphertext is cast to `u32`. -/
def writeShare (share : BountyShare G2) : List UInt8 :=
  serializeArms codes share.colArms ++ share.tau.toList ++ writeBlob 4 share.ciphertext

def readShare : StreamReader (BountyShare G2) := do
  let arms ← deserializeArms codes
  let tau ← readArray32
  let ct ← readBlob 4
  return ⟨arms, ct, tau⟩

/-- The bytes that `write_bounty_package` writes. -/
def writeBountyPackage (package : BountyPackage G1 G2) : List UInt8 :=
  writeBlob 4 (asBytes package.addr) ++ frCode.serialize package.h ++ serializePk codes package.pk ++
    writeCounted 4 (writeShare codes) package.shares

def packageReader : StreamReader (BountyPackage G1 G2) := do
  let addrBytes ← readBlob 4
  let addrStr ← StateT.lift (String.fromUTF8? ⟨addrBytes.toArray⟩)
  let h ← frCode.deserialize
  let pk ← deserializePk codes
  let shares ← readCounted 4 (readShare codes)
  return ⟨addrStr, h, pk, shares⟩

/-- `read_bounty_package` ignores what follows the shares; `none` is a panic. -/
def readBountyPackage (data : List UInt8) : Option (BountyPackage G1 G2) :=
  ((packageReader codes).run data).map Prod.fst

end Code

section RoundTrip

variable {A G1 G2 : Type}

/-- The vectors of a key have machine lengths. -/
def FitsWord (pk : ProvingKey G1 G2) : Prop :=
  pk.vk.gammaAbcG1.length < 256 ^ 8 ∧ pk.aQuery.length < 256 ^ 8 ∧ pk.bG1Query.length < 256 ^ 8 ∧
    pk.bG2Query.length < 256 ^ 8 ∧ pk.hQuery.length < 256 ^ 8 ∧ pk.lQuery.length < 256 ^ 8

/-- The lengths of a package that are cast to `u32` fit, and the other lengths are machine lengths. -/
structure BountyPackage.Fits (package : BountyPackage G1 G2) : Prop where
  addr : (asBytes package.addr).length < 256 ^ 4
  pk : FitsWord package.pk
  shares : package.shares.length < 256 ^ 4
  share : ∀ share ∈ package.shares, share.ciphertext.length < 256 ^ 4 ∧ share.colArms.yColsRho.length < 256 ^ 8

theorem deserializeVec_reads (code : StreamCode A) {values : List A} (fits : values.length < 256 ^ 8) :
    Reads (deserializeVec code) (serializeVec code values) values :=
  readCounted_reads fits fun value _ => code.reads value

theorem deserializeVec_sequential (code : StreamCode A) : Sequential (deserializeVec code) :=
  readCounted_sequential 8 code.sequential

theorem fromUTF8_asBytes (s : String) : String.fromUTF8? ⟨(asBytes s).toArray⟩ = some s := by
  have valid : ByteArray.IsValidUTF8 s.toByteArray := s.isValidUTF8
  change String.fromUTF8? s.toByteArray = some s
  rw [String.fromUTF8?, dif_pos valid]
  rfl

theorem readArray32_reads (digest : Digest) : Reads readArray32 digest.toList digest := by
  have filled : (Vector.ofFn fun i : Fin 32 => digest.toList.getD i 0) = digest := by
    ext i inside
    simp
  have read := (readExact_reads digest.toList).map fun bytes => (Vector.ofFn fun i => bytes.getD i 0 : Digest)
  rwa [Vector.length_toList, filled] at read

variable (codes : PointCodes G1 G2)

theorem deserializeVk_reads {vk : VerifyingKey G1 G2} (fits : vk.gammaAbcG1.length < 256 ^ 8) :
    Reads (deserializeVk codes) (serializeVk codes vk) vk := by
  simp only [serializeVk, List.append_assoc]
  apply Reads.bind (codes.g1.reads _)
  apply Reads.bind (codes.g2.reads _)
  apply Reads.bind (codes.g2.reads _)
  apply Reads.bind (codes.g2.reads _)
  exact Reads.last (deserializeVec_reads codes.g1 fits)

theorem deserializePk_reads {pk : ProvingKey G1 G2} (fits : FitsWord pk) :
    Reads (deserializePk codes) (serializePk codes pk) pk := by
  obtain ⟨gammaAbc, a, bG1, bG2, h, l⟩ := fits
  rw [serializePk]
  simp only [List.append_assoc]
  apply Reads.bind (deserializeVk_reads codes gammaAbc)
  apply Reads.bind (codes.g1.reads _)
  apply Reads.bind (codes.g1.reads _)
  apply Reads.bind (deserializeVec_reads codes.g1 a)
  apply Reads.bind (deserializeVec_reads codes.g1 bG1)
  apply Reads.bind (deserializeVec_reads codes.g2 bG2)
  apply Reads.bind (deserializeVec_reads codes.g1 h)
  exact Reads.last (deserializeVec_reads codes.g1 l)

theorem deserializeArms_reads {colArms : ColumnArms G2} (fits : colArms.yColsRho.length < 256 ^ 8) :
    Reads (deserializeArms codes) (serializeArms codes colArms) colArms := by
  apply Reads.bind (deserializeVec_reads codes.g2 fits)
  exact Reads.last (codes.g2.reads _)

theorem readShare_reads {share : BountyShare G2} (ciphertext : share.ciphertext.length < 256 ^ 4)
    (columns : share.colArms.yColsRho.length < 256 ^ 8) :
    Reads (readShare codes) (writeShare codes share) share := by
  rw [writeShare, List.append_assoc]
  apply Reads.bind (deserializeArms_reads codes columns)
  apply Reads.bind (readArray32_reads share.tau)
  exact Reads.last (readBlob_reads ciphertext)

theorem packageReader_reads {package : BountyPackage G1 G2} (fits : package.Fits) :
    Reads (packageReader codes) (writeBountyPackage codes package) package := by
  have shares : Reads (readCounted 4 (readShare codes)) (writeCounted 4 (writeShare codes) package.shares)
      package.shares :=
    readCounted_reads fits.shares fun share member =>
      readShare_reads codes (fits.share share member).1 (fits.share share member).2
  simp only [writeBountyPackage, List.append_assoc]
  apply Reads.bind (readBlob_reads fits.addr)
  rw [← List.nil_append (frCode.serialize package.h ++ _)]
  apply Reads.bind (Reads.lift (fromUTF8_asBytes package.addr))
  apply Reads.bind (frCode.reads _)
  apply Reads.bind (deserializePk_reads codes fits.pk)
  exact Reads.last shares

theorem packageReader_sequential : Sequential (packageReader codes) := by
  have vk : Sequential (deserializeVk codes) :=
    codes.g1.sequential.bind fun _ => codes.g2.sequential.bind fun _ => codes.g2.sequential.bind fun _ =>
      codes.g2.sequential.bind fun _ => (deserializeVec_sequential codes.g1).bind fun _ => Sequential.pure _
  have pk : Sequential (deserializePk codes) :=
    vk.bind fun _ => codes.g1.sequential.bind fun _ => codes.g1.sequential.bind fun _ =>
      (deserializeVec_sequential codes.g1).bind fun _ => (deserializeVec_sequential codes.g1).bind fun _ =>
        (deserializeVec_sequential codes.g2).bind fun _ => (deserializeVec_sequential codes.g1).bind fun _ =>
          (deserializeVec_sequential codes.g1).bind fun _ => Sequential.pure _
  have arms : Sequential (deserializeArms codes) :=
    (deserializeVec_sequential codes.g2).bind fun _ => codes.g2.sequential.bind fun _ => Sequential.pure _
  have share : Sequential (readShare codes) :=
    arms.bind fun _ => ((readExact_sequential 32).map _).bind fun _ => (readBlob_sequential 4).bind fun _ =>
      Sequential.pure _
  exact (readBlob_sequential 4).bind fun _ => (Sequential.lift _).bind fun _ => frCode.sequential.bind fun _ =>
    pk.bind fun _ => (readCounted_sequential 4 share).bind fun _ => Sequential.pure _

theorem readBountyPackage_append {package : BountyPackage G1 G2} (fits : package.Fits) (rest : List UInt8) :
    readBountyPackage codes (writeBountyPackage codes package ++ rest) = some package := by
  rw [readBountyPackage, packageReader_reads codes fits rest, Option.map_some]

theorem readBountyPackage_truncated {package : BountyPackage G1 G2} (fits : package.Fits) {front back : List UInt8}
    (split : writeBountyPackage codes package = front ++ back) (proper : back ≠ []) :
    readBountyPackage codes front = none := by
  rw [readBountyPackage, (packageReader_reads codes fits).truncated (packageReader_sequential codes) split proper,
    Option.map_none]

/-- A written package is read back whatever follows it, and no truncation of it is read at all. -/
theorem readBountyPackage_write {package : BountyPackage G1 G2} (fits : package.Fits) :
    (∀ rest, readBountyPackage codes (writeBountyPackage codes package ++ rest) = some package) ∧
      ∀ front back, writeBountyPackage codes package = front ++ back → back ≠ [] →
        readBountyPackage codes front = none :=
  ⟨readBountyPackage_append codes fits, fun _ _ => readBountyPackage_truncated codes fits⟩

/-- A package over the scalars, whose address is not a Bitcoin address. -/
def samplePackage : BountyPackage Fr Fr where
  addr := "bounty"
  h := 5
  pk := ⟨⟨1, 2, 3, 5, [6, 7]⟩, 5, 6, [1], [2], [3], [5], []⟩
  shares := [⟨⟨[2, 3], 5⟩, [1, 2, 3], Vector.replicate 32 7⟩, ⟨⟨[], 6⟩, [], Vector.replicate 32 8⟩]

theorem samplePackage_fits : samplePackage.Fits where
  addr := by decide
  pk := by
    unfold FitsWord
    decide
  shares := by decide
  share := by decide

/-- The package is read back in front of other bytes. -/
theorem readBountyPackage_write_sample : readBountyPackage ⟨frCode, frCode⟩
    (writeBountyPackage ⟨frCode, frCode⟩ samplePackage ++ [1, 2, 3]) = some samplePackage :=
  (readBountyPackage_write ⟨frCode, frCode⟩ samplePackage_fits).1 [1, 2, 3]

end RoundTrip

end Pvugc.Adaptor
