import Pvugc.Adaptor.Ciphertext
import Pvugc.Secp.FixedBaseCircuit

namespace Pvugc.Adaptor
open Pvugc.Algebra Pvugc.OneSided Pvugc.Secp

def hkDomain : List UInt8 := asBytes "PVUGC/VE/hk"

def hmDomain : List UInt8 := asBytes "PVUGC/VE/hm"

section Circuit

variable {F : Type} [Field F] (sponge : PoseidonSponge F)

def hashWithDomain (domain payload : List UInt8) : Digest :=
  bytes32FromSponge sponge (absorbAll sponge [domain, payload])

variable {K : Type} [Field K] [DecidableEq K]

structure AdaptorVeCircuit (curve : SecpCurve K) where
  keyBytes : Option (List UInt8)
  ciphertext : Option (List UInt8)
  adDigest : Option Digest
  tag : Option Digest
  hK : Option Digest
  hM : Option Digest
  keyLen : ℕ
  ctLen : ℕ
  tPoint : (shortCurve curve.coeffB).Point

variable {curve : SecpCurve K}

def AdaptorVeCircuit.new (keyBytes ciphertext : List UInt8) (adDigest tag hK hM : Digest) (keyLen ctLen : ℕ)
    (tPoint : (shortCurve curve.coeffB).Point) : AdaptorVeCircuit curve where
  keyBytes := some keyBytes
  ciphertext := some ciphertext
  adDigest := some adDigest
  tag := some tag
  hK := some hK
  hM := some hM
  keyLen := keyLen
  ctLen := ctLen
  tPoint := tPoint

def enforceBytesEqual (a b : List UInt8) : Enforcement Unit := (a.zip b).forM fun (lhs, rhs) => enforce (lhs == rhs)

/-- The state of the sponge gadget after the byte strings are absorbed one after the other. -/
def absorbAllVar (parts : List (List UInt8)) : sponge.State := parts.foldl (absorbBytesVarFr sponge) sponge.new

def poseidonVarDigest (domain data : List UInt8) : List UInt8 :=
  sponge.squeezeBytes (absorbAllVar sponge [domain, data]) 32

/-- This is `generate_constraints`; a byte variable stands for its value. -/
def AdaptorVeCircuit.generateConstraints (circuit : AdaptorVeCircuit curve) : Enforcement Unit := do
  let keyVar := circuit.keyBytes.getD (List.replicate circuit.keyLen 0)
  let ctInput := circuit.ciphertext.getD (List.replicate circuit.ctLen 0)
  let adDigestInput := circuit.adDigest.getD (Vector.replicate 32 0)
  let tagInput := circuit.tag.getD (Vector.replicate 32 0)
  let hKInput := circuit.hK.getD (Vector.replicate 32 0)
  let hMInput := circuit.hM.getD (Vector.replicate 32 0)
  if keyVar.length ≠ circuit.keyLen then throw .panic
  if ctInput.length ≠ circuit.ctLen then throw .panic
  let computedHK := poseidonVarDigest sponge hkDomain keyVar
  enforceBytesEqual computedHK hKInput.toList
  let plaintext :=
    if 0 < circuit.ctLen then
      let ksBlock := sponge.squeezeBytes
        (absorbAllVar sponge [demKeystreamDomain, keyVar, adDigestInput.toList, toLeBytes 4 0]) circuit.ctLen
      ksBlock.zipIdx.map fun (ksByte, i) => ctInput.getD i 0 ^^^ ksByte
    else []
  let computedTag := sponge.squeezeBytes
    (absorbAllVar sponge [demTagDomain, keyVar, adDigestInput.toList, ctInput]) 32
  enforceBytesEqual computedTag tagInput.toList
  let computedHM := sponge.squeezeBytes (absorbAllVar sponge [hmDomain, plaintext]) 32
  enforceBytesEqual computedHM hMInput.toList
  if size : plaintext.length = 32 then
    enforceSecpFixedBaseMul curve ⟨plaintext.toArray, by simp [size]⟩ circuit.tPoint
  else throw .unsatisfiable

section Agreement

omit [Field K] [DecidableEq K] in
theorem absorbAllVar_eq (parts : List (List UInt8)) : absorbAllVar sponge parts = absorbAll sponge parts := by
  rw [absorbAllVar, absorbAll]
  congr 1
  funext state bytes
  exact absorbBytesVarFr_eq sponge state bytes

theorem enforceBytesEqual_run {a b : List UInt8} (same : a.length = b.length) (before : Bool) :
    (enforceBytesEqual a b).run before = .ok ((), before && decide (a = b)) := by
  induction a generalizing b before with
  | nil =>
      rw [List.length_eq_zero_iff.mp same.symm, decide_eq_true rfl, Bool.and_true]
      rfl
  | cons lhs a inductionHypothesis =>
      match b, same with
      | rhs :: b, same =>
          have step : (enforceBytesEqual (lhs :: a) (rhs :: b)).run before =
              (enforceBytesEqual a b).run (before && (lhs == rhs)) := rfl
          rw [step, inductionHypothesis (Nat.succ_injective same), Bool.and_assoc]
          congr 3
          rw [Bool.eq_iff_iff]
          simp

/-- The keystream of the circuit, one byte after the other, is the keystream of the native cipher. -/
theorem zipIdx_map_xor {ct block : List UInt8} (same : block.length = ct.length) :
    (block.zipIdx.map fun (ksByte, i) => ct.getD i 0 ^^^ ksByte) = ct.zipWith (fun p k => p ^^^ k) block := by
  apply List.ext_getElem
  · simp [same]
  · intro i _ inside
    rw [List.length_zipWith, same, min_self] at inside
    simp [inside]

omit [Field F] in
theorem squeezeBytes_eq_iff (state : sponge.State) (digest : Digest) :
    sponge.squeezeBytes state 32 = digest.toList ↔ bytes32FromSponge sponge state = digest := by
  rw [← Vector.toList_inj]
  rfl

/-- The plaintext of a ciphertext of 32 bytes. -/
def plaintextOf (key : List UInt8) (adDigest ciphertext : Digest) : Digest :=
  ⟨(ciphertext.toList.zipWith (fun p k => p ^^^ k) (sponge.squeezeBytes
    (absorbAll sponge [demKeystreamDomain, key, adDigest.toList, toLeBytes 4 0]) 32)).toArray,
    by simp [sponge.squeezeBytes_length]⟩

omit [Field K] [DecidableEq K] in
theorem decrypt_eq (key : List UInt8) (adDigest ciphertext : Digest) :
    DemP2.decrypt sponge ⟨key, adDigest⟩ ciphertext.toList =
      some (plaintextOf sponge key adDigest ciphertext).toList := by
  simp only [DemP2.decrypt, DemP2.encrypt, DemP2.deriveKeystream_eq, Vector.length_toList]
  rfl

variable (curve)

/-- What the constraints of a published statement accept. -/
theorem generateConstraints_run (key : List UInt8) (ciphertext adDigest tag hK hM : Digest)
    (tPoint : (shortCurve curve.coeffB).Point) (before : Bool) :
    ((AdaptorVeCircuit.new key ciphertext.toList adDigest tag hK hM key.length 32
        tPoint).generateConstraints sponge).run before =
      if tPoint = 0 then .error .unsatisfiable
      else .ok ((), before && decide (hashWithDomain sponge hkDomain key = hK) &&
        decide (keyCommitmentTag sponge key adDigest ciphertext.toList = tag) &&
        decide (hashWithDomain sponge hmDomain (plaintextOf sponge key adDigest ciphertext).toList = hM) &&
        decide (tPoint = scalarBytesToPoint curve.generator (plaintextOf sponge key adDigest ciphertext))) := by
  have stream : 0 < 32 := by decide
  have block := sponge.squeezeBytes_length
    (absorbAll sponge [demKeystreamDomain, key, adDigest.toList, toLeBytes 4 0]) 32
  have size : (ciphertext.toList.zipWith (fun p k => p ^^^ k) (sponge.squeezeBytes
      (absorbAll sponge [demKeystreamDomain, key, adDigest.toList, toLeBytes 4 0]) 32)).length = 32 := by
    simp [block]
  have squeezed (state : sponge.State) (digest : Digest) :
      (sponge.squeezeBytes state 32).length = digest.toList.length := by
    rw [sponge.squeezeBytes_length, Vector.length_toList]
  simp only [AdaptorVeCircuit.generateConstraints, AdaptorVeCircuit.new, Option.getD_some, poseidonVarDigest,
    absorbAllVar_eq, Vector.length_toList, ne_eq, not_true_eq_false, if_false, if_pos stream,
    zipIdx_map_xor (block.trans ciphertext.length_toList.symm), dif_pos size, StateT.run_bind,
    enforceBytesEqual_run (squeezed _ _)]
  have digests (state : sponge.State) (digest : Digest) :
      decide (sponge.squeezeBytes state 32 = digest.toList) = decide (bytes32FromSponge sponge state = digest) :=
    decide_eq_decide.mpr (squeezeBytes_eq_iff sponge state digest)
  simp only [digests]
  refine (enforceSecpFixedBaseMul_run curve (plaintextOf sponge key adDigest ciphertext) tPoint _).trans ?_
  split
  case isTrue => rfl
  case isFalse =>
    have listed : (plaintextOf sponge key adDigest ciphertext).toList =
        ciphertext.toList.zipWith (fun p k => p ^^^ k) (sponge.squeezeBytes
          (absorbAll sponge [demKeystreamDomain, key, adDigest.toList, toLeBytes 4 0]) 32) := rfl
    rw [listed]
    rfl

/-- The circuit with a key as its witness is satisfied exactly when the published values are those that the
native functions compute from the key. -/
theorem adaptorVe_satisfied_iff (key : List UInt8) (ciphertext adDigest tag hK hM : Digest)
    (tPoint : (shortCurve curve.coeffB).Point) :
    (Satisfied ((AdaptorVeCircuit.new key ciphertext.toList adDigest tag hK hM key.length 32
        tPoint).generateConstraints sponge) ↔
      tPoint ≠ 0 ∧ hK = hashWithDomain sponge hkDomain key ∧
        tag = keyCommitmentTag sponge key adDigest ciphertext.toList ∧
        ∃ plaintext : Digest,
          DemP2.decrypt sponge ⟨key, adDigest⟩ ciphertext.toList = some plaintext.toList ∧
          hM = hashWithDomain sponge hmDomain plaintext.toList ∧
          tPoint = scalarBytesToPoint curve.generator plaintext) ∧
    ∀ adCore, adCoreDigest sponge adCore = adDigest →
      DemP2.new sponge key adCore = ⟨key, adDigest⟩ ∧
      computeKeyCommitmentTag sponge key adCore ciphertext.toList =
        keyCommitmentTag sponge key adDigest ciphertext.toList := by
  refine ⟨?_, ?_⟩
  · rw [Satisfied, generateConstraints_run]
    by_cases identity : tPoint = 0
    · simp [identity]
    · have decrypted := decrypt_eq sponge key adDigest ciphertext
      rw [if_neg identity]
      simp only [Except.ok.injEq, Prod.mk.injEq, true_and, Bool.true_and, Bool.and_eq_true, decide_eq_true_eq,
        decrypted, Option.some.injEq, Vector.toList_inj, exists_eq_left', ne_eq, identity, not_false_eq_true,
        eq_comm (a := hK), eq_comm (a := tag), eq_comm (a := hM), and_assoc]
  · rintro adCore rfl
    exact ⟨rfl, rfl⟩

end Agreement

end Circuit

end Pvugc.Adaptor
