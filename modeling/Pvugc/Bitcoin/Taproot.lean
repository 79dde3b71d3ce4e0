import Pvugc.Bitcoin.Schnorr
import Pvugc.Bitcoin.Script

namespace Pvugc.Bitcoin
open Pvugc.Algebra Pvugc.OneSided Pvugc.Secp

section Code

variable (sha256 : List UInt8 → Digest)

def taprootTweakScalar (internalKey : AffinePoint) (merkleRoot : Option Digest) : Option ℕ := do
  let tweakInput := (← encodedX internalKey).toList ++ optionalBytes merkleRoot
  return reduceScalar (taggedHash sha256 "TapTweak" tweakInput)

/-- The output key of the code; no value stands for a panic. -/
def taprootOutputKey (internalKey : AffinePoint) (merkleRoot : Option Digest) : Option AffinePoint := do
  let tweak ← taprootTweakScalar sha256 internalKey merkleRoot
  let tweaked := internalKey + tweak • secpGenerator
  if tweaked = 0 then none else some tweaked

/-- The code's compact encoding of a script's length. -/
def serLen (len : UInt32) : List UInt8 :=
  if len ≤ 0xfc then [len.toUInt8]
  else if len ≤ 0xffff then 0xfd :: toLeBytes 2 len.toUInt16.toNat
  else 0xfe :: toLeBytes 4 len.toNat

def TaprootScriptPath.leafHash (leaf : TaprootScriptPath) : Digest :=
  sha256 (asBytes "TapLeaf" ++ [leaf.version] ++ serLen (UInt32.ofNat leaf.script.length) ++ leaf.script)

end Code

section Specification

/-- The compact size of the consensus rules, in the shortest of its four forms. -/
def compactSize (n : ℕ) : List UInt8 :=
  if n < 0xfd then [UInt8.ofNat n]
  else if n < 2 ^ 16 then 0xfd :: toLeBytes 2 n
  else if n < 2 ^ 32 then 0xfe :: toLeBytes 4 n
  else 0xff :: toLeBytes 8 n

def tapLeafMessage (version : UInt8) (script : List UInt8) : List UInt8 :=
  version :: (compactSize script.length ++ script)

/-- The control block of a script-path spend. The parity of the output key is left out, since output keys are compared
up to sign. -/
structure ControlBlock where
  leafVersion : UInt8
  internalKey : Digest
  merklePath : List Digest

variable (sha256 : List UInt8 → Digest)

/-- The leaf hash of BIP-341. -/
def tapLeafHash (version : UInt8) (script : List UInt8) : Digest :=
  taggedHash sha256 "TapLeaf" (tapLeafMessage version script)

/-- An inner node of the Merkle tree, whose children are hashed in order. -/
def tapBranchHash (node sibling : Digest) : Digest :=
  taggedHash sha256 "TapBranch" (if beValue node.toList < beValue sibling.toList then node.toList ++ sibling.toList
    else sibling.toList ++ node.toList)

/-- The tweak of an x-only key by a Merkle root, as an integer. -/
def tapTweak (x : Digest) (root : Option Digest) : ℕ :=
  beValue (taggedHash sha256 "TapTweak" (x.toList ++ optionalBytes root)).toList

/-- The output key that validation of a script path rebuilds from the control block and the script. -/
def bip341OutputKey (control : ControlBlock) (script : List UInt8) : Option AffinePoint := do
  let P ← liftX (beValue control.internalKey.toList)
  let root := control.merklePath.foldl (tapBranchHash sha256) (tapLeafHash sha256 control.leafVersion script)
  let t := tapTweak sha256 control.internalKey (some root)
  if t < secpOrder then some (P + t • secpGenerator) else none

/-- The control block for the single leaf of a tree. -/
def singleLeaf (K : AffinePoint) (leaf : TaprootScriptPath) : ControlBlock where
  leafVersion := leaf.version
  internalKey := coordinateBytes (xValue K)
  merklePath := []

/-- The code's output key is the rebuilt one up to sign. -/
def ScriptPathCommits (K : AffinePoint) (leaf : TaprootScriptPath) : Prop :=
  ∃ P Q, taprootOutputKey sha256 K (some (leaf.leafHash sha256)) = some P ∧
    bip341OutputKey sha256 (singleLeaf K leaf) leaf.script = some Q ∧ (P = Q ∨ P = -Q)

/-- Internal keys with one first coordinate have one output key up to sign. -/
def KeyPathXOnly (K : AffinePoint) : Prop :=
  ∀ K' ≠ 0, xValue K' = xValue K → ∃ P P', taprootOutputKey sha256 K none = some P ∧
    taprootOutputKey sha256 K' none = some P' ∧ (P = P' ∨ P = -P')

end Specification

section Leaf

/-- The code's lengths are compact sizes below 2 ^ 32. -/
theorem serLen_eq {n : ℕ} (bound : n < 2 ^ 32) : serLen (UInt32.ofNat n) = compactSize n := by
  have value : (UInt32.ofNat n).toNat = n := UInt32.toNat_ofNat_of_lt' bound
  have one : UInt32.ofNat n ≤ 0xfc ↔ n < 0xfd := by
    rw [UInt32.le_iff_toNat_le, value, Nat.lt_succ_iff]
    rfl
  have two : UInt32.ofNat n ≤ 0xffff ↔ n < 2 ^ 16 := by
    rw [UInt32.le_iff_toNat_le, value, Nat.lt_iff_le_pred (by decide)]
    rfl
  unfold serLen compactSize
  simp only [one, two, value, if_pos bound]
  split_ifs with small medium
  · rw [UInt32.toUInt8_ofNat']
  · rw [UInt32.toNat_toUInt16, value, Nat.mod_eq_of_lt medium]
  · rfl

/-- The code hashes the message of BIP-341 behind the name of the tag, without the tag's hashes. -/
theorem leafHash_eq (sha256 : List UInt8 → Digest) {leaf : TaprootScriptPath} (bound : leaf.script.length < 2 ^ 32) :
    leaf.leafHash sha256 = sha256 (asBytes "TapLeaf" ++ tapLeafMessage leaf.version leaf.script) := by
  rw [TaprootScriptPath.leafHash, serLen_eq bound, tapLeafMessage, List.append_assoc, List.append_assoc]
  rfl

end Leaf

section Exact

variable {sha256 : List UInt8 → Digest} {K : AffinePoint}

theorem residue_smul (k : ℕ) : (k % secpOrder) • secpGenerator = k • secpGenerator := by
  rw [← secpGenerator_order, mod_addOrderOf_nsmul]

/-- The code adds the tweak to the full key and panics at the identity. -/
theorem taprootOutputKey_eq_some (finite : K ≠ 0) (root : Option Digest) (P : AffinePoint) :
    taprootOutputKey sha256 K root = some P ↔
      P ≠ 0 ∧ K + tapTweak sha256 (coordinateBytes (xValue K)) root • secpGenerator = P := by
  have tweak : taprootTweakScalar sha256 K root =
      some (tapTweak sha256 (coordinateBytes (xValue K)) root % secpOrder) := by
    rw [taprootTweakScalar, encodedX_of_ne_zero finite]
    rfl
  rw [taprootOutputKey, tweak, Option.bind_eq_bind, Option.bind_some, residue_smul]
  dsimp only
  split
  case isTrue identity =>
    rw [identity]
    exact iff_of_false nofun fun same => same.1 same.2.symm
  case isFalse nonzero =>
    rw [Option.some_inj]
    exact ⟨fun same => ⟨same ▸ nonzero, same⟩, And.right⟩

/-- Validation adds the tweak to the even key. -/
theorem bip341OutputKey_eq_some (finite : K ≠ 0) (leaf : TaprootScriptPath) (Q : AffinePoint) :
    bip341OutputKey sha256 (singleLeaf K leaf) leaf.script = some Q ↔
      let t := tapTweak sha256 (coordinateBytes (xValue K)) (some (tapLeafHash sha256 leaf.version leaf.script))
      t < secpOrder ∧ evenPoint K + t • secpGenerator = Q := by
  rw [bip341OutputKey, singleLeaf]
  dsimp only
  rw [coordinateBytes_value (xValue_lt K), liftX_xValue finite, List.foldl_nil, Option.bind_eq_bind, Option.bind_some,
    Option.ite_none_right_eq_some, Option.some_inj]

/-- The multiple that has to be added to the even key for an addition to the full key. -/
def signedTweak (K : AffinePoint) (tweak : ℕ) : ℤ := if isEvenY K then tweak else -tweak

theorem full_add_smul (K : AffinePoint) (tweak : ℕ) :
    K + tweak • secpGenerator = evenPoint K + signedTweak K tweak • secpGenerator ∨
      K + tweak • secpGenerator = -(evenPoint K + signedTweak K tweak • secpGenerator) := by
  unfold evenPoint signedTweak
  split
  case isTrue even => exact .inl (by rw [natCast_zsmul])
  case isFalse odd => exact .inr (by rw [neg_zsmul, natCast_zsmul, neg_add_rev, neg_neg, neg_neg, add_comm])

/-- Two tweaks of the even key agree up to sign where they are congruent or the key is the one exception. -/
theorem even_add_smul_iff (s t : ℤ) :
    evenPoint K + s • secpGenerator = evenPoint K + t • secpGenerator ∨
        evenPoint K + s • secpGenerator = -(evenPoint K + t • secpGenerator) ↔
      s ≡ t [ZMOD secpOrder] ∨ 2 • evenPoint K + (s + t) • secpGenerator = 0 := by
  have congruent : s • secpGenerator = t • secpGenerator ↔ s ≡ t [ZMOD secpOrder] := by
    rw [← secpGenerator_order]
    exact zsmul_eq_zsmul_iff_modEq
  rw [add_right_inj, congruent, eq_neg_iff_add_eq_zero, add_add_add_comm, ← two_nsmul, ← add_zsmul]

/-- The tagged tweak is a scalar, the code's output key is not the identity, and the tweak by the plain leaf hash,
with the sign of the key, is congruent to the tagged one, unless the key makes the two output keys opposite. -/
def TweaksAgree (sha256 : List UInt8 → Digest) (K : AffinePoint) (leaf : TaprootScriptPath) : Prop :=
  let x := coordinateBytes (xValue K)
  let plain := tapTweak sha256 x (some (sha256 (asBytes "TapLeaf" ++ tapLeafMessage leaf.version leaf.script)))
  let tagged := tapTweak sha256 x (some (taggedHash sha256 "TapLeaf" (tapLeafMessage leaf.version leaf.script)))
  tagged < secpOrder ∧ K + plain • secpGenerator ≠ 0 ∧
    (signedTweak K plain ≡ tagged [ZMOD secpOrder] ∨
      2 • evenPoint K + (signedTweak K plain + tagged) • secpGenerator = 0)

theorem scriptPathCommits_iff (finite : K ≠ 0) {leaf : TaprootScriptPath} (bound : leaf.script.length < 2 ^ 32) :
    ScriptPathCommits sha256 K leaf ↔ TweaksAgree sha256 K leaf := by
  unfold ScriptPathCommits TweaksAgree
  simp only [taprootOutputKey_eq_some finite, bip341OutputKey_eq_some finite, leafHash_eq sha256 bound, tapLeafHash]
  generalize tapTweak sha256 (coordinateBytes (xValue K)) (some (sha256 _)) = plain
  generalize tapTweak sha256 (coordinateBytes (xValue K)) (some (taggedHash sha256 "TapLeaf" _)) = tagged
  rw [← even_add_smul_iff, natCast_zsmul]
  have sign : K + plain • secpGenerator = evenPoint K + tagged • secpGenerator ∨
        K + plain • secpGenerator = -(evenPoint K + tagged • secpGenerator) ↔
      evenPoint K + signedTweak K plain • secpGenerator = evenPoint K + tagged • secpGenerator ∨
        evenPoint K + signedTweak K plain • secpGenerator = -(evenPoint K + tagged • secpGenerator) := by
    rcases full_add_smul K plain with same | opposite
    · rw [same]
    · rw [opposite, neg_eq_iff_eq_neg, neg_inj, or_comm]
  rw [← sign]
  constructor
  · rintro ⟨P, Q, ⟨nonzero, rfl⟩, ⟨scalar, rfl⟩, same⟩
    exact ⟨scalar, nonzero, same⟩
  · rintro ⟨scalar, nonzero, same⟩
    exact ⟨_, _, ⟨nonzero, rfl⟩, ⟨scalar, rfl⟩, same⟩

/-- Without a Merkle root, only a zero tweak gives the key and its opposite one output key. -/
theorem keyPathXOnly_iff (finite : K ≠ 0) :
    KeyPathXOnly sha256 K ↔ secpOrder ∣ tapTweak sha256 (coordinateBytes (xValue K)) none := by
  rw [← secp_smul_eq_zero_iff generator_ne_zero]
  constructor
  · intro same
    have finite' : -K ≠ 0 := neg_ne_zero.mpr finite
    obtain ⟨P, P', full, opposite, sign⟩ := same (-K) finite' (xValue_neg K)
    rw [taprootOutputKey_eq_some finite] at full
    rw [taprootOutputKey_eq_some finite', xValue_neg] at opposite
    generalize tapTweak sha256 (coordinateBytes (xValue K)) none = tweak at full opposite ⊢
    obtain ⟨-, rfl⟩ := full
    obtain ⟨-, rfl⟩ := opposite
    rcases sign with equal | opposed
    · rw [add_left_inj, eq_neg_iff_add_eq_zero, ← two_nsmul] at equal
      exact absurd equal (secp_two_smul_ne_zero finite)
    · rw [neg_add, neg_neg, add_right_inj, eq_neg_iff_add_eq_zero, ← two_nsmul] at opposed
      by_contra nonzero
      exact secp_two_smul_ne_zero nonzero opposed
  · intro zero K' finite' x
    refine ⟨K, K', ?_, ?_, ?_⟩
    · rw [taprootOutputKey_eq_some finite, zero, add_zero]
      exact ⟨finite, rfl⟩
    · rw [taprootOutputKey_eq_some finite', x, zero, add_zero]
      exact ⟨finite', rfl⟩
    · by_cases parity : isEvenY K = isEvenY K'
      · exact .inl (eq_of_even finite finite' x.symm parity)
      · refine .inr (eq_of_even finite (neg_ne_zero.mpr finite') (x.symm.trans (xValue_neg K').symm) ?_)
        rw [isEvenY_neg finite']
        exact Bool.eq_not_of_ne parity

/-- Where the code's output keys are the ones of BIP-341: the script path needs agreeing tweaks, the key path a zero
tweak. -/
theorem taprootOutputKey_commits_iff (sha256 : List UInt8 → Digest) (K : {K : AffinePoint // K ≠ 0})
    (leaf : {leaf : TaprootScriptPath // leaf.script.length < 2 ^ 32}) :
    (ScriptPathCommits sha256 K leaf ↔ TweaksAgree sha256 K leaf) ∧
      (KeyPathXOnly sha256 K ↔ secpOrder ∣ tapTweak sha256 (coordinateBytes (xValue K)) none) :=
  ⟨scriptPathCommits_iff K.2 leaf.2, keyPathXOnly_iff K.2⟩

end Exact

section Counterexample

/-- The compute leaf for the generator. -/
def generatorLeaf : TaprootScriptPath := .computeSpend generatorKey

theorem generator_plainTweak : tapTweak Hash.sha256 (coordinateBytes (xValue secpGenerator))
    (some (Hash.sha256 (asBytes "TapLeaf" ++ tapLeafMessage generatorLeaf.version generatorLeaf.script))) =
      0xd4121939e623efae0ea63a9ea421ff827c3505816ee9e69c51a9332226686539 := by decide +kernel

theorem generator_taggedTweak : tapTweak Hash.sha256 (coordinateBytes (xValue secpGenerator))
    (some (taggedHash Hash.sha256 "TapLeaf" (tapLeafMessage generatorLeaf.version generatorLeaf.script))) =
      0x943a7ff79d4456446a52d90c241b461af8f92f0c55d0e57cb4bf90eece0085f6 := by decide +kernel

/-- With the generator as internal key, the compute leaf cannot be spent, and the opposite of the generator has
another key-path output. -/
theorem taprootOutputKey_generator :
    ¬ScriptPathCommits Hash.sha256 secpGenerator generatorLeaf ∧
      ¬KeyPathXOnly Hash.sha256 secpGenerator := by
  constructor
  · rw [scriptPathCommits_iff generator_ne_zero (by decide), TweaksAgree]
    rw [generator_plainTweak, generator_taggedTweak, signedTweak, evenPoint, if_pos generator_even,
      if_pos generator_even]
    rintro ⟨-, -, congruent | exceptional⟩
    · exact absurd congruent (by decide)
    · rw [← Nat.cast_add, natCast_zsmul, ← add_nsmul, secp_smul_eq_zero_iff generator_ne_zero] at exceptional
      exact absurd exceptional (by decide)
  · rw [keyPathXOnly_iff generator_ne_zero]
    decide +kernel

end Counterexample

end Pvugc.Bitcoin
