import Pvugc.Groth16.Keys
import Pvugc.Sp1Bridge.GnarkPoint

namespace Pvugc.Sp1Bridge
open Pvugc.Algebra Pvugc.Encoding

abbrev Sp1Groth16Proof := Groth16.Proof G1Affine G2Affine

abbrev Sp1VerifyingKey := Groth16.VerifyingKey G1Affine G2Affine

def g1RawSize : ℕ := 96

def g2RawSize : ℕ := 192

/-- What the reads of a key report; a slice out of bounds would panic. -/
def vkErrors : ReadErrors Fault where
  tooShort message := .error (.invalidVkFormat message)
  overflow message := .error (.invalidVkFormat message)
  outOfBounds := .panic

section Code

variable (inG1 : Fq → Fq → Bool) (inG2 : Fq2 → Fq2 → Bool)

def parseGnarkProofBls12377 (rawProof : List UInt8) : Except Fault Sp1Groth16Proof := do
  let slice := slice vkErrors rawProof
  let min := g1RawSize + g2RawSize + g1RawSize
  if rawProof.length < min then
    throw (.error (.invalidProofFormat
      s!"Proof too short: need at least {min} bytes, got {rawProof.length}"))
  let a ← parseG1AffineGnarkRaw inG1 (← slice 0 g1RawSize)
  let b ← parseG2AffineGnarkRaw inG2 (← slice g1RawSize (g1RawSize + g2RawSize))
  let c ← parseG1AffineGnarkRaw inG1
    (← slice (g1RawSize + g2RawSize) (g1RawSize + g2RawSize + g1RawSize))
  return ⟨a, b, c⟩

variable (rawVk : List UInt8)

/-- A four-byte count at an offset. -/
def readU32 (offset : ℕ) (message : String) : Except Fault ℕ := do
  if offset + 4 > rawVk.length then throw (.error (.invalidVkFormat message))
  return beValue (← slice vkErrors rawVk offset (offset + 4))

/-- The points of `K` lie one after the other. -/
def parseK (offset kLen : ℕ) : Except Fault (List G1Affine) :=
  (List.range' offset kLen g1RawSize).mapM fun start => do
    parseG1AffineGnarkRaw inG1 (← slice vkErrors rawVk start (start + g1RawSize))

/-- The product of two machine words, if it is one. -/
def checkedMul (a b : ℕ) : Option ℕ := if a * b < 2 ^ 64 then some (a * b) else none

/-- The loop over the inner lists of `publicCommitted`, which returns the offset behind them. -/
def skipCommitted : ℕ → ℕ → Except Fault ℕ
  | 0, offset => return offset
  | outerLen + 1, offset => do
      let innerLen ← readU32 rawVk offset "VK truncated in publicCommitted"
      let offset := offset + 4
      match checkedMul innerLen 8 with
      | none => throw (.error (.invalidVkFormat "publicCommitted too large"))
      | some bytes =>
          if offset + bytes > rawVk.length then
            throw (.error (.invalidVkFormat "VK truncated in publicCommitted inner"))
          else skipCommitted outerLen (offset + bytes)

def parseGnarkVkBls12377 : Except Fault Sp1VerifyingKey := do
  let slice := slice vkErrors rawVk
  let min := 96 + 96 + 192 + 192 + 96 + 192 + 4 + 96
  if rawVk.length < min then
    throw (.error (.invalidVkFormat
      s!"VK too short: {rawVk.length} bytes, need at least {min}"))
  let offset := 0
  let alphaG1 ← parseG1AffineGnarkRaw inG1 (← slice offset (offset + g1RawSize))
  let offset := offset + g1RawSize
  -- the first skipped point is `G1.Beta`
  let offset := offset + g1RawSize
  let betaG2 ← parseG2AffineGnarkRaw inG2 (← slice offset (offset + g2RawSize))
  let offset := offset + g2RawSize
  let gammaG2 ← parseG2AffineGnarkRaw inG2 (← slice offset (offset + g2RawSize))
  let offset := offset + g2RawSize
  -- the second one is `G1.Delta`
  let offset := offset + g1RawSize
  let deltaG2 ← parseG2AffineGnarkRaw inG2 (← slice offset (offset + g2RawSize))
  let offset := offset + g2RawSize
  let kLen ← readU32 rawVk offset "VK missing K length"
  let offset := offset + 4
  if offset + kLen * g1RawSize > rawVk.length then
    throw (.error (.invalidVkFormat "VK truncated in K points"))
  let gammaAbcG1 ← parseK inG1 rawVk offset kLen
  let offset := offset + kLen * g1RawSize
  let outerLen ← readU32 rawVk offset "VK missing publicCommitted"
  let offset := offset + 4
  let offset ← skipCommitted rawVk outerLen offset
  let nbCommitments ← readU32 rawVk offset "VK missing nbCommitments"
  if nbCommitments ≠ 0 then
    throw (.error (.invalidVkFormat
      "Commitment keys not supported in PVUGC bridge (expected nbCommitments=0)"))
  return ⟨alphaG1, betaG2, gammaG2, deltaG2, gammaAbcG1⟩

end Code

section Encode

/-- A length in four big-endian bytes. -/
def writeU32 (n : ℕ) : List UInt8 := toBeBytes 4 n

def writeG1 (p : G1Affine) : List UInt8 := (g1Curve fun _ _ => true).writeRaw p

def writeG2 (p : G2Affine) : List UInt8 := (g2Curve fun _ _ => true).writeRaw p

/-- The first fields of a raw proof; commitments may follow. -/
def writeProof (proof : Sp1Groth16Proof) : List UInt8 :=
  writeG1 proof.a ++ writeG2 proof.b ++ writeG1 proof.c

def writeInner (inner : List UInt64) : List UInt8 :=
  writeU32 inner.length ++ inner.flatMap fun index => toBeBytes 8 index.toNat

/-- The committed indices, and no commitment key. -/
def writeCommitted (publicCommitted : List (List UInt64)) : List UInt8 :=
  writeU32 publicCommitted.length ++ publicCommitted.flatMap writeInner ++ writeU32 0

/-- A raw key, with the encodings of the two skipped points and the points of `K` behind their number. -/
def writeVk (vk : Sp1VerifyingKey) (betaG1 deltaG1 : List UInt8) (publicCommitted : List (List UInt64)) :
    List UInt8 :=
  writeG1 vk.alphaG1 ++ betaG1 ++ writeG2 vk.betaG2 ++ writeG2 vk.gammaG2 ++ deltaG1 ++ writeG2 vk.deltaG2 ++
    writeU32 vk.gammaAbcG1.length ++ vk.gammaAbcG1.flatMap writeG1 ++ writeCommitted publicCommitted

end Encode

section Exact

variable {inG1 : Fq → Fq → Bool} {inG2 : Fq2 → Fq2 → Bool} {raw : List UInt8}

/-- The bytes of a point at an offset. -/
def window (raw : List UInt8) (start size : ℕ) : List UInt8 := (raw.drop start).take size

theorem window_length {start size : ℕ} (inside : start + size ≤ raw.length) :
    (window raw start size).length = size := by
  rw [window, List.length_take, List.length_drop]
  omega

theorem window_eq_iff {start size : ℕ} {bytes : List UInt8} (length : bytes.length = size) :
    window raw start size = bytes ↔ bytes <+: raw.drop start := by
  rw [List.prefix_iff_eq_take, length, window, eq_comm]

theorem writeG1_length (p : G1Affine) : (writeG1 p).length = g1RawSize := RawCurve.writeRaw_length _ p

theorem writeG2_length (p : G2Affine) : (writeG2 p).length = g2RawSize := RawCurve.writeRaw_length _ p

/-- A point is read exactly where its encoding starts at the offset. -/
theorem parseG1_window_iff {start : ℕ} {p : G1Affine} (inside : start + g1RawSize ≤ raw.length) :
    parseG1AffineGnarkRaw inG1 (window raw start g1RawSize) = .ok p ↔
      (g1Curve inG1).InGroup p ∧ writeG1 p <+: raw.drop start := by
  have length : (window raw start g1RawSize).length = (g1Curve inG1).rawSize := window_length inside
  rw [parseG1AffineGnarkRaw, RawCurve.parseRaw_eq_ok_iff length, ← window_eq_iff (writeG1_length p)]
  cases p <;> rfl

theorem parseG2_window_iff {start : ℕ} {p : G2Affine} (inside : start + g2RawSize ≤ raw.length) :
    parseG2AffineGnarkRaw inG2 (window raw start g2RawSize) = .ok p ↔
      (g2Curve inG2).InGroup p ∧ writeG2 p <+: raw.drop start := by
  have length : (window raw start g2RawSize).length = (g2Curve inG2).rawSize := window_length inside
  rw [parseG2AffineGnarkRaw, RawCurve.parseRaw_eq_ok_iff length, ← window_eq_iff (writeG2_length p)]
  cases p <;> rfl

theorem readU32_of_inside {offset : ℕ} (message : String) (inside : offset + 4 ≤ raw.length) :
    readU32 raw offset message = .ok (beValue (window raw offset 4)) := by
  simp [readU32, slice_eq_ok vkErrors raw inside, Nat.not_lt.mpr inside, window]

theorem readU32_eq_ok_iff {offset n : ℕ} {message : String} :
    readU32 raw offset message = .ok n ↔
      offset + 4 ≤ raw.length ∧ n < 2 ^ 32 ∧ writeU32 n <+: raw.drop offset := by
  by_cases inside : offset + 4 ≤ raw.length
  · have room : (LengthCode.bigEndian 4).width ≤ (raw.drop offset).length := by
      rw [List.length_drop]
      change 4 ≤ _
      omega
    have decoded := (LengthCode.bigEndian 4).decode_take_eq_iff room (n := n)
    rw [readU32_of_inside message inside, Except.ok.injEq]
    exact decoded.trans (and_iff_right inside).symm
  · have read : readU32 raw offset message = .error (.error (.invalidVkFormat message)) := by
      simp [readU32, Nat.lt_of_not_le inside]
      rfl
    rw [read]
    simp [inside]

theorem readU32_ne_panic (offset : ℕ) (message : String) : readU32 raw offset message ≠ .error .panic := by
  by_cases inside : offset + 4 ≤ raw.length
  · rw [readU32_of_inside message inside]
    simp
  · simp [readU32, Nat.lt_of_not_le inside]
    exact Fault.noConfusion ∘ Except.error.inj

/-- Words of eight bytes. -/
theorem exists_words (count : ℕ) {bytes : List UInt8} (length : bytes.length = count * 8) :
    ∃ words : List UInt64, words.length = count ∧ (words.flatMap fun word => toBeBytes 8 word.toNat) = bytes := by
  induction count generalizing bytes with
  | zero =>
      rw [Nat.zero_mul, List.length_eq_zero_iff] at length
      exact ⟨[], rfl, length.symm⟩
  | succ count inductionHypothesis =>
      have rest : (bytes.drop 8).length = count * 8 := by
        rw [List.length_drop, length]
        omega
      obtain ⟨words, many, written⟩ := inductionHypothesis rest
      have first : (bytes.take 8).length = 8 := by
        rw [List.length_take, length]
        omega
      have small : beValue (bytes.take 8) < 2 ^ 64 := by
        have bound := beValue_lt (bytes.take 8)
        rwa [first] at bound
      refine ⟨UInt64.ofNat (beValue (bytes.take 8)) :: words, by rw [List.length_cons, many], ?_⟩
      have head : toBeBytes 8 (beValue (bytes.take 8)) = bytes.take 8 := by
        have back := toBeBytes_beValue (bytes.take 8)
        rwa [first] at back
      rw [List.flatMap_cons, written, UInt64.toNat_ofNat_of_lt' small, head, List.take_append_drop]

theorem words_length (words : List UInt64) :
    (words.flatMap fun word => toBeBytes 8 word.toNat).length = words.length * 8 := by
  induction words with
  | nil => rfl
  | cons word words inductionHypothesis =>
      rw [List.flatMap_cons, List.length_append, inductionHypothesis, toBeBytes_length, List.length_cons]
      omega

theorem writeInner_length (words : List UInt64) : (writeInner words).length = 4 + words.length * 8 := by
  rw [writeInner, List.length_append, words_length, writeU32, toBeBytes_length]

theorem prefix_bound {offset : ℕ} {bytes : List UInt8} (inside : offset ≤ raw.length)
    (starts : bytes <+: raw.drop offset) : offset + bytes.length ≤ raw.length := by
  have reach := starts.length_le
  rw [List.length_drop] at reach
  omega

theorem checkedMul_eight {n : ℕ} (small : n < 2 ^ 32) : checkedMul n 8 = some (n * 8) :=
  if_pos (by omega)

/-- The loop ends exactly behind the encodings of its inner lists. -/
theorem skipCommitted_eq_ok_iff {outerLen offset next : ℕ} (inside : offset ≤ raw.length) :
    skipCommitted raw outerLen offset = .ok next ↔
      ∃ inners : List (List UInt64), inners.length = outerLen ∧ (∀ inner ∈ inners, inner.length < 2 ^ 32) ∧
        inners.flatMap writeInner <+: raw.drop offset ∧ next = offset + (inners.flatMap writeInner).length := by
  induction outerLen generalizing offset with
  | zero =>
      simp only [skipCommitted, List.length_eq_zero_iff, exists_eq_left]
      constructor
      · intro done
        cases done
        exact ⟨by simp, List.nil_prefix, rfl⟩
      · rintro ⟨-, -, rfl⟩
        rfl
  | succ outerLen inductionHypothesis =>
      simp only [skipCommitted, bind_eq_ok, readU32_eq_ok_iff]
      constructor
      · rintro ⟨innerLen, ⟨header, small, starts⟩, rest⟩
        simp only [checkedMul_eight small] at rest
        split at rest
        case isTrue => cases rest
        case isFalse fits =>
          have bound : offset + 4 + innerLen * 8 ≤ raw.length := Nat.le_of_not_lt fits
          obtain ⟨inners, many, smalls, follows, rfl⟩ := (inductionHypothesis bound).mp rest
          obtain ⟨words, count, written⟩ := exists_words innerLen (window_length bound)
          have inner : writeInner words <+: raw.drop offset := by
            rw [writeInner, count, written, append_prefix_iff, writeU32, toBeBytes_length, List.drop_drop]
            exact ⟨starts, List.take_prefix _ _⟩
          have length : (writeInner words).length = 4 + innerLen * 8 := by rw [writeInner_length, count]
          refine ⟨words :: inners, by rw [List.length_cons, many], ?_, ?_, ?_⟩
          · simpa [count] using ⟨small, smalls⟩
          · rw [List.flatMap_cons, append_prefix_iff, length, List.drop_drop, ← Nat.add_assoc]
            exact ⟨inner, follows⟩
          · rw [List.flatMap_cons, List.length_append, length]
            omega
      · rintro ⟨inners, many, smalls, starts, rfl⟩
        cases inners with
        | nil => cases many
        | cons words inners =>
          rw [List.flatMap_cons, append_prefix_iff, writeInner_length, List.drop_drop] at starts
          obtain ⟨inner, follows⟩ := starts
          have bound : offset + 4 + words.length * 8 ≤ raw.length := by
            have reach := prefix_bound inside inner
            rwa [writeInner_length, ← Nat.add_assoc] at reach
          have small : words.length < 2 ^ 32 := smalls words (List.mem_cons_self ..)
          refine ⟨words.length, ⟨by omega, small, (List.prefix_append _ _).trans inner⟩, ?_⟩
          simp only [checkedMul_eight small]
          rw [if_neg (Nat.not_lt.mpr bound)]
          refine (inductionHypothesis bound).mpr ⟨inners, Nat.succ.inj many,
            fun inner member => smalls inner (List.mem_cons_of_mem _ member), ?_, ?_⟩
          · rwa [Nat.add_assoc]
          · rw [List.flatMap_cons, List.length_append, writeInner_length]
            omega

theorem skipCommitted_ne_panic (outerLen offset : ℕ) : skipCommitted raw outerLen offset ≠ .error .panic := by
  induction outerLen generalizing offset with
  | zero => simp [skipCommitted, pure, Except.pure]
  | succ outerLen inductionHypothesis =>
      intro panics
      rw [skipCommitted, bind_eq_panic] at panics
      rcases panics with header | ⟨innerLen, -, rest⟩
      · exact readU32_ne_panic _ _ header
      · dsimp only at rest
        split at rest
        case h_1 => cases rest
        case h_2 bytes _ =>
          split at rest
          case isTrue => cases rest
          case isFalse => exact inductionHypothesis _ rest

/-- The points of `K` are read exactly where their encodings follow each other. -/
theorem parseK_eq_ok_iff {offset kLen : ℕ} {points : List G1Affine}
    (inside : offset + kLen * g1RawSize ≤ raw.length) :
    parseK inG1 raw offset kLen = .ok points ↔
      points.length = kLen ∧ (∀ p ∈ points, (g1Curve inG1).InGroup p) ∧
        points.flatMap writeG1 <+: raw.drop offset := by
  induction kLen generalizing offset points with
  | zero =>
      rw [parseK, List.range'_zero, List.mapM_nil, List.length_eq_zero_iff]
      constructor
      · intro done
        cases done
        exact ⟨rfl, by simp, List.nil_prefix⟩
      · rintro ⟨rfl, -, -⟩
        rfl
  | succ kLen inductionHypothesis =>
      have first : offset + g1RawSize ≤ raw.length := by
        rw [Nat.add_one_mul] at inside
        omega
      have rest : offset + g1RawSize + kLen * g1RawSize ≤ raw.length := by
        rw [Nat.add_one_mul] at inside
        omega
      have later := @inductionHypothesis (offset + g1RawSize)
      rw [parseK] at later
      rw [parseK, List.range'_succ, List.mapM_cons, slice_eq_ok vkErrors raw first, ok_bind]
      simp only [bind_eq_ok, later rest]
      constructor
      · rintro ⟨p, head, ps, ⟨many, members, follows⟩, whole⟩
        cases whole
        obtain ⟨member, starts⟩ := (parseG1_window_iff first).mp head
        refine ⟨by rw [List.length_cons, many], by simpa using ⟨member, members⟩, ?_⟩
        rw [List.flatMap_cons, append_prefix_iff, writeG1_length, List.drop_drop]
        exact ⟨starts, follows⟩
      · rintro ⟨many, members, starts⟩
        cases points with
        | nil => cases many
        | cons p ps =>
          rw [List.flatMap_cons, append_prefix_iff, writeG1_length, List.drop_drop] at starts
          obtain ⟨member, others⟩ := List.forall_mem_cons.mp members
          exact ⟨p, (parseG1_window_iff first).mpr ⟨member, starts.1⟩, ps,
            ⟨Nat.succ.inj many, others, starts.2⟩, rfl⟩

theorem parseGnarkVk_of_short (short : raw.length < 964) : parseGnarkVkBls12377 inG1 inG2 raw =
    .error (.error (.invalidVkFormat s!"VK too short: {raw.length} bytes, need at least {964}")) := by
  unfold parseGnarkVkBls12377
  dsimp only
  rw [if_pos short]
  rfl

/-- What the parser does behind the points of fixed position. -/
def parseBehindPoints (inG1 : Fq → Fq → Bool) (raw : List UInt8) : Except Fault (List G1Affine) := do
  let kLen ← readU32 raw 864 "VK missing K length"
  if 868 + kLen * g1RawSize > raw.length then throw (.error (.invalidVkFormat "VK truncated in K points"))
  else
    let gammaAbcG1 ← parseK inG1 raw 868 kLen
    let outerLen ← readU32 raw (868 + kLen * g1RawSize) "VK missing publicCommitted"
    let offset ← skipCommitted raw outerLen (868 + kLen * g1RawSize + 4)
    let nbCommitments ← readU32 raw offset "VK missing nbCommitments"
    if nbCommitments ≠ 0 then
      throw (.error (.invalidVkFormat
        "Commitment keys not supported in PVUGC bridge (expected nbCommitments=0)"))
    else return gammaAbcG1

/-- Behind its length check, the parser reads windows of the key. -/
theorem parseGnarkVk_of_length (long : 964 ≤ raw.length) : parseGnarkVkBls12377 inG1 inG2 raw = (do
    let alphaG1 ← parseG1AffineGnarkRaw inG1 (window raw 0 g1RawSize)
    let betaG2 ← parseG2AffineGnarkRaw inG2 (window raw 192 g2RawSize)
    let gammaG2 ← parseG2AffineGnarkRaw inG2 (window raw 384 g2RawSize)
    let deltaG2 ← parseG2AffineGnarkRaw inG2 (window raw 672 g2RawSize)
    let gammaAbcG1 ← parseBehindPoints inG1 raw
    return ⟨alphaG1, betaG2, gammaG2, deltaG2, gammaAbcG1⟩) := by
  have slices {start len : ℕ} (inside : start + len ≤ 964) :
      slice vkErrors raw start (start + len) = .ok (window raw start len) :=
    slice_eq_ok vkErrors raw (inside.trans long)
  have behind : 0 + g1RawSize + g1RawSize + g2RawSize + g2RawSize + g1RawSize + g2RawSize + 4 = 868 := rfl
  unfold parseGnarkVkBls12377 parseBehindPoints
  simp (disch := decide) only [slices, ok_bind, if_neg (Nat.not_lt.mpr long), behind]
  refine bind_congr fun alphaG1 => bind_congr fun betaG2 => bind_congr fun gammaG2 => bind_congr fun deltaG2 => ?_
  rw [bind_assoc]
  refine bind_congr fun kLen => ?_
  split
  case isTrue => rfl
  case isFalse =>
    simp only [bind_assoc]
    refine bind_congr fun gammaAbcG1 => bind_congr fun outerLen => bind_congr fun offset => bind_congr fun nb => ?_
    split <;> rfl

/-- Each length of the key has four bytes. -/
structure VkFits (vk : Sp1VerifyingKey) (publicCommitted : List (List UInt64)) : Prop where
  gammaAbcG1 : vk.gammaAbcG1.length < 2 ^ 32
  outer : publicCommitted.length < 2 ^ 32
  inner : ∀ inner ∈ publicCommitted, inner.length < 2 ^ 32

/-- The points of a key belong to their groups. -/
structure VkInGroup (inG1 : Fq → Fq → Bool) (inG2 : Fq2 → Fq2 → Bool) (vk : Sp1VerifyingKey) : Prop where
  alphaG1 : (g1Curve inG1).InGroup vk.alphaG1
  betaG2 : (g2Curve inG2).InGroup vk.betaG2
  gammaG2 : (g2Curve inG2).InGroup vk.gammaG2
  deltaG2 : (g2Curve inG2).InGroup vk.deltaG2
  gammaAbcG1 : ∀ p ∈ vk.gammaAbcG1, (g1Curve inG1).InGroup p

structure ProofInGroup (inG1 : Fq → Fq → Bool) (inG2 : Fq2 → Fq2 → Bool) (proof : Sp1Groth16Proof) : Prop where
  a : (g1Curve inG1).InGroup proof.a
  b : (g2Curve inG2).InGroup proof.b
  c : (g1Curve inG1).InGroup proof.c

theorem flatMap_writeG1_length (points : List G1Affine) :
    (points.flatMap writeG1).length = points.length * g1RawSize := by
  induction points with
  | nil => rfl
  | cons p points inductionHypothesis =>
      rw [List.flatMap_cons, List.length_append, writeG1_length, inductionHypothesis, List.length_cons]
      ring

/-- Behind the fixed points, the parser reads exactly the points of `K` and lists without commitment keys. -/
theorem parseBehindPoints_eq_ok_iff {points : List G1Affine} (inside : 868 ≤ raw.length) :
    parseBehindPoints inG1 raw = .ok points ↔
      (∀ p ∈ points, (g1Curve inG1).InGroup p) ∧ points.length < 2 ^ 32 ∧
        ∃ committed : List (List UInt64), committed.length < 2 ^ 32 ∧
          (∀ inner ∈ committed, inner.length < 2 ^ 32) ∧
          writeU32 points.length ++ (points.flatMap writeG1 ++ writeCommitted committed) <+: raw.drop 864 := by
  have u32Length (n : ℕ) : (writeU32 n).length = 4 := toBeBytes_length 4 n
  simp only [parseBehindPoints, bind_eq_ok, readU32_eq_ok_iff, append_prefix_iff, List.drop_drop, u32Length,
    writeCommitted, flatMap_writeG1_length, List.length_append, Nat.reduceAdd]
  constructor
  · rintro ⟨kLen, ⟨-, small, starts⟩, rest⟩
    split at rest
    case isTrue => cases rest
    case isFalse fits =>
      have bound : 868 + kLen * g1RawSize ≤ raw.length := Nat.le_of_not_lt fits
      simp only [bind_eq_ok, readU32_eq_ok_iff] at rest
      obtain ⟨ps, read, outerLen, ⟨header, outerSmall, outerStarts⟩, offset, skipped, nb, last, whole⟩ := rest
      obtain ⟨many, members, follows⟩ := (parseK_eq_ok_iff bound).mp read
      obtain ⟨inners, count, smalls, inner, rfl⟩ := (skipCommitted_eq_ok_iff header).mp skipped
      split at whole
      case isTrue => cases whole
      case isFalse none =>
        cases whole
        rw [not_not.mp none] at last
        subst many count
        exact ⟨members, small, inners, outerSmall, smalls, starts, follows, ⟨outerStarts, inner⟩, by
          rw [Nat.add_assoc _ 4] at last; exact last.2.2⟩
  · rintro ⟨members, small, inners, outerSmall, smalls, starts, follows, ⟨outerStarts, inner⟩, none⟩
    have bound : 868 + points.length * g1RawSize ≤ raw.length := by
      rw [← flatMap_writeG1_length]
      exact prefix_bound inside follows
    have header : 868 + points.length * g1RawSize + 4 ≤ raw.length := by
      have reach := prefix_bound bound outerStarts
      rwa [u32Length] at reach
    have behind := prefix_bound header inner
    rw [← Nat.add_assoc] at none
    have last := prefix_bound behind none
    rw [u32Length] at last
    refine ⟨points.length, ⟨inside, small, starts⟩, ?_⟩
    rw [if_neg (Nat.not_lt.mpr bound)]
    simp only [bind_eq_ok, readU32_eq_ok_iff]
    exact ⟨points, (parseK_eq_ok_iff bound).mpr ⟨rfl, members, follows⟩, inners.length,
      ⟨header, outerSmall, outerStarts⟩, _, (skipCommitted_eq_ok_iff header).mpr ⟨inners, rfl, smalls, inner, rfl⟩,
      0, ⟨last, by decide, none⟩, rfl⟩

/-- The parts of a raw key lie at fixed offsets up to the number of points. -/
theorem writeVk_prefix_iff {vk : Sp1VerifyingKey} {betaG1 deltaG1 : List UInt8}
    {committed : List (List UInt64)} (betaLength : betaG1.length = g1RawSize)
    (deltaLength : deltaG1.length = g1RawSize) :
    writeVk vk betaG1 deltaG1 committed <+: raw ↔
      writeG1 vk.alphaG1 <+: raw.drop 0 ∧ betaG1 <+: raw.drop 96 ∧ writeG2 vk.betaG2 <+: raw.drop 192 ∧
        writeG2 vk.gammaG2 <+: raw.drop 384 ∧ deltaG1 <+: raw.drop 576 ∧ writeG2 vk.deltaG2 <+: raw.drop 672 ∧
        writeU32 vk.gammaAbcG1.length ++ (vk.gammaAbcG1.flatMap writeG1 ++ writeCommitted committed) <+:
          raw.drop 864 := by
  rw [writeVk]
  simp only [List.append_assoc]
  rw [append_prefix_iff, append_prefix_iff, append_prefix_iff, append_prefix_iff, append_prefix_iff,
    append_prefix_iff]
  simp only [List.drop_drop, writeG1_length, writeG2_length, betaLength, deltaLength]
  rfl

/-- The key parser reads exactly the raw keys in the groups that are long enough. -/
theorem parseGnarkVk_eq_ok_iff {vk : Sp1VerifyingKey} :
    parseGnarkVkBls12377 inG1 inG2 raw = .ok vk ↔
      964 ≤ raw.length ∧ VkInGroup inG1 inG2 vk ∧
        ∃ (betaG1 deltaG1 : List UInt8) (committed : List (List UInt64)), betaG1.length = g1RawSize ∧
          deltaG1.length = g1RawSize ∧ VkFits vk committed ∧ writeVk vk betaG1 deltaG1 committed <+: raw := by
  by_cases long : 964 ≤ raw.length
  · rw [parseGnarkVk_of_length long]
    have inside {start size : ℕ} (bound : start + size ≤ 964) : start + size ≤ raw.length := bound.trans long
    simp only [bind_eq_ok, parseG1_window_iff (inside (show 0 + g1RawSize ≤ 964 by decide)),
      parseG2_window_iff (inside (show 192 + g2RawSize ≤ 964 by decide)),
      parseG2_window_iff (inside (show 384 + g2RawSize ≤ 964 by decide)),
      parseG2_window_iff (inside (show 672 + g2RawSize ≤ 964 by decide)),
      parseBehindPoints_eq_ok_iff (show 868 ≤ raw.length by omega)]
    constructor
    · rintro ⟨alphaG1, ⟨alphaIn, alpha⟩, betaG2, ⟨betaIn, beta⟩, gammaG2, ⟨gammaIn, gamma⟩, deltaG2,
        ⟨deltaIn, delta⟩, points, ⟨members, small, committed, outer, inner, behind⟩, whole⟩
      cases whole
      have betaLength := window_length (inside (show 96 + g1RawSize ≤ 964 by decide))
      have deltaLength := window_length (inside (show 576 + g1RawSize ≤ 964 by decide))
      refine ⟨long, ⟨alphaIn, betaIn, gammaIn, deltaIn, members⟩, window raw 96 g1RawSize, window raw 576 g1RawSize,
        committed, betaLength, deltaLength, ⟨small, outer, inner⟩, ?_⟩
      exact (writeVk_prefix_iff betaLength deltaLength).mpr
        ⟨alpha, List.take_prefix _ _, beta, gamma, List.take_prefix _ _, delta, behind⟩
    · rintro ⟨-, members, betaG1, deltaG1, committed, betaLength, deltaLength, fits, starts⟩
      obtain ⟨alpha, -, beta, gamma, -, delta, behind⟩ := (writeVk_prefix_iff betaLength deltaLength).mp starts
      exact ⟨vk.alphaG1, ⟨members.alphaG1, alpha⟩, vk.betaG2, ⟨members.betaG2, beta⟩, vk.gammaG2,
        ⟨members.gammaG2, gamma⟩, vk.deltaG2, ⟨members.deltaG2, delta⟩, vk.gammaAbcG1,
        ⟨members.gammaAbcG1, fits.gammaAbcG1, committed, fits.outer, fits.inner, behind⟩, rfl⟩
  · refine iff_of_false ?_ fun exact => long exact.1
    rw [parseGnarkVk_of_short (Nat.lt_of_not_le long)]
    simp

theorem parseGnarkProof_of_short (short : raw.length < 384) : parseGnarkProofBls12377 inG1 inG2 raw =
    .error (.error (.invalidProofFormat s!"Proof too short: need at least {384} bytes, got {raw.length}")) := by
  unfold parseGnarkProofBls12377
  dsimp only
  rw [if_pos (show raw.length < g1RawSize + g2RawSize + g1RawSize from short)]
  rfl

theorem parseGnarkProof_of_length (long : 384 ≤ raw.length) : parseGnarkProofBls12377 inG1 inG2 raw = (do
    let a ← parseG1AffineGnarkRaw inG1 (window raw 0 g1RawSize)
    let b ← parseG2AffineGnarkRaw inG2 (window raw 96 g2RawSize)
    let c ← parseG1AffineGnarkRaw inG1 (window raw 288 g1RawSize)
    return ⟨a, b, c⟩) := by
  have slices {start len : ℕ} (inside : start + len ≤ 384) :
      slice vkErrors raw start (start + len) = .ok (window raw start len) :=
    slice_eq_ok vkErrors raw (inside.trans long)
  have first : slice vkErrors raw 0 g1RawSize = .ok (window raw 0 g1RawSize) :=
    @slices 0 g1RawSize (by decide)
  unfold parseGnarkProofBls12377
  simp (disch := decide) only [first, slices, ok_bind,
    if_neg (Nat.not_lt.mpr (show g1RawSize + g2RawSize + g1RawSize ≤ raw.length from long))]
  rfl

/-- The proof parser reads exactly the raw proofs in the groups, whatever follows them. -/
theorem parseGnarkProof_eq_ok_iff {proof : Sp1Groth16Proof} :
    parseGnarkProofBls12377 inG1 inG2 raw = .ok proof ↔
      ProofInGroup inG1 inG2 proof ∧ writeProof proof <+: raw := by
  have starts : writeProof proof <+: raw ↔ writeG1 proof.a <+: raw.drop 0 ∧ writeG2 proof.b <+: raw.drop 96 ∧
      writeG1 proof.c <+: raw.drop 288 := by
    rw [writeProof, List.append_assoc, append_prefix_iff, append_prefix_iff, List.drop_drop, writeG1_length,
      writeG2_length]
    rfl
  by_cases long : 384 ≤ raw.length
  · have inside {start size : ℕ} (bound : start + size ≤ 384) : start + size ≤ raw.length := bound.trans long
    rw [parseGnarkProof_of_length long, starts]
    simp only [bind_eq_ok, parseG1_window_iff (inside (show 0 + g1RawSize ≤ 384 by decide)),
      parseG2_window_iff (inside (show 96 + g2RawSize ≤ 384 by decide)),
      parseG1_window_iff (inside (show 288 + g1RawSize ≤ 384 by decide))]
    constructor
    · rintro ⟨a, ⟨aIn, first⟩, b, ⟨bIn, second⟩, c, ⟨cIn, third⟩, whole⟩
      cases whole
      exact ⟨⟨aIn, bIn, cIn⟩, first, second, third⟩
    · rintro ⟨members, first, second, third⟩
      exact ⟨proof.a, ⟨members.a, first⟩, proof.b, ⟨members.b, second⟩, proof.c, ⟨members.c, third⟩, rfl⟩
  · refine iff_of_false ?_ fun exact => long ?_
    · rw [parseGnarkProof_of_short (Nat.lt_of_not_le long)]
      simp
    · have reach := exact.2.length_le
      rwa [writeProof, List.length_append, List.length_append, writeG1_length, writeG2_length, writeG1_length] at reach

/-- The raw encodings of a proof and of a key with points in `K`, with any bytes behind them, are read back. -/
theorem gnark_round_trip (inG1 : Fq → Fq → Bool) (inG2 : Fq2 → Fq2 → Bool) (proof : Sp1Groth16Proof)
    (vk : Sp1VerifyingKey) (betaG1 deltaG1 : G1Affine) (publicCommitted : List (List UInt64))
    (suffix suffix' : List UInt8) (proofIn : ProofInGroup inG1 inG2 proof) (vkIn : VkInGroup inG1 inG2 vk)
    (nonempty : vk.gammaAbcG1 ≠ []) (fits : VkFits vk publicCommitted) :
    parseGnarkProofBls12377 inG1 inG2 (writeProof proof ++ suffix) = .ok proof ∧
      parseGnarkVkBls12377 inG1 inG2
        (writeVk vk (writeG1 betaG1) (writeG1 deltaG1) publicCommitted ++ suffix') = .ok vk := by
  refine ⟨parseGnarkProof_eq_ok_iff.mpr ⟨proofIn, List.prefix_append _ _⟩, ?_⟩
  refine parseGnarkVk_eq_ok_iff.mpr ⟨?_, vkIn, writeG1 betaG1, writeG1 deltaG1, publicCommitted,
    writeG1_length betaG1, writeG1_length deltaG1, fits, List.prefix_append _ _⟩
  have points : g1RawSize ≤ vk.gammaAbcG1.length * g1RawSize :=
    Nat.le_mul_of_pos_left _ (List.length_pos_iff.mpr nonempty)
  simp only [writeVk, List.length_append, writeG1_length, writeG2_length, flatMap_writeG1_length, writeU32,
    toBeBytes_length]
  simp only [g1RawSize, g2RawSize] at points ⊢
  omega

/-- The generator of the first group. -/
def g1Generator : G1Affine := .point
  81937999373150964239938255573465948239988671502647976594219695644855304257327692006745978603320413799295628339695
  241266749859715473739788878240585681733927191168601896383759122102112907357779751001206799952863815012735208165030

theorem g1Generator_inGroup : (g1Curve fun _ _ => true).InGroup g1Generator := ⟨by decide, rfl⟩

/-- A proof and a key of the generator and infinity are read back. -/
theorem gnark_round_trip_generator :
    parseGnarkProofBls12377 (fun _ _ => true) (fun _ _ => true)
        (writeProof ⟨g1Generator, .infinity, .infinity⟩ ++ [7]) = .ok ⟨g1Generator, .infinity, .infinity⟩ ∧
      parseGnarkVkBls12377 (fun _ _ => true) (fun _ _ => true)
        (writeVk ⟨g1Generator, .infinity, .infinity, .infinity, [g1Generator, .infinity]⟩
          (writeG1 .infinity) (writeG1 g1Generator) [[0, 1], []] ++ []) =
        .ok ⟨g1Generator, .infinity, .infinity, .infinity, [g1Generator, .infinity]⟩ :=
  gnark_round_trip (fun _ _ => true) (fun _ _ => true) ⟨g1Generator, .infinity, .infinity⟩
    ⟨g1Generator, .infinity, .infinity, .infinity, [g1Generator, .infinity]⟩ .infinity g1Generator [[0, 1], []]
    [7] [] ⟨g1Generator_inGroup, ⟨rfl, rfl⟩, ⟨rfl, rfl⟩⟩
    ⟨g1Generator_inGroup, ⟨rfl, rfl⟩, ⟨rfl, rfl⟩, ⟨rfl, rfl⟩,
      List.forall_mem_cons.mpr ⟨g1Generator_inGroup, List.forall_mem_singleton.mpr ⟨rfl, rfl⟩⟩⟩
    (List.cons_ne_nil _ _) ⟨by decide, by decide, by decide⟩

end Exact

end Pvugc.Sp1Bridge
