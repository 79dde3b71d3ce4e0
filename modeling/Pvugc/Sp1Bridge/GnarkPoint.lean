import Mathlib.Algebra.QuadraticAlgebra.Basic
import Mathlib.Data.ZMod.Basic
import Pvugc.Encoding.Framing

namespace Pvugc.Sp1Bridge
open Pvugc.Algebra Pvugc.Encoding

/-- The errors of the bridge. -/
inductive Sp1BridgeError where
  | invalidProofFormat (message : String)
  | invalidVkFormat (message : String)
  | deserializationError (message : String)
  deriving DecidableEq, Repr

/-- A parser ends early with an error or with a panic. -/
inductive Fault where
  | error (error : Sp1BridgeError)
  | panic
  deriving DecidableEq, Repr

def gnarkMask : UInt8 := 0b11100000

def gnarkUncompressedInfinity : UInt8 := 0b01000000

def clearGnarkFlags (b0 : UInt8) : UInt8 := b0 &&& ~~~gnarkMask

theorem flag_eq_zero_of_lt (byte : UInt8) : byte.toNat < 32 → byte &&& gnarkMask = 0 := by
  apply byte_induction (P := fun byte => byte.toNat < 32 → byte &&& gnarkMask = 0)
  decide +kernel

theorem clearGnarkFlags_eq_self (byte : UInt8) : byte &&& gnarkMask = 0 → clearGnarkFlags byte = byte := by
  apply byte_induction (P := fun byte => byte &&& gnarkMask = 0 → clearGnarkFlags byte = byte)
  decide +kernel

/-- The infinity flag over clear value bits is one byte. -/
theorem infinity_byte_iff (byte : UInt8) :
    byte &&& gnarkMask = gnarkUncompressedInfinity ∧ byte &&& ~~~gnarkMask = 0 ↔
      byte = gnarkUncompressedInfinity := by
  apply byte_induction (P := fun byte => byte &&& gnarkMask = gnarkUncompressedInfinity ∧
    byte &&& ~~~gnarkMask = 0 ↔ byte = gnarkUncompressedInfinity)
  decide +kernel

/-- A coordinate field with its canonical bytes, whose first byte leaves the flag bits clear. -/
structure RawField (K : Type) where
  size : ℕ
  read : List UInt8 → Except Fault K
  write : K → List UInt8
  write_length : ∀ x, (write x).length = size
  write_flagless : ∀ x, ∃ first rest, write x = first :: rest ∧ first &&& gnarkMask = 0
  read_eq_ok_iff : ∀ bytes x, bytes.length = size → (read bytes = .ok x ↔ bytes = write x)
  read_ne_panic : ∀ bytes, read bytes ≠ .error .panic

section BaseField

def fqModulus : ℕ :=
  0x01ae3a4617c510eac63b05c06ca1493b1a22d9f300f5138f1ef3622fba094800170b5d44300000008508c00000000001

instance : NeZero fqModulus := ⟨by decide⟩

instance : Fact (1 < fqModulus) := ⟨by decide⟩

abbrev Fq := ZMod fqModulus

/-- The quadratic extension by a square root of minus five. -/
abbrev Fq2 := QuadraticAlgebra Fq (-5) 0

def parseFqBe48 (bytes48 : List UInt8) : Except Fault Fq := do
  if bytes48.length ≠ 48 then
    throw (.error (.deserializationError s!"Fq must be 48 bytes, got {bytes48.length}"))
  let fe : Fq := (beValue bytes48 : Fq)
  let canon := toBeBytes 48 fe.val
  if canon.length > 48 then throw (.error (.deserializationError "Invalid Fq encoding (too large)"))
  let canon48 := List.replicate (48 - canon.length) 0 ++ canon
  if canon48 ≠ bytes48 then throw (.error (.deserializationError "Non-canonical Fq encoding"))
  return fe

/-- The canonical big-endian bytes of a coordinate. -/
def writeFq (x : Fq) : List UInt8 := toBeBytes 48 x.val

theorem fq_val_lt (x : Fq) : x.val < 256 ^ 48 :=
  (ZMod.val_lt x).trans (by decide)

theorem parseFqBe48_of_length {bytes48 : List UInt8} (length : bytes48.length = 48) :
    parseFqBe48 bytes48 =
      if writeFq (beValue bytes48) = bytes48 then .ok (beValue bytes48 : Fq)
      else .error (.error (.deserializationError "Non-canonical Fq encoding")) := by
  by_cases canonical : writeFq (beValue bytes48) = bytes48
  · rw [if_pos canonical]
    rw [writeFq, ZMod.val_natCast] at canonical
    simp [parseFqBe48, length, canonical]
    rfl
  · rw [if_neg canonical]
    rw [writeFq, ZMod.val_natCast] at canonical
    simp [parseFqBe48, length, canonical]
    rfl

/-- Only the canonical bytes of a coordinate are read. -/
theorem parseFqBe48_eq_ok_iff (bytes48 : List UInt8) (x : Fq) (length : bytes48.length = 48) :
    parseFqBe48 bytes48 = .ok x ↔ bytes48 = writeFq x := by
  rw [parseFqBe48_of_length length]
  constructor
  · intro read
    split at read
    case isFalse => cases read
    case isTrue canonical =>
      cases read
      exact canonical.symm
  · intro written
    have value : (beValue bytes48 : Fq) = x := by
      rw [written, writeFq, beValue_toBeBytes (fq_val_lt x), ZMod.natCast_zmod_val]
    rw [value, if_pos written.symm]

theorem parseFqBe48_ne_panic (bytes48 : List UInt8) : parseFqBe48 bytes48 ≠ .error .panic := by
  by_cases length : bytes48.length = 48
  · rw [parseFqBe48_of_length length]
    split <;> simp
  · simp [parseFqBe48, length]
    exact Fault.noConfusion ∘ Except.error.inj

theorem writeFq_length (x : Fq) : (writeFq x).length = 48 := toBeBytes_length 48 x.val

/-- The modulus has 377 bits, so seven high bits of the first byte are clear. -/
theorem writeFq_flagless (x : Fq) : ∃ first rest, writeFq x = first :: rest ∧ first &&& gnarkMask = 0 := by
  refine ⟨_, _, toBeBytes_succ 47 x.val, flag_eq_zero_of_lt _ ?_⟩
  have small : x.val / 256 ^ 47 < 32 :=
    Nat.div_lt_of_lt_mul ((ZMod.val_lt x).trans (by decide))
  rw [UInt8.toNat_ofNat_of_lt' (small.trans (by decide))]
  exact small

def fqRaw : RawField Fq where
  size := 48
  read := parseFqBe48
  write := writeFq
  write_length := writeFq_length
  write_flagless := writeFq_flagless
  read_eq_ok_iff := parseFqBe48_eq_ok_iff
  read_ne_panic := parseFqBe48_ne_panic

end BaseField

section Bind

theorem bind_eq_ok {E A B : Type} {x : Except E A} {f : A → Except E B} {b : B} :
    (x >>= f) = .ok b ↔ ∃ a, x = .ok a ∧ f a = .ok b := by
  cases x with
  | error error => simp
  | ok a => simp

theorem bind_eq_panic {A B : Type} {x : Except Fault A} {f : A → Except Fault B} :
    (x >>= f) = .error .panic ↔ x = .error .panic ∨ ∃ a, x = .ok a ∧ f a = .error .panic := by
  cases x with
  | error error => simp
  | ok a => simp

end Bind

section Extension

/-- The two coefficients of an extension coordinate, the higher one first. -/
def parseFq2 (bytes : List UInt8) : Except Fault Fq2 := do
  let c1 ← parseFqBe48 (bytes.take 48)
  let c0 ← parseFqBe48 (bytes.drop 48)
  return ⟨c0, c1⟩

def writeFq2 (x : Fq2) : List UInt8 := writeFq x.im ++ writeFq x.re

theorem parseFq2_eq_ok_iff (bytes : List UInt8) (x : Fq2) (length : bytes.length = 96) :
    parseFq2 bytes = .ok x ↔ bytes = writeFq2 x := by
  have low : (bytes.take 48).length = 48 := by rw [List.length_take, length]; rfl
  have high : (bytes.drop 48).length = 48 := by rw [List.length_drop, length]
  simp only [parseFq2, bind_eq_ok]
  constructor
  · rintro ⟨c1, first, c0, second, whole⟩
    cases whole
    rw [parseFqBe48_eq_ok_iff _ _ low] at first
    rw [parseFqBe48_eq_ok_iff _ _ high] at second
    rw [writeFq2, ← first, ← second, List.take_append_drop]
  · intro written
    have first : bytes.take 48 = writeFq x.im := by
      rw [written, writeFq2, ← writeFq_length x.im, List.take_left]
    have second : bytes.drop 48 = writeFq x.re := by
      rw [written, writeFq2, ← writeFq_length x.im, List.drop_left]
    exact ⟨x.im, (parseFqBe48_eq_ok_iff _ _ low).mpr first, x.re,
      (parseFqBe48_eq_ok_iff _ _ high).mpr second, rfl⟩

theorem parseFq2_ne_panic (bytes : List UInt8) : parseFq2 bytes ≠ .error .panic := by
  intro panics
  simp only [parseFq2, bind_eq_panic] at panics
  rcases panics with first | ⟨c1, -, second | ⟨c0, -, last⟩⟩
  · exact parseFqBe48_ne_panic _ first
  · exact parseFqBe48_ne_panic _ second
  · cases last

def fq2Raw : RawField Fq2 where
  size := 96
  read := parseFq2
  write := writeFq2
  write_length x := by rw [writeFq2, List.length_append, writeFq_length, writeFq_length]
  write_flagless x := by
    obtain ⟨first, rest, written, flagless⟩ := writeFq_flagless x.im
    exact ⟨first, rest ++ writeFq x.re, by rw [writeFq2, written, List.cons_append], flagless⟩
  read_eq_ok_iff := parseFq2_eq_ok_iff
  read_ne_panic := parseFq2_ne_panic

end Extension

section Affine

inductive Affine (K : Type) where
  | infinity
  | point (x y : K)
  deriving DecidableEq, Repr

/-- A short curve with `a = 0`, and the subgroup test of the curve library. -/
structure RawCurve (K : Type) where
  name : String
  coordinates : RawField K
  b : K
  inSubgroup : K → K → Bool

variable {K : Type} (curve : RawCurve K)

/-- The bytes of an uncompressed point. -/
def RawCurve.rawSize : ℕ := 2 * curve.coordinates.size

/-- The uncompressed encoding of a point. -/
def RawCurve.writeRaw : Affine K → List UInt8
  | .infinity => gnarkUncompressedInfinity :: List.replicate (curve.rawSize - 1) 0
  | .point x y => curve.coordinates.write x ++ curve.coordinates.write y

theorem RawCurve.writeRaw_headD_infinity (curve : RawCurve K) :
    (curve.writeRaw .infinity).headD 0 &&& gnarkMask = gnarkUncompressedInfinity := by
  rw [writeRaw, List.headD_cons]
  decide

theorem RawCurve.writeRaw_headD_point (curve : RawCurve K) (x y : K) :
    (curve.writeRaw (.point x y)).headD 0 &&& gnarkMask = 0 := by
  obtain ⟨first, rest, written, flagless⟩ := curve.coordinates.write_flagless x
  rw [writeRaw, written, List.cons_append, List.headD_cons, flagless]

/-- The two halves of the bytes are read as coordinates exactly where the bytes encode their point. -/
theorem RawCurve.read_coordinates_iff (curve : RawCurve K) {bytes : List UInt8}
    (length : bytes.length = curve.rawSize) (x y : K) :
    curve.coordinates.read (bytes.take curve.coordinates.size) = .ok x ∧
        curve.coordinates.read (bytes.drop curve.coordinates.size) = .ok y ↔
      bytes = curve.writeRaw (.point x y) := by
  have low : (bytes.take curve.coordinates.size).length = curve.coordinates.size := by
    rw [List.length_take, length, rawSize]
    omega
  have high : (bytes.drop curve.coordinates.size).length = curve.coordinates.size := by
    rw [List.length_drop, length, rawSize]
    omega
  rw [curve.coordinates.read_eq_ok_iff _ _ low, curve.coordinates.read_eq_ok_iff _ _ high, writeRaw]
  constructor
  · intro ⟨first, second⟩
    rw [← first, ← second, List.take_append_drop]
  · intro encoded
    have cut : (curve.coordinates.write x).length = curve.coordinates.size := curve.coordinates.write_length x
    constructor
    · rw [encoded, ← cut, List.take_left]
    · rw [encoded, ← cut, List.drop_left]

variable [CommRing K]

theorem RawCurve.size_pos (curve : RawCurve K) : 0 < curve.coordinates.size := by
  obtain ⟨first, rest, written, -⟩ := curve.coordinates.write_flagless 0
  rw [← curve.coordinates.write_length 0, written]
  exact Nat.succ_pos _

theorem RawCurve.writeRaw_length (curve : RawCurve K) (p : Affine K) : (curve.writeRaw p).length = curve.rawSize := by
  have positive := curve.size_pos
  cases p with
  | infinity =>
      rw [writeRaw, List.length_cons, List.length_replicate, rawSize]
      omega
  | point x y =>
      rw [writeRaw, List.length_append, curve.coordinates.write_length, curve.coordinates.write_length, rawSize]
      omega

variable [DecidableEq K]

def RawCurve.isOnCurve : Affine K → Bool
  | .infinity => true
  | .point x y => y ^ 2 = x ^ 3 + curve.b

def RawCurve.isInCorrectSubgroup : Affine K → Bool
  | .infinity => true
  | .point x y => curve.inSubgroup x y

/-- The checked constructor of the curve library panics outside the curve or the subgroup. -/
def RawCurve.new (x y : K) : Except Fault (Affine K) :=
  if curve.isOnCurve (.point x y) ∧ curve.isInCorrectSubgroup (.point x y) then .ok (.point x y)
  else .error .panic

/-- The parser of uncompressed points, shared by the two groups. -/
def RawCurve.parseRaw (bytes : List UInt8) : Except Fault (Affine K) := do
  let size := curve.rawSize
  if bytes.length < size then
    throw (.error (.invalidProofFormat s!"{curve.name} raw should be {size} bytes, got {bytes.length}"))
  let b0 := bytes.headD 0
  let flag := b0 &&& gnarkMask
  if flag = gnarkUncompressedInfinity then
    if b0 &&& ~~~gnarkMask ≠ 0 ∨ (bytes.take size).tail.any (· ≠ 0) then
      throw (.error (.invalidProofFormat s!"Invalid {curve.name} infinity encoding"))
    return .infinity
  if flag ≠ 0 then
    throw (.error (.invalidProofFormat s!"Expected uncompressed {curve.name} encoding (WriteRawTo)"))
  let xBytes := (bytes.take curve.coordinates.size).modifyHead clearGnarkFlags
  let yBytes := (bytes.take size).drop curve.coordinates.size
  let x ← curve.coordinates.read xBytes
  let y ← curve.coordinates.read yBytes
  let p ← curve.new x y
  if !curve.isOnCurve p then throw (.error (.invalidProofFormat s!"{curve.name} not on curve"))
  if !curve.isInCorrectSubgroup p then
    throw (.error (.invalidProofFormat s!"{curve.name} not in correct subgroup"))
  return p

def RawCurve.InGroup (p : Affine K) : Prop := curve.isOnCurve p ∧ curve.isInCorrectSubgroup p

/-- Canonical coordinates of no point of the group. -/
def RawCurve.OffGroup (bytes : List UInt8) : Prop :=
  ∃ x y, bytes = curve.writeRaw (.point x y) ∧ ¬curve.InGroup (.point x y)

/-- The encoding of a point of the group. -/
def RawCurve.EncodesPoint (bytes : List UInt8) : Prop :=
  ∃ p, curve.InGroup p ∧ bytes = curve.writeRaw p

variable {curve}

/-- The two checks after the constructor never fail. -/
theorem RawCurve.new_checks (x y : K) : (do
    let p ← curve.new x y
    if !curve.isOnCurve p then throw (.error (.invalidProofFormat s!"{curve.name} not on curve"))
    if !curve.isInCorrectSubgroup p then
      throw (.error (.invalidProofFormat s!"{curve.name} not in correct subgroup"))
    return p) = curve.new x y := by
  unfold new
  split
  case isTrue member =>
    simp [member.1, member.2]
    rfl
  case isFalse => rfl

/-- With the flag bits clear, the parser reads two coordinates and constructs the point. -/
theorem RawCurve.parseRaw_affine {bytes : List UInt8} (length : bytes.length = curve.rawSize)
    (flagless : bytes.headD 0 &&& gnarkMask = 0) :
    curve.parseRaw bytes = (do
      let x ← curve.coordinates.read (bytes.take curve.coordinates.size)
      let y ← curve.coordinates.read (bytes.drop curve.coordinates.size)
      curve.new x y) := by
  have cleared : (bytes.take curve.coordinates.size).modifyHead clearGnarkFlags =
      bytes.take curve.coordinates.size := by
    cases bytes with
    | nil => simp
    | cons first rest =>
        cases size : curve.coordinates.size with
        | zero => rfl
        | succ n =>
          rw [List.take_succ_cons, List.modifyHead_cons, clearGnarkFlags_eq_self first flagless]
  have whole : bytes.take curve.rawSize = bytes := by rw [← length, List.take_length]
  have finite : ¬(0 : UInt8) = gnarkUncompressedInfinity := by decide
  simp only [parseRaw, flagless, length, lt_irrefl, finite, ↓reduceIte, cleared, whole]
  refine bind_congr fun x => bind_congr fun y => ?_
  exact new_checks x y

/-- Under the infinity flag, only the encoding of infinity is read. -/
theorem RawCurve.parseRaw_infinity {bytes : List UInt8} (length : bytes.length = curve.rawSize)
    (flag : bytes.headD 0 &&& gnarkMask = gnarkUncompressedInfinity) :
    curve.parseRaw bytes =
      if bytes = curve.writeRaw .infinity then .ok .infinity
      else .error (.error (.invalidProofFormat s!"Invalid {curve.name} infinity encoding")) := by
  have whole : bytes.take curve.rawSize = bytes := by rw [← length, List.take_length]
  have written : bytes = curve.writeRaw .infinity ↔
      ¬(bytes.headD 0 &&& ~~~gnarkMask ≠ 0 ∨ bytes.tail.any (· ≠ 0)) := by
    cases bytes with
    | nil =>
        have positive := curve.size_pos
        rw [List.length_nil, rawSize] at length
        omega
    | cons first rest =>
        have zeros : rest = List.replicate (curve.rawSize - 1) 0 ↔ ¬rest.any (· ≠ 0) := by
          rw [List.eq_replicate_iff, ← length, List.length_cons]
          simp
        rw [writeRaw, List.cons_eq_cons, ← infinity_byte_iff, zeros]
        simp only [List.headD_cons] at flag
        simp [flag]
  by_cases encoded : bytes = curve.writeRaw .infinity
  · rw [if_pos encoded]
    simp only [parseRaw, flag, length, lt_irrefl, ↓reduceIte, whole, written.mp encoded]
    rfl
  · rw [if_neg encoded]
    simp only [parseRaw, flag, length, lt_irrefl, ↓reduceIte, whole, not_not.mp (written.not.mp encoded)]
    rfl

/-- Another flag is refused. -/
theorem RawCurve.parseRaw_flag {bytes : List UInt8} (length : bytes.length = curve.rawSize)
    (finite : bytes.headD 0 &&& gnarkMask ≠ gnarkUncompressedInfinity) (flag : bytes.headD 0 &&& gnarkMask ≠ 0) :
    curve.parseRaw bytes =
      .error (.error (.invalidProofFormat s!"Expected uncompressed {curve.name} encoding (WriteRawTo)")) := by
  simp only [parseRaw, length, lt_irrefl, finite, flag, ne_eq, not_false_eq_true, ↓reduceIte]
  rfl

/-- The parser returns exactly the points of the group, from their encodings. -/
theorem RawCurve.parseRaw_eq_ok_iff {bytes : List UInt8} {p : Affine K} (length : bytes.length = curve.rawSize) :
    curve.parseRaw bytes = .ok p ↔ curve.InGroup p ∧ bytes = curve.writeRaw p := by
  by_cases infinity : bytes.headD 0 &&& gnarkMask = gnarkUncompressedInfinity
  · rw [parseRaw_infinity length infinity]
    constructor
    · intro read
      split at read
      case isFalse => cases read
      case isTrue encoded =>
        cases read
        exact ⟨⟨rfl, rfl⟩, encoded⟩
    · rintro ⟨-, encoded⟩
      cases p with
      | infinity => rw [if_pos encoded]
      | point x y =>
          rw [encoded, writeRaw_headD_point] at infinity
          exact absurd infinity (by decide)
  by_cases flagless : bytes.headD 0 &&& gnarkMask = 0
  · rw [parseRaw_affine length flagless]
    simp only [bind_eq_ok]
    constructor
    · rintro ⟨x, first, y, second, made⟩
      rw [new] at made
      split at made
      case isFalse => cases made
      case isTrue member =>
        cases made
        exact ⟨member, (curve.read_coordinates_iff length x y).mp ⟨first, second⟩⟩
    · rintro ⟨member, encoded⟩
      cases p with
      | infinity =>
          rw [encoded, writeRaw_headD_infinity] at infinity
          exact absurd rfl infinity
      | point x y =>
          obtain ⟨first, second⟩ := (curve.read_coordinates_iff length x y).mpr encoded
          exact ⟨x, first, y, second, if_pos member⟩
  · rw [parseRaw_flag length infinity flagless]
    constructor
    · intro read
      cases read
    · rintro ⟨-, encoded⟩
      cases p with
      | infinity =>
          rw [encoded, writeRaw_headD_infinity] at infinity
          exact absurd rfl infinity
      | point x y =>
          rw [encoded, writeRaw_headD_point] at flagless
          exact absurd rfl flagless

/-- The parser panics exactly on canonical coordinates outside the group. -/
theorem RawCurve.parseRaw_eq_panic_iff {bytes : List UInt8} (length : bytes.length = curve.rawSize) :
    curve.parseRaw bytes = .error .panic ↔ curve.OffGroup bytes := by
  by_cases flagless : bytes.headD 0 &&& gnarkMask = 0
  · rw [parseRaw_affine length flagless]
    simp only [bind_eq_panic, curve.coordinates.read_ne_panic, false_or]
    constructor
    · rintro ⟨x, first, y, second, panics⟩
      refine ⟨x, y, (curve.read_coordinates_iff length x y).mp ⟨first, second⟩, ?_⟩
      intro member
      exact absurd (panics.symm.trans (if_pos member)) (by simp)
    · rintro ⟨x, y, encoded, outside⟩
      obtain ⟨first, second⟩ := (curve.read_coordinates_iff length x y).mpr encoded
      exact ⟨x, first, y, second, if_neg outside⟩
  · have flagged : ¬curve.OffGroup bytes := by
      rintro ⟨x, y, encoded, -⟩
      rw [encoded, writeRaw_headD_point] at flagless
      exact flagless rfl
    refine iff_of_false ?_ flagged
    by_cases infinity : bytes.headD 0 &&& gnarkMask = gnarkUncompressedInfinity
    · rw [parseRaw_infinity length infinity]
      split <;> simp
    · rw [parseRaw_flag length infinity flagless]
      simp

end Affine

section Groups

/-- The first group over the subgroup test of the curve library. -/
def g1Curve (inSubgroup : Fq → Fq → Bool) : RawCurve Fq where
  name := "G1"
  coordinates := fqRaw
  b := 1
  inSubgroup := inSubgroup

/-- The sextic twist has the inverse of the square root as its constant. -/
def g2Curve (inSubgroup : Fq2 → Fq2 → Bool) : RawCurve Fq2 where
  name := "G2"
  coordinates := fq2Raw
  b := ⟨0, 155198655607781456406391640216936120121836107652948796323930557600032281009004493664981332883744016074664192874906⟩
  inSubgroup := inSubgroup

abbrev G1Affine := Affine Fq

abbrev G2Affine := Affine Fq2

def parseG1AffineGnarkRaw (inSubgroup : Fq → Fq → Bool) (bytes : List UInt8) : Except Fault G1Affine :=
  (g1Curve inSubgroup).parseRaw bytes

def parseG2AffineGnarkRaw (inSubgroup : Fq2 → Fq2 → Bool) (bytes : List UInt8) : Except Fault G2Affine :=
  (g2Curve inSubgroup).parseRaw bytes

example : (g2Curve fun _ _ => true).b * ⟨0, 1⟩ = 1 := by decide

end Groups

end Pvugc.Sp1Bridge
