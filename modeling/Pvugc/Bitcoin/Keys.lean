import Pvugc.Algebra.Bytes
import Pvugc.OneSided.Context
import Pvugc.Secp.GroupOrder

namespace Pvugc.Bitcoin
open Pvugc.Algebra Pvugc.OneSided Pvugc.Secp WeierstrassCurve.Affine

abbrev AffinePoint := SecpPoint

/-- The big-endian bytes of a coordinate. -/
def coordinateBytes (n : ℕ) : Digest := ⟨(toBeBytes 32 n).toArray, by simp⟩

/-- The identity has no encoded coordinates, and the code panics there. -/
def encodedX : AffinePoint → Option Digest
  | .zero => none
  | .some x _ _ => some (coordinateBytes x.val)

def encodedY : AffinePoint → Option Digest
  | .zero => none
  | .some _ y _ => some (coordinateBytes y.val)

def yIsEven (point : AffinePoint) : Option Bool := do
  let y ← encodedY point
  return y[31] &&& 1 == 0

section Hash

variable (sha256 : List UInt8 → Digest)

def taggedHash (tag : String) (msg : List UInt8) : Digest :=
  let tagHash := sha256 (asBytes tag)
  sha256 (tagHash.toList ++ tagHash.toList ++ msg)

/-- The reduction of the bytes of a hash to a scalar. -/
def reduceScalar (bytes : Digest) : ℕ := beValue bytes.toList % secpOrder

def bip340Challenge (rX pkX : Digest) (msg : List UInt8) : ℕ :=
  reduceScalar (taggedHash sha256 "BIP0340/challenge" (rX.toList ++ pkX.toList ++ msg))

end Hash

theorem coordinateBytes_value {n : ℕ} (fits : n < secpPrime) : beValue (coordinateBytes n).toList = n := by
  have wide : n < 256 ^ 32 := fits.trans (by decide)
  simpa [coordinateBytes] using beValue_toBeBytes wide

/-- Coordinate bytes are determined by their integer. -/
theorem coordinateBytes_eq_iff {n : ℕ} (fits : n < secpPrime) (bytes : Digest) :
    coordinateBytes n = bytes ↔ n = beValue bytes.toList := by
  constructor
  · rintro rfl
    exact (coordinateBytes_value fits).symm
  · rintro rfl
    have back := toBeBytes_beValue bytes.toList
    rw [Vector.length_toList] at back
    exact Vector.toList_inj.mp (by simpa [coordinateBytes] using back)

theorem yIsEven_some {x y : SecpFq} (point : (shortCurve (7 : SecpFq)).Nonsingular x y) :
    yIsEven (.some x y point) = some (isEvenY (.some x y point)) := by
  have last : (coordinateBytes y.val)[31] = UInt8.ofNat y.val := by
    simp [coordinateBytes, toBeBytes, toLeBytes]
  have parity : (UInt8.ofNat y.val &&& 1 == 0) = decide (y.val % 2 = 0) := by
    rw [beq_eq_decide, decide_eq_decide, ← UInt8.toNat_inj, UInt8.toNat_and, UInt8.toNat_ofNat']
    change y.val % 256 &&& 1 = 0 ↔ _
    rw [Nat.and_one_is_mod]
    omega
  rw [yIsEven, encodedY, Option.bind_eq_bind, Option.bind_some, last, parity]
  rfl

section LiftX

/-- The public keys' decoder of BIP-340: the point with the given first coordinate and an even second one. -/
def liftX (x : ℕ) : Option AffinePoint :=
  if x < secpPrime then
    let y : SecpFq := (powMod secpPrime ((x : SecpFq) ^ 3 + 7).val 256 ((secpPrime + 1) / 4) : SecpFq)
    if valid : y ^ 2 = (x : SecpFq) ^ 3 + 7 then
      if y.val % 2 = 0 then some (.some x y (secp_nonsingular valid))
      else some (.some x (-y) (secp_nonsingular (by rwa [neg_sq])))
    else none
  else none

/-- The first coordinate of a finite point as an integer. -/
def xValue : AffinePoint → ℕ
  | .zero => 0
  | .some x _ _ => x.val

/-- The root of a square, by the exponent for fields of three modulo four. -/
theorem root_sq {c y : SecpFq} (square : y ^ 2 = c) :
    ((powMod secpPrime c.val 256 ((secpPrime + 1) / 4) : ℕ) : SecpFq) ^ 2 = c := by
  have exponent : 2 * ((secpPrime + 1) / 4 * 2) = secpPrime + 1 := by decide
  rw [powMod_eq secpPrime c.val (by decide), ZMod.natCast_mod, Nat.cast_pow, ZMod.natCast_zmod_val, ← square,
    ← pow_mul, ← pow_mul, exponent, pow_succ, ZMod.pow_card, sq]

theorem liftX_spec {x : ℕ} {P : AffinePoint} (lifted : liftX x = some P) :
    P ≠ 0 ∧ isEvenY P ∧ xValue P = x := by
  unfold liftX at lifted
  dsimp only at lifted
  split_ifs at lifted with small valid even
  · cases lifted
    exact ⟨Point.some_ne_zero _, decide_eq_true even, ZMod.val_cast_of_lt small⟩
  · cases lifted
    refine ⟨Point.some_ne_zero _, decide_eq_true ?_, ZMod.val_cast_of_lt small⟩
    exact (neg_parity (secp_y_ne_zero (secp_nonsingular valid))).mpr even

theorem exists_liftX {x y : SecpFq} (point : (shortCurve (7 : SecpFq)).Nonsingular x y) :
    ∃ P, liftX x.val = some P := by
  have equation : y ^ 2 = (x.val : SecpFq) ^ 3 + 7 := by
    rw [ZMod.natCast_zmod_val]
    exact secp_equation point
  unfold liftX
  dsimp only
  rw [if_pos (ZMod.val_lt x), dif_pos (root_sq equation)]
  split
  · exact ⟨_, rfl⟩
  · exact ⟨_, rfl⟩

theorem eq_of_even {P P' : AffinePoint} (finite : P ≠ 0) (finite' : P' ≠ 0) (x : xValue P = xValue P')
    (parity : isEvenY P = isEvenY P') : P = P' := by
  cases P with
  | zero => exact absurd rfl finite
  | some x y point =>
      cases P' with
      | zero => exact absurd rfl finite'
      | some x' y' point' =>
          apply pointCode_injective
          rw [pointCode, pointCode, parity, ZMod.val_injective secpPrime x]

/-- The decoder returns exactly the even point with the given first coordinate. -/
theorem liftX_eq_some_iff (x : ℕ) (P : AffinePoint) :
    liftX x = some P ↔ P ≠ 0 ∧ isEvenY P ∧ xValue P = x := by
  constructor
  · exact liftX_spec
  · rintro ⟨finite, even, rfl⟩
    obtain ⟨Q, lifted⟩ : ∃ Q, liftX (xValue P) = some Q := by
      cases P with
      | zero => exact absurd rfl finite
      | some x y point => exact exists_liftX point
    obtain ⟨finite', even', x⟩ := liftX_spec lifted
    rw [lifted, eq_of_even finite' finite x (even'.trans even.symm)]

/-- The even one of a point and its opposite. -/
def evenPoint (P : AffinePoint) : AffinePoint := if isEvenY P then P else -P

@[simp] theorem xValue_neg (P : AffinePoint) : xValue (-P) = xValue P := by
  cases P <;> rfl

/-- The decoder turns the first coordinate of a finite point into its even one. -/
theorem liftX_xValue {P : AffinePoint} (finite : P ≠ 0) : liftX (xValue P) = some (evenPoint P) := by
  rw [liftX_eq_some_iff, evenPoint]
  split
  case isTrue even => exact ⟨finite, even, rfl⟩
  case isFalse odd => exact ⟨neg_ne_zero.mpr finite, by simpa [isEvenY_neg finite] using odd, xValue_neg P⟩

theorem encodedX_of_ne_zero {P : AffinePoint} (finite : P ≠ 0) : encodedX P = some (coordinateBytes (xValue P)) := by
  cases P with
  | zero => exact absurd rfl finite
  | some x y point => rfl

theorem xValue_lt (P : AffinePoint) : xValue P < secpPrime := by
  cases P with
  | zero => exact Nat.lt_of_lt_of_le Nat.zero_lt_one (by decide)
  | some x y point => exact ZMod.val_lt x

end LiftX

end Pvugc.Bitcoin
