import Pvugc.Bitcoin.Keys
import Pvugc.Hash.Sha256

namespace Pvugc.Bitcoin
open Pvugc.Algebra Pvugc.OneSided Pvugc.Secp

section Code

/-- A scalar is read from its canonical bytes only. -/
def scalarFromRepr (bytes : Digest) : Option ℕ :=
  if beValue bytes.toList < secpOrder then some (beValue bytes.toList) else none

def signatureR (sig : Vector UInt8 64) : Digest := sig.extract 0 32

def signatureS (sig : Vector UInt8 64) : Digest := sig.extract 32 64

variable (sha256 : List UInt8 → Digest)

/-- The verifier of the code; no value stands for a panic. -/
def verifySchnorrSignature (pk : AffinePoint) (msg : List UInt8) (sig : Vector UInt8 64) : Option Bool := do
  let rX := signatureR sig
  match scalarFromRepr (signatureS sig) with
  | none => return false
  | some s =>
      let e := bip340Challenge sha256 rX (← encodedX pk) msg
      let rAffine := s • secpGenerator + -(e • pk)
      if rAffine = 0 then return false
      if !(← yIsEven rAffine) then return false
      return (← encodedX rAffine) = rX

end Code

section Specification

variable (sha256 : List UInt8 → Digest)

/-- The verification of BIP-340 for an x-only public key. -/
def bip340Verify (pk : Digest) (msg : List UInt8) (sig : Vector UInt8 64) : Bool :=
  match liftX (beValue pk.toList) with
  | none => false
  | some P =>
      let r := beValue (signatureR sig).toList
      let s := beValue (signatureS sig).toList
      if secpPrime ≤ r ∨ secpOrder ≤ s then false
      else
        let challenge := taggedHash sha256 "BIP0340/challenge"
          ((coordinateBytes r).toList ++ (coordinateBytes (xValue P)).toList ++ msg)
        let e := beValue challenge.toList % secpOrder
        let R := s • secpGenerator - e • P
        R ≠ 0 ∧ isEvenY R ∧ xValue R = r

end Specification

section Exact

variable {sha256 : List UInt8 → Digest} {pk : AffinePoint}

/-- The checks of a point behind the equation pass exactly for the even point with first coordinate `r`. -/
theorem checkPoint_eq (R : AffinePoint) (rX : Digest) : (do
    if R = 0 then return false
    if !(← yIsEven R) then return false
    return (← encodedX R) = rX : Option Bool) = some (decide (liftX (beValue rX.toList) = some R)) := by
  cases R with
  | zero =>
      have unlifted : liftX (beValue rX.toList) ≠ some .zero := fun lifted => (liftX_spec lifted).1 rfl
      rw [if_pos (show WeierstrassCurve.Affine.Point.zero = 0 from rfl), decide_eq_false unlifted]
      rfl
  | some x y point =>
      have finite := WeierstrassCurve.Affine.Point.some_ne_zero point
      have first : coordinateBytes x.val = rX ↔ xValue (.some x y point) = beValue rX.toList :=
        coordinateBytes_eq_iff (ZMod.val_lt x) rX
      rw [if_neg finite, yIsEven_some point]
      simp only [liftX_eq_some_iff, ne_eq, finite, not_false_eq_true, true_and, ← first]
      cases isEvenY (.some x y point) <;> simp [encodedX]

/-- The code accepts where the full key's equation gives the even point with first coordinate `r`. -/
theorem verifySchnorrSignature_eq (finite : pk ≠ 0) (msg : List UInt8) (sig : Vector UInt8 64) :
    verifySchnorrSignature sha256 pk msg sig = some (decide (beValue (signatureS sig).toList < secpOrder ∧
      liftX (beValue (signatureR sig).toList) = some (beValue (signatureS sig).toList • secpGenerator -
        bip340Challenge sha256 (signatureR sig) (coordinateBytes (xValue pk)) msg • pk))) := by
  unfold verifySchnorrSignature scalarFromRepr
  by_cases canonical : beValue (signatureS sig).toList < secpOrder
  · simp only [encodedX_of_ne_zero finite, canonical, true_and, sub_eq_add_neg]
    exact checkPoint_eq _ _
  · simp only [canonical, false_and, decide_false]
    rfl

/-- The specification accepts where the even key's equation does. -/
theorem bip340Verify_eq (finite : pk ≠ 0) (msg : List UInt8) (sig : Vector UInt8 64) :
    bip340Verify sha256 (coordinateBytes (xValue pk)) msg sig = decide (beValue (signatureS sig).toList < secpOrder ∧
      liftX (beValue (signatureR sig).toList) = some (beValue (signatureS sig).toList • secpGenerator -
        bip340Challenge sha256 (signatureR sig) (coordinateBytes (xValue pk)) msg • evenPoint pk)) := by
  have even : xValue (evenPoint pk) = xValue pk := by
    rw [evenPoint]
    split
    · rfl
    · exact xValue_neg pk
  unfold bip340Verify
  rw [coordinateBytes_value (xValue_lt pk), liftX_xValue finite]
  dsimp only
  by_cases small : beValue (signatureR sig).toList < secpPrime
  · have bytes : coordinateBytes (beValue (signatureR sig).toList) = signatureR sig :=
      (coordinateBytes_eq_iff small _).mpr rfl
    by_cases canonical : beValue (signatureS sig).toList < secpOrder
    · rw [if_neg (by omega), bytes, even]
      simp only [canonical, true_and, liftX_eq_some_iff]
      rfl
    · rw [if_pos (by omega)]
      simp [canonical]
  · rw [if_pos (by omega)]
    have unlifted (R : AffinePoint) : liftX (beValue (signatureR sig).toList) ≠ some R := by
      intro lifted
      rw [← (liftX_spec lifted).2.2] at small
      exact small (xValue_lt R)
    simp [unlifted]

/-- The parity of the key makes no difference: it is even, the signature is refused for its scalar, the challenge
is zero, or neither the key nor its opposite satisfies the equation. -/
def ParityIndifferent (sha256 : List UInt8 → Digest) (pk : AffinePoint) (msg : List UInt8) (sig : Vector UInt8 64) :
    Prop :=
  let s := beValue (signatureS sig).toList
  let e := bip340Challenge sha256 (signatureR sig) (coordinateBytes (xValue pk)) msg
  isEvenY pk ∨ secpOrder ≤ s ∨ e = 0 ∨ ∀ R, liftX (beValue (signatureR sig).toList) = some R →
    s • secpGenerator ≠ R + e • pk ∧ s • secpGenerator ≠ R - e • pk

/-- Twice a multiple by a nonzero residue is not zero. -/
theorem two_smul_residue_ne_zero {P : AffinePoint} (finite : P ≠ 0) {k : ℕ} (residue : k < secpOrder)
    (nonzero : k ≠ 0) : k • P + k • P ≠ 0 := by
  rw [← two_nsmul]
  apply secp_two_smul_ne_zero
  rw [Ne, secp_smul_eq_zero_iff finite]
  exact fun multiple => nonzero (Nat.eq_zero_of_dvd_of_lt multiple residue)

/-- The code verifies as BIP-340 does exactly where the parity of the key makes no difference. -/
theorem verifySchnorrSignature_iff (sha256 : List UInt8 → Digest) (pk : {P : AffinePoint // P ≠ 0})
    (msg : List UInt8) (sig : Vector UInt8 64) :
    verifySchnorrSignature sha256 pk msg sig = some (bip340Verify sha256 (coordinateBytes (xValue pk)) msg sig) ↔
      ParityIndifferent sha256 pk msg sig := by
  obtain ⟨pk, finite⟩ := pk
  rw [verifySchnorrSignature_eq finite, bip340Verify_eq finite, Option.some_inj, decide_eq_decide, ParityIndifferent]
  dsimp only
  have residue : bip340Challenge sha256 (signatureR sig) (coordinateBytes (xValue pk)) msg < secpOrder :=
    Nat.mod_lt _ (by decide)
  generalize bip340Challenge sha256 (signatureR sig) (coordinateBytes (xValue pk)) msg = e at residue ⊢
  generalize beValue (signatureS sig).toList = s
  generalize liftX (beValue (signatureR sig).toList) = lifted
  by_cases even : isEvenY pk
  · rw [evenPoint, if_pos even]
    exact iff_of_true Iff.rfl (.inl even)
  rw [evenPoint, if_neg even, neg_nsmul, sub_neg_eq_add]
  by_cases canonical : s < secpOrder
  · rw [and_iff_right canonical, and_iff_right canonical, or_iff_right even, or_iff_right (Nat.not_le.mpr canonical)]
    constructor
    · intro same
      by_cases zero : e = 0
      · exact .inl zero
      have distinct : s • secpGenerator - e • pk ≠ s • secpGenerator + e • pk := by
        intro equal
        rw [sub_eq_add_neg] at equal
        exact two_smul_residue_ne_zero finite residue zero (neg_eq_iff_add_eq_zero.mp (add_left_cancel equal))
      refine .inr fun R root => ⟨fun full => ?_, fun opposite => ?_⟩
      · have accepted : lifted = some (s • secpGenerator - e • pk) := by rw [root, full, add_sub_cancel_right]
        exact distinct (Option.some.inj (accepted.symm.trans (same.mp accepted)))
      · have accepted : lifted = some (s • secpGenerator + e • pk) := by rw [root, opposite, sub_add_cancel]
        exact distinct (Option.some.inj ((same.mpr accepted).symm.trans accepted))
    · rintro (zero | neither)
      · rw [zero, zero_nsmul, sub_zero, add_zero]
      · refine iff_of_false (fun accepted => ?_) fun accepted => ?_
        · exact (neither _ accepted).1 (sub_add_cancel _ _).symm
        · exact (neither _ accepted).2 (add_sub_cancel_right _ _).symm
  · refine iff_of_true ?_ (.inr (.inl (Nat.le_of_not_lt canonical)))
    simp [canonical]

section Counterexample

/-- A signature of the empty message for the x-only key of the generator, with the generator as `R`. -/
def generatorSignature : Vector UInt8 64 :=
  coordinateBytes 0x79BE667EF9DCBBAC55A06295CE870B07029BFCDB2DCE28D959F2815B16F81798 ++
    coordinateBytes 0x5C21DA9D71D1C275A04A5A9E937C64C04A04AC9CA8CF703963CA8F7EE63407ED

theorem generator_ne_zero : secpGenerator ≠ 0 := WeierstrassCurve.Affine.Point.some_ne_zero _

theorem generator_even : isEvenY secpGenerator = true := by decide

theorem liftX_generator : liftX (beValue (signatureR generatorSignature).toList) = some secpGenerator := by
  rw [liftX_eq_some_iff]
  exact ⟨generator_ne_zero, generator_even, by decide⟩

theorem generator_challenge : bip340Challenge Hash.sha256 (signatureR generatorSignature)
    (coordinateBytes (xValue secpGenerator)) [] =
      0x5C21DA9D71D1C275A04A5A9E937C64C04A04AC9CA8CF703963CA8F7EE63407EC := by decide +kernel

/-- For the opposite of the generator, whose second coordinate is odd, the code refuses a valid signature. -/
theorem verifySchnorrSignature_generator :
    verifySchnorrSignature Hash.sha256 (-secpGenerator) [] generatorSignature = some false ∧
      bip340Verify Hash.sha256 (coordinateBytes (xValue (-secpGenerator))) [] generatorSignature = true := by
  have finite : -secpGenerator ≠ 0 := neg_ne_zero.mpr generator_ne_zero
  have even : evenPoint (-secpGenerator) = secpGenerator := by
    rw [evenPoint, isEvenY_neg generator_ne_zero, generator_even, neg_neg]
    rfl
  have scalar : beValue (signatureS generatorSignature).toList =
      0x5C21DA9D71D1C275A04A5A9E937C64C04A04AC9CA8CF703963CA8F7EE63407EC + 1 := by decide
  have canonical : 0x5C21DA9D71D1C275A04A5A9E937C64C04A04AC9CA8CF703963CA8F7EE63407EC + 1 < secpOrder := by
    decide
  have nonzero : 0x5C21DA9D71D1C275A04A5A9E937C64C04A04AC9CA8CF703963CA8F7EE63407EC ≠ 0 := by decide
  rw [verifySchnorrSignature_eq finite, bip340Verify_eq finite, even, xValue_neg, generator_challenge, scalar,
    liftX_generator]
  generalize 0x5C21DA9D71D1C275A04A5A9E937C64C04A04AC9CA8CF703963CA8F7EE63407EC = e at canonical nonzero ⊢
  have valid : (e + 1) • secpGenerator - e • secpGenerator = secpGenerator := by
    rw [succ_nsmul, add_sub_cancel_left]
  have invalid : secpGenerator ≠ (e + 1) • secpGenerator - e • -secpGenerator := by
    intro same
    rw [neg_nsmul, sub_neg_eq_add, succ_nsmul, add_right_comm, right_eq_add] at same
    exact two_smul_residue_ne_zero generator_ne_zero (Nat.lt_of_succ_lt canonical) nonzero same
  constructor
  · simp only [canonical, true_and, Option.some.injEq, invalid, decide_false]
  · simp only [canonical, true_and, valid, decide_true]

end Counterexample

end Exact

end Pvugc.Bitcoin
