import Pvugc.Secp.JacobianGadget
import Pvugc.Secp.FixedBase
import Mathlib.Data.List.GetD

namespace Pvugc.Secp
open Pvugc.Algebra WeierstrassCurve.Affine

/-- A synthesis ends early with an error or with a panic. -/
inductive SynthesisFault where
  | unsatisfiable
  | panic
  deriving DecidableEq

/-- The state of a synthesis tells whether the constraints enforced so far hold. -/
abbrev Enforcement := StateT Bool (Except SynthesisFault)

def enforce (holds : Bool) : Enforcement Unit := modify (· && holds)

/-- The synthesis succeeds and all its constraints hold. -/
def Satisfied (synthesis : Enforcement Unit) : Prop := synthesis.run true = .ok ((), true)

/-- The curve that the gadget is compiled for, with its generator. -/
structure SecpCurve (F : Type) [Field F] [DecidableEq F] where
  coeffB : F
  generator : (shortCurve coeffB).Point
  two_ne_zero : (2 : F) ≠ 0
  coeffB_ne_zero : coeffB ≠ 0
  order : addOrderOf generator = secpOrder

section Recoding

/-- This is `UInt8::to_bits_le`. -/
def toBitsLe (byte : UInt8) : List Bool := (List.range 8).map byte.toNat.testBit

def windowBits (scalarBits : List Bool) (windowIdx : ℕ) : List Bool :=
  (List.range windowSize).map fun bitIdx =>
    let idx := windowIdx * windowSize + bitIdx
    if idx < scalarBits.length then scalarBits.getD idx false else false

/-- The sum of a window and the incoming carry, bit by bit. -/
def chunkBits (windowBits : List Bool) (carry : Bool) : List Bool :=
  let (sumBits, carrySum) := windowBits.foldl
    (fun (sumBits, carrySum) bit => (sumBits ++ [bit ^^ carrySum], bit && carrySum)) ([], carry)
  sumBits ++ [carrySum]

def subtractFromSixtyFour (chunkBits : List Bool) : List Bool :=
  let (_, diffBits) := chunkBits.zipIdx.foldl
    (fun (borrow, diffBits) (chunkBit, idx) =>
      let minuendBit := idx == windowSize
      let tmp := minuendBit ^^ chunkBit
      let diff := tmp ^^ borrow
      let notA := !minuendBit
      let subOrBorrow := chunkBit || borrow
      let term1 := notA && subOrBorrow
      let term2 := chunkBit && borrow
      (term1 || term2, diffBits ++ [diff]))
    (false, [])
  (List.range magSize).map fun i => diffBits.getD i false

/-- The sign and the magnitude that the gadget takes out of a window, with the next carry. -/
structure WindowDigit where
  sign : Bool
  magBits : List Bool
  carryNext : Bool

def windowDigit (windowBits : List Bool) (carry : Bool) : WindowDigit :=
  let chunkBitsRaw := chunkBits windowBits carry
  let chunkU8 := bitsValue (chunkBitsRaw ++ [false])
  let chunkEq32 := chunkU8 == 32
  let chunkGt32 := decide (32 < chunkU8)
  let negBits := subtractFromSixtyFour chunkBitsRaw
  { sign := chunkGt32
    magBits := (List.range magSize).map fun i =>
      (!chunkGt32 && !chunkEq32 && chunkBitsRaw.getD i false) || (chunkGt32 && negBits.getD i false)
    carryNext := chunkEq32 || chunkGt32 }

/-- The gadget's digit of a window is the digit of the chunk. -/
theorem windowDigit_spec : ∀ b0 b1 b2 b3 b4 b5 carry : Bool,
    let chunk := bitsValue [b0, b1, b2, b3, b4, b5] + carry.toNat
    let value : ℤ := if chunk = 32 then 0 else if chunk > 32 then chunk - 64 else chunk
    let digit := windowDigit [b0, b1, b2, b3, b4, b5] carry
    bitsValue digit.magBits = value.natAbs ∧ (value ≠ 0 → digit.sign = decide (value < 0)) ∧
      digit.carryNext = decide (32 ≤ chunk) := by
  decide

theorem windowDigit_length (windowBits : List Bool) (carry : Bool) :
    (windowDigit windowBits carry).magBits.length = magSize := by
  simp [windowDigit]

theorem any_eq_true_iff (bits : List Bool) : bits.any id = true ↔ bitsValue bits ≠ 0 := by
  induction bits with
  | nil => simp
  | cons bit bits inductionHypothesis =>
      rw [List.any_cons, Bool.or_eq_true, inductionHypothesis, bitsValue_cons]
      cases bit <;> simp

theorem toBitsLe_flatMap (bytes : Vector UInt8 32) :
    bytes.toList.reverse.flatMap toBitsLe = scalarBitsLe bytes := by
  rw [scalarBitsLe]
  congr 1
  funext byte
  apply List.map_congr_left
  intro bit _
  rw [Nat.testBit_eq_decide_div_mod_eq, Nat.shiftRight_eq_div_pow, Nat.and_one_is_mod]
  rfl

theorem windowBits_eq (scalarBits : List Bool) (w : ℕ) :
    windowBits scalarBits w = (List.range windowSize).map fun bit =>
      scalarBits.getD (w * windowSize + bit) false := by
  apply List.map_congr_left
  intro bit _
  dsimp only
  split
  case isTrue => rfl
  case isFalse outside => rw [List.getD_eq_default _ _ (not_lt.mp outside)]

/-- The value of a window of the scalar is its base-64 digit. -/
theorem bitsValue_windowBits (scalarBits : List Bool) (w : ℕ) :
    bitsValue (windowBits scalarBits w) = bitsValue scalarBits / 64 ^ w % 64 := by
  rw [windowBits_eq, bitsValue_getD, Nat.mul_comm, Nat.pow_mul]
  rfl

/-- What the gadget takes out of window `w` of a scalar with the carry of the lower windows. -/
theorem windowDigit_eq {scalarBits : List Bool} {carry : Bool} {w : ℕ}
    (lower : carry.toNat = carryInto (bitsValue scalarBits) w) :
    bitsValue (windowDigit (windowBits scalarBits w) carry).magBits =
        (digitAt (bitsValue scalarBits) w).natAbs ∧
      (digitAt (bitsValue scalarBits) w ≠ 0 → (windowDigit (windowBits scalarBits w) carry).sign =
        decide (digitAt (bitsValue scalarBits) w < 0)) ∧
      (windowDigit (windowBits scalarBits w) carry).carryNext.toNat =
        carryInto (bitsValue scalarBits) (w + 1) := by
  have chunk : bitsValue (windowBits scalarBits w) + carry.toNat = chunkAt (bitsValue scalarBits) w := by
    rw [bitsValue_windowBits, lower, chunkAt]
  have six : windowBits scalarBits w = [(windowBits scalarBits w).getD 0 false,
      (windowBits scalarBits w).getD 1 false, (windowBits scalarBits w).getD 2 false,
      (windowBits scalarBits w).getD 3 false, (windowBits scalarBits w).getD 4 false,
      (windowBits scalarBits w).getD 5 false] := rfl
  have spec := windowDigit_spec ((windowBits scalarBits w).getD 0 false)
    ((windowBits scalarBits w).getD 1 false) ((windowBits scalarBits w).getD 2 false)
    ((windowBits scalarBits w).getD 3 false) ((windowBits scalarBits w).getD 4 false)
    ((windowBits scalarBits w).getD 5 false) carry
  rw [← six, chunk] at spec
  obtain ⟨magnitude, sign, next⟩ := spec
  refine ⟨magnitude, sign, ?_⟩
  rw [next, carryInto_succ]
  by_cases large : 32 ≤ chunkAt (bitsValue scalarBits) w <;> simp [large]

end Recoding

section Selection

variable {α : Type}

/-- One round of `mux_tree` selects in every chunk of two; a chunk of one keeps its value. -/
def muxLevel (bit : Bool) : List α → List α
  | [] => []
  | [falseVal] => [falseVal]
  | falseVal :: trueVal :: values => (if bit then trueVal else falseVal) :: muxLevel bit values

def muxTree (bits : List Bool) (values : List α) (default : α) : α :=
  (bits.foldl (fun values bit => muxLevel bit values) values).headD default

theorem muxLevel_length (bit : Bool) {values : List α} {n : ℕ} (even : values.length = 2 * n) :
    (muxLevel bit values).length = n := by
  induction n generalizing values with
  | zero =>
      rw [List.length_eq_zero_iff.mp even]
      rfl
  | succ n inductionHypothesis =>
      match values, even with
      | falseVal :: trueVal :: values, even =>
          rw [muxLevel, List.length_cons, inductionHypothesis]
          simp only [List.length_cons] at even
          omega

theorem muxLevel_getD (bit : Bool) (values : List α) {n : ℕ} (even : values.length = 2 * n) (k : ℕ)
    (default : α) : (muxLevel bit values).getD k default = values.getD (bit.toNat + 2 * k) default := by
  induction n generalizing values k with
  | zero =>
      rw [List.length_eq_zero_iff.mp even]
      rfl
  | succ n inductionHypothesis =>
      match values, even with
      | falseVal :: trueVal :: values, even =>
          have rest : values.length = 2 * n := by
            simp only [List.length_cons] at even
            omega
          cases k with
          | zero => cases bit <;> rfl
          | succ k =>
              rw [muxLevel, List.getD_cons_succ, inductionHypothesis values rest,
                show bit.toNat + 2 * (k + 1) = bit.toNat + 2 * k + 1 + 1 by ring, List.getD_cons_succ,
                List.getD_cons_succ]

/-- The tree selects the entry with the number of the bits. -/
theorem muxTree_eq (bits : List Bool) {values : List α} (length : values.length = 2 ^ bits.length)
    (default : α) : muxTree bits values default = values.getD (bitsValue bits) default := by
  rw [muxTree]
  induction bits generalizing values with
  | nil =>
      obtain ⟨value, rfl⟩ := List.length_eq_one_iff.mp length
      rfl
  | cons bit bits inductionHypothesis =>
      have even : values.length = 2 * 2 ^ bits.length := by rw [length, List.length_cons, pow_succ']
      rw [List.foldl_cons, inductionHypothesis (muxLevel_length bit even), muxLevel_getD bit values even,
        bitsValue_cons]

end Selection

section Gadget

variable {F : Type} [Field F] {b : F}

/-- The stored coordinates of an affine point: the identity is stored with zeros. -/
def pointX : (shortCurve b).Point → F
  | .zero => 0
  | .some x _ _ => x

def pointY : (shortCurve b).Point → F
  | .zero => 0
  | .some _ y _ => y

def isZero : (shortCurve b).Point → Bool
  | .zero => true
  | .some _ _ _ => false

def selectSignedAffine (bits : List Bool) (sign : Bool) (table : List (shortCurve b).Point) :
    SecpAffineVar F :=
  let xConsts := (List.range tableLen).map fun j => if j = 0 then 0 else pointX (table.getD j 0)
  let yPosConsts := (List.range tableLen).map fun j => if j = 0 then 1 else pointY (table.getD j 0)
  let yNegConsts := (List.range tableLen).map fun j => if j = 0 then 1 else -pointY (table.getD j 0)
  let xSel := muxTree bits xConsts 0
  let yPos := muxTree bits yPosConsts 0
  let yNeg := muxTree bits yNegConsts 0
  ⟨xSel, if sign then yNeg else yPos⟩

/-- The host coordinates that `alloc_point_public_inputs` turns into public inputs. -/
def allocPointPublicInputs (point : (shortCurve b).Point) : F × F :=
  if isZero point then (0, 0) else (pointX point, pointY point)

variable [DecidableEq F]

/-- One round of the loop over the windows. -/
def windowStep (table : List (List (shortCurve b).Point)) (scalarBits : List Bool)
    (state : SecpJacVar F × Bool) (windowIdx : ℕ) : SecpJacVar F × Bool :=
  let (acc, carry) := state
  let digit := windowDigit (windowBits scalarBits windowIdx) carry
  let qAffine := selectSignedAffine digit.magBits digit.sign (table.getD windowIdx [])
  let shouldAdd := digit.magBits.any id
  let added := SecpJacVar.addMixed acc qAffine
  (SecpJacVar.conditionalSelect shouldAdd added acc, digit.carryNext)

/-- The constraints after the loop. -/
def enforceAccumulated (state : SecpJacVar F × Bool) (tx ty : F) : Enforcement Unit := do
  let (acc, carry) := state
  enforce (carry == false)
  let zIsZero := decide (acc.z = 0)
  let tIsZero := decide (tx = 0) && decide (ty = 0)
  enforce (zIsZero == tIsZero)
  let z2 := acc.z ^ 2
  let z3 := z2 * acc.z
  let dx := tx * z2 - acc.x
  let dy := ty * z3 - acc.y
  enforce (zIsZero || decide (dx = 0))
  enforce (zIsZero || decide (dy = 0))

def enforceSecpFixedBaseMul (curve : SecpCurve F) (mBytes : Vector UInt8 32)
    (tHost : (shortCurve curve.coeffB).Point) : Enforcement Unit := do
  if isZero tHost then throw .unsatisfiable
  let (tx, ty) := allocPointPublicInputs tHost
  let scalarBits := mBytes.toList.reverse.flatMap toBitsLe
  let state := (List.range numWindows).foldl
    (windowStep (fixedGTable curve.generator) scalarBits) (SecpJacVar.infinity, false)
  enforceAccumulated state tx ty

omit [DecidableEq F] in
theorem selectSignedAffine_eq {bits : List Bool} (length : bits.length = magSize) (sign : Bool)
    (table : List (shortCurve b).Point) (nonzero : bitsValue bits ≠ 0) :
    selectSignedAffine bits sign table =
      ⟨pointX (table.getD (bitsValue bits) 0),
        if sign then -pointY (table.getD (bitsValue bits) 0) else pointY (table.getD (bitsValue bits) 0)⟩ := by
  have bound : bitsValue bits < tableLen := by
    have small := bitsValue_lt bits
    rwa [length] at small
  have select (zeroth : F) (f : ℕ → F) :
      muxTree bits ((List.range tableLen).map fun j => if j = 0 then zeroth else f j) 0 = f (bitsValue bits) := by
    rw [muxTree_eq bits (by rw [List.length_map, List.length_range, length]), List.getD_eq_getElem?_getD,
      List.getElem?_map, List.getElem?_range bound, Option.map_some, Option.getD_some, if_neg nonzero]
  simp only [selectSignedAffine, select]

theorem windowStep_carry (table : List (List (shortCurve b).Point)) (scalarBits : List Bool)
    (acc : SecpJacVar F) (carry : Bool) (w : ℕ) :
    (windowStep table scalarBits (acc, carry) w).2 = (windowDigit (windowBits scalarBits w) carry).carryNext := by
  rw [windowStep]

section Curve

variable (curve : SecpCurve F)

/-- No entry of the table but the first of each window is the identity. -/
theorem SecpCurve.table_ne_zero {w mag : ℕ} (window : w < numWindows) (positive : mag ≠ 0)
    (magnitude : mag < tableLen) : ((fixedGTable curve.generator).getD w []).getD mag 0 ≠ 0 := by
  rw [fixedGTable_getD _ window magnitude, smul_smul]
  intro zero
  have divides := addOrderOf_dvd_of_nsmul_eq_zero zero
  rw [curve.order] at divides
  have coprime : Nat.Coprime secpOrder (64 ^ w) := Nat.Coprime.pow_right w (by decide)
  have small := Nat.le_of_dvd (Nat.pos_of_ne_zero positive) (coprime.dvd_of_dvd_mul_right divides)
  have large : tableLen < secpOrder := by decide
  omega

/-- The gadget adds a finite table entry or its opposite. -/
theorem SecpCurve.represents_addSigned {acc : SecpJacVar F} {P Q : (shortCurve curve.coeffB).Point}
    (input : acc.Represents P) (finite : Q ≠ 0) (sign : Bool) :
    (SecpJacVar.addMixed acc ⟨pointX Q, if sign then -pointY Q else pointY Q⟩).Represents
      (P + if sign then -Q else Q) := by
  cases Q with
  | zero => exact absurd rfl finite
  | some x y point =>
      cases sign with
      | false => exact SecpJacVar.represents_addMixed curve.two_ne_zero input point
      | true =>
          have opposite : (shortCurve curve.coeffB).Nonsingular x (-y) := by
            have reflected := (nonsingular_neg x y).mpr point
            rwa [shortCurve_negY] at reflected
          have reflection : -Point.some x y point = Point.some x (-y) opposite := by
            rw [Point.neg_some]
            congr 1
            exact shortCurve_negY x y
          rw [if_pos rfl, if_pos rfl, reflection]
          exact SecpJacVar.represents_addMixed curve.two_ne_zero input opposite

/-- One window adds its digit, as the native loop does. -/
theorem windowStep_spec {scalarBits : List Bool} {acc : SecpJacVar F} {carry : Bool} {w : ℕ}
    {P : (shortCurve curve.coeffB).Point} (window : w < numWindows) (input : acc.Represents P)
    (lower : carry.toNat = carryInto (bitsValue scalarBits) w) :
    (windowStep (fixedGTable curve.generator) scalarBits (acc, carry) w).1.Represents
        (addDigit (fixedGTable curve.generator) P (digitAt (bitsValue scalarBits) w, w)) ∧
      (windowStep (fixedGTable curve.generator) scalarBits (acc, carry) w).2.toNat =
        carryInto (bitsValue scalarBits) (w + 1) := by
  obtain ⟨magnitude, sign, next⟩ := windowDigit_eq lower
  refine ⟨?_, by rw [windowStep_carry, next]⟩
  have length := windowDigit_length (windowBits scalarBits w) carry
  have small := digitAt_natAbs_lt (bitsValue scalarBits) w
  simp only [windowStep, SecpJacVar.conditionalSelect_eq, addDigit, any_eq_true_iff]
  generalize windowDigit (windowBits scalarBits w) carry = digit at magnitude sign length ⊢
  generalize digitAt (bitsValue scalarBits) w = value at magnitude sign small ⊢
  rw [magnitude]
  by_cases zero : value.natAbs = 0
  · rw [if_neg (not_not.mpr zero), if_pos zero]
    exact input
  · have finite := curve.table_ne_zero window zero small
    have signed := sign (fun same => zero (Int.natAbs_eq_zero.mpr same))
    have present : bitsValue digit.magBits ≠ 0 := by
      rw [magnitude]
      exact zero
    rw [if_pos zero, if_neg zero, signed, selectSignedAffine_eq length _ _ present, magnitude]
    have added := curve.represents_addSigned input finite (decide (value < 0))
    simpa only [decide_eq_true_eq] using added

/-- The accumulator of the gadget stands for the accumulator of `scalar_bytes_to_point`. -/
theorem windowSteps_spec (scalarBits : List Bool) {w : ℕ} (windows : w ≤ numWindows) :
    let state := (List.range w).foldl (windowStep (fixedGTable curve.generator) scalarBits)
      (SecpJacVar.infinity, false)
    state.1.Represents (((List.range w).map (digitAt (bitsValue scalarBits))).zipIdx.foldl
        (addDigit (fixedGTable curve.generator)) 0) ∧
      state.2.toNat = carryInto (bitsValue scalarBits) w := by
  induction w with
  | zero => exact ⟨.infinity rfl, by simp [carryInto, carryFree, Nat.mod_one]⟩
  | succ w inductionHypothesis =>
      obtain ⟨input, lower⟩ := inductionHypothesis (by omega)
      rw [List.range_succ, List.foldl_append, List.foldl_cons, List.foldl_nil, List.map_append,
        List.zipIdx_append, List.foldl_append, List.length_map, List.length_range, zero_add,
        List.map_singleton, List.zipIdx_singleton, List.foldl_cons, List.foldl_nil]
      exact windowStep_spec curve (by omega) input lower

/-- The accumulator of the gadget after the loop stands for the native point, and no carry is left. -/
theorem windowSteps_final (bytes : Vector UInt8 32) :
    let state := (List.range numWindows).foldl
      (windowStep (fixedGTable curve.generator) (bytes.toList.reverse.flatMap toBitsLe))
      (SecpJacVar.infinity, false)
    state.1.Represents (scalarBytesToPoint curve.generator bytes) ∧ state.2 = false := by
  have final := windowSteps_spec curve (scalarBitsLe bytes) le_rfl
  rw [scalarBitsLe_value, carryInto_numWindows] at final
  rw [toBitsLe_flatMap, scalarBytesToPoint, recodeSignedWindow6_eq]
  refine ⟨final.1, ?_⟩
  exact Bool.toNat_eq_zero.mp final.2

/-- After a loop without a carry, the constraints accept exactly the accumulated point. -/
theorem SecpCurve.enforceAccumulated_run {acc : SecpJacVar F} {P : (shortCurve curve.coeffB).Point}
    (final : acc.Represents P) {x y : F} (point : (shortCurve curve.coeffB).Nonsingular x y) (before : Bool) :
    (enforceAccumulated (acc, false) x y).run before = .ok ((), before && decide (Point.some x y point = P)) := by
  have origin : (decide (x = 0) && decide (y = 0)) = false := by
    rw [Bool.and_eq_false_iff, decide_eq_false_iff_not, decide_eq_false_iff_not, ← not_and_or]
    rintro ⟨rfl, rfl⟩
    have equation := (shortCurve_equation (0 : F) 0).mp point.1
    apply curve.coeffB_ne_zero
    linear_combination -equation
  have run : (enforceAccumulated (acc, false) x y).run before =
      .ok ((), before && true && (decide (acc.z = 0) == (decide (x = 0) && decide (y = 0))) &&
        (decide (acc.z = 0) || decide (x * acc.z ^ 2 - acc.x = 0)) &&
        (decide (acc.z = 0) || decide (y * (acc.z ^ 2 * acc.z) - acc.y = 0))) := rfl
  rw [run, origin]
  cases final with
  | infinity zero => simp [zero]
  | @finite u v _ nonzero xValue yValue =>
      have xMatches : x * acc.z ^ 2 - acc.x = 0 ↔ x = u := by
        rw [xValue, ← sub_mul, mul_eq_zero, or_iff_left (pow_ne_zero 2 nonzero), sub_eq_zero]
      have yMatches : y * (acc.z ^ 2 * acc.z) - acc.y = 0 ↔ y = v := by
        rw [yValue, ← pow_succ, ← sub_mul, mul_eq_zero, or_iff_left (pow_ne_zero 3 nonzero), sub_eq_zero]
      simp [nonzero, xMatches, yMatches, Bool.and_assoc]

/-- The gadget accepts exactly the native point of the scalar, unless the point is the identity. -/
theorem enforceSecpFixedBaseMul_run (bytes : Vector UInt8 32)
    (tHost : (shortCurve curve.coeffB).Point) (before : Bool) :
    (enforceSecpFixedBaseMul curve bytes tHost).run before =
      if tHost = 0 then .error .unsatisfiable
      else .ok ((), before && decide (tHost = scalarBytesToPoint curve.generator bytes)) := by
  obtain ⟨final, carry⟩ := windowSteps_final curve bytes
  simp only [enforceSecpFixedBaseMul]
  generalize (List.range numWindows).foldl
    (windowStep (fixedGTable curve.generator) (bytes.toList.reverse.flatMap toBitsLe))
    (SecpJacVar.infinity, false) = state at final carry ⊢
  generalize scalarBytesToPoint curve.generator bytes = P at final ⊢
  obtain ⟨acc, carryLeft⟩ := state
  obtain rfl : carryLeft = false := carry
  cases tHost with
  | zero =>
      rw [if_pos (show Point.zero = 0 from rfl)]
      rfl
  | some x y point =>
      rw [if_neg (Point.some_ne_zero point), ← curve.enforceAccumulated_run final point before]
      rfl

/-- The gadget and the native recoding take the same digit out of window `w`, with the same carry after it. -/
theorem windowDigit_agrees (mBytes : Vector UInt8 32) {w : ℕ} (window : w < numWindows) :
    let scalarBits := mBytes.toList.reverse.flatMap toBitsLe
    let state := (List.range w).foldl (windowStep (fixedGTable curve.generator) scalarBits)
      (SecpJacVar.infinity, false)
    let digit := windowDigit (windowBits scalarBits w) state.2
    let hostDigit := (recodeSignedWindow6 mBytes).1.getD w 0
    bitsValue digit.magBits = hostDigit.natAbs ∧
      (hostDigit ≠ 0 → digit.sign = decide (hostDigit < 0)) ∧
      (digit.carryNext.toNat : ℤ) = (recodeSignedWindow6 mBytes).2.getD (w + 1) 0 := by
  intro scalarBits state digit hostDigit
  have lower := (windowSteps_spec curve (scalarBitsLe mBytes) window.le).2
  have same : hostDigit = digitAt (bitsValue (scalarBitsLe mBytes)) w := by
    rw [scalarBitsLe_value, ← recodedDigit_eq mBytes window]
  have bits : scalarBits = scalarBitsLe mBytes := toBitsLe_flatMap mBytes
  obtain ⟨magnitude, sign, next⟩ := windowDigit_eq lower
  rw [scalarBitsLe_value] at next
  rw [same, recodedCarry_eq mBytes (Nat.succ_lt_succ window), ← next]
  simp only [digit, state, bits, and_true]
  exact ⟨magnitude, sign⟩

/-- The constraints are satisfiable exactly for the native point, and every window agrees with the native one. -/
theorem enforceSecpFixedBaseMul_satisfied_iff (mBytes : Vector UInt8 32) :
    (∀ tHost : (shortCurve curve.coeffB).Point, Satisfied (enforceSecpFixedBaseMul curve mBytes tHost) ↔
      tHost ≠ 0 ∧ tHost = scalarBytesToPoint curve.generator mBytes) ∧
    ∀ w < numWindows,
      let scalarBits := mBytes.toList.reverse.flatMap toBitsLe
      let state := (List.range w).foldl (windowStep (fixedGTable curve.generator) scalarBits)
        (SecpJacVar.infinity, false)
      let digit := windowDigit (windowBits scalarBits w) state.2
      let hostDigit := (recodeSignedWindow6 mBytes).1.getD w 0
      bitsValue digit.magBits = hostDigit.natAbs ∧
        (hostDigit ≠ 0 → digit.sign = decide (hostDigit < 0)) ∧
        (digit.carryNext.toNat : ℤ) = (recodeSignedWindow6 mBytes).2.getD (w + 1) 0 := by
  refine ⟨?_, fun w window => windowDigit_agrees curve mBytes window⟩
  intro tHost
  rw [Satisfied, enforceSecpFixedBaseMul_run]
  by_cases identity : tHost = 0
  · simp [identity]
  · simp [identity]

end Curve

end Gadget

end Pvugc.Secp
