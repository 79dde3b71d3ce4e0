import Pvugc.Circuit.OuterCircuit

namespace Pvugc.Circuit
open Pvugc.Algebra

section Reconstruction

variable {F : Type} [CommRing F]

theorem boolean_of_values {z : Variable → F} {bits : List Variable} {values : List Bool}
    (same : bits.map z = values.map fun bit => if bit then 1 else 0) :
    ∀ bit ∈ bits, z bit = 0 ∨ z bit = 1 := by
  intro bit member
  have value : z bit ∈ bits.map z := List.mem_map_of_mem member
  rw [same] at value
  obtain ⟨bool, -, equal⟩ := List.mem_map.mp value
  cases bool
  · exact Or.inl equal.symm
  · exact Or.inr equal.symm

variable [DecidableEq F]

/-- The integer that the verifier gadget reads from the bits. -/
def inputInteger (z : Variable → F) (bits : List Variable) : ℕ :=
  bitsValue (bits.map fun bit => decide (z bit = 1))

@[simp] theorem inputInteger_cons (z : Variable → F) (bit : Variable) (bits : List Variable) :
    inputInteger z (bit :: bits) = (decide (z bit = 1)).toNat + 2 * inputInteger z bits :=
  bitsValue_cons _ _

variable [Nontrivial F] (z : Variable → F)

theorem inputInteger_of_values {z : Variable → F} {bits : List Variable} {values : List Bool}
    (same : bits.map z = values.map fun bit => if bit then 1 else 0) :
    inputInteger z bits = bitsValue values := by
  have decided := congrArg (List.map fun value => decide (value = 1)) same
  rw [List.map_map, List.map_map] at decided
  have identity : ((fun value : F => decide (value = 1)) ∘ fun bit : Bool => if bit then 1 else 0) =
      id := by
    funext bit
    cases bit <;> simp
  rw [identity, List.map_id] at decided
  exact congrArg bitsValue decided

theorem reconstructFrom_evaluate (bits : List Variable) (lc : LinearCombination F) (powerOfTwo : F)
    (boolean : ∀ bit ∈ bits, z bit = 0 ∨ z bit = 1) :
    (reconstructFrom (lc, powerOfTwo) bits).1.evaluate z =
      lc.evaluate z + powerOfTwo * (inputInteger z bits : F) := by
  induction bits generalizing lc powerOfTwo with
  | nil => simp [reconstructFrom, inputInteger]
  | cons bit bits inductionHypothesis =>
      have rest := inductionHypothesis (lc ++ [(powerOfTwo * 1, bit)]) (powerOfTwo + powerOfTwo)
        fun other member => boolean other (List.mem_cons_of_mem bit member)
      have value : z bit = ((decide (z bit = 1)).toNat : F) := by
        rcases boolean bit List.mem_cons_self with zero | one
        · simp [zero]
        · simp [one]
      have step : reconstructFrom (lc, powerOfTwo) (bit :: bits) =
          reconstructFrom (lc ++ [(powerOfTwo * 1, bit)], powerOfTwo + powerOfTwo) bits := rfl
      rw [step, rest, LinearCombination.evaluate_append, LinearCombination.evaluate_singleton,
        inputInteger_cons]
      push_cast
      rw [← value]
      ring

/-- On boolean bits the reconstruction is the integer of the bits in the field. -/
theorem reconstructedLc_evaluate {bits : List Variable}
    (boolean : ∀ bit ∈ bits, z bit = 0 ∨ z bit = 1) :
    (reconstructedLc bits).evaluate z = (inputInteger z bits : F) := by
  rw [reconstructedLc, reconstructFrom_evaluate z bits [] 1 boolean]
  simp

variable {z} (unit : z .one = 1)
include unit

theorem bitsRow_holds {bits : List Variable} (boolean : ∀ bit ∈ bits, z bit = 0 ∨ z bit = 1)
    (xWit : Variable) : (bitsRow bits xWit).Holds z ↔ (inputInteger z bits : F) = z xWit := by
  rw [Constraint.Holds, bitsRow, reconstructedLc_evaluate z boolean]
  simp [unit]

omit [DecidableEq F] [Nontrivial F] in
theorem publicRow_holds (xWit xPub : Variable) :
    (publicRow xWit xPub : Constraint F).Holds z ↔ z xWit = z xPub := by
  rw [Constraint.Holds, publicRow]
  simp [unit]

end Reconstruction

namespace RecursionCycle

variable (C : RecursionCycle) (xs : List C.InnerScalar)

/-- The bit variables of one input of the statement. -/
def statementBits (k : ℕ) : List Variable := ((C.bindStatement xs).run .newRef).1.getD k []

/-- The two binding rows of one input of the statement. -/
def statementRows (k : ℕ) : List (Constraint C.OuterScalar) :=
  (((C.bindStatement xs).run .newRef).2.constraints.drop
    (xs.length * C.innerModulusBits + k * 2)).take 2

/-- The assignment of the honest synthesis. -/
def honestAssignment : Variable → C.OuterScalar := ((C.bindStatement xs).run .newRef).2.assignment

variable {xs} {k : ℕ} (inside : k < xs.length)
include inside

theorem statementBits_eq :
    C.statementBits xs k =
      witnessBlock (xs.length + k * C.innerModulusBits) C.innerModulusBits := by
  rw [statementBits, bindStatement_run]
  exact tabulate_getD _ inside []

theorem statementRows_eq :
    C.statementRows xs k =
      [bitsRow (C.statementBits xs k) (.witnessAt k), publicRow (.witnessAt k) (.inputAt (1 + k))] := by
  have booleans : ((C.inputBlocks xs.length xs.length).flatMap
      (List.map (booleanRow (F := C.OuterScalar)))).length = xs.length * C.innerModulusBits := by
    simp [List.length_flatMap, inputBlocks, witnessBlock, tabulate_sum, Function.comp_def]
  rw [statementBits_eq C inside, statementRows, bindStatement_run, inputVars, inputBlocks, tabulate_zip]
  rw [inputBlocks] at booleans
  dsimp only
  rw [← booleans, List.drop_length_add_append, flatMap_window
    (show ∀ input, (bindingRows (F := C.OuterScalar) input).length = 2 from fun _ => rfl) _
    (by simpa using inside)]
  simp [tabulate, bindingRows]

theorem bitValues_getElem? {i : ℕ} (low : i < C.innerModulusBits) :
    (C.bitValues xs)[k * C.innerModulusBits + i]? =
      ((C.normalizedInnerBitsLe xs[k])[i]?).map fun bit => if bit then 1 else 0 := by
  have widths (x : C.InnerScalar) : ((C.normalizedInnerBitsLe x).map
      fun bit => if bit then (1 : C.OuterScalar) else 0).length = C.innerModulusBits := by
    rw [List.length_map, normalizedInnerBitsLe_length]
  have window := congrArg (·[i]?) (flatMap_window widths xs inside)
  simp only [List.getElem?_take, if_pos low, List.getElem?_drop, List.getElem?_map] at window
  exact window

/-- The honest bits of an input. -/
theorem honestAssignment_bits :
    (C.statementBits xs k).map (C.honestAssignment xs) =
      (C.normalizedInnerBitsLe xs[k]).map fun bit => if bit then 1 else 0 := by
  rw [statementBits_eq C inside, witnessBlock, tabulate_map, normalizedInnerBitsLe_eq, List.map_map]
  apply tabulate_congr
  intro i low
  have value := C.bitValues_getElem? inside low
  rw [normalizedInnerBitsLe_eq, List.getElem?_map, List.getElem?_range low] at value
  simp only [Function.comp_apply, honestAssignment, bindStatement_run, ConstraintSystem.assignment,
    List.getD_eq_getElem?_getD]
  rw [List.getElem?_append_right (by simp [Nat.add_assoc]), List.length_map, Nat.add_assoc,
    Nat.add_sub_cancel_left, value]
  rfl

theorem honestAssignment_public :
    C.honestAssignment xs (.inputAt (1 + k)) = C.convertInnerToOuter xs[k] := by
  simp [honestAssignment, bindStatement_run, ConstraintSystem.assignment, Nat.add_comm 1, inside]

theorem honestAssignment_copy :
    C.honestAssignment xs (.witnessAt k) = C.convertInnerToOuter xs[k] := by
  simp [honestAssignment, bindStatement_run, ConstraintSystem.assignment, List.getElem?_append, inside]

omit inside in
theorem honestAssignment_one : C.honestAssignment xs .one = 1 := rfl

/-- The binding rows of an input, read as equations. -/
theorem statementRows_hold_iff {z : Variable → C.OuterScalar} (unit : z .one = 1)
    (boolean : ∀ bit ∈ C.statementBits xs k, z bit = 0 ∨ z bit = 1) :
    (∀ row ∈ C.statementRows xs k, row.Holds z) ↔
      (inputInteger z (C.statementBits xs k) : C.OuterScalar) = z (.witnessAt k) ∧
        z (.witnessAt k) = z (.inputAt (1 + k)) := by
  rw [statementRows_eq C inside]
  simp [bitsRow_holds unit boolean, publicRow_holds unit]

/-- The honest bits of every input satisfy its binding rows. -/
theorem honest_holds : ∀ row ∈ C.statementRows xs k, row.Holds (C.honestAssignment xs) := by
  have values := C.honestAssignment_bits inside
  rw [C.statementRows_hold_iff inside C.honestAssignment_one (boolean_of_values values),
    inputInteger_of_values values, normalizedInnerBitsLe_value, honestAssignment_copy C inside,
    honestAssignment_public C inside, convertInnerToOuter_eq]
  exact ⟨rfl, rfl⟩

omit inside in
/-- Every boolean assignment of the bits of an input that satisfies its binding rows encodes the
inner scalar modulo the inner order. -/
def Binds (xs : List C.InnerScalar) (k : Fin xs.length) : Prop :=
  ∀ z : Variable → C.OuterScalar, z .one = 1 →
    z (.inputAt (1 + k)) = C.convertInnerToOuter (xs.get k) →
    (∀ bit ∈ C.statementBits xs k, z bit = 0 ∨ z bit = 1) →
    (∀ row ∈ C.statementRows xs k, row.Holds z) →
    inputInteger z (C.statementBits xs k) ≡ (xs.get k).val [MOD C.innerModulus]

/-- A satisfying assignment encodes the inner scalar modulo the outer order. -/
theorem inputInteger_modEq {z : Variable → C.OuterScalar} (unit : z .one = 1)
    (statement : z (.inputAt (1 + k)) = C.convertInnerToOuter xs[k])
    (boolean : ∀ bit ∈ C.statementBits xs k, z bit = 0 ∨ z bit = 1)
    (rows : ∀ row ∈ C.statementRows xs k, row.Holds z) :
    inputInteger z (C.statementBits xs k) ≡ xs[k].val [MOD C.outerModulus] := by
  obtain ⟨reconstructed, copied⟩ := (C.statementRows_hold_iff inside unit boolean).mp rows
  rw [← ZMod.natCast_eq_natCast_iff, reconstructed, copied, statement, convertInnerToOuter_eq]

theorem inputInteger_lt (z : Variable → C.OuterScalar) :
    inputInteger z (C.statementBits xs k) < 2 ^ C.innerModulusBits := by
  have bound := bitsValue_lt ((C.statementBits xs k).map fun bit => decide (z bit = 1))
  have length : (C.statementBits xs k).length = C.innerModulusBits := by
    rw [statementBits_eq C inside, witnessBlock, tabulate_length]
  rwa [List.length_map, length] at bound

/-- The assignment that decomposes one input as another integer. -/
def forgedAssignment (xs : List C.InnerScalar) (k n : ℕ) (x : C.InnerScalar) :
    Variable → C.OuterScalar
  | .one => 1
  | .inputAt _ => C.convertInnerToOuter x
  | .witnessAt index =>
    if index < xs.length then C.convertInnerToOuter x
    else if n.testBit (index - (xs.length + k * C.innerModulusBits)) then 1 else 0

theorem forgedAssignment_bits (n : ℕ) :
    (C.statementBits xs k).map (C.forgedAssignment xs k n xs[k]) =
      ((List.range C.innerModulusBits).map n.testBit).map fun bit => if bit then 1 else 0 := by
  rw [statementBits_eq C inside, witnessBlock, tabulate_map, List.map_map]
  apply tabulate_congr
  intro i _
  simp only [Function.comp_apply, forgedAssignment]
  rw [if_neg (by omega), Nat.add_sub_cancel_left]

/-- An integer below the bit bound that agrees modulo the outer order is accepted. -/
theorem forgedAssignment_holds {n : ℕ} (fits : n < 2 ^ C.innerModulusBits)
    (congruent : (n : C.OuterScalar) = (xs[k].val : C.OuterScalar)) :
    (∀ bit ∈ C.statementBits xs k, C.forgedAssignment xs k n xs[k] bit = 0 ∨
        C.forgedAssignment xs k n xs[k] bit = 1) ∧
      (∀ row ∈ C.statementRows xs k, row.Holds (C.forgedAssignment xs k n xs[k])) ∧
      inputInteger (C.forgedAssignment xs k n xs[k]) (C.statementBits xs k) = n := by
  have values := C.forgedAssignment_bits inside n
  have integer := inputInteger_of_values values
  rw [bitsValue_testBit, Nat.mod_eq_of_lt fits] at integer
  have boolean := boolean_of_values values
  refine ⟨boolean, (C.statementRows_hold_iff inside rfl boolean).mpr ?_, integer⟩
  rw [integer, congruent, ← convertInnerToOuter_eq]
  simp [forgedAssignment, inside]

end RecursionCycle

section Binding

variable (C : RecursionCycle) (xs : List C.InnerScalar) (k : Fin xs.length)

theorem binds_iff : C.Binds xs k ↔ 2 ^ C.innerModulusBits ≤ (xs.get k).val + C.outerModulus := by
  have small : (xs.get k).val < C.outerModulus := (ZMod.val_lt _).trans C.lt
  constructor
  · intro binds
    by_contra short
    obtain ⟨boolean, rows, integer⟩ := C.forgedAssignment_holds k.isLt (not_le.mp short) (by simp)
    have same := binds (C.forgedAssignment xs k _ xs[k.val]) rfl rfl boolean rows
    rw [integer] at same
    exact C.notDvd ((Nat.modEq_zero_iff_dvd).mp (Nat.ModEq.add_left_cancel' _ same))
  · intro long z unit statement boolean rows
    have congruent := C.inputInteger_modEq k.isLt unit statement boolean rows
    have bound := (C.inputInteger_lt k.isLt z).trans_le long
    rcases Nat.lt_or_ge (inputInteger z (C.statementBits xs k)) C.outerModulus with below | above
    · rw [congruent.eq_of_lt_of_lt below small]
      rfl
    · -- a second decomposition would be the scalar plus the outer order
      obtain ⟨rest, sum⟩ := Nat.exists_eq_add_of_le above
      rw [sum] at congruent bound
      have equal : rest = (xs.get k).val := by
        apply Nat.ModEq.eq_of_lt_of_lt _ (by omega) small
        simpa [Nat.ModEq] using congruent
      omega

/-- The honest bits satisfy the binding rows, and the rows determine an input modulo the inner order
exactly when adding the outer order to it leaves the bit width. -/
theorem statementBinding :
    (∀ row ∈ C.statementRows xs k, row.Holds (C.honestAssignment xs)) ∧
      (C.Binds xs k ↔ 2 ^ C.innerModulusBits ≤ (xs.get k).val + C.outerModulus) :=
  ⟨C.honest_holds k.isLt, binds_iff C xs k⟩

end Binding

/-- On BLS12-377/BW6-761 the outer order exceeds every decomposition. -/
theorem bls12Bw6_two_pow_bits_le : 2 ^ bls12Bw6Cycle.innerModulusBits ≤ bls12Bw6Cycle.outerModulus := by
  have bits : bls12Bw6Cycle.innerModulusBits ≤ 253 := Nat.size_le.mpr (by decide)
  have wide : 2 ^ 253 ≤ bls12Bw6Cycle.outerModulus := by decide
  exact (Nat.pow_le_pow_right Nat.two_pos bits).trans wide

/-- So every statement is bound on that cycle. -/
theorem bls12Bw6Cycle_binds (xs : List bls12Bw6Cycle.InnerScalar) (k : Fin xs.length) :
    bls12Bw6Cycle.Binds xs k := by
  rw [binds_iff]
  exact bls12Bw6_two_pow_bits_le.trans (Nat.le_add_left _ _)

/-- On MNT4-298/MNT6-298 the scalar zero is also decomposed as the outer order. -/
theorem mnt4Mnt6Cycle_not_binds : ¬ mnt4Mnt6Cycle.Binds [0] 0 := by
  have bits : 298 ≤ mnt4Mnt6Cycle.innerModulusBits := Nat.lt_size.mpr (by decide +kernel)
  have narrow : (0 : mnt4Mnt6Cycle.InnerScalar).val + mnt4Mnt6Cycle.outerModulus < 2 ^ 298 := by
    rw [ZMod.val_zero]
    decide
  rw [binds_iff]
  exact (narrow.trans_le (Nat.pow_le_pow_right Nat.two_pos bits)).not_ge

end Pvugc.Circuit
