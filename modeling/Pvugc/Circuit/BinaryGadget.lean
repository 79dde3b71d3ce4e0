import Pvugc.Circuit.FieldGadget

namespace Pvugc.Circuit
open Pvugc.Algebra Pvugc.Groth16

section Rows

variable {F : Type} [Field F] [DecidableEq F]

/-- One for a nonzero value and zero for zero. -/
def indicator (x : F) : F := if x = 0 then 0 else 1

/-- The system with the rows `value * inverse = product` and `value * (1 - product) = 0`. -/
def withIndicator (value : LinearCombination F) (cs : ConstraintSystem F) : ConstraintSystem F where
  instanceAssignment := cs.instanceAssignment
  witnessAssignment := cs.witnessAssignment ++
    [(value.evaluate cs.assignment)⁻¹, indicator (value.evaluate cs.assignment)]
  constraints := cs.constraints ++
    [⟨value, [(1, .witnessAt cs.witnessAssignment.length)], [(1, .witnessAt (cs.witnessAssignment.length + 1))]⟩,
      ⟨value, [(1, .one), (-1, .witnessAt (cs.witnessAssignment.length + 1))], []⟩]

/-- The indicator of a value is a new witness beside the inverse of the value. -/
def newIndicator (value : LinearCombination F) : Synthesis F (LinearCombination F) :=
  modifyGet fun cs => ([(1, .witnessAt (cs.witnessAssignment.length + 1))], withIndicator value cs)

variable {value : LinearCombination F} {cs : ConstraintSystem F}

theorem newIndicator_run : (newIndicator value).run cs =
    ([(1, .witnessAt (cs.witnessAssignment.length + 1))], withIndicator value cs) := rfl

theorem newIndicator_rows : newRows (newIndicator value) cs =
    [⟨value, [(1, .witnessAt cs.witnessAssignment.length)], [(1, .witnessAt (cs.witnessAssignment.length + 1))]⟩,
      ⟨value, [(1, .one), (-1, .witnessAt (cs.witnessAssignment.length + 1))], []⟩] := List.drop_left

/-- The rows hold for an inverse, or anything beside a zero value, and the indicator. -/
theorem newIndicator_holds {z : Variable → F} (one : z .one = 1) :
    (∀ row ∈ newRows (newIndicator value) cs, row.Holds z) ↔
      value.evaluate z * z (.witnessAt cs.witnessAssignment.length) =
          z (.witnessAt (cs.witnessAssignment.length + 1)) ∧
        value.evaluate z * (1 - z (.witnessAt (cs.witnessAssignment.length + 1))) = 0 := by
  simp [newIndicator_rows, Constraint.Holds, LinearCombination.evaluate, one, sub_eq_add_neg]

theorem newIndicator_inScope (witnessed : value.Witnessed cs.witnessAssignment.length) :
    Scoped (newIndicator value) cs where
  instances := rfl
  witnesses := List.prefix_append _ _
  constraints := by
    rw [newIndicator_rows]
    rfl
  scope := by
    have later : cs.witnessAssignment.length ≤ (withIndicator value cs).witnessAssignment.length := by
      rw [withIndicator, List.length_append]
      exact Nat.le_add_right _ _
    have inverse : (Variable.witnessAt cs.witnessAssignment.length).Witnessed
        (withIndicator value cs).witnessAssignment.length := by
      simp [Variable.Witnessed, withIndicator]
    have product : (Variable.witnessAt (cs.witnessAssignment.length + 1)).Witnessed
        (withIndicator value cs).witnessAssignment.length := by
      simp [Variable.Witnessed, withIndicator]
    rw [newIndicator_rows, newIndicator_run]
    refine List.forall_mem_cons.mpr ⟨⟨witnessed.mono later, ?_, ?_⟩,
      List.forall_mem_singleton.mpr ⟨witnessed.mono later, ?_, ?_⟩⟩
    · exact List.forall_mem_singleton.mpr inverse
    · exact List.forall_mem_singleton.mpr product
    · exact List.forall_mem_cons.mpr ⟨trivial, List.forall_mem_singleton.mpr product⟩
    · nofun

theorem newIndicator_computes {condition : (Variable → F) → Prop}
    (witnessed : value.Witnessed cs.witnessAssignment.length) :
    Computes (.linear F) condition (newIndicator value) cs fun z => indicator (value.evaluate z) := by
  have inScope := newIndicator_inScope witnessed
  refine ⟨inScope, ?_, ?_, ?_, ?_⟩
  · refine List.forall_mem_singleton.mpr ?_
    simp [Variable.Witnessed, newIndicator_run, withIndicator]
  · intro z one _ rows
    obtain ⟨product, vanishes⟩ := (newIndicator_holds one).mp rows
    have read : (Reading.linear F).value z ((newIndicator value).run cs).1 =
        z (.witnessAt (cs.witnessAssignment.length + 1)) := by
      simp [newIndicator_run, Reading.linear]
    rw [read, indicator]
    split
    case isTrue zero => rw [← product, zero, zero_mul]
    case isFalse nonzero => exact (sub_eq_zero.mp ((mul_eq_zero.mp vanishes).resolve_left nonzero)).symm
  · intro z one _
    -- The inverse is assigned first and the indicator behind it.
    have first := assign_agree z cs.witnessAssignment.length (value.evaluate z)⁻¹
    have second := assign_agree (assign z cs.witnessAssignment.length (value.evaluate z)⁻¹)
      (cs.witnessAssignment.length + 1) (indicator (value.evaluate z))
    have agree := first.trans (Nat.le_succ _) second
    refine ⟨_, agree, (newIndicator_holds (agree.one.symm.trans one)).mpr ?_⟩
    rw [assign_value, ← witnessed.evaluate_eq agree, ← second.witnesses _ (Nat.lt_succ_self _), assign_value, indicator]
    split
    case isTrue zero => simp [zero]
    case isFalse nonzero => simp [nonzero]
  · intro _
    have inverse : ((newIndicator value).run cs).2.assignment (.witnessAt cs.witnessAssignment.length) =
        (value.evaluate cs.assignment)⁻¹ := by
      simp [newIndicator_run, withIndicator, ConstraintSystem.assignment]
    have product : ((newIndicator value).run cs).2.assignment (.witnessAt (cs.witnessAssignment.length + 1)) =
        indicator (value.evaluate cs.assignment) := by
      simp [newIndicator_run, withIndicator, ConstraintSystem.assignment]
    rw [newIndicator_holds rfl, inverse, product, ← witnessed.evaluate_eq inScope.agree, indicator]
    split
    case isTrue zero => simp [zero]
    case isFalse nonzero => simp [nonzero]

/-- The sum of two bits modulo two, each the indicator of a value. -/
def addBits (left right : LinearCombination F) : Synthesis F (LinearCombination F) := do
  let first ← newIndicator left
  let second ← newIndicator right
  let both ← newProduct first second
  pure (first ++ (second ++ both.map fun term => (-2 * term.1, term.2)))

/-- One where two values have the same indicator. -/
def sameBits (left right : LinearCombination F) : Synthesis F (LinearCombination F) := do
  let other ← addBits left right
  pure ((1, .one) :: other.map fun term => (-1 * term.1, term.2))

/-- The sum of the products modulo two. -/
def dotProduct : List (LinearCombination F × LinearCombination F) → Synthesis F (LinearCombination F)
  | [] => pure []
  | [pair] => newProduct pair.1 pair.2
  | pair :: next :: rest => do
    let product ← newProduct pair.1 pair.2
    let sum ← dotProduct (next :: rest)
    addBits product sum

omit [DecidableEq F] in
theorem scaled_evaluate (z : Variable → F) (factor : F) (lc : LinearCombination F) :
    LinearCombination.evaluate z (lc.map fun term => (factor * term.1, term.2)) = factor * lc.evaluate z := by
  rw [LinearCombination.evaluate, LinearCombination.evaluate, ← List.sum_map_mul_left, List.map_map]
  simp only [Function.comp_def, mul_assoc]

omit [Field F] [DecidableEq F] in
theorem scaled_witnessed {bound : ℕ} {lc : LinearCombination F} (witnessed : lc.Witnessed bound) (f : F → F) :
    LinearCombination.Witnessed bound (lc.map fun term => (f term.1, term.2)) :=
  List.forall_mem_map.mpr witnessed

variable {left right : LinearCombination F} {condition : (Variable → F) → Prop}

theorem addBits_computes (stable : StableBelow cs.witnessAssignment.length condition)
    (first : left.Witnessed cs.witnessAssignment.length) (second : right.Witnessed cs.witnessAssignment.length) :
    Computes (.linear F) condition (addBits left right) cs fun z =>
      indicator (left.evaluate z) + indicator (right.evaluate z) -
        2 * (indicator (left.evaluate z) * indicator (right.evaluate z)) := by
  refine (newIndicator_computes first).andThen
    (fun z x => x + indicator (right.evaluate z) - 2 * (x * indicator (right.evaluate z))) stable
    fun x cs1 le1 xAllocated stable1 => ?_
  refine (newIndicator_computes (second.mono le1)).andThen
    (fun z y => x.evaluate z + y - 2 * (x.evaluate z * y)) stable1 fun y cs2 le2 yAllocated stable2 => ?_
  refine (newProduct_computes (xAllocated.mono le2) yAllocated).andThen
    (fun z both => x.evaluate z + y.evaluate z - 2 * both) stable2 fun both cs3 le3 bothAllocated _ => ?_
  have sum : LinearCombination.Witnessed cs3.witnessAssignment.length
      (x ++ (y ++ both.map fun term : F × Variable => (-2 * term.1, term.2))) :=
    List.forall_mem_append.mpr ⟨xAllocated.mono (le2.trans le3),
      List.forall_mem_append.mpr ⟨yAllocated.mono le3, scaled_witnessed bothAllocated _⟩⟩
  refine (Computes.pure (R := .linear F) sum).congr fun z _ _ => ?_
  change LinearCombination.evaluate z _ = _ - 2 * both.evaluate z
  rw [LinearCombination.evaluate_append, LinearCombination.evaluate_append, scaled_evaluate]
  ring

theorem sameBits_computes (stable : StableBelow cs.witnessAssignment.length condition)
    (first : left.Witnessed cs.witnessAssignment.length) (second : right.Witnessed cs.witnessAssignment.length) :
    Computes (.linear F) condition (sameBits left right) cs fun z =>
      1 - (indicator (left.evaluate z) + indicator (right.evaluate z) -
        2 * (indicator (left.evaluate z) * indicator (right.evaluate z))) := by
  refine (addBits_computes stable first second).andThen (fun _ other => 1 - other) stable
    fun other cs1 _ allocated _ => ?_
  have difference : LinearCombination.Witnessed cs1.witnessAssignment.length
      ((1, .one) :: other.map fun term => (-1 * term.1, term.2)) :=
    List.forall_mem_cons.mpr ⟨trivial, scaled_witnessed allocated _⟩
  refine (Computes.pure (R := .linear F) difference).congr fun z one _ => ?_
  change LinearCombination.evaluate z ([(1, .one)] ++ _) = 1 - other.evaluate z
  rw [LinearCombination.evaluate_append, scaled_evaluate, LinearCombination.evaluate_singleton, one]
  ring

omit [DecidableEq F] in
theorem newProduct_oblivious (left right : LinearCombination F) :
    Oblivious (newProduct left right) (newProduct left right) := by
  intro cs cs' same
  simp only [newProduct_run, withProduct, same.witnesses, same.constraints, true_and]
  exact ⟨same.instances, by simp [same.witnesses], rfl⟩

theorem newIndicator_oblivious (value : LinearCombination F) :
    Oblivious (newIndicator value) (newIndicator value) := by
  intro cs cs' same
  simp only [newIndicator_run, withIndicator, same.witnesses, same.constraints, true_and]
  exact ⟨same.instances, by simp [same.witnesses], rfl⟩

theorem addBits_oblivious (left right : LinearCombination F) : Oblivious (addBits left right) (addBits left right) :=
  (newIndicator_oblivious left).bind fun _ => (newIndicator_oblivious right).bind fun _ =>
    (newProduct_oblivious _ _).bind fun _ => .pure _

theorem dotProduct_oblivious (pairs : List (LinearCombination F × LinearCombination F)) :
    Oblivious (dotProduct pairs) (dotProduct pairs) := by
  induction pairs using dotProduct.induct with
  | case1 => exact .pure _
  | case2 pair => exact newProduct_oblivious _ _
  | case3 pair next rest ih => exact (newProduct_oblivious _ _).bind fun _ => ih.bind fun _ => addBits_oblivious _ _

end Rows

section Bits

variable {F K : Type} [Field F] [DecidableEq F] [CommRing K] [DecidableEq K]

/-- The ring has no other elements than zero and one. -/
def Binary (K : Type) [CommRing K] : Prop := ∀ k : K, k = 0 ∨ k = 1

/-- A bit is coded by zero or one, and any nonzero value is read as one. -/
def bitCode (F : Type) [Field F] [DecidableEq F] (binary : Binary K) : FieldCode F K where
  encode k := if k = 0 then 0 else 1
  decode value := if value = 0 then 0 else 1
  decode_encode k := by
    rcases binary k with rfl | rfl
    · simp
    · split <;> simp_all

omit [DecidableEq K] in
theorem Binary.one_add_one [Nontrivial K] (binary : Binary K) : (1 : K) + 1 = 0 := by
  rcases binary (1 + 1) with zero | one
  · exact zero
  · exact absurd (add_eq_left.mp one) one_ne_zero

variable (binary : Binary K)

theorem bitCode_product (x y : F) :
    (bitCode F binary).decode (x * y) = (bitCode F binary).decode x * (bitCode F binary).decode y := by
  by_cases zero : x = 0
  · simp [bitCode, zero]
  · by_cases zero' : y = 0 <;> simp [bitCode, zero, zero']

theorem bitCode_sum [Nontrivial K] (x y : F) :
    (bitCode F binary).decode (indicator x + indicator y - 2 * (indicator x * indicator y)) =
      (bitCode F binary).decode x + (bitCode F binary).decode y := by
  have double := binary.one_add_one
  by_cases zero : x = 0
  · by_cases zero' : y = 0 <;> simp [bitCode, indicator, zero, zero']
  · by_cases zero' : y = 0
    · simp [bitCode, indicator, zero, zero']
    · have none : (1 : F) + 1 - 2 = 0 := by ring
      simp [bitCode, indicator, zero, zero', double, none]

theorem bitCode_same [Nontrivial K] (x y : F) :
    (FieldCode.bool F).decode (1 - (indicator x + indicator y - 2 * (indicator x * indicator y))) =
      decide ((bitCode F binary).decode x = (bitCode F binary).decode y) := by
  by_cases zero : x = 0
  · by_cases zero' : y = 0 <;> simp [FieldCode.bool, bitCode, indicator, zero, zero']
  · by_cases zero' : y = 0
    · simp [FieldCode.bool, bitCode, indicator, zero, zero']
    · have none : (1 : F) - (1 + 1 - 2) = 1 := by ring
      simp [FieldCode.bool, bitCode, indicator, zero, zero', none]

omit [DecidableEq K] in
/-- Every natural multiple of a bit is the bit or zero, as the number is odd or even. -/
theorem Binary.nsmul_eq [Nontrivial K] (binary : Binary K) (b : Bool) (n : ℕ) (k : K) :
    (b.toNat + 2 * n) • k = if b then k else 0 := by
  have double : (2 * n) • k = 0 := by
    rw [Nat.mul_comm, mul_nsmul, two_nsmul, ← two_mul, ← one_add_one_eq_two, binary.one_add_one, zero_mul]
  rw [add_nsmul, double, add_zero]
  cases b <;> simp

end Bits

section Gadgets

variable {F K : Type} [Field F] [DecidableEq F] [CommRing K] [DecidableEq K] (binary : Binary K) (modulus : ℕ)

/-- The gadgets of the product of bits. -/
def binaryPairing (F : Type) [Field F] [DecidableEq F] : PairingVar F (mulPairing K modulus) where
  G1Var := LinearCombination F
  G2Var := LinearCombination F
  G1PreparedVar := LinearCombination F
  G2PreparedVar := LinearCombination F
  GTVar := LinearCombination F
  BooleanVar := LinearCombination F
  g1 := (bitCode F binary).reading
  g2 := (bitCode F binary).reading
  g1Prepared := (bitCode F binary).reading
  g2Prepared := (bitCode F binary).reading
  miller := (bitCode F binary).reading
  gt := (bitCode F binary).reading
  boolean := (FieldCode.bool F).reading
  newConstantG1 := (bitCode F binary).constant
  newConstantG2 := (bitCode F binary).constant
  newWitnessG1 := (bitCode F binary).newWitness
  newWitnessG2 := (bitCode F binary).newWitness
  scalarMulLe v bits :=
    match bits with
    | [] => pure []
    | bit :: _ => newProduct (bitLc bit) v
  add := addBits
  negate := pure
  prepareG1 := pure
  prepareG2 := pure
  millerLoop vs ws := dotProduct (vs.zip ws)
  finalExponentiation := pure
  isEq := sameBits
  enforceTrue v := enforceConstraint [(1, .one)] v [(1, .one)]

variable {binary modulus} {cs : ConstraintSystem F} {condition : (Variable → F) → Prop}

theorem scalarMulLe_computes [Nontrivial K] {v : LinearCombination F} {bits : List Variable}
    (allocated : v.Witnessed cs.witnessAssignment.length)
    (witnessed : ∀ bit ∈ bits, bit.Witnessed cs.witnessAssignment.length) :
    Computes (bitCode F binary).reading (BooleanBits bits) ((binaryPairing binary modulus F).scalarMulLe v bits) cs
      fun z => inputInteger z bits • (bitCode F binary).reading.value z v := by
  cases bits with
  | nil =>
      refine (Computes.pure (R := (bitCode F binary).reading) (v := []) nofun).congr fun z _ _ => ?_
      simp [inputInteger, FieldCode.reading, bitCode]
  | cons bit bits =>
      have bitAllocated : (bitLc bit : LinearCombination F).Witnessed cs.witnessAssignment.length :=
        List.forall_mem_singleton.mpr (witnessed bit List.mem_cons_self)
      refine ((newProduct_computes bitAllocated allocated).decoded (bitCode F binary)).congr fun z _ boolean => ?_
      rw [inputInteger_cons, binary.nsmul_eq, bitCode_product]
      rcases boolean bit List.mem_cons_self with zero | one
      · simp [bitLc, zero, bitCode]
      · simp [bitLc, one, bitCode, FieldCode.reading]

theorem dotProduct_computes [Nontrivial K] (pairs : List (LinearCombination F × LinearCombination F))
    (stable : StableBelow cs.witnessAssignment.length condition)
    (allocated : ∀ pair ∈ pairs, pair.1.Witnessed cs.witnessAssignment.length ∧
      pair.2.Witnessed cs.witnessAssignment.length) :
    Computes (bitCode F binary).reading condition (dotProduct pairs) cs fun z => (pairs.map fun pair =>
      (bitCode F binary).decode (pair.1.evaluate z) * (bitCode F binary).decode (pair.2.evaluate z)).sum := by
  induction pairs using dotProduct.induct generalizing cs with
  | case1 =>
      refine (Computes.pure (R := (bitCode F binary).reading) (v := []) nofun).congr fun z _ _ => ?_
      simp [FieldCode.reading, bitCode]
  | case2 pair =>
      obtain ⟨left, right⟩ := allocated pair (List.mem_singleton.mpr rfl)
      refine ((newProduct_computes left right).decoded (bitCode F binary)).congr fun z _ _ => ?_
      rw [bitCode_product, List.map_singleton, List.sum_singleton]
  | case3 pair next rest ih =>
      obtain ⟨head, tail⟩ := List.forall_mem_cons.mp allocated
      rw [dotProduct]
      refine ((newProduct_computes head.1 head.2).decoded (bitCode F binary)).andThen
        (fun z value => value + ((next :: rest).map fun pair =>
          (bitCode F binary).decode (pair.1.evaluate z) * (bitCode F binary).decode (pair.2.evaluate z)).sum) stable
        (fun product cs1 le1 productAllocated stable1 => ?_) |>.congr fun z _ _ => ?_
      · refine (ih stable1 fun pair member => ?_).andThen
          (fun z value => (bitCode F binary).reading.value z product + value) stable1
          fun sum cs2 le2 sumAllocated stable2 => ?_
        · exact ⟨(tail pair member).1.mono le1, (tail pair member).2.mono le1⟩
        · exact ((addBits_computes stable2 (productAllocated.mono le2) sumAllocated).decoded (bitCode F binary)).congr
            fun z _ _ => bitCode_sum binary _ _
      · simp only [List.map_cons, List.sum_cons, bitCode_product]

/-- The gadgets of bits keep the laws of the library. -/
theorem binaryPairing_lawful [Nontrivial K] : (binaryPairing binary modulus F).Lawful where
  constantG1_allocated := (bitCode F binary).constant_allocated
  constantG1_value _ p one := (bitCode F binary).constant_value p one
  constantG2_allocated := (bitCode F binary).constant_allocated
  constantG2_value _ q one := (bitCode F binary).constant_value q one
  newWitnessG1 := (bitCode F binary).newWitness_chooses
  newWitnessG2 := (bitCode F binary).newWitness_chooses
  scalarMulLe _ _ _ := scalarMulLe_computes
  add cs v w left right := by
    exact ((addBits_computes (fun _ _ => trivial) left right).decoded (bitCode F binary)).congr
      fun z _ _ => bitCode_sum binary _ _
  negate cs v allocated := by
    refine (Computes.pure allocated).congr fun z _ _ => ?_
    exact eq_neg_of_add_eq_zero_left ((two_mul _).symm.trans (by
      rw [← one_add_one_eq_two, binary.one_add_one, zero_mul]))
  prepareG1 _ _ allocated := Computes.pure allocated
  prepareG2 _ _ allocated := Computes.pure allocated
  millerLoop cs vs ws left right _ := by
    refine (dotProduct_computes (vs.zip ws) (fun _ _ => trivial) fun pair member => ?_).congr fun z _ _ => ?_
    · exact ⟨left _ (List.of_mem_zip member).1, right _ (List.of_mem_zip member).2⟩
    · congr 1
      change _ = List.zipWith (fun p q => p * q) (vs.map _) (ws.map _)
      rw [List.zipWith_map]
      exact List.map_zip_eq_zipWith
  finalExponentiation _ _ allocated := Computes.pure allocated
  isEq cs v w left right := by
    exact ((sameBits_computes (fun _ _ => trivial) left right).decoded (FieldCode.bool F)).congr
      fun z _ _ => bitCode_same binary _ _
  enforceTrue cs v allocated := by
    have row : Enforces _ cs _ := enforceTrue_enforces allocated
    refine ⟨row.inScope, row.same, fun z one => (row.exact z one).trans ?_⟩
    simp [binaryPairing, FieldCode.reading, FieldCode.bool]

/-- Their rows do not depend on the assigned values. -/
theorem binaryPairing_uniform : (binaryPairing binary modulus F).Uniform where
  newWitnessG1 := (bitCode F binary).newWitness_oblivious
  newWitnessG2 := (bitCode F binary).newWitness_oblivious
  scalarMulLe v bits := by
    cases bits with
    | nil => exact .pure _
    | cons bit bits => exact newProduct_oblivious _ _
  add := addBits_oblivious
  negate v := .pure v
  prepareG1 v := .pure v
  prepareG2 v := .pure v
  millerLoop _ _ := dotProduct_oblivious _
  finalExponentiation v := .pure v
  isEq v w := (addBits_oblivious v w).bind fun _ => .pure _
  enforceTrue v := by
    intro cs cs' same
    exact ⟨rfl, same.instances, same.witnesses, congrArg (· ++ _) same.constraints⟩

end Gadgets

end Pvugc.Circuit
