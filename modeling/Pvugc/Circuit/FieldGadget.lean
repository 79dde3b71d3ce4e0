import Pvugc.Circuit.PairingVar
import Mathlib.FieldTheory.Finite.Polynomial

namespace Pvugc.Circuit
open Pvugc.Algebra Pvugc.Groth16

section Products

variable {F : Type} [CommRing F]

/-- The values of linear combinations of witnesses. -/
def Reading.linear (F : Type) [CommRing F] : Reading F (LinearCombination F) F where
  value z lc := lc.evaluate z
  Allocated bound lc := lc.Witnessed bound
  mono le witnessed := witnessed.mono le
  stable witnessed agree := witnessed.evaluate_eq agree

/-- A product is a new witness with one row. -/
def newProduct (left right : LinearCombination F) : Synthesis F (LinearCombination F) := do
  let product ← modifyGet fun cs => (.witnessAt cs.witnessAssignment.length,
    { cs with witnessAssignment :=
      cs.witnessAssignment ++ [left.evaluate cs.assignment * right.evaluate cs.assignment] })
  enforceConstraint left right [(1, product)]
  pure [(1, product)]

variable {left right : LinearCombination F} {cs : ConstraintSystem F}

/-- The system with the row of a product. -/
def withProduct (left right : LinearCombination F) (cs : ConstraintSystem F) : ConstraintSystem F where
  instanceAssignment := cs.instanceAssignment
  witnessAssignment := cs.witnessAssignment ++ [left.evaluate cs.assignment * right.evaluate cs.assignment]
  constraints := cs.constraints ++ [⟨left, right, [(1, .witnessAt cs.witnessAssignment.length)]⟩]

theorem newProduct_run : (newProduct left right).run cs =
    ([(1, .witnessAt cs.witnessAssignment.length)], withProduct left right cs) := rfl

theorem newProduct_rows : newRows (newProduct left right) cs =
    [⟨left, right, [(1, .witnessAt cs.witnessAssignment.length)]⟩] := List.drop_left

/-- An assignment with another value for one witness. -/
def assign (z : Variable → F) (index : ℕ) (value : F) : Variable → F :=
  fun var => if var = .witnessAt index then value else z var

omit [CommRing F] in
theorem assign_agree (z : Variable → F) (index : ℕ) (value : F) : AgreeBelow index z (assign z index value) where
  one := rfl
  inputs _ := rfl
  witnesses other below := by
    rw [assign, if_neg]
    rintro ⟨⟩
    exact Nat.lt_irrefl _ below

omit [CommRing F] in
theorem assign_value (z : Variable → F) (index : ℕ) (value : F) : assign z index value (.witnessAt index) = value :=
  if_pos rfl

theorem newProduct_inScope (first : left.Witnessed cs.witnessAssignment.length)
    (second : right.Witnessed cs.witnessAssignment.length) : Scoped (newProduct left right) cs where
  instances := rfl
  witnesses := List.prefix_append _ _
  constraints := by
    rw [newProduct_rows]
    rfl
  scope := by
    rw [newProduct_rows, newProduct_run, withProduct, List.length_append]
    intro row member
    rw [List.mem_singleton.mp member]
    refine ⟨first.mono (Nat.le_add_right _ _), second.mono (Nat.le_add_right _ _), ?_⟩
    rintro term single
    rw [List.mem_singleton.mp single]
    exact Nat.lt_succ_self _

/-- The row of a product determines the new witness. -/
theorem newProduct_computes {condition : (Variable → F) → Prop} (first : left.Witnessed cs.witnessAssignment.length)
    (second : right.Witnessed cs.witnessAssignment.length) :
    Computes (.linear F) condition (newProduct left right) cs fun z => left.evaluate z * right.evaluate z := by
  have inScope := newProduct_inScope first second
  have holds (z : Variable → F) : (∀ row ∈ newRows (newProduct left right) cs, row.Holds z) ↔
      left.evaluate z * right.evaluate z = z (.witnessAt cs.witnessAssignment.length) := by
    simp [newProduct_rows, Constraint.Holds]
  refine ⟨inScope, ?_, ?_, ?_, ?_⟩
  · rw [newProduct_run, withProduct, List.length_append]
    rintro term single
    rw [List.mem_singleton.mp single]
    exact Nat.lt_succ_self _
  · intro z _ _ rows
    rw [(holds z).mp rows, newProduct_run]
    simp [Reading.linear]
  · intro z _ _
    have agree := assign_agree z cs.witnessAssignment.length (left.evaluate z * right.evaluate z)
    refine ⟨_, agree, (holds _).mpr ?_⟩
    rw [assign_value, ← first.evaluate_eq agree, ← second.evaluate_eq agree]
  · intro _
    rw [holds, ← first.evaluate_eq inScope.agree, ← second.evaluate_eq inScope.agree]
    simp [newProduct_run, withProduct, ConstraintSystem.assignment]

end Products

section Polynomials

/-- Straight-line arithmetic over numbered inputs. -/
inductive Arithmetic (F : Type) (n : ℕ)
  | constant (value : F)
  | input (index : Fin n)
  | add (left right : Arithmetic F n)
  | mul (left right : Arithmetic F n)

variable {F : Type} [CommRing F] {n : ℕ}

namespace Arithmetic

def evaluate (x : Fin n → F) : Arithmetic F n → F
  | constant value => value
  | input index => x index
  | add left right => left.evaluate x + right.evaluate x
  | mul left right => left.evaluate x * right.evaluate x

/-- Sums are linear combinations, products are witnesses. -/
def compile (vs : Fin n → LinearCombination F) : Arithmetic F n → Synthesis F (LinearCombination F)
  | constant value => pure [(value, .one)]
  | input index => pure (vs index)
  | add left right => do
      let first ← left.compile vs
      let second ← right.compile vs
      pure (first ++ second)
  | mul left right => do
      let first ← left.compile vs
      let second ← right.compile vs
      newProduct first second

/-- The compiled rows compute the arithmetic. -/
theorem compile_computes {condition : (Variable → F) → Prop} (arithmetic : Arithmetic F n)
    {vs : Fin n → LinearCombination F} {cs : ConstraintSystem F}
    (stable : StableBelow cs.witnessAssignment.length condition)
    (inputs : ∀ index, (vs index).Witnessed cs.witnessAssignment.length) :
    Computes (.linear F) condition (arithmetic.compile vs) cs fun z =>
      arithmetic.evaluate fun index => (vs index).evaluate z := by
  induction arithmetic generalizing cs with
  | constant value =>
      have one : LinearCombination.Witnessed cs.witnessAssignment.length [(value, .one)] := by
        intro term single
        rw [List.mem_singleton.mp single]
        trivial
      exact (Computes.pure (R := .linear F) one).congr fun z unit _ => by simp [Reading.linear, evaluate, unit]
  | input index => exact Computes.pure (R := .linear F) (inputs index)
  | add left right leftComputes rightComputes =>
      refine (leftComputes stable inputs).andThen
        (fun z value => value + right.evaluate fun index => (vs index).evaluate z) stable
        fun first cs1 le1 firstAllocated stable1 => ?_
      refine (rightComputes stable1 fun index => (inputs index).mono le1).andThen
        (fun z value => first.evaluate z + value) stable1 fun second cs2 le2 secondAllocated _ => ?_
      have sum : (first ++ second).Witnessed cs2.witnessAssignment.length :=
        List.forall_mem_append.mpr ⟨firstAllocated.mono le2, secondAllocated⟩
      exact (Computes.pure (R := .linear F) sum).congr fun z _ _ => LinearCombination.evaluate_append z first second
  | mul left right leftComputes rightComputes =>
      refine (leftComputes stable inputs).andThen
        (fun z value => value * right.evaluate fun index => (vs index).evaluate z) stable
        fun first cs1 le1 firstAllocated stable1 => ?_
      refine (rightComputes stable1 fun index => (inputs index).mono le1).andThen
        (fun z value => first.evaluate z * value) stable1 fun second cs2 le2 secondAllocated _ => ?_
      exact newProduct_computes (firstAllocated.mono le2) secondAllocated

/-- Arithmetic reaches every polynomial. -/
theorem exists_evaluate_eq_eval (p : MvPolynomial (Fin n) F) :
    ∃ arithmetic : Arithmetic F n, ∀ x, arithmetic.evaluate x = p.eval x := by
  induction p using MvPolynomial.induction_on with
  | C value => exact ⟨constant value, fun x => (MvPolynomial.eval_C value).symm⟩
  | add p q pReached qReached =>
      obtain ⟨left, leftValue⟩ := pReached
      obtain ⟨right, rightValue⟩ := qReached
      exact ⟨add left right, fun x => by rw [evaluate, leftValue, rightValue, map_add]⟩
  | mul_X p index pReached =>
      obtain ⟨left, leftValue⟩ := pReached
      exact ⟨mul left (input index), fun x => by rw [evaluate, evaluate, leftValue, map_mul, MvPolynomial.eval_X]⟩

/-- Over a finite field arithmetic reaches every function. -/
theorem exists_evaluate {F : Type} [Field F] [Finite F] (f : (Fin n → F) → F) :
    ∃ arithmetic : Arithmetic F n, ∀ x, arithmetic.evaluate x = f x := by
  have := Fintype.ofFinite F
  have reached : f ∈ (MvPolynomial.restrictDegree (Fin n) F (Fintype.card F - 1)).map
      (MvPolynomial.evalₗ F (Fin n)) := by
    rw [MvPolynomial.map_restrict_dom_evalₗ]
    trivial
  obtain ⟨p, -, rfl⟩ := reached
  exact exists_evaluate_eq_eval p

end Arithmetic

variable {F : Type} [Field F] [Finite F]

/-- The rows that compute a function of linear combinations. -/
noncomputable def compute (f : List F → F) (vs : List (LinearCombination F)) : Synthesis F (LinearCombination F) :=
  (Arithmetic.exists_evaluate fun x : Fin vs.length → F => f (List.ofFn x)).choose.compile vs.get

theorem compute_computes {condition : (Variable → F) → Prop} (f : List F → F) {vs : List (LinearCombination F)}
    {cs : ConstraintSystem F} (stable : StableBelow cs.witnessAssignment.length condition)
    (inputs : ∀ lc ∈ vs, lc.Witnessed cs.witnessAssignment.length) :
    Computes (.linear F) condition (compute f vs) cs fun z => f (vs.map (LinearCombination.evaluate z)) := by
  have reached := Arithmetic.exists_evaluate fun x : Fin vs.length → F => f (List.ofFn x)
  refine (Arithmetic.compile_computes reached.choose stable fun index => inputs _ (List.get_mem vs index)).congr
    fun z _ _ => ?_
  rw [reached.choose_spec]
  congr 1
  change List.ofFn (LinearCombination.evaluate z ∘ vs.get) = _
  rw [← List.map_ofFn, List.ofFn_get]

end Polynomials

section Codes

variable {K G1 G2 GT : Type} [CommRing K] [AddCommGroup G1] [AddCommGroup G2] [AddCommGroup GT]
variable [Module K G1] [Module K G2] [Module K GT] [DecidableEq GT]
variable {F A B D : Type} [Field F] [Finite F] [DecidableEq F]

/-- An embedding of a type in the field. -/
structure FieldCode (F A : Type) where
  encode : A → F
  decode : F → A
  decode_encode : ∀ a, decode (encode a) = a

/-- The decoded values of linear combinations. -/
def FieldCode.reading (code : FieldCode F A) : Reading F (LinearCombination F) A where
  value z lc := code.decode (lc.evaluate z)
  Allocated bound lc := lc.Witnessed bound
  mono le witnessed := witnessed.mono le
  stable witnessed agree := congrArg code.decode (witnessed.evaluate_eq agree)

def FieldCode.bool (F : Type) [Field F] [DecidableEq F] : FieldCode F Bool where
  encode b := if b then 1 else 0
  decode value := decide (value = 1)
  decode_encode b := by cases b <;> simp

def FieldCode.constant (code : FieldCode F A) (a : A) : LinearCombination F := [(code.encode a, .one)]

def FieldCode.newWitness (code : FieldCode F A) (a : A) : Synthesis F (LinearCombination F) := do
  let var ← newWitnessVariable (code.encode a)
  pure [(1, var)]

omit [Finite F] [DecidableEq F] in
theorem FieldCode.newWitness_chooses (code : FieldCode F A) (cs : ConstraintSystem F) (a : A) :
    Chooses code.reading (code.newWitness a) cs (fun _ choice => choice) a := by
  have rows : newRows (code.newWitness a) cs = [] := List.drop_length
  have run : (code.newWitness a).run cs = ([(1, .witnessAt cs.witnessAssignment.length)],
      { cs with witnessAssignment := cs.witnessAssignment ++ [code.encode a] }) := rfl
  refine ⟨⟨rfl, List.prefix_append _ _, ?_, ?_⟩, ?_, ?_, ?_, ?_⟩
  · rw [rows, List.append_nil, run]
  · rw [rows]
    nofun
  · rw [run, List.length_append]
    rintro term single
    rw [List.mem_singleton.mp single]
    exact Nat.lt_succ_self _
  · intro z choice _
    refine ⟨_, assign_agree z cs.witnessAssignment.length (code.encode choice), by rw [rows]; nofun, ?_⟩
    rw [run]
    simp [reading, assign_value, code.decode_encode]
  · rw [rows]
    nofun
  · rw [run]
    simp [reading, ConstraintSystem.assignment, code.decode_encode]

omit [Finite F] [DecidableEq F] in
theorem FieldCode.newWitness_oblivious (code : FieldCode F A) (a a' : A) :
    Oblivious (code.newWitness a) (code.newWitness a') := by
  intro cs cs' same
  have run (a : A) (cs : ConstraintSystem F) : (code.newWitness a).run cs =
      ([(1, .witnessAt cs.witnessAssignment.length)],
        { cs with witnessAssignment := cs.witnessAssignment ++ [code.encode a] }) := rfl
  rw [run, run, same.witnesses]
  exact ⟨rfl, same.instances, by simp [same.witnesses], same.constraints⟩

omit [Finite F] [DecidableEq F] in
/-- Rows that compute a field element compute what it codes. -/
theorem Computes.decoded {condition : (Variable → F) → Prop} {action : Synthesis F (LinearCombination F)}
    {cs : ConstraintSystem F} {result : (Variable → F) → F}
    (computes : Computes (.linear F) condition action cs result) (code : FieldCode F A) :
    Computes code.reading condition action cs fun z => code.decode (result z) where
  inScope := computes.inScope
  allocated := computes.allocated
  sound z one holds rows := congrArg code.decode (computes.sound z one holds rows)
  complete := computes.complete
  honest := computes.honest

omit [DecidableEq F] in
/-- Rows that compute the code of a value compute the value. -/
theorem FieldCode.compute_computes (code : FieldCode F A) {condition : (Variable → F) → Prop} (f : List F → A)
    {vs : List (LinearCombination F)} {cs : ConstraintSystem F}
    (stable : StableBelow cs.witnessAssignment.length condition)
    (inputs : ∀ lc ∈ vs, lc.Witnessed cs.witnessAssignment.length) :
    Computes code.reading condition (compute (code.encode ∘ f) vs) cs fun z =>
      f (vs.map (LinearCombination.evaluate z)) := by
  exact ((Circuit.compute_computes _ stable inputs).decoded code).congr fun z _ _ => code.decode_encode _

variable (first : FieldCode F G1) (second : FieldCode F G2) (target : FieldCode F GT) (e : Pairing K G1 G2 GT)

/-- The gadgets of a pairing whose groups embed in the field. -/
noncomputable def fieldPairing : PairingVar F e where
  G1Var := LinearCombination F
  G2Var := LinearCombination F
  G1PreparedVar := LinearCombination F
  G2PreparedVar := LinearCombination F
  GTVar := LinearCombination F
  BooleanVar := LinearCombination F
  g1 := first.reading
  g2 := second.reading
  g1Prepared := first.reading
  g2Prepared := second.reading
  miller := target.reading
  gt := target.reading
  boolean := (FieldCode.bool F).reading
  newConstantG1 := first.constant
  newConstantG2 := second.constant
  newWitnessG1 := first.newWitness
  newWitnessG2 := second.newWitness
  scalarMulLe v bits := compute (first.encode ∘ fun xs =>
    bitsValue ((xs.drop 1).map fun bit => decide (bit = 1)) • first.decode (xs.getD 0 0)) (v :: bits.map bitLc)
  add v w := compute (first.encode ∘ fun xs => first.decode (xs.getD 0 0) + first.decode (xs.getD 1 0)) [v, w]
  negate v := compute (second.encode ∘ fun xs => -second.decode (xs.getD 0 0)) [v]
  prepareG1 := pure
  prepareG2 := pure
  millerLoop vs ws := compute (target.encode ∘ fun xs => (List.zipWith e.pairing
    ((xs.take vs.length).map first.decode) ((xs.drop vs.length).map second.decode)).sum) (vs ++ ws)
  finalExponentiation := pure
  isEq v w := compute ((FieldCode.bool F).encode ∘ fun xs =>
    decide (target.decode (xs.getD 0 0) = target.decode (xs.getD 1 0))) [v, w]
  enforceTrue v := enforceConstraint [(1, .one)] v [(1, .one)]

omit [Finite F] [DecidableEq F] in
theorem FieldCode.constant_value (code : FieldCode F A) {z : Variable → F} (a : A) (one : z .one = 1) :
    code.reading.value z (code.constant a) = a := by
  simp [reading, constant, one, code.decode_encode]

omit [Finite F] [DecidableEq F] in
theorem FieldCode.constant_allocated (code : FieldCode F A) (bound : ℕ) (a : A) :
    code.reading.Allocated bound (code.constant a) := by
  intro term single
  rw [List.mem_singleton.mp single]
  trivial

omit [Finite F] [DecidableEq F] in
theorem booleanBits_stable {bits : List Variable} {bound : ℕ} (witnessed : ∀ bit ∈ bits, bit.Witnessed bound) :
    StableBelow bound (BooleanBits (F := F) bits) := by
  intro z z' agree boolean bit member
  rw [← (witnessed bit member).value_eq agree]
  exact boolean bit member

omit [DecidableEq F] [Finite F] in
theorem enforceTrue_enforces {v : LinearCombination F} {cs : ConstraintSystem F}
    (allocated : v.Witnessed cs.witnessAssignment.length) :
    Enforces (enforceConstraint [(1, .one)] v [(1, .one)]) cs fun z => v.evaluate z = 1 := by
  have rows : newRows (enforceConstraint [(1, .one)] v [(1, .one)]) cs = [⟨[(1, .one)], v, [(1, .one)]⟩] :=
    List.drop_left
  have one : LinearCombination.Witnessed cs.witnessAssignment.length [((1 : F), .one)] := by
    intro term single
    rw [List.mem_singleton.mp single]
    trivial
  refine ⟨⟨rfl, List.prefix_rfl, ?_, ?_⟩, rfl, fun z unit => ?_⟩
  · rw [rows]
    rfl
  · rw [rows]
    intro row member
    rw [List.mem_singleton.mp member]
    exact ⟨one, allocated, one⟩
  · simp [rows, Constraint.Holds, unit]

omit [Finite F] in
theorem decide_bitLc (z : Variable → F) (bits : List Variable) :
    ((bits.map bitLc).map (LinearCombination.evaluate z)).map (fun bit => decide (bit = 1)) =
      bits.map fun bit => decide (z bit = 1) := by
  simp [bitLc, Function.comp_def]

omit [Finite F] [DecidableEq F] in
theorem zipWith_decoded (f : A → B → D) (left : FieldCode F A) (right : FieldCode F B) (z : Variable → F)
    (vs ws : List (LinearCombination F)) :
    List.zipWith f ((((vs ++ ws).map (LinearCombination.evaluate z)).take vs.length).map left.decode)
        ((((vs ++ ws).map (LinearCombination.evaluate z)).drop vs.length).map right.decode) =
      List.zipWith f (left.reading.list.value z vs) (right.reading.list.value z ws) := by
  simp [FieldCode.reading, Reading.list, Function.comp_def]

/-- The gadgets of an embedded pairing keep the laws of the library. -/
theorem fieldPairing_lawful : (fieldPairing first second target e).Lawful where
  constantG1_allocated := first.constant_allocated
  constantG1_value _ p one := first.constant_value p one
  constantG2_allocated := second.constant_allocated
  constantG2_value _ q one := second.constant_value q one
  newWitnessG1 := first.newWitness_chooses
  newWitnessG2 := second.newWitness_chooses
  scalarMulLe cs v bits allocated witnessed := by
    refine (first.compute_computes _ (booleanBits_stable witnessed) ?_).congr fun z _ _ => ?_
    · refine List.forall_mem_cons.mpr ⟨allocated, List.forall_mem_map.mpr fun bit member term single => ?_⟩
      rw [List.mem_singleton.mp single]
      exact witnessed bit member
    · exact congrArg (bitsValue · • first.decode _) (decide_bitLc z bits)
  add cs v w left right := by
    refine (first.compute_computes _ (fun _ _ => trivial) ?_).congr fun z _ _ => ?_
    · exact List.forall_mem_cons.mpr ⟨left, List.forall_mem_singleton.mpr right⟩
    · rfl
  negate cs v allocated := by
    exact (second.compute_computes _ (fun _ _ => trivial) (List.forall_mem_singleton.mpr allocated)).congr
      fun z _ _ => rfl
  prepareG1 _ _ allocated := Computes.pure allocated
  prepareG2 _ _ allocated := Computes.pure allocated
  millerLoop cs vs ws left right _ := by
    refine (target.compute_computes _ (fun _ _ => trivial) (List.forall_mem_append.mpr ⟨left, right⟩)).congr
      fun z _ _ => ?_
    exact congrArg List.sum (zipWith_decoded e.pairing first second z vs ws)
  finalExponentiation _ _ allocated := Computes.pure allocated
  isEq cs v w left right := by
    refine ((FieldCode.bool F).compute_computes _ (fun _ _ => trivial) ?_).congr fun z _ _ => ?_
    · exact List.forall_mem_cons.mpr ⟨left, List.forall_mem_singleton.mpr right⟩
    · rfl
  enforceTrue cs v allocated := by
    have row : Enforces _ cs _ := enforceTrue_enforces allocated
    refine ⟨row.inScope, row.same, fun z one => (row.exact z one).trans ?_⟩
    simp [fieldPairing, FieldCode.reading, FieldCode.bool]

end Codes

/-- The inner scalars embed in the outer ones. -/
def RecursionCycle.scalarCode (C : RecursionCycle) : FieldCode C.OuterScalar C.InnerScalar where
  encode := C.convertInnerToOuter
  decode value := value.val
  decode_encode x := by
    rw [C.convertInnerToOuter_eq, ZMod.val_natCast_of_lt ((ZMod.val_lt x).trans C.lt), ZMod.natCast_zmod_val]

/-- The gadgets of the product of inner scalars. -/
noncomputable def RecursionCycle.scalarPairing (C : RecursionCycle) [Fact C.outerModulus.Prime] :
    PairingVar C.OuterScalar (mulPairing C.InnerScalar C.innerModulus) :=
  fieldPairing C.scalarCode C.scalarCode C.scalarCode _

theorem RecursionCycle.scalarPairing_lawful (C : RecursionCycle) [Fact C.outerModulus.Prime] :
    C.scalarPairing.Lawful := fieldPairing_lawful _ _ _ _

end Pvugc.Circuit
