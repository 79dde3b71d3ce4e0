import Pvugc.Circuit.BlsField
import Pvugc.Circuit.FieldGadget
import Pvugc.Circuit.VerifierGadget

namespace Pvugc.Circuit
open Pvugc.Algebra Pvugc.Groth16

namespace RecursionCycle

section Statement

variable (C : RecursionCycle)

/-- The witnesses that the binding of a statement allocates. -/
def statementWitnesses (n : ℕ) : ℕ := n + n * C.innerModulusBits

/-- The bits of every input are boolean. -/
def BooleanStatement (n : ℕ) (z : Variable → C.OuterScalar) : Prop :=
  ∀ bits ∈ C.inputBlocks n n, BooleanBits bits z

/-- The bits of every input are boolean, and their integer is copied into the public input. -/
def BoundStatement (n : ℕ) (z : Variable → C.OuterScalar) : Prop :=
  C.BooleanStatement n z ∧ ∀ k < n,
    (inputInteger z (witnessBlock (n + k * C.innerModulusBits) C.innerModulusBits) : C.OuterScalar) =
        z (.witnessAt k) ∧
      z (.witnessAt k) = z (.inputAt (1 + k))

variable {C} {n : ℕ}

theorem mem_inputBlocks {bits : List Variable} : bits ∈ C.inputBlocks n n ↔
    ∃ k < n, bits = witnessBlock (n + k * C.innerModulusBits) C.innerModulusBits := mem_tabulate

theorem inputBlocks_witnessed {bits : List Variable} (member : bits ∈ C.inputBlocks n n) {bit : Variable}
    (inside : bit ∈ bits) : bit.Witnessed (C.statementWitnesses n) := by
  obtain ⟨k, below, rfl⟩ := mem_inputBlocks.mp member
  obtain ⟨i, low, rfl⟩ := mem_tabulate.mp inside
  have room : (k + 1) * C.innerModulusBits ≤ n * C.innerModulusBits := Nat.mul_le_mul_right _ below
  rw [Nat.succ_mul] at room
  rw [Variable.Witnessed, statementWitnesses]
  omega

theorem booleanStatement_stable : StableBelow (C.statementWitnesses n) (C.BooleanStatement n) := by
  intro z z' agree boolean bits member bit inside
  rw [← (inputBlocks_witnessed member inside).value_eq agree]
  exact boolean bits member bit inside

theorem inputInteger_agree {z z' : Variable → C.OuterScalar} {bits : List Variable} {bound : ℕ}
    (witnessed : ∀ bit ∈ bits, bit.Witnessed bound) (agree : AgreeBelow bound z z') :
    inputInteger z bits = inputInteger z' bits := by
  rw [inputInteger, inputInteger]
  congr 1
  apply List.map_congr_left
  intro bit member
  rw [(witnessed bit member).value_eq agree]

theorem boundStatement_stable : StableBelow (C.statementWitnesses n) (C.BoundStatement n) := by
  rintro z z' agree ⟨boolean, copied⟩
  refine ⟨booleanStatement_stable agree boolean, fun k below => ?_⟩
  obtain ⟨integer, copy⟩ := copied k below
  have inside : k < C.statementWitnesses n := Nat.lt_of_lt_of_le below (Nat.le_add_right _ _)
  rw [← inputInteger_agree (fun bit => inputBlocks_witnessed (mem_inputBlocks.mpr ⟨k, below, rfl⟩)) agree,
    ← agree.witnesses k inside, ← agree.inputs]
  exact ⟨integer, copy⟩

/-- The assignment that decomposes the public inputs as the given integers. -/
def decomposition (C : RecursionCycle) (n : ℕ) (p : ℕ → C.OuterScalar) (X : ℕ → ℕ) : Variable → C.OuterScalar
  | .one => 1
  | .inputAt index => p (index - 1)
  | .witnessAt index =>
    if index < n then p index
    else if (X ((index - n) / C.innerModulusBits)).testBit ((index - n) % C.innerModulusBits) then 1 else 0

theorem decomposition_bits (p : ℕ → C.OuterScalar) (X : ℕ → ℕ) (k : ℕ) :
    (witnessBlock (n + k * C.innerModulusBits) C.innerModulusBits).map (C.decomposition n p X) =
      ((List.range C.innerModulusBits).map (X k).testBit).map fun bit => if bit then 1 else 0 := by
  rw [witnessBlock, tabulate_map, List.map_map]
  apply tabulate_congr
  intro i low
  have width : 0 < C.innerModulusBits := Nat.zero_lt_of_lt low
  have offset : n + k * C.innerModulusBits + i - n = i + C.innerModulusBits * k := by
    rw [Nat.mul_comm k]
    omega
  simp only [decomposition, Function.comp_apply]
  rw [if_neg (by omega), offset, Nat.add_mul_div_left _ _ width, Nat.div_eq_of_lt low, Nat.zero_add,
    Nat.add_mul_mod_self_left, Nat.mod_eq_of_lt low]

theorem decomposition_integer (p : ℕ → C.OuterScalar) {X : ℕ → ℕ} {k : ℕ} (fits : X k < 2 ^ C.innerModulusBits) :
    inputInteger (C.decomposition n p X) (witnessBlock (n + k * C.innerModulusBits) C.innerModulusBits) = X k := by
  rw [inputInteger_of_values (decomposition_bits p X k), bitsValue_testBit, Nat.mod_eq_of_lt fits]

/-- Every decomposition below the bit bound binds its statement. -/
theorem decomposition_bound {p : ℕ → C.OuterScalar} {X : ℕ → ℕ}
    (decomposes : ∀ k < n, X k < 2 ^ C.innerModulusBits ∧ (X k : C.OuterScalar) = p k) :
    C.BoundStatement n (C.decomposition n p X) := by
  constructor
  · intro bits member
    obtain ⟨k, below, rfl⟩ := mem_inputBlocks.mp member
    exact boolean_of_values (decomposition_bits p X k)
  · intro k below
    rw [decomposition_integer p (decomposes k below).1, (decomposes k below).2]
    simp [decomposition, below]

theorem booleanRow_holds [Fact C.outerModulus.Prime] {z : Variable → C.OuterScalar} (one : z .one = 1)
    (bit : Variable) : (booleanRow bit).Holds z ↔ z bit = 0 ∨ z bit = 1 := by
  have row : (booleanRow bit).Holds z ↔ (1 - z bit) * z bit = 0 := by
    rw [Constraint.Holds, booleanRow]
    simp [LinearCombination.evaluate, one, sub_eq_add_neg]
  rw [row, mul_eq_zero, sub_eq_zero, or_comm, eq_comm (a := 1)]

/-- The rows of the binding hold exactly for a bound statement. -/
theorem bindStatement_holds_iff [Fact C.outerModulus.Prime] (xs : List C.InnerScalar) {z : Variable → C.OuterScalar}
    (one : z .one = 1) :
    (∀ row ∈ ((C.bindStatement xs).run .newRef).2.constraints, row.Holds z) ↔ C.BoundStatement xs.length z := by
  have booleans : (∀ row ∈ (C.inputBlocks xs.length xs.length).flatMap (List.map booleanRow), row.Holds z) ↔
      C.BooleanStatement xs.length z := by
    simp only [List.mem_flatMap, List.mem_map, forall_exists_index, and_imp, BooleanStatement, BooleanBits]
    constructor
    · intro rows bits member bit inside
      exact (booleanRow_holds one bit).mp (rows _ bits member bit inside rfl)
    · rintro boolean _ bits member bit inside rfl
      exact (booleanRow_holds one bit).mpr (boolean bits member bit inside)
  have bindings : (∀ row ∈ ((inputVars 1 0 xs.length).zip (C.inputBlocks xs.length xs.length)).flatMap bindingRows,
      row.Holds z) ↔ ∀ k < xs.length,
        (bitsRow (witnessBlock (xs.length + k * C.innerModulusBits) C.innerModulusBits) (.witnessAt k)).Holds z ∧
          (publicRow (.witnessAt k) (.inputAt (1 + k)) : Constraint C.OuterScalar).Holds z := by
    rw [inputVars, inputBlocks, tabulate_zip]
    simp only [List.mem_flatMap, mem_tabulate, bindingRows, List.mem_cons, List.not_mem_nil, or_false, Nat.zero_add]
    constructor
    · intro rows k below
      exact ⟨rows _ ⟨_, ⟨k, below, rfl⟩, .inl rfl⟩, rows _ ⟨_, ⟨k, below, rfl⟩, .inr rfl⟩⟩
    · rintro rows row ⟨_, ⟨k, below, rfl⟩, rfl | rfl⟩
      · exact (rows k below).1
      · exact (rows k below).2
  rw [bindStatement_run]
  dsimp only
  rw [List.forall_mem_append, booleans, bindings, BoundStatement]
  refine and_congr_right fun boolean => forall₂_congr fun k below => ?_
  rw [bitsRow_holds one (boolean _ (mem_inputBlocks.mpr ⟨k, below, rfl⟩)), publicRow_holds one]

end Statement

end RecursionCycle

section ProofAllocation

variable {K G1 G2 GT F : Type} [AddCommGroup G1] [AddCommGroup G2] [AddCommGroup GT] [SMul K G1] [SMul K G2]
variable [SMul K GT] [CommRing F] [DecidableEq F] [DecidableEq GT] {e : Pairing K G1 G2 GT} {P : PairingVar F e}

/-- The three points of a proof are free together. -/
theorem newWitness_chooses (lawful : P.Lawful) (proof : Proof G1 G2) (cs : ConstraintSystem F) :
    Chooses P.proof (ProofVar.newWitness P proof) cs (fun _ points => points) proof := by
  refine Chooses.relabel (fun points : Proof G1 G2 => (points.a, points.b, points.c, ()))
    ((lawful.newWitnessG1 cs proof.a).andThen (fun _ a (rest : G2 × G1 × Unit) => Proof.mk a rest.1 rest.2.1)
      (fun _ _ _ => rfl) fun a cs1 le1 aAllocated => ?_)
  refine (lawful.newWitnessG2 cs1 proof.b).andThen (fun z b (rest : G1 × Unit) => Proof.mk (P.g1.value z a) b rest.1)
    (fun _ _ agree => by rw [P.g1.stable aAllocated agree]) fun b cs2 le2 bAllocated => ?_
  refine (lawful.newWitnessG1 cs2 proof.c).andThen (fun z c (_ : Unit) => Proof.mk (P.g1.value z a) (P.g2.value z b) c)
    (fun _ _ agree => by
      rw [P.g1.stable (P.g1.mono le2 aAllocated) agree, P.g2.stable bAllocated agree]) fun c cs3 le3 cAllocated => ?_
  exact Chooses.pure ⟨P.g1.mono (le2.trans le3) aAllocated, P.g2.mono le3 bAllocated, cAllocated⟩

end ProofAllocation

section Circuit

variable {C : RecursionCycle} {G1 G2 GT : Type} [AddCommGroup G1] [AddCommGroup G2] [AddCommGroup GT]
variable [Module C.InnerScalar G1] [Module C.InnerScalar G2] [Module C.InnerScalar GT] [DecidableEq GT]
variable {e : Pairing C.InnerScalar G1 G2 GT}

/-- The circuit for a key, a statement and a proof of the inner curve. -/
structure OuterCircuit (C : RecursionCycle) (G1 G2 : Type) where
  vkInner : VerifyingKey G1 G2
  xInner : List C.InnerScalar
  proofInner : Proof G1 G2

namespace OuterCircuit

variable (P : PairingVar C.OuterScalar e) (circuit : OuterCircuit C G1 G2)

/-- This is `generate_constraints`, where no value stands for the panic of the verifier gadget. -/
def generateConstraints : Synthesis C.OuterScalar (Option Unit) := do
  let inputVar ← C.bindStatement circuit.xInner
  let proofVar ← ProofVar.newWitness P circuit.proofInner
  let ok ← verifyGadget P (VerifyingKeyVar.newConstant P circuit.vkInner) inputVar proofVar
  orPanic (ok.map P.enforceTrue)

/-- The system of the circuit. -/
def system : ConstraintSystem C.OuterScalar := ((circuit.generateConstraints P).run .newRef).2

/-- The system after the binding of the statement. -/
def bound : ConstraintSystem C.OuterScalar := ((C.bindStatement circuit.xInner).run .newRef).2

/-- The proof's variables and the system that allocates them. -/
def witnessed : ProofVar P × ConstraintSystem C.OuterScalar :=
  (ProofVar.newWitness P circuit.proofInner).run circuit.bound

/-- The bits of the statement. -/
def inputVar : List (List Variable) := C.inputBlocks circuit.xInner.length circuit.xInner.length

/-- The integer that the bits of an input have in an assignment. -/
def carriedInteger (z : Variable → C.OuterScalar) (k : ℕ) : ℕ :=
  inputInteger z (witnessBlock (circuit.xInner.length + k * C.innerModulusBits) C.innerModulusBits)

/-- The proof whose points an assignment gives to the proof's variables. -/
def carriedProof (z : Variable → C.OuterScalar) : Proof G1 G2 := P.proof.value z (circuit.witnessed P).1

/-- The verdict's variable and the system of the verifier gadget. -/
def checked : Option P.BooleanVar × ConstraintSystem C.OuterScalar :=
  (verifyGadget P (VerifyingKeyVar.newConstant P circuit.vkInner) circuit.inputVar (circuit.witnessed P).1).run
    (circuit.witnessed P).2

omit [AddCommGroup G1] [AddCommGroup G2] [Module C.InnerScalar G1] [Module C.InnerScalar G2] in
theorem carriedInteger_lt (z : Variable → C.OuterScalar) (k : ℕ) :
    circuit.carriedInteger z k < 2 ^ C.innerModulusBits := by
  have bound := bitsValue_lt ((witnessBlock (circuit.xInner.length + k * C.innerModulusBits)
    C.innerModulusBits).map fun bit => decide (z bit = 1))
  rwa [List.length_map, witnessBlock, tabulate_length] at bound

omit [AddCommGroup G1] [AddCommGroup G2] [Module C.InnerScalar G1] [Module C.InnerScalar G2] in
/-- The inputs of the gadget are the carried integers. -/
theorem inputVar_integers (z : Variable → C.OuterScalar) :
    (circuit.inputVar.map fun bits => (inputInteger z bits : C.InnerScalar)) =
      tabulate circuit.xInner.length fun k => (circuit.carriedInteger z k : C.InnerScalar) := tabulate_map _ _ _

omit [DecidableEq GT] in
theorem generateConstraints_run : (circuit.generateConstraints P).run .newRef =
    (orPanic ((circuit.checked P).1.map P.enforceTrue)).run (circuit.checked P).2 := by
  have blocks : ((C.bindStatement circuit.xInner).run .newRef).1 = circuit.inputVar := by
    rw [C.bindStatement_run]
    rfl
  rw [checked, ← blocks]
  rfl

omit [AddCommGroup G1] [AddCommGroup G2] [Module C.InnerScalar G1] [Module C.InnerScalar G2] in
theorem bound_witnesses : circuit.bound.witnessAssignment.length = C.statementWitnesses circuit.xInner.length := by
  rw [bound, C.bindStatement_run]
  simp [RecursionCycle.bitValues, List.length_flatMap, C.normalizedInnerBitsLe_length,
    RecursionCycle.statementWitnesses]

omit [DecidableEq GT] in
/-- The gadget's variable, where the lengths let it through. -/
theorem exists_checked {P : PairingVar C.OuterScalar e} {circuit : OuterCircuit C G1 G2}
    (synthesized : ((circuit.generateConstraints P).run .newRef).1 = some ()) :
    ∃ ok, (circuit.checked P).1 = some ok := by
  rw [generateConstraints_run] at synthesized
  cases found : (circuit.checked P).1 with
  | none =>
      rw [found] at synthesized
      cases synthesized
  | some ok => exact ⟨ok, rfl⟩

section Lawful

variable {P : PairingVar C.OuterScalar e} (lawful : P.Lawful) (circuit : OuterCircuit C G1 G2)
include lawful

theorem witnessed_chooses : Chooses P.proof (ProofVar.newWitness P circuit.proofInner) circuit.bound
    (fun _ points => points) circuit.proofInner := newWitness_chooses lawful _ _

theorem checked_computes : Computes P.boolean.option (C.BooleanStatement circuit.xInner.length)
    (verifyGadget P (VerifyingKeyVar.newConstant P circuit.vkInner) circuit.inputVar (circuit.witnessed P).1)
    (circuit.witnessed P).2 fun z => gadgetVerdict e circuit.vkInner
      (circuit.inputVar.map fun bits => (inputInteger z bits : C.InnerScalar))
      (P.proof.value z (circuit.witnessed P).1) := by
  have chooses := circuit.witnessed_chooses lawful
  have grows : C.statementWitnesses circuit.xInner.length ≤ (circuit.witnessed P).2.witnessAssignment.length := by
    rw [← circuit.bound_witnesses]
    exact chooses.inScope.grows
  exact verifyGadget_computes lawful (StableBelow.mono grows RecursionCycle.booleanStatement_stable) _
    chooses.allocated
    (fun bits member bit inside => (RecursionCycle.inputBlocks_witnessed member inside).mono grows)
    fun z boolean => boolean

variable {circuit} {ok : P.BooleanVar} (found : (circuit.checked P).1 = some ok)
include found

theorem enforced : Enforces (P.enforceTrue ok) (circuit.checked P).2 fun z => P.boolean.value z ok = true :=
  lawful.enforceTrue _ _ ((circuit.checked_computes lawful).allocated ok found)

omit [DecidableEq GT] lawful in
theorem system_eq : circuit.system P = ((P.enforceTrue ok).run (circuit.checked P).2).2 := by
  rw [system, generateConstraints_run, found]
  rfl

/-- The rows of the circuit are those of its parts. -/
theorem holds_iff {z : Variable → C.OuterScalar} (one : z .one = 1) :
    (∀ row ∈ (circuit.system P).constraints, row.Holds z) ↔
      (∀ row ∈ circuit.bound.constraints, row.Holds z) ∧
        (∀ row ∈ newRows (ProofVar.newWitness P circuit.proofInner) circuit.bound, row.Holds z) ∧
          (∀ row ∈ newRows (verifyGadget P (VerifyingKeyVar.newConstant P circuit.vkInner) circuit.inputVar
            (circuit.witnessed P).1) (circuit.witnessed P).2, row.Holds z) ∧ P.boolean.value z ok = true := by
  rw [← (enforced lawful found).exact z one, system_eq found, (enforced lawful found).inScope.constraints,
    checked, (circuit.checked_computes lawful).inScope.constraints, witnessed,
    (circuit.witnessed_chooses lawful).inScope.constraints]
  simp only [List.forall_mem_append, and_assoc]

omit found in
/-- The circuit is synthesized for the number of inputs that the key asks for, and for one more. -/
theorem synthesized_of_lengths (lengths : circuit.xInner.length + 1 = circuit.vkInner.gammaAbcG1.length ∨
    circuit.xInner.length = circuit.vkInner.gammaAbcG1.length ∧ 0 < circuit.xInner.length) :
    ((circuit.generateConstraints P).run .newRef).1 = some () := by
  have computes := circuit.checked_computes lawful
  have zeros : C.BooleanStatement circuit.xInner.length (C.decomposition circuit.xInner.length 0 0) := by
    intro bits member
    obtain ⟨k, -, rfl⟩ := RecursionCycle.mem_inputBlocks.mp member
    exact boolean_of_values (RecursionCycle.decomposition_bits 0 0 k)
  have grows : C.statementWitnesses circuit.xInner.length ≤ (circuit.witnessed P).2.witnessAssignment.length := by
    rw [← circuit.bound_witnesses]
    exact (circuit.witnessed_chooses lawful).inScope.grows
  obtain ⟨z, agree, rows⟩ := computes.complete _ rfl zeros
  have value := computes.sound z (agree.one.symm.trans rfl)
    (RecursionCycle.booleanStatement_stable (agree.mono grows) zeros) rows
  have verdict : (P.boolean.option.value z (circuit.checked P).1).isSome := by
    rw [checked, value]
    apply gadgetVerdict_isSome
    rwa [List.length_map, inputVar, RecursionCycle.inputBlocks, tabulate_length]
  rw [generateConstraints_run]
  cases found : (circuit.checked P).1 with
  | none =>
      rw [found] at verdict
      cases verdict
  | some ok => rfl

end Lawful

/-- A satisfying assignment carries boolean bits of its public inputs and a proof that the gadget accepts for their
integers. -/
theorem carried_of_satisfied [Fact C.outerModulus.Prime] {P : PairingVar C.OuterScalar e} (lawful : P.Lawful)
    {circuit : OuterCircuit C G1 G2}
    (synthesized : ((circuit.generateConstraints P).run .newRef).1 = some ()) {z : Variable → C.OuterScalar}
    (one : z .one = 1) (rows : ∀ row ∈ (circuit.system P).constraints, row.Holds z) :
    C.BooleanStatement circuit.xInner.length z ∧
      (∀ k < circuit.xInner.length, (circuit.carriedInteger z k : C.OuterScalar) = z (.inputAt (1 + k))) ∧
      gadgetVerdict e circuit.vkInner
        (tabulate circuit.xInner.length fun k => (circuit.carriedInteger z k : C.InnerScalar))
        (circuit.carriedProof P z) = some true := by
  obtain ⟨ok, found⟩ := exists_checked synthesized
  obtain ⟨boundHolds, -, checkHolds, verdict⟩ := (holds_iff lawful found one).mp rows
  obtain ⟨boolean, copied⟩ := (C.bindStatement_holds_iff circuit.xInner one).mp boundHolds
  have value := (circuit.checked_computes lawful).sound z one boolean checkHolds
  have accepted : P.boolean.option.value z (some ok) = some true := congrArg some verdict
  rw [← found] at accepted
  refine ⟨boolean, fun k below => (copied k below).1.trans (copied k below).2, ?_⟩
  rw [← circuit.inputVar_integers, carriedProof, ← value]
  exact accepted

/-- Integers of the bit width and a proof that the gadget accepts for them are carried by a satisfying assignment. -/
theorem exists_carrying [Fact C.outerModulus.Prime] {P : PairingVar C.OuterScalar e} (lawful : P.Lawful)
    {circuit : OuterCircuit C G1 G2}
    (synthesized : ((circuit.generateConstraints P).run .newRef).1 = some ()) {p : ℕ → C.OuterScalar} {X : ℕ → ℕ}
    (decomposes : ∀ k < circuit.xInner.length, X k < 2 ^ C.innerModulusBits ∧ (X k : C.OuterScalar) = p k)
    {proof : Proof G1 G2}
    (verdict : gadgetVerdict e circuit.vkInner (tabulate circuit.xInner.length fun k => (X k : C.InnerScalar)) proof =
      some true) :
    ∃ z, z .one = 1 ∧ (∀ k < circuit.xInner.length, z (.inputAt (1 + k)) = p k) ∧
      (∀ row ∈ (circuit.system P).constraints, row.Holds z) ∧
      (∀ k < circuit.xInner.length, circuit.carriedInteger z k = X k) ∧ circuit.carriedProof P z = proof := by
  obtain ⟨ok, found⟩ := exists_checked synthesized
  have computes := circuit.checked_computes lawful
  have chooses := circuit.witnessed_chooses lawful
  have statement := RecursionCycle.decomposition_bound decomposes
  have integers (k : ℕ) (below : k < circuit.xInner.length) :
      inputInteger (C.decomposition circuit.xInner.length p X)
        (witnessBlock (circuit.xInner.length + k * C.innerModulusBits) C.innerModulusBits) = X k :=
    RecursionCycle.decomposition_integer p (decomposes k below).1
  have inputs (k : ℕ) : C.decomposition circuit.xInner.length p X (.inputAt (1 + k)) = p k :=
    congrArg p (Nat.add_sub_cancel_left 1 k)
  have one : C.decomposition circuit.xInner.length p X .one = 1 := rfl
  generalize C.decomposition circuit.xInner.length p X = z0 at statement integers inputs one
  -- The proof's points are chosen behind the statement, and the gadget's witnesses behind the points.
  obtain ⟨z1, agree1, rows1, value1⟩ := chooses.choose z0 proof one
  have grows := chooses.inScope.grows
  rw [circuit.bound_witnesses] at agree1 grows
  have one1 := agree1.one.symm.trans one
  obtain ⟨z2, agree2, rows2⟩ :=
    computes.complete z1 one1 (RecursionCycle.booleanStatement_stable agree1 statement.1)
  have agree02 := agree1.trans grows agree2
  have one2 := agree2.one.symm.trans one1
  have statement2 := RecursionCycle.boundStatement_stable agree02 statement
  have value := computes.sound z2 one2 statement2.1 rows2
  have points : circuit.carriedProof P z2 = proof := (P.proof.stable chooses.allocated agree2).symm.trans value1
  have carried (k : ℕ) (below : k < circuit.xInner.length) : circuit.carriedInteger z2 k = X k := by
    rw [← integers k below]
    exact (RecursionCycle.inputInteger_agree (fun bit =>
      RecursionCycle.inputBlocks_witnessed (RecursionCycle.mem_inputBlocks.mpr ⟨k, below, rfl⟩)) agree02).symm
  have same : (tabulate circuit.xInner.length fun k => (circuit.carriedInteger z2 k : C.InnerScalar)) =
      tabulate circuit.xInner.length fun k => (X k : C.InnerScalar) :=
    tabulate_congr fun k below => by rw [carried k below]
  rw [circuit.inputVar_integers, same, ← carriedProof, points, verdict] at value
  change P.boolean.option.value z2 (circuit.checked P).1 = some true at value
  rw [found] at value
  refine ⟨z2, one2, fun k _ => (agree02.inputs _).symm.trans (inputs k), (holds_iff lawful found one2).mpr
    ⟨(C.bindStatement_holds_iff circuit.xInner one2).mpr statement2, fun row member => ?_, rows2,
      Option.some.inj value⟩, carried, points⟩
  exact ((chooses.inScope.scope row member).holds_iff agree2).mp (rows1 row member)

/-- An integer that embeds as an inner scalar is the scalar plus a multiple of the outer order. -/
theorem natCast_eq_convert_iff (x : C.InnerScalar) (n : ℕ) :
    (n : C.OuterScalar) = C.convertInnerToOuter x ↔ ∃ wraps, n = x.val + wraps * C.outerModulus := by
  have small : x.val < C.outerModulus := (ZMod.val_lt x).trans C.lt
  rw [C.convertInnerToOuter_eq, ZMod.natCast_eq_natCast_iff', Nat.mod_eq_of_lt small]
  constructor
  · intro residue
    exact ⟨n / C.outerModulus, by rw [← residue, Nat.mul_comm, Nat.mod_add_div]⟩
  · rintro ⟨wraps, rfl⟩
    rw [Nat.add_mul_mod_self_right, Nat.mod_eq_of_lt small]

/-- Below the outer order no multiple fits. -/
theorem natCast_eq_convert_iff_of_lt (x : C.InnerScalar) {n : ℕ} (room : n < C.outerModulus) :
    (n : C.OuterScalar) = C.convertInnerToOuter x ↔ n = x.val := by
  rw [natCast_eq_convert_iff]
  constructor
  · rintro ⟨wraps, rfl⟩
    have none : wraps = 0 := by
      by_contra some
      have once := Nat.mul_le_mul_right C.outerModulus (Nat.pos_of_ne_zero some)
      omega
    rw [none, Nat.zero_mul, Nat.add_zero]
  · intro same
    exact ⟨0, by rw [same, Nat.zero_mul, Nat.add_zero]⟩

/-- For the number of inputs that the key asks for, the gadget's verdict is that of the native verification. -/
theorem verdict_iff {circuit : OuterCircuit C G1 G2}
    (lengths : circuit.xInner.length + 1 = circuit.vkInner.gammaAbcG1.length) (x : ℕ → C.InnerScalar)
    (proof : Proof G1 G2) :
    gadgetVerdict e circuit.vkInner (tabulate circuit.xInner.length x) proof = some true ↔
      verify e circuit.vkInner (tabulate circuit.xInner.length x) proof = .ok true :=
  gadgetVerdict_eq_true_iff circuit.vkInner (by rw [tabulate_length, lengths]) proof

end OuterCircuit

end Circuit

section Units

/-- A circuit over the product of inner scalars. -/
def unitCircuit (C : RecursionCycle) : OuterCircuit C C.InnerScalar C.InnerScalar where
  vkInner := ⟨1, 1, 1, 1, [0, 1]⟩
  xInner := [1]
  proofInner := ⟨1, 1, -1⟩

theorem unitCircuit_accepted (C : RecursionCycle) :
    verify (mulPairing C.InnerScalar C.innerModulus) (unitCircuit C).vkInner [1] (unitCircuit C).proofInner =
      .ok true := by
  simp [unitCircuit, verify, prepareInputs, mulPairing]

/-- The smallest cycle with room for a wrap: the integer three decomposes into two bits. -/
def binaryTernaryCycle : RecursionCycle where
  name := "F2/F3"
  innerModulus := 2
  outerModulus := 3
  positive := by decide
  lt := by decide
  notDvd := by decide

instance binaryTernaryPrime : Fact binaryTernaryCycle.outerModulus.Prime := ⟨Nat.prime_three⟩

end Units

section BlsCycle

variable {G1 G2 GT : Type} [AddCommGroup G1] [AddCommGroup G2] [AddCommGroup GT]
variable [Module bls12Bw6Cycle.InnerScalar G1] [Module bls12Bw6Cycle.InnerScalar G2]
variable [Module bls12Bw6Cycle.InnerScalar GT] [DecidableEq GT] {e : Pairing bls12Bw6Cycle.InnerScalar G1 G2 GT}

end BlsCycle

end Pvugc.Circuit
