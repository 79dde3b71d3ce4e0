import Pvugc.Circuit.OuterSatisfiability
import Pvugc.Circuit.ToMatrices
import Pvugc.Outer.OuterShape

namespace Pvugc.Circuit
open Pvugc.Algebra Pvugc.Groth16 Pvugc.Outer

section Uniformity

variable {K G1 G2 GT F : Type} [AddCommGroup G1] [AddCommGroup G2] [AddCommGroup GT]
variable [SMul K G1] [SMul K G2] [SMul K GT] [CommRing F] {e : Pairing K G1 G2 GT}
variable {P : PairingVar F e} (uniform : P.Uniform)
include uniform

theorem newWitness_oblivious (proof proof' : Proof G1 G2) :
    Oblivious (ProofVar.newWitness P proof) (ProofVar.newWitness P proof') :=
  (uniform.newWitnessG1 _ _).bind fun _ => (uniform.newWitnessG2 _ _).bind fun _ =>
    (uniform.newWitnessG1 _ _).bind fun _ => .pure _

theorem pairing_oblivious (p : P.G1PreparedVar) (q : P.G2PreparedVar) :
    Oblivious (P.pairing p q) (P.pairing p q) :=
  (uniform.millerLoop _ _).bind fun _ => uniform.finalExponentiation _

theorem prepare_oblivious (vk : VerifyingKeyVar P) : Oblivious (vk.prepare P) (vk.prepare P) :=
  (uniform.prepareG1 _).bind fun _ => (uniform.prepareG2 _).bind fun _ => (pairing_oblivious uniform _ _).bind fun _ =>
    (uniform.negate _).bind fun _ => (uniform.prepareG2 _).bind fun _ => (uniform.negate _).bind fun _ =>
      (uniform.prepareG2 _).bind fun _ => .pure _

theorem checkPairing_oblivious (pvk : PreparedVerifyingKeyVar P) (gIc : P.G1Var) (proof : ProofVar P) :
    Oblivious (checkPairing P pvk gIc proof) (checkPairing P pvk gIc proof) :=
  (uniform.prepareG1 _).bind fun _ => (uniform.prepareG2 _).bind fun _ => (uniform.prepareG1 _).bind fun _ =>
    (uniform.prepareG1 _).bind fun _ => (uniform.millerLoop _ _).bind fun _ =>
      (uniform.finalExponentiation _).bind fun _ => uniform.isEq _ _

theorem verifyGadget_oblivious (vk : VerifyingKeyVar P) (x : List (List Variable)) (proof : ProofVar P) :
    Oblivious (verifyGadget P vk x proof) (verifyGadget P vk x proof) := by
  refine (prepare_oblivious uniform vk).bind fun pvk => ?_
  cases key : pvk.gammaAbcG1 with
  | nil =>
      rw [verifyWithProcessedVk, key]
      exact .pure none
  | cons constant bases =>
      rw [verifyWithProcessedVk_cons P pvk key]
      split
      · refine Oblivious.mapSome ((Oblivious.foldlM _ _ fun gIc item => ?_).bind fun gIc =>
          checkPairing_oblivious uniform pvk gIc proof)
        exact (uniform.scalarMulLe _ _).bind fun _ => uniform.add _ _
      · exact .pure none

end Uniformity

section Statement

variable {C : RecursionCycle}

/-- The rows that bind a statement depend on its length only. -/
theorem bindStatement_sameShape {xs ys : List C.InnerScalar} (count : xs.length = ys.length) :
    ((C.bindStatement xs).run .newRef).1 = ((C.bindStatement ys).run .newRef).1 ∧
      SameShape ((C.bindStatement xs).run .newRef).2 ((C.bindStatement ys).run .newRef).2 := by
  have bits (zs : List C.InnerScalar) : (C.bitValues zs).length = zs.length * C.innerModulusBits := by
    simp [RecursionCycle.bitValues, List.length_flatMap, C.normalizedInnerBitsLe_length]
  rw [C.bindStatement_run, C.bindStatement_run, count]
  refine ⟨rfl, ⟨?_, ?_, rfl⟩⟩
  · simp [count]
  · simp [bits, count]

end Statement

section Rows

variable {F : Type} [CommRing F]

/-- A reconstruction mentions the bits only. -/
theorem reconstructedLc_variables {bits : List Variable} :
    ∀ term ∈ (reconstructedLc bits : LinearCombination F), term.2 ∈ bits := by
  have loop (rest : List Variable) (lc : LinearCombination F) (powerOfTwo : F) :
      ∀ term ∈ (reconstructFrom (lc, powerOfTwo) rest).1, term ∈ lc ∨ term.2 ∈ rest := by
    induction rest generalizing lc powerOfTwo with
    | nil => exact fun term member => .inl member
    | cons bit rest ih =>
        intro term member
        rcases ih (lc ++ [(powerOfTwo * 1, bit)]) (powerOfTwo + powerOfTwo) term member with before | later
        · rcases List.mem_append.mp before with old | new
          · exact .inl old
          · rw [List.mem_singleton.mp new]
            exact .inr List.mem_cons_self
        · exact .inr (List.mem_cons_of_mem bit later)
  intro term member
  exact (loop bits [] 1 term member).resolve_left List.not_mem_nil

theorem booleanRow_witnessed {bit : Variable} {bound : ℕ} (witnessed : bit.Witnessed bound) :
    (booleanRow bit : Constraint F).Witnessed bound where
  a := List.forall_mem_cons.mpr ⟨trivial, List.forall_mem_singleton.mpr witnessed⟩
  b := List.forall_mem_singleton.mpr witnessed
  c := nofun

theorem bitsRow_witnessed {bits : List Variable} {bound index : ℕ} (witnessed : ∀ bit ∈ bits, bit.Witnessed bound)
    (inside : index < bound) : (bitsRow bits (.witnessAt index) : Constraint F).Witnessed bound where
  a := List.forall_mem_singleton.mpr trivial
  b := fun term member => witnessed _ (reconstructedLc_variables term member)
  c := List.forall_mem_singleton.mpr inside

theorem publicRow_witnessed (index : ℕ) (input : Variable) :
    (publicRow (.witnessAt index) input : Constraint F).a.Witnessed (index + 1) ∧
      (publicRow (.witnessAt index) input : Constraint F).b.Witnessed (index + 1) :=
  ⟨List.forall_mem_singleton.mpr trivial, List.forall_mem_singleton.mpr (Nat.lt_succ_self index)⟩

end Rows

section Columns

variable {F : Type} [Zero F] [DecidableEq F]

/-- The columns of witnesses are not those of public inputs. -/
theorem makeRow_witnessed {bound : ℕ} (instances : ℕ) {lc : LinearCombination F} (witnessed : lc.Witnessed bound) :
    ∀ term ∈ makeRow instances lc, term.2 = 0 ∨ instances ≤ term.2 := by
  intro _ member
  obtain ⟨⟨coeff, var⟩, kept, rfl⟩ := List.mem_map.mp member
  have inside := witnessed _ (List.mem_of_mem_filter kept)
  cases var with
  | one => exact .inl rfl
  | inputAt index => exact inside.elim
  | witnessAt index => exact .inr (Nat.le_add_right _ _)

theorem makeRow_singleton {instances : ℕ} {coeff : F} (nonzero : coeff ≠ 0) (var : Variable) :
    makeRow instances [(coeff, var)] = [(coeff, var.column instances)] := by
  simp [makeRow, nonzero]

theorem getD_map_makeRow {instances : ℕ} {rows : List (Constraint F)} (part : Constraint F → LinearCombination F)
    {i : ℕ} {term : F × ℕ} (member : term ∈ (rows.map fun row => makeRow instances (part row)).getD i []) :
    ∃ row, rows[i]? = some row ∧ term ∈ makeRow instances (part row) := by
  rw [List.getD_eq_getElem?_getD, List.getElem?_map] at member
  cases located : rows[i]? with
  | none =>
      rw [located] at member
      exact absurd member List.not_mem_nil
  | some row =>
      rw [located] at member
      exact ⟨row, rfl, member⟩

end Columns

namespace RecursionCycle

variable {C : RecursionCycle} {xs : List C.InnerScalar}

/-- The rows of the binding: boolean rows, then two rows for each input. -/
theorem bindStatement_row {i : ℕ} {row : Constraint C.OuterScalar}
    (located : ((C.bindStatement xs).run .newRef).2.constraints[i]? = some row) :
    (i < xs.length * C.innerModulusBits ∧ row.Witnessed (C.statementWitnesses xs.length)) ∨ ∃ k < xs.length,
      (i = xs.length * C.innerModulusBits + k * 2 ∧ row.Witnessed (C.statementWitnesses xs.length)) ∨
      (i = xs.length * C.innerModulusBits + k * 2 + 1 ∧ row = publicRow (.witnessAt k) (.inputAt (1 + k))) := by
  have booleans : ((C.inputBlocks xs.length xs.length).flatMap
      (List.map (booleanRow (F := C.OuterScalar)))).length = xs.length * C.innerModulusBits := by
    simp [List.length_flatMap, inputBlocks, witnessBlock, tabulate_sum, Function.comp_def]
  have blocks {k : ℕ} (below : k < xs.length) {bit : Variable}
      (inside : bit ∈ witnessBlock (xs.length + k * C.innerModulusBits) C.innerModulusBits) :
      bit.Witnessed (C.statementWitnesses xs.length) :=
    inputBlocks_witnessed (mem_inputBlocks.mpr ⟨k, below, rfl⟩) inside
  rcases Nat.lt_or_ge i (xs.length * C.innerModulusBits) with early | late
  · refine .inl ⟨early, ?_⟩
    rw [C.bindStatement_run, List.getElem?_append_left (booleans ▸ early)] at located
    obtain ⟨bits, member, listed⟩ := List.mem_flatMap.mp (List.mem_of_getElem? located)
    obtain ⟨k, below, rfl⟩ := mem_inputBlocks.mp member
    obtain ⟨bit, inside, rfl⟩ := List.mem_map.mp listed
    exact booleanRow_witnessed (blocks below inside)
  · obtain ⟨j, rfl⟩ := Nat.exists_eq_add_of_le late
    have length : ((C.bindStatement xs).run .newRef).2.constraints.length =
        xs.length * C.innerModulusBits + xs.length * 2 := by
      rw [C.bindStatement_run, List.length_append, booleans]
      simp [List.length_flatMap, inputVars, inputBlocks, bindingRows]
    have short := (List.getElem?_eq_some_iff.mp located).1
    have below : j / 2 < xs.length := by omega
    -- the row is one of the two rows of its input
    have pair := C.statementRows_eq below
    rw [C.statementBits_eq below] at pair
    have window : (C.statementRows xs (j / 2))[j % 2]? = some row := by
      rw [statementRows, List.getElem?_take, if_pos (Nat.mod_lt _ Nat.two_pos), List.getElem?_drop, Nat.add_assoc,
        Nat.mul_comm (j / 2), Nat.div_add_mod, located]
    rw [pair] at window
    have split := Nat.div_add_mod j 2
    refine .inr ⟨j / 2, below, ?_⟩
    rcases Nat.mod_two_eq_zero_or_one j with even | odd
    · rw [even] at window split
      cases window
      exact .inl ⟨by omega, bitsRow_witnessed (fun bit => blocks below)
        (Nat.lt_of_lt_of_le below (Nat.le_add_right _ _))⟩
    · rw [odd] at window split
      cases window
      exact .inr ⟨by omega, rfl⟩

variable (C xs)

/-- The honest bits of an input are its integer. -/
theorem honest_integer {k : ℕ} (below : k < xs.length) :
    inputInteger (C.honestAssignment xs) (witnessBlock (xs.length + k * C.innerModulusBits) C.innerModulusBits) =
      xs[k].val := by
  rw [← C.statementBits_eq below, inputInteger_of_values (C.honestAssignment_bits below), normalizedInnerBitsLe_value]

/-- The synthesis binds its own statement. -/
theorem honest_boundStatement : C.BoundStatement xs.length (C.honestAssignment xs) := by
  constructor
  · intro bits member
    obtain ⟨k, below, rfl⟩ := mem_inputBlocks.mp member
    rw [← C.statementBits_eq below]
    exact boolean_of_values (C.honestAssignment_bits below)
  · intro k below
    rw [C.honest_integer xs below, C.honestAssignment_copy below, C.honestAssignment_public below,
      C.convertInnerToOuter_eq]
    exact ⟨rfl, rfl⟩

end RecursionCycle

section Circuit

variable {C : RecursionCycle} {G1 G2 GT : Type} [AddCommGroup G1] [AddCommGroup G2] [AddCommGroup GT]
variable [Module C.InnerScalar G1] [Module C.InnerScalar G2] [Module C.InnerScalar GT]
variable {e : Pairing C.InnerScalar G1 G2 GT} {P : PairingVar C.OuterScalar e} {circuit : OuterCircuit C G1 G2}

namespace OuterCircuit

/-- What `generate_constraints` does after the binding of the statement. -/
def checkStatement (P : PairingVar C.OuterScalar e) (vkInner : VerifyingKey G1 G2) (proofInner : Proof G1 G2)
    (inputVar : List (List Variable)) : Synthesis C.OuterScalar (Option Unit) := do
  let proofVar ← ProofVar.newWitness P proofInner
  let ok ← verifyGadget P (VerifyingKeyVar.newConstant P vkInner) inputVar proofVar
  orPanic (ok.map P.enforceTrue)

theorem checkStatement_oblivious (uniform : P.Uniform) (vkInner : VerifyingKey G1 G2) (proof proof' : Proof G1 G2)
    (inputVar : List (List Variable)) :
    Oblivious (checkStatement P vkInner proof inputVar) (checkStatement P vkInner proof' inputVar) := by
  refine (newWitness_oblivious uniform proof proof').bind fun proofVar =>
    (verifyGadget_oblivious uniform _ inputVar proofVar).bind fun ok => ?_
  cases ok with
  | none => exact .pure none
  | some verdict => exact .mapSome (uniform.enforceTrue verdict)

theorem generateConstraints_eq : (circuit.generateConstraints P).run .newRef =
    (checkStatement P circuit.vkInner circuit.proofInner ((C.bindStatement circuit.xInner).run .newRef).1).run
      ((C.bindStatement circuit.xInner).run .newRef).2 := rfl

/-- The rows of the circuit depend on the inner key and the number of inputs only. -/
theorem generateConstraints_sameShape (uniform : P.Uniform) {circuit' : OuterCircuit C G1 G2}
    (key : circuit.vkInner = circuit'.vkInner) (count : circuit.xInner.length = circuit'.xInner.length) :
    ((circuit.generateConstraints P).run .newRef).1 = ((circuit'.generateConstraints P).run .newRef).1 ∧
      SameShape (circuit.system P) (circuit'.system P) := by
  obtain ⟨blocks, shape⟩ := bindStatement_sameShape count
  rw [system, system, generateConstraints_eq, generateConstraints_eq, ← blocks, ← key]
  exact checkStatement_oblivious uniform _ _ _ _ _ _ shape

variable [DecidableEq GT] (lawful : P.Lawful) (circuit)
include lawful

/-- The rows after the binding of the statement mention no public input. -/
theorem checkStatement_inScope :
    Scoped (checkStatement P circuit.vkInner circuit.proofInner circuit.inputVar) circuit.bound := by
  refine (circuit.witnessed_chooses lawful).inScope.bind ((circuit.checked_computes lawful).inScope.bind ?_)
  change Scoped (orPanic ((circuit.checked P).1.map P.enforceTrue)) (circuit.checked P).2
  cases found : (circuit.checked P).1 with
  | none => exact Scoped.pure none _
  | some ok =>
      change Scoped (some <$> P.enforceTrue ok) _
      rw [← bind_pure_comp]
      exact (enforced lawful found).inScope.bind (Scoped.pure (some _) _)

omit [DecidableEq GT] lawful in
theorem system_eq_checkStatement : circuit.system P =
    ((checkStatement P circuit.vkInner circuit.proofInner circuit.inputVar).run circuit.bound).2 := by
  have blocks : ((C.bindStatement circuit.xInner).run .newRef).1 = circuit.inputVar := by
    rw [C.bindStatement_run]
    rfl
  rw [system, generateConstraints_eq, blocks]
  rfl

/-- The public inputs are the embedded statement. -/
theorem system_instances :
    (circuit.system P).instanceAssignment = 1 :: circuit.xInner.map C.convertInnerToOuter := by
  rw [system_eq_checkStatement, (circuit.checkStatement_inScope lawful).instances, bound, C.bindStatement_run]

/-- The rows of the system: those of the binding, then rows without public inputs. -/
theorem system_row {i : ℕ} {row : Constraint C.OuterScalar} (located : (circuit.system P).constraints[i]? = some row) :
    row.Witnessed (circuit.system P).witnessAssignment.length ∨ ∃ k < circuit.xInner.length,
      i = circuit.xInner.length * C.innerModulusBits + k * 2 + 1 ∧
        row = publicRow (.witnessAt k) (.inputAt (1 + k)) := by
  have inScope := circuit.checkStatement_inScope lawful
  rw [system_eq_checkStatement, inScope.constraints] at located
  rw [system_eq_checkStatement]
  rcases Nat.lt_or_ge i circuit.bound.constraints.length with early | late
  · rw [List.getElem?_append_left early] at located
    have grows : C.statementWitnesses circuit.xInner.length ≤ _ := circuit.bound_witnesses ▸ inScope.grows
    rcases RecursionCycle.bindStatement_row located with ⟨-, witnessed⟩ | ⟨k, below, ⟨-, witnessed⟩ | ⟨index, copy⟩⟩
    · exact .inl (witnessed.mono grows)
    · exact .inl (witnessed.mono grows)
    · exact .inr ⟨k, below, index, copy⟩
  · rw [List.getElem?_append_right late] at located
    exact .inl (inScope.scope row (List.mem_of_getElem? located))

/-- The synthesized system has matrices. -/
theorem closed : (circuit.system P).Closed := by
  have inScope := circuit.checkStatement_inScope lawful
  have copies : circuit.xInner.length ≤ (circuit.system P).witnessAssignment.length := by
    rw [system_eq_checkStatement]
    exact Nat.le_trans (Nat.le_add_right _ _) (circuit.bound_witnesses ▸ inScope.grows)
  refine ⟨by rw [circuit.system_instances lawful]; rfl, fun row member => ?_⟩
  obtain ⟨i, located⟩ := List.mem_iff_getElem?.mp member
  rcases circuit.system_row lawful located with witnessed | ⟨k, below, -, rfl⟩
  · exact witnessed.inside _
  · have input : 1 + k < (circuit.system P).instanceAssignment.length := by
      rw [circuit.system_instances lawful, List.length_cons, List.length_map]
      omega
    exact ⟨List.forall_mem_singleton.mpr trivial, List.forall_mem_singleton.mpr (Nat.lt_of_lt_of_le below copies),
      List.forall_mem_singleton.mpr ⟨Nat.lt_of_lt_of_le Nat.one_pos (Nat.le_add_right _ _), input⟩⟩

/-- The matrices of the circuit. -/
abbrev matrices : ConstraintMatrices C.OuterScalar := (circuit.system P).toMatrices (circuit.closed lawful)

/-- The synthesized assignment of the matrices. -/
abbrev assigned : Assignment (circuit.matrices lawful) := (circuit.system P).toAssignment (circuit.closed lawful)

theorem matrices_instances : (circuit.matrices lawful).numInstanceVariables = circuit.xInner.length + 1 := by
  change (circuit.system P).instanceAssignment.length = _
  rw [circuit.system_instances lawful, List.length_cons, List.length_map]

/-- The public inputs are the embedded statement. -/
theorem assigned_publicInputs [Fact C.outerModulus.Prime] :
    (circuit.assigned lawful).publicInputs = circuit.xInner.map C.convertInnerToOuter :=
  congrArg (List.drop 1) (circuit.system_instances lawful)

theorem system_publicRow {k : ℕ} (below : k < circuit.xInner.length) :
    (circuit.system P).constraints[circuit.xInner.length * C.innerModulusBits + k * 2 + 1]? =
      some (publicRow (.witnessAt k) (.inputAt (1 + k))) := by
  have pair := congrArg (·[1]?) (C.statementRows_eq below)
  rw [RecursionCycle.statementRows, List.getElem?_take, if_pos Nat.one_lt_two, List.getElem?_drop] at pair
  have early : _ < circuit.bound.constraints.length := (List.getElem?_eq_some_iff.mp pair).1
  rw [system_eq_checkStatement, (circuit.checkStatement_inScope lawful).constraints, List.getElem?_append_left early]
  exact pair

/-- The row that copies a public input, among the rows of a matrix. -/
theorem getD_publicRow {k : ℕ} (positive : 0 < k) (inside : k < (circuit.system P).instanceAssignment.length)
    (part : Constraint C.OuterScalar → LinearCombination C.OuterScalar) :
    ((circuit.system P).constraints.map fun row => makeRow (circuit.system P).instanceAssignment.length (part row)).getD
        (circuit.xInner.length * C.innerModulusBits + (k - 1) * 2 + 1) [] =
      makeRow (circuit.system P).instanceAssignment.length (part (publicRow (.witnessAt (k - 1)) (.inputAt k))) := by
  rw [circuit.system_instances lawful, List.length_cons, List.length_map] at inside
  have located := circuit.system_publicRow lawful (show k - 1 < circuit.xInner.length by omega)
  rw [Nat.add_sub_cancel' positive] at located
  rw [List.getD_eq_getElem?_getD, List.getElem?_map, located]
  rfl

/-- The synthesized matrices have the shape that the lean key relies on. -/
def outerShape : OuterShape (circuit.matrices lawful) where
  bindRow k := circuit.xInner.length * C.innerModulusBits + (k - 1) * 2 + 1
  xWit k := (circuit.system P).instanceAssignment.length + (k - 1)
  bindRow_lt k positive inside := by
    change k < (circuit.system P).instanceAssignment.length at inside
    rw [circuit.system_instances lawful, List.length_cons, List.length_map] at inside
    exact (List.getElem?_eq_some_iff.mp
      (circuit.system_publicRow lawful (show k - 1 < circuit.xInner.length by omega))).1
  aRow k positive inside :=
    (circuit.getD_publicRow lawful positive inside Constraint.a).trans (makeRow_singleton one_ne_zero _)
  bRow k positive inside :=
    (circuit.getD_publicRow lawful positive inside Constraint.b).trans (makeRow_singleton one_ne_zero _)
  cRow k positive inside :=
    (circuit.getD_publicRow lawful positive inside Constraint.c).trans (makeRow_singleton one_ne_zero _)
  xWit_witness k _ _ := Nat.le_add_right _ _
  xWit_injective k l kPositive _ lPositive _ same := by omega
  a_free i term member := by
    obtain ⟨row, located, inside⟩ := getD_map_makeRow _ member
    rcases circuit.system_row lawful located with witnessed | ⟨k, -, -, rfl⟩
    · exact makeRow_witnessed _ witnessed.a term inside
    · exact makeRow_witnessed _ (publicRow_witnessed k _).1 term inside
  b_free i term member := by
    obtain ⟨row, located, inside⟩ := getD_map_makeRow _ member
    rcases circuit.system_row lawful located with witnessed | ⟨k, -, -, rfl⟩
    · exact makeRow_witnessed _ witnessed.b term inside
    · exact makeRow_witnessed _ (publicRow_witnessed k _).2 term inside
  c_free i term member := by
    obtain ⟨row, located, inside⟩ := getD_map_makeRow _ member
    rcases circuit.system_row lawful located with witnessed | ⟨k, -, index, rfl⟩
    · exact (makeRow_witnessed _ witnessed.c term inside).imp_right .inl
    · rw [publicRow, makeRow_singleton one_ne_zero] at inside
      rw [List.mem_singleton.mp inside, index]
      refine .inr (.inr ?_)
      simp [Variable.column]

/-- The synthesized assignment satisfies the matrices exactly when the native verifier accepts the inner proof. -/
theorem assigned_satisfies_iff [Fact C.outerModulus.Prime]
    (lengths : circuit.xInner.length + 1 = circuit.vkInner.gammaAbcG1.length) :
    (circuit.assigned lawful).Satisfies ↔ verify e circuit.vkInner circuit.xInner circuit.proofInner = .ok true := by
  obtain ⟨ok, found⟩ := exists_checked (circuit.synthesized_of_lengths lawful (.inl lengths))
  have chooses := circuit.witnessed_chooses lawful
  have computes := circuit.checked_computes lawful
  have last := (enforced lawful found).inScope.agree
  rw [← system_eq found] at last
  have agree2 := (computes.inScope.agree).trans computes.inScope.grows last
  have agree1 := chooses.inScope.agree.trans chooses.inScope.grows agree2
  have grows : C.statementWitnesses circuit.xInner.length ≤ (circuit.witnessed P).2.witnessAssignment.length :=
    circuit.bound_witnesses ▸ chooses.inScope.grows
  have bound1 : AgreeBelow (C.statementWitnesses circuit.xInner.length) (C.honestAssignment circuit.xInner)
      (circuit.system P).assignment := circuit.bound_witnesses ▸ agree1
  have bound2 : AgreeBelow (C.statementWitnesses circuit.xInner.length) (C.honestAssignment circuit.xInner)
      (circuit.witnessed P).2.assignment := circuit.bound_witnesses ▸ chooses.inScope.agree
  have statement := C.honest_boundStatement circuit.xInner
  have rows := computes.honest (RecursionCycle.booleanStatement_stable bound2 statement.1)
  have rows' : ∀ row ∈ newRows (verifyGadget P (VerifyingKeyVar.newConstant P circuit.vkInner) circuit.inputVar
      (circuit.witnessed P).1) (circuit.witnessed P).2, row.Holds (circuit.system P).assignment :=
    fun row member => ((computes.inScope.scope row member).holds_iff last).mp (rows row member)
  have value := computes.sound _ rfl (RecursionCycle.booleanStatement_stable bound1 statement.1) rows'
  have points : P.proof.value (circuit.system P).assignment (circuit.witnessed P).1 = circuit.proofInner :=
    (P.proof.stable chooses.allocated agree2).symm.trans chooses.assigned
  have inputs : (circuit.inputVar.map fun bits => (inputInteger (circuit.system P).assignment bits : C.InnerScalar)) =
      circuit.xInner := by
    refine (tabulate_map _ _ _).trans ((tabulate_congr fun k below => ?_).trans (tabulate_of_list circuit.xInner 0))
    rw [Function.comp_apply, ← RecursionCycle.inputInteger_agree (fun bit => RecursionCycle.inputBlocks_witnessed
      (RecursionCycle.mem_inputBlocks.mpr ⟨k, below, rfl⟩)) bound1, C.honest_integer circuit.xInner below,
      ZMod.natCast_zmod_val]
    simp [below]
  rw [points, inputs] at value
  change P.boolean.option.value _ (circuit.checked P).1 = _ at value
  rw [found] at value
  rw [toAssignment_satisfies_iff, holds_iff lawful found rfl, ← gadgetVerdict_eq_true_iff _ lengths, ← value]
  constructor
  · rintro ⟨-, -, -, verdict⟩
    exact congrArg some verdict
  · intro verdict
    refine ⟨(C.bindStatement_holds_iff circuit.xInner rfl).mpr (RecursionCycle.boundStatement_stable bound1 statement),
      fun row member => ?_, rows', Option.some.inj verdict⟩
    exact ((chooses.inScope.scope row member).holds_iff agree2).mp (chooses.honest row member)

end OuterCircuit

end Circuit

end Pvugc.Circuit
