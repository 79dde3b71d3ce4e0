import Pvugc.Circuit.RecursionCycle
import Pvugc.Circuit.Synthesis
import Pvugc.Algebra.Tabulate

namespace Pvugc.Circuit
open Pvugc.Algebra

section Booleans

variable {F : Type} [CommRing F]

/-- A free boolean witness: its only row says that it is zero or one. -/
def newWitnessBoolean (value : Bool) : Synthesis F Variable := do
  let bit ← newWitnessVariable (if value then 1 else 0)
  enforceConstraint [(1, .one), (-1, bit)] [(1, bit)] []
  pure bit

/-- The linear combination of an allocated boolean. -/
def bitLc (bit : Variable) : LinearCombination F := [(1, bit)]

/-- The loop that sums the bits with their powers of two. -/
def reconstructFrom (state : LinearCombination F × F) (bits : List Variable) :
    LinearCombination F × F :=
  bits.foldl (fun (lc, powerOfTwo) bit =>
    ((bitLc bit).foldl (fun lc (term : F × Variable) => lc ++ [(powerOfTwo * term.1, term.2)]) lc,
      powerOfTwo + powerOfTwo)) state

/-- The reconstruction of an input from its bits. -/
def reconstructedLc (bits : List Variable) : LinearCombination F := (reconstructFrom ([], 1) bits).1

/-- The row `1 * reconstruct(bits) = x_wit`. -/
def bitsRow (bits : List Variable) (xWit : Variable) : Constraint F :=
  ⟨[(1, .one)], reconstructedLc bits, [(1, xWit)]⟩

/-- The row `1 * x_wit = x_pub`. -/
def publicRow (xWit xPub : Variable) : Constraint F := ⟨[(1, .one)], [(1, xWit)], [(1, xPub)]⟩

/-- The two binding rows of one input. -/
def bindInput (input : (Variable × Variable) × List Variable) : Synthesis F Unit := do
  let ((xPub, xWit), bits) := input
  enforceConstraint [(1, .one)] (reconstructedLc bits) [(1, xWit)]
  enforceConstraint [(1, .one)] [(1, xWit)] [(1, xPub)]

/-- A block of consecutive witnesses. -/
def witnessBlock (start count : ℕ) : List Variable := tabulate count fun i => .witnessAt (start + i)

theorem witnessBlock_succ (start count : ℕ) :
    witnessBlock start (count + 1) = .witnessAt start :: witnessBlock (start + 1) count := by
  rw [witnessBlock, tabulate_succ, witnessBlock]
  simp only [Nat.add_assoc, Nat.add_comm 1, Nat.add_zero]

/-- The row that makes a witness boolean. -/
def booleanRow (bit : Variable) : Constraint F := ⟨[(1, .one), (-1, bit)], [(1, bit)], []⟩

theorem newWitnessBoolean_run (value : Bool) (cs : ConstraintSystem F) :
    (newWitnessBoolean value).run cs = (.witnessAt cs.witnessAssignment.length,
      { cs with
        witnessAssignment := cs.witnessAssignment ++ [if value then 1 else 0]
        constraints := cs.constraints ++ [booleanRow (.witnessAt cs.witnessAssignment.length)] }) :=
  rfl

/-- Allocating bits appends their values and one row for each. -/
theorem newWitnessBooleans_run (bits : List Bool) (cs : ConstraintSystem F) :
    (bits.mapM newWitnessBoolean).run cs =
      (witnessBlock cs.witnessAssignment.length bits.length,
        { cs with
          witnessAssignment := cs.witnessAssignment ++ bits.map fun bit => if bit then 1 else 0
          constraints := cs.constraints ++
            (witnessBlock cs.witnessAssignment.length bits.length).map booleanRow }) := by
  induction bits generalizing cs with
  | nil =>
      simp only [List.mapM_nil, List.map_nil, List.append_nil, List.length_nil]
      change ([], _) = (_, _)
      simp [witnessBlock, tabulate]
  | cons bit bits inductionHypothesis =>
      rw [List.mapM_cons, StateT.run_bind, newWitnessBoolean_run]
      change StateT.run (bits.mapM newWitnessBoolean >>= fun rest => pure (_ :: rest)) _ = _
      rw [StateT.run_bind, inductionHypothesis]
      simp only [witnessBlock_succ, List.length_append, List.length_cons, List.map_cons,
        List.append_assoc, List.singleton_append]
      rfl

/-- The two binding rows of an input. -/
def bindingRows (input : (Variable × Variable) × List Variable) : List (Constraint F) :=
  [bitsRow input.2 input.1.2, publicRow input.1.2 input.1.1]

theorem bindInput_run (input : (Variable × Variable) × List Variable) (cs : ConstraintSystem F) :
    (bindInput input).run cs =
      ((), { cs with constraints := cs.constraints ++ bindingRows input }) := by
  change ((), { cs with constraints := (cs.constraints ++ [_]) ++ [_] }) = _
  rw [List.append_assoc]
  rfl

theorem bindInputs_run (inputs : List ((Variable × Variable) × List Variable))
    (cs : ConstraintSystem F) :
    (forM inputs bindInput).run cs =
      ((), { cs with constraints := cs.constraints ++ inputs.flatMap bindingRows }) := by
  induction inputs generalizing cs with
  | nil =>
      simp only [List.flatMap_nil, List.append_nil]
      rfl
  | cons input inputs inductionHypothesis =>
      rw [List.forM_cons, StateT.run_bind, bindInput_run]
      change StateT.run (forM inputs bindInput) _ = _
      rw [inductionHypothesis, List.flatMap_cons, List.append_assoc]

end Booleans

namespace RecursionCycle

variable (C : RecursionCycle)

/-- The public input and the witness copy of one inner input. -/
def allocateInput (x : C.InnerScalar) : Synthesis C.OuterScalar (Variable × Variable) := do
  let xOuter := C.convertInnerToOuter x
  let xPub ← newInputVariable xOuter
  let xWit ← newWitnessVariable xOuter
  pure (xPub, xWit)

/-- This is `BooleanInputVar::new_witness`: free booleans for the bits of every input. -/
def newWitnessInput (xInner : List C.InnerScalar) : Synthesis C.OuterScalar (List (List Variable)) :=
  xInner.mapM fun x => (C.normalizedInnerBitsLe x).mapM newWitnessBoolean

/-- The first three steps of `OuterCircuit::generate_constraints`. -/
def bindStatement (xInner : List C.InnerScalar) : Synthesis C.OuterScalar (List (List Variable)) := do
  let vars ← xInner.mapM C.allocateInput
  let inputVar ← C.newWitnessInput xInner
  forM (vars.zip inputVar) bindInput
  pure inputVar

/-- This is `OuterCircuit::generate_constraints`, with the proof witness and the verifier gadget as a
parameter. -/
def generateConstraints (verify : List (List Variable) → Synthesis C.OuterScalar Unit)
    (xInner : List C.InnerScalar) : Synthesis C.OuterScalar Unit := do
  let inputVar ← C.bindStatement xInner
  verify inputVar

/-- The variables of the public inputs and their witness copies, from a start on. -/
def inputVars (inputStart witnessStart count : ℕ) : List (Variable × Variable) :=
  tabulate count fun k => (.inputAt (inputStart + k), .witnessAt (witnessStart + k))

theorem inputVars_succ (inputStart witnessStart count : ℕ) :
    inputVars inputStart witnessStart (count + 1) =
      (.inputAt inputStart, .witnessAt witnessStart) ::
        inputVars (inputStart + 1) (witnessStart + 1) count := by
  rw [inputVars, tabulate_succ, inputVars]
  simp only [Nat.add_zero, Nat.add_assoc, Nat.add_comm 1]

/-- The bit variables of the inputs, from a start on. -/
def inputBlocks (start count : ℕ) : List (List Variable) :=
  tabulate count fun k => witnessBlock (start + k * C.innerModulusBits) C.innerModulusBits

theorem allocateInput_run (x : C.InnerScalar) (cs : ConstraintSystem C.OuterScalar) :
    (C.allocateInput x).run cs =
      ((.inputAt cs.instanceAssignment.length, .witnessAt cs.witnessAssignment.length),
        { cs with
          instanceAssignment := cs.instanceAssignment ++ [C.convertInnerToOuter x]
          witnessAssignment := cs.witnessAssignment ++ [C.convertInnerToOuter x] }) := rfl

theorem allocateInputs_run (xs : List C.InnerScalar) (cs : ConstraintSystem C.OuterScalar) :
    (xs.mapM C.allocateInput).run cs =
      (inputVars cs.instanceAssignment.length cs.witnessAssignment.length xs.length,
        { cs with
          instanceAssignment := cs.instanceAssignment ++ xs.map C.convertInnerToOuter
          witnessAssignment := cs.witnessAssignment ++ xs.map C.convertInnerToOuter }) := by
  induction xs generalizing cs with
  | nil =>
      simp only [List.mapM_nil, List.map_nil, List.append_nil, List.length_nil]
      rfl
  | cons x xs inductionHypothesis =>
      rw [List.mapM_cons, StateT.run_bind, allocateInput_run]
      change StateT.run (xs.mapM C.allocateInput >>= fun rest => pure (_ :: rest)) _ = _
      rw [StateT.run_bind, inductionHypothesis, List.length_cons, inputVars_succ]
      simp only [List.length_append, List.length_singleton, List.map_cons, List.append_assoc,
        List.singleton_append]
      rfl

theorem inputBlocks_succ (start count : ℕ) :
    C.inputBlocks start (count + 1) =
      witnessBlock start C.innerModulusBits ::
        C.inputBlocks (start + C.innerModulusBits) count := by
  rw [inputBlocks, tabulate_succ, inputBlocks, Nat.zero_mul, Nat.add_zero]
  simp only [Nat.succ_mul, Nat.add_assoc, Nat.add_comm C.innerModulusBits]

theorem normalizedInnerBitsLe_length (x : C.InnerScalar) :
    (C.normalizedInnerBitsLe x).length = C.innerModulusBits := by
  rw [normalizedInnerBitsLe_eq, List.length_map, List.length_range]

/-- The values of the bits of the inputs. -/
def bitValues (xs : List C.InnerScalar) : List C.OuterScalar :=
  xs.flatMap fun x => (C.normalizedInnerBitsLe x).map fun bit => if bit then 1 else 0

theorem newWitnessInput_run (xs : List C.InnerScalar) (cs : ConstraintSystem C.OuterScalar) :
    (C.newWitnessInput xs).run cs =
      (C.inputBlocks cs.witnessAssignment.length xs.length,
        { cs with
          witnessAssignment := cs.witnessAssignment ++ C.bitValues xs
          constraints := cs.constraints ++
            (C.inputBlocks cs.witnessAssignment.length xs.length).flatMap (List.map booleanRow) }) := by
  induction xs generalizing cs with
  | nil =>
      simp only [bitValues, List.flatMap_nil, List.append_nil, List.length_nil]
      change ([], _) = (_, _)
      simp [inputBlocks, tabulate]
  | cons x xs inductionHypothesis =>
      rw [newWitnessInput, List.mapM_cons, StateT.run_bind, newWitnessBooleans_run]
      change StateT.run (C.newWitnessInput xs >>= fun rest => pure (_ :: rest)) _ = _
      rw [StateT.run_bind, inductionHypothesis, List.length_cons, inputBlocks_succ]
      simp only [normalizedInnerBitsLe_length, List.length_append, List.length_map, bitValues,
        List.flatMap_cons, List.append_assoc]
      rfl

/-- The system after the binding rows: one block of boolean rows, then two rows for each input. -/
theorem bindStatement_run (xs : List C.InnerScalar) :
    (C.bindStatement xs).run .newRef =
      (C.inputBlocks xs.length xs.length,
        ⟨1 :: xs.map C.convertInnerToOuter, xs.map C.convertInnerToOuter ++ C.bitValues xs,
          (C.inputBlocks xs.length xs.length).flatMap (List.map booleanRow) ++
            ((inputVars 1 0 xs.length).zip (C.inputBlocks xs.length xs.length)).flatMap
              bindingRows⟩) := by
  rw [bindStatement, StateT.run_bind, allocateInputs_run]
  change StateT.run (C.newWitnessInput xs >>= _) _ = _
  rw [StateT.run_bind, newWitnessInput_run]
  change StateT.run (forM _ bindInput >>= _) _ = _
  rw [StateT.run_bind, bindInputs_run]
  simp only [ConstraintSystem.newRef, List.cons_append, List.nil_append, List.length_map,
    List.length_cons, List.length_nil, zero_add, StateT.run_pure]
  rfl

end RecursionCycle

end Pvugc.Circuit
