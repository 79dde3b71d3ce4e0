import Pvugc.Circuit.Gadget
import Pvugc.Circuit.OuterBinding
import Pvugc.Groth16.Verifier

namespace Pvugc.Circuit
open Pvugc.Groth16

/-- The action adds rows that hold exactly under a condition on what was allocated before. -/
structure Enforces {F : Type} [CommRing F] (action : Synthesis F Unit) (cs : ConstraintSystem F)
    (condition : (Variable → F) → Prop) : Prop where
  inScope : Scoped action cs
  same : (action.run cs).2.witnessAssignment = cs.witnessAssignment
  exact : ∀ z, z .one = 1 → ((∀ row ∈ newRows action cs, row.Holds z) ↔ condition z)

/-- The bits of a list of variables are zero or one. -/
def BooleanBits {F : Type} [CommRing F] (bits : List Variable) (z : Variable → F) : Prop :=
  ∀ bit ∈ bits, z bit = 0 ∨ z bit = 1

section Library

variable {K G1 G2 GT : Type} [AddCommGroup G1] [AddCommGroup G2] [AddCommGroup GT]
variable [SMul K G1] [SMul K G2] [SMul K GT]

/-- This is the trait `PairingVar` with the point gadgets of its curves: the variables of each group, what they stand
for, and the operations that the verifier gadget calls. A Miller value is read through its final exponentiation. -/
structure PairingVar (F : Type) [CommRing F] (e : Pairing K G1 G2 GT) where
  G1Var : Type
  G2Var : Type
  G1PreparedVar : Type
  G2PreparedVar : Type
  GTVar : Type
  BooleanVar : Type
  g1 : Reading F G1Var G1
  g2 : Reading F G2Var G2
  g1Prepared : Reading F G1PreparedVar G1
  g2Prepared : Reading F G2PreparedVar G2
  miller : Reading F GTVar GT
  gt : Reading F GTVar GT
  boolean : Reading F BooleanVar Bool
  newConstantG1 : G1 → G1Var
  newConstantG2 : G2 → G2Var
  newWitnessG1 : G1 → Synthesis F G1Var
  newWitnessG2 : G2 → Synthesis F G2Var
  scalarMulLe : G1Var → List Variable → Synthesis F G1Var
  add : G1Var → G1Var → Synthesis F G1Var
  negate : G2Var → Synthesis F G2Var
  prepareG1 : G1Var → Synthesis F G1PreparedVar
  prepareG2 : G2Var → Synthesis F G2PreparedVar
  millerLoop : List G1PreparedVar → List G2PreparedVar → Synthesis F GTVar
  finalExponentiation : GTVar → Synthesis F GTVar
  isEq : GTVar → GTVar → Synthesis F BooleanVar
  enforceTrue : BooleanVar → Synthesis F Unit

variable {F : Type} [CommRing F] [DecidableEq F] [DecidableEq GT] {e : Pairing K G1 G2 GT}

/-- What the library documents: a constant is its value, a witness is free, every operation computes what its name
says from allocated variables, and the last check holds for a true value. -/
structure PairingVar.Lawful (P : PairingVar F e) : Prop where
  constantG1_allocated : ∀ bound p, P.g1.Allocated bound (P.newConstantG1 p)
  constantG1_value : ∀ z p, z .one = 1 → P.g1.value z (P.newConstantG1 p) = p
  constantG2_allocated : ∀ bound q, P.g2.Allocated bound (P.newConstantG2 q)
  constantG2_value : ∀ z q, z .one = 1 → P.g2.value z (P.newConstantG2 q) = q
  newWitnessG1 : ∀ cs p, Chooses P.g1 (P.newWitnessG1 p) cs (fun _ point => point) p
  newWitnessG2 : ∀ cs q, Chooses P.g2 (P.newWitnessG2 q) cs (fun _ point => point) q
  scalarMulLe : ∀ cs v bits, P.g1.Allocated cs.witnessAssignment.length v →
    (∀ bit ∈ bits, bit.Witnessed cs.witnessAssignment.length) →
    Computes P.g1 (BooleanBits bits) (P.scalarMulLe v bits) cs fun z => inputInteger z bits • P.g1.value z v
  add : ∀ cs v w, P.g1.Allocated cs.witnessAssignment.length v → P.g1.Allocated cs.witnessAssignment.length w →
    Computes P.g1 (fun _ => True) (P.add v w) cs fun z => P.g1.value z v + P.g1.value z w
  negate : ∀ cs v, P.g2.Allocated cs.witnessAssignment.length v →
    Computes P.g2 (fun _ => True) (P.negate v) cs fun z => -P.g2.value z v
  prepareG1 : ∀ cs v, P.g1.Allocated cs.witnessAssignment.length v →
    Computes P.g1Prepared (fun _ => True) (P.prepareG1 v) cs fun z => P.g1.value z v
  prepareG2 : ∀ cs v, P.g2.Allocated cs.witnessAssignment.length v →
    Computes P.g2Prepared (fun _ => True) (P.prepareG2 v) cs fun z => P.g2.value z v
  millerLoop : ∀ cs vs ws, P.g1Prepared.list.Allocated cs.witnessAssignment.length vs →
    P.g2Prepared.list.Allocated cs.witnessAssignment.length ws → vs.length = ws.length →
    Computes P.miller (fun _ => True) (P.millerLoop vs ws) cs fun z =>
      (List.zipWith e.pairing (P.g1Prepared.list.value z vs) (P.g2Prepared.list.value z ws)).sum
  finalExponentiation : ∀ cs v, P.miller.Allocated cs.witnessAssignment.length v →
    Computes P.gt (fun _ => True) (P.finalExponentiation v) cs fun z => P.miller.value z v
  isEq : ∀ cs v w, P.gt.Allocated cs.witnessAssignment.length v → P.gt.Allocated cs.witnessAssignment.length w →
    Computes P.boolean (fun _ => True) (P.isEq v w) cs fun z => decide (P.gt.value z v = P.gt.value z w)
  enforceTrue : ∀ cs v, P.boolean.Allocated cs.witnessAssignment.length v →
    Enforces (P.enforceTrue v) cs fun z => P.boolean.value z v = true

/-- What the library documents of its rows: they do not depend on the values that are assigned. -/
structure PairingVar.Uniform (P : PairingVar F e) : Prop where
  newWitnessG1 : ∀ p p', Oblivious (P.newWitnessG1 p) (P.newWitnessG1 p')
  newWitnessG2 : ∀ q q', Oblivious (P.newWitnessG2 q) (P.newWitnessG2 q')
  scalarMulLe : ∀ v bits, Oblivious (P.scalarMulLe v bits) (P.scalarMulLe v bits)
  add : ∀ v w, Oblivious (P.add v w) (P.add v w)
  negate : ∀ v, Oblivious (P.negate v) (P.negate v)
  prepareG1 : ∀ v, Oblivious (P.prepareG1 v) (P.prepareG1 v)
  prepareG2 : ∀ v, Oblivious (P.prepareG2 v) (P.prepareG2 v)
  millerLoop : ∀ vs ws, Oblivious (P.millerLoop vs ws) (P.millerLoop vs ws)
  finalExponentiation : ∀ v, Oblivious (P.finalExponentiation v) (P.finalExponentiation v)
  isEq : ∀ v w, Oblivious (P.isEq v w) (P.isEq v w)
  enforceTrue : ∀ v, Oblivious (P.enforceTrue v) (P.enforceTrue v)

end Library

end Pvugc.Circuit
