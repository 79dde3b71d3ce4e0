import Pvugc.Circuit.PairingVar

namespace Pvugc.Circuit
open Pvugc.Groth16

variable {K G1 G2 GT F : Type} [AddCommGroup G1] [AddCommGroup G2] [AddCommGroup GT]
variable [SMul K G1] [SMul K G2] [SMul K GT] [CommRing F] {e : Pairing K G1 G2 GT}

section Code

variable (P : PairingVar F e)

structure ProofVar where
  a : P.G1Var
  b : P.G2Var
  c : P.G1Var

structure VerifyingKeyVar where
  alphaG1 : P.G1Var
  betaG2 : P.G2Var
  gammaG2 : P.G2Var
  deltaG2 : P.G2Var
  gammaAbcG1 : List P.G1Var

structure PreparedVerifyingKeyVar where
  alphaG1BetaG2 : P.GTVar
  gammaG2NegPc : P.G2PreparedVar
  deltaG2NegPc : P.G2PreparedVar
  gammaAbcG1 : List P.G1Var

def ProofVar.newWitness (proof : Proof G1 G2) : Synthesis F (ProofVar P) := do
  let a ← P.newWitnessG1 proof.a
  let b ← P.newWitnessG2 proof.b
  let c ← P.newWitnessG1 proof.c
  pure ⟨a, b, c⟩

def VerifyingKeyVar.newConstant (vk : VerifyingKey G1 G2) : VerifyingKeyVar P where
  alphaG1 := P.newConstantG1 vk.alphaG1
  betaG2 := P.newConstantG2 vk.betaG2
  gammaG2 := P.newConstantG2 vk.gammaG2
  deltaG2 := P.newConstantG2 vk.deltaG2
  gammaAbcG1 := vk.gammaAbcG1.map P.newConstantG1

/-- The pairing of the trait: a Miller loop over one pair and its final exponentiation. -/
def PairingVar.pairing (p : P.G1PreparedVar) (q : P.G2PreparedVar) : Synthesis F P.GTVar := do
  let tmp ← P.millerLoop [p] [q]
  P.finalExponentiation tmp

def VerifyingKeyVar.prepare (vk : VerifyingKeyVar P) : Synthesis F (PreparedVerifyingKeyVar P) := do
  let alphaG1Pc ← P.prepareG1 vk.alphaG1
  let betaG2Pc ← P.prepareG2 vk.betaG2
  let alphaG1BetaG2 ← P.pairing alphaG1Pc betaG2Pc
  let gammaG2Neg ← P.negate vk.gammaG2
  let gammaG2NegPc ← P.prepareG2 gammaG2Neg
  let deltaG2Neg ← P.negate vk.deltaG2
  let deltaG2NegPc ← P.prepareG2 deltaG2Neg
  pure ⟨alphaG1BetaG2, gammaG2NegPc, deltaG2NegPc, vk.gammaAbcG1⟩

/-- The pairs of `by_ref().zip(..)` and what is left of the first iterator, which has given up one more item when the
second one ends first. -/
def zipByRef {A B : Type} : List A → List B → List (A × B) × List A
  | [], _ => ([], [])
  | _ :: rest, [] => ([], rest)
  | first :: rest, base :: bases => ((first, base) :: (zipByRef rest bases).1, (zipByRef rest bases).2)

/-- One turn of the loop over the public inputs. -/
def addEncodedInput (gIc : P.G1Var) (item : List Variable × P.G1Var) : Synthesis F P.G1Var := do
  let encodedInput ← P.scalarMulLe item.2 item.1
  P.add gIc encodedInput

/-- The pairing check of the gadget for the sum of the encoded inputs. -/
def checkPairing (pvk : PreparedVerifyingKeyVar P) (gIc : P.G1Var) (proof : ProofVar P) : Synthesis F P.BooleanVar := do
  let proofAPrep ← P.prepareG1 proof.a
  let proofBPrep ← P.prepareG2 proof.b
  let proofCPrep ← P.prepareG1 proof.c
  let gIcPrep ← P.prepareG1 gIc
  let testExp ← P.millerLoop [proofAPrep, gIcPrep, proofCPrep] [proofBPrep, pvk.gammaG2NegPc, pvk.deltaG2NegPc]
  let test ← P.finalExponentiation testExp
  P.isEq test pvk.alphaG1BetaG2

/-- `verify_with_processed_vk`; no action stands for the panic of the index or of the assertion on the lengths. -/
def verifyWithProcessedVk (pvk : PreparedVerifyingKeyVar P) (x : List (List Variable)) (proof : ProofVar P) :
    Option (Synthesis F P.BooleanVar) :=
  match pvk.gammaAbcG1 with
  | [] => none
  | constant :: bases =>
      let publicInputs := zipByRef x bases
      if publicInputs.1.length + 1 = pvk.gammaAbcG1.length ∧ publicInputs.2 = [] then some do
        let gIc ← publicInputs.1.foldlM (addEncodedInput P) constant
        checkPairing P pvk gIc proof
      else none

/-- An action that may be missing. -/
def orPanic {A : Type} : Option (Synthesis F A) → Synthesis F (Option A)
  | none => pure none
  | some action => some <$> action

/-- This is `verify`, where no variable stands for the panic. -/
def verifyGadget (vk : VerifyingKeyVar P) (x : List (List Variable)) (proof : ProofVar P) :
    Synthesis F (Option P.BooleanVar) := do
  let pvk ← vk.prepare P
  orPanic (verifyWithProcessedVk P pvk x proof)

end Code

theorem zipByRef_fst {A B : Type} (x : List A) (bases : List B) : (zipByRef x bases).1 = x.zip bases := by
  induction x generalizing bases with
  | nil => rfl
  | cons first rest ih =>
      cases bases with
      | nil => rfl
      | cons base bases => rw [zipByRef, ih, List.zip_cons_cons]

theorem zipByRef_snd {A B : Type} (x : List A) (bases : List B) : (zipByRef x bases).2 = x.drop (bases.length + 1) := by
  induction x generalizing bases with
  | nil => rfl
  | cons first rest ih =>
      cases bases with
      | nil => rfl
      | cons base bases => rw [zipByRef, ih, List.length_cons, List.drop_succ_cons]

/-- The assertion passes for the number of inputs that the key asks for, and for one more. -/
theorem zipByRef_check_iff {A B : Type} (x : List A) (bases : List B) :
    ((zipByRef x bases).1.length + 1 = bases.length + 1 ∧ (zipByRef x bases).2 = []) ↔
      x.length = bases.length ∨ x.length = bases.length + 1 := by
  rw [zipByRef_fst, zipByRef_snd, List.length_zip, List.drop_eq_nil_iff]
  omega

/-- The loop and the check behind an assertion that passes. -/
theorem verifyWithProcessedVk_cons (P : PairingVar F e) (pvk : PreparedVerifyingKeyVar P) {constant : P.G1Var}
    {bases : List P.G1Var} (key : pvk.gammaAbcG1 = constant :: bases) (x : List (List Variable)) (proof : ProofVar P) :
    verifyWithProcessedVk P pvk x proof =
      if x.length = bases.length ∨ x.length = bases.length + 1 then some do
        let gIc ← (x.zip bases).foldlM (addEncodedInput P) constant
        checkPairing P pvk gIc proof
      else none := by
  simp only [verifyWithProcessedVk, key]
  exact if_congr (zipByRef_check_iff x bases) (by rw [zipByRef_fst]) rfl

section Readings

/-- The values of a prepared key. -/
structure PreparedValues (G1 G2 GT : Type) where
  alphaG1BetaG2 : GT
  gammaG2NegPc : G2
  deltaG2NegPc : G2
  gammaAbcG1 : List G1

variable (P : PairingVar F e)

def PairingVar.prepared : Reading F (PreparedVerifyingKeyVar P) (PreparedValues G1 G2 GT) where
  value z pvk := ⟨P.gt.value z pvk.alphaG1BetaG2, P.g2Prepared.value z pvk.gammaG2NegPc,
    P.g2Prepared.value z pvk.deltaG2NegPc, P.g1.list.value z pvk.gammaAbcG1⟩
  Allocated bound pvk := P.gt.Allocated bound pvk.alphaG1BetaG2 ∧ P.g2Prepared.Allocated bound pvk.gammaG2NegPc ∧
    P.g2Prepared.Allocated bound pvk.deltaG2NegPc ∧ P.g1.list.Allocated bound pvk.gammaAbcG1
  mono le allocated := ⟨P.gt.mono le allocated.1, P.g2Prepared.mono le allocated.2.1,
    P.g2Prepared.mono le allocated.2.2.1, P.g1.list.mono le allocated.2.2.2⟩
  stable allocated agree := by
    rw [P.gt.stable allocated.1 agree, P.g2Prepared.stable allocated.2.1 agree,
      P.g2Prepared.stable allocated.2.2.1 agree, P.g1.list.stable allocated.2.2.2 agree]

def PairingVar.proof : Reading F (ProofVar P) (Proof G1 G2) where
  value z proof := ⟨P.g1.value z proof.a, P.g2.value z proof.b, P.g1.value z proof.c⟩
  Allocated bound proof := P.g1.Allocated bound proof.a ∧ P.g2.Allocated bound proof.b ∧
    P.g1.Allocated bound proof.c
  mono le allocated := ⟨P.g1.mono le allocated.1, P.g2.mono le allocated.2.1, P.g1.mono le allocated.2.2⟩
  stable allocated agree := by
    rw [P.g1.stable allocated.1 agree, P.g2.stable allocated.2.1 agree, P.g1.stable allocated.2.2 agree]

end Readings

section Correctness

variable [DecidableEq F] [DecidableEq GT] {P : PairingVar F e} (lawful : P.Lawful)
variable {condition : (Variable → F) → Prop} {cs : ConstraintSystem F}
variable (stable : StableBelow cs.witnessAssignment.length condition)
include lawful stable

theorem pairing_computes {p : P.G1PreparedVar} {q : P.G2PreparedVar}
    (left : P.g1Prepared.Allocated cs.witnessAssignment.length p)
    (right : P.g2Prepared.Allocated cs.witnessAssignment.length q) :
    Computes P.gt condition (P.pairing p q) cs fun z =>
      e.pairing (P.g1Prepared.value z p) (P.g2Prepared.value z q) := by
  have loop := lawful.millerLoop cs [p] [q] (by simpa [Reading.list] using left)
    (by simpa [Reading.list] using right) rfl
  have both : Computes P.gt condition (P.pairing p q) cs _ :=
    (loop.weaken fun _ _ => trivial).andThen (fun _ value => value) stable
      fun v cs' _ allocated _ => (lawful.finalExponentiation cs' v allocated).weaken fun _ _ => trivial
  exact both.congr fun z _ _ => by simp [Reading.list]

theorem prepare_computes {vk : VerifyingKeyVar P} (alpha : P.g1.Allocated cs.witnessAssignment.length vk.alphaG1)
    (beta : P.g2.Allocated cs.witnessAssignment.length vk.betaG2)
    (gamma : P.g2.Allocated cs.witnessAssignment.length vk.gammaG2)
    (delta : P.g2.Allocated cs.witnessAssignment.length vk.deltaG2)
    (gammaAbc : P.g1.list.Allocated cs.witnessAssignment.length vk.gammaAbcG1) :
    Computes P.prepared condition (VerifyingKeyVar.prepare P vk) cs fun z =>
      ⟨e.pairing (P.g1.value z vk.alphaG1) (P.g2.value z vk.betaG2), -P.g2.value z vk.gammaG2,
        -P.g2.value z vk.deltaG2, P.g1.list.value z vk.gammaAbcG1⟩ := by
  unfold VerifyingKeyVar.prepare
  refine ((lawful.prepareG1 cs _ alpha).weaken fun _ _ => trivial).andThen
    (fun z value => PreparedValues.mk (e.pairing value (P.g2.value z vk.betaG2)) (-P.g2.value z vk.gammaG2)
      (-P.g2.value z vk.deltaG2) (P.g1.list.value z vk.gammaAbcG1)) stable
    fun alphaPc cs1 le1 alphaAllocated stable1 => ?_
  refine ((lawful.prepareG2 cs1 _ (P.g2.mono le1 beta)).weaken fun _ _ => trivial).andThen
    (fun z value => PreparedValues.mk (e.pairing (P.g1Prepared.value z alphaPc) value) (-P.g2.value z vk.gammaG2)
      (-P.g2.value z vk.deltaG2) (P.g1.list.value z vk.gammaAbcG1)) stable1
    fun betaPc cs2 le2 betaAllocated stable2 => ?_
  refine (pairing_computes lawful stable2 (P.g1Prepared.mono le2 alphaAllocated) betaAllocated).andThen
    (fun z value => PreparedValues.mk value (-P.g2.value z vk.gammaG2) (-P.g2.value z vk.deltaG2)
      (P.g1.list.value z vk.gammaAbcG1)) stable2
    fun alphaBeta cs3 le3 pairAllocated stable3 => ?_
  have le13 : cs.witnessAssignment.length ≤ cs3.witnessAssignment.length := (le1.trans le2).trans le3
  refine ((lawful.negate cs3 _ (P.g2.mono le13 gamma)).weaken fun _ _ => trivial).andThen
    (fun z value => PreparedValues.mk (P.gt.value z alphaBeta) value (-P.g2.value z vk.deltaG2)
      (P.g1.list.value z vk.gammaAbcG1)) stable3
    fun gammaNeg cs4 le4 gammaAllocated stable4 => ?_
  refine ((lawful.prepareG2 cs4 _ gammaAllocated).weaken fun _ _ => trivial).andThen
    (fun z value => PreparedValues.mk (P.gt.value z alphaBeta) value (-P.g2.value z vk.deltaG2)
      (P.g1.list.value z vk.gammaAbcG1)) stable4
    fun gammaPc cs5 le5 gammaPrepared stable5 => ?_
  have le15 : cs.witnessAssignment.length ≤ cs5.witnessAssignment.length := (le13.trans le4).trans le5
  refine ((lawful.negate cs5 _ (P.g2.mono le15 delta)).weaken fun _ _ => trivial).andThen
    (fun z value => PreparedValues.mk (P.gt.value z alphaBeta) (P.g2Prepared.value z gammaPc) value
      (P.g1.list.value z vk.gammaAbcG1)) stable5
    fun deltaNeg cs6 le6 deltaAllocated stable6 => ?_
  refine ((lawful.prepareG2 cs6 _ deltaAllocated).weaken fun _ _ => trivial).andThen
    (fun z value => PreparedValues.mk (P.gt.value z alphaBeta) (P.g2Prepared.value z gammaPc) value
      (P.g1.list.value z vk.gammaAbcG1)) stable6
    fun deltaPc cs7 le7 deltaPrepared stable7 => ?_
  have le57 : cs5.witnessAssignment.length ≤ cs7.witnessAssignment.length := le6.trans le7
  exact Computes.pure ⟨P.gt.mono ((le4.trans le5).trans le57) pairAllocated, P.g2Prepared.mono le57 gammaPrepared,
    deltaPrepared, P.g1.list.mono (le15.trans le57) gammaAbc⟩

theorem addEncodedInput_computes {gIc : P.G1Var} {item : List Variable × P.G1Var}
    (sum : P.g1.Allocated cs.witnessAssignment.length gIc)
    (base : P.g1.Allocated cs.witnessAssignment.length item.2)
    (bits : ∀ bit ∈ item.1, bit.Witnessed cs.witnessAssignment.length)
    (boolean : ∀ z, condition z → BooleanBits item.1 z) :
    Computes P.g1 condition (addEncodedInput P gIc item) cs fun z =>
      P.g1.value z gIc + inputInteger z item.1 • P.g1.value z item.2 :=
  ((lawful.scalarMulLe cs _ _ base bits).weaken boolean).andThen (fun z value => P.g1.value z gIc + value) stable
    fun _ cs' le encoded _ => (lawful.add cs' _ _ (P.g1.mono le sum) encoded).weaken fun _ _ => trivial

/-- The loop computes the sum of the encoded inputs. -/
theorem gIc_computes {constant : P.G1Var} {items : List (List Variable × P.G1Var)}
    (start : P.g1.Allocated cs.witnessAssignment.length constant)
    (bases : ∀ item ∈ items, P.g1.Allocated cs.witnessAssignment.length item.2)
    (bits : ∀ item ∈ items, ∀ bit ∈ item.1, bit.Witnessed cs.witnessAssignment.length)
    (boolean : ∀ z, condition z → ∀ item ∈ items, BooleanBits item.1 z) :
    Computes P.g1 condition (items.foldlM (addEncodedInput P) constant) cs fun z =>
      items.foldl (fun gIc item => gIc + inputInteger z item.1 • P.g1.value z item.2) (P.g1.value z constant) := by
  apply Computes.foldlM stable ?_ start
  intro item member cs' gIc le sum
  exact addEncodedInput_computes lawful (stable.mono le) sum (P.g1.mono le (bases item member))
    (fun bit inside => (bits item member bit inside).mono le) fun z holds => boolean z holds item member

theorem checkPairing_computes {pvk : PreparedVerifyingKeyVar P} {gIc : P.G1Var} {proof : ProofVar P}
    (key : P.prepared.Allocated cs.witnessAssignment.length pvk)
    (sum : P.g1.Allocated cs.witnessAssignment.length gIc)
    (points : P.proof.Allocated cs.witnessAssignment.length proof) :
    Computes P.boolean condition (checkPairing P pvk gIc proof) cs fun z =>
      decide (e.pairing (P.g1.value z proof.a) (P.g2.value z proof.b) +
        e.pairing (P.g1.value z gIc) (P.g2Prepared.value z pvk.gammaG2NegPc) +
        e.pairing (P.g1.value z proof.c) (P.g2Prepared.value z pvk.deltaG2NegPc) =
          P.gt.value z pvk.alphaG1BetaG2) := by
  obtain ⟨first, gamma, delta, -⟩ := key
  obtain ⟨a, b, c⟩ := points
  unfold checkPairing
  refine ((lawful.prepareG1 cs _ a).weaken fun _ _ => trivial).andThen
    (fun z value => decide (e.pairing value (P.g2.value z proof.b) +
        e.pairing (P.g1.value z gIc) (P.g2Prepared.value z pvk.gammaG2NegPc) +
        e.pairing (P.g1.value z proof.c) (P.g2Prepared.value z pvk.deltaG2NegPc) =
          P.gt.value z pvk.alphaG1BetaG2)) stable fun aPrep cs1 le1 aAllocated stable1 => ?_
  refine ((lawful.prepareG2 cs1 _ (P.g2.mono le1 b)).weaken fun _ _ => trivial).andThen
    (fun z value => decide (e.pairing (P.g1Prepared.value z aPrep) value +
        e.pairing (P.g1.value z gIc) (P.g2Prepared.value z pvk.gammaG2NegPc) +
        e.pairing (P.g1.value z proof.c) (P.g2Prepared.value z pvk.deltaG2NegPc) =
          P.gt.value z pvk.alphaG1BetaG2)) stable1 fun bPrep cs2 le2 bAllocated stable2 => ?_
  refine ((lawful.prepareG1 cs2 _ (P.g1.mono (le1.trans le2) c)).weaken fun _ _ => trivial).andThen
    (fun z value => decide (e.pairing (P.g1Prepared.value z aPrep) (P.g2Prepared.value z bPrep) +
        e.pairing (P.g1.value z gIc) (P.g2Prepared.value z pvk.gammaG2NegPc) +
        e.pairing value (P.g2Prepared.value z pvk.deltaG2NegPc) = P.gt.value z pvk.alphaG1BetaG2))
    stable2 fun cPrep cs3 le3 cAllocated stable3 => ?_
  have le13 : cs.witnessAssignment.length ≤ cs3.witnessAssignment.length := (le1.trans le2).trans le3
  refine ((lawful.prepareG1 cs3 _ (P.g1.mono le13 sum)).weaken fun _ _ => trivial).andThen
    (fun z value => decide (e.pairing (P.g1Prepared.value z aPrep) (P.g2Prepared.value z bPrep) +
        e.pairing value (P.g2Prepared.value z pvk.gammaG2NegPc) +
        e.pairing (P.g1Prepared.value z cPrep) (P.g2Prepared.value z pvk.deltaG2NegPc) =
          P.gt.value z pvk.alphaG1BetaG2)) stable3 fun gIcPrep cs4 le4 gIcAllocated stable4 => ?_
  have le14 := le13.trans le4
  have loop := lawful.millerLoop cs4 [aPrep, gIcPrep, cPrep] [bPrep, pvk.gammaG2NegPc, pvk.deltaG2NegPc]
    (by simpa [Reading.list] using ⟨P.g1Prepared.mono ((le2.trans le3).trans le4) aAllocated, gIcAllocated,
      P.g1Prepared.mono le4 cAllocated⟩)
    (by simpa [Reading.list] using ⟨P.g2Prepared.mono (le3.trans le4) bAllocated, P.g2Prepared.mono le14 gamma,
      P.g2Prepared.mono le14 delta⟩) rfl
  refine ((loop.weaken fun _ _ => trivial).andThen
    (fun z value => decide (value = P.gt.value z pvk.alphaG1BetaG2)) stable4
      fun testExp cs5 le5 looped stable5 => ?_).congr ?_
  · exact ((lawful.finalExponentiation cs5 _ looped).weaken fun _ _ => trivial).andThen
      (fun z value => decide (value = P.gt.value z pvk.alphaG1BetaG2)) stable5 fun test cs6 le6 tested _ =>
        (lawful.isEq cs6 _ _ tested (P.gt.mono ((le14.trans le5).trans le6) first)).weaken fun _ _ => trivial
  · intro z _ _
    simp [Reading.list, add_assoc]

/-- The verdict for the values of a prepared key, with no value for the panic. -/
def preparedVerdict (e : Pairing K G1 G2 GT) (key : PreparedValues G1 G2 GT) (inputs : List ℕ) (proof : Proof G1 G2) :
    Option Bool :=
  match key.gammaAbcG1 with
  | [] => none
  | constant :: bases =>
      if inputs.length = bases.length ∨ inputs.length = bases.length + 1 then
        some (decide (e.pairing proof.a proof.b +
          e.pairing ((inputs.zip bases).foldl (fun gIc item => gIc + item.1 • item.2) constant) key.gammaG2NegPc +
          e.pairing proof.c key.deltaG2NegPc = key.alphaG1BetaG2))
      else none

theorem verifyWithProcessedVk_computes {pvk : PreparedVerifyingKeyVar P} {x : List (List Variable)}
    {proof : ProofVar P} (key : P.prepared.Allocated cs.witnessAssignment.length pvk)
    (points : P.proof.Allocated cs.witnessAssignment.length proof)
    (witnessed : ∀ bits ∈ x, ∀ bit ∈ bits, bit.Witnessed cs.witnessAssignment.length)
    (boolean : ∀ z, condition z → ∀ bits ∈ x, BooleanBits bits z) :
    Computes P.boolean.option condition (orPanic (verifyWithProcessedVk P pvk x proof)) cs fun z =>
      preparedVerdict e (P.prepared.value z pvk) (x.map (inputInteger z)) (P.proof.value z proof) := by
  obtain ⟨alphaBeta, gamma, delta, gammaAbc⟩ := pvk
  cases gammaAbc with
  | nil => exact Computes.pure (R := P.boolean.option) nofun
  | cons constant bases =>
      obtain ⟨-, -, -, points'⟩ := id key
      obtain ⟨start, rest⟩ := List.forall_mem_cons.mp points'
      have verdict (z : Variable → F) :
          preparedVerdict e (P.prepared.value z ⟨alphaBeta, gamma, delta, constant :: bases⟩) (x.map (inputInteger z))
            (P.proof.value z proof) =
          if x.length = bases.length ∨ x.length = bases.length + 1 then
            some (decide (e.pairing (P.g1.value z proof.a) (P.g2.value z proof.b) +
              e.pairing ((x.zip bases).foldl (fun gIc item => gIc + inputInteger z item.1 • P.g1.value z item.2)
                (P.g1.value z constant)) (P.g2Prepared.value z gamma) +
              e.pairing (P.g1.value z proof.c) (P.g2Prepared.value z delta) = P.gt.value z alphaBeta))
          else none := by
        simp [preparedVerdict, PairingVar.prepared, PairingVar.proof, Reading.list, List.zip_map, List.foldl_map]
      rw [verifyWithProcessedVk_cons P _ rfl]
      by_cases lengths : x.length = bases.length ∨ x.length = bases.length + 1
      · have sum := gIc_computes lawful stable start
          (fun item member => rest _ (List.of_mem_zip member).2)
          (fun item member => witnessed _ (List.of_mem_zip member).1)
          (fun z holds item member => boolean z holds _ (List.of_mem_zip member).1)
        have checked := sum.andThen (fun z value => decide (e.pairing (P.g1.value z proof.a) (P.g2.value z proof.b) +
          e.pairing value (P.g2Prepared.value z gamma) +
          e.pairing (P.g1.value z proof.c) (P.g2Prepared.value z delta) = P.gt.value z alphaBeta)) stable
          fun gIc cs' le allocated stable' =>
            checkPairing_computes lawful stable' (P.prepared.mono le key) allocated (P.proof.mono le points)
        simp only [verdict, if_pos lengths]
        exact checked.mapSome stable
      · simp only [verdict, if_neg lengths]
        exact Computes.pure (R := P.boolean.option) (v := none) nofun

end Correctness

section Native

variable {K G1 G2 GT F : Type} [CommRing K] [AddCommGroup G1] [AddCommGroup G2] [AddCommGroup GT]
variable [Module K G1] [Module K G2] [Module K GT] [CommRing F] [DecidableEq F] [DecidableEq GT]
variable {e : Pairing K G1 G2 GT} {P : PairingVar F e}

/-- What the gadget makes of a key, its inputs and a proof: the verdict of the native verifier on the inputs that the
key asks for, also when there is one more, and a panic for every other number. -/
def gadgetVerdict (e : Pairing K G1 G2 GT) (vk : VerifyingKey G1 G2) (inputs : List K) (proof : Proof G1 G2) :
    Option Bool :=
  if inputs.length + 1 = vk.gammaAbcG1.length ∨ inputs.length = vk.gammaAbcG1.length ∧ 0 < inputs.length then
    (verify e vk (inputs.take (vk.gammaAbcG1.length - 1)) proof).toOption
  else none

/-- The native sum over the inputs that are not surplus. -/
theorem foldl_take_zip (inputs : List ℕ) (constant : G1) (bases : List G1) :
    (((inputs.map fun n : ℕ => (n : K)).take bases.length).zip bases).foldl
        (fun gIc (input, base) => gIc + input • base) constant =
      (inputs.zip bases).foldl (fun gIc item => gIc + item.1 • item.2) constant := by
  induction inputs generalizing constant bases with
  | nil => simp
  | cons input rest ih =>
      cases bases with
      | nil => simp
      | cons base bases =>
          simp only [List.map_cons, List.length_cons, List.take_succ_cons, List.zip_cons_cons, List.foldl_cons, ih,
            Nat.cast_smul_eq_nsmul]

theorem preparedVerdict_eq (vk : VerifyingKey G1 G2) (inputs : List ℕ) (proof : Proof G1 G2) :
    preparedVerdict e ⟨e.pairing vk.alphaG1 vk.betaG2, -vk.gammaG2, -vk.deltaG2, vk.gammaAbcG1⟩ inputs proof =
      gadgetVerdict e vk (inputs.map fun n : ℕ => (n : K)) proof := by
  obtain ⟨alphaG1, betaG2, gammaG2, deltaG2, gammaAbcG1⟩ := vk
  cases gammaAbcG1 with
  | nil => simp [preparedVerdict, gadgetVerdict]
  | cons constant bases =>
      have same : (inputs.map fun n : ℕ => (n : K)).length + 1 = (constant :: bases).length ∨
          (inputs.map fun n : ℕ => (n : K)).length = (constant :: bases).length ∧
            0 < (inputs.map fun n : ℕ => (n : K)).length ↔
          inputs.length = bases.length ∨ inputs.length = bases.length + 1 := by
        rw [List.length_map, List.length_cons]
        omega
      rw [preparedVerdict, gadgetVerdict]
      dsimp only
      by_cases lengths : inputs.length = bases.length ∨ inputs.length = bases.length + 1
      · have count : ((inputs.map fun n : ℕ => (n : K)).take bases.length).length + 1 =
            (constant :: bases).length := by
          rw [List.length_take, List.length_map, List.length_cons]
          omega
        have prepared : prepareInputs ⟨alphaG1, betaG2, gammaG2, deltaG2, constant :: bases⟩
            ((inputs.map fun n : ℕ => (n : K)).take bases.length) =
              .ok ((inputs.zip bases).foldl (fun gIc item => gIc + item.1 • item.2) constant) := by
          rw [prepareInputs]
          dsimp only
          rw [if_neg (not_not.mpr count), foldl_take_zip]
        rw [if_pos lengths, if_pos (same.mpr lengths), verify, List.length_cons, Nat.add_sub_cancel, prepared]
        rfl
      · rw [if_neg lengths, if_neg (same.not.mpr lengths)]

/-- The native verifier returns a verdict on the number of inputs that the key asks for. -/
theorem exists_verify_eq_ok (vk : VerifyingKey G1 G2) {inputs : List K}
    (lengths : inputs.length + 1 = vk.gammaAbcG1.length) (proof : Proof G1 G2) :
    ∃ verdict, verify e vk inputs proof = .ok verdict := by
  obtain ⟨alphaG1, betaG2, gammaG2, deltaG2, gammaAbcG1⟩ := vk
  cases gammaAbcG1 with
  | nil => cases lengths
  | cons constant bases =>
      dsimp only at lengths
      rw [verify, prepareInputs]
      dsimp only
      rw [if_neg (not_not.mpr lengths)]
      exact ⟨_, rfl⟩

/-- The gadget has a verdict unless it panics on the number of inputs. -/
theorem gadgetVerdict_isSome (vk : VerifyingKey G1 G2) {inputs : List K}
    (lengths : inputs.length + 1 = vk.gammaAbcG1.length ∨ inputs.length = vk.gammaAbcG1.length ∧ 0 < inputs.length)
    (proof : Proof G1 G2) : (gadgetVerdict e vk inputs proof).isSome := by
  have count : (inputs.take (vk.gammaAbcG1.length - 1)).length + 1 = vk.gammaAbcG1.length := by
    rw [List.length_take]
    omega
  obtain ⟨verdict, returned⟩ := exists_verify_eq_ok (e := e) vk count proof
  rw [gadgetVerdict, if_pos lengths, returned]
  rfl

/-- On the number of inputs that the key asks for, the gadget accepts what the native verifier accepts. -/
theorem gadgetVerdict_eq_true_iff (vk : VerifyingKey G1 G2) {inputs : List K}
    (lengths : inputs.length + 1 = vk.gammaAbcG1.length) (proof : Proof G1 G2) :
    gadgetVerdict e vk inputs proof = some true ↔ verify e vk inputs proof = .ok true := by
  obtain ⟨verdict, returned⟩ := exists_verify_eq_ok (e := e) vk lengths proof
  rw [gadgetVerdict, if_pos (.inl lengths), List.take_of_length_le (by omega), returned]
  exact ⟨fun same => congrArg Except.ok (Option.some.inj same), fun same => congrArg some (Except.ok.inj same)⟩

variable {condition : (Variable → F) → Prop} {cs : ConstraintSystem F}

/-- For a constant key the gadget computes the verdict on the integers of the input bits. -/
theorem verifyGadget_computes (lawful : P.Lawful) (stable : StableBelow cs.witnessAssignment.length condition)
    (vk : VerifyingKey G1 G2) {x : List (List Variable)} {proof : ProofVar P}
    (points : P.proof.Allocated cs.witnessAssignment.length proof)
    (witnessed : ∀ bits ∈ x, ∀ bit ∈ bits, bit.Witnessed cs.witnessAssignment.length)
    (boolean : ∀ z, condition z → ∀ bits ∈ x, BooleanBits bits z) :
    Computes P.boolean.option condition (verifyGadget P (VerifyingKeyVar.newConstant P vk) x proof) cs fun z =>
      gadgetVerdict e vk (x.map fun bits => (inputInteger z bits : K)) (P.proof.value z proof) := by
  have prepared : Computes P.prepared condition (VerifyingKeyVar.prepare P (VerifyingKeyVar.newConstant P vk)) cs _ :=
    prepare_computes lawful stable (lawful.constantG1_allocated _ _) (lawful.constantG2_allocated _ _)
      (lawful.constantG2_allocated _ _) (lawful.constantG2_allocated _ _)
      (List.forall_mem_map.mpr fun _ _ => lawful.constantG1_allocated _ _)
  refine (prepared.andThen (fun z key => preparedVerdict e key (x.map (inputInteger z)) (P.proof.value z proof)) stable
    fun pvk cs' le allocated stable' => verifyWithProcessedVk_computes lawful stable' allocated
      (P.proof.mono le points) (fun bits member bit inside => (witnessed bits member bit inside).mono le)
        boolean).congr fun z one _ => ?_
  have constants : (vk.gammaAbcG1.map P.newConstantG1).map (P.g1.value z) = vk.gammaAbcG1 := by
    rw [List.map_map]
    exact List.map_id'' (fun p => lawful.constantG1_value z p one) _
  simp only [VerifyingKeyVar.newConstant, Reading.list, lawful.constantG1_value z _ one,
    lawful.constantG2_value z _ one, constants]
  rw [preparedVerdict_eq, List.map_map]
  rfl

end Native

end Pvugc.Circuit
