import Pvugc.Adaptor.Absorption
import Pvugc.Adaptor.AdaptorVe

namespace Pvugc.Adaptor
open Pvugc.Encoding Pvugc.OneSided

def preimageDomain : List UInt8 := asBytes "PVUGC/PREIMAGE"

section Code

variable {F : Type} [Field F] (sponge : PoseidonSponge F)

/-- The state from which `arm` and `decap` squeeze the statement hash. -/
def statementState (passphrase ctx : List UInt8) : sponge.State :=
  absorbAll sponge [preimageDomain, passphrase, ctx]

/-- The circuit of a statement hash; the context is a constant of the circuit. -/
structure PreimageCircuit (F : Type) where
  expectedHash : Option F
  passphrase : Option (List UInt8)
  ctx : List UInt8

/-- The state from which the circuit squeezes its hash. -/
def PreimageCircuit.spongeState (circuit : PreimageCircuit F) (passVars : List UInt8) : sponge.State :=
  absorbAllVar sponge [preimageDomain, passVars, circuit.ctx]

variable [DecidableEq F] (squeezeFieldElement : sponge.State → F)

/-- `generate_constraints` tells whether its constraint holds; `none` is a missing assignment. -/
def PreimageCircuit.generateConstraints (circuit : PreimageCircuit F) : Option Bool := do
  let hashVar ← circuit.expectedHash
  let passVars ← circuit.passphrase
  return decide (hashVar = squeezeFieldElement (circuit.spongeState sponge passVars))

/-- The two gates of `decap` before the decapsulation: the hash of the package, and the circuit of the proof. -/
def decapGate (hPkg : F) (passphrase ctx : List UInt8) : Option Bool :=
  if hPkg ≠ squeezeFieldElement (statementState sponge passphrase ctx) then some false
  else PreimageCircuit.generateConstraints sponge squeezeFieldElement
    { expectedHash := some hPkg, passphrase := some passphrase, ctx := ctx }

end Code

/-- The circuit absorbs what the native code absorbs. -/
theorem PreimageCircuit.spongeState_eq {F : Type} [Field F] (sponge : PoseidonSponge F)
    (circuit : PreimageCircuit F) (passphrase : List UInt8) :
    circuit.spongeState sponge passphrase = statementState sponge passphrase circuit.ctx :=
  absorbAllVar_eq sponge _

/-- The gates pass exactly the pairs with the hash of the package. -/
theorem decapGate_eq {F : Type} [Field F] [DecidableEq F] (sponge : PoseidonSponge F)
    (squeezeFieldElement : sponge.State → F) (hPkg : F) (passphrase ctx : List UInt8) :
    decapGate sponge squeezeFieldElement hPkg passphrase ctx =
      some (decide (hPkg = squeezeFieldElement (statementState sponge passphrase ctx))) := by
  rw [decapGate]
  split
  case isTrue different => rw [decide_eq_false different]
  case isFalse =>
    rw [PreimageCircuit.generateConstraints, Option.bind_eq_bind, Option.bind_some, Option.bind_eq_bind,
      Option.bind_some, PreimageCircuit.spongeState_eq]
    rfl

section Sequence

/-- The absorbed scalars determine the words and are determined by them. -/
theorem absorbedFr_eq_iff (words words' : List ℕ) (fits : ∀ word ∈ words, word < 256 ^ 8)
    (fits' : ∀ word ∈ words', word < 256 ^ 8) :
    words.map (Nat.cast : ℕ → Fr) = words'.map Nat.cast ↔ words = words' := by
  have recovered (words : List ℕ) (fits : ∀ word ∈ words, word < 256 ^ 8) :
      (words.map (Nat.cast : ℕ → Fr)).map ZMod.val = words := by
    rw [List.map_map]
    conv_rhs => rw [← List.map_id words]
    apply List.map_congr_left
    intro word member
    have large : 256 ^ 8 ≤ frPrime := by decide
    exact ZMod.val_cast_of_lt ((fits word member).trans_le large)
  constructor
  · intro same
    rw [← recovered words fits, same, recovered words' fits']
  · intro same
    rw [same]

/-- Two pairs absorb the same sequence exactly when their words agree, wherever the boundary lies. -/
theorem statementState_eq_iff (passphrase ctx passphrase' ctx' : List UInt8) :
    statementState (recorder Fr) passphrase' ctx' = statementState (recorder Fr) passphrase ctx ↔
      packWords 8 passphrase' ++ packWords 8 ctx' = packWords 8 passphrase ++ packWords 8 ctx := by
  have small (first second : List UInt8) (word : ℕ) (member : word ∈ packWords 8 first ++ packWords 8 second) :
      word < 256 ^ 8 := by
    rcases List.mem_append.mp member with inFirst | inSecond
    · exact packWords_lt inFirst
    · exact packWords_lt inSecond
  rw [statementState, statementState, absorbAll_recorder, absorbAll_recorder,
    ← absorbedFr_eq_iff _ _ (small _ _) (small _ _)]
  simp only [absorbed, List.flatMap_cons, List.flatMap_nil, List.append_nil, List.append_right_inj, absorbedFr_eq,
    List.map_append]

end Sequence

section Binding

/-- One word whose last byte is not zero. -/
def OneFullWord (bytes : List UInt8) : Prop := bytes.length = 8 ∧ bytes.getLast? ≠ some 0

theorem wordCount_eq_length (bytes : List UInt8) : wordCount 8 bytes = (packWords 8 bytes).length := by
  rw [packWords, List.length_map, List.length_range]

/-- A full string of several words is its first word and a full string of one word less. -/
theorem packWords_split {bytes : List UInt8} {n : ℕ} (full : bytes.length = (n + 2) * 8) :
    packWords 8 bytes = packWords 8 (bytes.take 8) ++ packWords 8 (bytes.drop 8) := by
  have head : (bytes.take 8).length = (0 + 1) * 8 := by
    rw [List.length_take]
    omega
  have tail : bytes.drop 8 ≠ [] := by
    rw [ne_eq, List.drop_eq_nil_iff]
    omega
  rw [← packWords_append (by decide) head tail, List.take_append_drop]

/-- The words after the first of a passphrase can move to its context. -/
theorem packWords_shift_right {passphrase ctx : List UInt8} {n : ℕ} (full : passphrase.length = (n + 2) * 8)
    (nonempty : ctx ≠ []) :
    packWords 8 (passphrase.take 8) ++ packWords 8 (passphrase.drop 8 ++ ctx) =
      packWords 8 passphrase ++ packWords 8 ctx := by
  have rest : (passphrase.drop 8).length = (n + 1) * 8 := by
    rw [List.length_drop]
    omega
  rw [packWords_append (by decide) rest nonempty, packWords_split full, List.append_assoc]

/-- The first of several words of a context can move to a passphrase of one word. -/
theorem packWords_shift_left {passphrase ctx : List UInt8} {n : ℕ} (one : passphrase.length = (0 + 1) * 8)
    (full : ctx.length = (n + 2) * 8) :
    packWords 8 (passphrase ++ ctx.take 8) ++ packWords 8 (ctx.drop 8) =
      packWords 8 passphrase ++ packWords 8 ctx := by
  have head : ctx.take 8 ≠ [] := by
    apply List.ne_nil_of_length_pos
    rw [List.length_take]
    omega
  rw [packWords_append (by decide) one head, packWords_split full, List.append_assoc]

/-- A full string that does not have several words has one. -/
theorem wordCount_eq_one {bytes : List UInt8} (full : bytes.length = wordCount 8 bytes * 8)
    (single : ∀ n, bytes.length ≠ (n + 2) * 8) : wordCount 8 bytes = 1 := by
  have least : 1 ≤ wordCount 8 bytes := Nat.le_max_left _ _
  by_contra several
  obtain ⟨n, count⟩ := Nat.exists_eq_add_of_le (show 2 ≤ wordCount 8 bytes by omega)
  rw [count, Nat.add_comm] at full
  exact single n full

theorem OneFullWord.wordCount {bytes : List UInt8} (word : OneFullWord bytes) : wordCount 8 bytes = 1 := by
  rw [Encoding.wordCount, word.1]
  rfl

theorem OneFullWord.determines {bytes bytes' : List UInt8} (word : OneFullWord bytes)
    (same : packWords 8 bytes' = packWords 8 bytes) : bytes' = bytes := by
  apply (packWords_determines_iff (by decide) (by decide) bytes).mpr _ bytes' same
  rw [word.wordCount]
  exact word

/-- A pair is the only one with its sequence, and the circuit absorbs that sequence too, exactly when both of
its strings are one full word. -/
theorem statement_binding_iff (passphrase ctx : List UInt8) :
    ((∀ passphrase' ctx',
        statementState (recorder Fr) passphrase' ctx' = statementState (recorder Fr) passphrase ctx →
          passphrase' = passphrase ∧ ctx' = ctx) ∧
      ∀ expectedHash, PreimageCircuit.spongeState (recorder Fr)
          { expectedHash := expectedHash, passphrase := some passphrase, ctx := ctx } passphrase =
        statementState (recorder Fr) passphrase ctx) ↔
      OneFullWord passphrase ∧ OneFullWord ctx := by
  have eight : 0 < 8 := by decide
  have several : 1 < 8 := by decide
  simp only [PreimageCircuit.spongeState_eq, implies_true, and_true]
  constructor
  · intro binding
    obtain ⟨passFull, passLast⟩ := (packWords_determines_iff eight several passphrase).mp
      fun bytes same => (binding bytes ctx (by rw [statementState_eq_iff, same])).1
    obtain ⟨ctxFull, ctxLast⟩ := (packWords_determines_iff eight several ctx).mp
      fun bytes same => (binding passphrase bytes (by rw [statementState_eq_iff, same])).2
    have nonempty : ctx ≠ [] := by
      intro empty
      rw [empty] at ctxFull
      cases ctxFull
    -- A second word can move to the other side of the boundary.
    have passWord : wordCount 8 passphrase = 1 := by
      apply wordCount_eq_one passFull
      intro n length
      have sequence := (statementState_eq_iff _ _ _ _).mpr (packWords_shift_right length nonempty)
      have shifted := (binding _ _ sequence).1
      have lengths := congrArg List.length shifted
      rw [List.length_take] at lengths
      omega
    rw [passWord] at passFull
    have ctxWord : wordCount 8 ctx = 1 := by
      apply wordCount_eq_one ctxFull
      intro n length
      have sequence := (statementState_eq_iff _ _ _ _).mpr (packWords_shift_left passFull length)
      have shifted := (binding _ _ sequence).2
      have lengths := congrArg List.length shifted
      rw [List.length_drop] at lengths
      omega
    rw [ctxWord] at ctxFull
    exact ⟨⟨passFull, passLast⟩, ctxFull, ctxLast⟩
  · intro words passphrase' ctx' sequence
    obtain ⟨pass, context⟩ := words
    have same := (statementState_eq_iff _ _ _ _).mp sequence
    have counts := congrArg List.length same
    rw [List.length_append, List.length_append, ← wordCount_eq_length, ← wordCount_eq_length,
      ← wordCount_eq_length, ← wordCount_eq_length, pass.wordCount, context.wordCount] at counts
    have least : 1 ≤ wordCount 8 passphrase' := Nat.le_max_left _ _
    have least' : 1 ≤ wordCount 8 ctx' := Nat.le_max_left _ _
    obtain ⟨passWords, ctxWords⟩ := List.append_inj same (by
      rw [← wordCount_eq_length, ← wordCount_eq_length, pass.wordCount]
      omega)
    exact ⟨pass.determines passWords, context.determines ctxWords⟩

/-- The boundary between a passphrase and its context is not absorbed. -/
theorem statement_binding_shifted :
    ¬ ∀ passphrase ctx passphrase' ctx' : List UInt8,
      statementState (recorder Fr) passphrase' ctx' = statementState (recorder Fr) passphrase ctx →
        passphrase' = passphrase ∧ ctx' = ctx := by
  intro binding
  have same := binding (asBytes "12345678ABCDEFGH") (asBytes "X") (asBytes "12345678") (asBytes "ABCDEFGHX")
    (by rw [statementState_eq_iff]; decide)
  exact absurd same.1 (by decide)

end Binding

end Pvugc.Adaptor
