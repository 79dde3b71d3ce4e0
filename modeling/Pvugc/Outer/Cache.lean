import Pvugc.Circuit.RecursionCycle
import Pvugc.Outer.Setup

namespace Pvugc.Outer
open Pvugc.Algebra Pvugc.Groth16 Pvugc.OneSided Pvugc.Circuit

/-- The recursion cycles of the crate. -/
inductive CrateCycle
  | bls12Bw6
  | mnt4Mnt6
  deriving DecidableEq

def CrateCycle.cycle : CrateCycle → RecursionCycle
  | .bls12Bw6 => bls12Bw6Cycle
  | .mnt4Mnt6 => mnt4Mnt6Cycle

/-- The sanitized cycle name in the name of the cache file. -/
def safeName (name : String) : List Char :=
  (name.toList.map fun c => if c = '/' then '_' else c).map fun c => if c = ' ' then '_' else c

def cachePath (name : String) : List Char :=
  "outer_lean_setup_pk_vk_".toList ++ safeName name ++ ".bin".toList

/-- The cycles of the crate have different cache files. -/
theorem cachePath_injective : Function.Injective fun i : CrateCycle => cachePath i.cycle.name := by
  intro i j same
  cases i <;> cases j <;> first | rfl | exact absurd same (by decide)

/-- The uncompressed serialization of a value and its unchecked deserialization. -/
structure Codec (Bytes A : Type) where
  serialize : A → Bytes
  deserialize : Bytes → Option A
  roundTrip : ∀ a, deserialize (serialize a) = some a

/-- The contents of the files of the working directory. -/
abbrev FileSystem (Bytes : Type) := List Char → Option Bytes

/-- The arguments of a setup call: the samples are the synthesized assignments of the outer circuit of
`vk_inner`. -/
structure SetupCall (F G1 G2 : Type) [Field F] where
  pkOuter : ProvingKey G1 G2
  matrices : ConstraintMatrices F
  samples : List (Assignment matrices)

section Code

variable {Bytes F G1 G2 GT : Type} [Field F] [DecidableEq F] [AddCommGroup G1] [Module F G1] [DecidableEq G1]
variable [AddCommGroup G2] [Module F G2] [DecidableEq G2] [AddCommGroup GT] [Module F GT]
variable (e : Pairing F G1 G2 GT) (backend : PolynomialBackend F)
variable (codec : Codec Bytes (LeanProvingKey G1 G2 × List GT)) (path : List Char)

/-- The uncached computation on the arguments of a call. -/
def SetupCall.uncached (call : SetupCall F G1 G2) : Option (PvugcVk G2 GT × LeanProvingKey G1 G2) :=
  buildPvugcSetupFromPk e backend call.pkOuter call.samples

/-- This is `build_pvugc_setup_from_pk_for_with_samples`; `none` is a panic. -/
def buildPvugcSetupFromPkForWithSamples (files : FileSystem Bytes) (call : SetupCall F G1 G2) :
    Option (PvugcVk G2 GT × LeanProvingKey G1 G2) × FileSystem Bytes :=
  if call.samples.length ≠ call.matrices.numInstanceVariables then (none, files)
  else
    match files path with
    | some content =>
      match codec.deserialize content with
      | none => (none, files)
      | some (leanPk, tConstGt) => (some (PvugcVk.ofProvingKey call.pkOuter tConstGt, leanPk), files)
    | none =>
      match computeSetup e backend call.pkOuter call.samples with
      | none => (none, files)
      | some (leanPk, tConstGt) =>
        (some (PvugcVk.ofProvingKey call.pkOuter tConstGt, leanPk),
          Function.update files path (some (codec.serialize (leanPk, tConstGt))))

/-- An uncached computation that returns has computed the key and the baked points of its arguments. -/
theorem SetupCall.uncached_eq_some {call : SetupCall F G1 G2} {pvugcVk : PvugcVk G2 GT}
    {leanPk : LeanProvingKey G1 G2} (built : call.uncached e backend = some (pvugcVk, leanPk)) :
    call.samples.length = call.matrices.numInstanceVariables ∧
      ∃ tConstGt, computeSetup e backend call.pkOuter call.samples = some (leanPk, tConstGt) ∧
        pvugcVk = PvugcVk.ofProvingKey call.pkOuter tConstGt := by
  unfold SetupCall.uncached buildPvugcSetupFromPk at built
  split at built
  case isTrue => cases built
  case isFalse same =>
    obtain ⟨⟨key, points⟩, computed, pair⟩ := Option.map_eq_some_iff.mp built
    obtain ⟨rfl, rfl⟩ := Prod.mk.inj pair
    exact ⟨not_not.mp same, points, computed, rfl⟩

/-- The uncached computation keeps the verifying key it is given and returns an audited key. -/
theorem SetupCall.uncached_vk {call : SetupCall F G1 G2} {pvugcVk : PvugcVk G2 GT}
    {leanPk : LeanProvingKey G1 G2} (built : call.uncached e backend = some (pvugcVk, leanPk)) :
    leanPk.vk = call.pkOuter.vk ∧ auditLeanProvingKey leanPk = true := by
  obtain ⟨-, tConstGt, computed, -⟩ := call.uncached_eq_some e backend built
  unfold computeSetup at computed
  split at computed
  case h_1 => cases computed
  case h_2 key located =>
    obtain ⟨points, -, pair⟩ := Option.map_eq_some_iff.mp computed
    obtain ⟨rfl, rfl⟩ := Prod.mk.inj pair
    obtain ⟨hQueryWit, -, rfl, passed⟩ := buildLeanProvingKey_eq_some located
    exact ⟨rfl, passed⟩

/-- Without a file a call that panics in the uncached computation panics and writes nothing. -/
theorem noFile_eq_none {files : FileSystem Bytes} (absent : files path = none) {call : SetupCall F G1 G2}
    (panics : call.uncached e backend = none) :
    buildPvugcSetupFromPkForWithSamples e backend codec path files call = (none, files) := by
  unfold SetupCall.uncached buildPvugcSetupFromPk at panics
  unfold buildPvugcSetupFromPkForWithSamples
  rw [absent]
  split at panics
  case isTrue different => rw [if_pos different]
  case isFalse same => rw [if_neg same, Option.map_eq_none_iff.mp panics]

/-- Without a file a call returns the uncached result and writes it. -/
theorem noFile_eq_some {files : FileSystem Bytes} (absent : files path = none) {call : SetupCall F G1 G2}
    {pvugcVk : PvugcVk G2 GT} {leanPk : LeanProvingKey G1 G2}
    (built : call.uncached e backend = some (pvugcVk, leanPk)) :
    ∃ tConstGt, pvugcVk = PvugcVk.ofProvingKey call.pkOuter tConstGt ∧
      buildPvugcSetupFromPkForWithSamples e backend codec path files call =
        (some (pvugcVk, leanPk),
          Function.update files path (some (codec.serialize (leanPk, tConstGt)))) := by
  obtain ⟨count, tConstGt, computed, rfl⟩ := call.uncached_eq_some e backend built
  refine ⟨tConstGt, rfl, ?_⟩
  rw [buildPvugcSetupFromPkForWithSamples, if_neg (not_not.mpr count), absent, computed]

/-- With a file a call returns what the file holds under its own key. -/
theorem file_eq {files : FileSystem Bytes} {leanPk : LeanProvingKey G1 G2} {tConstGt : List GT}
    (present : files path = some (codec.serialize (leanPk, tConstGt))) (call : SetupCall F G1 G2) :
    buildPvugcSetupFromPkForWithSamples e backend codec path files call =
      (if call.samples.length ≠ call.matrices.numInstanceVariables then none
        else some (PvugcVk.ofProvingKey call.pkOuter tConstGt, leanPk), files) := by
  unfold buildPvugcSetupFromPkForWithSamples
  split
  case isTrue => rfl
  case isFalse =>
    rw [present]
    dsimp only
    rw [codec.roundTrip]

end Code

section SameSetup

variable {F G1 G2 GT : Type} [Field F]

/-- Samples that the gap solver accepts: satisfied, one more than the public inputs and affinely
independent. -/
structure AdmissibleSamples {m : ConstraintMatrices F} (samples : List (Assignment m)) [DecidableEq F] :
    Prop where
  count : samples.length = m.numInstanceVariables
  satisfied : ∀ z ∈ samples, z.Satisfies
  independent : AffineIndependent F fun i : Fin samples.length => instancePoint (samples.get i)

variable [DecidableEq F] [AddCommGroup G1] [Module F G1] [AddCommGroup G2] [Module F G2]

/-- The outer key was generated for the outer-shaped system. -/
def GeneratedFor (backend : PolynomialBackend F) (pkOuter : ProvingKey G1 G2) (m : ConstraintMatrices F) :
    Prop :=
  ∃ (waste : Trapdoor F) (domain : EvaluationDomain F) (L : ℕ) (g1 : G1) (g2 : G2),
    pkOuter = waste.provingKey domain m g1 g2 ∧ backend.newDomain m.qapDomainSize = some domain ∧
      domain.size = 2 ^ L ∧ waste.tau ^ domain.size ≠ 1 ∧ (2 : F) ≠ 0 ∧ m.numVars ≤ 2 ^ 32 ∧
      Nonempty (OuterShape m)

/-- Two calls with the same outer key and inner verifying key; their samples may differ where the
outer key was generated and both sample lists are admissible. -/
inductive SameSetup (backend : PolynomialBackend F) : SetupCall F G1 G2 → SetupCall F G1 G2 → Prop
  | same (call : SetupCall F G1 G2) : SameSetup backend call call
  | samples {pkOuter : ProvingKey G1 G2} {m : ConstraintMatrices F} {first second : List (Assignment m)}
      (generated : GeneratedFor backend pkOuter m) (firstOk : AdmissibleSamples first)
      (secondOk : AdmissibleSamples second) :
      SameSetup backend ⟨pkOuter, m, first⟩ ⟨pkOuter, m, second⟩

variable {backend : PolynomialBackend F}

theorem SameSetup.pkOuter_eq {first second : SetupCall F G1 G2} (same : SameSetup backend first second) :
    first.pkOuter = second.pkOuter := by
  cases same <;> rfl

/-- Calls of the same setup have the same uncached result. -/
theorem SameSetup.uncached_eq [DecidableEq G1] [DecidableEq G2] [AddCommGroup GT] [Module F GT]
    (e : Pairing F G1 G2 GT) {first second : SetupCall F G1 G2} (same : SameSetup backend first second) :
    first.uncached e backend = second.uncached e backend := by
  cases same with
  | same => rfl
  | samples generated firstOk secondOk =>
      obtain ⟨waste, domain, L, g1, g2, key, created, size, outside, two, fits, ⟨shape⟩⟩ := generated
      subst key
      have left := buildPvugcSetupFromPk_eq created size outside two fits shape e g1 g2 firstOk.count
        firstOk.satisfied firstOk.independent
      have right := buildPvugcSetupFromPk_eq created size outside two fits shape e g1 g2 secondOk.count
        secondOk.satisfied secondOk.independent
      exact left.trans right.symm

end SameSetup

section Runs

variable {Bytes : Type} {F G1 G2 GT : CrateCycle → Type}
variable [∀ i, Field (F i)] [∀ i, DecidableEq (F i)] [∀ i, AddCommGroup (G1 i)] [∀ i, Module (F i) (G1 i)]
variable [∀ i, DecidableEq (G1 i)] [∀ i, AddCommGroup (G2 i)] [∀ i, Module (F i) (G2 i)]
variable [∀ i, DecidableEq (G2 i)] [∀ i, AddCommGroup (GT i)] [∀ i, Module (F i) (GT i)]
variable (e : ∀ i, Pairing (F i) (G1 i) (G2 i) (GT i)) (backend : ∀ i, PolynomialBackend (F i))
variable (codec : ∀ i, Codec Bytes (LeanProvingKey (G1 i) (G2 i) × List (GT i)))

/-- The file system, and for each cycle the call that created its cache file. -/
structure SetupState (Bytes : Type) (F G1 G2 : CrateCycle → Type) [∀ i, Field (F i)] where
  files : FileSystem Bytes
  writer : ∀ i, Option (SetupCall (F i) (G1 i) (G2 i))

/-- A call on one of the cycles. -/
abbrev CycleCall (F G1 G2 : CrateCycle → Type) [∀ i, Field (F i)] := Σ i, SetupCall (F i) (G1 i) (G2 i)

/-- What one call returns. -/
def returned (state : SetupState Bytes F G1 G2) (call : CycleCall F G1 G2) :
    Option (PvugcVk (G2 call.1) (GT call.1) × LeanProvingKey (G1 call.1) (G2 call.1)) :=
  (buildPvugcSetupFromPkForWithSamples (e call.1) (backend call.1) (codec call.1)
    (cachePath call.1.cycle.name) state.files call.2).1

/-- The state after one call. -/
def afterCall (state : SetupState Bytes F G1 G2) (call : CycleCall F G1 G2) : SetupState Bytes F G1 G2 where
  files := (buildPvugcSetupFromPkForWithSamples (e call.1) (backend call.1) (codec call.1)
    (cachePath call.1.cycle.name) state.files call.2).2
  writer :=
    if (state.files (cachePath call.1.cycle.name)).isNone ∧ (returned e backend codec state call).isSome then
      Function.update state.writer call.1 (some call.2)
    else state.writer

/-- Every call of a run returns what the uncached computation on its own arguments returns. -/
def Transparent : SetupState Bytes F G1 G2 → List (CycleCall F G1 G2) → Prop
  | _, [] => True
  | state, call :: rest =>
    returned e backend codec state call = call.2.uncached (e call.1) (backend call.1) ∧
      Transparent (afterCall e backend codec state call) rest

/-- Every call of a run that comes to look up a cache file and finds it repeats the setup of the call that created
it. -/
def Repeating : SetupState Bytes F G1 G2 → List (CycleCall F G1 G2) → Prop
  | _, [] => True
  | state, call :: rest =>
    (call.2.samples.length = call.2.matrices.numInstanceVariables →
      ∀ writer ∈ state.writer call.1, SameSetup (backend call.1) writer call.2) ∧
      Repeating (afterCall e backend codec state call) rest

/-- The cache file of every cycle holds what its creator computed. -/
def CacheInvariant (state : SetupState Bytes F G1 G2) : Prop :=
  ∀ i, (state.writer i = none ∧ state.files (cachePath i.cycle.name) = none) ∨
    ∃ writer pvugcVk leanPk tConstGt, state.writer i = some writer ∧
      writer.uncached (e i) (backend i) = some (pvugcVk, leanPk) ∧
      pvugcVk = PvugcVk.ofProvingKey writer.pkOuter tConstGt ∧
      state.files (cachePath i.cycle.name) = some ((codec i).serialize (leanPk, tConstGt))

variable {e backend codec} {state : SetupState Bytes F G1 G2}

/-- A call that repeats the setup of the file's creator returns its own uncached result. -/
theorem returned_eq (invariant : CacheInvariant e backend codec state) {call : CycleCall F G1 G2}
    (repeats : call.2.samples.length = call.2.matrices.numInstanceVariables →
      ∀ writer ∈ state.writer call.1, SameSetup (backend call.1) writer call.2) :
    returned e backend codec state call = call.2.uncached (e call.1) (backend call.1) := by
  unfold returned
  by_cases different : call.2.samples.length ≠ call.2.matrices.numInstanceVariables
  · rw [buildPvugcSetupFromPkForWithSamples, SetupCall.uncached, buildPvugcSetupFromPk, if_pos different,
      if_pos different]
  have count := not_not.mp different
  rcases invariant call.1 with ⟨-, absent⟩ | ⟨writer, pvugcVk, leanPk, tConstGt, wrote, built, rfl, present⟩
  · cases uncached : call.2.uncached (e call.1) (backend call.1) with
    | none => rw [noFile_eq_none _ _ _ _ absent uncached]
    | some result =>
        obtain ⟨tConstGt, -, equal⟩ := noFile_eq_some (e call.1) (backend call.1) (codec call.1) _ absent uncached
        rw [equal]
  · have same := repeats count writer wrote
    rw [same.uncached_eq, same.pkOuter_eq] at built
    rw [file_eq _ _ _ _ present, if_neg (not_not.mpr count), built]

/-- Every call keeps the invariant of the cache files, whatever its arguments. -/
theorem afterCall_cacheInvariant (invariant : CacheInvariant e backend codec state)
    (call : CycleCall F G1 G2) : CacheInvariant e backend codec (afterCall e backend codec state call) := by
  have unchanged (files : (buildPvugcSetupFromPkForWithSamples (e call.1) (backend call.1) (codec call.1)
        (cachePath call.1.cycle.name) state.files call.2).2 = state.files)
      (kept : ¬ ((state.files (cachePath call.1.cycle.name)).isNone ∧
        (returned e backend codec state call).isSome)) : afterCall e backend codec state call = state := by
    rw [afterCall, files, if_neg kept]
  rcases invariant call.1 with ⟨-, absent⟩ | ⟨writer, _, _, _, -, -, -, present⟩
  · cases uncached : call.2.uncached (e call.1) (backend call.1) with
    | none =>
        have built := noFile_eq_none (e call.1) (backend call.1) (codec call.1) _ absent uncached
        rw [unchanged (by rw [built]) (by rw [returned, built]; simp)]
        exact invariant
    | some result =>
        obtain ⟨tConstGt, vk, built⟩ :=
          noFile_eq_some (e call.1) (backend call.1) (codec call.1) _ absent uncached
        have created : (state.files (cachePath call.1.cycle.name)).isNone ∧
            (returned e backend codec state call).isSome := by
          rw [returned, built, absent]
          exact ⟨rfl, rfl⟩
        intro i
        rw [afterCall, built, if_pos created]
        rcases eq_or_ne i call.1 with rfl | other
        · refine Or.inr ⟨call.2, _, _, tConstGt, ?_, uncached, vk, ?_⟩
          · exact Function.update_self ..
          · exact Function.update_self ..
        · have path := cachePath_injective.ne other
          dsimp only
          rw [Function.update_of_ne other, Function.update_of_ne path]
          exact invariant i
  · have built := file_eq (e call.1) (backend call.1) (codec call.1) _ present call.2
    rw [unchanged (by rw [built]) (by rw [present]; simp)]
    exact invariant

/-- In every run in which no call finds the file of another setup, every call returns its own uncached
result. -/
theorem transparent_of_repeating (invariant : CacheInvariant e backend codec state)
    {calls : List (CycleCall F G1 G2)} (repeating : Repeating e backend codec state calls) :
    Transparent e backend codec state calls := by
  induction calls generalizing state with
  | nil => trivial
  | cons call rest inductionHypothesis =>
      exact ⟨returned_eq invariant repeating.1,
        inductionHypothesis (afterCall_cacheInvariant invariant call) repeating.2⟩

/-- From a file system without cache files, every run whose calls repeat the setup that their cache file
was created for is transparent. -/
theorem setupCache_transparent {files : FileSystem Bytes}
    (empty : ∀ i : CrateCycle, files (cachePath i.cycle.name) = none) {calls : List (CycleCall F G1 G2)}
    (repeating : Repeating e backend codec ⟨files, fun _ => none⟩ calls) :
    Transparent e backend codec ⟨files, fun _ => none⟩ calls :=
  transparent_of_repeating (fun i => Or.inl ⟨rfl, empty i⟩) repeating

variable (e backend codec)

/-- The creator of a cache file that did not exist before a call is that call. -/
theorem afterCall_writer (i : CrateCycle) (call writer : SetupCall (F i) (G1 i) (G2 i))
    (fresh : state.writer i = none)
    (wrote : (afterCall e backend codec state ⟨i, call⟩).writer i = some writer) : writer = call := by
  unfold afterCall at wrote
  dsimp only at wrote
  split at wrote
  case isTrue =>
    rw [Function.update_self] at wrote
    exact (Option.some.inj wrote).symm
  case isFalse =>
    rw [fresh] at wrote
    cases wrote

/-- Two calls of a cycle in a row are transparent only if their outer keys have one verifying key. -/
theorem transparent_vk (i : CrateCycle) (absent : state.files (cachePath i.cycle.name) = none)
    {first second : SetupCall (F i) (G1 i) (G2 i)} {result : PvugcVk (G2 i) (GT i) × LeanProvingKey (G1 i) (G2 i)}
    (built : first.uncached (e i) (backend i) = some result)
    (count : second.samples.length = second.matrices.numInstanceVariables)
    (transparent : Transparent e backend codec state [⟨i, first⟩, ⟨i, second⟩]) :
    second.pkOuter.vk = first.pkOuter.vk := by
  obtain ⟨tConstGt, -, created⟩ := noFile_eq_some (e i) (backend i) (codec i) _ absent built
  have present : (afterCall e backend codec state ⟨i, first⟩).files (cachePath i.cycle.name) =
      some ((codec i).serialize (result.2, tConstGt)) := by
    rw [afterCall, created]
    exact Function.update_self ..
  have stale := transparent.2.1
  rw [returned, file_eq _ _ _ _ present, if_neg (not_not.mpr count)] at stale
  have own := second.uncached_vk (e i) (backend i) stale.symm
  have written := first.uncached_vk (e i) (backend i) built
  exact own.1.symm.trans written.1

end Runs

section Sample

/-- Files that hold the values themselves. -/
def plainCodec (A : Type) : Codec A A := ⟨id, some, fun _ => rfl⟩

abbrev sampleCall (pkOuter : ProvingKey (ZMod 13) (ZMod 13)) (first second : ZMod 13) :
    CycleCall (fun _ => ZMod 13) (fun _ => ZMod 13) (fun _ => ZMod 13) :=
  ⟨.mnt4Mnt6, pkOuter, boundSquare, [boundSquareOf first, boundSquareOf second]⟩

theorem boundSquare_generatedFor : GeneratedFor smallBackend boundSquarePk boundSquare :=
  ⟨smallWaste, fourthRoots, 2, 1, 1, rfl, rfl, rfl, by decide, by decide, by decide, ⟨boundSquareShape⟩⟩

theorem boundSquare_admissible {first second : ZMod 13} (different : first ≠ second) :
    AdmissibleSamples [boundSquareOf first, boundSquareOf second] := by
  have all : ∀ x : ZMod 13, (boundSquareOf x).Satisfies := by decide
  refine ⟨rfl, ?_, ?_⟩
  · intro z member
    simp only [List.mem_cons, List.not_mem_nil, or_false] at member
    rcases member with rfl | rfl
    · exact all first
    · exact all second
  · have points : (fun i : Fin [boundSquareOf first, boundSquareOf second].length =>
        instancePoint ([boundSquareOf first, boundSquareOf second].get i)) =
          ![instancePoint (boundSquareOf first), instancePoint (boundSquareOf second)] := by
      funext i
      match i with
      | 0 => rfl
      | 1 => rfl
    rw [points]
    apply affineIndependent_of_ne
    intro same
    exact different (congrFun same ⟨0, Nat.one_pos⟩)

/-- A second call may use other samples. -/
theorem setupCache_transparent_boundSquare :
    Transparent (fun _ => mulPairing (ZMod 13) 13) (fun _ => smallBackend)
      (fun _ => plainCodec (LeanProvingKey (ZMod 13) (ZMod 13) × List (ZMod 13)))
      ⟨fun _ => none, fun _ => none⟩ [sampleCall boundSquarePk 0 1, sampleCall boundSquarePk 5 2] := by
  apply setupCache_transparent (fun _ => rfl)
  refine ⟨fun _ _ none => (Option.not_mem_none _ none).elim, ?_, trivial⟩
  intro _ writer wrote
  have first := afterCall_writer (fun _ => mulPairing (ZMod 13) 13) (fun _ => smallBackend) _ .mnt4Mnt6
    (sampleCall boundSquarePk 0 1).2 writer rfl wrote
  rw [first]
  exact .samples boundSquare_generatedFor (boundSquare_admissible (by decide))
    (boundSquare_admissible (by decide))

/-- The key of another trapdoor for the same system. -/
abbrev otherPk : ProvingKey (ZMod 13) (ZMod 13) :=
  Trapdoor.provingKey { smallWaste with alpha := 7 } fourthRoots boundSquare 1 1

/-- A call with another outer key returns the lean key of the first call. -/
theorem setupCache_stale : ¬ Transparent (fun _ => mulPairing (ZMod 13) 13) (fun _ => smallBackend)
    (fun _ => plainCodec (LeanProvingKey (ZMod 13) (ZMod 13) × List (ZMod 13)))
    ⟨fun _ => none, fun _ => none⟩ [sampleCall boundSquarePk 0 1, sampleCall otherPk 0 1] := by
  intro transparent
  have built : (sampleCall boundSquarePk 0 1).2.uncached (mulPairing (ZMod 13) 13) smallBackend =
      some (boundSquareVk, leanProvingKey boundSquarePk
        (smallWaste.publishedBases fourthRoots boundSquare 1)) := boundSquare_setup
  have same := transparent_vk (fun _ => mulPairing (ZMod 13) 13) (fun _ => smallBackend) _ .mnt4Mnt6 rfl
    built rfl transparent
  exact absurd (congrArg VerifyingKey.alphaG1 same) (by decide)

end Sample

end Pvugc.Outer
