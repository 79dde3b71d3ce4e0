import Mathlib.Data.List.SplitLengths
import Pvugc.OneSided.Poce

namespace Pvugc.OneSided

/-- The number of columns of a challenge input and the sizes of its byte strings. -/
structure PoceShape where
  columns : ℕ
  ctxHash : ℕ
  gsDigest : ℕ
  ctI : ℕ
  tauI : ℕ
  deriving DecidableEq

def PoceShape.byteSizes (shape : PoceShape) : List ℕ :=
  [shape.ctxHash, shape.gsDigest, shape.ctI, shape.tauI]

/-- A string of the right size is cut into byte strings of the sizes of the shape. -/
theorem PoceShape.exists_byteFields (shape : PoceShape) {bytes : List UInt8}
    (total : bytes.length = shape.byteSizes.sum) :
    ∃ ctxHash gsDigest ctI tauI : List UInt8,
      [ctxHash, gsDigest, ctI, tauI].map List.length = shape.byteSizes ∧
      [ctxHash, gsDigest, ctI, tauI].flatten = bytes := by
  have sizes := List.map_splitLengths_length bytes shape.byteSizes (le_of_eq total.symm)
  have joined := List.flatten_splitLengths bytes shape.byteSizes (le_of_eq total)
  rw [PoceShape.byteSizes] at sizes joined ⊢
  simp only [List.splitLengths_cons, List.splitLengths_nil] at sizes joined
  exact ⟨_, _, _, _, sizes, joined⟩

variable {F G1 G2 : Type}

def PoceInput.byteFields (input : PoceInput G1 G2) : List (List UInt8) :=
  [input.ctxHash, input.gsDigest, input.ctI, input.tauI]

/-- Bases, arms and commitments have the number of columns of the shape, and the byte strings its sizes. -/
structure PoceInput.HasShape (input : PoceInput G1 G2) (shape : PoceShape) : Prop where
  yBases : input.yBases.length = shape.columns
  yArms : input.yArms.length = shape.columns
  commitments : input.commitments.length = shape.columns
  byteFields : input.byteFields.map List.length = shape.byteSizes

theorem PoceInput.HasShape.unique {input : PoceInput G1 G2} {shape shape' : PoceShape}
    (first : input.HasShape shape) (second : input.HasShape shape') : shape = shape' := by
  obtain ⟨columns, _, _, _, _⟩ := shape
  obtain ⟨columns', _, _, _, _⟩ := shape'
  have sameColumns := first.yBases.symm.trans second.yBases
  have sameSizes := first.byteFields.symm.trans second.byteFields
  simp only [PoceShape.byteSizes, List.cons.injEq, and_true] at sameColumns sameSizes
  rw [PoceShape.mk.injEq]
  exact ⟨sameColumns, sameSizes⟩

variable (suite : PoceSuite F G1 G2)

/-- The serialized points of a challenge input. -/
def pocePointFields (input : PoceInput G1 G2) : List (List UInt8) :=
  input.yBases.map suite.g2.serializeCompressed ++
  (suite.g2.serializeCompressed input.deltaBase ::
  (input.yArms.map suite.g2.serializeCompressed ++
  (suite.g2.serializeCompressed input.deltaArm :: suite.g1.serializeCompressed input.tI ::
  (input.commitments.map suite.g2.serializeCompressed ++
  [suite.g2.serializeCompressed input.deltaCommitment, suite.g1.serializeCompressed input.tCommitment]))))

/-- The sizes of the serialized points of an input with `columns` columns. -/
def pocePointSizes (columns : ℕ) : List ℕ :=
  List.replicate columns suite.g2.compressedSize ++ (suite.g2.compressedSize ::
  (List.replicate columns suite.g2.compressedSize ++
  (suite.g2.compressedSize :: suite.g1.compressedSize ::
  (List.replicate columns suite.g2.compressedSize ++
  [suite.g2.compressedSize, suite.g1.compressedSize]))))

/-- The number of bytes that the transcript of a shape has. -/
def PoceShape.transcriptSize (shape : PoceShape) : ℕ :=
  (pocePointSizes suite shape.columns).sum + shape.byteSizes.sum

/-- Some points of the two numbers of columns serialize to one string and a continuation of it. -/
def PointsOverlap (columns columns' : ℕ) : Prop :=
  ∃ input input' : PoceInput G1 G2,
    input.yBases.length = columns ∧ input.yArms.length = columns ∧ input.commitments.length = columns ∧
    input'.yBases.length = columns' ∧ input'.yArms.length = columns' ∧
    input'.commitments.length = columns' ∧
    ((pocePointFields suite input).flatten <+: (pocePointFields suite input').flatten ∨
      (pocePointFields suite input').flatten <+: (pocePointFields suite input).flatten)

theorem poceTranscript_eq (input : PoceInput G1 G2) :
    poceTranscript suite input = (pocePointFields suite input).flatten ++ input.byteFields.flatten := by
  simp [poceTranscript, pocePointFields, PoceInput.byteFields, List.flatMap_def]

variable {suite}

theorem pocePointFields_lengths {input : PoceInput G1 G2} {columns : ℕ}
    (yBases : input.yBases.length = columns) (yArms : input.yArms.length = columns)
    (commitments : input.commitments.length = columns) :
    (pocePointFields suite input).map List.length = pocePointSizes suite columns := by
  have points (l : List G2) (size : l.length = columns) :
      (l.map suite.g2.serializeCompressed).map List.length =
        List.replicate columns suite.g2.compressedSize := by
    rw [List.map_map, ← size]
    exact List.map_eq_replicate_iff.mpr fun g _ => suite.g2.length_serializeCompressed g
  simp only [pocePointFields, pocePointSizes, List.map_append, List.map_cons, List.map_nil,
    points _ yBases, points _ yArms, points _ commitments, suite.g1.length_serializeCompressed,
    suite.g2.length_serializeCompressed]

theorem poceTranscript_length {input : PoceInput G1 G2} {shape : PoceShape} (shaped : input.HasShape shape) :
    (poceTranscript suite input).length = shape.transcriptSize suite := by
  rw [poceTranscript_eq, List.length_append, List.length_flatten, List.length_flatten,
    pocePointFields_lengths shaped.yBases shaped.yArms shaped.commitments, shaped.byteFields,
    PoceShape.transcriptSize]

/-- The serialized points of one number of columns determine the points. -/
theorem pocePointFields_inj {input input' : PoceInput G1 G2}
    (yBases : input.yBases.length = input'.yBases.length)
    (yArms : input.yArms.length = input'.yArms.length)
    (commitments : input.commitments.length = input'.commitments.length)
    (same : pocePointFields suite input = pocePointFields suite input') :
    { input with ctxHash := [], gsDigest := [], ctI := [], tauI := [] } =
      { input' with ctxHash := [], gsDigest := [], ctI := [], tauI := [] } := by
  have injective := List.map_injective_iff.mpr suite.g2.serializeCompressed_injective
  obtain ⟨bases, same⟩ := List.append_inj same (by simpa only [List.length_map] using yBases)
  obtain ⟨delta, same⟩ := List.cons_eq_cons.mp same
  obtain ⟨arms, same⟩ := List.append_inj same (by simpa only [List.length_map] using yArms)
  obtain ⟨deltaArm, same⟩ := List.cons_eq_cons.mp same
  obtain ⟨t, same⟩ := List.cons_eq_cons.mp same
  obtain ⟨columns, same⟩ := List.append_inj same (by simpa only [List.length_map] using commitments)
  obtain ⟨deltaCommitment, same⟩ := List.cons_eq_cons.mp same
  obtain ⟨tCommitment, -⟩ := List.cons_eq_cons.mp same
  simp only [PoceInput.mk.injEq, and_true]
  exact ⟨injective bases, suite.g2.serializeCompressed_injective delta, injective arms,
    suite.g2.serializeCompressed_injective deltaArm, suite.g1.serializeCompressed_injective t,
    injective columns, suite.g2.serializeCompressed_injective deltaCommitment,
    suite.g1.serializeCompressed_injective tCommitment⟩

/-- Within one shape the transcript determines the input. -/
theorem poceTranscript_inj {shape : PoceShape} {input input' : PoceInput G1 G2}
    (shaped : input.HasShape shape) (shaped' : input'.HasShape shape)
    (same : poceTranscript suite input = poceTranscript suite input') : input = input' := by
  have pointLengths : (pocePointFields suite input).map List.length =
      (pocePointFields suite input').map List.length :=
    (pocePointFields_lengths shaped.yBases shaped.yArms shaped.commitments).trans
      (pocePointFields_lengths shaped'.yBases shaped'.yArms shaped'.commitments).symm
  rw [poceTranscript_eq, poceTranscript_eq] at same
  obtain ⟨points, bytes⟩ := List.append_inj same (by
    rw [List.length_flatten, List.length_flatten, pointLengths])
  have pointFields := List.eq_iff_flatten_eq.mpr ⟨points, pointLengths⟩
  have byteFields : input.byteFields = input'.byteFields :=
    List.eq_iff_flatten_eq.mpr ⟨bytes, shaped.byteFields.trans shaped'.byteFields.symm⟩
  have samePoints := pocePointFields_inj (shaped.yBases.trans shaped'.yBases.symm)
    (shaped.yArms.trans shaped'.yArms.symm) (shaped.commitments.trans shaped'.commitments.symm) pointFields
  simp only [PoceInput.mk.injEq, and_true] at samePoints
  simp only [PoceInput.byteFields, List.cons.injEq, and_true] at byteFields
  apply PoceInput.ext <;> simp only [samePoints, byteFields]

/-- Points that continue each other and sizes that add up leave two inputs with one transcript. -/
theorem exists_same_transcript {shape shape' : PoceShape} {points points' : PoceInput G1 G2}
    (size : shape.transcriptSize suite = shape'.transcriptSize suite)
    (columns : points.yBases.length = shape.columns ∧ points.yArms.length = shape.columns ∧
      points.commitments.length = shape.columns)
    (columns' : points'.yBases.length = shape'.columns ∧ points'.yArms.length = shape'.columns ∧
      points'.commitments.length = shape'.columns)
    (continued : (pocePointFields suite points).flatten <+: (pocePointFields suite points').flatten) :
    ∃ input input' : PoceInput G1 G2, input.HasShape shape ∧ input'.HasShape shape' ∧
      poceTranscript suite input = poceTranscript suite input' := by
  obtain ⟨continuation, continued⟩ := continued
  have lengths := congrArg List.length continued
  rw [List.length_append, List.length_flatten, List.length_flatten,
    pocePointFields_lengths columns.1 columns.2.1 columns.2.2,
    pocePointFields_lengths columns'.1 columns'.2.1 columns'.2.2] at lengths
  rw [PoceShape.transcriptSize, PoceShape.transcriptSize] at size
  -- The bytes of the second input are zeros; those of the first are the continuation and the zeros.
  have fill (shape : PoceShape) (points : PoceInput G1 G2) (bytes : List UInt8)
      (columns : points.yBases.length = shape.columns ∧ points.yArms.length = shape.columns ∧
        points.commitments.length = shape.columns) (total : bytes.length = shape.byteSizes.sum) :
      ∃ input : PoceInput G1 G2, input.HasShape shape ∧
        poceTranscript suite input = (pocePointFields suite points).flatten ++ bytes := by
    obtain ⟨ctxHash, gsDigest, ctI, tauI, sizes, joined⟩ := shape.exists_byteFields total
    exact ⟨{ points with ctxHash, gsDigest, ctI, tauI }, ⟨columns.1, columns.2.1, columns.2.2, sizes⟩, by
      rw [poceTranscript_eq, ← joined]; rfl⟩
  obtain ⟨input', shaped', transcript'⟩ := fill shape' points'
    (List.replicate shape'.byteSizes.sum 0) columns' List.length_replicate
  obtain ⟨input, shaped, transcript⟩ := fill shape points
    (continuation ++ List.replicate shape'.byteSizes.sum 0) columns
    (by rw [List.length_append, List.length_replicate]; omega)
  exact ⟨input, input', shaped, shaped', by
    rw [transcript, transcript', ← List.append_assoc, continued]⟩

/-- Transcripts of two shapes determine their inputs exactly when the shapes agree, when the sizes of the
transcripts differ, or when no points of the two shapes overlap. -/
theorem poceTranscript_binds_iff (shape shape' : PoceShape) :
    (∀ input input' : PoceInput G1 G2, input.HasShape shape → input'.HasShape shape' →
      poceTranscript suite input = poceTranscript suite input' → input = input') ↔
    shape = shape' ∨ shape.transcriptSize suite ≠ shape'.transcriptSize suite ∨
      ¬ PointsOverlap suite shape.columns shape'.columns := by
  constructor
  · intro binds
    by_contra! collision
    obtain ⟨different, size, points, points', bases, arms, commitments, bases', arms', commitments',
      continued⟩ := collision
    have clash : ∃ input input' : PoceInput G1 G2, input.HasShape shape ∧ input'.HasShape shape' ∧
        poceTranscript suite input = poceTranscript suite input' := by
      rcases continued with continued | continued
      · exact exists_same_transcript size ⟨bases, arms, commitments⟩ ⟨bases', arms', commitments'⟩ continued
      · obtain ⟨input', input, shaped', shaped, same⟩ := exists_same_transcript size.symm
          ⟨bases', arms', commitments'⟩ ⟨bases, arms, commitments⟩ continued
        exact ⟨input, input', shaped, shaped', same.symm⟩
    obtain ⟨input, input', shaped, shaped', same⟩ := clash
    cases binds input input' shaped shaped' same
    exact different (shaped.unique shaped')
  · rintro (rfl | size | separate) input input' shaped shaped' same
    · exact poceTranscript_inj shaped shaped' same
    · exact absurd (by rw [← poceTranscript_length shaped, same, poceTranscript_length shaped']) size
    · rw [poceTranscript_eq, poceTranscript_eq] at same
      have continued := List.prefix_or_prefix_of_prefix ⟨_, same⟩ (List.prefix_append _ _)
      exact absurd ⟨input, input', shaped.yBases, shaped.yArms, shaped.commitments, shaped'.yBases,
        shaped'.yArms, shaped'.commitments, continued⟩ separate

/-- One byte for each residue, and the sum of the bytes as the digest. -/
def residueSuite : PoceSuite (ZMod 13) (ZMod 13) (ZMod 13) :=
  let residue : Compression (ZMod 13) :=
    { compressedSize := 1
      serializeCompressed g := [UInt8.ofNat g.val]
      length_serializeCompressed _ := rfl
      serializeCompressed_injective := by unfold Function.Injective; decide }
  { generator := 1
    g1 := residue
    g2 := residue
    digest := fun bytes => (bytes.map fun b => (b.toNat : ZMod 13)).sum }

/-- A byte that moves from the context hash to the digest leaves the transcript as it is, and the
attestation is accepted in both contexts. -/
theorem poceTranscript_moves_byte :
    ∃ (context context' : PoceContext)
      (attestation : ColumnArmingAttestation (ZMod 13) (ZMod 13) (ZMod 13) Unit),
      let bases : ColumnBases (ZMod 13) := { yCols := [6], delta := 1 }
      let arms : ColumnArms (ZMod 13) := { yColsRho := [12], deltaRho := 2 }
      let input (context : PoceContext) := attestation.poce.input bases arms 5 context
      let accepts (context : PoceContext) :=
        verifyColumnArming residueSuite 13 (fun _ _ _ _ => true) bases arms 5 attestation [] context true
      poceTranscript residueSuite (input context) = poceTranscript residueSuite (input context') ∧
        input context ≠ input context' ∧ accepts context = true ∧ accepts context' = true :=
  ⟨{ ctxHash := [2], gsDigest := [], ctI := [7], tauI := [6] },
    { ctxHash := [], gsDigest := [2], ctI := [7], tauI := [6] },
    { ve := ()
      poce :=
        { commitments := [5]
          deltaCommitment := 3
          tCommitment := 4
          tResponse := 9
          response := 5
          challenge := 1 } }, by decide⟩

end Pvugc.OneSided
