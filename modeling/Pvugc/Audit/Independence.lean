import Pvugc.Audit.ColumnEvaluation
import Pvugc.Audit.DenseBasis

namespace Pvugc.Audit
open Pvugc.Algebra Pvugc.Groth16 Pvugc.Outer

/-- The monomials of the trapdoors, in the order in which they are sorted. -/
inductive TrapdoorMonomial
  | alphaBetaDelta
  | betaDeltaUPub
  | betaDeltaUWit
  | alphaDeltaVPub
  | alphaDeltaVWit
  | deltaWPub
  | deltaWWit
  | betaSqU
  | betaU
  | alphaBetaV
  | alphaV
  | betaW
  | w
  | betaUV
  | alphaVV
  | wv
  | deltaUV
  | deltaPureUV
  | alphaDeltaSq
  | betaV
  | pureVV
  | deltaSqUWit
  | deltaSqVPub
  | deltaSqVWit
  deriving DecidableEq

/-- Polynomials with the monomials they multiply. -/
structure TrapdoorPolyVector (F : Type) where
  components : List (TrapdoorMonomial × DensePolynomial F)

/-- The polynomials of a column in the three matrices. -/
abbrev ColumnPolys (F : Type) := DensePolynomial F × DensePolynomial F × DensePolynomial F

/-- A handle of the adversary with the name and the column that the report prints. -/
structure Handle (F : Type) where
  label : String
  colIdx : ℕ
  vecMap : List (TrapdoorMonomial × F)

/-- The basis of the handles so far and the first one that completes a dependency. -/
structure HandleScan (F : Type) (n : ℕ) where
  basis : Basis F n
  dependencyReport : Option String

section Code

variable {F : Type} [Field F] [DecidableEq F]

/-- One entry of the weighted sums of the public polynomials; a zero weight is skipped. -/
def weightedStep (sums : ColumnPolys F) (term : ColumnPolys F × F) : ColumnPolys F :=
  if term.2 = 0 then sums
  else
    (sums.1.add (term.1.1.scale term.2), sums.2.1.add (term.1.2.1.scale term.2),
      sums.2.2.add (term.1.2.2.scale term.2))

/-- `build_target`; `none` is the failed assertion on the lengths. -/
def buildTarget (pubPolys : List (ColumnPolys F)) (pubCoeffs : List F) : Option (TrapdoorPolyVector F) :=
  if pubPolys.length ≠ pubCoeffs.length then none
  else
    let (uSum, vSum, wSum) := (pubPolys.zip pubCoeffs).foldl weightedStep
      (DensePolynomial.zero, DensePolynomial.zero, DensePolynomial.zero)
    some { components := [
      (.alphaBetaDelta, DensePolynomial.fromCoefficientsSlice [1]),
      (.betaDeltaUPub, uSum),
      (.alphaDeltaVPub, vSum),
      (.deltaWPub, wSum)] }

/-- The monomials that are always part of the space. -/
def allMonos : List TrapdoorMonomial :=
  [.alphaBetaDelta, .betaDeltaUPub, .betaDeltaUWit, .alphaDeltaVPub, .alphaDeltaVWit, .deltaWPub, .deltaWWit,
    .betaSqU, .betaU, .alphaBetaV, .alphaV, .betaW, .w, .betaUV, .alphaVV, .wv, .deltaUV, .deltaPureUV,
    .alphaDeltaSq, .betaV, .pureVV, .deltaSqUWit, .deltaSqVPub, .deltaSqVWit]

/-- The sorted set of the monomials of the target and of the fixed ones. -/
def sortedMonomials (target : TrapdoorPolyVector F) : List TrapdoorMonomial :=
  (target.components.map Prod.fst ++ allMonos).dedup.insertionSort fun left right =>
    left.ctorIdx ≤ right.ctorIdx

/-- The handles of one column: those of the raw `A` query and of the `L` query exist for witness columns
only, those of the raw `B` query for every column. -/
def columnHandles (numPub k : ℕ) (values : F × F × F) (vPubR : F) : List (Handle F) :=
  let (uVal, vVal, wVal) := values
  let witnessHandles := if k ≥ numPub then
    [{ label := "u_k * D_pub * delta", colIdx := k
       vecMap := [(.betaDeltaUWit, uVal), (.deltaUV, uVal * vPubR)] },
     { label := "u_k * D_delta * delta", colIdx := k, vecMap := [(.deltaSqUWit, uVal)] },
     { label := "u_k * D_j * delta", colIdx := k, vecMap := [(.deltaPureUV, uVal)] },
     { label := "L_k * D_pub * delta", colIdx := k
       vecMap := [(.betaSqU, uVal), (.betaU, uVal * vPubR), (.alphaBetaV, vVal), (.alphaV, vVal * vPubR),
         (.betaW, wVal), (.w, wVal * vPubR)] },
     { label := "L_k * D_delta * delta (WITNESS)", colIdx := k
       vecMap := [(.betaDeltaUWit, uVal), (.alphaDeltaVWit, vVal), (.deltaWWit, wVal)] },
     { label := "L_k * D_j * delta", colIdx := k
       vecMap := [(.betaUV, uVal), (.alphaVV, vVal), (.wv, wVal)] }]
    else []
  let rawDelta := if k < numPub then
      { label := "Raw B DeltaSqVPub", colIdx := k, vecMap := [(.deltaSqVPub, vVal)] }
    else
      { label := "Raw B DeltaSqVWit", colIdx := k, vecMap := [(.deltaSqVWit, vVal)] }
  witnessHandles ++ [rawDelta,
    { label := "Raw B BetaV", colIdx := k, vecMap := [(.betaV, vVal)] },
    { label := "Raw B PureVV", colIdx := k, vecMap := [(.pureVV, vVal)] }]

/-- The handles of the key's `alpha`; their column is `usize::MAX`. -/
def alphaHandles (vPubR : F) : List (Handle F) :=
  [{ label := "Alpha * y_cols_rho[0] (D_pub bundled)", colIdx := 2 ^ 64 - 1
     vecMap := [(.alphaBetaDelta, 1), (.alphaDeltaVPub, vPubR)] },
   { label := "Alpha * y_cols_rho[wit] (V_wit span)", colIdx := 2 ^ 64 - 1
     vecMap := [(.alphaDeltaVWit, 1)] },
   { label := "Alpha * delta_rho", colIdx := 2 ^ 64 - 1, vecMap := [(.alphaDeltaSq, 1)] }]

/-- Adds the components of a handle to the coordinates of their monomials. -/
def handleVec (monomials : List TrapdoorMonomial) (vecMap : List (TrapdoorMonomial × F)) :
    Vector F monomials.length :=
  vecMap.foldl (fun v component =>
    match monomials.idxOf? component.1 with
    | some idx => v.setIfInBounds idx (denseValue v idx + component.2)
    | none => v) (Vector.replicate monomials.length 0)

/-- Stores the values of the target's polynomials at the coordinates of their monomials. -/
def targetVec (monomials : List TrapdoorMonomial) (target : TrapdoorPolyVector F) (r : F) :
    Vector F monomials.length :=
  target.components.foldl (fun v component =>
    match monomials.idxOf? component.1 with
    | some idx => v.setIfInBounds idx (component.2.evaluate r)
    | none => v) (Vector.replicate monomials.length 0)

/-- Inserts a handle, and reports the first one after which the target is dependent. -/
def addBasisVec {monomials : List TrapdoorMonomial} (target : Vector F monomials.length)
    (scan : HandleScan F monomials.length) (handle : Handle F) : HandleScan F monomials.length :=
  let basis := scan.basis.insert (handleVec monomials handle.vecMap)
  let dependencyReport :=
    if scan.dependencyReport.isNone && (basis.reduce target).toList.all (· = 0) then
      some ("column " ++ toString handle.colIdx ++ " via " ++ handle.label)
    else scan.dependencyReport
  { basis := basis, dependencyReport := dependencyReport }

/-- All handles of one check, in the order of their insertion. -/
def allHandles (extractor : MatrixExtractor F) (numPub numVars : ℕ) (r vPubR : F) : List (Handle F) :=
  ((List.range numVars).flatMap fun k => columnHandles numPub k (evaluateColumn extractor k r) vPubR) ++
    alphaHandles vPubR

/-- `check_independence_streaming` without its progress lines; `rand` is the first sample of the seeded
generator, and `none` is the failed assertion on the lengths. -/
def checkIndependenceStreaming (rand : ℕ → F) (extractor : MatrixExtractor F) (pubPolys : List (ColumnPolys F))
    (pubCoeffs : List F) (target : TrapdoorPolyVector F) (numVars seed : ℕ) : Option (Bool × Option String) :=
  let r := rand seed
  let monomials := sortedMonomials target
  let targetVector := targetVec monomials target r
  if pubPolys.length ≠ pubCoeffs.length then none
  else
    let vPubR := (pubPolys.zip pubCoeffs).foldl (fun acc term =>
      if term.2 = 0 then acc else acc + term.1.2.1.evaluate r * term.2) 0
    let numPub := pubPolys.length
    let scan := (allHandles extractor numPub numVars r vPubR).foldl (addBasisVec targetVector)
      { basis := Basis.new, dependencyReport := none }
    let residue := scan.basis.reduce targetVector
    let isSafe := !residue.toList.all (· = 0)
    some (isSafe, scan.dependencyReport)

/-- `run_independence_checks` stops at the first point with a dependency. -/
def runIndependenceChecks (rand : ℕ → F) (extractor : MatrixExtractor F) (pubPolys : List (ColumnPolys F))
    (pubCoeffs : List F) (target : TrapdoorPolyVector F) (numVars numChecks : ℕ) : Option Bool :=
  (List.range numChecks).foldlM (fun allSafe i =>
    if allSafe then
      (checkIndependenceStreaming rand extractor pubPolys pubCoeffs target numVars (12345 + i)).map Prod.fst
    else some allSafe) true

end Code

section Coordinates

variable {F : Type} [Field F]

theorem idxOf?_eq_some {monomials : List TrapdoorMonomial} (distinct : monomials.Nodup)
    {m : TrapdoorMonomial} {k : ℕ} : monomials.idxOf? m = some k ↔ monomials[k]? = some m := by
  rw [List.idxOf?_eq_some_iff]
  constructor
  · intro located
    obtain ⟨inside, here, -⟩ := located
    rw [List.getElem?_eq_getElem inside, here]
  · intro located
    obtain ⟨inside, here⟩ := List.getElem?_eq_some_iff.mp located
    refine ⟨inside, here, ?_⟩
    intro j before same
    have repeated : monomials[j]? = monomials[k]? := by
      rw [located, List.getElem?_eq_getElem (before.trans inside), same]
    exact absurd ((List.getElem?_inj (before.trans inside) distinct).mp repeated) before.ne

/-- The sum of the components at the monomial of a coordinate. -/
def coordinate (monomials : List TrapdoorMonomial) (vecMap : List (TrapdoorMonomial × F)) (k : ℕ) : F :=
  (vecMap.map fun component => if monomials[k]? = some component.1 then component.2 else 0).sum

/-- Each coordinate of a handle sums the components of its monomial. -/
theorem denseValue_handleVec {monomials : List TrapdoorMonomial} (distinct : monomials.Nodup)
    (vecMap : List (TrapdoorMonomial × F)) (k : ℕ) :
    denseValue (handleVec monomials vecMap) k = coordinate monomials vecMap k := by
  have loop : ∀ v : Vector F monomials.length,
      denseValue (vecMap.foldl (fun v component =>
        match monomials.idxOf? component.1 with
        | some idx => v.setIfInBounds idx (denseValue v idx + component.2)
        | none => v) v) k = denseValue v k + coordinate monomials vecMap k := by
    induction vecMap with
    | nil => simp [coordinate]
    | cons component rest ih =>
        intro v
        rw [List.foldl_cons, ih, coordinate, coordinate, List.map_cons, List.sum_cons, ← add_assoc]
        congr 1
        cases located : monomials.idxOf? component.1 with
        | none =>
            have absent : monomials[k]? ≠ some component.1 := by
              intro here
              rw [(idxOf?_eq_some distinct).mpr here] at located
              cases located
            rw [if_neg absent, add_zero]
        | some idx =>
            have here := (idxOf?_eq_some distinct).mp located
            have inside := (List.getElem?_eq_some_iff.mp here).1
            dsimp only
            rw [denseValue_set v inside]
            by_cases same : k = idx
            · rw [if_pos same, same, if_pos here]
            · rw [if_neg same, if_neg, add_zero]
              intro other
              rw [(idxOf?_eq_some distinct).mpr other] at located
              exact same (Option.some.inj located)
  rw [handleVec, loop, denseValue_zero, zero_add]

/-- Storing the values of the target adds them up, as its components are on distinct monomials. -/
theorem targetVec_eq {monomials : List TrapdoorMonomial} (distinct : monomials.Nodup)
    (target : TrapdoorPolyVector F) (separate : (target.components.map Prod.fst).Nodup) (r : F) :
    targetVec monomials target r =
      handleVec monomials (target.components.map fun component => (component.1, component.2.evaluate r)) := by
  have loop (components : List (TrapdoorMonomial × DensePolynomial F)) :
      (components.map Prod.fst).Nodup → ∀ v : Vector F monomials.length,
      (∀ component ∈ components, ∀ k, monomials[k]? = some component.1 → denseValue v k = 0) →
      components.foldl (fun v component =>
        match monomials.idxOf? component.1 with
        | some idx => v.setIfInBounds idx (component.2.evaluate r)
        | none => v) v =
      (components.map fun component => (component.1, component.2.evaluate r)).foldl (fun v component =>
        match monomials.idxOf? component.1 with
        | some idx => v.setIfInBounds idx (denseValue v idx + component.2)
        | none => v) v := by
    induction components with
    | nil => simp
    | cons component rest ih =>
        intro separate v clear
        obtain ⟨fresh, later⟩ := List.nodup_cons.mp separate
        rw [List.foldl_cons, List.map_cons, List.foldl_cons]
        cases located : monomials.idxOf? component.1 with
        | none => exact ih later v fun other member => clear other (List.mem_cons_of_mem _ member)
        | some idx =>
            have here := (idxOf?_eq_some distinct).mp located
            have inside := (List.getElem?_eq_some_iff.mp here).1
            dsimp only
            rw [clear component List.mem_cons_self idx here, zero_add]
            apply ih later
            intro other member k there
            rw [denseValue_set v inside, if_neg]
            · exact clear other (List.mem_cons_of_mem _ member) k there
            · intro same
              rw [same, here] at there
              apply fresh
              rw [List.mem_map]
              exact ⟨other, member, (Option.some.inj there).symm⟩
  exact loop target.components separate _ fun _ _ k _ => denseValue_zero k

/-- A coordinate whose monomial is in no component is zero. -/
theorem coordinate_eq_zero {monomials : List TrapdoorMonomial} {vecMap : List (TrapdoorMonomial × F)} {k : ℕ}
    (absent : ∀ component ∈ vecMap, monomials[k]? ≠ some component.1) : coordinate monomials vecMap k = 0 := by
  apply List.sum_eq_zero
  intro x member
  obtain ⟨component, listed, rfl⟩ := List.mem_map.mp member
  exact if_neg (absent component listed)

end Coordinates

section Target

variable {F : Type} [Field F] [DecidableEq F]

/-- The value at a point of the weighted sum of one of the three polynomials of the public columns. -/
def weightedValue (pubPolys : List (ColumnPolys F)) (pubCoeffs : List F)
    (poly : ColumnPolys F → DensePolynomial F) (r : F) : F :=
  ((pubPolys.zip pubCoeffs).map fun term => term.2 * (poly term.1).evaluate r).sum

/-- The weighted sums evaluate to the weighted sums of the values. -/
theorem evaluate_weightedStep (terms : List (ColumnPolys F × F)) (r : F) : ∀ sums : ColumnPolys F,
    (terms.foldl weightedStep sums).1.evaluate r =
        sums.1.evaluate r + (terms.map fun term => term.2 * term.1.1.evaluate r).sum ∧
      (terms.foldl weightedStep sums).2.1.evaluate r =
        sums.2.1.evaluate r + (terms.map fun term => term.2 * term.1.2.1.evaluate r).sum ∧
      (terms.foldl weightedStep sums).2.2.evaluate r =
        sums.2.2.evaluate r + (terms.map fun term => term.2 * term.1.2.2.evaluate r).sum := by
  induction terms with
  | nil => simp
  | cons term rest ih =>
      intro sums
      rw [List.foldl_cons]
      obtain ⟨u, v, w⟩ := ih (weightedStep sums term)
      rw [u, v, w]
      by_cases zero : term.2 = 0
      · simp [weightedStep, zero]
      · simp [weightedStep, zero, add_assoc]

/-- The target's public components are the weighted sums of the public columns. -/
theorem buildTarget_spec {pubPolys : List (ColumnPolys F)} {pubCoeffs : List F}
    (lengths : pubPolys.length = pubCoeffs.length) :
    ∃ target, buildTarget pubPolys pubCoeffs = some target ∧
      target.components.map Prod.fst = [.alphaBetaDelta, .betaDeltaUPub, .alphaDeltaVPub, .deltaWPub] ∧
      ∀ r, target.components.map (fun component => (component.1, component.2.evaluate r)) =
        [(.alphaBetaDelta, 1), (.betaDeltaUPub, weightedValue pubPolys pubCoeffs (fun p => p.1) r),
          (.alphaDeltaVPub, weightedValue pubPolys pubCoeffs (fun p => p.2.1) r),
          (.deltaWPub, weightedValue pubPolys pubCoeffs (fun p => p.2.2) r)] := by
  refine ⟨_, by rw [buildTarget, if_neg (not_not.mpr lengths)], rfl, ?_⟩
  intro r
  obtain ⟨u, v, w⟩ := evaluate_weightedStep (pubPolys.zip pubCoeffs) r
    (DensePolynomial.zero, DensePolynomial.zero, DensePolynomial.zero)
  have one : (DensePolynomial.fromCoefficientsSlice [(1 : F)]).evaluate r = 1 := by
    simp [DensePolynomial.evaluate_eq_eval, DensePolynomial.toPolynomial_fromCoefficientsSlice]
  simp only [List.map_cons, List.map_nil, one, u, v, w, DensePolynomial.evaluate_zero, zero_add, weightedValue]

omit [Field F] [DecidableEq F] in
/-- The monomials of the space are distinct and include those of the target. -/
theorem sortedMonomials_spec (target : TrapdoorPolyVector F) : (sortedMonomials target).Nodup ∧
    ∀ m ∈ target.components.map Prod.fst, m ∈ sortedMonomials target := by
  have sorted := List.perm_insertionSort (fun left right : TrapdoorMonomial => left.ctorIdx ≤ right.ctorIdx)
    (target.components.map Prod.fst ++ allMonos).dedup
  constructor
  · exact sorted.nodup_iff.mpr (List.nodup_dedup _)
  · intro m member
    apply sorted.mem_iff.mpr
    rw [List.mem_dedup, List.mem_append]
    exact Or.inl member

/-- The basis of a scan is in echelon form and spans the handles. -/
theorem addBasisVec_spec {monomials : List TrapdoorMonomial} (target : Vector F monomials.length)
    (handles : List (Handle F)) : ∀ scan : HandleScan F monomials.length, scan.basis.Echelon →
      (handles.foldl (addBasisVec target) scan).basis.Echelon ∧
        (handles.foldl (addBasisVec target) scan).basis.span = scan.basis.span ⊔
          Submodule.span F {w | ∃ handle ∈ handles, denseValue (handleVec monomials handle.vecMap) = w} := by
  induction handles with
  | nil =>
      intro scan echelon
      simp [echelon]
  | cons handle rest ih =>
      intro scan echelon
      obtain ⟨inserted, added⟩ := echelon.insert (handleVec monomials handle.vecMap)
      obtain ⟨final, spanned⟩ := ih (addBasisVec target scan handle) inserted
      have basis : (addBasisVec target scan handle).basis =
          scan.basis.insert (handleVec monomials handle.vecMap) := rfl
      refine ⟨final, ?_⟩
      have values : {w | ∃ h ∈ handle :: rest, denseValue (handleVec monomials h.vecMap) = w} =
          {denseValue (handleVec monomials handle.vecMap)} ∪
            {w | ∃ h ∈ rest, denseValue (handleVec monomials h.vecMap) = w} := by
        ext w
        simp [eq_comm]
      rw [List.foldl_cons, spanned, basis, added, values, Submodule.span_union, sup_assoc]

/-- No handle touches the public components of `U` and `W`. -/
theorem allHandles_absent {extractor : MatrixExtractor F} {numPub numVars : ℕ} {r vPubR : F} {handle : Handle F}
    (member : handle ∈ allHandles extractor numPub numVars r vPubR) {component : TrapdoorMonomial × F}
    (listed : component ∈ handle.vecMap) : component.1 ≠ .betaDeltaUPub ∧ component.1 ≠ .deltaWPub := by
  rw [allHandles, List.mem_append, List.mem_flatMap] at member
  rcases member with ⟨k, -, ofColumn⟩ | ofAlpha
  · rw [columnHandles, List.mem_append] at ofColumn
    rcases ofColumn with witness | raw
    · split at witness
      case isTrue =>
        simp only [List.mem_cons, List.not_mem_nil, or_false] at witness
        rcases witness with rfl | rfl | rfl | rfl | rfl | rfl
        all_goals
          simp only [List.mem_cons, List.not_mem_nil, or_false] at listed
          grind
      case isFalse => cases witness
    · simp only [List.mem_cons, List.not_mem_nil, or_false] at raw
      rcases raw with rfl | rfl | rfl
      · split at listed
        all_goals
          simp only [List.mem_cons, List.not_mem_nil, or_false] at listed
          simp [listed]
      all_goals
        simp only [List.mem_cons, List.not_mem_nil, or_false] at listed
        simp [listed]
  · simp only [alphaHandles, List.mem_cons, List.not_mem_nil, or_false] at ofAlpha
    rcases ofAlpha with rfl | rfl | rfl
    all_goals
      simp only [List.mem_cons, List.not_mem_nil, or_false] at listed
      grind

/-- The target lies in the span of the handles exactly when its `U` and `W` components vanish: it is then
the handle that bundles the other two. -/
theorem target_mem_span_iff {monomials : List TrapdoorMonomial} (distinct : monomials.Nodup)
    (uPresent : .betaDeltaUPub ∈ monomials) (wPresent : .deltaWPub ∈ monomials)
    (extractor : MatrixExtractor F) (numPub numVars : ℕ) (r uPubR vPubR wPubR : F) :
    denseValue (handleVec monomials [(.alphaBetaDelta, 1), (.betaDeltaUPub, uPubR), (.alphaDeltaVPub, vPubR),
        (.deltaWPub, wPubR)]) ∈
      Submodule.span F {w | ∃ handle ∈ allHandles extractor numPub numVars r vPubR,
        denseValue (handleVec monomials handle.vecMap) = w} ↔ uPubR = 0 ∧ wPubR = 0 := by
  constructor
  · intro spanned
    have vanishing {m : TrapdoorMonomial} (present : m ∈ monomials) (outside : ∀ handle ∈
        allHandles extractor numPub numVars r vPubR, ∀ component ∈ handle.vecMap, component.1 ≠ m) :
        ∃ k, monomials[k]? = some m ∧ coordinate monomials [(.alphaBetaDelta, 1), (.betaDeltaUPub, uPubR),
          (.alphaDeltaVPub, vPubR), (.deltaWPub, wPubR)] k = 0 := by
      obtain ⟨k, located⟩ := List.getElem?_of_mem present
      refine ⟨k, located, ?_⟩
      have kernel : Submodule.span F {w | ∃ handle ∈ allHandles extractor numPub numVars r vPubR,
          denseValue (handleVec monomials handle.vecMap) = w} ≤
            LinearMap.ker (LinearMap.proj (R := F) (φ := fun _ : ℕ => F) k) := by
        apply Submodule.span_le.mpr
        intro w image
        obtain ⟨handle, member, rfl⟩ := image
        change denseValue (handleVec monomials handle.vecMap) k = 0
        rw [denseValue_handleVec distinct]
        apply coordinate_eq_zero
        intro component listed same
        rw [located] at same
        exact outside handle member component listed (Option.some.inj same).symm
      rw [← denseValue_handleVec distinct]
      exact kernel spanned
    obtain ⟨i, uAt, uZero⟩ := vanishing uPresent fun handle member component listed =>
      (allHandles_absent member listed).1
    obtain ⟨j, wAt, wZero⟩ := vanishing wPresent fun handle member component listed =>
      (allHandles_absent member listed).2
    constructor
    · simpa [coordinate, uAt] using uZero
    · simpa [coordinate, wAt] using wZero
  · intro zeros
    apply Submodule.subset_span
    refine ⟨{ label := "Alpha * y_cols_rho[0] (D_pub bundled)", colIdx := 2 ^ 64 - 1
              vecMap := [(.alphaBetaDelta, 1), (.alphaDeltaVPub, vPubR)] }, ?_, ?_⟩
    · rw [allHandles, List.mem_append]
      exact Or.inr List.mem_cons_self
    · funext k
      rw [denseValue_handleVec distinct, denseValue_handleVec distinct, zeros.1, zeros.2]
      simp [coordinate]

/-- A check is safe exactly when the `U` or the `W` component of the target is nonzero at its point. -/
theorem checkIndependenceStreaming_spec (rand : ℕ → F) (extractor : MatrixExtractor F)
    {pubPolys : List (ColumnPolys F)} {pubCoeffs : List F} (lengths : pubPolys.length = pubCoeffs.length)
    {target : TrapdoorPolyVector F} (built : buildTarget pubPolys pubCoeffs = some target) (numVars seed : ℕ) :
    ∃ isSafe report, checkIndependenceStreaming rand extractor pubPolys pubCoeffs target numVars seed =
        some (isSafe, report) ∧
      (isSafe = true ↔ weightedValue pubPolys pubCoeffs (fun p => p.1) (rand seed) ≠ 0 ∨
        weightedValue pubPolys pubCoeffs (fun p => p.2.2) (rand seed) ≠ 0) := by
  obtain ⟨_, rebuilt, names, values⟩ := buildTarget_spec lengths
  rw [built, Option.some.injEq] at rebuilt
  subst rebuilt
  obtain ⟨distinct, present⟩ := sortedMonomials_spec target
  rw [names] at present
  have vPub : (pubPolys.zip pubCoeffs).foldl (fun acc term =>
      if term.2 = 0 then acc else acc + term.1.2.1.evaluate (rand seed) * term.2) 0 =
        weightedValue pubPolys pubCoeffs (fun p => p.2.1) (rand seed) := by
    have loop (terms : List (ColumnPolys F × F)) : ∀ acc : F, terms.foldl (fun acc term =>
        if term.2 = 0 then acc else acc + term.1.2.1.evaluate (rand seed) * term.2) acc =
          acc + (terms.map fun term => term.2 * term.1.2.1.evaluate (rand seed)).sum := by
      induction terms with
      | nil => simp
      | cons term rest ih =>
          intro acc
          rw [List.foldl_cons, ih, List.map_cons, List.sum_cons]
          by_cases zero : term.2 = 0
          · rw [if_pos zero, zero, zero_mul, zero_add]
          · rw [if_neg zero, mul_comm, add_assoc]
    rw [loop, zero_add, weightedValue]
  rw [checkIndependenceStreaming]
  dsimp only
  rw [if_neg (not_not.mpr lengths), vPub]
  refine ⟨_, _, rfl, ?_⟩
  obtain ⟨echelon, spanned⟩ := addBasisVec_spec (targetVec (sortedMonomials target) target (rand seed))
    (allHandles extractor pubPolys.length numVars (rand seed)
      (weightedValue pubPolys pubCoeffs (fun p => p.2.1) (rand seed)))
    { basis := Basis.new, dependencyReport := none } Basis.echelon_new
  rw [Basis.span_new, bot_sup_eq] at spanned
  rw [Bool.not_eq_true', ← Bool.not_eq_true, echelon.reduce_all_zero_iff, spanned,
    targetVec_eq distinct target (by rw [names]; decide), values,
    target_mem_span_iff distinct (present _ (by decide)) (present _ (by decide))]
  tauto

/-- The checks are safe exactly when each of their points is. -/
theorem runIndependenceChecks_spec (rand : ℕ → F) (extractor : MatrixExtractor F)
    {pubPolys : List (ColumnPolys F)} {pubCoeffs : List F} (lengths : pubPolys.length = pubCoeffs.length)
    {target : TrapdoorPolyVector F} (built : buildTarget pubPolys pubCoeffs = some target)
    (numVars numChecks : ℕ) :
    ∃ allSafe, runIndependenceChecks rand extractor pubPolys pubCoeffs target numVars numChecks = some allSafe ∧
      (allSafe = true ↔ ∀ i < numChecks,
        weightedValue pubPolys pubCoeffs (fun p => p.1) (rand (12345 + i)) ≠ 0 ∨
          weightedValue pubPolys pubCoeffs (fun p => p.2.2) (rand (12345 + i)) ≠ 0) := by
  rw [runIndependenceChecks]
  induction numChecks with
  | zero => exact ⟨true, rfl, by simp⟩
  | succ n ih =>
      obtain ⟨allSafe, run, safe⟩ := ih
      rw [List.range_succ, List.foldlM_append, run]
      simp only [Option.bind_eq_bind, Option.bind_some, List.foldlM_cons, List.foldlM_nil]
      cases allSafe with
      | false =>
          refine ⟨false, rfl, iff_of_false Bool.false_ne_true ?_⟩
          intro all
          exact Bool.false_ne_true (safe.mpr fun i below => all i (Nat.lt_succ_of_lt below))
      | true =>
          obtain ⟨isSafe, report, checked, point⟩ :=
            checkIndependenceStreaming_spec rand extractor lengths built numVars (12345 + n)
          rw [if_pos rfl, checked]
          refine ⟨isSafe, rfl, ?_⟩
          rw [point, Nat.forall_lt_succ_right]
          exact ⟨fun last => ⟨safe.mp rfl, last⟩, fun all => all.2⟩

end Target

end Pvugc.Audit
