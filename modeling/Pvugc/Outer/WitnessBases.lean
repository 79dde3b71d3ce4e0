import Pvugc.Groth16.Generator
import Pvugc.Outer.GroupFft

namespace Pvugc.Outer
open Pvugc.Algebra Pvugc.Groth16

/-- Sparse quotient bases with 32-bit column indices. -/
abbrev HQueryWit (G1 : Type) := List (UInt32 × UInt32 × G1)

section Columns

variable {F : Type}

/-- Pushes the terms of one row onto their columns. -/
def pushTerms (columns : List (List (ℕ × F))) (row : ℕ) (terms : Row F) : List (List (ℕ × F)) :=
  terms.foldl (fun columns term => columns.modify term.2 (· ++ [(row, term.1)])) columns

/-- The nonempty rows and the values of each column of a matrix. -/
def collectColumns (numVars domainSize : ℕ) (rows : List (Row F)) : List (List (ℕ × F)) :=
  rows.zipIdx.foldl
    (fun columns entry => if entry.2 < domainSize then pushTerms columns entry.2 entry.1 else columns)
    (List.replicate numVars [])

/-- The columns of a matrix that occur in some row, in increasing order. -/
def occurringColumns (numVars domainSize : ℕ) (rows : List (Row F)) : List ℕ :=
  (List.range numVars).filter fun col =>
    (rows.take domainSize).any fun terms => terms.any fun term => term.2 == col

/-- The rows of `C` in which a public column occurs. -/
def cRows (m : ConstraintMatrices F) (domainSize pubCol : ℕ) : List ℕ :=
  (List.range m.c.length).filter fun row =>
    row < domainSize && (m.c.getD row []).any fun term => term.2 == pubCol

/-- The witness columns that occur in a row of `B`. -/
def bWitCols (m : ConstraintMatrices F) (row : ℕ) : List ℕ :=
  (m.b.getD row []).filterMap fun term =>
    if term.2 ≥ m.numInstanceVariables then some term.2 else none

/-- The single witness columns of `B` on the rows of `C` that hold a public column. -/
def omitConstWitCols (m : ConstraintMatrices F) (domainSize : ℕ) : Finset ℕ :=
  ((List.range' 1 (m.numInstanceVariables - 1)).flatMap fun pubCol =>
    (cRows m domainSize pubCol).filterMap fun row =>
      match bWitCols m row with
      | [col] => some col
      | _ => none).toFinset

/-- The sorted column pairs whose quotient bases are published. -/
def activePairs (m : ConstraintMatrices F) (domainSize : ℕ) : List (ℕ × ℕ) :=
  ((occurringColumns m.numVars domainSize m.a).product
    (occurringColumns m.numVars domainSize m.b)).filter fun pair =>
      !(pair.1 < m.numInstanceVariables && pair.2 < m.numInstanceVariables) &&
        !(pair.1 == 0 && decide (pair.2 ∈ omitConstWitCols m domainSize))

end Columns

section Code

variable {F G1 G2 : Type} [Field F] [DecidableEq F] [AddCommGroup G1] [Module F G1] [DecidableEq G1]

/-- `vec.resize` when the vector is short and `vec.truncate` when it is long. -/
def fitLength (size : ℕ) (a : List G1) : List G1 :=
  if a.length < size then a ++ List.replicate (size - a.length) 0 else a.take size

omit [DecidableEq G1] in
@[simp] theorem fitLength_length (size : ℕ) (a : List G1) : (fitLength size a).length = size := by
  rw [fitLength]
  split
  case isTrue short =>
    rw [List.length_append, List.length_replicate]
    omega
  case isFalse long =>
    rw [List.length_take]
    omega

/-- The kernel `u` before its reversal; the expectation is that `2n` is invertible. -/
def kernelTable (domain : EvaluationDomain F) : Option (List F) :=
  let nField := domain.sizeAsFieldElement
  if nField + nField = 0 then none
  else some (tabulate domain.size fun j =>
    if j = 0 then (nField - 1) * (nField + nField)⁻¹ else (nField * (1 - domain.element j))⁻¹)

/-- The vector of diagonal quotients, by a convolution in the frequency domain. -/
def qVector (domain : EvaluationDomain F) (invNOneMinusOmega : List F) (lagrangeSrs : List G1) :
    Option (List G1) := do
  let u ← parallelFftScalar domain
    (if domain.size > 1 then reverseTail invNOneMinusOmega else invNOneMinusOmega)
  let lFft ← parallelFftG1 domain lagrangeSrs
  parallelIfftG1 domain (List.zipWith (fun uVal (lVal : G1) => uVal • lVal) u lFft)

/-- The accumulators of one column pair. -/
structure PairAccumulators (F : Type) where
  accU : List F
  accV : List F
  diagTerms : List (ℕ × F)

/-- `ω^{-m}` is read from the table of domain elements. -/
def invDomainElement (domain : EvaluationDomain F) (m : ℕ) : F :=
  domain.element (if m = 0 then 0 else domain.size - m)

/-- One pass of the double loop over the entries of both columns. -/
def accumulateEntry (domain : EvaluationDomain F) (invNOneMinusOmega : List F)
    (left right : (ℕ × F) × ℕ) (state : PairAccumulators F) : PairAccumulators F :=
  let k := left.1.1
  let m := right.1.1
  let prod := left.1.2 * right.1.2
  if k = m then { state with diagTerms := state.diagTerms ++ [(k, prod)] }
  else
    let wm := domain.element m
    let wk := domain.element k
    let d := if k ≥ m then k - m else k + domain.size - m
    let invDenom := -(invDomainElement domain m * invNOneMinusOmega.getD d 0)
    let common := prod * invDenom
    { state with
      accU := state.accU.modify left.2 (· + common * wm)
      accV := state.accV.modify right.2 (· - common * wk) }

def accumulatePair (domain : EvaluationDomain F) (invNOneMinusOmega : List F)
    (rowsU rowsV : List (ℕ × F)) : PairAccumulators F :=
  rowsU.zipIdx.foldl (fun state left =>
    rowsV.zipIdx.foldl (fun state right => accumulateEntry domain invNOneMinusOmega left right state)
      state)
    { accU := List.replicate rowsU.length 0, accV := List.replicate rowsV.length 0, diagTerms := [] }

/-- The running row of the diagonal aggregation closes when the next row differs. -/
def aggregateStep (state : List (ℕ × F) × ℕ × F) (term : ℕ × F) : List (ℕ × F) × ℕ × F :=
  if term.1 ≠ state.2.1 then
    (if state.2.2 ≠ 0 then state.1 ++ [state.2] else state.1, term)
  else (state.1, state.2.1, state.2.2 + term.2)

/-- Diagonal terms are sorted by row and added up, so that each row occurs once. -/
def aggregateDiagonal (diagTerms : List (ℕ × F)) : List (ℕ × F) :=
  match diagTerms.mergeSort (fun left right => left.1 ≤ right.1) with
  | [] => []
  | first :: rest =>
    let final := (first :: rest).foldl aggregateStep ([], first.1, 0)
    if final.2.2 ≠ 0 then final.1 ++ [final.2] else final.1

/-- The bases and scalars of the nonzero accumulators. -/
def nonzeroTerms (table : List G1) (rows : List (ℕ × F)) (acc : List F) : List (G1 × F) :=
  (rows.zip acc).filterMap fun entry =>
    if entry.2 ≠ 0 then some (table.getD entry.1.1 0, entry.2) else none

/-- The multi-scalar terms of one column pair; an empty column has none. -/
def pairTerms (domain : EvaluationDomain F) (invNOneMinusOmega : List F)
    (lagrangeSrs qVec : List G1) (rowsU rowsV : List (ℕ × F)) : List (G1 × F) :=
  if rowsU.isEmpty || rowsV.isEmpty then []
  else
    let state := accumulatePair domain invNOneMinusOmega rowsU rowsV
    nonzeroTerms lagrangeSrs rowsU state.accU ++ nonzeroTerms lagrangeSrs rowsV state.accV ++
      (aggregateDiagonal state.diagTerms).map fun term => (qVec.getD term.1 0, term.2)

/-- The quotient base of one pair, unless it has no terms or is zero. -/
def pairBase (terms : List (G1 × F)) : Option G1 :=
  if terms.isEmpty then none
  else
    let hAcc := msm (terms.map Prod.fst) (terms.map Prod.snd)
    if hAcc = 0 then none else some hAcc

/-- The domain of the quotient computation. -/
def quotientDomain (backend : PolynomialBackend F) (m : ConstraintMatrices F) :
    Option (EvaluationDomain F) :=
  backend.newDomain m.qapDomainSize <|> backend.newDomain m.qapDomainSize.nextPowerOfTwo

omit [DecidableEq F] in
theorem quotientDomain_of_newDomain {backend : PolynomialBackend F} {m : ConstraintMatrices F}
    {domain : EvaluationDomain F} (created : backend.newDomain m.qapDomainSize = some domain) :
    quotientDomain backend m = some domain := by
  rw [quotientDomain, created]
  rfl

open private Nat.nextPowerOfTwo.go from Init.Data.Nat.Power2.Basic in
theorem le_nextPowerOfTwo (n : ℕ) : n ≤ n.nextPowerOfTwo := by
  have reached (steps : ℕ) : ∀ (power : ℕ) (positive : power > 0), n ≤ power + steps →
      n ≤ Nat.nextPowerOfTwo.go n power positive := by
    induction steps with
    | zero =>
        intro power positive bound
        unfold Nat.nextPowerOfTwo.go
        rw [if_neg (Nat.not_lt.mpr (by omega))]
        omega
    | succ steps ih =>
        intro power positive bound
        unfold Nat.nextPowerOfTwo.go
        split
        case isTrue => exact ih _ _ (by omega)
        case isFalse above => exact Nat.le_of_not_lt above
  exact reached n 1 Nat.one_pos (by omega)

omit [DecidableEq F] in
/-- The domain of the quotient computation has the size that was asked for. -/
theorem qapDomainSize_le_quotientDomain {backend : PolynomialBackend F} {m : ConstraintMatrices F}
    {domain : EvaluationDomain F} (located : quotientDomain backend m = some domain) :
    m.qapDomainSize ≤ domain.size := by
  cases direct : backend.newDomain m.qapDomainSize with
  | some created =>
      rw [quotientDomain, direct] at located
      rw [← Option.some.inj located]
      exact backend.newDomain_fits direct
  | none =>
      rw [quotientDomain, direct] at located
      exact (le_nextPowerOfTwo _).trans (backend.newDomain_fits located)

omit [DecidableEq F] in
/-- The domain of the quotient computation has a row for every constraint. -/
theorem quotientDomain_fits {backend : PolynomialBackend F} {m : ConstraintMatrices F}
    {domain : EvaluationDomain F} (located : quotientDomain backend m = some domain) :
    m.numConstraints ≤ domain.size :=
  (Nat.le_add_right _ _).trans (qapDomainSize_le_quotientDomain located)

/-- The published bases of all active pairs, given the tables. -/
def pairBases (domain : EvaluationDomain F) (m : ConstraintMatrices F) (invNOneMinusOmega : List F)
    (lagrangeSrs qVec : List G1) : HQueryWit G1 :=
  let colA := collectColumns m.numVars domain.size m.a
  let colB := collectColumns m.numVars domain.size m.b
  (activePairs m domain.size).filterMap fun pair =>
    (pairBase (pairTerms domain invNOneMinusOmega lagrangeSrs qVec
      (colA.getD pair.1 []) (colB.getD pair.2 []))).map fun base =>
        (UInt32.ofNat pair.1, UInt32.ofNat pair.2, base)

/-- The audit after the computation looks for an omitted pair among the bases. -/
def hasOmittedPair (m : ConstraintMatrices F) (domainSize : ℕ) (bases : HQueryWit G1) : Bool :=
  bases.any fun entry => entry.1 == 0 && decide (entry.2.1.toNat ∈ omitConstWitCols m domainSize)

/-- `compute_witness_bases` on the matrices of the outer circuit; `none` is a panic. -/
def computeWitnessBases (backend : PolynomialBackend F) (m : ConstraintMatrices F)
    (pk : ProvingKey G1 G2) : Option (HQueryWit G1) := do
  let domain ← quotientDomain backend m
  let lagrangeSrs ← parallelIfftG1 domain (fitLength domain.size pk.hQuery)
  let invNOneMinusOmega ← kernelTable domain
  let qVec ← qVector domain invNOneMinusOmega lagrangeSrs
  let hWit := pairBases domain m invNOneMinusOmega lagrangeSrs qVec
  if hasOmittedPair m domain.size hWit then none else some hWit

end Code

end Pvugc.Outer
