import Pvugc.Algebra.Tabulate

namespace Pvugc.Groth16
open Pvugc.Algebra Finset

/-- The synthesis errors that the generator, the provers and the verifier return. -/
inductive SynthesisError where
  | unsatisfiable
  | polynomialDegreeTooLarge
  | unexpectedIdentity
  | malformedVerifyingKey
  deriving DecidableEq, Repr

/-- A call ends early with a synthesis error or with a panic. -/
inductive Failure where
  | synthesis (error : SynthesisError)
  | panic
  deriving DecidableEq, Repr

@[ext]
structure Proof (G1 G2 : Type*) where
  a : G1
  b : G2
  c : G1
  deriving DecidableEq

@[ext]
structure VerifyingKey (G1 G2 : Type*) where
  alphaG1 : G1
  betaG2 : G2
  gammaG2 : G2
  deltaG2 : G2
  gammaAbcG1 : List G1
  deriving DecidableEq

@[ext]
structure ProvingKey (G1 G2 : Type*) where
  vk : VerifyingKey G1 G2
  betaG1 : G1
  deltaG1 : G1
  aQuery : List G1
  bG1Query : List G1
  bG2Query : List G2
  hQuery : List G1
  lQuery : List G1
  deriving DecidableEq

section Msm

variable {F G : Type*} [AddCommMonoid G] [SMul F G]

/-- `msm_bigint` ignores the tail of the longer argument. -/
def msm (bases : List G) (scalars : List F) : G :=
  (List.zipWith (fun base scalar => scalar • base) bases scalars).sum

theorem msm_tabulate (n : ℕ) (base : ℕ → G) (scalar : ℕ → F) :
    msm (tabulate n base) (tabulate n scalar) = ∑ i ∈ range n, scalar i • base i := by
  rw [msm, tabulate_zipWith, tabulate_sum]

/-- Surplus scalars are ignored. -/
theorem msm_tabulate_of_le {n width : ℕ} (fits : n ≤ width) (base : ℕ → G) (scalar : ℕ → F) :
    msm (tabulate n base) (tabulate width scalar) = ∑ i ∈ range n, scalar i • base i := by
  have truncated : List.zipWith (fun base (scalar : F) => scalar • base) (tabulate n base)
      (tabulate width scalar) = List.zipWith (fun base (scalar : F) => scalar • base)
        (tabulate n base) (tabulate n scalar) := by
    rw [List.zipWith_eq_zipWith_take_min, tabulate_length, tabulate_length, Nat.min_eq_left fits,
      tabulate_take base le_rfl, tabulate_take scalar fits]
  rw [msm, truncated, tabulate_zipWith, tabulate_sum]

/-- Terms kept as pairs of a base and a scalar. -/
theorem msm_pairs (terms : List (G × F)) :
    msm (terms.map Prod.fst) (terms.map Prod.snd) = (terms.map fun term => term.2 • term.1).sum := by
  rw [msm, List.zipWith_map, List.zipWith_self]

/-- Accumulating the multiples of the points one by one adds their multi-scalar sum. -/
theorem foldl_bases (constant : G) (bases : List G) (scalars : List F) :
    (bases.zip scalars).foldl (fun acc (pair : G × F) => acc + pair.2 • pair.1) constant =
      constant + msm bases scalars := by
  rw [foldl_add_eq (fun pair : G × F => pair.2 • pair.1), msm, ← List.map_uncurry_zip_eq_zipWith]
  rfl

theorem foldl_scalars (constant : G) (bases : List G) (scalars : List F) :
    (scalars.zip bases).foldl (fun acc (pair : F × G) => acc + pair.1 • pair.2) constant =
      constant + msm bases scalars := by
  rw [foldl_add_eq (fun pair : F × G => pair.1 • pair.2), msm, List.zipWith_comm,
    ← List.map_uncurry_zip_eq_zipWith]
  rfl

end Msm

end Pvugc.Groth16
