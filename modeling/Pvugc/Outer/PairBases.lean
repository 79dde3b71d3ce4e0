import Pvugc.Outer.StandardLean

namespace Pvugc.Outer
open Pvugc.Algebra Pvugc.Groth16 Finset

section Pipeline

variable {F G : Type} [Field F] [AddCommGroup G] [Module F G]

/-- On lists of the domain's length the group transforms are the discrete Fourier transform and its
two-sided inverse, and the pipeline of the diagonal quotients is a correlation. -/
theorem groupFft_pipeline {domain : EvaluationDomain F} {L : ℕ} (size : domain.size = 2 ^ L)
    {a : List G} (aLength : a.length = domain.size) {u : List F} (uLength : u.length = domain.size) :
    parallelFftG1 domain a =
        some (tabulate domain.size (dft domain.groupGen domain.size (a.getD · 0))) ∧
      parallelFftScalar domain u =
        some (tabulate domain.size (dft domain.groupGen domain.size (u.getD · 0))) ∧
      (parallelFftG1 domain a).bind (parallelIfftG1 domain) = some a ∧
      (parallelIfftG1 domain a).bind (parallelFftG1 domain) = some a ∧
      qVector domain u a = some (tabulate domain.size fun k => ∑ j ∈ range domain.size,
        u.getD ((j + domain.size - k) % domain.size) 0 • a.getD j 0) := by
  have aEntries : tabulate domain.size (a.getD · 0) = a := by
    rw [← aLength]
    exact tabulate_of_list a 0
  have uEntries : tabulate domain.size (u.getD · 0) = u := by
    rw [← uLength]
    exact tabulate_of_list u 0
  have forward := parallelFftG1_tabulate domain size (a.getD · 0)
  have backward := parallelIfftG1_tabulate domain size (a.getD · 0)
  have scalar := parallelFftG1_tabulate domain size (u.getD · 0)
  have correlation := qVector_tabulate size (u.getD · 0) (a.getD · 0)
  rw [aEntries] at forward backward
  rw [uEntries] at scalar
  rw [aEntries, uEntries] at correlation
  refine ⟨forward, scalar, ?_, ?_, correlation⟩
  · rw [forward, Option.bind_some, parallelIfftG1_tabulate domain size, ← aEntries]
    congr 1
    apply tabulate_congr
    intro k inside
    rw [idft_dft domain.primitive _ inside, aEntries]
  · rw [backward, Option.bind_some, parallelFftG1_tabulate domain size, ← aEntries]
    congr 1
    apply tabulate_congr
    intro k inside
    rw [dft_idft domain.primitive _ inside, aEntries]

theorem groupFft_pipeline_fourthRoots :
    qVector fourthRoots ([5, 6, 7, 8] : List (ZMod 13)) ([1, 2, 3, 4] : List (ZMod 13)) =
      some [5 * 1 + 6 * 2 + 7 * 3 + 8 * 4, 8 * 1 + 5 * 2 + 6 * 3 + 7 * 4,
        7 * 1 + 8 * 2 + 5 * 3 + 6 * 4, 6 * 1 + 7 * 2 + 8 * 3 + 5 * 4] :=
  (groupFft_pipeline (L := 2) rfl rfl rfl).2.2.2.2.trans (by decide)

end Pipeline

section FullTables

variable {F G : Type} [Field F] [AddCommGroup G] [Module F G] {domain : EvaluationDomain F}

/-- The diagonal vector that the convolution returns for a sequence of bases. -/
def diagonals (domain : EvaluationDomain F) (bases : ℕ → G) : List G :=
  tabulate domain.size fun k => ∑ j ∈ range domain.size,
    kernel domain.groupGen domain.size ((j + domain.size - k) % domain.size) • bases j

/-- A multiple of the nodes in the table of bases leaves every contribution as it is. -/
theorem contribution_add_nodes (two : (2 : F) ≠ 0) (s : ℕ → F) (top : F) (g : G) {left right : ℕ × F}
    (leftInside : left.1 < domain.size) (rightInside : right.1 < domain.size) :
    contribution domain (tabulate domain.size (kernel domain.groupGen domain.size))
        ((tabulate domain.size fun k => (s k + top * domain.groupGen ^ k) • g).getD · 0)
        ((diagonals domain fun k => (s k + top * domain.groupGen ^ k) • g).getD · 0) left right =
      contribution domain (tabulate domain.size (kernel domain.groupGen domain.size))
        ((tabulate domain.size fun k => s k • g).getD · 0)
        ((diagonals domain fun k => s k • g).getD · 0) left right := by
  obtain ⟨k, x⟩ := left
  obtain ⟨l, y⟩ := right
  dsimp only at leftInside rightInside
  by_cases same : k = l
  · subst same
    have nodes := sum_kernel_offset domain.primitive two leftInside
    have extra : ∑ j ∈ range domain.size, kernel domain.groupGen domain.size
        ((j + domain.size - k) % domain.size) * (s j + top * domain.groupGen ^ j) =
          ∑ j ∈ range domain.size, kernel domain.groupGen domain.size
            ((j + domain.size - k) % domain.size) * s j := by
      calc ∑ j ∈ range domain.size, kernel domain.groupGen domain.size
            ((j + domain.size - k) % domain.size) * (s j + top * domain.groupGen ^ j)
          = ∑ j ∈ range domain.size, kernel domain.groupGen domain.size
              ((j + domain.size - k) % domain.size) * s j +
            top * ∑ j ∈ range domain.size, kernel domain.groupGen domain.size
              ((j + domain.size - k) % domain.size) * domain.groupGen ^ j := by
            rw [mul_sum, ← sum_add_distrib]
            apply sum_congr rfl
            intro j _
            ring
        _ = _ := by rw [nodes, mul_zero, add_zero]
    rw [contribution, contribution, if_pos rfl, if_pos rfl, diagonals, diagonals,
      tabulate_getD _ leftInside, tabulate_getD _ leftInside]
    simp only [smul_smul, ← sum_smul]
    rw [extra]
  · rw [contribution, contribution, if_neg same, if_neg same]
    dsimp only
    rw [tabulate_getD _ leftInside, tabulate_getD _ leftInside, tabulate_getD _ rightInside,
      tabulate_getD _ rightInside, smul_smul, smul_smul, smul_smul, smul_smul, ← sub_smul, ← sub_smul]
    congr 1
    rw [EvaluationDomain.element, EvaluationDomain.element]
    ring

/-- A multiple of the nodes in the table of bases leaves every published base as it is. -/
theorem pairBases_add_nodes [DecidableEq F] [DecidableEq G] (domain : EvaluationDomain F)
    (m : ConstraintMatrices F) (two : (2 : F) ≠ 0) (s : ℕ → F) (top : F) (g : G) :
    pairBases domain m (tabulate domain.size (kernel domain.groupGen domain.size))
        (tabulate domain.size fun k => (s k + top * domain.groupGen ^ k) • g)
        (diagonals domain fun k => (s k + top * domain.groupGen ^ k) • g) =
      pairBases domain m (tabulate domain.size (kernel domain.groupGen domain.size))
        (tabulate domain.size fun k => s k • g) (diagonals domain fun k => s k • g) := by
  have rowsA := (collectColumns_spec (M := G) m.numVars domain.size m.a).1
  have rowsB := (collectColumns_spec (M := G) m.numVars domain.size m.b).1
  apply List.filterMap_congr
  intro pair _
  have terms : ((collectColumns m.numVars domain.size m.a).getD pair.1 []).map (fun left =>
      (((collectColumns m.numVars domain.size m.b).getD pair.2 []).map fun right =>
        contribution domain (tabulate domain.size (kernel domain.groupGen domain.size))
          ((tabulate domain.size fun k => (s k + top * domain.groupGen ^ k) • g).getD · 0)
          ((diagonals domain fun k => (s k + top * domain.groupGen ^ k) • g).getD · 0)
          left right).sum) =
      ((collectColumns m.numVars domain.size m.a).getD pair.1 []).map (fun left =>
        (((collectColumns m.numVars domain.size m.b).getD pair.2 []).map fun right =>
          contribution domain (tabulate domain.size (kernel domain.groupGen domain.size))
            ((tabulate domain.size fun k => s k • g).getD · 0)
            ((diagonals domain fun k => s k • g).getD · 0) left right).sum) := by
    apply List.map_congr_left
    intro left leftMember
    congr 1
    apply List.map_congr_left
    intro right rightMember
    exact contribution_add_nodes two s top g (columnRows_lt rowsA left leftMember)
      (columnRows_lt rowsB right rightMember)
  rw [pairBase_eq, pairBase_eq, pairTerms_sum, pairTerms_sum, terms]

end FullTables

end Pvugc.Outer

namespace Pvugc.Groth16.Trapdoor
open Pvugc.Algebra Pvugc.Outer Finset

variable {F G1 G2 : Type} [Field F] [AddCommGroup G1] [Module F G1] [AddCommGroup G2] [Module F G2]
variable (waste : Trapdoor F) (domain : EvaluationDomain F)

/-- The quotient query with every power of `tau` below the size of the domain. -/
def fullQuery (g1 : G1) : List G1 :=
  tabulate domain.size fun i => (waste.vanishing domain * waste.delta⁻¹ * waste.tau ^ i) • g1

/-- What the missing top power takes from the Lagrange bases, in multiples of the nodes. -/
def topScalar : F :=
  waste.vanishing domain * waste.delta⁻¹ * ((domain.size : F)⁻¹ * waste.tau ^ (domain.size - 1))

theorem lagrangeSrs_fullQuery {L : ℕ} (size : domain.size = 2 ^ L) (g1 : G1) :
    parallelIfftG1 domain (fitLength domain.size (waste.fullQuery domain g1)) =
      some (tabulate domain.size fun k =>
        (waste.srsScalar domain k + waste.topScalar domain * domain.groupGen ^ k) • g1) := by
  have whole : fitLength domain.size (waste.fullQuery domain g1) = waste.fullQuery domain g1 := by
    rw [fitLength, fullQuery, tabulate_length, if_neg (lt_irrefl _), List.take_of_length_le (by simp)]
  rw [whole, fullQuery, parallelIfftG1_tabulate domain size]
  congr 1
  apply tabulate_congr
  intro k _
  have scalars : idft domain.groupGen domain.size
      (fun i => (waste.vanishing domain * waste.delta⁻¹ * waste.tau ^ i) • g1) k =
        (waste.vanishing domain * waste.delta⁻¹ *
          lagrange domain.groupGen domain.size k waste.tau) • g1 := by
    rw [idft, dft, lagrange]
    simp only [smul_smul, ← sum_smul]
    congr 1
    rw [mul_sum, mul_sum, mul_sum]
    apply sum_congr rfl
    intro i _
    ring
  rw [scalars, srsScalar, topScalar]
  congr 1
  ring

variable [DecidableEq F] [DecidableEq G1] {backend : PolynomialBackend F} {m : ConstraintMatrices F}
variable {waste domain}

/-- The entry that the padded query lacks does not change the witness bases. -/
theorem computeWitnessBases_fullQuery (created : backend.newDomain m.qapDomainSize = some domain) {L : ℕ}
    (size : domain.size = 2 ^ L) (g1 : G1) (g2 : G2) :
    computeWitnessBases backend m
        { waste.provingKey domain m g1 g2 with hQuery := waste.fullQuery domain g1 } =
      computeWitnessBases backend m (waste.provingKey domain m g1 g2) := by
  have located := quotientDomain_of_newDomain created
  rw [computeWitnessBases, computeWitnessBases, located]
  simp only [Option.bind_eq_bind, Option.bind_some]
  rw [lagrangeSrs_fullQuery waste domain size, lagrangeSrs_eq waste domain m size, kernelTable_eq]
  simp only [Option.bind_some]
  split
  case isTrue => rfl
  case isFalse invertible =>
    have two := domain.doubledSize_ne_zero_iff.mp invertible
    have bases := pairBases_add_nodes domain m two (waste.srsScalar domain)
      (waste.topScalar domain) g1
    simp only [Option.bind_some]
    rw [qVector_tabulate size, qVector_tabulate size]
    simp only [Option.bind_some]
    rw [← diagonals, ← diagonals, bases]

end Pvugc.Groth16.Trapdoor

namespace Pvugc.Outer
open Pvugc.Algebra Pvugc.Groth16 Finset

section Exact

variable {F G1 G2 : Type} [Field F] [DecidableEq F] [AddCommGroup G1] [Module F G1] [DecidableEq G1]
variable [AddCommGroup G2] [Module F G2]

/-- The computation only stops on a domain whose doubled size vanishes in the field. It returns the
quotient base of every active pair up to the identities, the same bases as with the full quotient
query, and no combination of Lagrange polynomials that it uses has a top coefficient. -/
theorem computeWitnessBases_pairs {backend : PolynomialBackend F} {m : ConstraintMatrices F}
    {domain : EvaluationDomain F} (created : backend.newDomain m.qapDomainSize = some domain) {L : ℕ}
    (size : domain.size = 2 ^ L) {waste : Trapdoor F} (outside : waste.tau ^ domain.size ≠ 1)
    (fits : m.numVars ≤ 2 ^ 32) (g1 : G1) (g2 : G2) :
    (computeWitnessBases backend m (waste.provingKey domain m g1 g2) = none ↔
      (domain.size : F) + domain.size = 0) ∧
    (∀ bases, computeWitnessBases backend m (waste.provingKey domain m g1 g2) = some bases →
      (∀ stored ∈ bases, stored.2.2 =
        ((waste.u domain m stored.1.toNat * waste.v domain m stored.2.1.toNat -
          waste.overlap domain m stored.1.toNat stored.2.1.toNat) * waste.delta⁻¹) • g1) ∧
      ∀ pair ∈ activePairs m domain.size,
        (∀ stored ∈ bases, (stored.1.toNat, stored.2.1.toNat) ≠ pair) →
          ((waste.u domain m pair.1 * waste.v domain m pair.2 -
            waste.overlap domain m pair.1 pair.2) * waste.delta⁻¹) • g1 = 0) ∧
    computeWitnessBases backend m
        { waste.provingKey domain m g1 g2 with hQuery := waste.fullQuery domain g1 } =
      computeWitnessBases backend m (waste.provingKey domain m g1 g2) ∧
    ((2 : F) ≠ 0 → ∀ k < domain.size,
      (∀ l < domain.size, domain.element l * lagrangeTop domain.groupGen domain.size k -
        domain.element k * lagrangeTop domain.groupGen domain.size l = 0) ∧
      ∑ j ∈ range domain.size, kernel domain.groupGen domain.size ((j + domain.size - k) % domain.size) *
        lagrangeTop domain.groupGen domain.size j = 0) := by
  have value := Trapdoor.computeWitnessBases_eq created size outside g1 g2
  rw [hasOmittedPair_publishedBases waste domain g1 fits] at value
  have index {pair : ℕ × ℕ} (active : pair ∈ activePairs m domain.size) :
      (UInt32.ofNat pair.1).toNat = pair.1 ∧ (UInt32.ofNat pair.2).toNat = pair.2 := by
    obtain ⟨left, right⟩ := activePairs_lt active
    exact ⟨UInt32.toNat_ofNat_of_lt' (left.trans_le fits),
      UInt32.toNat_ofNat_of_lt' (right.trans_le fits)⟩
  refine ⟨?_, ?_, Trapdoor.computeWitnessBases_fullQuery created size g1 g2, ?_⟩
  · rw [value]
    split <;> simp_all
  · intro bases computed
    have published := computeWitnessBases_published created outside computed
    subst published
    constructor
    · intro stored member
      obtain ⟨pair, active, located⟩ := List.mem_filterMap.mp member
      split at located
      case isTrue => cases located
      case isFalse =>
        cases located
        rw [(index active).1, (index active).2]
        rfl
    · intro pair active missing
      by_contra nonzero
      apply missing _ (List.mem_filterMap.mpr ⟨pair, active, if_neg nonzero⟩)
      rw [(index active).1, (index active).2]
  · intro two k inside
    constructor
    · intro l _
      exact lagrangeTop_cross domain.primitive domain.positive k l
    · exact lagrangeTop_correlation domain.primitive two inside

end Exact

/-- The pair of the wrapped column is stored under the first witness column, whose base is zero. -/
theorem computeWitnessBases_pairs_wrapped : ∃ bases : HQueryWit (ZMod 13),
    computeWitnessBases smallBackend wrappedSystem wrappedPk = some bases ∧
    ∃ stored ∈ bases, stored.2.2 ≠
      ((smallWaste.u fourthRoots wrappedSystem stored.1.toNat *
        smallWaste.v fourthRoots wrappedSystem stored.2.1.toNat -
          smallWaste.overlap fourthRoots wrappedSystem stored.1.toNat stored.2.1.toNat) *
            smallWaste.delta⁻¹) • (1 : ZMod 13) := by
  have occurs : 2 ^ 32 + 1 ∈ occurringColumns wrappedSystem.numVars fourthRoots.size
      [[((1 : ZMod 13), 0)], [(1, 2 ^ 32 + 1)]] :=
    mem_occurringColumns.mpr ⟨by decide, [(1, 2 ^ 32 + 1)], by simp [fourthRoots], (1, 2 ^ 32 + 1),
      by simp, rfl⟩
  have active : (2 ^ 32 + 1, 2 ^ 32 + 1) ∈ activePairs wrappedSystem fourthRoots.size :=
    mem_activePairs.mpr ⟨occurs, occurs, by decide, by decide⟩
  have nonzero : smallWaste.quotientBase fourthRoots wrappedSystem (1 : ZMod 13) (2 ^ 32 + 1) (2 ^ 32 + 1) ≠
      0 := by
    decide +kernel
  have first : ((smallWaste.u fourthRoots wrappedSystem 1 * smallWaste.v fourthRoots wrappedSystem 1 -
      smallWaste.overlap fourthRoots wrappedSystem 1 1) * smallWaste.delta⁻¹) • (1 : ZMod 13) = 0 := by
    decide +kernel
  refine ⟨_, wrappedSystem_computed, _, List.mem_filterMap.mpr ⟨_, active, if_neg nonzero⟩, ?_⟩
  dsimp only
  rw [show (UInt32.ofNat (2 ^ 32 + 1)).toNat = 1 by decide, first]
  exact nonzero

theorem computeWitnessBases_pairs_boundSquare :
    computeWitnessBases smallBackend boundSquare boundSquarePk = some
      (smallWaste.publishedBases fourthRoots boundSquare 1) ∧
    ∀ stored ∈ smallWaste.publishedBases fourthRoots boundSquare (1 : ZMod 13), stored.2.2 =
      ((smallWaste.u fourthRoots boundSquare stored.1.toNat *
        smallWaste.v fourthRoots boundSquare stored.2.1.toNat -
          smallWaste.overlap fourthRoots boundSquare stored.1.toNat stored.2.1.toNat) *
            smallWaste.delta⁻¹) • (1 : ZMod 13) := by
  have created : smallBackend.newDomain boundSquare.qapDomainSize = some fourthRoots := rfl
  have size : fourthRoots.size = 2 ^ 2 := rfl
  have outside : smallWaste.tau ^ fourthRoots.size ≠ 1 := by decide
  obtain ⟨_, pairs, _, _⟩ := computeWitnessBases_pairs created size outside (by decide) (1 : ZMod 13)
    (1 : ZMod 13)
  exact ⟨boundSquare_computed, (pairs _ boundSquare_computed).1⟩

end Pvugc.Outer
