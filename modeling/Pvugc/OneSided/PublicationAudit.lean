import Pvugc.OneSided.Api

namespace Pvugc.OneSided

variable {G2 D : Type} [AddCommGroup G2] [DecidableEq G2] [DecidableEq D] {hashG2 : G2 → D} {delta : G2}

/-- Two columns are unrelated when one of them is the identity or they differ up to the sign. -/
def Unrelated (y y' : G2) : Prop := y ≠ 0 → y' ≠ 0 → y ≠ y' ∧ y ≠ -y'

omit [DecidableEq G2] in
theorem Unrelated.symm {y y' : G2} (unrelated : Unrelated y y') : Unrelated y' y := by
  intro nonzero' nonzero
  obtain ⟨different, opposite⟩ := unrelated nonzero nonzero'
  exact ⟨different.symm, fun same => opposite (by rw [same, neg_neg])⟩

/-- The two hash sets of the audit after the columns `earlier`. -/
def seenHashes (hashG2 : G2 → D) (earlier : List G2) : List D × List D :=
  (earlier.map hashG2, earlier.map fun y => hashG2 (-y))

theorem auditColumn_zero {idx : ℕ} (later : idx ≠ 0) (seen : List D × List D) :
    auditColumn hashG2 delta seen (0, idx) = .ok seen := by
  rw [auditColumn, if_pos ⟨later, rfl⟩]

/-- A column that is not the identity passes when it is unrelated to `delta` and to the earlier columns,
and joins both sets. -/
theorem auditColumn_nonzero (delta : G2) (injective : Function.Injective hashG2) {y : G2} (nonzero : y ≠ 0) (idx : ℕ)
    (earlier : List G2) :
    ((y ≠ delta ∧ y ≠ -delta) ∧ (∀ x ∈ earlier, y ≠ x ∧ y ≠ -x) →
      auditColumn hashG2 delta (seenHashes hashG2 earlier) (y, idx) =
        .ok (seenHashes hashG2 (y :: earlier))) ∧
    (¬((y ≠ delta ∧ y ≠ -delta) ∧ ∀ x ∈ earlier, y ≠ x ∧ y ≠ -x) →
      ∃ fault, auditColumn hashG2 delta (seenHashes hashG2 earlier) (y, idx) = .error fault) := by
  have isDelta : (hashG2 y = hashG2 delta ∨ hashG2 y = hashG2 (-delta)) ↔ (y = delta ∨ y = -delta) := by
    rw [injective.eq_iff, injective.eq_iff]
  have isSeen : hashG2 y ∈ (seenHashes hashG2 earlier).1 ↔ y ∈ earlier := List.mem_map_of_injective injective
  have isSeenNeg : hashG2 y ∈ (seenHashes hashG2 earlier).2 ↔ ∃ x ∈ earlier, y = -x := by
    simp only [seenHashes, List.mem_map, injective.eq_iff, eq_comm]
  rw [auditColumn, if_neg (fun identity => nonzero identity.2)]
  dsimp only
  simp only [isDelta, isSeen, isSeenNeg]
  constructor
  · intro clean
    obtain ⟨⟨notDelta, notNeg⟩, fresh⟩ := clean
    rw [if_neg (by simp [notDelta, notNeg]), if_neg (fun seen => (fresh y seen).1 rfl), if_neg]
    · rfl
    · intro related
      obtain ⟨x, member, same⟩ := related
      exact (fresh x member).2 same
  · intro related
    split
    case isTrue => exact ⟨_, rfl⟩
    case isFalse notDelta =>
      split
      case isTrue => exact ⟨_, rfl⟩
      case isFalse notSeen =>
        split
        case isTrue => exact ⟨_, rfl⟩
        case isFalse notSeenNeg =>
          rw [not_or] at notDelta
          exact absurd ⟨notDelta, fun x member =>
            ⟨fun same => notSeen (same ▸ member), fun same => notSeenNeg ⟨x, member, same⟩⟩⟩ related

/-- The loop of the audit ends when no column is related to `delta`, to a column before the loop or to
another column. -/
theorem auditColumns_iff (delta : G2) (injective : Function.Injective hashG2) (cols : List G2) (start : ℕ)
    (leads : start = 0 → cols.head? ≠ some 0) (earlier : List G2) :
    (∃ seen, (cols.zipIdx start).foldlM (auditColumn hashG2 delta) (seenHashes hashG2 earlier) = .ok seen) ↔
      (∀ y ∈ cols, y ≠ 0 → (y ≠ delta ∧ y ≠ -delta) ∧ ∀ x ∈ earlier, y ≠ x ∧ y ≠ -x) ∧
        cols.Pairwise Unrelated := by
  induction cols generalizing start earlier with
  | nil => simp [pure, Except.pure]
  | cons y rest ih =>
      have next := ih (start + 1) (by omega)
      rw [List.zipIdx_cons, List.foldlM_cons, List.pairwise_cons, List.forall_mem_cons]
      by_cases identity : y = 0
      · subst identity
        have later : start ≠ 0 := fun first => leads first rfl
        rw [auditColumn_zero later]
        simp only [bind, Except.bind, next]
        simp [Unrelated]
      · obtain ⟨passes, fails⟩ := auditColumn_nonzero delta injective identity start earlier
        by_cases clean : (y ≠ delta ∧ y ≠ -delta) ∧ ∀ x ∈ earlier, y ≠ x ∧ y ≠ -x
        · rw [passes clean]
          simp only [bind, Except.bind, next, List.forall_mem_cons]
          constructor
          · intro accepted
            obtain ⟨columns, pairs⟩ := accepted
            refine ⟨⟨fun _ => clean, fun x member nonzero =>
              ⟨(columns x member nonzero).1, (columns x member nonzero).2.2⟩⟩, ?_, pairs⟩
            intro x member
            exact Unrelated.symm fun nonzero _ => (columns x member nonzero).2.1
          · intro unrelated
            obtain ⟨⟨-, columns⟩, first, pairs⟩ := unrelated
            refine ⟨?_, pairs⟩
            intro x member nonzero
            exact ⟨(columns x member nonzero).1, (first x member).symm nonzero identity,
              (columns x member nonzero).2⟩
        · obtain ⟨fault, failed⟩ := fails clean
          rw [failed]
          simp only [bind, Except.bind, reduceCtorEq, exists_false, false_iff]
          intro accepted
          exact clean (accepted.1.1 identity)

theorem validateSubgroups_eq_ok (modulus : ℕ) (bases : ColumnBases G2) :
    bases.validateSubgroups modulus = .ok () ↔
      (∀ y ∈ bases.yCols, modulus • y = 0) ∧ bases.delta ≠ 0 ∧ modulus • bases.delta = 0 := by
  have good (g : G2) : isGood modulus g = true ↔ modulus • g = 0 := by
    rw [isGood, Bool.or_eq_true, decide_eq_true_eq, decide_eq_true_eq]
    exact or_iff_right_of_imp fun identity => by rw [identity, smul_zero]
  rw [ColumnBases.validateSubgroups]
  simp only [List.any_eq_true, Bool.not_eq_eq_eq_not, Bool.not_true, Bool.eq_false_iff, ne_eq, good]
  split
  case isTrue outside =>
    obtain ⟨y, member, wrong⟩ := outside
    simp only [reduceCtorEq, false_iff]
    exact fun all => wrong (all.1 y member)
  case isFalse inside =>
    push Not at inside
    split
    case isTrue zero => simp [zero]
    case isFalse nonzero =>
      split
      case isTrue wrong => simp [wrong]
      case isFalse right => simpa using ⟨inside, nonzero, not_not.mp right⟩

/-- The publication audit passes exactly the bases it is meant for, when the hash of the serialized
points is injective. -/
theorem auditStatementOnlyBasesForPublication_iff (injective : Function.Injective hashG2) (modulus : ℕ)
    (bases : ColumnBases G2) :
    auditStatementOnlyBasesForPublication modulus hashG2 bases = .ok () ↔
      bases.yCols ≠ [] ∧ bases.yCols.head? ≠ some 0 ∧ bases.delta ≠ 0 ∧
      (∀ y ∈ bases.yCols, modulus • y = 0) ∧ modulus • bases.delta = 0 ∧
      (∀ i j, i ≠ j → bases.yCols.get i ≠ 0 → bases.yCols.get j ≠ 0 →
        bases.yCols.get i ≠ bases.yCols.get j ∧ bases.yCols.get i ≠ -bases.yCols.get j) ∧
      ∀ y ∈ bases.yCols, y ≠ 0 → y ≠ bases.delta ∧ y ≠ -bases.delta := by
  have pairwise : bases.yCols.Pairwise Unrelated ↔
      ∀ i j, i ≠ j → Unrelated (bases.yCols.get i) (bases.yCols.get j) := by
    rw [List.pairwise_iff_get]
    constructor
    · intro ordered i j different
      rcases lt_or_gt_of_ne different with before | after
      · exact ordered i j before
      · exact (ordered j i after).symm
    · intro all i j before
      exact all i j before.ne
  have subgroups := validateSubgroups_eq_ok modulus bases
  have columns := auditColumns_iff bases.delta injective bases.yCols 0
  simp only [Unrelated] at pairwise
  rw [auditStatementOnlyBasesForPublication]
  cases validated : bases.validateSubgroups modulus with
  | error fault =>
      rw [validated] at subgroups
      simp only [reduceCtorEq, false_iff] at subgroups ⊢
      exact fun all => subgroups ⟨all.2.2.2.1, all.2.2.1, all.2.2.2.2.1⟩
  | ok =>
      obtain ⟨inside, nonzero, deltaInside⟩ := subgroups.mp validated
      cases listed : bases.yCols with
      | nil => simp
      | cons publicLeg rest =>
          dsimp only
          rw [← listed]
          by_cases identity : publicLeg = 0
          · rw [if_pos identity, listed, identity]
            simp
          · have leads : bases.yCols.head? ≠ some 0 := by
              rw [listed]
              simpa using identity
            have loop := columns (fun _ => leads) []
            simp only [List.not_mem_nil, false_imp_iff, forall_true_iff, and_true, pairwise] at loop
            have start : seenHashes hashG2 ([] : List G2) = ([], []) := rfl
            rw [if_neg identity, if_neg nonzero, ← start]
            have nonempty : bases.yCols ≠ [] := by simp [listed]
            cases audited : (bases.yCols.zipIdx 0).foldlM (auditColumn hashG2 bases.delta)
                (seenHashes hashG2 []) with
            | error fault =>
                rw [audited] at loop
                simp only [reduceCtorEq, exists_false, false_iff] at loop ⊢
                exact fun all => loop ⟨all.2.2.2.2.2.2, all.2.2.2.2.2.1⟩
            | ok seen =>
                obtain ⟨apart, pairs⟩ := loop.mp ⟨seen, audited⟩
                simp only [true_iff]
                exact ⟨nonempty, leads, nonzero, inside, deltaInside, pairs, apart⟩

theorem auditStatementOnlyBasesForPublication_identityColumns :
    auditStatementOnlyBasesForPublication 13 id
      ({ yCols := [6, 0, 2, 0, 3], delta := 1 } : ColumnBases (ZMod 13)) = .ok () :=
  (auditStatementOnlyBasesForPublication_iff Function.injective_id 13 _).mpr
    ⟨by decide, by decide, by decide, by decide, by decide, by decide, by decide⟩

end Pvugc.OneSided
