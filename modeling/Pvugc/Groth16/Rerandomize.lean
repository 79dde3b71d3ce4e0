import Pvugc.Groth16.Completeness

namespace Pvugc.Groth16

section Code

variable {F G1 G2 : Type} [Field F] [DecidableEq F] [AddCommGroup G1] [Module F G1] [AddCommGroup G2] [Module F G2]

/-- The loop draws two factors until both are nonzero. -/
def drawFactors (draws : List (F × F)) : Option (F × F) := draws.find? fun factors => factors.1 ≠ 0 ∧ factors.2 ≠ 0

/-- The three new points of `rerandomize_proof`. -/
def rerandomizeWith (vk : VerifyingKey G1 G2) (proof : Proof G1 G2) (r1 r2 : F) : Proof G1 G2 where
  a := r1⁻¹ • proof.a
  b := r1 • proof.b + (r1 * r2) • vk.deltaG2
  c := proof.c + r2 • proof.a

/-- `rerandomize_proof` on the scalars that it draws; `none` is a loop that has not ended yet. -/
def rerandomizeProof (vk : VerifyingKey G1 G2) (proof : Proof G1 G2) (draws : List (F × F)) :
    Option (Proof G1 G2) :=
  (drawFactors draws).map fun factors => rerandomizeWith vk proof factors.1 factors.2

end Code

namespace Pairing

variable {F G1 G2 GT : Type} [Field F] [AddCommGroup G1] [Module F G1] [AddCommGroup G2] [Module F G2]
variable [AddCommGroup GT] [Module F GT]

/-- Each group is generated by one point, and the two points do not pair to the identity. -/
structure PrimeOrder (e : Pairing F G1 G2 GT) (g1 : G1) (g2 : G2) : Prop where
  generates1 : ∀ p : G1, ∃ c : F, c • g1 = p
  generates2 : ∀ q : G2, ∃ c : F, c • g2 = q
  free : e.pairing g1 g2 ≠ 0

variable {e : Pairing F G1 G2 GT} {g1 : G1} {g2 : G2}

/-- A nonzero point of a group with one generator is a generator. -/
theorem exists_smul_of_generator {G : Type} [AddCommGroup G] [Module F G] {g : G}
    (generates : ∀ p : G, ∃ c : F, c • g = p) {base : G} (nonzero : base ≠ 0) (p : G) : ∃ c : F, c • base = p := by
  obtain ⟨x, rfl⟩ := generates base
  obtain ⟨y, rfl⟩ := generates p
  have invertible : x ≠ 0 := by
    rintro rfl
    exact nonzero (zero_smul F g)
  exact ⟨y * x⁻¹, by rw [smul_smul, inv_mul_cancel_right₀ invertible]⟩

/-- Pairing with a nonzero point is injective. -/
theorem PrimeOrder.eq_zero_of_pairing (order : e.PrimeOrder g1 g2) {p : G1} {q : G2} (nonzero : q ≠ 0)
    (zero : e.pairing p q = 0) : p = 0 := by
  obtain ⟨x, rfl⟩ := order.generates1 p
  obtain ⟨y, rfl⟩ := order.generates2 q
  rw [e.smul_left_right, smul_eq_zero_iff_left order.free, mul_eq_zero] at zero
  rcases zero with zero | zero
  · rw [zero, zero_smul]
  · exact absurd (by rw [zero, zero_smul]) nonzero

end Pairing

section Equation

variable {F G1 G2 GT : Type} [Field F] [AddCommGroup G1] [Module F G1] [AddCommGroup G2] [Module F G2]
variable [AddCommGroup GT] [Module F GT] (e : Pairing F G1 G2 GT) (vk : VerifyingKey G1 G2)

/-- What the verifier reads of a proof, apart from its inputs. -/
def proofTerm (proof : Proof G1 G2) : GT := e.pairing proof.a proof.b - e.pairing proof.c vk.deltaG2

theorem proofTerm_rerandomizeWith (proof : Proof G1 G2) {r1 : F} (nonzero : r1 ≠ 0) (r2 : F) :
    proofTerm e vk (rerandomizeWith vk proof r1 r2) = proofTerm e vk proof := by
  have product : e.pairing (r1⁻¹ • proof.a) (r1 • proof.b + (r1 * r2) • vk.deltaG2) =
      e.pairing proof.a proof.b + r2 • e.pairing proof.a vk.deltaG2 := by
    rw [e.add_right, e.smul_left_right, e.smul_left_right, inv_mul_cancel₀ nonzero, one_smul,
      inv_mul_cancel_left₀ nonzero]
  rw [proofTerm, rerandomizeWith, product, e.add_left, e.smul_left, proofTerm]
  abel

variable [DecidableEq GT] (publicInputs : List F)

/-- The verifier compares the term of the proof with a value of the key and the inputs. -/
theorem verify_eq_proofTerm (proof : Proof G1 G2) :
    verify e vk publicInputs proof = (prepareInputs vk publicInputs).map fun gIc =>
      decide (proofTerm e vk proof = e.pairing vk.alphaG1 vk.betaG2 + e.pairing gIc vk.gammaG2) := by
  rw [verify]
  cases prepareInputs vk publicInputs with
  | error error => rfl
  | ok gIc =>
      refine congrArg Except.ok (decide_eq_decide.mpr ?_)
      rw [e.neg_right, e.neg_right, proofTerm, ← sub_eq_add_neg, ← sub_eq_add_neg, sub_right_comm, sub_eq_iff_eq_add]

theorem verify_rerandomizeWith (proof : Proof G1 G2) {r1 : F} (nonzero : r1 ≠ 0) (r2 : F) :
    verify e vk publicInputs (rerandomizeWith vk proof r1 r2) = verify e vk publicInputs proof := by
  rw [verify_eq_proofTerm, verify_eq_proofTerm, proofTerm_rerandomizeWith e vk proof nonzero]

end Equation

section Action

variable {F G1 G2 GT : Type} [Field F] [AddCommGroup G1] [Module F G1] [AddCommGroup G2] [Module F G2]
variable {vk : VerifyingKey G1 G2} {proof : Proof G1 G2}

/-- Different factors give different proofs. -/
theorem rerandomizeWith_inj (delta : vk.deltaG2 ≠ 0) (nonzero : proof.a ≠ 0) {r1 s1 r2 s2 : F} (left : r1 ≠ 0)
    (same : rerandomizeWith vk proof r1 r2 = rerandomizeWith vk proof s1 s2) : r1 = s1 ∧ r2 = s2 := by
  have first : r1 = s1 := inv_injective (smul_left_injective F nonzero (congrArg Proof.a same))
  subst first
  have second := add_left_cancel (congrArg Proof.b same)
  exact ⟨rfl, mul_left_cancel₀ left (smul_left_injective F delta second)⟩

variable [AddCommGroup GT] [Module F GT] {e : Pairing F G1 G2 GT} {g1 : G1} {g2 : G2}

/-- Two proofs with the same term are related by one pair of factors. -/
theorem exists_rerandomizeWith (order : e.PrimeOrder g1 g2) (delta : vk.deltaG2 ≠ 0) {proof' : Proof G1 G2}
    (nonzero : proof.a ≠ 0) (nonzero' : proof'.a ≠ 0) (same : proofTerm e vk proof' = proofTerm e vk proof) :
    ∃ r1 r2 : F, r1 ≠ 0 ∧ proof' = rerandomizeWith vk proof r1 r2 := by
  obtain ⟨r1, first⟩ := Pairing.exists_smul_of_generator order.generates1 nonzero' proof.a
  have invertible : r1 ≠ 0 := by
    rintro rfl
    exact nonzero (by rw [← first, zero_smul])
  have a : proof'.a = r1⁻¹ • proof.a := by rw [← first, inv_smul_smul₀ invertible]
  obtain ⟨shift, second⟩ := Pairing.exists_smul_of_generator order.generates2 delta (proof'.b - r1 • proof.b)
  have b : proof'.b = r1 • proof.b + (r1 * (r1⁻¹ * shift)) • vk.deltaG2 := by
    rw [mul_inv_cancel_left₀ invertible, second, add_sub_cancel]
  refine ⟨r1, r1⁻¹ * shift, invertible, ?_⟩
  -- The equation of the verifier leaves one third point.
  have term := same.trans (proofTerm_rerandomizeWith e vk proof invertible (r1⁻¹ * shift)).symm
  have pairs : e.pairing (proof'.c - (rerandomizeWith vk proof r1 (r1⁻¹ * shift)).c) vk.deltaG2 = 0 := by
    rw [proofTerm, proofTerm, a, b] at term
    rw [e.sub_left, sub_eq_zero]
    exact sub_right_injective term
  have c := sub_eq_zero.mp (order.eq_zero_of_pairing delta pairs)
  obtain ⟨_, _, _⟩ := proof'
  exact (Proof.mk.injEq ..).mpr ⟨a, b, c⟩

end Action

section Reached

variable {F G1 G2 GT : Type} [Field F] [DecidableEq F] [AddCommGroup G1] [Module F G1] [AddCommGroup G2] [Module F G2]
variable {vk : VerifyingKey G1 G2} {proof proof' : Proof G1 G2}

theorem rerandomizeProof_eq_some {draws : List (F × F)} (returned : rerandomizeProof vk proof draws = some proof') :
    ∃ r1 r2 : F, r1 ≠ 0 ∧ r2 ≠ 0 ∧ proof' = rerandomizeWith vk proof r1 r2 := by
  obtain ⟨⟨r1, r2⟩, found, rfl⟩ := Option.map_eq_some_iff.mp returned
  have factors := List.find?_some found
  simp only [ne_eq, Bool.decide_and, Bool.and_eq_true, decide_eq_true_eq] at factors
  exact ⟨r1, r2, factors.1, factors.2, rfl⟩

theorem rerandomizeProof_single (vk : VerifyingKey G1 G2) (proof : Proof G1 G2) {r1 r2 : F} (left : r1 ≠ 0)
    (right : r2 ≠ 0) : rerandomizeProof vk proof [(r1, r2)] = some (rerandomizeWith vk proof r1 r2) := by
  simp [rerandomizeProof, drawFactors, left, right]

variable [AddCommGroup GT] [Module F GT] [DecidableEq GT]

/-- A rerandomized proof verifies as the proof did, whatever proof and key it came from. -/
theorem verify_rerandomizeProof (e : Pairing F G1 G2 GT) (publicInputs : List F) {draws : List (F × F)}
    (returned : rerandomizeProof vk proof draws = some proof') :
    verify e vk publicInputs proof' = verify e vk publicInputs proof := by
  obtain ⟨r1, r2, nonzero, -, rfl⟩ := rerandomizeProof_eq_some returned
  exact verify_rerandomizeWith e vk publicInputs proof nonzero r2

/-- The rerandomizations of an accepted proof are the accepted proofs with a nonzero first point and another third
point, and each of them comes from one pair of factors. -/
theorem rerandomizeProof_reaches_iff {e : Pairing F G1 G2 GT} {g1 : G1} {g2 : G2} (order : e.PrimeOrder g1 g2)
    (delta : vk.deltaG2 ≠ 0) {publicInputs : List F} (accepted : verify e vk publicInputs proof = .ok true)
    (nonzero : proof.a ≠ 0) :
    ((∃ draws : List (F × F), rerandomizeProof vk proof draws = some proof') ↔
      verify e vk publicInputs proof' = .ok true ∧ proof'.a ≠ 0 ∧ proof'.c ≠ proof.c) ∧
    ∀ r1 s1 r2 s2 : F, r1 ≠ 0 → s1 ≠ 0 →
      rerandomizeWith vk proof r1 r2 = rerandomizeWith vk proof s1 s2 → r1 = s1 ∧ r2 = s2 := by
  refine ⟨⟨?_, ?_⟩, fun r1 s1 r2 s2 left _ same => rerandomizeWith_inj delta nonzero left same⟩
  · rintro ⟨draws, returned⟩
    have verified := (verify_rerandomizeProof e publicInputs returned).trans accepted
    obtain ⟨r1, r2, left, right, rfl⟩ := rerandomizeProof_eq_some returned
    exact ⟨verified, smul_ne_zero (inv_ne_zero left) nonzero, fun same =>
      smul_ne_zero right nonzero (add_eq_left.mp same)⟩
  · rintro ⟨accepted', nonzero', different⟩
    have term : proofTerm e vk proof' = proofTerm e vk proof := by
      rw [verify_eq_proofTerm] at accepted accepted'
      cases prepared : prepareInputs vk publicInputs with
      | error error =>
          rw [prepared] at accepted
          cases accepted
      | ok gIc =>
          rw [prepared] at accepted accepted'
          have first := of_decide_eq_true (Except.ok.inj accepted)
          exact (of_decide_eq_true (Except.ok.inj accepted')).trans first.symm
    obtain ⟨r1, r2, left, rfl⟩ := exists_rerandomizeWith order delta nonzero nonzero' term
    have right : r2 ≠ 0 := by
      rintro rfl
      exact different (by rw [rerandomizeWith, zero_smul, add_zero])
    exact ⟨[(r1, r2)], rerandomizeProof_single vk proof left right⟩

/-- Over the residues modulo 13, an accepted proof and another one that it reaches. -/
theorem rerandomizeProof_reaches_residue :
    ∃ draws : List (ZMod 13 × ZMod 13), rerandomizeProof
      ({ alphaG1 := 1, betaG2 := 2, gammaG2 := 3, deltaG2 := 1, gammaAbcG1 := [1] } :
        VerifyingKey (ZMod 13) (ZMod 13)) { a := 1, b := 6, c := 1 } draws = some { a := 2, b := 7, c := 9 } := by
  have order : (mulPairing (ZMod 13) 13).PrimeOrder 1 1 :=
    ⟨fun p => ⟨p, mul_one p⟩, fun q => ⟨q, mul_one q⟩, by decide⟩
  have accepted : verify (mulPairing (ZMod 13) 13)
      { alphaG1 := 1, betaG2 := 2, gammaG2 := 3, deltaG2 := 1, gammaAbcG1 := [1] } [] { a := 1, b := 6, c := 1 } =
        .ok true := by decide
  exact (rerandomizeProof_reaches_iff order (by decide) accepted (by decide)).1.mpr (by decide)

end Reached

end Pvugc.Groth16
