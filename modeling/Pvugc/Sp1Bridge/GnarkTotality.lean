import Pvugc.Sp1Bridge.GnarkDeserialize

namespace Pvugc.Sp1Bridge
open Pvugc.Algebra Pvugc.Encoding

/-- The bytes that a parser reads as a point of one of the groups. -/
inductive PointWindow where
  | g1 (bytes : List UInt8)
  | g2 (bytes : List UInt8)

section Windows

variable (inG1 : Fq → Fq → Bool) (inG2 : Fq2 → Fq2 → Bool)

def PointWindow.OffGroup : PointWindow → Prop
  | g1 bytes => (g1Curve inG1).OffGroup bytes
  | g2 bytes => (g2Curve inG2).OffGroup bytes

def PointWindow.EncodesPoint : PointWindow → Prop
  | g1 bytes => (g1Curve inG1).EncodesPoint bytes
  | g2 bytes => (g2Curve inG2).EncodesPoint bytes

/-- Behind encodings of points comes a window of canonical coordinates outside its group. -/
def ReachesOffGroup : List PointWindow → Prop
  | [] => False
  | window :: windows =>
      window.OffGroup inG1 inG2 ∨ window.EncodesPoint inG1 inG2 ∧ ReachesOffGroup windows

variable (raw : List UInt8)

def proofWindows : List PointWindow :=
  if raw.length < 384 then []
  else [.g1 (window raw 0 g1RawSize), .g2 (window raw 96 g2RawSize), .g1 (window raw 288 g1RawSize)]

def pointWindows (offset count : ℕ) : List PointWindow :=
  (List.range' offset count g1RawSize).map fun start => .g1 (window raw start g1RawSize)

/-- The windows of `K`, if the string holds as many as it announces. -/
def kWindows : List PointWindow :=
  if 868 + beValue (window raw 864 4) * g1RawSize > raw.length then []
  else pointWindows raw 868 (beValue (window raw 864 4))

/-- The four points of fixed position. -/
def fixedWindows : List PointWindow :=
  [.g1 (window raw 0 g1RawSize), .g2 (window raw 192 g2RawSize), .g2 (window raw 384 g2RawSize),
    .g2 (window raw 672 g2RawSize)]

def vkWindows : List PointWindow :=
  if raw.length < 964 then [] else fixedWindows raw ++ kWindows raw

/-- A long enough string holds a well-formed key with no point in `K`. -/
structure EmptyKey : Prop where
  long : 964 ≤ raw.length
  points : ∀ window ∈ fixedWindows raw, window.EncodesPoint inG1 inG2
  count : window raw 864 4 = [0, 0, 0, 0]
  lists : ∃ committed : List (List UInt64), committed.length < 2 ^ 32 ∧
    (∀ inner ∈ committed, inner.length < 2 ^ 32) ∧ writeCommitted committed <+: raw.drop 868

/-- The proof parser does not panic, and what it returns has its canonical encoding in the string. -/
structure ProofSound : Prop where
  total : parseGnarkProofBls12377 inG1 inG2 raw ≠ .error .panic
  sound : ∀ proof, parseGnarkProofBls12377 inG1 inG2 raw = .ok proof →
    ProofInGroup inG1 inG2 proof ∧ writeProof proof <+: raw

/-- The key parser does not panic, and what it returns has its canonical encoding in the string and points in
`K`. -/
structure VkSound : Prop where
  total : parseGnarkVkBls12377 inG1 inG2 raw ≠ .error .panic
  sound : ∀ vk, parseGnarkVkBls12377 inG1 inG2 raw = .ok vk →
    VkInGroup inG1 inG2 vk ∧ vk.gammaAbcG1 ≠ [] ∧
      ∃ (betaG1 deltaG1 : List UInt8) (committed : List (List UInt64)), betaG1.length = g1RawSize ∧
        deltaG1.length = g1RawSize ∧ VkFits vk committed ∧ writeVk vk betaG1 deltaG1 committed <+: raw

end Windows

section Panics

variable {inG1 : Fq → Fq → Bool} {inG2 : Fq2 → Fq2 → Bool} {raw : List UInt8}

/-- A step panics, or succeeds before a panic that does not depend on its result. -/
theorem step_eq_panic {A B : Type} {x : Except Fault A} {f : A → Except Fault B} {later : Prop}
    (next : ∀ a, f a = .error .panic ↔ later) :
    (x >>= f) = .error .panic ↔ x = .error .panic ∨ (∃ a, x = .ok a) ∧ later := by
  rw [bind_eq_panic]
  simp only [next, exists_and_right]

theorem parseG1_eq_panic_iff {start : ℕ} (inside : start + g1RawSize ≤ raw.length) :
    parseG1AffineGnarkRaw inG1 (window raw start g1RawSize) = .error .panic ↔
      PointWindow.OffGroup inG1 inG2 (.g1 (window raw start g1RawSize)) :=
  RawCurve.parseRaw_eq_panic_iff (window_length inside)

theorem parseG1_isOk_iff {start : ℕ} (inside : start + g1RawSize ≤ raw.length) :
    (∃ p, parseG1AffineGnarkRaw inG1 (window raw start g1RawSize) = .ok p) ↔
      PointWindow.EncodesPoint inG1 inG2 (.g1 (window raw start g1RawSize)) :=
  exists_congr fun _ => RawCurve.parseRaw_eq_ok_iff (window_length inside)

theorem parseG2_eq_panic_iff {start : ℕ} (inside : start + g2RawSize ≤ raw.length) :
    parseG2AffineGnarkRaw inG2 (window raw start g2RawSize) = .error .panic ↔
      PointWindow.OffGroup inG1 inG2 (.g2 (window raw start g2RawSize)) :=
  RawCurve.parseRaw_eq_panic_iff (window_length inside)

theorem parseG2_isOk_iff {start : ℕ} (inside : start + g2RawSize ≤ raw.length) :
    (∃ p, parseG2AffineGnarkRaw inG2 (window raw start g2RawSize) = .ok p) ↔
      PointWindow.EncodesPoint inG1 inG2 (.g2 (window raw start g2RawSize)) :=
  exists_congr fun _ => RawCurve.parseRaw_eq_ok_iff (window_length inside)

/-- The loop over the points of `K` panics exactly where it reaches coordinates outside the group. -/
theorem parseK_eq_panic_iff {offset kLen : ℕ} (inside : offset + kLen * g1RawSize ≤ raw.length) :
    parseK inG1 raw offset kLen = .error .panic ↔
      ReachesOffGroup inG1 inG2 (pointWindows raw offset kLen) := by
  induction kLen generalizing offset with
  | zero => simp [parseK, pointWindows, ReachesOffGroup, pure, Except.pure]
  | succ kLen inductionHypothesis =>
      rw [Nat.add_one_mul] at inside
      have first : offset + g1RawSize ≤ raw.length := by omega
      have rest : offset + g1RawSize + kLen * g1RawSize ≤ raw.length := by omega
      have later := inductionHypothesis rest
      rw [parseK, pointWindows] at later
      rw [parseK, pointWindows, List.range'_succ, List.mapM_cons, slice_eq_ok vkErrors raw first, ok_bind,
        List.map_cons, ReachesOffGroup, ← parseG1_eq_panic_iff first, ← parseG1_isOk_iff first, ← later]
      apply step_eq_panic
      intro p
      rw [bind_eq_panic, or_iff_left]
      rintro ⟨points, -, done⟩
      cases done

theorem parseBehindPoints_eq_panic_iff (inside : 868 ≤ raw.length) :
    parseBehindPoints inG1 raw = .error .panic ↔ ReachesOffGroup inG1 inG2 (kWindows raw) := by
  rw [parseBehindPoints, readU32_of_inside _ (show 864 + 4 ≤ raw.length from inside), ok_bind, kWindows]
  split
  case isTrue => simp [ReachesOffGroup, throw, throwThe, MonadExceptOf.throw]
  case isFalse fits =>
    rw [← parseK_eq_panic_iff (Nat.le_of_not_lt fits), bind_eq_panic, or_iff_left]
    rintro ⟨points, -, behind⟩
    -- no read behind the points can panic
    simp only [bind_eq_panic, readU32_ne_panic, skipCommitted_ne_panic, false_or] at behind
    obtain ⟨outerLen, -, offset, -, nb, -, last⟩ := behind
    split at last <;> cases last

/-- The key parser panics exactly where it reaches coordinates outside a group. -/
theorem parseGnarkVk_eq_panic_iff :
    parseGnarkVkBls12377 inG1 inG2 raw = .error .panic ↔ ReachesOffGroup inG1 inG2 (vkWindows raw) := by
  by_cases long : 964 ≤ raw.length
  · have inside {start size : ℕ} (bound : start + size ≤ 964) : start + size ≤ raw.length := bound.trans long
    have alpha := inside (show 0 + g1RawSize ≤ 964 by decide)
    have beta := inside (show 192 + g2RawSize ≤ 964 by decide)
    have gamma := inside (show 384 + g2RawSize ≤ 964 by decide)
    have delta := inside (show 672 + g2RawSize ≤ 964 by decide)
    rw [parseGnarkVk_of_length long, vkWindows, if_neg (Nat.not_lt.mpr long), fixedWindows]
    simp only [List.cons_append, List.nil_append, ReachesOffGroup]
    rw [← parseG1_eq_panic_iff alpha, ← parseG1_isOk_iff alpha, ← parseG2_eq_panic_iff beta,
      ← parseG2_isOk_iff beta, ← parseG2_eq_panic_iff gamma, ← parseG2_isOk_iff gamma,
      ← parseG2_eq_panic_iff delta, ← parseG2_isOk_iff delta,
      ← parseBehindPoints_eq_panic_iff (show 868 ≤ raw.length by omega)]
    refine step_eq_panic fun alphaG1 => step_eq_panic fun betaG2 => step_eq_panic fun gammaG2 =>
      step_eq_panic fun deltaG2 => ?_
    rw [bind_eq_panic, or_iff_left]
    rintro ⟨points, -, done⟩
    cases done
  · rw [parseGnarkVk_of_short (Nat.lt_of_not_le long), vkWindows, if_pos (Nat.lt_of_not_le long)]
    simp [ReachesOffGroup]

theorem parseGnarkProof_eq_panic_iff :
    parseGnarkProofBls12377 inG1 inG2 raw = .error .panic ↔ ReachesOffGroup inG1 inG2 (proofWindows raw) := by
  by_cases long : 384 ≤ raw.length
  · have inside {start size : ℕ} (bound : start + size ≤ 384) : start + size ≤ raw.length := bound.trans long
    have a := inside (show 0 + g1RawSize ≤ 384 by decide)
    have b := inside (show 96 + g2RawSize ≤ 384 by decide)
    have c := inside (show 288 + g1RawSize ≤ 384 by decide)
    rw [parseGnarkProof_of_length long, proofWindows, if_neg (Nat.not_lt.mpr long)]
    simp only [ReachesOffGroup]
    rw [← parseG1_eq_panic_iff a, ← parseG1_isOk_iff a, ← parseG2_eq_panic_iff b, ← parseG2_isOk_iff b,
      ← parseG1_eq_panic_iff c]
    refine step_eq_panic fun first => step_eq_panic fun second => ?_
    rw [bind_eq_panic, and_false]
    simp [pure, Except.pure]
  · rw [parseGnarkProof_of_short (Nat.lt_of_not_le long), proofWindows, if_pos (Nat.lt_of_not_le long)]
    simp [ReachesOffGroup]

/-- A key without points in `K` is returned exactly for the strings that hold one. -/
theorem emptyKey_iff : EmptyKey inG1 inG2 raw ↔
    ∃ vk, parseGnarkVkBls12377 inG1 inG2 raw = .ok vk ∧ vk.gammaAbcG1 = [] := by
  by_cases long : 964 ≤ raw.length
  · have inside {start size : ℕ} (bound : start + size ≤ 964) : start + size ≤ raw.length := bound.trans long
    have header : window raw 864 4 = [0, 0, 0, 0] ↔ writeU32 0 <+: raw.drop 864 := window_eq_iff rfl
    have behind (points : List G1Affine) :=
      @parseBehindPoints_eq_ok_iff inG1 raw points (show 868 ≤ raw.length by omega)
    have points : (∀ window ∈ fixedWindows raw, window.EncodesPoint inG1 inG2) ↔
        (∃ p, parseG1AffineGnarkRaw inG1 (window raw 0 g1RawSize) = .ok p) ∧
          (∃ p, parseG2AffineGnarkRaw inG2 (window raw 192 g2RawSize) = .ok p) ∧
          (∃ p, parseG2AffineGnarkRaw inG2 (window raw 384 g2RawSize) = .ok p) ∧
          ∃ p, parseG2AffineGnarkRaw inG2 (window raw 672 g2RawSize) = .ok p := by
      rw [fixedWindows, List.forall_mem_cons, List.forall_mem_cons, List.forall_mem_cons,
        List.forall_mem_singleton]
      rw [← parseG1_isOk_iff (inside (show 0 + g1RawSize ≤ 964 by decide)),
        ← parseG2_isOk_iff (inside (show 192 + g2RawSize ≤ 964 by decide)),
        ← parseG2_isOk_iff (inside (show 384 + g2RawSize ≤ 964 by decide)),
        ← parseG2_isOk_iff (inside (show 672 + g2RawSize ≤ 964 by decide))]
    rw [parseGnarkVk_of_length long]
    constructor
    · intro empty
      obtain ⟨⟨alphaG1, alpha⟩, ⟨betaG2, beta⟩, ⟨gammaG2, gamma⟩, deltaG2, delta⟩ := points.mp empty.points
      obtain ⟨committed, outer, inner, lists⟩ := empty.lists
      have none : parseBehindPoints inG1 raw = .ok [] := by
        refine (behind []).mpr ⟨by simp, by decide, committed, outer, inner, ?_⟩
        exact append_prefix_iff.mpr ⟨header.mp empty.count, by rwa [List.drop_drop]⟩
      refine ⟨⟨alphaG1, betaG2, gammaG2, deltaG2, []⟩, ?_, rfl⟩
      rw [alpha, ok_bind, beta, ok_bind, gamma, ok_bind, delta, ok_bind, none]
      rfl
    · rintro ⟨vk, read, empty⟩
      simp only [bind_eq_ok] at read
      obtain ⟨alphaG1, alpha, betaG2, beta, gammaG2, gamma, deltaG2, delta, ps, rest, whole⟩ := read
      cases whole
      obtain ⟨-, -, committed, outer, inner, starts⟩ := (behind ps).mp rest
      rw [show ps = [] from empty, append_prefix_iff, List.drop_drop] at starts
      exact ⟨long, points.mpr ⟨⟨_, alpha⟩, ⟨_, beta⟩, ⟨_, gamma⟩, _, delta⟩, header.mpr starts.1,
        committed, outer, inner, starts.2⟩
  · refine iff_of_false (fun empty => long empty.long) ?_
    rintro ⟨vk, read, -⟩
    exact long (parseGnarkVk_eq_ok_iff.mp read).1

/-- The parsers are total and sound exactly on the strings that hold no canonical coordinates outside their group
where a point is read, and no key without points in `K`. -/
theorem gnarkParsers_sound_iff (inG1 : Fq → Fq → Bool) (inG2 : Fq2 → Fq2 → Bool) (raw : List UInt8) :
    (ProofSound inG1 inG2 raw ↔ ¬ReachesOffGroup inG1 inG2 (proofWindows raw)) ∧
      (VkSound inG1 inG2 raw ↔
        ¬ReachesOffGroup inG1 inG2 (vkWindows raw) ∧ ¬EmptyKey inG1 inG2 raw) := by
  constructor
  · rw [← parseGnarkProof_eq_panic_iff]
    exact ⟨ProofSound.total, fun total => ⟨total, fun proof => parseGnarkProof_eq_ok_iff.mp⟩⟩
  · rw [← parseGnarkVk_eq_panic_iff, emptyKey_iff]
    constructor
    · intro sound
      refine ⟨sound.total, ?_⟩
      rintro ⟨vk, read, empty⟩
      exact (sound.sound vk read).2.1 empty
    · rintro ⟨total, nonempty⟩
      refine ⟨total, fun vk read => ?_⟩
      obtain ⟨-, members, written⟩ := parseGnarkVk_eq_ok_iff.mp read
      exact ⟨members, fun empty => nonempty ⟨vk, read, empty⟩, written⟩

end Panics

section Counterexample

/-- The key of points at infinity without `K`, up to the minimum length. -/
def emptyVkBytes : List UInt8 :=
  writeVk ⟨.infinity, .infinity, .infinity, .infinity, []⟩ (writeG1 .infinity) (writeG1 .infinity) [] ++
    List.replicate 88 0

theorem emptyVk_accepted : parseGnarkVkBls12377 inG1 inG2 emptyVkBytes =
    .ok ⟨.infinity, .infinity, .infinity, .infinity, []⟩ :=
  parseGnarkVk_eq_ok_iff.mpr ⟨by decide +kernel,
    ⟨⟨rfl, rfl⟩, ⟨rfl, rfl⟩, ⟨rfl, rfl⟩, ⟨rfl, rfl⟩, List.forall_mem_nil _⟩, writeG1 .infinity,
    writeG1 .infinity, [], writeG1_length _, writeG1_length _,
    ⟨by decide, by decide, List.forall_mem_nil _⟩, List.prefix_append _ _⟩

/-- The coordinates zero are canonical, and their point is not on the curve. -/
theorem zeroProof_panics : parseGnarkProofBls12377 inG1 inG2 (List.replicate 384 0) = .error .panic := by
  have offCurve : ¬(0 : Fq) ^ 2 = 0 ^ 3 + 1 := by decide
  have zeros : window (List.replicate 384 0) 0 g1RawSize = writeFq 0 ++ writeFq 0 := by decide
  have outside : PointWindow.OffGroup inG1 inG2 (.g1 (window (List.replicate 384 0) 0 g1RawSize)) :=
    ⟨0, 0, zeros, fun member => offCurve (of_decide_eq_true member.1)⟩
  have long : ¬(List.replicate 384 (0 : UInt8)).length < 384 := by
    rw [List.length_replicate]
    exact lt_irrefl 384
  rw [parseGnarkProof_eq_panic_iff, proofWindows, if_neg long]
  exact .inl outside

/-- Zero bytes make the proof parser panic, and a key without `K` is accepted. -/
theorem gnarkParsers_not_sound :
    ¬ProofSound (fun _ _ => true) (fun _ _ => true) (List.replicate 384 0) ∧
      parseGnarkVkBls12377 (fun _ _ => true) (fun _ _ => true) emptyVkBytes =
        .ok ⟨.infinity, .infinity, .infinity, .infinity, []⟩ ∧
      ¬VkSound (fun _ _ => true) (fun _ _ => true) emptyVkBytes :=
  ⟨fun sound => sound.total zeroProof_panics, emptyVk_accepted,
    fun sound => (sound.sound _ emptyVk_accepted).2.1 rfl⟩

end Counterexample

end Pvugc.Sp1Bridge
