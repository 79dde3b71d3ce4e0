import Pvugc.Adaptor.AdCore
import Pvugc.OneSided.Ppe
import Pvugc.Secp.Secp256k1

namespace Pvugc.Adaptor
open Pvugc.Algebra Pvugc.Encoding Pvugc.OneSided Pvugc.Secp

/-- The type `SecpAffine`. -/
abbrev SecpAffine := (shortCurve (7 : SecpFq)).Point

/-- `decompress_secp_point` over the point decoder of the curve library, whose coordinates it carries over. -/
def decompressSecpPoint (fromEncodedPoint : List UInt8 → Option SecpAffine) (bytes : List UInt8) :
    Option SecpAffine :=
  match fromEncodedPoint bytes with
  | none => none
  | some q => if q = 0 then none else some q

/-- The errors of the cursor; a slice out of bounds would panic. -/
def adCoreErrors : ReadErrors Fault where
  tooShort label := .error (.crypto s!"AD_core too short reading {label}")
  overflow label := .error (.crypto s!"AD_core {label} length overflow")
  outOfBounds := .panic

section Code

variable (fromEncodedPoint : List UInt8 → Option SecpAffine) (adCore : List UInt8)

/-- `extract_t_from_ad_core` before the cursor starts. -/
def extractTReader : Reader Fault SecpAffine := do
  let readSlice := readSlice adCoreErrors adCore
  let readLen := readLen AdCore.lengthCode adCoreErrors adCore
  let profile ← readSlice demProfileId.length "profile"
  if profile ≠ demProfileId then throw (.error (.crypto "AD_core profile mismatch"))
  let _ ← readSlice 32 "vk_hash"
  let _ ← readSlice 32 "x_hash"
  let _ ← readSlice 32 "ctx_hash"
  let _ ← readSlice 32 "tapleaf_hash"
  let _ ← readSlice 1 "tapleaf_version"
  let txidLen ← readLen "txid_template"
  let _ ← readSlice txidLen "txid_template_bytes"
  let pathLen ← readLen "path_tag"
  let _ ← readSlice pathLen "path_tag_bytes"
  let _ ← readSlice 4 "share_index"
  let tILen ← readLen "t_i"
  let tIBytes ← readSlice tILen "t_i_bytes"
  let tAggLen ← readLen "t_aggregate"
  let _ ← readSlice tAggLen "t_aggregate_bytes"
  let armedBasesLen ← readLen "armed_bases"
  let _ ← readSlice armedBasesLen "armed_bases_bytes"
  let armedDeltaLen ← readLen "armed_delta"
  let _ ← readSlice armedDeltaLen "armed_delta_bytes"
  let _ ← readSlice 32 "gs_instance_digest"
  let cursor ← get
  if cursor ≠ adCore.length then throw (.error (.crypto "AD_core trailing bytes"))
  match decompressSecpPoint fromEncodedPoint tIBytes with
  | some point => return point
  | none => throw (.error (.crypto "invalid secp adaptor commitment in AD_core"))

def extractTFromAdCore : Except Fault SecpAffine := (extractTReader fromEncodedPoint adCore).run' 0

end Code

section Exact

variable {fromEncodedPoint : List UInt8 → Option SecpAffine} {adCore : List UInt8}

/-- What follows the fields. -/
def finishT (fromEncodedPoint : List UInt8 → Option SecpAffine) (adCore : List UInt8)
    (fields : List (List UInt8)) : Reader Fault SecpAffine := do
  let cursor ← get
  if cursor ≠ adCore.length then throw (.error (.crypto "AD_core trailing bytes"))
  match decompressSecpPoint fromEncodedPoint (fields.getD 8 []) with
  | some point => return point
  | none => throw (.error (.crypto "invalid secp adaptor commitment in AD_core"))

/-- The reads of the code are the reads of the fields of the frame. -/
theorem extractTReader_eq : extractTReader fromEncodedPoint adCore = (do
    let profile ← readSlice adCoreErrors adCore demProfileId.length "profile"
    if profile ≠ demProfileId then throw (.error (.crypto "AD_core profile mismatch"))
    let fields ← readFields AdCore.lengthCode adCoreErrors adCore AdCore.layouts
    finishT fromEncodedPoint adCore fields) := by
  simp only [extractTReader, AdCore.layouts, readFields, FieldLayout.read, finishT, bind_assoc, pure_bind]
  rfl

theorem finishT_run (fields : List (List UInt8)) (cursor : ℕ) :
    (finishT fromEncodedPoint adCore fields).run cursor =
      if cursor ≠ adCore.length then .error (.error (.crypto "AD_core trailing bytes"))
      else match decompressSecpPoint fromEncodedPoint (fields.getD 8 []) with
        | some point => .ok (point, cursor)
        | none => .error (.error (.crypto "invalid secp adaptor commitment in AD_core")) := by
  unfold finishT
  generalize decompressSecpPoint fromEncodedPoint (fields.getD 8 []) = decoded
  by_cases ended : cursor = adCore.length
  · cases decoded <;> simp [ended] <;> rfl
  · simp [ended]
    rfl

/-- Fitting values are the fields of a value with the profile. -/
theorem exists_fields {values : List (List UInt8)}
    (fits : List.Forall₂ (FieldLayout.Fits AdCore.lengthCode) AdCore.layouts values) :
    ∃ ad : AdCore, ad.profile = demProfileId ∧ ad.fields = values := by
  have digest {value : List UInt8} (length : value.length = 32) : ∃ hash : Digest, hash.toList = value :=
    ⟨⟨value.toArray, by simpa using length⟩, rfl⟩
  have index {value : List UInt8} (length : value.length = 4) :
      ∃ n : UInt32, toLeBytes 4 n.toNat = value := by
    have small : leValue value < 2 ^ 32 := by
      have bound := leValue_lt value
      rwa [length] at bound
    refine ⟨UInt32.ofNat (leValue value), ?_⟩
    rw [UInt32.toNat_ofNat_of_lt' small, ← length, toLeBytes_leValue]
  rcases fits with _ | ⟨vk, _ | ⟨x, _ | ⟨ctx, _ | ⟨leaf, _ | ⟨version, _ | ⟨txid, _ | ⟨path, _ | ⟨share, _ | ⟨t,
    _ | ⟨total, _ | ⟨bases, _ | ⟨delta, _ | ⟨gs, _ | _⟩⟩⟩⟩⟩⟩⟩⟩⟩⟩⟩⟩⟩
  obtain ⟨vkHash, rfl⟩ := digest vk
  obtain ⟨xHash, rfl⟩ := digest x
  obtain ⟨ctxHash, rfl⟩ := digest ctx
  obtain ⟨tapleafHash, rfl⟩ := digest leaf
  obtain ⟨tapleafVersion, rfl⟩ := List.length_eq_one_iff.mp version
  obtain ⟨shareIndex, rfl⟩ := index share
  obtain ⟨gsInstanceDigest, rfl⟩ := digest gs
  exact ⟨⟨demProfileId, vkHash, xHash, ctxHash, tapleafHash, tapleafVersion, _, _, shareIndex, _, _, _, _,
    gsInstanceDigest⟩, rfl, rfl⟩

/-- The parser returns a point exactly for the serialization of a fitting value whose share it is. -/
theorem extractTFromAdCore_eq_ok_iff {point : SecpAffine} :
    extractTFromAdCore fromEncodedPoint adCore = .ok point ↔
      ∃ ad : AdCore, ad.profile = demProfileId ∧ ad.Fits ∧ adCore = ad.serialize ∧
        decompressSecpPoint fromEncodedPoint ad.tI = some point := by
  have run : extractTFromAdCore fromEncodedPoint adCore = .ok point ↔
      ∃ next, (extractTReader fromEncodedPoint adCore).run 0 = .ok (point, next) := by
    rw [extractTFromAdCore, StateT.run'_eq]
    cases (extractTReader fromEncodedPoint adCore).run 0 with
    | error fault => simp
    | ok pair => simp [Prod.ext_iff]
  rw [run, extractTReader_eq]
  constructor
  · rintro ⟨next, read⟩
    obtain ⟨profile, mid, first, rest⟩ := bind_eq_ok_iff.mp read
    obtain ⟨length, starts, rfl⟩ := (readSlice_eq_ok_iff (Nat.zero_le _)).mp first
    by_cases known : profile = demProfileId
    · subst known
      rw [if_neg (not_not.mpr rfl)] at rest
      obtain ⟨values, last, frame, finish⟩ := bind_eq_ok_iff.mp rest
      have inside : 0 + demProfileId.length ≤ adCore.length := by
        rw [Nat.zero_add]
        exact starts.length_le
      obtain ⟨fits, follows, rfl⟩ := (readFields_eq_ok_iff inside).mp frame
      obtain ⟨ad, profile, rfl⟩ := exists_fields fits
      rw [finishT_run] at finish
      split at finish
      case isTrue => cases finish
      case isFalse ended =>
        have whole : demProfileId ++ encodeFields AdCore.lengthCode AdCore.layouts ad.fields <+: adCore :=
          append_prefix_iff.mpr ⟨starts, by simpa using follows⟩
        have serialized : ad.serialize = adCore := by
          rw [ad.serialize_eq, profile]
          apply whole.eq_of_length
          rw [List.length_append, ← not_not.mp ended, Nat.zero_add]
        refine ⟨ad, profile, ad.fits_iff.mpr fits, serialized.symm, ?_⟩
        split at finish
        case h_1 decoded located =>
          cases finish
          exact located
        case h_2 => cases finish
    · rw [if_pos known] at rest
      cases rest
  · rintro ⟨ad, profile, fits, serialized, decoded⟩
    rw [ad.serialize_eq, profile] at serialized
    have first : (readSlice adCoreErrors adCore demProfileId.length "profile").run 0 =
        .ok (demProfileId, 0 + demProfileId.length) := by
      rw [readSlice_eq_ok_iff (Nat.zero_le _), serialized]
      exact ⟨rfl, List.prefix_append _ _, rfl⟩
    have ended : 0 + demProfileId.length + (encodeFields AdCore.lengthCode AdCore.layouts ad.fields).length =
        adCore.length := by
      rw [serialized, List.length_append, Nat.zero_add]
    have inside : 0 + demProfileId.length ≤ adCore.length := by
      rw [← ended]
      exact Nat.le_add_right _ _
    have frame : (readFields AdCore.lengthCode adCoreErrors adCore AdCore.layouts).run
        (0 + demProfileId.length) = .ok (ad.fields, adCore.length) := by
      rw [← ended]
      apply (readFields_eq_ok_iff inside).mpr
      exact ⟨ad.fits_iff.mp fits, by rw [serialized, Nat.zero_add, List.drop_left], rfl⟩
    refine ⟨adCore.length, bind_eq_ok_iff.mpr ⟨_, _, first, ?_⟩⟩
    rw [if_neg (not_not.mpr rfl)]
    refine bind_eq_ok_iff.mpr ⟨_, _, frame, ?_⟩
    rw [finishT_run, if_neg (not_not.mpr rfl), show ad.fields.getD 8 [] = ad.tI from rfl, decoded]

/-- The parser never panics. -/
theorem extractTFromAdCore_ne_panic (fromEncodedPoint : List UInt8 → Option SecpAffine) (adCore : List UInt8) :
    extractTFromAdCore fromEncodedPoint adCore ≠ .error .panic := by
  have tooShort (label : String) : adCoreErrors.tooShort label ≠ adCoreErrors.outOfBounds := Fault.noConfusion
  have overflow (label : String) : adCoreErrors.overflow label ≠ adCoreErrors.outOfBounds := Fault.noConfusion
  have reads (cursor : ℕ) : (extractTReader fromEncodedPoint adCore).run cursor ≠ .error .panic := by
    rw [extractTReader_eq]
    refine bind_ne_error (readSlice_ne_outOfBounds tooShort _ _) ?_ cursor
    intro profile cursor
    split
    · intro same
      cases same
    · refine bind_ne_error (readFields_ne_outOfBounds tooShort overflow _) ?_ cursor
      intro fields cursor
      rw [finishT_run]
      split
      · simp [adCoreErrors]
      · split <;> simp [adCoreErrors]
  intro same
  rw [extractTFromAdCore, StateT.run'_eq] at same
  cases run : (extractTReader fromEncodedPoint adCore).run 0 with
  | error fault =>
      rw [run] at same
      cases same
      exact reads 0 run
  | ok pair =>
      rw [run] at same
      cases same

/-- The parser ends with a point or with an error of its own. -/
theorem extractTFromAdCore_cases (fromEncodedPoint : List UInt8 → Option SecpAffine) (adCore : List UInt8) :
    (∃ point, extractTFromAdCore fromEncodedPoint adCore = .ok point) ∨
      ∃ error, extractTFromAdCore fromEncodedPoint adCore = .error (.error error) := by
  match run : extractTFromAdCore fromEncodedPoint adCore with
  | .ok point => exact .inl ⟨point, rfl⟩
  | .error .panic => exact absurd run (extractTFromAdCore_ne_panic fromEncodedPoint adCore)
  | .error (.error error) => exact .inr ⟨error, rfl⟩

/-- The parser is exact, the serialized value is unique, and every other string gives an error without an
access out of bounds. -/
theorem extractTFromAdCore_exact (fromEncodedPoint : List UInt8 → Option SecpAffine) (adCore : List UInt8) :
    (∀ point, extractTFromAdCore fromEncodedPoint adCore = .ok point ↔
      ∃ ad : AdCore, ad.profile = demProfileId ∧ ad.Fits ∧ adCore = ad.serialize ∧
        decompressSecpPoint fromEncodedPoint ad.tI = some point) ∧
    (∀ ad ad' : AdCore, ad.profile = demProfileId → ad'.profile = demProfileId → ad.Fits → ad'.Fits →
      adCore = ad.serialize → adCore = ad'.serialize → ad = ad') ∧
    ((∃ point, extractTFromAdCore fromEncodedPoint adCore = .ok point) ∨
      ∃ error, extractTFromAdCore fromEncodedPoint adCore = .error (.error error)) := by
  refine ⟨fun point => extractTFromAdCore_eq_ok_iff, ?_, extractTFromAdCore_cases fromEncodedPoint adCore⟩
  intro ad ad' profile profile' fits fits' first second
  exact AdCore.serialize_inj (profile.trans profile'.symm) fits fits' (first.symm.trans second)

end Exact

end Pvugc.Adaptor
