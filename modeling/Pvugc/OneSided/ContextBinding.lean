import Mathlib
import Pvugc.OneSided.Context

namespace Pvugc.OneSided

/-- The presence of the optional layers of a context and the sizes of its variable fields. -/
structure ContextShape where
  tapleaf : Bool
  txidTemplate : ℕ
  pathTag : ℕ
  arming : Option (ArmingPackage ℕ)
  presig : Option (PresigPackage ℕ)
  deriving DecidableEq

def ContextInput.shape (input : ContextInput) : ContextShape where
  tapleaf := input.tapleaf.isSome
  txidTemplate := input.txidTemplate.length
  pathTag := (asBytes input.pathTag).length
  arming := input.arming.map (·.map List.length)
  presig := input.presig.map (·.map List.length)

/-- The sizes of the variable parts of the three layers. -/
def ContextShape.sizes (shape : ContextShape) : ℕ × Option ℕ × Option ℕ :=
  ((if shape.tapleaf then 33 else 0) + shape.txidTemplate + shape.pathTag,
    shape.arming.map (·.fields.sum), shape.presig.map (·.fields.sum))

theorem asBytes_injective : Function.Injective asBytes := by
  intro s t same
  rw [asBytes, asBytes, String.toUTF8_eq_toByteArray, String.toUTF8_eq_toByteArray] at same
  exact String.toByteArray_inj.mp (ByteArray.ext (Array.toList_inj.mp same))

theorem ctxTag : asBytes "PVUGC/CTX" = [80, 86, 85, 71, 67, 47, 67, 84, 88] := by decide

theorem ctxCoreTag :
    asBytes "PVUGC/CTX_CORE" = [80, 86, 85, 71, 67, 47, 67, 84, 88, 95, 67, 79, 82, 69] := by decide

theorem armTag : asBytes "PVUGC/ARM" = [80, 86, 85, 71, 67, 47, 65, 82, 77] := by decide

theorem presigTag :
    asBytes "PVUGC/PRESIG" = [80, 86, 85, 71, 67, 47, 80, 82, 69, 83, 73, 71] := by decide

section Hash

variable {sha256 : List UInt8 → Digest} {input input' : ContextInput}

/-- The two packages have different tags. -/
theorem armingPkgBytes_ne_presigPkgBytes (arming : ArmingPackage (List UInt8))
    (presig : PresigPackage (List UInt8)) : armingPkgBytes arming ≠ presigPkgBytes presig := by
  simp [armingPkgBytes, presigPkgBytes, armTag, presigTag]

/-- Optional digests are recovered from their bytes when no digest of one kind is of the other. -/
theorem optionalBytes_inj {a b a' b' : Option Digest} (distinct : ∀ x ∈ a, ∀ y ∈ b', x ≠ y)
    (distinct' : ∀ x ∈ a', ∀ y ∈ b, x ≠ y)
    (same : optionalBytes a ++ optionalBytes b = optionalBytes a' ++ optionalBytes b') :
    a = a' ∧ b = b' := by
  have length (x : Option Digest) : (optionalBytes x).length = if x.isSome then 32 else 0 := by
    cases x <;> simp [optionalBytes]
  have lengths := congrArg List.length same
  rw [List.length_append, List.length_append, length, length, length, length] at lengths
  cases a with
  | none =>
    cases a' with
    | none =>
      cases b <;> cases b' <;> simp_all [optionalBytes, Vector.toList_inj]
    | some x =>
      cases b with
      | none => cases b' <;> simp at lengths
      | some y =>
        cases b' with
        | some z => simp at lengths
        | none =>
          simp only [optionalBytes, Option.map_some, Option.map_none, Option.getD_some, Option.getD_none,
            List.nil_append, List.append_nil, Vector.toList_inj] at same
          exact absurd same.symm (distinct' x rfl y rfl)
  | some x =>
    cases a' with
    | none =>
      cases b' with
      | none => cases b <;> simp at lengths
      | some y =>
        cases b with
        | some z => simp at lengths
        | none =>
          simp only [optionalBytes, Option.map_some, Option.map_none, Option.getD_some, Option.getD_none,
            List.nil_append, List.append_nil, Vector.toList_inj] at same
          exact absurd same (distinct x rfl y rfl)
    | some y =>
      obtain ⟨first, second⟩ := List.append_inj same (by simp [optionalBytes])
      cases b <;> cases b' <;> simp_all [optionalBytes, Vector.toList_inj]

/-- Equal optional hashes come from equal optional strings. -/
theorem map_bytes_inj {S : Type} {bytes : S → List UInt8} {package package' : Option S}
    (free : ∀ p ∈ package, ∀ p' ∈ package', sha256 (bytes p) = sha256 (bytes p') → bytes p = bytes p')
    (same : package.map (fun p => sha256 (bytes p)) = package'.map fun p => sha256 (bytes p)) :
    package.map bytes = package'.map bytes := by
  cases package with
  | none =>
      cases package' with
      | none => rfl
      | some p' => cases same
  | some p =>
      cases package' with
      | none => cases same
      | some p' => exact congrArg some (free p rfl p' rfl (Option.some.inj same))

theorem mem_hashed_ctx (input : ContextInput) :
    ctxBytes (input.builder.buildCtxCore sha256) (input.arming.map (buildArmingPkgHash sha256))
      (input.presig.map (buildPresigPkgHash sha256)) ∈ input.hashed sha256 :=
  List.mem_cons_self

theorem mem_hashed_core (input : ContextInput) : input.builder.ctxCoreBytes ∈ input.hashed sha256 :=
  List.mem_cons_of_mem _ List.mem_cons_self

theorem mem_hashed_arming {input : ContextInput} {package : ArmingPackage (List UInt8)}
    (armed : input.arming = some package) : armingPkgBytes package ∈ input.hashed sha256 := by
  simp [ContextInput.hashed, armed]

theorem mem_hashed_presig {input : ContextInput} {package : PresigPackage (List UInt8)}
    (signed : input.presig = some package) : presigPkgBytes package ∈ input.hashed sha256 := by
  simp [ContextInput.hashed, signed]

/-- Without collisions a context hash determines the bytes of all three layers. -/
theorem ctxHash_eq (free : CollisionFree sha256 input input')
    (same : (input.context sha256).ctxHash = (input'.context sha256).ctxHash) :
    input.builder.ctxCoreBytes = input'.builder.ctxCoreBytes ∧
      input.arming.map armingPkgBytes = input'.arming.map armingPkgBytes ∧
      input.presig.map presigPkgBytes = input'.presig.map presigPkgBytes := by
  have bytes := free (.inl (mem_hashed_ctx input)) (.inr (mem_hashed_ctx input')) same
  rw [ctxBytes, ctxBytes, List.append_assoc, List.append_assoc, List.append_assoc,
    List.append_assoc, List.append_cancel_left_eq] at bytes
  obtain ⟨core, packages⟩ := List.append_inj bytes (by rw [Vector.length_toList, Vector.length_toList])
  have separate {first second : ContextInput}
      (free : ∀ s ∈ first.hashed sha256, ∀ t ∈ second.hashed sha256, sha256 s = sha256 t → s = t) :
      ∀ x ∈ first.arming.map (buildArmingPkgHash sha256),
        ∀ y ∈ second.presig.map (buildPresigPkgHash sha256), x ≠ y := by
    intro x arming y presig equal
    obtain ⟨package, armed, rfl⟩ := Option.mem_map.mp arming
    obtain ⟨package', signed, rfl⟩ := Option.mem_map.mp presig
    exact armingPkgBytes_ne_presigPkgBytes package package'
      (free _ (mem_hashed_arming armed) _ (mem_hashed_presig signed) equal)
  obtain ⟨arming, presig⟩ := optionalBytes_inj
    (separate fun s first t second => free (.inl first) (.inr second))
    (separate fun s first t second => free (.inr first) (.inl second)) packages
  exact ⟨free (.inl (mem_hashed_core input)) (.inr (mem_hashed_core input')) (Vector.toList_inj.mp core),
    map_bytes_inj (fun _ first _ second => free (.inl (mem_hashed_arming first))
      (.inr (mem_hashed_arming second))) arming,
    map_bytes_inj (fun _ first _ second => free (.inl (mem_hashed_presig first))
      (.inr (mem_hashed_presig second))) presig⟩

end Hash

section Fields

/-- The tapleaf layer contributes 33 bytes or none. -/
def tapleafBytes (tapleaf : Option (Digest × UInt8)) : List UInt8 :=
  match tapleaf with
  | some (hash, version) => hash.toList ++ [version]
  | none => []

theorem tapleafBytes_length (tapleaf : Option (Digest × UInt8)) :
    (tapleafBytes tapleaf).length = if tapleaf.isSome then 33 else 0 := by
  cases tapleaf <;> simp [tapleafBytes]

theorem tapleafBytes_injective : Function.Injective tapleafBytes := by
  intro first second same
  cases first with
  | none =>
      cases second with
      | none => rfl
      | some leaf => simp [tapleafBytes] at same
  | some leaf =>
      cases second with
      | none => simp [tapleafBytes] at same
      | some leaf' =>
          obtain ⟨hash, version⟩ := List.append_inj same (by rw [Vector.length_toList, Vector.length_toList])
          exact congrArg some (Prod.ext (Vector.toList_inj.mp hash) (List.singleton_inj.mp version))

/-- The fields of the first layer. -/
def coreFields (input : ContextInput) : List (List UInt8) :=
  [asBytes "PVUGC/CTX_CORE", input.vkHash.toList, input.xHash.toList, tapleafBytes input.tapleaf,
    input.txidTemplate, asBytes input.pathTag, input.yColsDigest.toList, input.epochNonce.toList]

theorem ctxCoreBytes_builder (input : ContextInput) :
    input.builder.ctxCoreBytes = (coreFields input).flatten := by
  obtain ⟨vkHash, xHash, yColsDigest, epochNonce, tapleaf, txidTemplate, pathTag, arming, presig⟩ := input
  cases tapleaf <;>
    simp [PvugcContextBuilder.ctxCoreBytes, ContextInput.builder, coreFields, tapleafBytes,
      PvugcContextBuilder.new, PvugcContextBuilder.withTapleaf, PvugcContextBuilder.withTxidTemplate,
      PvugcContextBuilder.withPathTag]

theorem armingPkgBytes_eq (package : ArmingPackage (List UInt8)) :
    armingPkgBytes package = asBytes "PVUGC/ARM" ++ package.fields.flatten := by
  simp [armingPkgBytes, ArmingPackage.fields]

theorem presigPkgBytes_eq (package : PresigPackage (List UInt8)) :
    presigPkgBytes package = asBytes "PVUGC/PRESIG" ++ package.fields.flatten := by
  simp [presigPkgBytes, PresigPackage.fields]

/-- The size of the first layer is the size of its variable part and of the five fixed fields. -/
theorem ctxCoreBytes_length (input : ContextInput) :
    input.builder.ctxCoreBytes.length = 142 + input.shape.sizes.1 := by
  rw [ctxCoreBytes_builder, coreFields]
  simp only [List.flatten_cons, List.flatten_nil, List.length_append, List.length_nil,
    Vector.length_toList, tapleafBytes_length, ctxCoreTag, List.length_cons]
  change _ = 142 + ((if input.tapleaf.isSome then 33 else 0) + input.txidTemplate.length +
    (asBytes input.pathTag).length)
  omega

theorem armingPkgBytes_length (package : ArmingPackage (List UInt8)) :
    (armingPkgBytes package).length = 9 + (package.map List.length).fields.sum := by
  simp [armingPkgBytes_eq, armTag, ArmingPackage.fields, ArmingPackage.map]
  omega

theorem presigPkgBytes_length (package : PresigPackage (List UInt8)) :
    (presigPkgBytes package).length = 12 + (package.map List.length).fields.sum := by
  simp [presigPkgBytes_eq, presigTag, PresigPackage.fields, PresigPackage.map]
  omega

end Fields

section Binding

variable {input input' : ContextInput}

/-- Equal bytes in all three layers have equal sizes. -/
theorem sizes_eq (core : input.builder.ctxCoreBytes = input'.builder.ctxCoreBytes)
    (arming : input.arming.map armingPkgBytes = input'.arming.map armingPkgBytes)
    (presig : input.presig.map presigPkgBytes = input'.presig.map presigPkgBytes) :
    input.shape.sizes = input'.shape.sizes := by
  have coreSizes := congrArg List.length core
  have armingSizes := congrArg (Option.map fun s => s.length - 9) arming
  have presigSizes := congrArg (Option.map fun s => s.length - 12) presig
  rw [ctxCoreBytes_length, ctxCoreBytes_length, Nat.add_left_cancel_iff] at coreSizes
  simp only [Option.map_map, Function.comp_def, armingPkgBytes_length, presigPkgBytes_length,
    Nat.add_sub_cancel_left] at armingSizes presigSizes
  refine Prod.ext coreSizes (Prod.ext ?_ ?_)
  · simpa only [ContextShape.sizes, ContextInput.shape, Option.map_map, Function.comp_def] using armingSizes
  · simpa only [ContextShape.sizes, ContextInput.shape, Option.map_map, Function.comp_def] using presigSizes

/-- Packages of one shape are determined by their bytes. -/
theorem fields_inj {S : Type} {fields : S → List (List UInt8)} {tag : List UInt8} {bytes : S → List UInt8}
    (layout : ∀ p, bytes p = tag ++ (fields p).flatten) (injective : Function.Injective fields)
    {package package' : Option S}
    (shape : package.map (fun p => (fields p).map List.length) =
      package'.map fun p => (fields p).map List.length)
    (same : package.map bytes = package'.map bytes) : package = package' := by
  cases package with
  | none =>
      cases package' with
      | none => rfl
      | some p' => cases same
  | some p =>
      cases package' with
      | none => cases same
      | some p' =>
          have joined := Option.some.inj same
          rw [layout, layout, List.append_cancel_left_eq] at joined
          exact congrArg some (injective (List.eq_iff_flatten_eq.mpr ⟨joined, Option.some.inj shape⟩))

/-- Contexts of one shape are determined by the bytes of their three layers. -/
theorem input_inj (shape : input.shape = input'.shape)
    (core : input.builder.ctxCoreBytes = input'.builder.ctxCoreBytes)
    (arming : input.arming.map armingPkgBytes = input'.arming.map armingPkgBytes)
    (presig : input.presig.map presigPkgBytes = input'.presig.map presigPkgBytes) : input = input' := by
  simp only [ContextInput.shape, ContextShape.mk.injEq] at shape
  obtain ⟨tapleaf, txidTemplate, pathTag, armingShape, presigShape⟩ := shape
  have fields : coreFields input = coreFields input' := by
    rw [ctxCoreBytes_builder, ctxCoreBytes_builder] at core
    refine List.eq_iff_flatten_eq.mpr ⟨core, ?_⟩
    simp only [coreFields, List.map_cons, List.map_nil, Vector.length_toList, tapleafBytes_length,
      tapleaf, txidTemplate, pathTag]
  simp only [coreFields, List.cons.injEq, and_true, true_and, Vector.toList_inj,
    tapleafBytes_injective.eq_iff, asBytes_injective.eq_iff] at fields
  obtain ⟨vkHash, xHash, tapleaf, txidTemplate, pathTag, yColsDigest, epochNonce⟩ := fields
  refine ContextInput.ext vkHash xHash yColsDigest epochNonce tapleaf txidTemplate pathTag
    (fields_inj armingPkgBytes_eq ?_ ?_ arming) (fields_inj presigPkgBytes_eq ?_ ?_ presig)
  · rintro ⟨_, _⟩ ⟨_, _⟩ same
    simpa [ArmingPackage.fields] using same
  · have fields := congrArg (Option.map ArmingPackage.fields) armingShape
    rw [Option.map_map, Option.map_map] at fields
    exact fields
  · rintro ⟨_, _, _, _, _⟩ ⟨_, _, _, _, _⟩ same
    simpa [PresigPackage.fields] using same
  · have fields := congrArg (Option.map PresigPackage.fields) presigShape
    rw [Option.map_map, Option.map_map] at fields
    exact fields

end Binding

section Collision

def zeroDigest : Digest := Vector.replicate 32 0

/-- The input of a shape whose fields are all zero. -/
def ContextShape.zeros (shape : ContextShape) : ContextInput where
  vkHash := zeroDigest
  xHash := zeroDigest
  yColsDigest := zeroDigest
  epochNonce := zeroDigest
  tapleaf := if shape.tapleaf then some (zeroDigest, 0) else none
  txidTemplate := List.replicate shape.txidTemplate 0
  pathTag := String.ofList (List.replicate shape.pathTag (Char.ofNat 0))
  arming := shape.arming.map (·.map fun size => List.replicate size 0)
  presig := shape.presig.map (·.map fun size => List.replicate size 0)

theorem asBytes_zeros (n : ℕ) :
    asBytes (String.ofList (List.replicate n (Char.ofNat 0))) = List.replicate n 0 := by
  have flat : (List.replicate n (Char.ofNat 0)).flatMap String.utf8EncodeChar = List.replicate n 0 := by
    induction n with
    | zero => rfl
    | succ n inductionHypothesis =>
        rw [List.replicate_succ, List.flatMap_cons, inductionHypothesis]
        rfl
  simp only [asBytes, String.toUTF8_eq_toByteArray, String.toByteArray_ofList, List.utf8Encode,
    List.data_toByteArray, flat]

theorem zeros_shape (shape : ContextShape) : shape.zeros.shape = shape := by
  obtain ⟨tapleaf, txidTemplate, pathTag, arming, presig⟩ := shape
  simp only [ContextShape.zeros, ContextInput.shape, ContextShape.mk.injEq, List.length_replicate,
    asBytes_zeros, Option.map_map, true_and]
  refine ⟨by cases tapleaf <;> rfl, ?_, ?_⟩
  · cases arming <;> simp [ArmingPackage.map]
  · cases presig <;> simp [PresigPackage.map]

/-- The first layer of zeros is determined by its size. -/
theorem zeros_core (shape : ContextShape) : shape.zeros.builder.ctxCoreBytes =
    asBytes "PVUGC/CTX_CORE" ++ (List.replicate (128 + shape.sizes.1) 0) := by
  have digest : zeroDigest.toList = List.replicate 32 0 := by decide
  have tapleaf : tapleafBytes (if shape.tapleaf then some (zeroDigest, 0) else none) =
      List.replicate (if shape.tapleaf then 33 else 0) 0 := by
    cases shape.tapleaf with
    | false => rfl
    | true => decide
  rw [ctxCoreBytes_builder, coreFields, List.flatten_cons]
  simp only [ContextShape.zeros, asBytes_zeros, digest, tapleaf, List.flatten_cons, List.flatten_nil,
    List.append_nil, List.append_cancel_left_eq, List.replicate_append_replicate, ContextShape.sizes]
  congr 1
  omega

theorem zeros_arming (shape : ContextShape) : shape.zeros.arming.map armingPkgBytes =
    shape.sizes.2.1.map fun size => asBytes "PVUGC/ARM" ++ List.replicate size 0 := by
  simp only [ContextShape.zeros, ContextShape.sizes, Option.map_map, Function.comp_def, armingPkgBytes_eq,
    ArmingPackage.fields, ArmingPackage.map, List.flatten_cons, List.flatten_nil, List.append_nil,
    List.replicate_append_replicate, List.sum_cons, List.sum_nil, Nat.add_zero]

theorem zeros_presig (shape : ContextShape) : shape.zeros.presig.map presigPkgBytes =
    shape.sizes.2.2.map fun size => asBytes "PVUGC/PRESIG" ++ List.replicate size 0 := by
  simp only [ContextShape.zeros, ContextShape.sizes, Option.map_map, Function.comp_def, presigPkgBytes_eq,
    PresigPackage.fields, PresigPackage.map, List.flatten_cons, List.flatten_nil, List.append_nil,
    List.replicate_append_replicate, List.sum_cons, List.sum_nil, Nat.add_zero]

/-- Shapes of one size hash the same strings when all fields are zero. -/
theorem zeros_hashed (sha256 : List UInt8 → Digest) {shape shape' : ContextShape}
    (sizes : shape.sizes = shape'.sizes) : shape.zeros.hashed sha256 = shape'.zeros.hashed sha256 := by
  have core : shape.zeros.builder.ctxCoreBytes = shape'.zeros.builder.ctxCoreBytes := by
    rw [zeros_core, zeros_core, sizes]
  have arming : shape.zeros.arming.map armingPkgBytes = shape'.zeros.arming.map armingPkgBytes := by
    rw [zeros_arming, zeros_arming, sizes]
  have presig : shape.zeros.presig.map presigPkgBytes = shape'.zeros.presig.map presigPkgBytes := by
    rw [zeros_presig, zeros_presig, sizes]
  have armingHash := congrArg (Option.map sha256) arming
  have presigHash := congrArg (Option.map sha256) presig
  rw [Option.map_map, Option.map_map] at armingHash presigHash
  rw [ContextInput.hashed, ContextInput.hashed, core, arming, presig]
  simp only [PvugcContextBuilder.buildCtxCore, core]
  exact congrArg₂ (fun a p => ctxBytes _ a p :: _) armingHash presigHash

/-- A digest that tells the four kinds of hashed strings apart by their tags. -/
def tagDigest (bytes : List UInt8) : Digest :=
  Vector.replicate 32
    (if asBytes "PVUGC/ARM" <+: bytes then 1
    else if asBytes "PVUGC/PRESIG" <+: bytes then 2
    else if asBytes "PVUGC/CTX_CORE" <+: bytes then 3 else 4)

theorem tagDigest_injOn (input : ContextInput) : Set.InjOn tagDigest {s | s ∈ input.hashed tagDigest} := by
  have core : tagDigest input.builder.ctxCoreBytes = Vector.replicate 32 3 := by
    rw [ctxCoreBytes_builder, coreFields, List.flatten_cons]
    simp [tagDigest, armTag, presigTag, ctxCoreTag]
  have last (arming presig : Option Digest) :
      tagDigest (ctxBytes (input.builder.buildCtxCore tagDigest) arming presig) = Vector.replicate 32 4 := by
    have digest : (Vector.replicate 32 (3 : UInt8)).toList = 3 :: List.replicate 31 3 := by decide
    rw [PvugcContextBuilder.buildCtxCore, core, ctxBytes, digest]
    simp [tagDigest, armTag, presigTag, ctxCoreTag, ctxTag]
  have arming (package : ArmingPackage (List UInt8)) :
      tagDigest (armingPkgBytes package) = Vector.replicate 32 1 := by
    simp [tagDigest, armingPkgBytes_eq, armTag]
  have presig (package : PresigPackage (List UInt8)) :
      tagDigest (presigPkgBytes package) = Vector.replicate 32 2 := by
    simp [tagDigest, presigPkgBytes_eq, armTag, presigTag]
  have kinds : ∀ s ∈ input.hashed tagDigest,
      (tagDigest s = Vector.replicate 32 4 ∧ s = ctxBytes (input.builder.buildCtxCore tagDigest)
        (input.arming.map (buildArmingPkgHash tagDigest)) (input.presig.map (buildPresigPkgHash tagDigest))) ∨
      (tagDigest s = Vector.replicate 32 3 ∧ s = input.builder.ctxCoreBytes) ∨
      (tagDigest s = Vector.replicate 32 1 ∧ input.arming.map armingPkgBytes = some s) ∨
      (tagDigest s = Vector.replicate 32 2 ∧ input.presig.map presigPkgBytes = some s) := by
    intro s member
    simp only [ContextInput.hashed, List.mem_cons, List.mem_append, Option.mem_toList] at member
    obtain rfl | rfl | armed | signed := member
    · exact .inl ⟨last _ _, rfl⟩
    · exact .inr (.inl ⟨core, rfl⟩)
    · obtain ⟨package, -, rfl⟩ := Option.map_eq_some_iff.mp armed
      exact .inr (.inr (.inl ⟨arming package, armed⟩))
    · obtain ⟨package, -, rfl⟩ := Option.map_eq_some_iff.mp signed
      exact .inr (.inr (.inr ⟨presig package, signed⟩))
  intro s first t second same
  rcases kinds s first with ⟨digest, value⟩ | ⟨digest, value⟩ | ⟨digest, value⟩ | ⟨digest, value⟩ <;>
    rcases kinds t second with ⟨digest', value'⟩ | ⟨digest', value'⟩ | ⟨digest', value'⟩ | ⟨digest', value'⟩ <;>
    rw [digest, digest'] at same <;>
    first
    | exact value.trans value'.symm
    | exact Option.some.inj (value.symm.trans value')
    | exact absurd same (by decide)

end Collision

/-- Contexts of two shapes are bound by their hash exactly when the shapes agree or the sizes of some layer
differ. -/
theorem ctxHash_binds_iff (shape shape' : ContextShape) :
    (∀ (sha256 : List UInt8 → Digest) (input input' : ContextInput), input.shape = shape →
      input'.shape = shape' → CollisionFree sha256 input input' →
      (input.context sha256).ctxHash = (input'.context sha256).ctxHash → input = input') ↔
    shape = shape' ∨ shape.sizes ≠ shape'.sizes := by
  constructor
  · intro binds
    by_contra! collision
    obtain ⟨different, sizes⟩ := collision
    have strings := zeros_hashed tagDigest sizes
    have free : CollisionFree tagDigest shape.zeros shape'.zeros := by
      simpa only [CollisionFree, strings, or_self] using tagDigest_injOn shape'.zeros
    have same : (shape.zeros.context tagDigest).ctxHash = (shape'.zeros.context tagDigest).ctxHash :=
      congrArg tagDigest (List.cons.inj strings).1
    have inputs := binds tagDigest _ _ (zeros_shape shape) (zeros_shape shape') free same
    rw [← zeros_shape shape, inputs, zeros_shape] at different
    exact different rfl
  · rintro agree sha256 input input' rfl rfl free same
    obtain ⟨core, arming, presig⟩ := ctxHash_eq free same
    rcases agree with shape | sizes
    · exact input_inj shape core arming presig
    · exact absurd (sizes_eq core arming presig) sizes

/-- A byte that moves from the transaction template to the path tag keeps the context hash, for every hash. -/
theorem ctxHash_moves_byte : ∃ input input' : ContextInput, input ≠ input' ∧
    input.txidTemplate ≠ input'.txidTemplate ∧ input.pathTag ≠ input'.pathTag ∧
    ∀ sha256 : List UInt8 → Digest, (input.context sha256).ctxHash = (input'.context sha256).ctxHash := by
  let spend (txidTemplate : List UInt8) (pathTag : String) : ContextInput :=
    { vkHash := zeroDigest
      xHash := zeroDigest
      yColsDigest := zeroDigest
      epochNonce := zeroDigest
      tapleaf := none
      txidTemplate := txidTemplate
      pathTag := pathTag
      arming := none
      presig := none }
  refine ⟨spend [120, 97] "bort", spend [120] "abort", ?_, by decide, by decide, ?_⟩
  · intro same
    exact absurd (congrArg ContextInput.txidTemplate same) (by decide)
  · intro sha256
    have core : (spend [120, 97] "bort").builder.ctxCoreBytes = (spend [120] "abort").builder.ctxCoreBytes := by
      decide
    rw [ContextInput.context, ContextInput.context]
    simp only [PvugcContextBuilder.finalize, PvugcContextBuilder.buildCtxCore, core]
    rfl

end Pvugc.OneSided
