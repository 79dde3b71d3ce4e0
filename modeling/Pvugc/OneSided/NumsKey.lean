import Pvugc.OneSided.ContextBinding

namespace Pvugc.OneSided

/-- The derivation of the internal key of an instance, from public values only. -/
@[ext]
structure NumsKeyDerivation where
  vkHash : Digest
  xHash : Digest
  tapleafHash : Option Digest
  tapleafVersion : UInt8
  epochNonce : Digest

namespace NumsKeyDerivation

def new (vkHash xHash epochNonce : Digest) : NumsKeyDerivation where
  vkHash := vkHash
  xHash := xHash
  tapleafHash := none
  tapleafVersion := 0xc0
  epochNonce := epochNonce

def withTapleaf (nums : NumsKeyDerivation) (tapleafHash : Digest) (version : UInt8) : NumsKeyDerivation :=
  { nums with tapleafHash := some tapleafHash, tapleafVersion := version }

/-- The version is only written behind a tapleaf hash. -/
def tapleaf (nums : NumsKeyDerivation) : Option (Digest × UInt8) :=
  nums.tapleafHash.map fun hash => (hash, nums.tapleafVersion)

/-- The input of the hash to the curve. -/
def computeNumsChallenge (nums : NumsKeyDerivation) : List UInt8 :=
  asBytes "PVUGC/NUMS" ++ nums.vkHash.toList ++ nums.xHash.toList ++
    (match nums.tapleafHash with
    | some hash => hash.toList ++ [nums.tapleafVersion]
    | none => []) ++ nums.epochNonce.toList

/-- The values that the constructors of the type make. -/
inductive Reachable : NumsKeyDerivation → Prop
  | new (vkHash xHash epochNonce : Digest) : Reachable (new vkHash xHash epochNonce)
  | withTapleaf {nums : NumsKeyDerivation} (tapleafHash : Digest) (version : UInt8) :
      Reachable nums → Reachable (nums.withTapleaf tapleafHash version)

end NumsKeyDerivation

/-- The nonces that were registered. -/
structure EpochNonceRegistry where
  seenNonces : Finset Digest

namespace EpochNonceRegistry

def new : EpochNonceRegistry := ⟨∅⟩

def reuseMessage : String := "Epoch nonce reuse detected"

def register (registry : EpochNonceRegistry) (nonce : Digest) : EpochNonceRegistry × Except String Unit :=
  if nonce ∈ registry.seenNonces then (registry, .error reuseMessage)
  else (⟨insert nonce registry.seenNonces⟩, .ok ())

/-- The results of a sequence of calls, and the registry behind them. -/
def registerAll : EpochNonceRegistry → List Digest → EpochNonceRegistry × List (Except String Unit)
  | registry, [] => (registry, [])
  | registry, nonce :: rest =>
      let (next, result) := registry.register nonce
      let (last, results) := registerAll next rest
      (last, result :: results)

/-- The instances of a run whose nonces are not refused. -/
def accepted (registry : EpochNonceRegistry) (instances : List NumsKeyDerivation) : List NumsKeyDerivation :=
  ((instances.zip (registry.registerAll (instances.map NumsKeyDerivation.epochNonce)).2).filter
    fun entry => entry.2.isOk).map Prod.fst

end EpochNonceRegistry

section Challenges

namespace NumsKeyDerivation

theorem computeNumsChallenge_eq (nums : NumsKeyDerivation) : nums.computeNumsChallenge =
    asBytes "PVUGC/NUMS" ++ nums.vkHash.toList ++ nums.xHash.toList ++ tapleafBytes nums.tapleaf ++
      nums.epochNonce.toList := by
  rw [computeNumsChallenge, tapleaf]
  cases nums.tapleafHash <;> rfl

/-- The challenge determines what it is made of. -/
theorem computeNumsChallenge_eq_iff (nums nums' : NumsKeyDerivation) :
    nums.computeNumsChallenge = nums'.computeNumsChallenge ↔
      nums.vkHash = nums'.vkHash ∧ nums.xHash = nums'.xHash ∧ nums.tapleaf = nums'.tapleaf ∧
        nums.epochNonce = nums'.epochNonce := by
  constructor
  · intro same
    rw [computeNumsChallenge_eq, computeNumsChallenge_eq] at same
    have nonceLength : nums.epochNonce.toList.length = nums'.epochNonce.toList.length := by
      rw [Vector.length_toList, Vector.length_toList]
    obtain ⟨front, nonce⟩ := List.append_inj' same nonceLength
    simp only [List.append_assoc, List.append_cancel_left_eq] at front
    obtain ⟨vkHash, front⟩ := List.append_inj front (by rw [Vector.length_toList, Vector.length_toList])
    obtain ⟨xHash, leaf⟩ := List.append_inj front (by rw [Vector.length_toList, Vector.length_toList])
    exact ⟨Vector.toList_inj.mp vkHash, Vector.toList_inj.mp xHash, tapleafBytes_injective leaf,
      Vector.toList_inj.mp nonce⟩
  · intro same
    obtain ⟨vkHash, xHash, leaf, nonce⟩ := same
    rw [computeNumsChallenge_eq, computeNumsChallenge_eq, vkHash, xHash, leaf, nonce]

/-- Without a tapleaf hash the version is the default of the constructor. -/
theorem Reachable.version_of_none {nums : NumsKeyDerivation} (reachable : nums.Reachable)
    (none : nums.tapleafHash = none) : nums.tapleafVersion = 0xc0 := by
  cases reachable with
  | new vkHash xHash epochNonce => rfl
  | withTapleaf tapleafHash version reachable => cases none

theorem Reachable.eq_of_tapleaf {nums nums' : NumsKeyDerivation} (reachable : nums.Reachable)
    (reachable' : nums'.Reachable) (same : nums.tapleaf = nums'.tapleaf) :
    nums.tapleafHash = nums'.tapleafHash ∧ nums.tapleafVersion = nums'.tapleafVersion := by
  rw [tapleaf, tapleaf] at same
  cases hash : nums.tapleafHash with
  | none =>
      cases hash' : nums'.tapleafHash with
      | none => exact ⟨rfl, (reachable.version_of_none hash).trans (reachable'.version_of_none hash').symm⟩
      | some leaf' =>
          rw [hash, hash'] at same
          cases same
  | some leaf =>
      cases hash' : nums'.tapleafHash with
      | none =>
          rw [hash, hash'] at same
          cases same
      | some leaf' =>
          rw [hash, hash'] at same
          obtain ⟨leaves, versions⟩ := Prod.mk.inj (Option.some.inj same)
          exact ⟨congrArg some leaves, versions⟩

/-- The derivations that the constructors make have different challenges. -/
theorem computeNumsChallenge_injOn : Set.InjOn computeNumsChallenge {nums | nums.Reachable} := by
  intro nums reachable nums' reachable' same
  obtain ⟨vkHash, xHash, leaf, nonce⟩ := (computeNumsChallenge_eq_iff nums nums').mp same
  obtain ⟨hash, version⟩ := Reachable.eq_of_tapleaf reachable reachable' leaf
  ext1
  · exact vkHash
  · exact xHash
  · exact hash
  · exact version
  · exact nonce

end NumsKeyDerivation

end Challenges

section Runs

namespace EpochNonceRegistry

/-- What one call does. -/
theorem register_cases (registry : EpochNonceRegistry) (nonce : Digest) :
    (nonce ∈ registry.seenNonces ∧ registry.register nonce = (registry, .error reuseMessage)) ∨
      (nonce ∉ registry.seenNonces ∧
        registry.register nonce = (⟨insert nonce registry.seenNonces⟩, .ok ())) := by
  by_cases seen : nonce ∈ registry.seenNonces
  · exact Or.inl ⟨seen, if_pos seen⟩
  · exact Or.inr ⟨seen, if_neg seen⟩

/-- A call leaves its nonce registered, whatever its result. -/
theorem register_seenNonces (registry : EpochNonceRegistry) (nonce : Digest) :
    (registry.register nonce).1.seenNonces = insert nonce registry.seenNonces := by
  rcases registry.register_cases nonce with ⟨seen, result⟩ | ⟨fresh, result⟩
  · rw [result, Finset.insert_eq_of_mem seen]
  · rw [result]

theorem register_eq_error_iff (registry : EpochNonceRegistry) (nonce : Digest) :
    (registry.register nonce).2 = .error reuseMessage ↔ nonce ∈ registry.seenNonces := by
  rcases registry.register_cases nonce with ⟨seen, result⟩ | ⟨fresh, result⟩
  · rw [result]
    exact iff_of_true rfl seen
  · rw [result]
    exact iff_of_false nofun fresh

/-- A run registers all its nonces. -/
theorem registerAll_seenNonces (registry : EpochNonceRegistry) (nonces : List Digest) :
    (registry.registerAll nonces).1.seenNonces = registry.seenNonces ∪ nonces.toFinset := by
  induction nonces generalizing registry with
  | nil => exact (Finset.union_empty _).symm
  | cons nonce rest ih =>
      rw [registerAll, ih, register_seenNonces, List.toFinset_cons, Finset.insert_union, Finset.union_insert]

/-- A call of a run is refused exactly when its nonce was registered before the run or earlier in it. -/
theorem registerAll_refused_iff (registry : EpochNonceRegistry) (nonces : List Digest) {i : ℕ} {nonce : Digest}
    (called : nonces[i]? = some nonce) :
    (registry.registerAll nonces).2[i]? = some (.error reuseMessage) ↔
      nonce ∈ registry.seenNonces ∨ nonce ∈ nonces.take i := by
  induction nonces generalizing registry i with
  | nil => cases called
  | cons first rest ih =>
      cases i with
      | zero =>
          cases called
          rw [registerAll, List.getElem?_cons_zero, Option.some_inj, register_eq_error_iff]
          simp
      | succ i =>
          rw [List.getElem?_cons_succ] at called
          rw [registerAll, List.getElem?_cons_succ, ih _ called, register_seenNonces, Finset.mem_insert,
            List.take_succ_cons, List.mem_cons, or_assoc, or_left_comm]

theorem accepted_cons (registry : EpochNonceRegistry) (nums : NumsKeyDerivation) (rest : List NumsKeyDerivation) :
    registry.accepted (nums :: rest) =
      if nums.epochNonce ∈ registry.seenNonces then registry.accepted rest
      else nums :: accepted ⟨insert nums.epochNonce registry.seenNonces⟩ rest := by
  rcases registry.register_cases nums.epochNonce with ⟨seen, result⟩ | ⟨fresh, result⟩
  · rw [if_pos seen, accepted, List.map_cons, registerAll, result]
    rfl
  · rw [if_neg fresh, accepted, List.map_cons, registerAll, result]
    rfl

/-- The accepted instances have nonces that are new to the registry, and different from each other. -/
theorem accepted_nonces (registry : EpochNonceRegistry) (instances : List NumsKeyDerivation) :
    (∀ nums ∈ registry.accepted instances, nums.epochNonce ∉ registry.seenNonces) ∧
      (registry.accepted instances).Pairwise fun nums nums' => nums.epochNonce ≠ nums'.epochNonce := by
  induction instances generalizing registry with
  | nil => exact ⟨nofun, List.Pairwise.nil⟩
  | cons nums rest ih =>
      rw [accepted_cons]
      split
      case isTrue seen => exact ih registry
      case isFalse fresh =>
        obtain ⟨unseen, different⟩ := ih ⟨insert nums.epochNonce registry.seenNonces⟩
        constructor
        · intro nums' member
          rcases List.mem_cons.mp member with rfl | later
          · exact fresh
          · exact fun seen => unseen nums' later (Finset.mem_insert_of_mem seen)
        · refine List.pairwise_cons.mpr ⟨?_, different⟩
          intro nums' later same
          exact unseen nums' later (same ▸ Finset.mem_insert_self _ _)

/-- In a run of calls on a new registry, a nonce is refused exactly when it was registered before, and the accepted
instances have different challenges; a challenge gives a derivation of the constructors away. -/
theorem registered_challenges (instances : List NumsKeyDerivation) :
    (new.registerAll (instances.map NumsKeyDerivation.epochNonce)).1.seenNonces =
      (instances.map NumsKeyDerivation.epochNonce).toFinset ∧
    (∀ (i : ℕ) (nums : NumsKeyDerivation), instances[i]? = some nums →
      ((new.registerAll (instances.map NumsKeyDerivation.epochNonce)).2[i]? = some (.error reuseMessage) ↔
        ∃ earlier ∈ instances.take i, earlier.epochNonce = nums.epochNonce)) ∧
    ((new.accepted instances).map NumsKeyDerivation.computeNumsChallenge).Nodup ∧
    Set.InjOn NumsKeyDerivation.computeNumsChallenge {nums | nums.Reachable} := by
  refine ⟨?_, ?_, ?_, NumsKeyDerivation.computeNumsChallenge_injOn⟩
  · rw [registerAll_seenNonces]
    exact Finset.empty_union _
  · intro i nums called
    have nonce : (instances.map NumsKeyDerivation.epochNonce)[i]? = some nums.epochNonce := by
      rw [List.getElem?_map, called, Option.map_some]
    rw [registerAll_refused_iff new _ nonce, ← List.map_take, List.mem_map]
    exact or_iff_right (Finset.notMem_empty _)
  · rw [List.Nodup, List.pairwise_map]
    apply (accepted_nonces new instances).2.imp
    intro nums nums' different same
    exact different ((NumsKeyDerivation.computeNumsChallenge_eq_iff nums nums').mp same).2.2.2

end EpochNonceRegistry

end Runs

end Pvugc.OneSided
