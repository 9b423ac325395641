import LiteLlmSecurity.KeyManagement.Lifecycle
import LiteLlmSecurity.Text.Separator

/-!
# What key material is derived from

The hashed text is the key id, the name of the kind right behind it and three
decimals, each after a bar. The key id is free text and may contain bars, digits
and names of kinds, so the text is read from its end: decimals contain no bar, and
no name of a kind ends another, since they end in different letters. What is left
is the key id.

A stored key was derived from the arguments of the first call that issued its key id and
version, so its material tells which kind and which seed that call had.
-/

namespace LiteLlmSecurity

open Rust Machine

/-- What one round of the derivation hashes. -/
def derivationInput (keyId : String) (kind : KeyKind) (version : UInt32) (seed counter : UInt64) :
    Bytes :=
  asBytes "lite-llm::key-derivation" ++ asBytes keyId ++
    asBytes s!"{kind.debug}|{version}|{seed}|{counter}"

/-- The names of the kinds end in different letters. -/
theorem KeyKind.debug_getLast?_injective :
    Function.Injective fun kind : KeyKind => kind.debug.toList.getLast? := by
  intro kind kind' h
  cases kind <;> cases kind' <;> first | rfl | exact absurd h (by decide)

theorem KeyKind.debug_toList_ne_nil (kind : KeyKind) : kind.debug.toList ≠ [] := by
  cases kind <;> decide

/-- The hashed text determines the key id, the kind, the version and the seed. -/
theorem derivationInput_inj {keyId keyId' : String} {kind kind' : KeyKind}
    {version version' : UInt32} {seed seed' counter counter' : UInt64}
    (h : derivationInput keyId' kind' version' seed' counter' =
      derivationInput keyId kind version seed counter) :
    keyId' = keyId ∧ kind' = kind ∧ version' = version ∧ seed' = seed := by
  rw [derivationInput, derivationInput, List.append_assoc, List.append_assoc,
    List.append_cancel_left_eq, ← asBytes_append, ← asBytes_append, asBytes_inj] at h
  have hlist := congrArg String.toList h
  simp only [toString_string, toString_uint32, toString_uint64, String.toList_append] at hlist
  have hcut : keyId'.toList ++ kind'.debug.toList ++ '|' :: version'.toNat.repr.toList ++
        '|' :: seed'.toNat.repr.toList ++ '|' :: counter'.toNat.repr.toList =
      keyId.toList ++ kind.debug.toList ++ '|' :: version.toNat.repr.toList ++
        '|' :: seed.toNat.repr.toList ++ '|' :: counter.toNat.repr.toList := by
    simpa using hlist
  have noBar : ∀ n : Nat, '|' ∉ n.repr.toList := fun n => Decimal.notMem_repr (by decide) n
  obtain ⟨hseeds, -⟩ := Separator.append_cons_inj_right hcut (noBar _) (noBar _)
  obtain ⟨hversions, hseed⟩ := Separator.append_cons_inj_right hseeds (noBar _) (noBar _)
  obtain ⟨hnames, hversion⟩ := Separator.append_cons_inj_right hversions (noBar _) (noBar _)
  obtain ⟨hkeyId, hkind⟩ := Separator.append_label_inj KeyKind.debug_toList_ne_nil
    KeyKind.debug_getLast?_injective hnames
  exact ⟨String.toList_inj.mp hkeyId, hkind,
    UInt32.toNat_inj.mp (Decimal.repr_toList_injective hversion),
    UInt64.toNat_inj.mp (Decimal.repr_toList_injective hseed)⟩

/-- The seed that an operation gives to the key it issues. -/
def KeyOperation.seed : KeyOperation → Option UInt64
  | .generateKey _ _ _ _ seed => some seed
  | .rotateKey _ _ seed => some seed
  | .addAccessPolicy _ => none
  | .revokeKey .. => none

namespace KeyManager

variable {sha256 : Bytes → Vector UInt8 32}

/-- Two materials are equal only if everything they are derived from is. Assumed: the two
inputs hashed are no collision. -/
theorem deriveKeyMaterial_eq_iff {keyId keyId' : String} {kind kind' : KeyKind}
    {version version' : UInt32} {seed seed' : UInt64}
    (collisionFree : Set.InjOn sha256
      {derivationInput keyId kind version seed 0, derivationInput keyId' kind' version' seed' 0}) :
    deriveKeyMaterial sha256 keyId' kind' version' seed' =
        deriveKeyMaterial sha256 keyId kind version seed ↔
      (keyId', kind', version', seed') = (keyId, kind, version, seed) := by
  constructor
  · intro same
    rw [deriveKeyMaterial_eq, deriveKeyMaterial_eq] at same
    have hinput := collisionFree (by simp [derivationInput]) (by simp [derivationInput])
      (Vector.toList_inj.mp same)
    obtain ⟨rfl, rfl, rfl, rfl⟩ := derivationInput_inj hinput
    rfl
  · intro same
    cases same
    rfl

/-- Key material is the output of one round, 32 bytes of it, and is different for
different key ids, kinds, versions and seeds. Assumed: the two inputs hashed are no
collision. -/
theorem deriveKeyMaterial_separates (keyId keyId' : String) (kind kind' : KeyKind)
    (version version' : UInt32) (seed seed' : UInt64)
    (other : (keyId', kind', version', seed') ≠ (keyId, kind, version, seed))
    (collisionFree : Set.InjOn sha256
      {derivationInput keyId kind version seed 0, derivationInput keyId' kind' version' seed' 0}) :
    deriveKeyMaterial sha256 keyId' kind' version' seed' ≠
        deriveKeyMaterial sha256 keyId kind version seed ∧
      deriveKeyMaterial sha256 keyId kind version seed =
        deriveLoop sha256 (derivationInput keyId kind version seed) [] 0 ∧
      deriveLoop sha256 (derivationInput keyId kind version seed) [] 0 =
        (sha256 (derivationInput keyId kind version seed 0)).toList ∧
      (deriveKeyMaterial sha256 keyId kind version seed).length = 32 := by
  have hmaterial : ∀ keyId kind version seed, deriveKeyMaterial sha256 keyId kind version seed =
      (sha256 (derivationInput keyId kind version seed 0)).toList :=
    deriveKeyMaterial_eq sha256
  have hloop := deriveLoop_eq sha256 (derivationInput keyId kind version seed)
  refine ⟨fun same => other ((deriveKeyMaterial_eq_iff collisionFree).mp same),
    (hmaterial _ _ _ _).trans hloop.symm, hloop, ?_⟩
  rw [hmaterial, Vector.length_toList]

/-- A key id that ends in the name of a kind, and the key id without it. -/
theorem deriveKeyMaterial_separates_kind_name :
    deriveKeyMaterial Sha256.hash "modelTls" .tls 1 42 ≠
        deriveKeyMaterial Sha256.hash "model" .tls 1 42 ∧
      deriveKeyMaterial Sha256.hash "model" .tls 1 42 =
        deriveLoop Sha256.hash (derivationInput "model" .tls 1 42) [] 0 ∧
      deriveLoop Sha256.hash (derivationInput "model" .tls 1 42) [] 0 =
        (Sha256.hash (derivationInput "model" .tls 1 42 0)).toList ∧
      (deriveKeyMaterial Sha256.hash "model" .tls 1 42).length = 32 := by
  have hdigests : Sha256.hash (derivationInput "model" .tls 1 42 0) ≠
      Sha256.hash (derivationInput "modelTls" .tls 1 42 0) := by decide +kernel
  exact deriveKeyMaterial_separates "model" "modelTls" .tls .tls 1 1 42 42 (by decide)
    (Set.injOn_pair.mpr fun h => absurd h hdigests)

/-! ## What a stored key was derived from -/

/-- What the key that a call issued was derived from, going by its reply. -/
def derivedFrom : KeyOperation × SecurityOutcome (Option KeyMaterialRef) → Option Bytes
  | (.generateKey _ _ _ _ seed, .ok (some reference)) =>
      some (derivationInput reference.keyId reference.kind reference.version seed 0)
  | (.rotateKey _ _ seed, .ok (some reference)) =>
      some (derivationInput reference.keyId reference.kind reference.version seed 0)
  | _ => none

/-- The inputs that a run derived its keys from. -/
def derivationInputs (past : List (KeyOperation × SecurityOutcome (Option KeyMaterialRef))) :
    Set Bytes :=
  {input | ∃ call ∈ past, derivedFrom call = some input}

variable (sha256) in
/-- The first call of a history that issued a key under a key id and version. -/
def firstIssue (rotationPolicy : KeyRotationPolicy)
    (past : List (KeyOperation × SecurityOutcome (Option KeyMaterialRef)))
    (keyId : String) (version : UInt32) :
    Option (KeyOperation × SecurityOutcome (Option KeyMaterialRef)) :=
  past.find? fun call => (issued sha256 rotationPolicy call).any fun key =>
    key.reference.keyId = keyId ∧ key.reference.version = version

theorem firstIssued_eq_bind (rotationPolicy : KeyRotationPolicy)
    (past : List (KeyOperation × SecurityOutcome (Option KeyMaterialRef)))
    (keyId : String) (version : UInt32) :
    firstIssued sha256 rotationPolicy past keyId version =
      (firstIssue sha256 rotationPolicy past keyId version).bind (issued sha256 rotationPolicy) :=
  List.find?_filterMap

theorem exists_seed_of_issued {rotationPolicy : KeyRotationPolicy}
    {call : KeyOperation × SecurityOutcome (Option KeyMaterialRef)} {key : ManagedKey}
    (h : issued sha256 rotationPolicy call = some key) :
    ∃ seed, call.1.seed = some seed ∧
      derivedFrom call = some (derivationInput key.reference.keyId key.reference.kind
        key.reference.version seed 0) ∧
      key.material = deriveKeyMaterial sha256 key.reference.keyId key.reference.kind
        key.reference.version seed := by
  unfold issued at h
  split at h
  · cases h
    exact ⟨_, rfl, rfl, rfl⟩
  · cases h
    exact ⟨_, rfl, rfl, rfl⟩
  · cases h

section Reached

variable {checks : OverflowChecks} {rotationPolicy : KeyRotationPolicy} {manager : KeyManager}
variable (hnew : new rotationPolicy = .ok manager) {operations : List KeyOperation}

include hnew

/-- A stored key has the kind and the seed of the first call that issued its key id and
version. -/
theorem exists_call_of_stored {keyId : String} {version : UInt32} {key : ManagedKey}
    (hstored : (after (step sha256 checks) manager operations).stored keyId version = some key) :
    ∃ call seed,
      firstIssue sha256 rotationPolicy (history (step sha256 checks) manager operations)
        keyId version = some call ∧
      call.1.seed = some seed ∧
      derivationInput keyId key.reference.kind version seed 0 ∈
        derivationInputs (history (step sha256 checks) manager operations) ∧
      key.material = deriveKeyMaterial sha256 keyId key.reference.kind version seed := by
  have hissued := firstIssued_of_stored sha256 hnew hstored
  have hplace := List.find?_some hissued
  obtain ⟨rfl, rfl⟩ := decide_eq_true_iff.mp hplace
  rw [firstIssued_eq_bind] at hissued
  obtain ⟨call, hfirst, hkey⟩ := Option.bind_eq_some_iff.mp hissued
  obtain ⟨seed, hseed, hinput, hmaterial⟩ := exists_seed_of_issued hkey
  exact ⟨call, seed, hfirst, hseed, ⟨call, List.mem_of_find?_eq_some hfirst, hinput⟩, hmaterial⟩

/-- The material of a stored key is that of another derivation under its key id and version
exactly when kind and seed are those of the call that issued them first. Assumed: the two
inputs hashed are no collision. -/
theorem stored_material_eq_iff {keyId : String} {version : UInt32} {key : ManagedKey}
    (hstored : (after (step sha256 checks) manager operations).stored keyId version = some key) :
    ∃ call firstSeed,
      firstIssue sha256 rotationPolicy (history (step sha256 checks) manager operations)
        keyId version = some call ∧
      call.1.seed = some firstSeed ∧
      ∀ kind seed, Set.InjOn sha256 {derivationInput keyId kind version seed 0,
          derivationInput keyId key.reference.kind version firstSeed 0} →
        (key.material = deriveKeyMaterial sha256 keyId kind version seed ↔
          key.reference.kind = kind ∧ firstSeed = seed) := by
  obtain ⟨call, firstSeed, hfirst, hseed, -, hmaterial⟩ := exists_call_of_stored hnew hstored
  refine ⟨call, firstSeed, hfirst, hseed, fun kind seed collisionFree => ?_⟩
  rw [hmaterial, deriveKeyMaterial_eq_iff collisionFree]
  simp

/-- A reference that generates a stored version again retrieves the key of that call exactly
when the older key is served on the day and has the kind and the seed of the call. Assumed:
the inputs of the two are no collision. -/
theorem retrieveKey_regenerated_iff {keyId identity : String} {kind : KeyKind}
    {version day : UInt32} {seed : UInt64} {reference : KeyMaterialRef} {key : ManagedKey}
    {policy : KeyAccessPolicy}
    (hdays : day.toNat + rotationPolicy.rotateEveryDays.toNat +
      rotationPolicy.overlapDays.toNat < 2 ^ 32)
    (hgenerate : (generateKey sha256 checks (after (step sha256 checks) manager operations) keyId
      kind version day seed).1 = .ok reference)
    (hpolicy : (after (step sha256 checks) manager operations).policies[identity]? = some policy)
    (hadmits : policy.Admits reference.keyId reference.kind)
    (hstored : (after (step sha256 checks) manager operations).stored keyId version = some key) :
    ∃ call firstSeed,
      firstIssue sha256 rotationPolicy (history (step sha256 checks) manager operations)
        keyId version = some call ∧
      call.1.seed = some firstSeed ∧
      (Set.InjOn sha256 {derivationInput keyId kind version seed 0,
          derivationInput keyId key.reference.kind version firstSeed 0} →
        (retrieveKey checks
            (generateKey sha256 checks (after (step sha256 checks) manager operations) keyId kind
              version day seed).2 identity reference day =
            .ok (deriveKeyMaterial sha256 reference.keyId reference.kind reference.version seed) ↔
          key.ServedOn checks rotationPolicy day ∧ key.reference.kind = kind ∧
            firstSeed = seed)) := by
  obtain ⟨call, firstSeed, hfirst, hseed, hmaterial⟩ := stored_material_eq_iff hnew hstored
  refine ⟨call, firstSeed, hfirst, hseed, fun collisionFree => ?_⟩
  have hrotation := (rotationPolicy_after sha256 checks manager operations).trans
    (rotationPolicy_new hnew)
  rw [← hrotation] at hdays ⊢
  rw [retrieveKey_generated_iff sha256 checks hdays hgenerate hpolicy hadmits, hstored]
  simp only [Option.some.injEq, forall_eq', hmaterial kind seed collisionFree]

/-- Keys stored under different key ids or versions have different material, 32 bytes each.
Assumed: no collision between the inputs of the run. -/
theorem stored_material_ne
    (collisionFree : Set.InjOn sha256
      (derivationInputs (history (step sha256 checks) manager operations)))
    {keyId keyId' : String} {version version' : UInt32} {key key' : ManagedKey}
    (hstored : (after (step sha256 checks) manager operations).stored keyId version = some key)
    (hstored' : (after (step sha256 checks) manager operations).stored keyId' version' =
      some key')
    (other : (keyId', version') ≠ (keyId, version)) :
    key.material ≠ key'.material ∧ key.material.length = 32 ∧ key'.material.length = 32 := by
  obtain ⟨-, seed, -, -, hinput, hmaterial⟩ := exists_call_of_stored hnew hstored
  obtain ⟨-, seed', -, -, hinput', hmaterial'⟩ := exists_call_of_stored hnew hstored'
  have apart := collisionFree.mono
    (Set.insert_subset hinput' (Set.singleton_subset_iff.mpr hinput))
  refine ⟨fun same => ?_, ?_, ?_⟩
  · rw [hmaterial, hmaterial', deriveKeyMaterial_eq_iff apart, Prod.mk.injEq, Prod.mk.injEq,
      Prod.mk.injEq] at same
    exact other (Prod.ext same.1.symm same.2.2.1.symm)
  · rw [hmaterial, deriveKeyMaterial_eq, Vector.length_toList]
  · rw [hmaterial', deriveKeyMaterial_eq, Vector.length_toList]

end Reached

end KeyManager

end LiteLlmSecurity
