import LiteLlmSecurity.Integrity.Locality

/-!
# The key and the payloads in force

A verifier holds one key under an id, the one that was registered last, and a store one
payload under a path, the one that was inserted last. A registration whose text is no
public key fails and leaves the earlier key in force. So after any run a load is decided
by what was last written under the key id of its envelope and under its paths: a manifest
that loaded before may be refused after its key was rolled over, and the other way round.
-/

namespace LiteLlmSecurity

open Rust Machine

section

variable {ed25519 : Ed25519} {sha256 : Bytes → Vector UInt8 32}
  {sha512 : Bytes → Vector UInt8 64} {hex : Hex} {subtle : Subtle}

/-! ## What is written last -/

/-- The public key that a hexadecimal text stands for, if it is one. -/
def Ed25519.ofHex (ed25519 : Ed25519) (hex : Hex) (hexBytes : String) :
    Option ed25519.VerifyingKey := do
  let bytes ← (hex.decode hexBytes).toOption
  let array ← tryInto 32 bytes
  (ed25519.fromBytes array).toOption

namespace KeyRegistration

/-- The key that a registration puts under an id. -/
def keyFor (hex : Hex) (keyId : String) : KeyRegistration ed25519 → Option ed25519.VerifyingKey
  | .registerKey other verifyingKey => if other = keyId then some verifyingKey else none
  | .registerKeyFromHex other hexBytes =>
      if other = keyId then ed25519.ofHex hex hexBytes else none

/-- The key that was last put under an id. -/
def lastKey (hex : Hex) (keyId : String) (registrations : List (KeyRegistration ed25519)) :
    Option ed25519.VerifyingKey :=
  (registrations.filterMap (keyFor hex keyId)).getLast?

end KeyRegistration

open KeyRegistration

/-- The payload that an insertion puts under a path. -/
def payloadFor (path : String) (object : String × Bytes) : Option Bytes :=
  if object.1 = path then some object.2 else none

/-- The payload that was last inserted under a path. -/
def lastPayload (path : String) (objects : List (String × Bytes)) : Option Bytes :=
  (objects.filterMap (payloadFor path)).getLast?

theorem mem_of_lastPayload {path : String} {objects : List (String × Bytes)} {payload : Bytes}
    (h : lastPayload path objects = some payload) : (path, payload) ∈ objects := by
  obtain ⟨object, hobject, hfor⟩ := List.mem_filterMap.mp (List.mem_of_getLast? h)
  obtain ⟨rfl, rfl⟩ : object.1 = path ∧ object.2 = payload := by
    simpa [payloadFor] using hfor
  exact hobject

/-- What alone was inserted under a path is the last payload there. -/
theorem lastPayload_of_unique {path : String} {objects : List (String × Bytes)} {payload : Bytes}
    (inserted : (path, payload) ∈ objects)
    (unique : ∀ other, (path, other) ∈ objects → other = payload) :
    lastPayload path objects = some payload := by
  cases hlast : lastPayload path objects with
  | none =>
      have none := List.filterMap_eq_nil_iff.mp (List.getLast?_eq_none_iff.mp hlast) _ inserted
      simp [payloadFor] at none
  | some other => rw [unique other (mem_of_lastPayload hlast)]

theorem SignatureVerifier.registerKeyFromHex_eq (hex : Hex) (verifier : SignatureVerifier ed25519)
    (keyId hexBytes : String) :
    (verifier.registerKeyFromHex hex keyId hexBytes).2 =
      (ed25519.ofHex hex hexBytes).elim verifier (verifier.registerKey keyId) := by
  cases hdecode : hex.decode hexBytes with
  | error e => simp [registerKeyFromHex, Ed25519.ofHex, hdecode, Except.toOption]
  | ok bytes =>
      cases harray : tryInto 32 bytes with
      | none => simp [registerKeyFromHex, Ed25519.ofHex, hdecode, harray, Except.toOption]
      | some array =>
          cases hkey : ed25519.fromBytes array <;>
            simp [registerKeyFromHex, registerKey, Ed25519.ofHex, hdecode, harray, hkey,
              Except.toOption]

theorem SignatureVerifier.pubKeys_step (keyId : String) (verifier : SignatureVerifier ed25519)
    (registration : KeyRegistration ed25519) :
    (verifier.step hex registration).2.pubKeys[keyId]? =
      (keyFor hex keyId registration).or verifier.pubKeys[keyId]? := by
  cases registration with
  | registerKey other verifyingKey =>
      by_cases same : other = keyId <;> simp [step, keyFor, pubKeys_registerKey, same]
  | registerKeyFromHex other hexBytes =>
      rw [step, registerKeyFromHex_eq, keyFor]
      by_cases same : other = keyId <;> cases ed25519.ofHex hex hexBytes <;>
        simp [pubKeys_registerKey, same]

/-- After a run of registrations an id holds the key that was put there last. -/
theorem SignatureVerifier.pubKeys_after (hex : Hex) (keyId : String)
    (registrations : List (KeyRegistration ed25519)) :
    (after (step hex) empty registrations).pubKeys[keyId]? = lastKey hex keyId registrations := by
  rw [register_after_of_input
    (fun verifier : SignatureVerifier ed25519 => verifier.pubKeys[keyId]?) (keyFor hex keyId)
    (pubKeys_step keyId), lastKey]
  simp [empty]

theorem InMemoryArtifactStore.read_step (path : String) (store : InMemoryArtifactStore)
    (object : String × Bytes) :
    (store.step object).2.toArtifactStore.read path =
      (payloadFor path object).or (store.toArtifactStore.read path) := by
  by_cases same : object.1 = path <;>
    simp [step, insert, toArtifactStore, payloadFor, Std.ExtTreeMap.getElem?_insert, same]

/-- After a run of insertions a path holds the payload that was inserted there last. -/
theorem InMemoryArtifactStore.read_after (path : String) (objects : List (String × Bytes)) :
    (after step empty objects).toArtifactStore.read path = lastPayload path objects := by
  rw [register_after_of_input
    (fun store : InMemoryArtifactStore => store.toArtifactStore.read path) (payloadFor path)
    (read_step path), lastPayload]
  simp [toArtifactStore, empty]

/-! ## What counts for a manifest -/

/-- The registration that counts for a manifest, if there is one. -/
def lastRegistration (hex : Hex) (manifest : SecureModelManifest)
    (registrations : List (KeyRegistration ed25519)) : List (KeyRegistration ed25519) :=
  (lastKey hex manifest.signature.keyId registrations).toList.map
    (.registerKey manifest.signature.keyId)

/-- The insertions that count for a manifest. -/
def lastObjects (manifest : SecureModelManifest) (objects : List (String × Bytes)) :
    List (String × Bytes) :=
  manifest.shards.filterMap fun shard => (lastPayload shard.path objects).map (shard.path, ·)

theorem lastKey_lastRegistration (manifest : SecureModelManifest)
    (registrations : List (KeyRegistration ed25519)) :
    lastKey hex manifest.signature.keyId (lastRegistration hex manifest registrations) =
      lastKey hex manifest.signature.keyId registrations := by
  rw [lastRegistration]
  cases lastKey hex manifest.signature.keyId registrations <;> simp [lastKey, keyFor]

theorem mem_lastObjects {manifest : SecureModelManifest} {objects : List (String × Bytes)}
    {path : String} {payload : Bytes} :
    (path, payload) ∈ lastObjects manifest objects ↔
      path ∈ manifest.shards.map (·.path) ∧ lastPayload path objects = some payload := by
  simp only [lastObjects, List.mem_filterMap, Option.map_eq_some_iff, Prod.mk.injEq, List.mem_map]
  constructor
  · rintro ⟨shard, hshard, last, hlast, rfl, rfl⟩
    exact ⟨⟨shard, hshard, rfl⟩, hlast⟩
  · rintro ⟨⟨shard, hshard, rfl⟩, hlast⟩
    exact ⟨shard, hshard, payload, hlast, rfl, rfl⟩

theorem lastPayload_lastObjects {manifest : SecureModelManifest} {path : String}
    (listed : path ∈ manifest.shards.map (·.path)) (objects : List (String × Bytes)) :
    lastPayload path (lastObjects manifest objects) = lastPayload path objects := by
  cases hlast : lastPayload path objects with
  | some payload =>
      refine lastPayload_of_unique (mem_lastObjects.mpr ⟨listed, hlast⟩) fun other hother => ?_
      exact Option.some.inj ((mem_lastObjects.mp hother).2.symm.trans hlast)
  | none =>
      cases hkept : lastPayload path (lastObjects manifest objects) with
      | none => rfl
      | some payload =>
          have hpayload := (mem_lastObjects.mp (mem_of_lastPayload hkept)).2
          rw [hlast] at hpayload
          cases hpayload

namespace SecureModelLoader

/-- After any registrations and insertions, a load answers as after the last registration
for its key id and the last insertion for each of its paths alone. It succeeds exactly when
the manifest passes the checks of its own, the last key under its key id accepts its
signature, and the last payload under each path is the one that its shard describes. -/
theorem load_decided_by_last_writes (sha256 : Bytes → Vector UInt8 32)
    (sha512 : Bytes → Vector UInt8 64) (hex : Hex) (subtle : Subtle)
    (manifest : SecureModelManifest) (supportedMajorVersion : UInt32)
    (expectedTiers : Finset TierId) (registrations : List (KeyRegistration ed25519))
    (objects : List (String × Bytes)) :
    let loadAfter := fun registrations objects => load sha256 sha512 hex subtle {
      signatureVerifier := after (SignatureVerifier.step hex) .empty registrations
      supportedMajorVersion
      expectedTiers } manifest (after InMemoryArtifactStore.step .empty objects).toArtifactStore
    loadAfter registrations objects =
        loadAfter (lastRegistration hex manifest registrations) (lastObjects manifest objects) ∧
      ((∃ loaded, loadAfter registrations objects = .ok loaded) ↔
        manifest.validateShape = .ok () ∧
        manifest.versionMajor = supportedMajorVersion ∧
        manifest.tiers.toFinset = expectedTiers ∧
        manifest.recomputeHash sha256 hex = manifest.manifestHashHex ∧
        (∃ (key : ed25519.VerifyingKey) (hashBytes : Bytes) (signature : Vector UInt8 64),
          lastKey hex manifest.signature.keyId registrations = some key ∧
          hex.decode manifest.manifestHashHex = .ok hashBytes ∧
          hex.decode manifest.signature.signatureHex = .ok signature.toList ∧
          ed25519.verifyStrict key hashBytes signature = true) ∧
        ∀ shard ∈ manifest.shards, shard.tier ∈ manifest.tiers ∧
          ∃ payload, lastPayload shard.path objects = some payload ∧
            UInt64.ofNat payload.length = shard.bytes ∧
            ArtifactDigest.fromPayload sha256 sha512 hex payload shard.digest.algorithm =
              .ok shard.digest) := by
  intro loadAfter
  constructor
  · refine load_congr rfl rfl ?_ fun shard hshard => ?_
    · rw [SignatureVerifier.pubKeys_after, SignatureVerifier.pubKeys_after,
        lastKey_lastRegistration]
    · rw [InMemoryArtifactStore.read_after, InMemoryArtifactStore.read_after,
        lastPayload_lastObjects (List.mem_map_of_mem hshard)]
  · have verified : ∀ shard : ManifestShard,
        (∃ payload, shard.Verified sha256 sha512 hex
          (after InMemoryArtifactStore.step .empty objects).toArtifactStore
          manifest.tiers.toFinset payload) ↔
        shard.tier ∈ manifest.tiers ∧
          ∃ payload, lastPayload shard.path objects = some payload ∧
            UInt64.ofNat payload.length = shard.bytes ∧
            ArtifactDigest.fromPayload sha256 sha512 hex payload shard.digest.algorithm =
              .ok shard.digest := by
      intro shard
      rw [← InMemoryArtifactStore.read_after, ← List.mem_toFinset]
      constructor
      · rintro ⟨payload, tier_mem, read_eq, bytes_eq, digest_eq⟩
        exact ⟨tier_mem, payload, read_eq, bytes_eq, digest_eq⟩
      · rintro ⟨tier_mem, payload, read_eq, bytes_eq, digest_eq⟩
        exact ⟨payload, tier_mem, read_eq, bytes_eq, digest_eq⟩
    simp only [loadAfter, load_eq_ok_iff, SignatureVerifier.verifySignature_eq_ok_iff,
      SignatureVerifier.Accepts, SignatureVerifier.pubKeys_after, verified, exists_and_left,
      exists_eq, and_true]

end SecureModelLoader

end

end LiteLlmSecurity
