import LiteLlmSecurity.Integrity.Loading
import LiteLlmSecurity.Machine.Isolation

/-!
# What a load looks at, and what it pins

A load looks up one public key, under the key id of the envelope, and reads the paths of
its own manifest. Keys registered under other ids and payloads stored under other paths
change nothing about its answer, errors included, so models may share a verifier and a
store.

What it reads it pins. Two stores from which one manifest loads hold the same payloads
under its paths, as long as the two hash functions do not collide on them.
-/

namespace LiteLlmSecurity

open Rust Machine

section

variable {ed25519 : Ed25519} {sha256 : Bytes → Vector UInt8 32}
  {sha512 : Bytes → Vector UInt8 64} {hex : Hex} {subtle : Subtle}

/-! ## Registering keys and storing payloads -/

/-- The operations that change a verifier. -/
inductive KeyRegistration (ed25519 : Ed25519) where
  | registerKey (keyId : String) (verifyingKey : ed25519.VerifyingKey)
  | registerKeyFromHex (keyId hexBytes : String)

def KeyRegistration.keyId : KeyRegistration ed25519 → String
  | .registerKey keyId _ => keyId
  | .registerKeyFromHex keyId _ => keyId

def SignatureVerifier.step (hex : Hex) (verifier : SignatureVerifier ed25519) :
    KeyRegistration ed25519 → SecurityResult Unit × SignatureVerifier ed25519
  | .registerKey keyId verifyingKey => (.ok (), verifier.registerKey keyId verifyingKey)
  | .registerKeyFromHex keyId hexBytes => verifier.registerKeyFromHex hex keyId hexBytes

/-- Storing a payload, which replies nothing. -/
def InMemoryArtifactStore.step (store : InMemoryArtifactStore) (object : String × Bytes) :
    Unit × InMemoryArtifactStore :=
  ((), store.insert object.1 object.2)

variable (ed25519) in
/-- A registration fails and changes nothing, or it inserts a key that its argument
determines. -/
theorem SignatureVerifier.registerKeyFromHex_cases (hex : Hex) (keyId hexBytes : String) :
    (∃ error, ∀ verifier : SignatureVerifier ed25519,
      verifier.registerKeyFromHex hex keyId hexBytes = (.error error, verifier)) ∨
      ∃ verifyingKey, ∀ verifier : SignatureVerifier ed25519,
        verifier.registerKeyFromHex hex keyId hexBytes =
          (.ok (), verifier.registerKey keyId verifyingKey) := by
  cases hdecode : hex.decode hexBytes with
  | error e =>
      exact .inl ⟨.invalidConfig s!"invalid public key hex: {e}", fun verifier => by
        simp only [registerKeyFromHex, hdecode]⟩
  | ok bytes =>
      cases harray : tryInto 32 bytes with
      | none =>
          exact .inl ⟨.invalidConfig "public key must be 32 bytes", fun verifier => by
            simp only [registerKeyFromHex, hdecode, harray]⟩
      | some array =>
          cases hkey : ed25519.fromBytes array with
          | error e =>
              exact .inl ⟨.invalidConfig s!"invalid verifying key: {e}", fun verifier => by
                simp only [registerKeyFromHex, hdecode, harray, hkey]⟩
          | ok verifyingKey =>
              exact .inr ⟨verifyingKey, fun verifier => by
                simp only [registerKeyFromHex, hdecode, harray, hkey, registerKey]⟩

theorem SignatureVerifier.pubKeys_registerKey (verifier : SignatureVerifier ed25519)
    (other keyId : String) (verifyingKey : ed25519.VerifyingKey) :
    (verifier.registerKey other verifyingKey).pubKeys[keyId]? =
      if other = keyId then some verifyingKey else verifier.pubKeys[keyId]? := by
  by_cases same : other = keyId <;>
    simp [registerKey, Std.ExtTreeMap.getElem?_insert, same]

/-- The key under an id is isolated under the registrations of that id. -/
theorem SignatureVerifier.pubKeys_isolated (hex : Hex) (keyId : String) :
    Isolated (@SignatureVerifier.step ed25519 hex)
      (fun verifier => verifier.pubKeys[keyId]?) (fun registration => registration.keyId = keyId)
    where
  frame verifier registration outside := by
    cases registration with
    | registerKey other verifyingKey =>
        exact (pubKeys_registerKey verifier other keyId verifyingKey).trans (if_neg outside)
    | registerKeyFromHex other hexBytes =>
        obtain ⟨error, hfail⟩ | ⟨verifyingKey, hok⟩ :=
          registerKeyFromHex_cases ed25519 hex other hexBytes
        · simp only [step, hfail]
        · simp only [step, hok]
          exact (pubKeys_registerKey verifier other keyId verifyingKey).trans (if_neg outside)
  reply_eq verifier verifier' registration _ _ := by
    cases registration with
    | registerKey other verifyingKey => rfl
    | registerKeyFromHex other hexBytes =>
        obtain ⟨error, hfail⟩ | ⟨verifyingKey, hok⟩ :=
          registerKeyFromHex_cases ed25519 hex other hexBytes
        · simp only [step, hfail]
        · simp only [step, hok]
  view_eq verifier verifier' registration _ same := by
    cases registration with
    | registerKey other verifyingKey => simp only [step, pubKeys_registerKey, same]
    | registerKeyFromHex other hexBytes =>
        obtain ⟨error, hfail⟩ | ⟨verifyingKey, hok⟩ :=
          registerKeyFromHex_cases ed25519 hex other hexBytes
        · simp only [step, hfail]
          exact same
        · simp only [step, hok, pubKeys_registerKey, same]

/-- The payload under each path of a list is isolated under what is stored there. -/
theorem InMemoryArtifactStore.read_isolated (paths : List String) :
    Isolated InMemoryArtifactStore.step
      (fun store => paths.map store.toArtifactStore.read) (fun object => object.1 ∈ paths) where
  frame store object outside := by
    refine List.map_congr_left fun path hpath => ?_
    have other : object.1 ≠ path := fun same => outside (same ▸ hpath)
    simp [step, insert, toArtifactStore, Std.ExtTreeMap.getElem?_insert, other]
  reply_eq _ _ _ _ _ := rfl
  view_eq store store' object _ same := by
    refine List.map_congr_left fun path hpath => ?_
    have read := List.map_inj_left.mp same path hpath
    simp only [toArtifactStore] at read
    simp [step, insert, toArtifactStore, Std.ExtTreeMap.getElem?_insert, read]

/-! ## A load -/

theorem SignatureVerifier.verifySignature_congr {verifier verifier' : SignatureVerifier ed25519}
    {envelope : SignatureEnvelope}
    (key : verifier.pubKeys[envelope.keyId]? = verifier'.pubKeys[envelope.keyId]?)
    (manifestHashHex : String) :
    verifier.verifySignature hex manifestHashHex envelope =
      verifier'.verifySignature hex manifestHashHex envelope := by
  simp only [verifySignature, key]

namespace SecureModelLoader

theorem loadShard_congr {store store' : ArtifactStore} {shard : ManifestShard}
    (read : store.read shard.path = store'.read shard.path) (actualTiers : Finset TierId) :
    loadShard sha256 sha512 hex subtle store actualTiers shard =
      loadShard sha256 sha512 hex subtle store' actualTiers shard := by
  simp only [loadShard, read]

theorem loadShards_congr {store store' : ArtifactStore} {shards : List ManifestShard}
    (read : ∀ shard ∈ shards, store.read shard.path = store'.read shard.path)
    (actualTiers : Finset TierId) :
    shards.mapM (loadShard sha256 sha512 hex subtle store actualTiers) =
      shards.mapM (loadShard sha256 sha512 hex subtle store' actualTiers) := by
  induction shards with
  | nil => rfl
  | cons shard shards ih =>
      rw [List.mapM_cons, List.mapM_cons, loadShard_congr (read shard List.mem_cons_self),
        ih fun later hlater => read later (List.mem_cons_of_mem _ hlater)]

/-- A load looks at the key of its envelope and at the payloads of its paths. -/
theorem load_congr {loader loader' : SecureModelLoader ed25519} {manifest : SecureModelManifest}
    {store store' : ArtifactStore}
    (major : loader.supportedMajorVersion = loader'.supportedMajorVersion)
    (tiers : loader.expectedTiers = loader'.expectedTiers)
    (key : loader.signatureVerifier.pubKeys[manifest.signature.keyId]? =
      loader'.signatureVerifier.pubKeys[manifest.signature.keyId]?)
    (read : ∀ shard ∈ manifest.shards, store.read shard.path = store'.read shard.path) :
    loader.load sha256 sha512 hex subtle manifest store =
      loader'.load sha256 sha512 hex subtle manifest store' := by
  simp only [load, major, tiers, SignatureVerifier.verifySignature_congr key,
    loadShards_congr read]

/-- Models that share a verifier and a store do not disturb each other: a load answers as if
no key had been registered under another key id than that of its envelope, and no payload
stored under another path than those of its manifest, before, after or in between. -/
theorem load_after_purge (sha256 : Bytes → Vector UInt8 32) (sha512 : Bytes → Vector UInt8 64)
    (hex : Hex) (subtle : Subtle) (manifest : SecureModelManifest)
    (supportedMajorVersion : UInt32) (expectedTiers : Finset TierId)
    (verifier : SignatureVerifier ed25519) (registrations : List (KeyRegistration ed25519))
    (store : InMemoryArtifactStore) (objects : List (String × Bytes)) :
    load sha256 sha512 hex subtle {
        signatureVerifier := after (SignatureVerifier.step hex) verifier registrations
        supportedMajorVersion
        expectedTiers } manifest
        (after InMemoryArtifactStore.step store objects).toArtifactStore =
      load sha256 sha512 hex subtle {
        signatureVerifier := after (SignatureVerifier.step hex) verifier
          (registrations.filter (·.keyId = manifest.signature.keyId))
        supportedMajorVersion
        expectedTiers } manifest
        (after InMemoryArtifactStore.step store
          (objects.filter (·.1 ∈ manifest.shards.map (·.path)))).toArtifactStore := by
  have key := ((SignatureVerifier.pubKeys_isolated hex manifest.signature.keyId).purge rfl
    registrations (s := verifier)).1
  have reads := ((InMemoryArtifactStore.read_isolated (manifest.shards.map (·.path))).purge rfl
    objects (s := store)).1
  refine load_congr rfl rfl key fun shard hshard => ?_
  exact List.map_inj_left.mp reads shard.path (List.mem_map_of_mem hshard)

/-! ## Payloads -/

/-- Two payloads with one digest are the same, where the two hash functions are injective on
them. -/
theorem payload_eq_of_fromPayload (hhex : Function.Injective hex.encode)
    {payload payload' : Bytes} {digest : ArtifactDigest}
    (hsha256 : Set.InjOn sha256 {payload, payload'})
    (hsha512 : Set.InjOn sha512 {payload, payload'})
    (h : ArtifactDigest.fromPayload sha256 sha512 hex payload digest.algorithm = .ok digest)
    (h' : ArtifactDigest.fromPayload sha256 sha512 hex payload' digest.algorithm = .ok digest) :
    payload = payload' := by
  have different : sha256Algorithm ≠ sha512Algorithm := by decide
  rcases ArtifactDigest.fromPayload_eq_ok_iff.mp h with rfl | rfl <;>
    rcases ArtifactDigest.fromPayload_eq_ok_iff.mp h' with same | same
  · have hdigest := hhex (congrArg ArtifactDigest.hex same)
    exact hsha256 (by simp) (by simp) (Vector.toList_inj.mp hdigest)
  · exact absurd (congrArg ArtifactDigest.algorithm same) different
  · exact absurd (congrArg ArtifactDigest.algorithm same) different.symm
  · have hdigest := hhex (congrArg ArtifactDigest.hex same)
    exact hsha512 (by simp) (by simp) (Vector.toList_inj.mp hdigest)

end SecureModelLoader

end

end LiteLlmSecurity
