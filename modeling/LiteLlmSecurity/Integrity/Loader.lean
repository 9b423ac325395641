import LiteLlmSecurity.Integrity.Manifest
import Mathlib.Data.Finset.Dedup

/-!
# Loading a model

`load` checks a manifest against its hash, the hash against a signature, and each
shard in a store against its digest, in this order and stopping at the first
failure.
-/

namespace LiteLlmSecurity

open Rust StableSort

structure SignatureVerifier (ed25519 : Ed25519) where
  pubKeys : BTreeMap String ed25519.VerifyingKey

/-- The trait `ArtifactStore`: reading a path is a function of the path. -/
structure ArtifactStore where
  read : (path : String) → Option Bytes

structure InMemoryArtifactStore where
  objects : BTreeMap String Bytes

namespace InMemoryArtifactStore

/-- `InMemoryArtifactStore::default`. -/
def empty : InMemoryArtifactStore := { objects := ∅ }

def insert (store : InMemoryArtifactStore) (path : String) (payload : Bytes) :
    InMemoryArtifactStore :=
  { objects := store.objects.insert path payload }

def toArtifactStore (store : InMemoryArtifactStore) : ArtifactStore :=
  { read := fun path => store.objects[path]? }

end InMemoryArtifactStore

structure LoadedModel where
  modelId : String
  loadedTiers : List TierId
  verifiedShards : List String
  deriving DecidableEq, Repr

structure SecureModelLoader (ed25519 : Ed25519) where
  signatureVerifier : SignatureVerifier ed25519
  supportedMajorVersion : UInt32
  expectedTiers : Finset TierId

section

variable {ed25519 : Ed25519}

namespace SignatureVerifier

/-- `SignatureVerifier::default`. -/
def empty : SignatureVerifier ed25519 := { pubKeys := ∅ }

def registerKey (verifier : SignatureVerifier ed25519) (keyId : String)
    (verifyingKey : ed25519.VerifyingKey) : SignatureVerifier ed25519 :=
  { pubKeys := verifier.pubKeys.insert keyId verifyingKey }

def registerKeyFromHex (hex : Hex) (verifier : SignatureVerifier ed25519)
    (keyId hexBytes : String) : SecurityResult Unit × SignatureVerifier ed25519 :=
  match hex.decode hexBytes with
  | .error e => (.error (.invalidConfig s!"invalid public key hex: {e}"), verifier)
  | .ok bytes =>
      match tryInto 32 bytes with
      | none => (.error (.invalidConfig "public key must be 32 bytes"), verifier)
      | some array =>
          match ed25519.fromBytes array with
          | .error e => (.error (.invalidConfig s!"invalid verifying key: {e}"), verifier)
          | .ok vk => (.ok (), { pubKeys := verifier.pubKeys.insert keyId vk })

def verifySignature (hex : Hex) (verifier : SignatureVerifier ed25519) (manifestHashHex : String)
    (envelope : SignatureEnvelope) : SecurityResult Unit :=
  match verifier.pubKeys[envelope.keyId]? with
  | none => .error (.keyNotFound envelope.keyId)
  | some verifyingKey =>
      match hex.decode manifestHashHex with
      | .error e => .error (.integrityViolation s!"invalid manifest hash hex: {e}")
      | .ok hashBytes =>
          match hex.decode envelope.signatureHex with
          | .error e => .error (.integrityViolation s!"invalid signature hex: {e}")
          | .ok sigBytes =>
              match tryInto 64 sigBytes with
              | none => .error (.integrityViolation "signature must be 64 bytes")
              | some signature =>
                  if ed25519.verifyStrict verifyingKey hashBytes signature then .ok ()
                  else
                    .error (.signatureInvalid
                      s!"signature verification failed for signer {envelope.signerId}")

end SignatureVerifier

variable (sha256 : Bytes → Vector UInt8 32) (sha512 : Bytes → Vector UInt8 64) (hex : Hex)
  (subtle : Subtle)

/-- `CryptographicDigestVerifier::verify`. -/
def verifyDigest (payload : Bytes) (expected : ArtifactDigest) : SecurityResult Unit :=
  match ArtifactDigest.fromPayload sha256 sha512 hex payload expected.algorithm with
  | .error e => .error e
  | .ok actual =>
      if subtle.differ actual.hex expected.hex then
        .error (.integrityViolation s!"digest mismatch for algorithm {expected.algorithm}")
      else .ok ()

namespace SecureModelLoader

/-- The body of the loop over the shards, with the path it adds to the verified
ones. -/
def loadShard (store : ArtifactStore) (actualTiers : Finset TierId) (shard : ManifestShard) :
    SecurityResult String :=
  if shard.tier ∉ actualTiers then
    .error (.integrityViolation s!"shard '{shard.path}' references unknown tier {shard.tier}")
  else
    match store.read shard.path with
    | none => .error (.integrityViolation s!"missing shard: {shard.path}")
    | some payload =>
        if UInt64.ofNat payload.length ≠ shard.bytes then
          .error (.integrityViolation s!"byte size mismatch for shard {shard.path}")
        else
          match verifyDigest sha256 sha512 hex subtle payload shard.digest with
          | .error e => .error e
          | .ok () => .ok shard.path

def load (loader : SecureModelLoader ed25519) (manifest : SecureModelManifest)
    (store : ArtifactStore) : SecurityResult LoadedModel := do
  manifest.validateShape
  if manifest.versionMajor ≠ loader.supportedMajorVersion then
    throw (.integrityViolation "manifest major version is unsupported")
  let actualTiers := manifest.tiers.toFinset
  if actualTiers ≠ loader.expectedTiers then
    throw (.integrityViolation "manifest tiers do not match expected tier set")
  let recomputedHash := manifest.recomputeHash sha256 hex
  if subtle.differ recomputedHash manifest.manifestHashHex then
    throw (.integrityViolation "manifest hash mismatch")
  loader.signatureVerifier.verifySignature hex manifest.manifestHashHex manifest.signature
  let verifiedShards ←
    manifest.shards.mapM (loadShard sha256 sha512 hex subtle store actualTiers)
  return {
    modelId := manifest.modelId
    loadedTiers := manifest.tiers
    verifiedShards := sortByKey (fun path => path) verifiedShards }

end SecureModelLoader

end

/-! ## When the checks pass -/

section

variable {ed25519 : Ed25519} {sha256 : Bytes → Vector UInt8 32}
  {sha512 : Bytes → Vector UInt8 64} {hex : Hex} {subtle : Subtle}

/-- A signature that the scheme accepts passes when it and the hash are written in
hexadecimal. -/
theorem SignatureVerifier.verifySignature_encode (lawful : hex.Lawful)
    {verifier : SignatureVerifier ed25519} {envelope : SignatureEnvelope}
    {verifyingKey : ed25519.VerifyingKey} {hashBytes : Bytes} {signature : Vector UInt8 64}
    (hkey : verifier.pubKeys[envelope.keyId]? = some verifyingKey)
    (hsignature : envelope.signatureHex = hex.encode signature.toList)
    (hverify : ed25519.verifyStrict verifyingKey hashBytes signature = true) :
    verifier.verifySignature hex (hex.encode hashBytes) envelope = .ok () := by
  simp [verifySignature, hkey, hsignature, lawful.decode_encode, hverify]

theorem ArtifactDigest.algorithm_of_fromPayload {payload : Bytes} {algorithm : String}
    {digest : ArtifactDigest} (h : fromPayload sha256 sha512 hex payload algorithm = .ok digest) :
    digest.algorithm = algorithm := by
  by_cases is256 : algorithm = sha256Algorithm
  · simp only [fromPayload, if_pos is256, Except.ok.injEq] at h
    rw [← h, is256, ofSha256]
  · by_cases is512 : algorithm = sha512Algorithm
    · simp only [fromPayload, if_neg is256, if_pos is512, Except.ok.injEq] at h
      rw [← h, is512, ofSha512]
    · simp [fromPayload, is256, is512] at h

/-- A payload is accepted for the digest that it has under the digest's own
algorithm. -/
theorem verifyDigest_eq_ok_iff (subtle : Subtle) (payload : Bytes) (expected : ArtifactDigest) :
    verifyDigest sha256 sha512 hex subtle payload expected = .ok () ↔
      ArtifactDigest.fromPayload sha256 sha512 hex payload expected.algorithm = .ok expected := by
  cases hactual : ArtifactDigest.fromPayload sha256 sha512 hex payload expected.algorithm with
  | error e => simp [verifyDigest, hactual]
  | ok actual =>
      have halgorithm := ArtifactDigest.algorithm_of_fromPayload hactual
      cases actual
      cases expected
      simp_all [verifyDigest]

/-- What the loader checks of a shard. -/
structure ManifestShard.Verified (sha256 : Bytes → Vector UInt8 32)
    (sha512 : Bytes → Vector UInt8 64) (hex : Hex) (store : ArtifactStore)
    (actualTiers : Finset TierId) (shard : ManifestShard) (payload : Bytes) : Prop where
  tier_mem : shard.tier ∈ actualTiers
  read_eq : store.read shard.path = some payload
  bytes_eq : UInt64.ofNat payload.length = shard.bytes
  digest_eq :
    ArtifactDigest.fromPayload sha256 sha512 hex payload shard.digest.algorithm = .ok shard.digest

namespace SecureModelLoader

theorem loadShard_eq_ok_iff (store : ArtifactStore) (actualTiers : Finset TierId)
    (shard : ManifestShard) (path : String) :
    loadShard sha256 sha512 hex subtle store actualTiers shard = .ok path ↔
      shard.path = path ∧
        ∃ payload, shard.Verified sha256 sha512 hex store actualTiers payload := by
  constructor
  · intro h
    by_cases tier_mem : shard.tier ∈ actualTiers
    · cases read_eq : store.read shard.path with
      | none => simp [loadShard, tier_mem, read_eq] at h
      | some payload =>
          by_cases bytes_eq : UInt64.ofNat payload.length = shard.bytes
          · cases hverify : verifyDigest sha256 sha512 hex subtle payload shard.digest with
            | error e => simp [loadShard, tier_mem, read_eq, bytes_eq, hverify] at h
            | ok =>
                have hpath : shard.path = path := by
                  simpa [loadShard, tier_mem, read_eq, bytes_eq, hverify] using h
                exact ⟨hpath, payload, tier_mem, read_eq, bytes_eq,
                  (verifyDigest_eq_ok_iff subtle payload shard.digest).mp hverify⟩
          · simp [loadShard, tier_mem, read_eq, bytes_eq] at h
    · simp [loadShard, tier_mem] at h
  · rintro ⟨rfl, payload, tier_mem, read_eq, bytes_eq, digest_eq⟩
    have hverify := (verifyDigest_eq_ok_iff subtle payload shard.digest).mpr digest_eq
    simp [loadShard, tier_mem, read_eq, bytes_eq, hverify]

theorem loadShards_eq_ok_iff (store : ArtifactStore) (actualTiers : Finset TierId)
    (shards : List ManifestShard) (paths : List String) :
    shards.mapM (loadShard sha256 sha512 hex subtle store actualTiers) = .ok paths ↔
      shards.map (·.path) = paths ∧ ∀ shard ∈ shards,
        ∃ payload, shard.Verified sha256 sha512 hex store actualTiers payload := by
  rw [mapM_eq_ok_iff]
  simp only [loadShard_eq_ok_iff]
  induction shards generalizing paths with
  | nil => cases paths <;> simp
  | cons shard shards ih =>
      cases paths with
      | nil => simp
      | cons path paths =>
          rw [List.forall₂_cons, ih, List.map_cons, List.cons.injEq, List.forall_mem_cons,
            and_and_and_comm]

/-- A load succeeds when every check passes, and returns the tiers as listed and
the paths in order. -/
theorem load_eq_ok_iff (loader : SecureModelLoader ed25519) (manifest : SecureModelManifest)
    (store : ArtifactStore) (loaded : LoadedModel) :
    loader.load sha256 sha512 hex subtle manifest store = .ok loaded ↔
      manifest.validateShape = .ok () ∧
      manifest.versionMajor = loader.supportedMajorVersion ∧
      manifest.tiers.toFinset = loader.expectedTiers ∧
      manifest.recomputeHash sha256 hex = manifest.manifestHashHex ∧
      loader.signatureVerifier.verifySignature hex manifest.manifestHashHex manifest.signature =
        .ok () ∧
      (∀ shard ∈ manifest.shards, ∃ payload,
        shard.Verified sha256 sha512 hex store manifest.tiers.toFinset payload) ∧
      loaded = {
        modelId := manifest.modelId
        loadedTiers := manifest.tiers
        verifiedShards := sortByKey (fun path => path) (manifest.shards.map (·.path)) } := by
  simp only [load, bind_eq_ok_iff]
  by_cases major : manifest.versionMajor = loader.supportedMajorVersion
  · by_cases tiers : manifest.tiers.toFinset = loader.expectedTiers
    · by_cases hash : manifest.recomputeHash sha256 hex = manifest.manifestHashHex
      · simp only [major, tiers, hash, ne_eq, not_true_eq_false, if_false, Subtle.differ_iff,
          pure_eq, bind_eq_ok_iff, Except.ok.injEq, exists_and_right, true_and]
        constructor
        · rintro ⟨⟨⟨⟩, shape⟩, ⟨⟨⟩, signed⟩, paths, hpaths, rfl⟩
          obtain ⟨rfl, verified⟩ := (loadShards_eq_ok_iff _ _ _ _).mp hpaths
          exact ⟨shape, signed, verified, rfl⟩
        · rintro ⟨shape, signed, verified, rfl⟩
          exact ⟨⟨(), shape⟩, ⟨(), signed⟩, _, (loadShards_eq_ok_iff _ _ _ _).mpr ⟨rfl, verified⟩,
            rfl⟩
      · simp [major, tiers, hash]
    · simp [major, tiers]
  · simp [major]

end SecureModelLoader

end

end LiteLlmSecurity
