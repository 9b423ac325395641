import LiteLlmSecurity.Integrity.Loading

/-!
# Publishing a model

A publisher hashes a manifest, signs the hash and hands out the public key. The
signature envelope is no part of the canonical text, so signing leaves the hash
valid, and a loader that has registered the key loads what was signed.
-/

namespace LiteLlmSecurity

open Rust StableSort

structure Ed25519KeyPair (ed25519 : Ed25519) where
  signingKey : ed25519.SigningKey
  verifyingKey : ed25519.VerifyingKey
  keyId : String

section

variable {ed25519 : Ed25519}

namespace Ed25519KeyPair

/-- `Ed25519KeyPair::generate`, with the key that the random number generator chose. -/
def generate (signingKey : ed25519.SigningKey) (keyId : String) : Ed25519KeyPair ed25519 :=
  { signingKey, verifyingKey := ed25519.verifyingKey signingKey, keyId }

def sign (hex : Hex) (keypair : Ed25519KeyPair ed25519) (message : Bytes) : String :=
  hex.encode (ed25519.sign keypair.signingKey message).toList

def publicKeyHex (hex : Hex) (keypair : Ed25519KeyPair ed25519) : String :=
  hex.encode (ed25519.toBytes keypair.verifyingKey).toList

/-- The two halves belong together, as `generate` makes them. -/
def Matching (keypair : Ed25519KeyPair ed25519) : Prop :=
  keypair.verifyingKey = ed25519.verifyingKey keypair.signingKey

theorem matching_generate (signingKey : ed25519.SigningKey) (keyId : String) :
    (generate signingKey keyId : Ed25519KeyPair ed25519).Matching := rfl

end Ed25519KeyPair

namespace SecureModelManifest

/-- `SecureModelManifest::sign_with`, which panics on a hash that is no hexadecimal
text. -/
def signWith (hex : Hex) (manifest : SecureModelManifest) (keypair : Ed25519KeyPair ed25519)
    (signerId : String) : SecurityOutcome SecureModelManifest :=
  match hex.decode manifest.manifestHashHex with
  | .error _ => .error .panic
  | .ok hashBytes => .ok {
      manifest with
      signature := {
        signerId
        keyId := keypair.keyId
        signatureHex := keypair.sign hex hashBytes } }

/-- The assignment `manifest.manifest_hash_hex = manifest.recompute_hash()`. -/
def withHash (sha256 : Bytes → Vector UInt8 32) (hex : Hex) (manifest : SecureModelManifest) :
    SecureModelManifest :=
  { manifest with manifestHashHex := manifest.recomputeHash sha256 hex }

end SecureModelManifest

variable {sha256 : Bytes → Vector UInt8 32} {sha512 : Bytes → Vector UInt8 64} {hex : Hex}
  {subtle : Subtle}

/-- Signing replaces the envelope and nothing else, and panics on no encoded hash. -/
theorem SecureModelManifest.signWith_encode
    (decode_encode : ∀ bytes, hex.decode (hex.encode bytes) = .ok bytes)
    {manifest : SecureModelManifest} {hashBytes : Bytes}
    (hhash : manifest.manifestHashHex = hex.encode hashBytes)
    (keypair : Ed25519KeyPair ed25519) (signerId : String) :
    manifest.signWith hex keypair signerId = .ok {
      manifest with
      signature := {
        signerId
        keyId := keypair.keyId
        signatureHex := keypair.sign hex hashBytes } } := by
  simp only [signWith, hhash, decode_encode]

/-- A public key handed out in hexadecimal is registered as the key itself. -/
theorem SignatureVerifier.registerKeyFromHex_publicKeyHex
    (decode_encode : ∀ bytes, hex.decode (hex.encode bytes) = .ok bytes)
    (correct : ed25519.Correct) (verifier : SignatureVerifier ed25519)
    (keypair : Ed25519KeyPair ed25519) :
    verifier.registerKeyFromHex hex keypair.keyId (keypair.publicKeyHex hex) =
      (.ok (), verifier.registerKey keypair.keyId keypair.verifyingKey) := by
  simp only [registerKeyFromHex, Ed25519KeyPair.publicKeyHex, decode_encode, tryInto_toList,
    correct.fromBytes_toBytes, registerKey]

/-- Once its key is registered, a keypair's signature of a hash is accepted. -/
theorem SignatureVerifier.accepts_sign
    (decode_encode : ∀ bytes, hex.decode (hex.encode bytes) = .ok bytes)
    (correct : ed25519.Correct) (verifier : SignatureVerifier ed25519)
    {keypair : Ed25519KeyPair ed25519} (matching : keypair.Matching) (hashBytes : Bytes)
    (signerId : String) :
    (verifier.registerKey keypair.keyId keypair.verifyingKey).Accepts hex (hex.encode hashBytes) {
      signerId
      keyId := keypair.keyId
      signatureHex := keypair.sign hex hashBytes } := by
  refine ⟨keypair.verifyingKey, hashBytes, ed25519.sign keypair.signingKey hashBytes,
    Std.ExtTreeMap.getElem?_insert_self, decode_encode _, decode_encode _, ?_⟩
  rw [matching]
  exact correct.verifyStrict_sign _ _

/-- The store holds a payload of the shard's length, from which the shard's digest was
computed. -/
def ArtifactStore.Stocks (sha256 : Bytes → Vector UInt8 32) (sha512 : Bytes → Vector UInt8 64)
    (hex : Hex) (store : ArtifactStore) (shard : ManifestShard) : Prop :=
  ∃ payload algorithm, store.read shard.path = some payload ∧
    payload.length = shard.bytes.toNat ∧
    ArtifactDigest.fromPayload sha256 sha512 hex payload algorithm = .ok shard.digest

theorem ArtifactStore.Stocks.intact {store : ArtifactStore} {shard : ManifestShard}
    (stocks : store.Stocks sha256 sha512 hex shard) :
    ∃ payload, shard.Intact sha256 sha512 hex store payload := by
  obtain ⟨payload, algorithm, read_eq, length_eq, hdigest⟩ := stocks
  have halgorithm := ArtifactDigest.algorithm_of_fromPayload hdigest
  rw [← halgorithm] at hdigest
  exact ⟨payload, read_eq, length_eq, ArtifactDigest.fromPayload_eq_ok_iff.mp hdigest⟩

namespace SecureModelLoader

/-- What was signed over its own hash is fully verified for a loader that registered the
key. -/
theorem fullyVerified_of_signed
    (decode_encode : ∀ bytes, hex.decode (hex.encode bytes) = .ok bytes)
    (correct : ed25519.Correct) {manifest : SecureModelManifest}
    (shape : manifest.validateShape = .ok ())
    (tiers : ∀ shard ∈ manifest.shards, shard.tier ∈ manifest.tiers) {store : ArtifactStore}
    (stocked : ∀ shard ∈ manifest.shards, store.Stocks sha256 sha512 hex shard)
    {keypair : Ed25519KeyPair ed25519} (matching : keypair.Matching) (signerId : String)
    (verifier : SignatureVerifier ed25519) :
    FullyVerified sha256 sha512 hex {
      signatureVerifier := verifier.registerKey keypair.keyId keypair.verifyingKey
      supportedMajorVersion := manifest.versionMajor
      expectedTiers := manifest.tiers.toFinset } {
      manifest.withHash sha256 hex with
      signature := {
        signerId
        keyId := keypair.keyId
        signatureHex := keypair.sign hex (sha256 (asBytes manifest.canonicalPayload)).toList } }
      store := by
  obtain ⟨modelId, tiersNe, shardsNe, wellFormed⟩ :=
    SecureModelManifest.validateShape_eq_ok_iff.mp shape
  exact {
    modelId_not_blank := modelId
    tiers_ne_nil := tiersNe
    shards_ne_nil := shardsNe
    shards_wellFormed := wellFormed
    versionMajor_eq := rfl
    mem_tiers_iff := fun tier => List.mem_toFinset.symm
    manifestHashHex_eq := rfl
    signed := verifier.accepts_sign decode_encode correct matching _ signerId
    shards_tier_mem := tiers
    shards_intact := fun shard hshard => (stocked shard hshard).intact }

/-- What a publisher signs, a loader loads: signing the hash of a well-shaped manifest
does not panic, the public key is registered directly or from its hexadecimal text, and
with either registration, over any keys registered before, the signed manifest loads as
the published model, its tiers as listed and its paths in ascending order. -/
theorem load_signed
    (decode_encode : ∀ bytes, hex.decode (hex.encode bytes) = .ok bytes)
    (correct : ed25519.Correct) (manifest : SecureModelManifest)
    (shape : manifest.validateShape = .ok ())
    (tiers : ∀ shard ∈ manifest.shards, shard.tier ∈ manifest.tiers) (store : VecStore)
    (stocked : ∀ shard ∈ manifest.shards, store.Stocks sha256 sha512 hex shard)
    (keypair : Ed25519KeyPair ed25519) (matching : keypair.Matching) (signerId : String)
    (verifier : SignatureVerifier ed25519) :
    ∃ signed registered,
      (manifest.withHash sha256 hex).signWith hex keypair signerId = .ok signed ∧
      verifier.registerKeyFromHex hex keypair.keyId (keypair.publicKeyHex hex) =
        (.ok (), registered) ∧
      ∀ signatureVerifier ∈
          [verifier.registerKey keypair.keyId keypair.verifyingKey, registered],
        load sha256 sha512 hex subtle {
          signatureVerifier
          supportedMajorVersion := manifest.versionMajor
          expectedTiers := manifest.tiers.toFinset } signed store.toArtifactStore = .ok {
            modelId := manifest.modelId
            loadedTiers := manifest.tiers
            verifiedShards := sortByKey (fun path => path) (manifest.shards.map (·.path)) } := by
  refine ⟨_, _, SecureModelManifest.signWith_encode decode_encode rfl keypair signerId,
    verifier.registerKeyFromHex_publicKeyHex decode_encode correct keypair, ?_⟩
  -- The two registrations leave the same verifier.
  intro signatureVerifier hverifier
  obtain rfl : signatureVerifier = verifier.registerKey keypair.keyId keypair.verifyingKey := by
    simpa using hverifier
  exact load_of_fullyVerified
    (fullyVerified_of_signed decode_encode correct shape tiers stocked matching signerId verifier)

end SecureModelLoader

end

namespace SignedExample

def vecStore : VecStore where
  toArtifactStore := store
  length_lt := by
    intro path payload hread
    have hshort : payload = [0x61] ∨ payload = [0x62] := by
      simp only [store, InMemoryArtifactStore.toArtifactStore, InMemoryArtifactStore.insert,
        InMemoryArtifactStore.empty, Std.ExtTreeMap.getElem?_insert] at hread
      split at hread
      · exact .inr (Option.some.inj hread).symm
      · split at hread
        · exact .inl (Option.some.inj hread).symm
        · simp at hread
    rcases hshort with rfl | rfl <;> decide

def keypair : Ed25519KeyPair (Reference.signingAll publicKey hashBytes signature) :=
  .generate () "k1"

theorem keypair_matching : keypair.Matching := Ed25519KeyPair.matching_generate _ _

theorem shardA_stocked : store.Stocks Sha256.hash sha512 Reference.hex shardA :=
  ⟨[0x61], sha256Algorithm, shardA_verified.read_eq, rfl, shardA_verified.digest_eq⟩

theorem shardB_stocked : store.Stocks Sha256.hash sha512 Reference.hex shardB :=
  ⟨[0x62], sha256Algorithm, shardB_verified.read_eq, rfl, shardB_verified.digest_eq⟩

end SignedExample

open SignedExample in
theorem SecureModelLoader.load_signed_pair :
    ∃ signed registered,
      ((manifest [shardA, shardB]).withHash Sha256.hash Reference.hex).signWith Reference.hex
          keypair "security-team" = .ok signed ∧
      SignatureVerifier.empty.registerKeyFromHex Reference.hex keypair.keyId
          (keypair.publicKeyHex Reference.hex) = (.ok (), registered) ∧
      ∀ signatureVerifier ∈
          [SignatureVerifier.empty.registerKey keypair.keyId keypair.verifyingKey, registered],
        load Sha256.hash sha512 Reference.hex Reference.subtle {
          signatureVerifier
          supportedMajorVersion := (manifest [shardA, shardB]).versionMajor
          expectedTiers := (manifest [shardA, shardB]).tiers.toFinset } signed
            vecStore.toArtifactStore = .ok {
              modelId := "m"
              loadedTiers := [1]
              verifiedShards := sortByKey (fun path => path) ["a", "b"] } :=
  load_signed Reference.hex_lawful.decode_encode
    (Reference.signingAll_correct publicKey hashBytes signature) (manifest [shardA, shardB]) rfl
    (by simp [manifest, shardA, shardB]) vecStore
    (by
      intro shard hshard
      obtain rfl | rfl : shard = shardA ∨ shard = shardB := by simpa [manifest] using hshard
      · exact shardA_stocked
      · exact shardB_stocked)
    keypair keypair_matching "security-team" SignatureVerifier.empty

end LiteLlmSecurity
