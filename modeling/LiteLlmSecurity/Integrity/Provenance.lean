import LiteLlmSecurity.Integrity.Delivery

/-!
# Where a loaded model comes from

A loader reads its manifest and its store from outside, and either may have been
tampered with. What it trusts is a registered key. If the signature in the envelope is no
forgery, that is if the holder of the key named there made it, who signs the hashes of
releases and nothing else, then what is loaded has the canonical text of a release, and the
store holds the payloads of that release under its paths. Other registered keys may be in
any hands.
-/

namespace LiteLlmSecurity

open Rust StableSort

section

variable {ed25519 : Ed25519} {sha256 : Bytes → Vector UInt8 32}
  {sha512 : Bytes → Vector UInt8 64} {hex : Hex} {subtle : Subtle}

/-- A manifest with the store it was made for, which holds what its digests were computed
from. -/
structure Release (sha256 : Bytes → Vector UInt8 32) (sha512 : Bytes → Vector UInt8 64)
    (hex : Hex) where
  manifest : SecureModelManifest
  store : ArtifactStore
  stocked : ∀ shard ∈ manifest.shards, store.Stocks sha256 sha512 hex shard

namespace Release

/-- What is signed of a release. -/
def hashBytes (release : Release sha256 sha512 hex) : Bytes :=
  (sha256 (asBytes release.manifest.canonicalPayload)).toList

theorem plainDigests (lawful : hex.Lawful) (release : Release sha256 sha512 hex) :
    release.manifest.PlainDigests := by
  intro shard hshard
  obtain ⟨payload, algorithm, -, -, hdigest⟩ := release.stocked shard hshard
  exact ArtifactDigest.plain_of_fromPayload lawful hdigest

/-- Whether the signature in an envelope is no forgery: what the key accepts it for was
signed as the hash of one of the given releases. -/
def Unforged (releases : Set (Release sha256 sha512 hex)) (key : ed25519.VerifyingKey)
    (envelope : SignatureEnvelope) : Prop :=
  ∀ (message : Bytes) (signature : Vector UInt8 64),
    hex.decode envelope.signatureHex = .ok signature.toList →
    ed25519.verifyStrict key message signature = true →
    ∃ release ∈ releases, message = release.hashBytes

/-- No collision of the hash functions between a release and a manifest with its store:
neither of the two canonical texts, nor of payloads under one path. -/
def Apart (release : Release sha256 sha512 hex) (manifest : SecureModelManifest)
    (store : ArtifactStore) : Prop :=
  Set.InjOn sha256
      {asBytes manifest.canonicalPayload, asBytes release.manifest.canonicalPayload} ∧
    ∀ shard ∈ release.manifest.shards, ∀ payload ∈ store.read shard.path,
      ∀ payload' ∈ release.store.read shard.path, ApartOrEqual sha256 sha512 payload payload'

/-- A store that the digests of a release accept holds its payloads. -/
theorem read_eq_of_verified (hhex : Function.Injective hex.encode)
    (release : Release sha256 sha512 hex) {store : ArtifactStore} {actualTiers : Finset TierId}
    {shard : ManifestShard} (hshard : shard ∈ release.manifest.shards) {payload : Bytes}
    (verified : shard.Verified sha256 sha512 hex store actualTiers payload)
    (apart : ∀ payload' ∈ release.store.read shard.path,
      ApartOrEqual sha256 sha512 payload payload') :
    release.store.read shard.path = some payload := by
  obtain ⟨payload', algorithm, hread, -, hdigest⟩ := release.stocked shard hshard
  rw [← ArtifactDigest.algorithm_of_fromPayload hdigest] at hdigest
  obtain ⟨hsha256, hsha512⟩ := apart payload' hread
  rw [SecureModelLoader.payload_eq_of_fromPayload hhex hsha256 hsha512 verified.digest_eq hdigest]
  exact hread

end Release

/-- The signature of a loaded manifest verifies, under the key that its envelope names,
for the hash of its canonical text. -/
theorem SecureModelLoader.verifyStrict_of_load (lawful : hex.Lawful)
    {loader : SecureModelLoader ed25519} {manifest : SecureModelManifest}
    {store : ArtifactStore} {loaded : LoadedModel}
    (hload : loader.load sha256 sha512 hex subtle manifest store = .ok loaded) :
    ∃ key ∈ loader.signatureVerifier.pubKeys[manifest.signature.keyId]?,
      ∃ signature : Vector UInt8 64,
        hex.decode manifest.signature.signatureHex = .ok signature.toList ∧
        ed25519.verifyStrict key (sha256 (asBytes manifest.canonicalPayload)).toList signature =
          true := by
  obtain ⟨-, -, -, recomputed, signed, -⟩ := (load_eq_ok_iff _ _ _ _).mp hload
  obtain ⟨key, hashBytes, signature, hkey, hhash, hsignature, hverify⟩ :=
    SignatureVerifier.verifySignature_eq_ok_iff.mp signed
  rw [← recomputed, SecureModelManifest.recomputeHash, sha256Hex, lawful.decode_encode] at hhash
  rw [← Except.ok.inj hhash] at hverify
  exact ⟨key, hkey, signature, hsignature, hverify⟩

/-- A loaded manifest has the canonical text of a release. -/
theorem SecureModelLoader.exists_release_of_load (lawful : hex.Lawful)
    {loader : SecureModelLoader ed25519} {releases : Set (Release sha256 sha512 hex)}
    {manifest : SecureModelManifest} {store : ArtifactStore} {loaded : LoadedModel}
    (hload : loader.load sha256 sha512 hex subtle manifest store = .ok loaded)
    (unforged : ∀ key ∈ loader.signatureVerifier.pubKeys[manifest.signature.keyId]?,
      Release.Unforged releases key manifest.signature)
    (apart : ∀ release ∈ releases, release.Apart manifest store) :
    ∃ release ∈ releases, manifest.canonicalPayload = release.manifest.canonicalPayload := by
  obtain ⟨key, hkey, signature, hsignature, hverify⟩ := verifyStrict_of_load lawful hload
  obtain ⟨release, hrelease, hhash⟩ := unforged key hkey _ signature hsignature hverify
  have sha256_inj := (apart release hrelease).1
  exact ⟨release, hrelease,
    (sha256Hex_inj lawful.encode_injective sha256_inj).mp (congrArg hex.encode hhash)⟩

/-- What is loaded was released: under a signature that was made for a release, a loaded
manifest has the canonical text of a release. It has its content exactly when it has
newlines in the same places, and then the model is named as in the release, exactly the
release's paths are reported as verified, and the store holds the payloads of the release
under each of them. Assumed: no collision between the releases and what was loaded. -/
theorem SecureModelLoader.load_only_released (lawful : hex.Lawful)
    (loader : SecureModelLoader ed25519) (releases : Set (Release sha256 sha512 hex))
    (manifest : SecureModelManifest) (store : ArtifactStore) (loaded : LoadedModel)
    (hload : loader.load sha256 sha512 hex subtle manifest store = .ok loaded)
    (unforged : ∀ key ∈ loader.signatureVerifier.pubKeys[manifest.signature.keyId]?,
      Release.Unforged releases key manifest.signature)
    (apart : ∀ release ∈ releases, release.Apart manifest store) :
    ∃ release ∈ releases, manifest.canonicalPayload = release.manifest.canonicalPayload ∧
      (manifest.SameContent release.manifest ↔
        manifest.newlineShape = release.manifest.newlineShape) ∧
      (manifest.SameContent release.manifest →
        loaded.modelId = release.manifest.modelId ∧
        loaded.loadedTiers.Perm release.manifest.tiers ∧
        loaded.verifiedShards.Perm (release.manifest.shards.map (·.path)) ∧
        ∀ shard ∈ release.manifest.shards, ∃ payload,
          store.read shard.path = some payload ∧
          release.store.read shard.path = some payload) := by
  obtain ⟨release, hrelease, hpayload⟩ := exists_release_of_load lawful hload unforged apart
  obtain ⟨-, -, -, -, -, verified, rfl⟩ := (load_eq_ok_iff _ _ _ _).mp hload
  refine ⟨release, hrelease, hpayload, ⟨SecureModelManifest.SameContent.newlineShape_eq, ?_⟩, ?_⟩
  · exact SecureModelManifest.sameContent_of_canonicalPayload_eq
      (plainDigests_of_load lawful hload) (release.plainDigests lawful) hpayload
  · intro same
    refine ⟨same.modelId, same.tiers, (sortByKey_perm _ _).trans (same.shards.map _), ?_⟩
    intro shard hshard
    obtain ⟨payload, hverified⟩ := verified shard (same.shards.mem_iff.mpr hshard)
    refine ⟨payload, hverified.read_eq, ?_⟩
    exact release.read_eq_of_verified lawful.encode_injective hshard hverified
      ((apart release hrelease).2 shard hshard payload hverified.read_eq)

end

namespace SignedExample

/-- The release of `shardA` and `shardB`. -/
def release : Release Sha256.hash sha512 Reference.hex where
  manifest := manifest [shardA, shardB]
  store := store
  stocked := by
    intro shard hshard
    obtain rfl | rfl : shard = shardA ∨ shard = shardB := by simpa [manifest] using hshard
    · exact shardA_stocked
    · exact shardB_stocked

theorem hashBytes_release : release.hashBytes = hashBytes :=
  Reference.hex_lawful.encode_injective recomputeHash_manifest

theorem unforged_release (key : (Reference.signing publicKey hashBytes signature).VerifyingKey)
    (envelope : SignatureEnvelope) : Release.Unforged {release} key envelope := by
  intro message signature' _ hverify
  have accepted : key = publicKey ∧ message = hashBytes ∧ signature' = signature := by
    simpa [Reference.signing] using hverify
  obtain ⟨-, hmessage, -⟩ := accepted
  exact ⟨release, rfl, hmessage.trans hashBytes_release.symm⟩

theorem apart_release : release.Apart (manifest [shardB, shardA]) store := by
  constructor
  · simp [release, canonicalPayload_swapped]
  · intro shard _ payload hread payload' hread'
    obtain rfl : payload = payload' := Option.some.inj (hread.symm.trans hread')
    simp [ApartOrEqual]

end SignedExample

open SignedExample in
/-- The shards of a release, listed in another order. -/
theorem SecureModelLoader.load_only_released_swapped :
    ∃ release' ∈ ({release} : Set (Release Sha256.hash sha512 Reference.hex)),
      (manifest [shardB, shardA]).canonicalPayload = release'.manifest.canonicalPayload ∧
      ((manifest [shardB, shardA]).SameContent release'.manifest ↔
        (manifest [shardB, shardA]).newlineShape = release'.manifest.newlineShape) ∧
      ((manifest [shardB, shardA]).SameContent release'.manifest →
        "m" = release'.manifest.modelId ∧
        List.Perm [1] release'.manifest.tiers ∧
        (sortByKey (fun path => path) ["b", "a"]).Perm (release'.manifest.shards.map (·.path)) ∧
        ∀ shard ∈ release'.manifest.shards, ∃ payload,
          store.read shard.path = some payload ∧ release'.store.read shard.path = some payload) :=
  load_only_released Reference.hex_lawful loader {release} (manifest [shardB, shardA]) store _
    (load_pair (.swap _ _ _) rfl canonicalPayload_swapped)
    (fun key _ => unforged_release key _) (by simpa using apart_release)

end LiteLlmSecurity
