import LiteLlmSecurity.Encryption.Acceptance
import LiteLlmSecurity.Integrity.Publisher
import LiteLlmSecurity.Integrity.Rollover

/-!
# Delivering an encrypted model

A publisher encrypts the shards of a model, stores the ciphertexts under their paths,
lists their digests in a manifest and signs it. A loader with the publisher's key loads
the model. And whatever store a loader accepts the manifest on, decrypting what that
store holds gives back the plaintexts that were published: the signature covers the
manifest, the manifest pins the ciphertexts, and decryption undoes encryption.
-/

namespace LiteLlmSecurity

open Rust Machine

section

variable {ed25519 : Ed25519} {sha256 : Bytes → Vector UInt8 32}
  {sha512 : Bytes → Vector UInt8 64} {hkdf : Hkdf} {aes : Aes256Gcm} {hex : Hex} {subtle : Subtle}

/-- No collision of the two hash functions between two payloads. -/
def ApartOrEqual (sha256 : Bytes → Vector UInt8 32) (sha512 : Bytes → Vector UInt8 64)
    (payload payload' : Bytes) : Prop :=
  Set.InjOn sha256 {payload, payload'} ∧ Set.InjOn sha512 {payload, payload'}

/-- A manifest pins the payloads: two stores that it loads from, whatever the loaders, hold
the same payload under each of its paths. Assumed: no collision between them. -/
theorem SecureModelLoader.load_pins_payloads (hhex : Function.Injective hex.encode)
    (loader loader' : SecureModelLoader ed25519) (manifest : SecureModelManifest)
    (store store' : ArtifactStore) (loaded loaded' : LoadedModel)
    (hload : loader.load sha256 sha512 hex subtle manifest store = .ok loaded)
    (hload' : loader'.load sha256 sha512 hex subtle manifest store' = .ok loaded')
    (apart : ∀ shard ∈ manifest.shards, ∀ payload ∈ store.read shard.path,
      ∀ payload' ∈ store'.read shard.path, ApartOrEqual sha256 sha512 payload payload') :
    ∀ shard ∈ manifest.shards, ∃ payload,
      store.read shard.path = some payload ∧ store'.read shard.path = some payload := by
  intro shard hshard
  obtain ⟨-, -, -, -, -, verified, -⟩ := (load_eq_ok_iff loader manifest store loaded).mp hload
  obtain ⟨-, -, -, -, -, verified', -⟩ := (load_eq_ok_iff loader' manifest store' loaded').mp hload'
  obtain ⟨payload, hpayload⟩ := verified shard hshard
  obtain ⟨payload', hpayload'⟩ := verified' shard hshard
  obtain ⟨hsha256, hsha512⟩ :=
    apart shard hshard payload hpayload.read_eq payload' hpayload'.read_eq
  have same := payload_eq_of_fromPayload hhex hsha256 hsha512 hpayload.digest_eq hpayload'.digest_eq
  rw [← same] at hpayload'
  exact ⟨payload, hpayload.read_eq, hpayload'.read_eq⟩

namespace SignedExample

/-- A store that holds another object beside the shards. -/
def sharedStore : ArtifactStore :=
  (((InMemoryArtifactStore.empty.insert "a" [0x61]).insert "b" [0x62]).insert "c"
    [0x63]).toArtifactStore

theorem load_shared :
    loader.load Sha256.hash SignedExample.sha512 Reference.hex Reference.subtle
      (manifest [shardA, shardB]) sharedStore = .ok {
        modelId := "m"
        loadedTiers := [1]
        verifiedShards :=
          StableSort.sortByKey (fun path => path) ([shardA, shardB].map (·.path)) } := by
  refine load_manifest rfl rfl fun shard hshard => ?_
  obtain rfl | rfl : shard = shardA ∨ shard = shardB := by simpa using hshard
  · refine ⟨[0x61], { shardA_verified with read_eq := ?_ }⟩
    simp [sharedStore, shardA, InMemoryArtifactStore.toArtifactStore, InMemoryArtifactStore.insert,
      Std.ExtTreeMap.getElem?_insert]
  · refine ⟨[0x62], { shardB_verified with read_eq := ?_ }⟩
    simp [sharedStore, shardB, InMemoryArtifactStore.toArtifactStore, InMemoryArtifactStore.insert,
      Std.ExtTreeMap.getElem?_insert]

end SignedExample

open SignedExample in
theorem SecureModelLoader.load_pins_payloads_pair :
    ∃ payload, store.read shardA.path = some payload ∧
      sharedStore.read shardA.path = some payload := by
  refine load_pins_payloads Reference.hex_lawful.encode_injective loader loader
    (manifest [shardA, shardB]) store sharedStore _ _ (load_pair (.refl _) rfl rfl) load_shared
    ?_ shardA List.mem_cons_self
  intro shard hshard payload hread payload' hread'
  obtain rfl | rfl : shard = shardA ∨ shard = shardB := by simpa [manifest] using hshard
  · obtain rfl : payload = payload' := Option.some.inj (hread.symm.trans hread')
    simp [ApartOrEqual]
  · obtain rfl : payload = payload' := Option.some.inj (hread.symm.trans hread')
    simp [ApartOrEqual]

/-! ## Publishing -/

/-- A shard that a publisher encrypted for a path, with the digest of its ciphertext. -/
structure PublishedShard (sha256 : Bytes → Vector UInt8 32) (sha512 : Bytes → Vector UInt8 64)
    (hkdf : Hkdf) (aes : Aes256Gcm) (hex : Hex) where
  path : String
  tier : TierId
  plaintext : Bytes
  keyRef : KeyMaterialRef
  keyBytes : Bytes
  seed : UInt64
  encrypted : EncryptedShard
  algorithm : String
  digest : ArtifactDigest
  encrypt_eq : encryptShardAtRest hkdf aes hex plaintext tier keyRef keyBytes seed = .ok encrypted
  digest_eq :
    ArtifactDigest.fromPayload sha256 sha512 hex encrypted.ciphertext algorithm = .ok digest
  length_lt : encrypted.ciphertext.length < 2 ^ 63

namespace PublishedShard

/-- The entry of a manifest for the shard. -/
def entry (shard : PublishedShard sha256 sha512 hkdf aes hex) : ManifestShard where
  path := shard.path
  tier := shard.tier
  digest := shard.digest
  bytes := UInt64.ofNat shard.encrypted.ciphertext.length

/-- What is stored for the shard. -/
def object (shard : PublishedShard sha256 sha512 hkdf aes hex) : String × Bytes :=
  (shard.path, shard.encrypted.ciphertext)

/-- The store of the published ciphertexts. -/
def store (shards : List (PublishedShard sha256 sha512 hkdf aes hex)) : ArtifactStore :=
  (after InMemoryArtifactStore.step .empty (shards.map object)).toArtifactStore

/-- The store of the ciphertexts, none longer than a `Vec` can be. -/
def vecStore (shards : List (PublishedShard sha256 sha512 hkdf aes hex)) : VecStore where
  toArtifactStore := store shards
  length_lt := by
    intro path payload hread
    rw [store, InMemoryArtifactStore.read_after] at hread
    obtain ⟨shard, -, hobject⟩ := List.mem_map.mp (mem_of_lastPayload hread)
    rw [← (Prod.mk.inj hobject).2]
    exact shard.length_lt

/-- With distinct paths every ciphertext stays where it was stored. -/
theorem read_store {shards : List (PublishedShard sha256 sha512 hkdf aes hex)}
    (distinct : (shards.map (·.path)).Nodup)
    {shard : PublishedShard sha256 sha512 hkdf aes hex} (hshard : shard ∈ shards) :
    (store shards).read shard.path = some shard.encrypted.ciphertext := by
  rw [store, InMemoryArtifactStore.read_after]
  refine lastPayload_of_unique (List.mem_map_of_mem hshard) fun payload hpayload => ?_
  obtain ⟨other, hother, hobject⟩ := List.mem_map.mp hpayload
  obtain ⟨samePath, rfl⟩ := Prod.mk.inj hobject
  rw [List.inj_on_of_nodup_map distinct hother hshard samePath]

theorem stocks_entry {shards : List (PublishedShard sha256 sha512 hkdf aes hex)}
    (distinct : (shards.map (·.path)).Nodup)
    {shard : PublishedShard sha256 sha512 hkdf aes hex} (hshard : shard ∈ shards) :
    (store shards).Stocks sha256 sha512 hex shard.entry := by
  refine ⟨shard.encrypted.ciphertext, shard.algorithm, read_store distinct hshard, ?_,
    shard.digest_eq⟩
  have fits : shard.encrypted.ciphertext.length < 2 ^ 64 := by
    have := shard.length_lt
    omega
  simp only [entry, UInt64.toNat_ofNat_of_lt' fits]

/-- What is stored where a manifest entry was accepted is the published ciphertext. -/
theorem eq_ciphertext_of_verified (hhex : Function.Injective hex.encode)
    (shard : PublishedShard sha256 sha512 hkdf aes hex) {store : ArtifactStore}
    {actualTiers : Finset TierId} {payload : Bytes}
    (verified : shard.entry.Verified sha256 sha512 hex store actualTiers payload)
    (apart : ApartOrEqual sha256 sha512 shard.encrypted.ciphertext payload) :
    payload = shard.encrypted.ciphertext := by
  have published := shard.digest_eq
  rw [← ArtifactDigest.algorithm_of_fromPayload published] at published
  exact (SecureModelLoader.payload_eq_of_fromPayload hhex apart.1 apart.2 published
    verified.digest_eq).symm

end PublishedShard

/-- A published model is delivered. Signing its manifest succeeds, the signed manifest loads
from the store of the ciphertexts under a loader that registered the key, and from any
store and under any loader that accept it, what is held under each path decrypts to the
plaintext that was published, under the metadata and the key it was encrypted with.
Assumed: no collision between a ciphertext and what a store holds in its place. -/
theorem SecureModelLoader.published_model_delivered (undoes : aes.Undoes) (lawful : hex.Lawful)
    (correct : ed25519.Correct) (manifest : SecureModelManifest)
    (shards : List (PublishedShard sha256 sha512 hkdf aes hex))
    (listed : manifest.shards = shards.map (·.entry)) (distinct : (shards.map (·.path)).Nodup)
    (shape : manifest.validateShape = .ok ())
    (tiers : ∀ shard ∈ shards, shard.tier ∈ manifest.tiers)
    (keypair : Ed25519KeyPair ed25519) (matching : keypair.Matching) (signerId : String)
    (verifier : SignatureVerifier ed25519) :
    ∃ signed, (manifest.withHash sha256 hex).signWith hex keypair signerId = .ok signed ∧
      (∃ loaded, load sha256 sha512 hex subtle {
        signatureVerifier := verifier.registerKey keypair.keyId keypair.verifyingKey
        supportedMajorVersion := manifest.versionMajor
        expectedTiers := manifest.tiers.toFinset } signed (PublishedShard.store shards) =
          .ok loaded) ∧
      ∀ (loader : SecureModelLoader ed25519) (store : ArtifactStore) (loaded : LoadedModel),
        loader.load sha256 sha512 hex subtle signed store = .ok loaded →
        ∀ shard ∈ shards,
          (∀ payload ∈ store.read shard.path,
            ApartOrEqual sha256 sha512 shard.encrypted.ciphertext payload) →
          ∃ payload, store.read shard.path = some payload ∧
            decryptShardAtRest hkdf aes hex { shard.encrypted with ciphertext := payload }
              shard.keyRef shard.keyBytes = .ok shard.plaintext := by
  have inside : ∀ shard ∈ manifest.shards, shard.tier ∈ manifest.tiers := by
    simpa [listed, PublishedShard.entry] using tiers
  have stocked : ∀ shard ∈ manifest.shards,
      (PublishedShard.vecStore shards).Stocks sha256 sha512 hex shard := by
    rw [listed, List.forall_mem_map]
    exact fun shard hshard => PublishedShard.stocks_entry distinct hshard
  refine ⟨_, SecureModelManifest.signWith_encode lawful.decode_encode rfl keypair signerId,
    (exists_load_iff _ _ (PublishedShard.vecStore shards)).mpr (fullyVerified_of_signed
      lawful.decode_encode correct shape inside stocked matching signerId verifier), ?_⟩
  intro loader store loaded hload shard hshard apart
  obtain ⟨-, -, -, -, -, verified, -⟩ := (load_eq_ok_iff _ _ _ _).mp hload
  have hentry : shard.entry ∈ manifest.shards := listed ▸ List.mem_map_of_mem hshard
  obtain ⟨payload, hpayload⟩ := verified shard.entry hentry
  have pinned := shard.eq_ciphertext_of_verified lawful.encode_injective hpayload
    (apart payload hpayload.read_eq)
  refine ⟨payload, hpayload.read_eq, ?_⟩
  rw [pinned]
  exact decryptShardAtRest_of_encrypt undoes lawful.decode_encode shard.encrypt_eq rfl

end

/-- The sealed message, published under a path. -/
def hiPublished : PublishedShard Sha256.hash SignedExample.sha512 Reference.hkdf hiCipher
    Reference.hex where
  path := "tier2/hi"
  tier := 2
  plaintext := [0x68, 0x69]
  keyRef := masterRef
  keyBytes := [0x61]
  seed := 42
  encrypted := hiShard
  algorithm := sha256Algorithm
  digest := .ofSha256 Sha256.hash Reference.hex hiCiphertext
  encrypt_eq := encrypt_hi
  digest_eq := rfl
  length_lt := by decide

/-- A manifest of that shard, not hashed and not signed yet. -/
def hiManifest : SecureModelManifest where
  modelId := "hi"
  versionMajor := 1
  versionMinor := 0
  versionPatch := 0
  tiers := [2]
  shards := [hiPublished.entry]
  manifestHashHex := ""
  signature := { signerId := "", keyId := "", signatureHex := "" }

/-- The hash of the manifest. -/
def hiHashBytes : Bytes :=
  [0x64, 0xd1, 0x9c, 0xf9, 0xa0, 0x25, 0x9b, 0x30, 0xa2, 0x0c, 0x6c, 0x4b, 0x90, 0x19, 0xf2, 0x99,
    0x21, 0xe4, 0x64, 0x77, 0x3b, 0xa7, 0x26, 0xad, 0xa9, 0xa2, 0x8b, 0x93, 0xbc, 0xc0, 0x29, 0xcb]

/-- The Ed25519 signature of the hash, under the public key of the other examples. -/
def hiSignature : Vector UInt8 64 :=
  #v[0xf5, 0x51, 0x5f, 0x9f, 0x9b, 0x15, 0x3e, 0xd6, 0x57, 0xaf, 0xfe, 0x4c, 0x13, 0xd5, 0x33, 0x53,
    0xf7, 0x83, 0x45, 0xa5, 0x5b, 0x32, 0xf0, 0x32, 0xc0, 0xf8, 0xe7, 0x77, 0xea, 0x19, 0xfc, 0xd5,
    0xa8, 0x8d, 0x8f, 0xf8, 0xd6, 0x67, 0xc7, 0xa8, 0x3b, 0x66, 0x36, 0x07, 0xdb, 0xa2, 0xf1, 0x9c,
    0x9a, 0xbf, 0xfa, 0x37, 0x62, 0x8f, 0x5d, 0xa0, 0x90, 0xfa, 0xe2, 0x6a, 0x18, 0x6a, 0xa5, 0x0e]

def hiKeypair : Ed25519KeyPair
    (Reference.signingAll SignedExample.publicKey hiHashBytes hiSignature) :=
  .generate () "k1"

theorem hash_hiManifest :
    (Sha256.hash (asBytes hiManifest.canonicalPayload)).toList = hiHashBytes := by
  decide +kernel

open SignedExample in
/-- The published manifest carries that signature. -/
theorem SecureModelLoader.published_model_delivered_hi :
    ∃ signed, (hiManifest.withHash Sha256.hash Reference.hex).signWith Reference.hex hiKeypair
        "security-team" = .ok signed ∧
      signed.signature.signatureHex = Reference.hex.encode hiSignature.toList ∧
      (∃ loaded, load Sha256.hash sha512 Reference.hex Reference.subtle {
        signatureVerifier := SignatureVerifier.empty.registerKey hiKeypair.keyId
          hiKeypair.verifyingKey
        supportedMajorVersion := hiManifest.versionMajor
        expectedTiers := hiManifest.tiers.toFinset } signed (PublishedShard.store [hiPublished]) =
          .ok loaded) ∧
      ∀ (loader : SecureModelLoader (Reference.signingAll publicKey hiHashBytes hiSignature))
        (store : ArtifactStore) (loaded : LoadedModel),
        loader.load Sha256.hash sha512 Reference.hex Reference.subtle signed store = .ok loaded →
        ∀ shard ∈ [hiPublished],
          (∀ payload ∈ store.read shard.path,
            ApartOrEqual Sha256.hash sha512 shard.encrypted.ciphertext payload) →
          ∃ payload, store.read shard.path = some payload ∧
            decryptShardAtRest Reference.hkdf hiCipher Reference.hex
              { shard.encrypted with ciphertext := payload } shard.keyRef shard.keyBytes =
                .ok shard.plaintext := by
  obtain ⟨signed, hsigned, delivered⟩ := published_model_delivered hiCipher_exact.undoes
    Reference.hex_lawful (Reference.signingAll_correct publicKey hiHashBytes hiSignature)
    hiManifest [hiPublished] rfl (by simp) rfl (by simp [hiPublished, hiManifest]) hiKeypair
    (Ed25519KeyPair.matching_generate _ _) "security-team" SignatureVerifier.empty
  obtain rfl := Except.ok.inj (hsigned.symm.trans (SecureModelManifest.signWith_encode
    Reference.hex_lawful.decode_encode rfl hiKeypair "security-team"))
  refine ⟨_, hsigned, ?_, delivered⟩
  rw [Ed25519KeyPair.sign, hash_hiManifest]
  rfl

end LiteLlmSecurity
