import LiteLlmSecurity.Integrity.Authentication

/-!
# When a model loads

`load` is a dozen checks in a row, one of them a loop. `FullyVerified` states them
without order and without the texts of the errors, as properties of the manifest,
the registered keys and the store, and loading succeeds exactly on the manifests
that have them.
-/

namespace LiteLlmSecurity

open Rust StableSort

/-- A store whose payloads are `Vec`s. None is longer than `isize::MAX` bytes, so
that the cast of a length to `u64` keeps it. -/
structure VecStore extends ArtifactStore where
  length_lt : ∀ {path payload}, read path = some payload → payload.length < 2 ^ 63

section

variable {ed25519 : Ed25519} {sha256 : Bytes → Vector UInt8 32}
  {sha512 : Bytes → Vector UInt8 64} {hex : Hex} {subtle : Subtle}

theorem VecStore.ofNat_length_eq_iff (store : VecStore) {path : String} {payload : Bytes}
    (hread : store.read path = some payload) (bytes : UInt64) :
    UInt64.ofNat payload.length = bytes ↔ payload.length = bytes.toNat := by
  have hlt : payload.length < 2 ^ 64 := by
    have := store.length_lt hread
    omega
  rw [← UInt64.toNat_inj, UInt64.toNat_ofNat_of_lt' hlt]

/-! ## The parts of the check -/

theorem ArtifactDigest.fromPayload_eq_ok_iff {payload : Bytes} {digest : ArtifactDigest} :
    fromPayload sha256 sha512 hex payload digest.algorithm = .ok digest ↔
      digest = ofSha256 sha256 hex payload ∨ digest = ofSha512 sha512 hex payload := by
  have different : sha256Algorithm ≠ sha512Algorithm := by decide
  obtain ⟨algorithm, digits⟩ := digest
  by_cases is256 : algorithm = sha256Algorithm
  · subst is256
    simp [fromPayload, ofSha256, ofSha512, different, eq_comm]
  · by_cases is512 : algorithm = sha512Algorithm
    · subst is512
      simp [fromPayload, ofSha256, ofSha512, different.symm, eq_comm]
    · simp [fromPayload, ofSha256, ofSha512, is256, is512]

/-- What the loader requires of a shard by itself. -/
structure ManifestShard.WellFormed (shard : ManifestShard) : Prop where
  path_not_blank : ¬ Blank shard.path
  bytes_pos : 0 < shard.bytes

theorem SecureModelManifest.validateShards_eq_ok_iff {shards : List ManifestShard} :
    validateShards shards = .ok () ↔ ∀ shard ∈ shards, shard.WellFormed := by
  induction shards with
  | nil => simp [validateShards]
  | cons shard rest ih =>
      have hpositive : ¬ shard.bytes = 0 ↔ 0 < shard.bytes := by
        rw [UInt64.lt_iff_toNat_lt, ← UInt64.toNat_inj]
        exact Nat.pos_iff_ne_zero.symm
      rw [validateShards, ite_error_eq_ok_iff, ite_error_eq_ok_iff, ih, List.forall_mem_cons,
        trim_eq_empty_iff, hpositive, ← and_assoc]
      exact and_congr_left fun _ => ⟨fun h => ⟨h.1, h.2⟩, fun h => ⟨h.1, h.2⟩⟩

theorem SecureModelManifest.validateShape_eq_ok_iff {manifest : SecureModelManifest} :
    manifest.validateShape = .ok () ↔
      ¬ Blank manifest.modelId ∧ manifest.tiers ≠ [] ∧ manifest.shards ≠ [] ∧
        ∀ shard ∈ manifest.shards, shard.WellFormed := by
  rw [validateShape, ite_error_eq_ok_iff, ite_error_eq_ok_iff, ite_error_eq_ok_iff,
    trim_eq_empty_iff, validateShards_eq_ok_iff]

/-- A registered key accepts the signature that an envelope carries for a hash, both
written in hexadecimal. -/
def SignatureVerifier.Accepts (hex : Hex) (verifier : SignatureVerifier ed25519)
    (manifestHashHex : String) (envelope : SignatureEnvelope) : Prop :=
  ∃ (verifyingKey : ed25519.VerifyingKey) (hashBytes : Bytes) (signature : Vector UInt8 64),
    verifier.pubKeys[envelope.keyId]? = some verifyingKey ∧
    hex.decode manifestHashHex = .ok hashBytes ∧
    hex.decode envelope.signatureHex = .ok signature.toList ∧
    ed25519.verifyStrict verifyingKey hashBytes signature = true

theorem SignatureVerifier.verifySignature_eq_ok_iff {verifier : SignatureVerifier ed25519}
    {manifestHashHex : String} {envelope : SignatureEnvelope} :
    verifier.verifySignature hex manifestHashHex envelope = .ok () ↔
      verifier.Accepts hex manifestHashHex envelope := by
  constructor
  · intro h
    cases hkey : verifier.pubKeys[envelope.keyId]? with
    | none => simp [verifySignature, hkey] at h
    | some verifyingKey =>
        cases hhash : hex.decode manifestHashHex with
        | error e => simp [verifySignature, hkey, hhash] at h
        | ok hashBytes =>
            cases hsig : hex.decode envelope.signatureHex with
            | error e => simp [verifySignature, hkey, hhash, hsig] at h
            | ok sigBytes =>
                cases hsignature : tryInto 64 sigBytes with
                | none => simp [verifySignature, hkey, hhash, hsig, hsignature] at h
                | some signature =>
                    have hverify :
                        ed25519.verifyStrict verifyingKey hashBytes signature = true := by
                      simpa [verifySignature, hkey, hhash, hsig, hsignature] using h
                    rw [tryInto_eq_some_iff.mp hsignature] at hsig
                    exact ⟨verifyingKey, hashBytes, signature, hkey, hhash, hsig, hverify⟩
  · rintro ⟨verifyingKey, hashBytes, signature, hkey, hhash, hsig, hverify⟩
    simp [verifySignature, hkey, hhash, hsig, hverify]

/-! ## The whole check -/

/-- The store holds the shard's payload, of the stated length and with the stated
digest under one of the two algorithms. -/
structure ManifestShard.Intact (sha256 : Bytes → Vector UInt8 32)
    (sha512 : Bytes → Vector UInt8 64) (hex : Hex) (store : ArtifactStore)
    (shard : ManifestShard) (payload : Bytes) : Prop where
  read_eq : store.read shard.path = some payload
  length_eq : payload.length = shard.bytes.toNat
  digest_eq : shard.digest = .ofSha256 sha256 hex payload ∨
    shard.digest = .ofSha512 sha512 hex payload

theorem ManifestShard.verified_iff (store : VecStore) (actualTiers : Finset TierId)
    (shard : ManifestShard) (payload : Bytes) :
    shard.Verified sha256 sha512 hex store.toArtifactStore actualTiers payload ↔
      shard.tier ∈ actualTiers ∧
        shard.Intact sha256 sha512 hex store.toArtifactStore payload := by
  constructor
  · rintro ⟨tier_mem, read_eq, bytes_eq, digest_eq⟩
    exact ⟨tier_mem, read_eq, (store.ofNat_length_eq_iff read_eq _).mp bytes_eq,
      ArtifactDigest.fromPayload_eq_ok_iff.mp digest_eq⟩
  · rintro ⟨tier_mem, read_eq, length_eq, digest_eq⟩
    exact ⟨tier_mem, read_eq, (store.ofNat_length_eq_iff read_eq _).mpr length_eq,
      ArtifactDigest.fromPayload_eq_ok_iff.mpr digest_eq⟩

/-- What a model must satisfy to be loaded. -/
structure SecureModelLoader.FullyVerified (sha256 : Bytes → Vector UInt8 32)
    (sha512 : Bytes → Vector UInt8 64) (hex : Hex) (loader : SecureModelLoader ed25519)
    (manifest : SecureModelManifest) (store : ArtifactStore) : Prop where
  modelId_not_blank : ¬ Blank manifest.modelId
  tiers_ne_nil : manifest.tiers ≠ []
  shards_ne_nil : manifest.shards ≠ []
  shards_wellFormed : ∀ shard ∈ manifest.shards, shard.WellFormed
  versionMajor_eq : manifest.versionMajor = loader.supportedMajorVersion
  mem_tiers_iff : ∀ tier, tier ∈ manifest.tiers ↔ tier ∈ loader.expectedTiers
  manifestHashHex_eq : manifest.manifestHashHex = manifest.recomputeHash sha256 hex
  signed : loader.signatureVerifier.Accepts hex manifest.manifestHashHex manifest.signature
  shards_tier_mem : ∀ shard ∈ manifest.shards, shard.tier ∈ manifest.tiers
  shards_intact : ∀ shard ∈ manifest.shards, ∃ payload, shard.Intact sha256 sha512 hex store payload

namespace SecureModelLoader

/-- The checks of the loader, one after the other, are those of `FullyVerified`. -/
theorem fullyVerified_iff (loader : SecureModelLoader ed25519) (manifest : SecureModelManifest)
    (store : VecStore) :
    loader.FullyVerified sha256 sha512 hex manifest store.toArtifactStore ↔
      manifest.validateShape = .ok () ∧
      manifest.versionMajor = loader.supportedMajorVersion ∧
      manifest.tiers.toFinset = loader.expectedTiers ∧
      manifest.recomputeHash sha256 hex = manifest.manifestHashHex ∧
      loader.signatureVerifier.verifySignature hex manifest.manifestHashHex manifest.signature =
        .ok () ∧
      ∀ shard ∈ manifest.shards, ∃ payload, shard.Verified sha256 sha512 hex
        store.toArtifactStore manifest.tiers.toFinset payload := by
  constructor
  · rintro ⟨modelId, tiers, shards, wellFormed, major, expected, hash, signed, tier, intact⟩
    refine ⟨SecureModelManifest.validateShape_eq_ok_iff.mpr ⟨modelId, tiers, shards, wellFormed⟩,
      major, Finset.ext fun t => by rw [List.mem_toFinset, expected], hash.symm,
      SignatureVerifier.verifySignature_eq_ok_iff.mpr signed, fun shard hshard => ?_⟩
    obtain ⟨payload, hpayload⟩ := intact shard hshard
    have htier := List.mem_toFinset.mpr (tier shard hshard)
    exact ⟨payload, (shard.verified_iff store _ payload).mpr ⟨htier, hpayload⟩⟩
  · rintro ⟨shape, major, expected, hash, signed, verified⟩
    obtain ⟨modelId, tiers, shards, wellFormed⟩ :=
      SecureModelManifest.validateShape_eq_ok_iff.mp shape
    refine ⟨modelId, tiers, shards, wellFormed, major,
      fun t => by rw [← expected, List.mem_toFinset], hash.symm,
      SignatureVerifier.verifySignature_eq_ok_iff.mp signed, fun shard hshard => ?_,
      fun shard hshard => ?_⟩
    · obtain ⟨payload, hpayload⟩ := verified shard hshard
      exact List.mem_toFinset.mp hpayload.tier_mem
    · obtain ⟨payload, hpayload⟩ := verified shard hshard
      exact ⟨payload, ((shard.verified_iff store _ payload).mp hpayload).2⟩

/-- What a fully verified model loads as. -/
theorem load_of_fullyVerified {loader : SecureModelLoader ed25519} {manifest : SecureModelManifest}
    {store : VecStore}
    (verified : loader.FullyVerified sha256 sha512 hex manifest store.toArtifactStore) :
    loader.load sha256 sha512 hex subtle manifest store.toArtifactStore = .ok {
      modelId := manifest.modelId
      loadedTiers := manifest.tiers
      verifiedShards := sortByKey (fun path => path) (manifest.shards.map (·.path)) } := by
  obtain ⟨shape, major, tiers, hash, signed, shards⟩ :=
    (fullyVerified_iff loader manifest store).mp verified
  exact (load_eq_ok_iff loader manifest _ _).mpr
    ⟨shape, major, tiers, hash, signed, shards, rfl⟩

theorem exists_load_iff (loader : SecureModelLoader ed25519) (manifest : SecureModelManifest)
    (store : VecStore) :
    (∃ loaded,
        loader.load sha256 sha512 hex subtle manifest store.toArtifactStore = .ok loaded) ↔
      loader.FullyVerified sha256 sha512 hex manifest store.toArtifactStore := by
  constructor
  · rintro ⟨loaded, hload⟩
    obtain ⟨shape, major, tiers, hash, signed, shards, -⟩ :=
      (load_eq_ok_iff loader manifest _ loaded).mp hload
    exact (fullyVerified_iff loader manifest store).mpr
      ⟨shape, major, tiers, hash, signed, shards⟩
  · intro verified
    exact ⟨_, load_of_fullyVerified verified⟩

/-- The paths that a load returns are those of the manifest, sorted. -/
theorem verifiedShards_of_load {loader : SecureModelLoader ed25519}
    {manifest : SecureModelManifest} {store : ArtifactStore} {loaded : LoadedModel}
    (hload : loader.load sha256 sha512 hex subtle manifest store = .ok loaded) :
    loaded.verifiedShards.Perm (manifest.shards.map (·.path)) ∧
      loaded.verifiedShards.Pairwise (· ≤ ·) := by
  obtain ⟨-, -, -, -, -, -, rfl⟩ := (load_eq_ok_iff loader manifest store loaded).mp hload
  exact ⟨sortByKey_perm _ _, sortByKey_pairwise _ _⟩

/-- A model loads exactly when it is fully verified, and the verified shards are then
all paths of the manifest in ascending order. -/
theorem load_succeeds_iff (loader : SecureModelLoader ed25519) (manifest : SecureModelManifest)
    (store : VecStore) :
    ((∃ loaded,
        loader.load sha256 sha512 hex subtle manifest store.toArtifactStore = .ok loaded) ↔
      loader.FullyVerified sha256 sha512 hex manifest store.toArtifactStore) ∧
    ∀ loaded,
      loader.load sha256 sha512 hex subtle manifest store.toArtifactStore = .ok loaded →
        loaded.verifiedShards.Perm (manifest.shards.map (·.path)) ∧
          loaded.verifiedShards.Pairwise (· ≤ ·) :=
  ⟨exists_load_iff loader manifest store, fun _ hload => verifiedShards_of_load hload⟩

end SecureModelLoader

end

end LiteLlmSecurity
