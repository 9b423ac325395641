import LiteLlmSecurity.Encryption.Custody
import LiteLlmSecurity.Encryption.TierSeparation

/-!
# One cipher key for one nonce

Under one key of AES-GCM no nonce may be used for two messages. The nonce is the seed,
and the key is derived from the master key, the tier and the seed. With master keys that
a key manager serves, the key determines the reference, the tier and the seed, as far as
SHA-256 does not collide: managed keys are 32 bytes long, so HMAC does not mix them up.
A cipher key therefore meets one nonce only, and it is used again exactly when a shard is
encrypted again under the same reference, tier and seed. Nothing in the code prevents
that.
-/

namespace LiteLlmSecurity

open Rust Machine KeyManager

variable {sha256 : Bytes → Vector UInt8 32} {checks : OverflowChecks}

namespace DerivedKey

/-- The texts that the derivation of a key hashes. -/
def hashedTexts (sha256 : Bytes → Vector UInt8 32) (masterKey : Bytes) (tier : TierId)
    (seed : UInt64) : List Bytes :=
  Hmac.hkdfInputs sha256 masterKey derivationContext (info tier seed)

/-- Master keys of one length, at most a block, derive different keys, and so do
different tiers and seeds. -/
theorem derive_inj {masterKey masterKey' : Bytes} {tier tier' : TierId} {seed seed' : UInt64}
    (hlength : masterKey.length = masterKey'.length) (hshort : masterKey.length ≤ Hmac.blockSize)
    (collisionFree : Hmac.CollisionFreeOn sha256
      (hashedTexts sha256 masterKey tier seed ++ hashedTexts sha256 masterKey' tier' seed'))
    (h : (derive (.rfc5869 sha256) masterKey tier seed).bytes =
      (derive (.rfc5869 sha256) masterKey' tier' seed').bytes) :
    masterKey = masterKey' ∧ tier = tier' ∧ seed = seed' := by
  obtain ⟨hmaster, hinfo⟩ := Hmac.expand_extract_inj sha256 hlength hshort collisionFree h
  exact ⟨hmaster, info_inj hinfo⟩

end DerivedKey

/-- Retrieved keys are 32 bytes long. -/
theorem KeyManager.length_of_retrieveKey {rotationPolicy : KeyRotationPolicy}
    {manager : KeyManager} (hnew : new rotationPolicy = .ok manager)
    {operations : List KeyOperation} {identity : String} {reference : KeyMaterialRef}
    {day : UInt32} {material : Bytes}
    (hretrieve : retrieveKey checks (after (step sha256 checks) manager operations) identity
      reference day = .ok material) : material.length = 32 := by
  obtain ⟨key, hstored, rfl⟩ := exists_stored_of_retrieveKey hretrieve
  obtain ⟨-, seed, -, -, -, hmaterial⟩ := exists_call_of_stored hnew hstored
  rw [hmaterial, deriveKeyMaterial_eq, Vector.length_toList]

variable (checks) in
/-- Two encryptions in a run, each with a master key that was retrieved at some time of
it, use the same cipher key exactly when they have the same key id, version, tier and seed.
Assumed: SHA-256 does not collide on the texts that the run's keys and the two cipher keys
are derived from. -/
theorem DerivedKey.derive_retrieved_eq_iff {rotationPolicy : KeyRotationPolicy}
    {manager : KeyManager} (hnew : new rotationPolicy = .ok manager)
    (operations later : List KeyOperation) (identity identity' : String)
    (reference reference' : KeyMaterialRef) (day day' : UInt32) (material material' : Bytes)
    (hretrieve : retrieveKey checks (after (step sha256 checks) manager operations) identity
      reference day = .ok material)
    (hretrieve' : retrieveKey checks (after (step sha256 checks) manager (operations ++ later))
      identity' reference' day' = .ok material')
    (tier tier' : TierId) (seed seed' : UInt64)
    (inputsApart : Set.InjOn sha256
      (derivationInputs (history (step sha256 checks) manager (operations ++ later))))
    (textsApart : Hmac.CollisionFreeOn sha256
      (hashedTexts sha256 material tier seed ++ hashedTexts sha256 material' tier' seed')) :
    (derive (.rfc5869 sha256) material tier seed).bytes =
        (derive (.rfc5869 sha256) material' tier' seed').bytes ↔
      reference.keyId = reference'.keyId ∧ reference.version = reference'.version ∧
        tier = tier' ∧ seed = seed' := by
  have hlength := length_of_retrieveKey hnew hretrieve
  have hlength' := length_of_retrieveKey hnew hretrieve'
  constructor
  · intro same
    obtain ⟨hmaterial, htier, hseed⟩ := derive_inj (hlength.trans hlength'.symm)
      (hlength.trans_le (by decide)) textsApart same
    obtain ⟨key, hstored, rfl⟩ := exists_stored_of_retrieveKey hretrieve
    obtain ⟨key', hstored', rfl⟩ := exists_stored_of_retrieveKey hretrieve'
    obtain ⟨kept, hkept, hmaterial'⟩ := exists_stored_after_same sha256 checks hstored later
    rw [← after_append] at hkept
    by_contra other
    refine (stored_material_ne hnew inputsApart hkept hstored' fun hplace => other ?_).1
      (hmaterial'.trans hmaterial)
    obtain ⟨hkeyId, hversion⟩ := Prod.mk.inj hplace
    exact ⟨hkeyId.symm, hversion.symm, htier, hseed⟩
  · rintro ⟨hkeyId, hversion, rfl, rfl⟩
    rw [after_append] at hretrieve'
    rw [material_eq_of_retrieveKey_after hretrieve hretrieve' hkeyId.symm hversion.symm]

theorem DerivedKey.derive_retrieved_eq_iff_rotated :
    (derive Reference.hkdf modelKeyMaterial 2 7).bytes =
        (derive Reference.hkdf rotatedKeyMaterial 2 7).bytes ↔
      modelKey.keyId = modelKey.keyId ∧ modelKey.version = 2 ∧ (2 : TierId) = 2 ∧
        (7 : UInt64) = 7 := by
  have digestsApart : ((hashedTexts Sha256.hash modelKeyMaterial 2 7 ++
      hashedTexts Sha256.hash rotatedKeyMaterial 2 7).map Sha256.hash).Nodup := by
    rw [modelKeyMaterial, rotatedKeyMaterial, deriveKeyMaterial_eq, deriveKeyMaterial_eq]
    decide +kernel
  have created : new ⟨30, 7⟩ = .ok monthly := rfl
  exact derive_retrieved_eq_iff .on created encryptionKeyIssued [.rotateKey "model-key" 1 99]
    "loader" "loader" modelKey { modelKey with version := 2 } 1 1 modelKeyMaterial
    rotatedKeyMaterial (by rfl) (by rfl) 2 2 7 7 injOn_rotatedKeyIssued
    fun _ hmem _ hmem' h => List.inj_on_of_nodup_map digestsApart hmem hmem' h

end LiteLlmSecurity
