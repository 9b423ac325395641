import LiteLlmSecurity.Encryption.Acceptance

/-!
# Which master keys open a shard

The master key enters HKDF as the salt, so it is the key of an HMAC and is
prepared as HMAC prepares keys: a short one is filled up with zero bytes and a
long one is hashed. Master keys with the same preparation derive the same key
bytes, and each opens what the other sealed. Beyond that, keys are as separate as
extraction, expansion and the cipher make them.
-/

namespace LiteLlmSecurity

open Rust

variable {sha256 : Bytes → Vector UInt8 32} {aes : Aes256Gcm} {hex : Hex}

/-- Master keys that HMAC prepares alike derive the same key. -/
theorem DerivedKey.derive_congr {masterKey masterKey' : Bytes}
    (prepared : Hmac.prepareKey sha256 masterKey = Hmac.prepareKey sha256 masterKey')
    (tier : TierId) (seed : UInt64) :
    derive (.rfc5869 sha256) masterKey tier seed =
      derive (.rfc5869 sha256) masterKey' tier seed := by
  simp only [derive, Hkdf.rfc5869, Hmac.extract_congr sha256 prepared]

/-- The input keying material, which is the same for every master key. -/
def derivationContext : Bytes := asBytes "lite-llm-derivation"

/-- Master keys that HMAC prepares differently derive different keys, unless
extraction or expansion collides. -/
theorem DerivedKey.derive_ne {masterKey masterKey' : Bytes} {tier : TierId} {seed : UInt64}
    (hextract : Set.InjOn (fun prepared => Hmac.macPrepared sha256 prepared derivationContext)
      {Hmac.prepareKey sha256 masterKey, Hmac.prepareKey sha256 masterKey'})
    (hexpand : Set.InjOn (fun prk => Hmac.expand sha256 prk (info tier seed))
      {Hmac.extract sha256 masterKey derivationContext,
        Hmac.extract sha256 masterKey' derivationContext})
    (prepared : Hmac.prepareKey sha256 masterKey ≠ Hmac.prepareKey sha256 masterKey') :
    (derive (.rfc5869 sha256) masterKey' tier seed).bytes ≠
      (derive (.rfc5869 sha256) masterKey tier seed).bytes := by
  intro same
  have hprk : Hmac.extract sha256 masterKey' derivationContext =
      Hmac.extract sha256 masterKey derivationContext := hexpand (by simp) (by simp) same
  exact prepared (hextract (by simp) (by simp) hprk.symm)

/-- A shard sealed under one master key is rejected under another exactly when
HMAC prepares the two keys differently. Assumed besides exact decryption: at
these two keys extraction and expansion do not collide, and the cipher does not open
this ciphertext with the key derived from the other one, if that key is another. -/
theorem decryptShardAtRest_otherKey_iff (exact : aes.Exact) (lawful : hex.Lawful)
    (plaintext : Bytes) (tier : TierId) (keyRef : KeyMaterialRef) (seed : UInt64)
    (masterKey masterKey' : Bytes) (encrypted : EncryptedShard)
    (hencrypt : encryptShardAtRest (.rfc5869 sha256) aes hex plaintext tier keyRef masterKey seed =
      .ok encrypted)
    (hrejects : (DerivedKey.derive (.rfc5869 sha256) masterKey' tier seed).bytes ≠
        (DerivedKey.derive (.rfc5869 sha256) masterKey tier seed).bytes →
      ∀ opened, aes.decrypt (DerivedKey.derive (.rfc5869 sha256) masterKey' tier seed).bytes
        (nonceOf seed) (.ofMsg encrypted.ciphertext) ≠ .ok opened)
    (hextract : Set.InjOn (fun prepared => Hmac.macPrepared sha256 prepared derivationContext)
      {Hmac.prepareKey sha256 masterKey, Hmac.prepareKey sha256 masterKey'})
    (hexpand : Set.InjOn (fun prk => Hmac.expand sha256 prk (DerivedKey.info tier seed))
      {Hmac.extract sha256 masterKey derivationContext,
        Hmac.extract sha256 masterKey' derivationContext}) :
    (∃ error, decryptShardAtRest (.rfc5869 sha256) aes hex encrypted keyRef masterKey' =
        .error error) ↔
      Hmac.prepareKey sha256 masterKey ≠ Hmac.prepareKey sha256 masterKey' := by
  constructor
  · rintro ⟨error, rejected⟩ prepared
    have hopened := decryptShardAtRest_of_encrypt exact.undoes lawful.decode_encode hencrypt
      (DerivedKey.derive_congr prepared tier seed).symm
    rw [rejected] at hopened
    cases hopened
  · intro prepared
    have hkey := DerivedKey.derive_ne hextract hexpand prepared
    obtain ⟨-, ciphertext, -, rfl⟩ := (encryptShardAtRest_eq_ok_iff _ _ _ _ _ _).mp hencrypt
    have hseed := extractSeedFromNonce_nonceOf lawful.decode_encode seed
    exact exists_error_of_rejects hseed (hrejects hkey)

theorem decryptShardAtRest_otherKey_hi :
    (∃ error, decryptShardAtRest Reference.hkdf hiCipher Reference.hex hiShard masterRef [0x62] =
        .error error) ↔
      Hmac.prepareKey Sha256.hash [0x61] ≠ Hmac.prepareKey Sha256.hash [0x62] := by
  have hexpand : Hmac.expand Sha256.hash (Hmac.extract Sha256.hash [0x61] derivationContext)
        (DerivedKey.info 2 42) ≠
      Hmac.expand Sha256.hash (Hmac.extract Sha256.hash [0x62] derivationContext)
        (DerivedKey.info 2 42) := by decide +kernel
  have hextract : Hmac.extract Sha256.hash [0x61] derivationContext ≠
      Hmac.extract Sha256.hash [0x62] derivationContext := fun h => hexpand (by rw [h])
  exact decryptShardAtRest_otherKey_iff hiCipher_exact Reference.hex_lawful [0x68, 0x69] 2
    masterRef 42 [0x61] [0x62] hiShard encrypt_hi
    (fun other opened => Reference.sealing_rejects _ _ _ _ other _ _ opened)
    (Set.injOn_pair.mpr fun h => absurd h hextract) (Set.injOn_pair.mpr fun h => absurd h hexpand)

/-- The master key `a` and the same key with a zero byte added open each other's
shards. -/
theorem zero_padded_key_decrypts :
    ¬ (hiCipher.Exact →
      (∀ key, key ≠ (DerivedKey.derive Reference.hkdf [0x61] 2 42).bytes →
        ∀ opened, hiCipher.decrypt key (nonceOf 42) (.ofMsg hiShard.ciphertext) ≠ .ok opened) →
      encryptShardAtRest Reference.hkdf hiCipher Reference.hex [0x68, 0x69] 2 masterRef [0x61] 42 =
        .ok hiShard →
      ∃ error, decryptShardAtRest Reference.hkdf hiCipher Reference.hex hiShard masterRef
        [0x61, 0x00] = .error error) := by
  intro claim
  obtain ⟨error, rejected⟩ := claim hiCipher_exact
    (fun key other opened => Reference.sealing_rejects _ _ _ _ other _ _ opened) encrypt_hi
  have prepared : Hmac.prepareKey Sha256.hash ([0x61] ++ List.replicate 1 0) =
      Hmac.prepareKey Sha256.hash [0x61] :=
    Hmac.prepareKey_append_zeros Sha256.hash (by decide)
  have hopened := decryptShardAtRest_of_encrypt hiCipher_exact.undoes
    Reference.hex_lawful.decode_encode encrypt_hi (DerivedKey.derive_congr prepared 2 42)
  have padded : ([0x61, 0x00] : Bytes) = [0x61] ++ List.replicate 1 0 := rfl
  rw [padded, hopened] at rejected
  cases rejected

end LiteLlmSecurity
