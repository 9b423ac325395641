import LiteLlmSecurity.Encryption.KeySeparation
import LiteLlmSecurity.Text.Separator

/-!
# Shards under another tier or seed

The tier and the seed enter the key as the text `tier:seed`. No decimal contains
the colon, so the text determines both, and different pairs are expanded to
different keys as far as expansion allows. Decryption derives the key from the
tier in the metadata and the seed in the nonce. A shard whose metadata names
another pair is therefore opened under a key it was not sealed with.
-/

namespace LiteLlmSecurity

open Rust

variable {hkdf : Hkdf} {aes : Aes256Gcm} {hex : Hex}

/-- The context of the key determines the tier and the seed. -/
theorem DerivedKey.info_inj {tier tier' : TierId} {seed seed' : UInt64}
    (h : info tier' seed' = info tier seed) : tier' = tier ∧ seed' = seed := by
  have htext := congrArg String.toList (asBytes_injective h)
  simp only [toString_string, toString_uint16, toString_uint64, String.toList_append] at htext
  have hcut : tier'.toNat.repr.toList ++ ':' :: seed'.toNat.repr.toList =
      tier.toNat.repr.toList ++ ':' :: seed.toNat.repr.toList := by
    simpa using htext
  obtain ⟨htier, hseed⟩ := Separator.append_cons_inj hcut
    (Decimal.notMem_repr (by decide) _) (Decimal.notMem_repr (by decide) _)
  exact ⟨UInt16.toNat_inj.mp (Decimal.repr_toList_injective htier),
    UInt64.toNat_inj.mp (Decimal.repr_toList_injective hseed)⟩

/-- Different pairs of tier and seed derive different keys, unless expansion
collides on their contexts. -/
theorem DerivedKey.derive_ne_of_pair_ne {masterKey : Bytes} {tier tier' : TierId}
    {seed seed' : UInt64} (other : (tier', seed') ≠ (tier, seed))
    (hexpand : Set.InjOn (hkdf.expand (hkdf.new masterKey derivationContext))
      {info tier seed, info tier' seed'}) :
    (derive hkdf masterKey tier' seed').bytes ≠ (derive hkdf masterKey tier seed).bytes := by
  intro same
  have hinfo : info tier' seed' = info tier seed := hexpand (by simp) (by simp) same
  obtain ⟨rfl, rfl⟩ := info_inj hinfo
  exact other rfl

/-- A text of a 12-byte nonce whose last eight bytes are those of the seed. Its
prefix and the spelling of its digits are free. -/
def EncodesSeed (hex : Hex) (seed : UInt64) (nonceHex : String) : Prop :=
  ∃ nonce, hex.decode nonceHex = .ok nonce ∧ nonce.length = aesGcmNonceSize ∧
    nonce.drop 4 = BigEndian.toBytes 8 seed.toNat

/-- Decryption reads the seed that the nonce encodes. -/
theorem EncodesSeed.extract {seed : UInt64} {nonceHex : String}
    (encodes : EncodesSeed hex seed nonceHex) :
    extractSeedFromNonce hex nonceHex = .ok seed := by
  obtain ⟨nonce, hdecode, hlength, hdrop⟩ := encodes
  exact extractSeedFromNonce_of_decode hdecode hlength hdrop

/-- The shard with another tier and nonce in its metadata. -/
def EncryptedShard.relabel (encrypted : EncryptedShard) (tier : TierId) (nonceHex : String) :
    EncryptedShard :=
  { encrypted with metadata := { encrypted.metadata with tier, nonceHex } }

/-- Different pairs of tier and seed have different keys, and a shard sealed for one
pair is rejected when its metadata names the other: through another tier beside
the nonce it has, or through a nonce of the other seed beside any tier. Assumed:
expansion does not collide on the contexts of the two pairs, and the cipher
opens this ciphertext under no other key. -/
theorem decryptShardAtRest_relabel
    (decode_encode : ∀ bytes, hex.decode (hex.encode bytes) = .ok bytes)
    (masterKey : Bytes) (tier tier' : TierId) (seed seed' : UInt64)
    (other : (tier', seed') ≠ (tier, seed))
    (hexpand : Set.InjOn (hkdf.expand (hkdf.new masterKey derivationContext))
      {DerivedKey.info tier seed, DerivedKey.info tier' seed'}) :
    (DerivedKey.derive hkdf masterKey tier' seed').bytes ≠
        (DerivedKey.derive hkdf masterKey tier seed).bytes ∧
      ∀ (plaintext : Bytes) (keyRef : KeyMaterialRef) (encrypted : EncryptedShard),
        encryptShardAtRest hkdf aes hex plaintext tier keyRef masterKey seed = .ok encrypted →
        (∀ key, key ≠ (DerivedKey.derive hkdf masterKey tier seed).bytes →
          ∀ nonce opened, aes.decrypt key nonce (.ofMsg encrypted.ciphertext) ≠ .ok opened) →
        ∀ nonceHex : String,
          (nonceHex = encrypted.metadata.nonceHex ∧ seed' = seed) ∨
            EncodesSeed hex seed' nonceHex →
          ∃ error, decryptShardAtRest hkdf aes hex (encrypted.relabel tier' nonceHex) keyRef
            masterKey = .error error := by
  have hkey := DerivedKey.derive_ne_of_pair_ne other hexpand
  refine ⟨hkey, fun plaintext keyRef encrypted hencrypt hrejects nonceHex names => ?_⟩
  have hseed : extractSeedFromNonce hex nonceHex = .ok seed' := by
    rcases names with ⟨rfl, rfl⟩ | encodes
    · obtain ⟨-, ciphertext, -, rfl⟩ := (encryptShardAtRest_eq_ok_iff _ _ _ _ _ _).mp hencrypt
      exact extractSeedFromNonce_nonceOf decode_encode seed'
    · exact encodes.extract
  exact exists_error_of_rejects hseed (hrejects _ hkey _)

theorem decryptShardAtRest_relabel_hi :
    (DerivedKey.derive Reference.hkdf [0x61] 3 43).bytes ≠
        (DerivedKey.derive Reference.hkdf [0x61] 2 42).bytes ∧
      ∃ error, decryptShardAtRest Reference.hkdf hiCipher Reference.hex
        (hiShard.relabel 3 (Reference.hex.encode (nonceOf 43))) masterRef [0x61] =
          .error error := by
  have hexpand : Reference.hkdf.expand (Reference.hkdf.new [0x61] derivationContext)
        (DerivedKey.info 2 42) ≠
      Reference.hkdf.expand (Reference.hkdf.new [0x61] derivationContext)
        (DerivedKey.info 3 43) := by decide +kernel
  obtain ⟨hkey, rejected⟩ := @decryptShardAtRest_relabel Reference.hkdf hiCipher Reference.hex
    Reference.hex_lawful.decode_encode [0x61] 2 3 42 43 (by decide)
    (Set.injOn_pair.mpr fun h => absurd h hexpand)
  exact ⟨hkey, rejected [0x68, 0x69] masterRef hiShard encrypt_hi
    (fun key other nonce opened => Reference.sealing_rejects _ _ _ _ other _ _ opened) _
    (.inr ⟨nonceOf 43, Reference.hex_lawful.decode_encode _, nonceOf_length 43, rfl⟩)⟩

end LiteLlmSecurity
