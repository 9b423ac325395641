import LiteLlmSecurity.Encryption.Shard
import LiteLlmSecurity.Reference

/-!
# Which shards decryption accepts

Decryption compares the key reference, reads the seed out of the nonce and checks
the ciphertext under the key that these and the tier derive. The other parts of
the metadata are not looked at: the algorithm, the tag kept beside the
ciphertext, the prefix of the nonce and the spelling of its hexadecimal digits.
Nor is the master key required to be non-empty.
-/

namespace LiteLlmSecurity

open Rust

variable {hkdf : Hkdf} {aes : Aes256Gcm} {hex : Hex}

/-! ## The outcomes of the two functions -/

/-- The shard that encryption makes of a ciphertext. -/
def sealedShard (hex : Hex) (tier : TierId) (keyRef : KeyMaterialRef) (seed : UInt64)
    (ciphertext : Bytes) : EncryptedShard where
  ciphertext
  metadata := {
    algorithm := aes256GcmAlgorithm
    tier
    keyId := keyRef.keyId
    keyVersion := keyRef.version
    nonceHex := hex.encode (nonceOf seed)
    authTagHex := authTagHexOf hex ciphertext }

theorem encryptShardAtRest_eq_ok_iff (plaintext : Bytes) (tier : TierId)
    (keyRef : KeyMaterialRef) (keyBytes : Bytes) (seed : UInt64) (encrypted : EncryptedShard) :
    encryptShardAtRest hkdf aes hex plaintext tier keyRef keyBytes seed = .ok encrypted ↔
      keyBytes ≠ [] ∧ ∃ ciphertext,
        aes.encrypt (DerivedKey.derive hkdf keyBytes tier seed).bytes (nonceOf seed)
          (.ofMsg plaintext) = .ok ciphertext ∧
        encrypted = sealedShard hex tier keyRef seed ciphertext := by
  by_cases empty : keyBytes = []
  · simp [encryptShardAtRest, empty]
  · simp only [encryptShardAtRest, if_neg empty, aes.newFromSlice_toList, DerivedKey.derive]
    cases aes.encrypt _ _ _ with
    | error e => simp
    | ok ciphertext => simp [empty, sealedShard, eq_comm]

theorem decryptShardAtRest_eq_ok_iff (encrypted : EncryptedShard) (keyRef : KeyMaterialRef)
    (keyBytes plaintext : Bytes) :
    decryptShardAtRest hkdf aes hex encrypted keyRef keyBytes = .ok plaintext ↔
      encrypted.metadata.keyId = keyRef.keyId ∧
      encrypted.metadata.keyVersion = keyRef.version ∧
      ∃ seed, extractSeedFromNonce hex encrypted.metadata.nonceHex = .ok seed ∧
        aes.decrypt (DerivedKey.derive hkdf keyBytes encrypted.metadata.tier seed).bytes
          (nonceOf seed) (.ofMsg encrypted.ciphertext) = .ok plaintext := by
  by_cases mismatch : encrypted.metadata.keyId ≠ keyRef.keyId ∨
      encrypted.metadata.keyVersion ≠ keyRef.version
  · simp only [decryptShardAtRest, if_pos mismatch, reduceCtorEq, false_iff]
    rintro ⟨keyId, keyVersion, -⟩
    exact mismatch.elim (· keyId) (· keyVersion)
  · obtain ⟨keyId, keyVersion⟩ := not_or.mp mismatch
    simp only [decryptShardAtRest, if_neg mismatch, aes.newFromSlice_toList, DerivedKey.derive]
    simp only [not_not.mp keyId, not_not.mp keyVersion, true_and]
    cases hseed : extractSeedFromNonce hex encrypted.metadata.nonceHex with
    | error e => simp
    | ok seed =>
        simp only [Except.ok.injEq, exists_eq_left']
        cases aes.decrypt _ _ _ <;> simp

/-! ## Nonces -/

/-- Every nonce has the length that `Nonce::from_slice` demands. -/
theorem nonceOf_length (seed : UInt64) : (nonceOf seed).length = aesGcmNonceSize := by
  simp [nonceOf, noncePrefix, aesGcmNonceSize]

/-- A nonce with the prefix is the nonce of the seed read from it. -/
theorem nonceOf_ofBytes {suffix : Bytes} (hlength : suffix.length = 8) :
    nonceOf (UInt64.ofNat (BigEndian.ofBytes suffix)) = noncePrefix ++ suffix := by
  have hlt := BigEndian.ofBytes_lt suffix
  rw [hlength] at hlt
  have hseed : (UInt64.ofNat (BigEndian.ofBytes suffix)).toNat = BigEndian.ofBytes suffix := by
    rw [UInt64.toNat_ofNat', Nat.mod_eq_of_lt (by omega)]
  have hwritten := BigEndian.toBytes_ofBytes suffix
  rw [hlength] at hwritten
  rw [nonceOf, hseed, hwritten]

/-- The seed is read from the last eight bytes of any nonce of 12, whatever the first
four are and however its digits are spelled. -/
theorem extractSeedFromNonce_of_decode {nonceHex : String} {nonce : Bytes} {seed : UInt64}
    (hdecode : hex.decode nonceHex = .ok nonce) (hlength : nonce.length = aesGcmNonceSize)
    (hdrop : nonce.drop 4 = BigEndian.toBytes 8 seed.toNat) :
    extractSeedFromNonce hex nonceHex = .ok seed := by
  have hlt := seed.toNat_lt
  have htake : (BigEndian.toBytes 8 seed.toNat).take 8 = BigEndian.toBytes 8 seed.toNat :=
    List.take_of_length_le (by rw [BigEndian.length_toBytes])
  simp only [extractSeedFromNonce, hdecode, hlength, ne_eq, not_true_eq_false, if_false, hdrop,
    htake, BigEndian.ofBytes_toBytes]
  rw [Nat.mod_eq_of_lt (by omega), UInt64.ofNat_toNat]

/-- Decryption reads back the seed that encryption wrote. -/
theorem extractSeedFromNonce_nonceOf
    (decode_encode : ∀ bytes, hex.decode (hex.encode bytes) = .ok bytes) (seed : UInt64) :
    extractSeedFromNonce hex (hex.encode (nonceOf seed)) = .ok seed :=
  extractSeedFromNonce_of_decode (decode_encode _) (nonceOf_length seed) rfl

/-- The seed read from a nonce with the prefix is the one in its last bytes. -/
theorem extractSeedFromNonce_encode
    (decode_encode : ∀ bytes, hex.decode (hex.encode bytes) = .ok bytes) {suffix : Bytes}
    (hlength : suffix.length = 8) :
    extractSeedFromNonce hex (hex.encode (noncePrefix ++ suffix)) =
      .ok (UInt64.ofNat (BigEndian.ofBytes suffix)) := by
  rw [← nonceOf_ofBytes hlength]
  exact extractSeedFromNonce_nonceOf decode_encode _

/-! ## Accepted shards -/

/-- A shard that decryption accepts is one that encryption makes of the plaintext
it returned, under some seed, exactly when the parts that decryption does not
look at are as encryption writes them and the master key is not empty. -/
theorem decryptShardAtRest_reencrypts_iff (exact : aes.Exact) (lawful : hex.Lawful)
    (encrypted : EncryptedShard) (keyRef : KeyMaterialRef) (keyBytes plaintext : Bytes)
    (hdecrypt : decryptShardAtRest hkdf aes hex encrypted keyRef keyBytes = .ok plaintext) :
    (∃ seed, encryptShardAtRest hkdf aes hex plaintext encrypted.metadata.tier keyRef keyBytes
        seed = .ok encrypted) ↔
      keyBytes ≠ [] ∧ encrypted.metadata.algorithm = aes256GcmAlgorithm ∧
        encrypted.metadata.authTagHex = authTagHexOf hex encrypted.ciphertext ∧
        ∃ suffix : Bytes, suffix.length = 8 ∧
          encrypted.metadata.nonceHex = hex.encode (noncePrefix ++ suffix) := by
  obtain ⟨keyId, keyVersion, seed, hseed, hopened⟩ :=
    (decryptShardAtRest_eq_ok_iff encrypted keyRef keyBytes plaintext).mp hdecrypt
  constructor
  · rintro ⟨seed', hencrypt⟩
    obtain ⟨nonempty, ciphertext, -, hsealed⟩ :=
      (encryptShardAtRest_eq_ok_iff _ _ _ _ _ _).mp hencrypt
    rw [hsealed]
    exact ⟨nonempty, rfl, rfl, _, BigEndian.length_toBytes 8 seed'.toNat, rfl⟩
  · rintro ⟨nonempty, halgorithm, htag, suffix, hlength, hnonce⟩
    rw [hnonce, extractSeedFromNonce_encode lawful.decode_encode hlength, Except.ok.injEq] at hseed
    have hsealedNonce : encrypted.metadata.nonceHex = hex.encode (nonceOf seed) := by
      rw [hnonce, ← hseed, nonceOf_ofBytes hlength]
    have hencrypt := (exact _ _ _ _ _).mp hopened
    refine ⟨seed, (encryptShardAtRest_eq_ok_iff _ _ _ _ _ _).mpr
      ⟨nonempty, encrypted.ciphertext, hencrypt, ?_⟩⟩
    rw [sealedShard, ← halgorithm, ← keyId, ← keyVersion, ← hsealedNonce, ← htag]

/-- What encryption produced is decrypted to its plaintext under every master key
that derives the same key bytes. -/
theorem decryptShardAtRest_of_encrypt (undoes : aes.Undoes)
    (decode_encode : ∀ bytes, hex.decode (hex.encode bytes) = .ok bytes)
    {plaintext keyBytes keyBytes' : Bytes} {tier : TierId} {keyRef : KeyMaterialRef}
    {seed : UInt64} {encrypted : EncryptedShard}
    (hencrypt : encryptShardAtRest hkdf aes hex plaintext tier keyRef keyBytes seed =
      .ok encrypted)
    (sameKey : DerivedKey.derive hkdf keyBytes' tier seed =
      DerivedKey.derive hkdf keyBytes tier seed) :
    decryptShardAtRest hkdf aes hex encrypted keyRef keyBytes' = .ok plaintext := by
  obtain ⟨-, ciphertext, hsealed, rfl⟩ :=
    (encryptShardAtRest_eq_ok_iff _ _ _ _ _ _).mp hencrypt
  refine (decryptShardAtRest_eq_ok_iff _ _ _ _).mpr
    ⟨rfl, rfl, seed, extractSeedFromNonce_nonceOf decode_encode seed, ?_⟩
  simp only [sealedShard, sameKey]
  exact undoes _ _ _ _ _ hsealed

/-- A shard is rejected when the key that its tier and nonce derive does not open it. -/
theorem exists_error_of_rejects {encrypted : EncryptedShard} {keyRef : KeyMaterialRef}
    {keyBytes : Bytes} {seed : UInt64}
    (hseed : extractSeedFromNonce hex encrypted.metadata.nonceHex = .ok seed)
    (hrejects : ∀ opened,
      aes.decrypt (DerivedKey.derive hkdf keyBytes encrypted.metadata.tier seed).bytes
        (nonceOf seed) (.ofMsg encrypted.ciphertext) ≠ .ok opened) :
    ∃ error, decryptShardAtRest hkdf aes hex encrypted keyRef keyBytes = .error error := by
  cases hresult : decryptShardAtRest hkdf aes hex encrypted keyRef keyBytes with
  | error error => exact ⟨error, rfl⟩
  | ok opened =>
      obtain ⟨-, -, read, hread, hopened⟩ := (decryptShardAtRest_eq_ok_iff _ _ _ _).mp hresult
      rw [hseed, Except.ok.injEq] at hread
      subst hread
      exact absurd hopened (hrejects opened)

/-! ## A sealed message -/

/-- The reference of the master key `a`. -/
def masterRef : KeyMaterialRef := ⟨"aes-model-key", 1, .encryption⟩

/-- The AES-256-GCM ciphertext of `hi` under the key that the master key `a`
derives for tier 2 and seed 42. -/
def hiCiphertext : Bytes :=
  [0x34, 0x01, 0xee, 0x1c, 0x0e, 0xeb, 0xe9, 0x26, 0x7f, 0xd3, 0x77, 0x6e, 0xe6, 0x2e, 0xa5, 0x39,
    0x03, 0xa5]

/-- The cipher that sealed it. -/
def hiCipher : Aes256Gcm :=
  Reference.sealing (DerivedKey.derive Reference.hkdf [0x61] 2 42).bytes (nonceOf 42) [0x68, 0x69]
    hiCiphertext

/-- The shard that encryption makes of it. -/
def hiShard : EncryptedShard := sealedShard Reference.hex 2 masterRef 42 hiCiphertext

theorem encrypt_hi : encryptShardAtRest Reference.hkdf hiCipher Reference.hex [0x68, 0x69] 2
    masterRef [0x61] 42 = .ok hiShard :=
  (encryptShardAtRest_eq_ok_iff _ _ _ _ _ _).mpr
    ⟨by decide, hiCiphertext, Reference.sealing_encrypt _ _ _ _, rfl⟩

theorem hiCipher_exact : hiCipher.Exact := Reference.sealing_exact _ _ _ _

theorem decryptShardAtRest_reencrypts_hi :
    (∃ seed, encryptShardAtRest Reference.hkdf hiCipher Reference.hex [0x68, 0x69]
        hiShard.metadata.tier masterRef [0x61] seed = .ok hiShard) ↔
      ([0x61] : Bytes) ≠ [] ∧ hiShard.metadata.algorithm = aes256GcmAlgorithm ∧
        hiShard.metadata.authTagHex = authTagHexOf Reference.hex hiShard.ciphertext ∧
        ∃ suffix : Bytes, suffix.length = 8 ∧
          hiShard.metadata.nonceHex = Reference.hex.encode (noncePrefix ++ suffix) :=
  decryptShardAtRest_reencrypts_iff hiCipher_exact Reference.hex_lawful hiShard masterRef [0x61]
    [0x68, 0x69]
    (decryptShardAtRest_of_encrypt hiCipher_exact.undoes Reference.hex_lawful.decode_encode
      encrypt_hi rfl)

/-- The shard with another tag in its metadata. -/
def retaggedShard : EncryptedShard :=
  { hiShard with
    metadata := { hiShard.metadata with authTagHex := "00000000000000000000000000000000" } }

/-- Decryption does not notice the other tag. -/
theorem retagged_shard_accepted :
    ¬ (hiCipher.Exact → ∀ encrypted plaintext,
      decryptShardAtRest Reference.hkdf hiCipher Reference.hex encrypted masterRef [0x61] =
          .ok plaintext →
        ∃ seed, encryptShardAtRest Reference.hkdf hiCipher Reference.hex plaintext
          encrypted.metadata.tier masterRef [0x61] seed = .ok encrypted) := by
  intro claim
  have hopened := decryptShardAtRest_of_encrypt hiCipher_exact.undoes
    Reference.hex_lawful.decode_encode encrypt_hi rfl
  have hdecrypt : decryptShardAtRest Reference.hkdf hiCipher Reference.hex retaggedShard masterRef
      [0x61] = .ok [0x68, 0x69] := by
    rw [decryptShardAtRest_eq_ok_iff] at hopened ⊢
    simpa only [retaggedShard] using hopened
  obtain ⟨seed, hencrypt⟩ := claim hiCipher_exact retaggedShard [0x68, 0x69] hdecrypt
  obtain ⟨-, ciphertext, -, hsealed⟩ := (encryptShardAtRest_eq_ok_iff _ _ _ _ _ _).mp hencrypt
  have hciphertext := congrArg EncryptedShard.ciphertext hsealed
  have htag := congrArg (·.metadata.authTagHex) hsealed
  simp only [sealedShard] at hciphertext htag
  rw [← hciphertext] at htag
  revert htag
  decide +kernel

/-! ## The round trip -/

/-- Decryption under the same key gives back every plaintext that was encrypted, and
reads from the nonce the seed that encryption was given. -/
theorem decryptShardAtRest_encryptShardAtRest (undoes : aes.Undoes)
    (decode_encode : ∀ bytes, hex.decode (hex.encode bytes) = .ok bytes)
    (plaintext : Bytes) (tier : TierId) (keyRef : KeyMaterialRef) (keyBytes : Bytes)
    (seed : UInt64) (encrypted : EncryptedShard)
    (hencrypt : encryptShardAtRest hkdf aes hex plaintext tier keyRef keyBytes seed =
      .ok encrypted) :
    decryptShardAtRest hkdf aes hex encrypted keyRef keyBytes = .ok plaintext ∧
      extractSeedFromNonce hex encrypted.metadata.nonceHex = .ok seed := by
  constructor
  · exact decryptShardAtRest_of_encrypt undoes decode_encode hencrypt rfl
  · obtain ⟨-, ciphertext, -, rfl⟩ := (encryptShardAtRest_eq_ok_iff _ _ _ _ _ _).mp hencrypt
    exact extractSeedFromNonce_nonceOf decode_encode seed

theorem decryptShardAtRest_encrypt_hi :
    decryptShardAtRest Reference.hkdf hiCipher Reference.hex hiShard masterRef [0x61] =
        .ok [0x68, 0x69] ∧
      extractSeedFromNonce Reference.hex hiShard.metadata.nonceHex = .ok 42 :=
  decryptShardAtRest_encryptShardAtRest hiCipher_exact.undoes Reference.hex_lawful.decode_encode
    [0x68, 0x69] 2 masterRef [0x61] 42 hiShard encrypt_hi

end LiteLlmSecurity
