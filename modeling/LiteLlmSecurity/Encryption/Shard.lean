import LiteLlmSecurity.Crates
import LiteLlmSecurity.Error
import LiteLlmSecurity.KeyManagement.Manager
import LiteLlmSecurity.Text.BigEndian

/-!
# Encryption of shards at rest

Encryption derives a key and a nonce from a master key, a tier and a seed, and
records in the metadata what decryption needs to derive them again: the tier, and
the seed inside the nonce. The authentication tag is kept twice, at the end of
the ciphertext and in the metadata.
-/

namespace LiteLlmSecurity

open Rust

def aes256GcmAlgorithm : String := "aes-256-gcm-v1"

def aesGcmNonceSize : Nat := 12

structure DerivedKey where
  bytes : Vector UInt8 32
  nonce : Bytes
  deriving DecidableEq

structure EncryptionMetadata where
  algorithm : String
  tier : TierId
  keyId : String
  keyVersion : UInt32
  nonceHex : String
  authTagHex : String
  deriving DecidableEq, Repr

structure EncryptedShard where
  ciphertext : Bytes
  metadata : EncryptionMetadata
  deriving DecidableEq, Repr

/-- The first four bytes of every nonce, the letters `LLMK`. -/
def noncePrefix : Bytes := [0x4C, 0x4C, 0x4D, 0x4B]

/-- The nonce of a seed. -/
def nonceOf (seed : UInt64) : Bytes := noncePrefix ++ BigEndian.toBytes 8 seed.toNat

namespace DerivedKey

/-- The context that the key of a tier and a seed is expanded with. -/
def info (tier : TierId) (seed : UInt64) : Bytes := asBytes s!"{tier}:{seed}"

def derive (hkdf : Hkdf) (masterKey : Bytes) (tier : TierId) (seed : UInt64) : DerivedKey :=
  let hk := hkdf.new masterKey (asBytes "lite-llm-derivation")
  { bytes := hkdf.expand hk (info tier seed), nonce := nonceOf seed }

end DerivedKey

section

variable (hkdf : Hkdf) (aes : Aes256Gcm) (hex : Hex)

/-- The last 16 bytes of what AES-GCM returned, in hexadecimal. -/
def authTagHexOf (ciphertextWithTag : Bytes) : String :=
  let tagStart := ciphertextWithTag.length - 16
  hex.encode (ciphertextWithTag.drop tagStart)

def encryptShardAtRest (plaintext : Bytes) (tier : TierId) (keyRef : KeyMaterialRef)
    (keyBytes : Bytes) (seed : UInt64) : SecurityResult EncryptedShard :=
  if keyBytes = [] then .error (.encryptionFailed "key material must not be empty")
  else
    let derived := DerivedKey.derive hkdf keyBytes tier seed
    match aes.newFromSlice derived.bytes.toList with
    | .error e => .error (.encryptionFailed s!"invalid derived key: {e}")
    | .ok cipher =>
        match aes.encrypt cipher derived.nonce (.ofMsg plaintext) with
        | .error e => .error (.encryptionFailed s!"aes-gcm encryption failed: {e}")
        | .ok ciphertextWithTag =>
            .ok {
              ciphertext := ciphertextWithTag
              metadata := {
                algorithm := aes256GcmAlgorithm
                tier
                keyId := keyRef.keyId
                keyVersion := keyRef.version
                nonceHex := hex.encode derived.nonce
                authTagHex := authTagHexOf hex ciphertextWithTag } }

/-- The seed is read from the last eight bytes of the nonce. -/
def extractSeedFromNonce (nonceHex : String) : SecurityResult UInt64 :=
  match hex.decode nonceHex with
  | .error e => .error (.decryptionFailed s!"invalid nonce hex: {e}")
  | .ok nonce =>
      if nonce.length ≠ aesGcmNonceSize then
        .error (.decryptionFailed "nonce must be 12 bytes")
      else .ok (UInt64.ofNat (BigEndian.ofBytes ((nonce.drop 4).take 8)))

def decryptShardAtRest (encrypted : EncryptedShard) (keyRef : KeyMaterialRef)
    (keyBytes : Bytes) : SecurityResult Bytes :=
  if encrypted.metadata.keyId ≠ keyRef.keyId ∨ encrypted.metadata.keyVersion ≠ keyRef.version then
    .error (.decryptionFailed "key reference does not match encrypted metadata")
  else
    match extractSeedFromNonce hex encrypted.metadata.nonceHex with
    | .error e => .error e
    | .ok seed =>
        let derived := DerivedKey.derive hkdf keyBytes encrypted.metadata.tier seed
        match aes.newFromSlice derived.bytes.toList with
        | .error e => .error (.decryptionFailed s!"invalid derived key: {e}")
        | .ok cipher =>
            match aes.decrypt cipher derived.nonce (.ofMsg encrypted.ciphertext) with
            | .error _ =>
                .error (.integrityViolation "authentication tag mismatch or corrupted ciphertext")
            | .ok plaintext => .ok plaintext

end

end LiteLlmSecurity
