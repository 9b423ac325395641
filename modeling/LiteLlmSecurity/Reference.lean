import LiteLlmSecurity.Audit.Log
import LiteLlmSecurity.Crypto.Sha256
import LiteLlmSecurity.Types

/-!
# Concrete instances of the third-party crates

The results of the development hold for every instance that satisfies their
hypotheses. These are executable ones: SHA-256 itself, HKDF over it, the
hexadecimal codec, equality and zeroing of byte strings, and a cipher and a
signature scheme that know one sealed and one signed message. They show that the
hypotheses can be met and let the model run on concrete inputs.
-/

namespace LiteLlmSecurity.Reference

open Rust

def subtle : Subtle where
  ctEq a b := a == b
  ctEq_iff _ _ := beq_iff_eq

def zeroize : Zeroize where
  zeroize bytes := List.replicate bytes.length 0
  zeroize_eq _ := rfl

def hex : Hex where
  encode := hexEncode
  decode value :=
    match hexDecode value with
    | .ok bytes => .ok bytes
    | .error _ => .error "Invalid hexadecimal text"

theorem mem_hexEncode {bytes : Bytes} {c : Char} (h : c ∈ (hexEncode bytes).toList) :
    ∃ n < 16, c = Nat.digitChar n := by
  rw [toList_hexEncode, List.mem_flatMap] at h
  obtain ⟨byte, -, hdigit⟩ := h
  exact Hexadecimal.exists_of_mem_digits hdigit

private theorem digitChar_mem :
    ∀ n : Fin 16, Nat.digitChar n ∈ "0123456789abcdef".toList := by decide

theorem hex_lawful : hex.Lawful where
  decode_encode bytes := by simp [hex, hexDecode_hexEncode]
  encode_digits bytes c h := by
    obtain ⟨n, hn, rfl⟩ := mem_hexEncode h
    exact digitChar_mem ⟨n, hn⟩

/-- The genesis hash is the digest of the empty text. -/
theorem sha256Hex_empty : sha256Hex Sha256.hash hex "" = genesisHash := by decide +kernel

def hkdf : Hkdf := .rfc5869 Sha256.hash

section Sealed

variable (key : Vector UInt8 32) (nonce plaintext ciphertext : Bytes)

/-- A cipher that sealed one message under one key and nonce. It refuses to seal
or open anything else. -/
def sealing : Aes256Gcm where
  newFromSlice slice :=
    if h : slice.length = 32 then .ok ⟨slice.toArray, by simpa using h⟩ else .error "Invalid Length"
  newFromSlice_toList key := by simp [Vector.toList]
  encrypt key' nonce' payload :=
    if key' = key ∧ nonce' = nonce ∧ payload = .ofMsg plaintext then .ok ciphertext
    else .error "aead::Error"
  decrypt key' nonce' payload :=
    if key' = key ∧ nonce' = nonce ∧ payload = .ofMsg ciphertext then .ok plaintext
    else .error "aead::Error"

theorem sealing_exact : (sealing key nonce plaintext ciphertext).Exact := by
  intro key' nonce' aad plaintext' ciphertext'
  by_cases same : key' = key ∧ nonce' = nonce ∧ aad = []
  · obtain ⟨rfl, rfl, rfl⟩ := same
    by_cases opened : ciphertext' = ciphertext <;> by_cases sealed : plaintext' = plaintext <;>
      simp [sealing, Payload.ofMsg, opened, sealed, eq_comm (a := plaintext),
        eq_comm (a := ciphertext)]
  · have other : ∀ msg sealed : Bytes,
        ¬ (key' = key ∧ nonce' = nonce ∧ (⟨msg, aad⟩ : Payload) = .ofMsg sealed) := by
      rintro msg sealed ⟨hkey, hnonce, hpayload⟩
      exact same ⟨hkey, hnonce, (Payload.mk.inj hpayload).2⟩
    simp [sealing, other]

@[simp] theorem sealing_encrypt :
    (sealing key nonce plaintext ciphertext).encrypt key nonce (.ofMsg plaintext) =
      .ok ciphertext := if_pos ⟨rfl, rfl, rfl⟩

@[simp] theorem sealing_decrypt :
    (sealing key nonce plaintext ciphertext).decrypt key nonce (.ofMsg ciphertext) =
      .ok plaintext := if_pos ⟨rfl, rfl, rfl⟩

/-- The sealed message opens under no other key. -/
theorem sealing_rejects {key' : Vector UInt8 32} (other : key' ≠ key) (nonce' : Bytes)
    (payload : Payload) (plaintext' : Bytes) :
    (sealing key nonce plaintext ciphertext).decrypt key' nonce' payload ≠ .ok plaintext' := by
  simp [sealing, other]

end Sealed

/-- A signature scheme with one key pair, whose secret key signed one message.
Every other signature is refused. -/
def signing (publicKey : Vector UInt8 32) (message : Bytes) (signature : Vector UInt8 64) :
    Ed25519 where
  SigningKey := Unit
  VerifyingKey := Vector UInt8 32
  verifyingKey _ := publicKey
  sign _ _ := signature
  toBytes key := key
  fromBytes bytes := .ok bytes
  verifyStrict key message' signature' :=
    key = publicKey ∧ message' = message ∧ signature' = signature

theorem signing_verifyStrict (publicKey : Vector UInt8 32) (message : Bytes)
    (signature : Vector UInt8 64) :
    (signing publicKey message signature).verifyStrict publicKey message signature = true :=
  decide_eq_true (p := publicKey = publicKey ∧ message = message ∧ signature = signature)
    ⟨rfl, rfl, rfl⟩

/-- A signature scheme with one key pair, whose signature of one message is known. The
signature of any other message is a filler. -/
def signingAll (publicKey : Vector UInt8 32) (message : Bytes) (signature : Vector UInt8 64) :
    Ed25519 where
  SigningKey := Unit
  VerifyingKey := Vector UInt8 32
  verifyingKey _ := publicKey
  sign _ message' := if message' = message then signature else Vector.replicate 64 0
  toBytes key := key
  fromBytes bytes := .ok bytes
  verifyStrict key message' signature' :=
    key = publicKey ∧
      signature' = if message' = message then signature else Vector.replicate 64 0

theorem signingAll_correct (publicKey : Vector UInt8 32) (message : Bytes)
    (signature : Vector UInt8 64) : (signingAll publicKey message signature).Correct where
  verifyStrict_sign _ message' := decide_eq_true
    (p := publicKey = publicKey ∧
      (if message' = message then signature else Vector.replicate 64 0) =
        if message' = message then signature else Vector.replicate 64 0) ⟨rfl, rfl⟩
  fromBytes_toBytes _ := rfl

end LiteLlmSecurity.Reference
