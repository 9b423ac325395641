import LiteLlmSecurity.Crypto.Hmac
import LiteLlmSecurity.Rust.Basic
import Mathlib.Data.List.Nodup

/-!
# The third-party crates

Their code is not part of the repository, so it enters the model as parameters:
one structure for each crate, holding the functions the repository calls. A
structure carries a law only where the crate's documentation leaves a caller no
other reading, such as `ct_eq` deciding equality. Every other assumption stands
as a named hypothesis at the theorem that needs it.

SHA-256 and SHA-512 are plain functions from messages to digests.
-/

namespace LiteLlmSecurity

open Rust

/-- `subtle`: comparison of byte strings in constant time. Timing is not
modelled; what remains of `ct_eq` is that it decides equality. -/
structure Subtle where
  ctEq : Bytes → Bytes → Bool
  ctEq_iff : ∀ a b, ctEq a b = true ↔ a = b

/-- The test `a.len() != b.len() || !bool::from(a.ct_eq(b))` that the repository
writes at each comparison of digests. -/
def Subtle.differ (subtle : Subtle) (expected actual : String) : Bool :=
  (asBytes expected).length != (asBytes actual).length ||
    !subtle.ctEq (asBytes expected) (asBytes actual)

@[simp] theorem Subtle.differ_iff (subtle : Subtle) (expected actual : String) :
    subtle.differ expected actual = true ↔ expected ≠ actual := by
  by_cases same : expected = actual
  · subst same
    have hequal := (subtle.ctEq_iff (asBytes expected) (asBytes expected)).mpr rfl
    simp [differ, hequal]
  · have hdifferent : subtle.ctEq (asBytes expected) (asBytes actual) = false := by
      rw [Bool.eq_false_iff]
      exact fun h => same (asBytes_injective ((subtle.ctEq_iff _ _).mp h))
    simp [differ, hdifferent, same]

/-- `zeroize`: the overwriting of a byte slice. That the compiler keeps the writes is
not modelled; what remains is the slice afterwards. -/
structure Zeroize where
  zeroize : Bytes → Bytes
  zeroize_eq : ∀ bytes, zeroize bytes = List.replicate bytes.length 0

/-- `hex`: `encode` and `decode`, the latter with its displayed error. -/
structure Hex where
  encode : Bytes → String
  decode : String → Except String Bytes

/-- The documented behaviour of `hex`: lowercase digits, undone by `decode`. -/
structure Hex.Lawful (hex : Hex) : Prop where
  decode_encode : ∀ bytes, hex.decode (hex.encode bytes) = .ok bytes
  encode_digits : ∀ bytes, ∀ c ∈ (hex.encode bytes).toList, c ∈ "0123456789abcdef".toList

theorem Hex.Lawful.encode_injective {hex : Hex} (lawful : hex.Lawful) :
    Function.Injective hex.encode := by
  intro a b h
  have hdecoded := lawful.decode_encode a
  rw [h, lawful.decode_encode b] at hdecoded
  exact (Except.ok.inj hdecoded).symm

/-- `hex::encode(Sha256::digest(text.as_bytes()))`. -/
def sha256Hex (sha256 : Bytes → Vector UInt8 32) (hex : Hex) (text : String) : String :=
  hex.encode (sha256 (asBytes text)).toList

/-- Digests of texts that do not collide determine the texts. -/
theorem sha256Hex_inj {sha256 : Bytes → Vector UInt8 32} {hex : Hex}
    (hhex : Function.Injective hex.encode) {s t : String}
    (hsha : Set.InjOn sha256 {asBytes s, asBytes t}) :
    sha256Hex sha256 hex s = sha256Hex sha256 hex t ↔ s = t := by
  constructor
  · intro h
    have hdigest : sha256 (asBytes s) = sha256 (asBytes t) := Vector.toList_inj.mp (hhex h)
    exact asBytes_injective (hsha (by simp) (by simp) hdigest)
  · rintro rfl
    rfl

/-- No two of the texts have one digest. -/
def CollisionFree (sha256 : Bytes → Vector UInt8 32) (texts : List String) : Prop :=
  ∀ s ∈ texts, ∀ t ∈ texts, sha256 (asBytes s) = sha256 (asBytes t) → s = t

theorem CollisionFree.mono {sha256 : Bytes → Vector UInt8 32} {texts texts' : List String}
    (collisionFree : CollisionFree sha256 texts) (h : texts' ⊆ texts) :
    CollisionFree sha256 texts' :=
  fun s hs t ht => collisionFree s (h hs) t (h ht)

theorem CollisionFree.of_nodup {sha256 : Bytes → Vector UInt8 32} {texts : List String}
    (h : (texts.map fun text => sha256 (asBytes text)).Nodup) : CollisionFree sha256 texts :=
  fun _ hs _ ht hdigest => List.inj_on_of_nodup_map h hs ht hdigest

theorem CollisionFree.injOn_sha256Hex {sha256 : Bytes → Vector UInt8 32} {texts : List String}
    (collisionFree : CollisionFree sha256 texts) {hex : Hex}
    (hhex : Function.Injective hex.encode) :
    Set.InjOn (sha256Hex sha256 hex) {text | text ∈ texts} := by
  intro s hs t ht h
  exact collisionFree s hs t ht (Vector.toList_inj.mp (hhex h))

/-- `hkdf` over SHA-256. `new` with a salt keeps the extracted key, and `expand`
fills a 32-byte buffer, a length it never refuses. -/
structure Hkdf where
  new : (salt ikm : Bytes) → Vector UInt8 32
  expand : (prk : Vector UInt8 32) → (info : Bytes) → Vector UInt8 32

/-- HKDF as its RFC defines it over a hash function. -/
def Hkdf.rfc5869 (sha256 : Bytes → Vector UInt8 32) : Hkdf where
  new := Hmac.extract sha256
  expand := Hmac.expand sha256

/-- `aead::Payload`. -/
structure Payload where
  msg : Bytes
  aad : Bytes
  deriving DecidableEq

/-- `Payload::from`, which leaves the associated data empty. -/
def Payload.ofMsg (msg : Bytes) : Payload := { msg, aad := [] }

/-- `aes_gcm::Aes256Gcm`, with its displayed errors. `new_from_slice` refuses only
slices that are not 32 bytes long. -/
structure Aes256Gcm where
  newFromSlice : Bytes → Except String (Vector UInt8 32)
  newFromSlice_toList : ∀ key : Vector UInt8 32, newFromSlice key.toList = .ok key
  encrypt : (key : Vector UInt8 32) → (nonce : Bytes) → Payload → Except String Bytes
  decrypt : (key : Vector UInt8 32) → (nonce : Bytes) → Payload → Except String Bytes

/-- Decryption undoes encryption under the same key and nonce. -/
def Aes256Gcm.Undoes (aes : Aes256Gcm) : Prop :=
  ∀ key nonce aad plaintext ciphertext,
    aes.encrypt key nonce ⟨plaintext, aad⟩ = .ok ciphertext →
      aes.decrypt key nonce ⟨ciphertext, aad⟩ = .ok plaintext

/-- Authenticated decryption: it returns a plaintext exactly for the ciphertext that
encrypting that plaintext gives. -/
def Aes256Gcm.Exact (aes : Aes256Gcm) : Prop :=
  ∀ key nonce aad plaintext ciphertext,
    aes.decrypt key nonce ⟨ciphertext, aad⟩ = .ok plaintext ↔
      aes.encrypt key nonce ⟨plaintext, aad⟩ = .ok ciphertext

theorem Aes256Gcm.Exact.undoes {aes : Aes256Gcm} (exact : aes.Exact) : aes.Undoes :=
  fun key nonce aad plaintext ciphertext => (exact key nonce aad plaintext ciphertext).mpr

/-- `ed25519_dalek`. A signature is any 64 bytes; a verifying key is a value that
`from_bytes` accepted. No caller looks at the error of `verify_strict`. -/
structure Ed25519 where
  SigningKey : Type
  VerifyingKey : Type
  verifyingKey : SigningKey → VerifyingKey
  sign : SigningKey → Bytes → Vector UInt8 64
  toBytes : VerifyingKey → Vector UInt8 32
  fromBytes : Vector UInt8 32 → Except String VerifyingKey
  verifyStrict : VerifyingKey → (message : Bytes) → (signature : Vector UInt8 64) → Bool

/-- The documented behaviour of `ed25519_dalek`: a key accepts the signatures made
with its secret, and is read back from its bytes. -/
structure Ed25519.Correct (ed25519 : Ed25519) : Prop where
  verifyStrict_sign : ∀ key message,
    ed25519.verifyStrict (ed25519.verifyingKey key) message (ed25519.sign key message) = true
  fromBytes_toBytes : ∀ key, ed25519.fromBytes (ed25519.toBytes key) = .ok key

end LiteLlmSecurity
