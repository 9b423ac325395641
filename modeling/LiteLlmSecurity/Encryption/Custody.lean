import LiteLlmSecurity.Encryption.KeySeparation
import LiteLlmSecurity.KeyManagement.Derivation

/-!
# Shards under managed keys

Encryption and decryption take the master key from the caller, who gets it from a key
manager under the reference that is put into the metadata. The material behind a key id
and version never changes, so what was sealed under a reference opens with whatever the
manager serves under it later, after any operations and for any identity. It opens under
no other reference.

Managed keys of different references are derived from different inputs and have one
length. So they are different, HMAC prepares them differently, and a shard that is
relabelled to another reference does not open under it either.
-/

namespace LiteLlmSecurity

open Rust Machine WriteOnce

namespace KeyManager

variable {sha256 : Bytes → Vector UInt8 32} {checks : OverflowChecks}

/-! ## Material over time -/

variable (sha256 checks) in
/-- A stored key keeps its material through every run. -/
theorem exists_stored_after_same {manager : KeyManager} {keyId : String} {version : UInt32}
    {key : ManagedKey} (hstored : manager.stored keyId version = some key)
    (operations : List KeyOperation) :
    ∃ later, (after (step sha256 checks) manager operations).stored keyId version = some later ∧
      later.material = key.material := by
  have occupied : manager.cells (keyId, version) = some (cell key) := by simp [cells, hstored]
  obtain ⟨last, hlast, hvalue, -⟩ := exists_of_applyAll occupied
    ((history (step sha256 checks) manager operations).filterMap
      (event sha256 manager.rotationPolicy))
  rw [← cells_after] at hlast
  obtain ⟨later, hlater, rfl⟩ := Option.map_eq_some_iff.mp hlast
  have hmaterial := congrArg ManagedKey.material hvalue
  exact ⟨later, hlater, hmaterial⟩

theorem exists_stored_of_retrieveKey {manager : KeyManager} {identity : String}
    {reference : KeyMaterialRef} {day : UInt32} {material : Bytes}
    (h : retrieveKey checks manager identity reference day = .ok material) :
    ∃ key, manager.stored reference.keyId reference.version = some key ∧
      key.material = material := by
  obtain ⟨-, key, hstored, -, hmaterial⟩ :=
    (retrieveKey_eq_ok_iff manager identity reference day material).mp h
  exact ⟨key, hstored, hmaterial.symm⟩

/-- What is retrieved under a key id and version is the same at all times. -/
theorem material_eq_of_retrieveKey_after {manager : KeyManager} {identity identity' : String}
    {reference reference' : KeyMaterialRef} {day day' : UInt32} {material material' : Bytes}
    (hretrieve : retrieveKey checks manager identity reference day = .ok material)
    {operations : List KeyOperation}
    (hretrieve' : retrieveKey checks (after (step sha256 checks) manager operations) identity'
      reference' day' = .ok material')
    (keyId : reference'.keyId = reference.keyId)
    (version : reference'.version = reference.version) :
    material' = material := by
  obtain ⟨key, hstored, rfl⟩ := exists_stored_of_retrieveKey hretrieve
  obtain ⟨later, hlater, hmaterial⟩ :=
    exists_stored_after_same sha256 checks hstored operations
  obtain ⟨served, hserved, rfl⟩ := exists_stored_of_retrieveKey hretrieve'
  rw [keyId, version, hlater, Option.some.injEq] at hserved
  rw [← hserved, hmaterial]

end KeyManager

open KeyManager

variable {sha256 : Bytes → Vector UInt8 32} {hkdf : Hkdf} {aes : Aes256Gcm} {hex : Hex}
  {checks : OverflowChecks}

/-- The reference in the metadata of an encrypted shard is the one it was encrypted under. -/
theorem decryptShardAtRest_of_mismatch {plaintext keyBytes : Bytes} {tier : TierId}
    {keyRef : KeyMaterialRef} {seed : UInt64} {encrypted : EncryptedShard}
    (hencrypt : encryptShardAtRest hkdf aes hex plaintext tier keyRef keyBytes seed =
      .ok encrypted)
    {keyRef' : KeyMaterialRef}
    (other : ¬ (keyRef'.keyId = keyRef.keyId ∧ keyRef'.version = keyRef.version))
    (keyBytes' : Bytes) :
    decryptShardAtRest hkdf aes hex encrypted keyRef' keyBytes' =
      .error (.decryptionFailed "key reference does not match encrypted metadata") := by
  obtain ⟨-, ciphertext, -, rfl⟩ := (encryptShardAtRest_eq_ok_iff _ _ _ _ _ _).mp hencrypt
  have mismatch : keyRef.keyId ≠ keyRef'.keyId ∨ keyRef.version ≠ keyRef'.version := by
    rw [← not_and_or]
    rintro ⟨keyId, version⟩
    exact other ⟨keyId.symm, version.symm⟩
  rw [decryptShardAtRest, if_pos (by exact mismatch)]

/-! ## A rotated key -/

/-- The key of `encryptionKeyIssued`, rotated on its first day. -/
def rotatedKeyIssued : List KeyOperation := encryptionKeyIssued ++ [.rotateKey "model-key" 1 99]

def modelKey : KeyMaterialRef := ⟨"model-key", 1, .encryption⟩

def modelKeyMaterial : Bytes := deriveKeyMaterial Sha256.hash "model-key" .encryption 1 42

def rotatedKeyMaterial : Bytes := deriveKeyMaterial Sha256.hash "model-key" .encryption 2 99

/-- What AES-256-GCM makes of `hi` under the first key, for tier 2 and seed 7. -/
def modelKeyCiphertext : Bytes :=
  [0xbc, 0x63, 0x02, 0x60, 0xfb, 0x86, 0x99, 0x67, 0xf3, 0x4c, 0x4e, 0xfc, 0x16, 0x55, 0x1a, 0xfc,
    0x4b, 0xc9]

/-- A cipher that sealed that message. -/
def modelKeyCipher : Aes256Gcm :=
  Reference.sealing (DerivedKey.derive Reference.hkdf modelKeyMaterial 2 7).bytes (nonceOf 7)
    [0x68, 0x69] modelKeyCiphertext

def modelKeyShard : EncryptedShard := sealedShard Reference.hex 2 modelKey 7 modelKeyCiphertext

theorem modelKeyMaterial_ne_nil : modelKeyMaterial ≠ [] := by
  have hlength := (deriveKeyMaterial_eq Sha256.hash "model-key" .encryption 1 42)
  intro empty
  rw [modelKeyMaterial, hlength] at empty
  have hzero := congrArg List.length empty
  rw [Vector.length_toList] at hzero
  cases hzero

theorem encrypt_modelKey : encryptShardAtRest Reference.hkdf modelKeyCipher Reference.hex
    [0x68, 0x69] 2 modelKey modelKeyMaterial 7 = .ok modelKeyShard :=
  (encryptShardAtRest_eq_ok_iff _ _ _ _ _ _).mpr
    ⟨modelKeyMaterial_ne_nil, modelKeyCiphertext, Reference.sealing_encrypt _ _ _ _, rfl⟩

theorem modelKeyCipher_exact : modelKeyCipher.Exact := Reference.sealing_exact _ _ _ _

variable (sha256 checks) in
/-- Rotation strands no shard and hands none over. A shard that was sealed with the material
retrieved under a reference opens with whatever is retrieved after any further operations,
by any identity and on any day, exactly when that is retrieved under the same key id and
version. -/
theorem decryptShardAtRest_retrieved_later_iff (undoes : aes.Undoes)
    (decode_encode : ∀ bytes, hex.decode (hex.encode bytes) = .ok bytes) (manager : KeyManager)
    (identity : String) (reference : KeyMaterialRef) (day : UInt32) (material : Bytes)
    (hretrieve : retrieveKey checks manager identity reference day = .ok material)
    (plaintext : Bytes) (tier : TierId) (seed : UInt64) (encrypted : EncryptedShard)
    (hencrypt : encryptShardAtRest hkdf aes hex plaintext tier reference material seed =
      .ok encrypted)
    (operations : List KeyOperation) (identity' : String) (reference' : KeyMaterialRef)
    (day' : UInt32) (material' : Bytes)
    (hretrieve' : retrieveKey checks (after (step sha256 checks) manager operations) identity'
      reference' day' = .ok material') :
    decryptShardAtRest hkdf aes hex encrypted reference' material' = .ok plaintext ↔
      reference'.keyId = reference.keyId ∧ reference'.version = reference.version := by
  constructor
  · intro hdecrypt
    by_contra other
    rw [decryptShardAtRest_of_mismatch hencrypt other] at hdecrypt
    cases hdecrypt
  · rintro ⟨keyId, version⟩
    have hopened := decryptShardAtRest_of_encrypt undoes decode_encode hencrypt rfl
    rw [material_eq_of_retrieveKey_after hretrieve hretrieve' keyId version]
    simpa only [decryptShardAtRest, keyId, version] using hopened

/-- After the rotation the shard opens with what is retrieved under the first reference, and
does not open with what is retrieved under the second. -/
theorem decryptShardAtRest_retrieved_rotated :
    decryptShardAtRest Reference.hkdf modelKeyCipher Reference.hex modelKeyShard modelKey
        modelKeyMaterial = .ok [0x68, 0x69] ∧
      decryptShardAtRest Reference.hkdf modelKeyCipher Reference.hex modelKeyShard
        { modelKey with version := 2 } rotatedKeyMaterial ≠ .ok [0x68, 0x69] := by
  have before : retrieveKey .on (after (step Sha256.hash .on) monthly encryptionKeyIssued)
      "loader" modelKey 1 = .ok modelKeyMaterial := by rfl
  have opens_iff := decryptShardAtRest_retrieved_later_iff Sha256.hash .on
    modelKeyCipher_exact.undoes Reference.hex_lawful.decode_encode
    (after (step Sha256.hash .on) monthly encryptionKeyIssued) "loader" modelKey 1
    modelKeyMaterial before [0x68, 0x69] 2 7 modelKeyShard encrypt_modelKey
    [.rotateKey "model-key" 1 99] "loader"
  exact ⟨(opens_iff modelKey 1 modelKeyMaterial (by rfl)).mpr ⟨rfl, rfl⟩,
    mt (opens_iff { modelKey with version := 2 } 1 rotatedKeyMaterial (by rfl)).mp (by decide)⟩

/-- The shard with another key reference in its metadata. -/
def EncryptedShard.relabelKey (encrypted : EncryptedShard) (reference : KeyMaterialRef) :
    EncryptedShard :=
  { encrypted with
    metadata := { encrypted.metadata with
      keyId := reference.keyId
      keyVersion := reference.version } }

variable (checks) in
/-- In every state that a manager reaches, what is retrieved under two different key ids or
versions is different, and a shard sealed under the one does not open under the other, not
even when it is relabelled to it. Assumed: no collision between the inputs that the run
derived its keys from, nor of extraction and expansion at the two materials, and the cipher
does not open this ciphertext with the key derived from the other one, if that key is
another. -/
theorem decryptShardAtRest_otherReference (lawful : hex.Lawful)
    {rotationPolicy : KeyRotationPolicy} {manager : KeyManager}
    (hnew : new rotationPolicy = .ok manager) (operations : List KeyOperation)
    (collisionFree : Set.InjOn sha256
      (derivationInputs (history (step sha256 checks) manager operations)))
    (identity identity' : String) (reference reference' : KeyMaterialRef) (day day' : UInt32)
    (material material' : Bytes)
    (hretrieve : retrieveKey checks (after (step sha256 checks) manager operations) identity
      reference day = .ok material)
    (hretrieve' : retrieveKey checks (after (step sha256 checks) manager operations) identity'
      reference' day' = .ok material')
    (other : (reference'.keyId, reference'.version) ≠ (reference.keyId, reference.version))
    (plaintext : Bytes) (tier : TierId) (seed : UInt64) (encrypted : EncryptedShard)
    (hencrypt : encryptShardAtRest (.rfc5869 sha256) aes hex plaintext tier reference material
      seed = .ok encrypted)
    (hrejects : (DerivedKey.derive (.rfc5869 sha256) material' tier seed).bytes ≠
        (DerivedKey.derive (.rfc5869 sha256) material tier seed).bytes →
      ∀ opened, aes.decrypt (DerivedKey.derive (.rfc5869 sha256) material' tier seed).bytes
        (nonceOf seed) (.ofMsg encrypted.ciphertext) ≠ .ok opened)
    (hextract : Set.InjOn (fun prepared => Hmac.macPrepared sha256 prepared derivationContext)
      {Hmac.prepareKey sha256 material, Hmac.prepareKey sha256 material'})
    (hexpand : Set.InjOn (fun prk => Hmac.expand sha256 prk (DerivedKey.info tier seed))
      {Hmac.extract sha256 material derivationContext,
        Hmac.extract sha256 material' derivationContext}) :
    material' ≠ material ∧
      ∃ error, decryptShardAtRest (.rfc5869 sha256) aes hex (encrypted.relabelKey reference')
        reference' material' = .error error := by
  obtain ⟨key, hstored, rfl⟩ := exists_stored_of_retrieveKey hretrieve
  obtain ⟨key', hstored', rfl⟩ := exists_stored_of_retrieveKey hretrieve'
  obtain ⟨different, hlength, hlength'⟩ :=
    stored_material_ne hnew collisionFree hstored hstored' other
  refine ⟨different.symm, ?_⟩
  have prepared : Hmac.prepareKey sha256 key.material ≠ Hmac.prepareKey sha256 key'.material := by
    intro same
    refine different (Hmac.prepareKey_inj sha256 (hlength.trans hlength'.symm) ?_ same)
    rw [hlength]
    decide
  have hkey := DerivedKey.derive_ne hextract hexpand prepared
  obtain ⟨-, ciphertext, -, rfl⟩ := (encryptShardAtRest_eq_ok_iff _ _ _ _ _ _).mp hencrypt
  have hseed := extractSeedFromNonce_nonceOf lawful.decode_encode seed
  exact exists_error_of_rejects hseed (hrejects hkey)

/-- The two inputs of the rotation do not collide. -/
theorem injOn_rotatedKeyIssued : Set.InjOn Sha256.hash
    (derivationInputs (history (step Sha256.hash .on) monthly rotatedKeyIssued)) := by
  have hinputs : (history (step Sha256.hash .on) monthly rotatedKeyIssued).filterMap derivedFrom =
      [derivationInput "model-key" .encryption 1 42 0,
        derivationInput "model-key" .encryption 2 99 0] := by rfl
  have hdigests : Sha256.hash (derivationInput "model-key" .encryption 1 42 0) ≠
      Sha256.hash (derivationInput "model-key" .encryption 2 99 0) := by decide +kernel
  have hset : derivationInputs (history (step Sha256.hash .on) monthly rotatedKeyIssued) =
      {derivationInput "model-key" .encryption 1 42 0,
        derivationInput "model-key" .encryption 2 99 0} := by
    ext input
    rw [derivationInputs, Set.mem_ofPred_eq, ← List.mem_filterMap, hinputs]
    simp
  rw [hset]
  exact Set.injOn_pair.mpr fun h => absurd h hdigests

theorem decryptShardAtRest_otherReference_rotated :
    rotatedKeyMaterial ≠ modelKeyMaterial ∧
      ∃ error, decryptShardAtRest Reference.hkdf modelKeyCipher Reference.hex
        (modelKeyShard.relabelKey { modelKey with version := 2 }) { modelKey with version := 2 }
          rotatedKeyMaterial = .error error := by
  have hexpand : Hmac.expand Sha256.hash
        (Hmac.extract Sha256.hash modelKeyMaterial derivationContext) (DerivedKey.info 2 7) ≠
      Hmac.expand Sha256.hash
        (Hmac.extract Sha256.hash rotatedKeyMaterial derivationContext) (DerivedKey.info 2 7) := by
    rw [modelKeyMaterial, rotatedKeyMaterial, deriveKeyMaterial_eq, deriveKeyMaterial_eq]
    decide +kernel
  have hextract : Hmac.extract Sha256.hash modelKeyMaterial derivationContext ≠
      Hmac.extract Sha256.hash rotatedKeyMaterial derivationContext := fun h => hexpand (by rw [h])
  have created : new ⟨30, 7⟩ = .ok monthly := rfl
  exact decryptShardAtRest_otherReference .on Reference.hex_lawful created
    rotatedKeyIssued injOn_rotatedKeyIssued "loader" "loader" modelKey
    { modelKey with version := 2 } 1 1 modelKeyMaterial rotatedKeyMaterial (by rfl) (by rfl)
    (by decide) [0x68, 0x69] 2 7 modelKeyShard encrypt_modelKey
    (fun other opened => Reference.sealing_rejects _ _ _ _ other _ _ opened)
    (Set.injOn_pair.mpr fun h => absurd h hextract) (Set.injOn_pair.mpr fun h => absurd h hexpand)

end LiteLlmSecurity
