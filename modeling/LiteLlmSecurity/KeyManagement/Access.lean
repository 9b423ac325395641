import LiteLlmSecurity.Crypto.Sha256
import LiteLlmSecurity.KeyManagement.Refinement

/-!
# Which kind of key a policy lets an identity retrieve

Authorization looks at the reference a caller presents, the lookup at its key id
and version only. The kind in the reference is never compared with the kind of
the key that is found, so the policy on kinds binds the reference and not the
key.
-/

namespace LiteLlmSecurity

open Rust Machine WriteOnce

/-- Whether a policy names a key id and a kind. -/
def KeyAccessPolicy.Admits (policy : KeyAccessPolicy) (keyId : String) (kind : KeyKind) : Prop :=
  keyId ∈ policy.allowedKeyIds ∧ kind ∈ policy.allowedKinds

/-- Whether a key is still served on a day: it is not revoked and the day is not
past the overlap after its expiry. -/
def ManagedKey.ServedOn (key : ManagedKey) (checks : OverflowChecks)
    (rotationPolicy : KeyRotationPolicy) (day : UInt32) : Prop :=
  key.revoked = false ∧ ∃ last, day ≤ last ∧
    addU32 (ε := SecurityError) checks key.expiresDay rotationPolicy.overlapDays = .ok last

namespace KeyManager

variable (sha256 : Bytes → Vector UInt8 32) {checks : OverflowChecks}

theorem authorize_eq_ok_iff (manager : KeyManager) (identity : String)
    (reference : KeyMaterialRef) :
    manager.authorize identity reference = .ok () ↔
      ∃ policy, manager.policies[identity]? = some policy ∧
        policy.Admits reference.keyId reference.kind := by
  cases hpolicy : manager.policies[identity]? with
  | none => simp [authorize, hpolicy]
  | some policy =>
      by_cases allowedId : reference.keyId ∈ policy.allowedKeyIds <;>
        by_cases allowedKind : reference.kind ∈ policy.allowedKinds <;>
          simp [authorize, hpolicy, allowedId, allowedKind, KeyAccessPolicy.Admits]

theorem serve_eq_ok_iff (rotationPolicy : KeyRotationPolicy) (key : ManagedKey) (day : UInt32)
    (material : Bytes) :
    serve checks rotationPolicy key day = .ok material ↔
      key.ServedOn checks rotationPolicy day ∧ material = key.material := by
  cases revoked : key.revoked with
  | true => simp [serve, revoked, ManagedKey.ServedOn]
  | false =>
      cases hlast : addU32 (ε := SecurityError) checks key.expiresDay
        rotationPolicy.overlapDays with
      | error fault => simp [serve, revoked, ManagedKey.ServedOn, hlast]
      | ok last =>
          by_cases past : day > last
          · simp [serve, revoked, ManagedKey.ServedOn, hlast, past]
          · simp [serve, revoked, ManagedKey.ServedOn, hlast, past, UInt32.not_lt.mp past, eq_comm]

/-- Retrieval succeeds exactly for an admitted reference to an entry served on
the day, and returns that entry's material. -/
theorem retrieveKey_eq_ok_iff (manager : KeyManager) (identity : String)
    (reference : KeyMaterialRef) (day : UInt32) (material : Bytes) :
    retrieveKey checks manager identity reference day = .ok material ↔
      (∃ policy, manager.policies[identity]? = some policy ∧
        policy.Admits reference.keyId reference.kind) ∧
      ∃ key, manager.stored reference.keyId reference.version = some key ∧
        key.ServedOn checks manager.rotationPolicy day ∧ material = key.material := by
  rw [← authorize_eq_ok_iff]
  cases authorized : manager.authorize identity reference with
  | error e => simp [retrieveKey, authorized]
  | ok =>
      cases hbucket : manager.keys[reference.keyId]? with
      | none => simp [retrieveKey, authorized, hbucket, stored, bucket]
      | some versions =>
          cases hfound : versions.find? fun key => key.reference.version = reference.version with
          | none => simp [retrieveKey, authorized, hbucket, stored, bucket, hfound]
          | some key =>
              simp [retrieveKey, authorized, hbucket, stored, bucket, hfound, serve_eq_ok_iff]

/-! ## The key that was generated under a key id and version -/

/-- The first key issued under a key id and version in a history. -/
def firstIssued (rotationPolicy : KeyRotationPolicy)
    (past : List (KeyOperation × SecurityOutcome (Option KeyMaterialRef)))
    (keyId : String) (version : UInt32) : Option ManagedKey :=
  (past.filterMap (issued sha256 rotationPolicy)).find? fun key =>
    key.reference.keyId = keyId ∧ key.reference.version = version

theorem keyId_of_firstIssued {rotationPolicy : KeyRotationPolicy}
    {past : List (KeyOperation × SecurityOutcome (Option KeyMaterialRef))} {keyId : String}
    {version : UInt32} {key : ManagedKey}
    (h : firstIssued sha256 rotationPolicy past keyId version = some key) :
    key.reference.keyId = keyId := by
  have hfound := List.find?_some h
  exact (decide_eq_true_iff.mp hfound).1

/-- An operation writes the register of the key it issued, if it issued one. -/
theorem event_bind_writesTo (rotationPolicy : KeyRotationPolicy) (keyId : String)
    (version : UInt32) (entry : KeyOperation × SecurityOutcome (Option KeyMaterialRef)) :
    (event sha256 rotationPolicy entry).bind (Event.writesTo (keyId, version)) =
      (issued sha256 rotationPolicy entry).filter fun key =>
        key.reference.keyId = keyId ∧ key.reference.version = version := by
  obtain ⟨operation, reply⟩ := entry
  by_cases mayIssue : operation.MayIssue
  · rw [event_of_mayIssue sha256 rotationPolicy mayIssue]
    cases issued sha256 rotationPolicy (operation, reply) <;>
      simp [Event.writesTo, Option.filter]
  · cases operation with
    | addAccessPolicy => rfl
    | revokeKey => rfl
    | generateKey => exact absurd trivial mayIssue
    | rotateKey => exact absurd trivial mayIssue

theorem findSome?_writesTo_event (rotationPolicy : KeyRotationPolicy)
    (past : List (KeyOperation × SecurityOutcome (Option KeyMaterialRef)))
    (keyId : String) (version : UInt32) :
    (past.filterMap (event sha256 rotationPolicy)).findSome? (Event.writesTo (keyId, version)) =
      firstIssued sha256 rotationPolicy past keyId version := by
  rw [firstIssued, ← List.head?_filter, List.filter_filterMap, ← List.head?_filterMap,
    List.filterMap_filterMap]
  simp only [event_bind_writesTo]

/-- A fresh manager holds its rotation policy and nothing else. -/
theorem eq_of_new {rotationPolicy : KeyRotationPolicy} {manager : KeyManager}
    (hnew : new rotationPolicy = .ok manager) :
    manager = { rotationPolicy, keys := ∅, policies := ∅ } := by
  unfold new at hnew
  split at hnew
  · cases hnew
  · exact (Except.ok.inj hnew).symm

theorem bucket_new {rotationPolicy : KeyRotationPolicy} {manager : KeyManager}
    (hnew : new rotationPolicy = .ok manager) (keyId : String) : manager.bucket keyId = [] := by
  rw [eq_of_new hnew]
  simp [bucket]

theorem rotationPolicy_new {rotationPolicy : KeyRotationPolicy} {manager : KeyManager}
    (hnew : new rotationPolicy = .ok manager) : manager.rotationPolicy = rotationPolicy := by
  rw [eq_of_new hnew]

variable (checks) in
/-- Up to revocation, the entry stored under a key id and version is the first
key that was issued under them. -/
theorem stored_after_new {rotationPolicy : KeyRotationPolicy} {manager : KeyManager}
    (hnew : new rotationPolicy = .ok manager) (operations : List KeyOperation)
    (keyId : String) (version : UInt32) :
    ((after (step sha256 checks) manager operations).stored keyId version).map
        (fun key => { key with revoked := false }) =
      firstIssued sha256 rotationPolicy (history (step sha256 checks) manager operations)
        keyId version := by
  have hempty : manager.cells = fun _ => none := by
    funext ⟨keyId, version⟩
    simp [cells, stored, bucket_new hnew]
  have hvalue := value_applyAll_empty ((history (step sha256 checks) manager operations).filterMap
    (event sha256 rotationPolicy)) (keyId, version)
  have hcells := cells_after sha256 checks manager operations
  rw [rotationPolicy_new hnew, hempty] at hcells
  rw [← hcells, findSome?_writesTo_event] at hvalue
  rw [← hvalue]
  simp [cells, cell, Function.comp_def]

section Reached

variable {rotationPolicy : KeyRotationPolicy} {manager : KeyManager}
variable (hnew : new rotationPolicy = .ok manager)

include hnew

theorem firstIssued_of_stored {operations : List KeyOperation} {keyId : String}
    {version : UInt32} {key : ManagedKey}
    (hstored : (after (step sha256 checks) manager operations).stored keyId version = some key) :
    firstIssued sha256 rotationPolicy (history (step sha256 checks) manager operations)
      keyId version = some { key with revoked := false } := by
  rw [← stored_after_new sha256 checks hnew operations keyId version, hstored]
  rfl

variable (checks) in
/-- What a reached manager serves: a run keeps the rotation policy it started with. -/
theorem retrieveKey_after_eq_ok_iff (operations : List KeyOperation) (identity : String)
    (reference : KeyMaterialRef) (day : UInt32) (material : Bytes) :
    retrieveKey checks (after (step sha256 checks) manager operations) identity reference day =
        .ok material ↔
      (∃ policy, (after (step sha256 checks) manager operations).policies[identity]? =
          some policy ∧ policy.Admits reference.keyId reference.kind) ∧
      ∃ key, (after (step sha256 checks) manager operations).stored reference.keyId
          reference.version = some key ∧
        key.ServedOn checks rotationPolicy day ∧ material = key.material := by
  rw [retrieveKey_eq_ok_iff, rotationPolicy_after, rotationPolicy_new hnew]

end Reached

/-! ## Access by kind -/

/-- In every state a manager reaches, whatever reference an identity forges: every
material it retrieves is that of a key generated under a key id and a kind its
policy names, exactly when there is no served key of another kind that the policy
does not name behind a reference that it does. -/
theorem retrieveKey_respects_kind_iff {rotationPolicy : KeyRotationPolicy} {manager : KeyManager}
    (hnew : new rotationPolicy = .ok manager) (operations : List KeyOperation)
    (identity : String) (reference : KeyMaterialRef) (day : UInt32) :
    (∀ material,
      retrieveKey checks (after (step sha256 checks) manager operations) identity reference day =
          .ok material →
        ∃ policy key,
          (after (step sha256 checks) manager operations).policies[identity]? = some policy ∧
          firstIssued sha256 rotationPolicy (history (step sha256 checks) manager operations)
            reference.keyId reference.version = some key ∧
          material = key.material ∧ policy.Admits key.reference.keyId key.reference.kind) ↔
      ¬ ∃ policy key,
        (after (step sha256 checks) manager operations).policies[identity]? = some policy ∧
        policy.Admits reference.keyId reference.kind ∧
        (after (step sha256 checks) manager operations).stored reference.keyId
          reference.version = some key ∧
        key.ServedOn checks rotationPolicy day ∧ key.reference.kind ∉ policy.allowedKinds := by
  have hretrieves :=
    retrieveKey_after_eq_ok_iff sha256 checks hnew operations identity reference day
  constructor
  · rintro respected ⟨policy, key, hidentity, hadmits, hstored, hserved, hkind⟩
    obtain ⟨policy', first, hidentity', hfirst, -, hadmits'⟩ := respected key.material
      ((hretrieves key.material).mpr ⟨⟨policy, hidentity, hadmits⟩, key, hstored, hserved, rfl⟩)
    rw [firstIssued_of_stored sha256 hnew hstored] at hfirst
    rw [hidentity] at hidentity'
    cases hidentity'
    cases hfirst
    exact hkind hadmits'.2
  · intro unforged material hretrieve
    obtain ⟨⟨policy, hidentity, hadmits⟩, key, hstored, hserved, hmaterial⟩ :=
      (hretrieves material).mp hretrieve
    have hissued := firstIssued_of_stored sha256 hnew hstored
    have hkeyId := keyId_of_firstIssued sha256 hissued
    refine ⟨policy, { key with revoked := false }, hidentity, hissued, hmaterial, ?_, ?_⟩
    · rw [hkeyId]
      exact hadmits.1
    · by_contra hkind
      exact unforged ⟨policy, key, hidentity, hadmits, hstored, hserved, hkind⟩

/-- A manager with no keys and a rotation of thirty days. -/
def monthly : KeyManager where
  rotationPolicy := { rotateEveryDays := 30, overlapDays := 7 }
  keys := ∅
  policies := ∅

/-- One encryption key, issued on day zero. -/
def encryptionKeyIssued : List KeyOperation :=
  [.addAccessPolicy ⟨"loader", {"model-key"}, {.encryption}⟩,
    .generateKey "model-key" .encryption 1 0 42]

def encryptionKey : ManagedKey :=
  issuedKey Sha256.hash ⟨30, 7⟩ ⟨"model-key", 1, .encryption⟩ 0 42

/-- The key is retrieved, and it is of the kind that the policy names. -/
theorem retrieveKey_encryptionKey :
    retrieveKey .on (after (step Sha256.hash .on) monthly encryptionKeyIssued) "loader"
        ⟨"model-key", 1, .encryption⟩ 1 = .ok encryptionKey.material ∧
      ∃ policy key,
        (after (step Sha256.hash .on) monthly encryptionKeyIssued).policies["loader"]? =
          some policy ∧
        firstIssued Sha256.hash ⟨30, 7⟩
          (history (step Sha256.hash .on) monthly encryptionKeyIssued) "model-key" 1 = some key ∧
        encryptionKey.material = key.material ∧
        policy.Admits key.reference.keyId key.reference.kind := by
  have served : retrieveKey .on (after (step Sha256.hash .on) monthly encryptionKeyIssued)
      "loader" ⟨"model-key", 1, .encryption⟩ 1 = .ok encryptionKey.material := by rfl
  have hset : (after (step Sha256.hash .on) monthly encryptionKeyIssued).policies["loader"]? =
      some ⟨"loader", {"model-key"}, {.encryption}⟩ := by rfl
  have hkey : (after (step Sha256.hash .on) monthly encryptionKeyIssued).stored "model-key" 1 =
      some encryptionKey := by rfl
  refine ⟨served, (retrieveKey_respects_kind_iff Sha256.hash rfl encryptionKeyIssued "loader"
    ⟨"model-key", 1, .encryption⟩ 1).mpr ?_ _ served⟩
  rintro ⟨policy, key, hpolicy, -, hstored, -, hkind⟩
  obtain rfl := Option.some.inj (hset.symm.trans hpolicy)
  obtain rfl := Option.some.inj (hkey.symm.trans hstored)
  exact absurd hkind (by decide)

/-- The loader may use encryption keys under one key id, which holds a signature
key. -/
def signingKeyIssued : List KeyOperation :=
  [.addAccessPolicy ⟨"loader", {"model-key"}, {.encryption}⟩,
    .generateKey "model-key" .signature 1 0 42]

def signingKey : ManagedKey :=
  issuedKey Sha256.hash ⟨30, 7⟩ ⟨"model-key", 1, .signature⟩ 0 42

/-- A reference that calls the signature key an encryption key retrieves it. -/
theorem forged_kind_retrieves_signature_key :
    ¬ ∀ material,
      retrieveKey .on (after (step Sha256.hash .on) monthly signingKeyIssued) "loader"
          ⟨"model-key", 1, .encryption⟩ 1 = .ok material →
        ∃ policy key,
          (after (step Sha256.hash .on) monthly signingKeyIssued).policies["loader"]? =
            some policy ∧
          firstIssued Sha256.hash ⟨30, 7⟩ (history (step Sha256.hash .on) monthly signingKeyIssued)
            "model-key" 1 = some key ∧
          material = key.material ∧ policy.Admits key.reference.keyId key.reference.kind := by
  intro claim
  obtain ⟨policy, first, hpolicy, hfirst, -, -, hkind⟩ := claim signingKey.material (by rfl)
  have hset : (after (step Sha256.hash .on) monthly signingKeyIssued).policies["loader"]? =
      some ⟨"loader", {"model-key"}, {.encryption}⟩ := by rfl
  have hissued : firstIssued Sha256.hash ⟨30, 7⟩
      (history (step Sha256.hash .on) monthly signingKeyIssued) "model-key" 1 =
        some signingKey := by rfl
  rw [hset] at hpolicy
  rw [hissued] at hfirst
  cases hpolicy
  cases hfirst
  exact absurd hkind (by decide)

end KeyManager

end LiteLlmSecurity
