import LiteLlmSecurity.KeyManagement.Access

/-!
# Issuing and revoking keys over time

A stored key is decided by the first issue under its key id and version. Later
issues leave it and what it is retrieved as alone, revocation sticks to it, and a
later issue of the same version is shadowed by it.

A rotation never meets such a shadow, because buckets are sorted: the version
after the last one is new.
-/

namespace LiteLlmSecurity

open Rust Machine WriteOnce StableSort

namespace KeyManager

variable (sha256 : Bytes → Vector UInt8 32) (checks : OverflowChecks)

/-! ## Retrieving a stored key -/

theorem retrieveKey_of_stored {manager : KeyManager} {reference : KeyMaterialRef}
    {key : ManagedKey}
    (hstored : manager.stored reference.keyId reference.version = some key)
    (identity : String) (day : UInt32) :
    retrieveKey checks manager identity reference day =
      match manager.authorize identity reference with
      | .error e => .error (.err e)
      | .ok () => serve checks manager.rotationPolicy key day := by
  cases hbucket : manager.keys[reference.keyId]? with
  | none => simp [stored, bucket, hbucket] at hstored
  | some versions =>
      simp only [stored, bucket, hbucket, Option.getD_some] at hstored
      cases authorized : manager.authorize identity reference with
      | error e => simp only [retrieveKey, authorized]
      | ok => simp only [retrieveKey, authorized, hbucket, hstored]

theorem retrieveKey_of_revoked {manager : KeyManager} {reference : KeyMaterialRef}
    {key : ManagedKey}
    (hstored : manager.stored reference.keyId reference.version = some key)
    (revoked : key.revoked = true) (identity : String) (day : UInt32) :
    ∃ e, retrieveKey checks manager identity reference day = .error (.err e) := by
  rw [retrieveKey_of_stored checks hstored]
  cases manager.authorize identity reference with
  | error e => exact ⟨e, rfl⟩
  | ok => exact ⟨_, by simp only [serve, revoked, if_true, throw_eq, error_bind]; rfl⟩

/-! ## Revocation -/

/-- A revoked entry stays the entry of its version, and revoked, through every run. -/
theorem exists_revoked_after {manager : KeyManager} {keyId : String} {version : UInt32}
    {key : ManagedKey} (hstored : manager.stored keyId version = some key)
    (revoked : key.revoked = true) (operations : List KeyOperation) :
    ∃ later, (after (step sha256 checks) manager operations).stored keyId version = some later ∧
      later.revoked = true := by
  have occupied : manager.cells (keyId, version) = some (cell key) := by simp [cells, hstored]
  obtain ⟨last, hlast, -, hretired⟩ := exists_of_applyAll occupied
    ((history (step sha256 checks) manager operations).filterMap
      (event sha256 manager.rotationPolicy))
  rw [← cells_after] at hlast
  obtain ⟨later, hlater, rfl⟩ := Option.map_eq_some_iff.mp hlast
  exact ⟨later, hlater, hretired revoked⟩

/-- Once revoked, a key id and version is rejected after every later run. -/
theorem retrieveKey_after_revokeKey {manager : KeyManager} {keyId : String} {version : UInt32}
    (hrevoke : (revokeKey manager keyId version).1 = .ok ()) (later : List KeyOperation)
    (identity : String) (kind : KeyKind) (day : UInt32) :
    ∃ e, retrieveKey checks
      (after (step sha256 checks) (revokeKey manager keyId version).2 later) identity
      ⟨keyId, version, kind⟩ day = .error (.err e) := by
  obtain ⟨key, hstored⟩ := Option.isSome_iff_exists.mp
    ((revokeKey_eq_ok_iff manager keyId version).mp hrevoke)
  have hmarked : (revokeKey manager keyId version).2.stored keyId version =
      some { key with revoked := true } := by
    simp [stored_revokeKey, hstored]
  obtain ⟨last, hlast, hrevoked⟩ := exists_revoked_after sha256 checks hmarked rfl later
  exact retrieveKey_of_revoked checks hlast hrevoked identity day

/-! ## Issuing leaves stored keys alone -/

theorem retrieveKey_push_of_stored {manager : KeyManager} {reference : KeyMaterialRef}
    (hstored : (manager.stored reference.keyId reference.version).isSome) (managed : ManagedKey)
    (identity : String) (day : UInt32) :
    retrieveKey checks (manager.push managed) identity reference day =
      retrieveKey checks manager identity reference day := by
  obtain ⟨key, hkey⟩ := Option.isSome_iff_exists.mp hstored
  have hpushed : (manager.push managed).stored reference.keyId reference.version = some key := by
    rw [stored_push, hkey, Option.some_or]
  rw [retrieveKey_of_stored checks hkey, retrieveKey_of_stored checks hpushed]
  rfl

theorem retrieveKey_step_of_mayIssue {manager : KeyManager} {operation : KeyOperation}
    (mayIssue : operation.MayIssue) {reference : KeyMaterialRef}
    (hstored : (manager.stored reference.keyId reference.version).isSome)
    (identity : String) (day : UInt32) :
    retrieveKey checks (step sha256 checks manager operation).2 identity reference day =
      retrieveKey checks manager identity reference day := by
  obtain ⟨fault, hfail⟩ | ⟨_, key, hissue, -⟩ :=
    step_of_mayIssue sha256 checks manager mayIssue
  · rw [hfail]
  · rw [hissue, retrieveKey_push_of_stored checks hstored]

/-- In every state of a manager, a successful revocation makes every later
retrieval of that key id and version an error, and generating or rotating keys
changes no retrieval of a stored key id and version. -/
theorem revocation_permanent_and_issue_frame (manager : KeyManager) :
    (∀ keyId version, (revokeKey manager keyId version).1 = .ok () →
      ∀ (later : List KeyOperation) identity kind day, ∃ e,
        retrieveKey checks
          (after (step sha256 checks) (revokeKey manager keyId version).2 later) identity
          ⟨keyId, version, kind⟩ day = .error (.err e)) ∧
      ∀ operation : KeyOperation, operation.MayIssue → ∀ identity reference day,
        (manager.stored reference.keyId reference.version).isSome →
        retrieveKey checks (step sha256 checks manager operation).2 identity reference day =
          retrieveKey checks manager identity reference day := by
  constructor
  · intro keyId version hrevoke later identity kind day
    exact retrieveKey_after_revokeKey sha256 checks hrevoke later identity kind day
  · intro operation mayIssue identity reference day hstored
    exact retrieveKey_step_of_mayIssue sha256 checks mayIssue hstored identity day

theorem revoked_key_reissued :
    (∃ e, retrieveKey .on
        (after (step Sha256.hash .on)
          (revokeKey (after (step Sha256.hash .on) monthly encryptionKeyIssued) "model-key" 1).2
          [.generateKey "model-key" .encryption 1 0 42])
        "loader" ⟨"model-key", 1, .encryption⟩ 1 = .error (.err e)) ∧
      retrieveKey .on
          (step Sha256.hash .on (after (step Sha256.hash .on) monthly encryptionKeyIssued)
            (.rotateKey "model-key" 30 99)).2 "loader" ⟨"model-key", 1, .encryption⟩ 1 =
        retrieveKey .on (after (step Sha256.hash .on) monthly encryptionKeyIssued) "loader"
          ⟨"model-key", 1, .encryption⟩ 1 := by
  have both := revocation_permanent_and_issue_frame Sha256.hash .on
    (after (step Sha256.hash .on) monthly encryptionKeyIssued)
  exact ⟨both.1 "model-key" 1 (by rfl) _ _ _ _,
    both.2 (.rotateKey "model-key" 30 99) trivial "loader" ⟨"model-key", 1, .encryption⟩ 1
      (by rfl)⟩

/-! ## Buckets are sorted -/

/-- Every bucket is sorted by version. -/
def Sorted (manager : KeyManager) : Prop :=
  ∀ keyId, (manager.bucket keyId).Pairwise fun a b =>
    a.reference.version.toNat ≤ b.reference.version.toNat

theorem revokeFirst_references (version : UInt32) (entries : List ManagedKey) :
    (revokeFirst version entries).1.map (·.reference) = entries.map (·.reference) := by
  induction entries with
  | nil => rfl
  | cons key rest ih =>
      by_cases here : key.reference.version = version
      · simp [revokeFirst, here]
      · simp [revokeFirst, here, ih]

theorem Sorted.push {manager : KeyManager} (sorted : manager.Sorted) (managed : ManagedKey) :
    (manager.push managed).Sorted := by
  intro keyId
  rw [bucket_push]
  split
  · exact sortByKey_pairwise _ _
  · exact sorted keyId

theorem Sorted.revokeKey {manager : KeyManager} (sorted : manager.Sorted) (keyId : String)
    (version : UInt32) : (manager.revokeKey keyId version).2.Sorted := by
  intro other
  rw [bucket_revokeKey]
  split
  · have hreferences := List.pairwise_map (f := fun key : ManagedKey => key.reference)
      (R := fun a b => a.version.toNat ≤ b.version.toNat)
      (l := (revokeFirst version (manager.bucket other)).1)
    rw [revokeFirst_references, List.pairwise_map] at hreferences
    exact hreferences.mp (sorted other)
  · exact sorted other

theorem Sorted.step {manager : KeyManager} (sorted : manager.Sorted) (operation : KeyOperation) :
    (KeyManager.step sha256 checks manager operation).2.Sorted :=
  step_preserves sha256 checks sorted (fun _ => sorted) sorted.push sorted.revokeKey operation

theorem sorted_after_new {rotationPolicy : KeyRotationPolicy} {manager : KeyManager}
    (hnew : new rotationPolicy = .ok manager) (operations : List KeyOperation) :
    (after (KeyManager.step sha256 checks) manager operations).Sorted := by
  have hsorted : manager.Sorted := by
    intro keyId
    rw [bucket_new hnew]
    exact .nil
  exact after_preserves (fun _ operation sorted => sorted.step sha256 checks operation) hsorted
    operations

/-- The version after the last one in a sorted bucket is not stored yet, unless
it wrapped around. -/
theorem Sorted.stored_next {manager : KeyManager} (sorted : manager.Sorted) {keyId : String}
    {latest : ManagedKey} (hlatest : (manager.bucket keyId).getLast? = some latest)
    (hpositive : latest.reference.version + 1 ≠ 0) :
    manager.stored keyId (latest.reference.version + 1) = none := by
  rw [stored, List.find?_eq_none]
  intro key hkey hversion
  have hle := key_le_of_getLast? (fun key : ManagedKey => key.reference.version.toNat)
    (sorted keyId) hlatest hkey
  rw [decide_eq_true_eq] at hversion
  rw [hversion, toNat_add_one_of_ne_zero hpositive] at hle
  omega

/-! ## Retrieving what was just issued -/

/-- The derivation loop stops after one round, which gives exactly the 32 bytes of a
digest. -/
theorem deriveLoop_eq (context : UInt64 → Bytes) :
    deriveLoop sha256 context [] 0 = (sha256 (context 0)).toList := by
  rw [deriveLoop, if_pos (by simp), deriveLoop, if_neg (by simp), List.nil_append]

/-- Cutting the output to 32 bytes drops nothing. -/
theorem deriveKeyMaterial_eq (keyId : String) (kind : KeyKind) (version : UInt32)
    (seed : UInt64) :
    deriveKeyMaterial sha256 keyId kind version seed =
      (sha256 (asBytes "lite-llm::key-derivation" ++ asBytes keyId ++
        asBytes s!"{kind.debug}|{version}|{seed}|{(0 : UInt64)}")).toList := by
  rw [deriveKeyMaterial, deriveLoop_eq, List.take_of_length_le (by rw [Vector.length_toList])]

/-- Without overflow a key is served on the day it is issued. -/
theorem issuedKey_servedOn {rotationPolicy : KeyRotationPolicy} {day : UInt32}
    (hdays : day.toNat + rotationPolicy.rotateEveryDays.toNat +
      rotationPolicy.overlapDays.toNat < 2 ^ 32)
    (reference : KeyMaterialRef) (seed : UInt64) :
    (issuedKey sha256 rotationPolicy reference day seed).ServedOn checks rotationPolicy day := by
  have hexpires : (day + rotationPolicy.rotateEveryDays).toNat =
      day.toNat + rotationPolicy.rotateEveryDays.toNat := by
    rw [UInt32.toNat_add, Nat.mod_eq_of_lt (by omega)]
  have hlast : (day + rotationPolicy.rotateEveryDays + rotationPolicy.overlapDays).toNat =
      day.toNat + rotationPolicy.rotateEveryDays.toNat + rotationPolicy.overlapDays.toNat := by
    rw [UInt32.toNat_add, hexpires, Nat.mod_eq_of_lt (by omega)]
  refine ⟨rfl, day + rotationPolicy.rotateEveryDays + rotationPolicy.overlapDays, ?_, ?_⟩
  · rw [UInt32.le_iff_toNat_le, hlast]
    omega
  · exact addWith_of_fits (by simp only [issuedKey, hexpires]; omega)

/-- After a push, an admitted identity retrieves the pushed key's material exactly
when no older entry with its version gives another answer. -/
theorem retrieveKey_push_eq_ok_iff {manager : KeyManager} {managed : ManagedKey}
    {identity : String} {policy : KeyAccessPolicy} {day : UInt32}
    (hpolicy : manager.policies[identity]? = some policy)
    (hadmits : policy.Admits managed.reference.keyId managed.reference.kind)
    (served : managed.ServedOn checks manager.rotationPolicy day) :
    retrieveKey checks (manager.push managed) identity managed.reference day =
        .ok managed.material ↔
      ∀ key, manager.stored managed.reference.keyId managed.reference.version = some key →
        key.ServedOn checks manager.rotationPolicy day ∧ key.material = managed.material := by
  rw [retrieveKey_eq_ok_iff, stored_push]
  cases hstored : manager.stored managed.reference.keyId managed.reference.version with
  | none =>
      simpa using ⟨⟨policy, hpolicy, hadmits⟩, served⟩
  | some older =>
      constructor
      · rintro ⟨-, key, hkey, hserved, hmaterial⟩ _ ⟨⟩
        cases hkey
        exact ⟨hserved, hmaterial.symm⟩
      · intro holder
        obtain ⟨hserved, hmaterial⟩ := holder older rfl
        exact ⟨⟨policy, hpolicy, hadmits⟩, older, rfl, hserved, hmaterial.symm⟩

theorem retrieveKey_generated_iff {manager : KeyManager} {keyId identity : String}
    {kind : KeyKind} {version day : UInt32} {seed : UInt64} {reference : KeyMaterialRef}
    {policy : KeyAccessPolicy}
    (hdays : day.toNat + manager.rotationPolicy.rotateEveryDays.toNat +
      manager.rotationPolicy.overlapDays.toNat < 2 ^ 32)
    (hgenerate : (generateKey sha256 checks manager keyId kind version day seed).1 =
      .ok reference)
    (hpolicy : manager.policies[identity]? = some policy)
    (hadmits : policy.Admits reference.keyId reference.kind) :
    retrieveKey checks (generateKey sha256 checks manager keyId kind version day seed).2 identity
          reference day =
        .ok (deriveKeyMaterial sha256 reference.keyId reference.kind reference.version seed) ↔
      ∀ key, manager.stored keyId version = some key →
        key.ServedOn checks manager.rotationPolicy day ∧
          key.material = deriveKeyMaterial sha256 keyId kind version seed := by
  obtain ⟨fault, hfail⟩ | ⟨-, hissue⟩ :=
    generateKey_cases sha256 checks manager keyId kind version day seed
  · rw [hfail] at hgenerate
    cases hgenerate
  · rw [hissue] at hgenerate ⊢
    cases hgenerate
    exact retrieveKey_push_eq_ok_iff checks hpolicy hadmits
      (issuedKey_servedOn sha256 checks hdays _ seed)

theorem retrieveKey_rotated {manager : KeyManager} (sorted : manager.Sorted)
    {keyId identity : String} {day : UInt32} {seed : UInt64} {reference : KeyMaterialRef}
    {policy : KeyAccessPolicy}
    (hdays : day.toNat + manager.rotationPolicy.rotateEveryDays.toNat +
      manager.rotationPolicy.overlapDays.toNat < 2 ^ 32)
    (hrotate : (rotateKey sha256 checks manager keyId day seed).1 = .ok reference)
    (hpolicy : manager.policies[identity]? = some policy)
    (hadmits : policy.Admits reference.keyId reference.kind) :
    retrieveKey checks (rotateKey sha256 checks manager keyId day seed).2 identity reference day =
      .ok (deriveKeyMaterial sha256 reference.keyId reference.kind reference.version seed) := by
  obtain ⟨fault, hfail⟩ | ⟨latest, hlatest, hpositive, hissue⟩ :=
    rotateKey_cases sha256 checks manager keyId day seed
  · rw [hfail] at hrotate
    cases hrotate
  · rw [hissue] at hrotate ⊢
    cases hrotate
    refine (retrieveKey_push_eq_ok_iff checks hpolicy hadmits
      (issuedKey_servedOn sha256 checks hdays _ seed)).mpr fun key hkey => ?_
    rw [issuedKey, sorted.stored_next hlatest hpositive] at hkey
    cases hkey

/-- In every state a manager reaches, on a day whose sums fit: a reference that a
generation returned retrieves the key of that call exactly when the key id and
version were free before, or hold a key that is served on the day and has the
same material. A reference that a rotation returned always does. -/
theorem retrieveKey_issued_iff {rotationPolicy : KeyRotationPolicy} {manager : KeyManager}
    (hnew : new rotationPolicy = .ok manager) (operations : List KeyOperation)
    (day : UInt32)
    (hdays : day.toNat + rotationPolicy.rotateEveryDays.toNat +
      rotationPolicy.overlapDays.toNat < 2 ^ 32)
    (seed : UInt64) (identity : String) (policy : KeyAccessPolicy)
    (hpolicy : (after (step sha256 checks) manager operations).policies[identity]? =
      some policy) :
    (∀ keyId kind version reference,
      (generateKey sha256 checks (after (step sha256 checks) manager operations) keyId kind
        version day seed).1 = .ok reference →
      policy.Admits reference.keyId reference.kind →
      (retrieveKey checks
          (generateKey sha256 checks (after (step sha256 checks) manager operations) keyId kind
            version day seed).2 identity reference day =
          .ok (deriveKeyMaterial sha256 reference.keyId reference.kind reference.version seed) ↔
        ∀ key, (after (step sha256 checks) manager operations).stored keyId version = some key →
          key.ServedOn checks rotationPolicy day ∧
            key.material = deriveKeyMaterial sha256 keyId kind version seed)) ∧
      ∀ keyId reference,
        (rotateKey sha256 checks (after (step sha256 checks) manager operations) keyId day
          seed).1 = .ok reference →
        policy.Admits reference.keyId reference.kind →
        retrieveKey checks
            (rotateKey sha256 checks (after (step sha256 checks) manager operations) keyId day
              seed).2 identity reference day =
          .ok (deriveKeyMaterial sha256 reference.keyId reference.kind reference.version seed) := by
  have hrotation := (rotationPolicy_after sha256 checks manager operations).trans
    (rotationPolicy_new hnew)
  have sorted := sorted_after_new sha256 checks hnew operations
  generalize after (step sha256 checks) manager operations = reached at *
  subst hrotation
  constructor
  · intro keyId kind version reference hgenerate hadmits
    exact retrieveKey_generated_iff sha256 checks hdays hgenerate hpolicy hadmits
  · intro keyId reference hrotate hadmits
    exact retrieveKey_rotated sha256 checks sorted hdays hrotate hpolicy hadmits

theorem retrieveKey_issued_rotated :
    (retrieveKey .on
        (generateKey Sha256.hash .on (after (step Sha256.hash .on) monthly encryptionKeyIssued)
          "model-key" .encryption 2 30 99).2 "loader" ⟨"model-key", 2, .encryption⟩ 30 =
          .ok (deriveKeyMaterial Sha256.hash "model-key" .encryption 2 99) ↔
        ∀ key, (after (step Sha256.hash .on) monthly encryptionKeyIssued).stored "model-key" 2 =
            some key →
          key.ServedOn .on ⟨30, 7⟩ 30 ∧
            key.material = deriveKeyMaterial Sha256.hash "model-key" .encryption 2 99) ∧
      retrieveKey .on
          (rotateKey Sha256.hash .on (after (step Sha256.hash .on) monthly encryptionKeyIssued)
            "model-key" 30 99).2 "loader" ⟨"model-key", 2, .encryption⟩ 30 =
        .ok (deriveKeyMaterial Sha256.hash "model-key" .encryption 2 99) := by
  have admitted : KeyAccessPolicy.Admits ⟨"loader", {"model-key"}, {.encryption}⟩ "model-key"
      .encryption := ⟨by decide, by decide⟩
  have created : new ⟨30, 7⟩ = .ok monthly := rfl
  have both := retrieveKey_issued_iff Sha256.hash .on created encryptionKeyIssued 30 (by decide)
    99 "loader" ⟨"loader", {"model-key"}, {.encryption}⟩ (by rfl)
  exact ⟨both.1 "model-key" .encryption 2 ⟨"model-key", 2, .encryption⟩ (by rfl) admitted,
    both.2 "model-key" ⟨"model-key", 2, .encryption⟩ (by rfl) admitted⟩

/-- A second key generated under one version is shadowed by the first: its
reference retrieves the other material. -/
theorem regenerated_key_shadowed :
    ¬ ∀ reference policy,
      (generateKey Sha256.hash .on (after (step Sha256.hash .on) monthly encryptionKeyIssued)
        "model-key" .encryption 1 0 43).1 = .ok reference →
      (after (step Sha256.hash .on) monthly encryptionKeyIssued).policies["loader"]? =
        some policy →
      policy.Admits reference.keyId reference.kind →
      retrieveKey .on
          (generateKey Sha256.hash .on (after (step Sha256.hash .on) monthly encryptionKeyIssued)
            "model-key" .encryption 1 0 43).2 "loader" reference 0 =
        .ok (deriveKeyMaterial Sha256.hash reference.keyId reference.kind reference.version
          43) := by
  intro claim
  have promised := claim ⟨"model-key", 1, .encryption⟩ ⟨"loader", {"model-key"}, {.encryption}⟩
    (by rfl) (by rfl) ⟨by decide, by decide⟩
  have returned : retrieveKey .on
      (generateKey Sha256.hash .on (after (step Sha256.hash .on) monthly encryptionKeyIssued)
        "model-key" .encryption 1 0 43).2 "loader" ⟨"model-key", 1, .encryption⟩ 0 =
      .ok (deriveKeyMaterial Sha256.hash "model-key" .encryption 1 42) := by rfl
  have same := Except.ok.inj (returned.symm.trans promised)
  rw [deriveKeyMaterial_eq, deriveKeyMaterial_eq] at same
  revert same
  decide +kernel

end KeyManager

end LiteLlmSecurity
