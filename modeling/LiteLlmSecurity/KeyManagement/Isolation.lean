import LiteLlmSecurity.KeyManagement.Secrecy
import LiteLlmSecurity.Machine.Isolation

/-!
# Key ids and identities do not disturb each other

A manager holds one bucket for each key id and one policy for each identity. An
operation reads and writes the bucket of its own key id, or one policy. So what an
identity is served under a key id, and what the operations on that key id reply, are
decided by these operations and the identity's own policies. Everything else that
went on in between can be removed from the run.
-/

namespace LiteLlmSecurity

open Rust Machine StableSort

/-- Whether an operation issues or revokes keys of a key id. -/
def KeyOperation.ActsOn (keyId : String) : KeyOperation → Prop
  | .addAccessPolicy _ => False
  | .generateKey other .. => other = keyId
  | .rotateKey other .. => other = keyId
  | .revokeKey other _ => other = keyId

instance (keyId : String) : DecidablePred (KeyOperation.ActsOn keyId)
  | .addAccessPolicy _ => isFalse id
  | .generateKey other .. => inferInstanceAs (Decidable (other = keyId))
  | .rotateKey other .. => inferInstanceAs (Decidable (other = keyId))
  | .revokeKey other _ => inferInstanceAs (Decidable (other = keyId))

/-- Whether an operation sets the policy of an identity. -/
def KeyOperation.SetsPolicyOf (identity : String) (operation : KeyOperation) : Prop :=
  ∃ policy ∈ operation.policySet, policy.identity = identity

instance (identity : String) : DecidablePred (KeyOperation.SetsPolicyOf identity) :=
  fun operation => inferInstanceAs
    (Decidable (∃ policy ∈ operation.policySet, policy.identity = identity))

namespace KeyManager

variable (sha256 : Bytes → Vector UInt8 32) (checks : OverflowChecks)

/-! ## Operations on one key id -/

theorem keys_push (manager : KeyManager) (managed : ManagedKey) (keyId : String) :
    (manager.push managed).keys[keyId]? =
      if managed.reference.keyId = keyId then
        some (sortByKey (·.reference.version.toNat) (manager.bucket keyId ++ [managed]))
      else manager.keys[keyId]? := by
  by_cases same : managed.reference.keyId = keyId
  · subst same
    simp [bucket, push, Std.ExtTreeMap.getD_eq_getD_getElem?]
  · simp [push, Std.ExtTreeMap.getElem?_modify, Std.ExtTreeMap.getElem?_insert, same]

/-- What the operations on a key id look at. -/
def keyView (keyId : String) (manager : KeyManager) :
    KeyRotationPolicy × Option (List ManagedKey) :=
  (manager.rotationPolicy, manager.keys[keyId]?)

theorem keyView_push {manager manager' : KeyManager} {keyId : String}
    (same : manager.keyView keyId = manager'.keyView keyId) (managed : ManagedKey) :
    (manager.push managed).keyView keyId = (manager'.push managed).keyView keyId := by
  obtain ⟨policy, keys⟩ := Prod.mk.inj same
  simp only [keyView, keys_push, rotationPolicy_push, bucket, policy, keys]

theorem keyView_push_of_ne {managed : ManagedKey} {keyId : String}
    (other : managed.reference.keyId ≠ keyId) (manager : KeyManager) :
    (manager.push managed).keyView keyId = manager.keyView keyId := by
  simp only [keyView, keys_push, rotationPolicy_push, if_neg other]

/-- Generation replies and stores by the rotation policy and the bucket of its key id. -/
theorem generateKey_congr {manager manager' : KeyManager} {keyId : String}
    (same : manager.keyView keyId = manager'.keyView keyId) (kind : KeyKind)
    (version day : UInt32) (seed : UInt64) :
    (generateKey sha256 checks manager keyId kind version day seed).1 =
        (generateKey sha256 checks manager' keyId kind version day seed).1 ∧
      (generateKey sha256 checks manager keyId kind version day seed).2.keyView keyId =
        (generateKey sha256 checks manager' keyId kind version day seed).2.keyView keyId := by
  have policy : manager.rotationPolicy = manager'.rotationPolicy := (Prod.mk.inj same).1
  by_cases blank : trim keyId = ""
  · simpa only [generateKey, if_pos blank, true_and] using same
  by_cases zero : version = 0
  · simpa only [generateKey, if_neg blank, if_pos zero, true_and] using same
  simp only [generateKey, if_neg blank, if_neg zero, policy]
  cases addU32 (ε := SecurityError) checks day manager'.rotationPolicy.rotateEveryDays with
  | error fault => exact ⟨rfl, same⟩
  | ok expiresDay => exact ⟨rfl, keyView_push same _⟩

theorem rotateKey_congr {manager manager' : KeyManager} {keyId : String}
    (same : manager.keyView keyId = manager'.keyView keyId) (day : UInt32) (seed : UInt64) :
    (rotateKey sha256 checks manager keyId day seed).1 =
        (rotateKey sha256 checks manager' keyId day seed).1 ∧
      (rotateKey sha256 checks manager keyId day seed).2.keyView keyId =
        (rotateKey sha256 checks manager' keyId day seed).2.keyView keyId := by
  have keys : manager.keys[keyId]? = manager'.keys[keyId]? := (Prod.mk.inj same).2
  cases hbucket : manager'.keys[keyId]? with
  | none =>
      simpa only [rotateKey, keys, hbucket, true_and] using same
  | some versions =>
      cases hlast : versions.getLast? with
      | none =>
          simpa only [rotateKey, keys, hbucket, hlast, true_and] using same
      | some latest =>
          simp only [rotateKey, keys, hbucket, hlast]
          cases addU32 (ε := SecurityError) checks latest.reference.version 1 with
          | error fault => exact ⟨rfl, same⟩
          | ok version => exact generateKey_congr sha256 checks same _ version day seed

theorem revokeKey_congr {manager manager' : KeyManager} {keyId : String}
    (same : manager.keyView keyId = manager'.keyView keyId) (version : UInt32) :
    (revokeKey manager keyId version).1 = (revokeKey manager' keyId version).1 ∧
      (revokeKey manager keyId version).2.keyView keyId =
        (revokeKey manager' keyId version).2.keyView keyId := by
  obtain ⟨policy, keys⟩ := Prod.mk.inj same
  cases hbucket : manager'.keys[keyId]? with
  | none =>
      rw [hbucket] at keys
      simpa only [revokeKey, keys, hbucket, true_and] using same
  | some versions =>
      rw [hbucket] at keys
      have marked := keys_revokeKey keys version
      have marked' := keys_revokeKey hbucket version
      refine ⟨?_, ?_⟩
      · simp only [revokeKey, keys, hbucket]
        cases (revokeFirst version versions).2 <;> rfl
      · simp only [keyView, rotationPolicy_revokeKey, policy, marked, marked',
          Std.ExtTreeMap.getElem?_insert_self]

theorem keyView_revokeKey_of_ne {keyId other : String} (different : other ≠ keyId)
    (manager : KeyManager) (version : UInt32) :
    (revokeKey manager other version).2.keyView keyId = manager.keyView keyId := by
  cases hbucket : manager.keys[other]? with
  | none => simp only [revokeKey, hbucket]
  | some versions =>
      simp [keyView, keys_revokeKey hbucket, Std.ExtTreeMap.getElem?_insert, different]

/-! ## Isolation -/

/-- The bucket of a key id is isolated under the operations on the key id. -/
theorem keyView_isolated (keyId : String) :
    Isolated (step sha256 checks) (keyView keyId) (KeyOperation.ActsOn keyId) where
  frame manager operation outside := by
    cases operation with
    | addAccessPolicy policy => rfl
    | generateKey other kind version day seed =>
        obtain ⟨fault, hfail⟩ | ⟨-, hissue⟩ :=
          generateKey_cases sha256 checks manager other kind version day seed
        · simp only [step, hfail, Prod.map_snd, id]
        · simp only [step, hissue, Prod.map_snd, id]
          refine keyView_push_of_ne ?_ manager
          exact outside
    | rotateKey other day seed =>
        obtain ⟨fault, hfail⟩ | ⟨latest, -, -, hissue⟩ :=
          rotateKey_cases sha256 checks manager other day seed
        · simp only [step, hfail, Prod.map_snd, id]
        · simp only [step, hissue, Prod.map_snd, id]
          refine keyView_push_of_ne ?_ manager
          exact outside
    | revokeKey other version => exact keyView_revokeKey_of_ne outside manager version
  reply_eq manager manager' operation relevant same := by
    cases operation with
    | addAccessPolicy policy => rfl
    | generateKey other kind version day seed =>
        cases (show other = keyId from relevant)
        simp only [step, Prod.map_fst,
          (generateKey_congr sha256 checks same kind version day seed).1]
    | rotateKey other day seed =>
        cases (show other = keyId from relevant)
        simp only [step, Prod.map_fst, (rotateKey_congr sha256 checks same day seed).1]
    | revokeKey other version =>
        cases (show other = keyId from relevant)
        simp only [step, Prod.map_fst, (revokeKey_congr same version).1]
  view_eq manager manager' operation relevant same := by
    cases operation with
    | addAccessPolicy policy => exact same
    | generateKey other kind version day seed =>
        cases (show other = keyId from relevant)
        simp only [step, Prod.map_snd, id]
        exact (generateKey_congr sha256 checks same kind version day seed).2
    | rotateKey other day seed =>
        cases (show other = keyId from relevant)
        simp only [step, Prod.map_snd, id]
        exact (rotateKey_congr sha256 checks same day seed).2
    | revokeKey other version =>
        cases (show other = keyId from relevant)
        simp only [step, Prod.map_snd, id]
        exact (revokeKey_congr same version).2

/-- The policy of an identity is isolated under the operations that set it. -/
theorem policy_isolated (identity : String) :
    Isolated (step sha256 checks) (fun manager => manager.policies[identity]?)
      (KeyOperation.SetsPolicyOf identity) where
  frame manager operation outside := by
    rw [policies_step]
    cases hset : operation.policySet with
    | none => rfl
    | some policy =>
        have other : policy.identity ≠ identity := fun same => outside ⟨policy, hset, same⟩
        simp [Std.ExtTreeMap.getElem?_insert, other]
  reply_eq manager manager' operation relevant _ := by
    obtain ⟨policy, hset, -⟩ := relevant
    cases operation with
    | addAccessPolicy => rfl
    | generateKey => cases hset
    | rotateKey => cases hset
    | revokeKey => cases hset
  view_eq manager manager' operation relevant _ := by
    obtain ⟨policy, hset, rfl⟩ := relevant
    have hsome : operation.policySet = some policy := hset
    simp [policies_step, hsome]

/-- Retrieval reads the bucket of the key id and the policy of the identity. -/
theorem retrieveKey_congr {manager manager' : KeyManager} {identity : String}
    {reference : KeyMaterialRef}
    (keys : manager.keyView reference.keyId = manager'.keyView reference.keyId)
    (policies : manager.policies[identity]? = manager'.policies[identity]?) (day : UInt32) :
    retrieveKey checks manager identity reference day =
      retrieveKey checks manager' identity reference day := by
  obtain ⟨rotation, bucket⟩ := Prod.mk.inj keys
  simp only [retrieveKey, authorize, policies, bucket, rotation]

/-- Whatever happens to other key ids and other identities' policies in between: an
identity is served under a key id, and the operations on the key id reply, as in the
run without all of that. -/
theorem retrieveKey_after_purge (manager : KeyManager) (operations : List KeyOperation)
    (identity keyId : String) :
    (∀ version kind day,
      retrieveKey checks (after (step sha256 checks) manager operations) identity
          ⟨keyId, version, kind⟩ day =
        retrieveKey checks (after (step sha256 checks) manager (operations.filter fun operation =>
          operation.ActsOn keyId ∨ operation.SetsPolicyOf identity)) identity
          ⟨keyId, version, kind⟩ day) ∧
      (history (step sha256 checks) manager operations).filter
          (fun entry => entry.1.ActsOn keyId) =
        history (step sha256 checks) manager (operations.filter (·.ActsOn keyId)) := by
  constructor
  · intro version kind day
    have views := (((keyView_isolated sha256 checks keyId).prod
      (policy_isolated sha256 checks identity)).purge rfl operations (s := manager)).1
    obtain ⟨keys, policies⟩ := Prod.mk.inj views
    exact retrieveKey_congr checks keys policies day
  · exact ((keyView_isolated sha256 checks keyId).purge rfl operations).2

end KeyManager

end LiteLlmSecurity
