import LiteLlmSecurity.Collection.WriteOnce
import LiteLlmSecurity.KeyManagement.Manager
import LiteLlmSecurity.Machine.Run

/-!
# The key manager as write-once registers

Revocation and retrieval see one entry for each key id and version, the first in
the bucket. Seen through it the manager is a set of write-once registers: issuing
a key writes its register, which does nothing when the register is occupied, and
revoking retires it.

Each operation is one event or none, read off its reply. The refinement of one
step lifts to runs, so what a manager holds is determined by the history of
operations and replies.
-/

namespace LiteLlmSecurity

open Rust Machine WriteOnce StableSort

/-- Whether an operation may issue a key. -/
def KeyOperation.MayIssue : KeyOperation → Prop
  | .generateKey .. => True
  | .rotateKey .. => True
  | .addAccessPolicy _ => False
  | .revokeKey .. => False

instance : DecidablePred KeyOperation.MayIssue
  | .generateKey .. => isTrue trivial
  | .rotateKey .. => isTrue trivial
  | .addAccessPolicy _ => isFalse id
  | .revokeKey .. => isFalse id

namespace KeyManager

variable (sha256 : Bytes → Vector UInt8 32) (checks : OverflowChecks)

/-! ## The entry that operations act on -/

/-- The entries under a key id, in the order they are searched. -/
def bucket (manager : KeyManager) (keyId : String) : List ManagedKey :=
  (manager.keys[keyId]?).getD []

/-- The first entry with a version. -/
def stored (manager : KeyManager) (keyId : String) (version : UInt32) : Option ManagedKey :=
  (manager.bucket keyId).find? fun key => key.reference.version = version

@[simp] theorem stored_addAccessPolicy (manager : KeyManager) (policy : KeyAccessPolicy) :
    (manager.addAccessPolicy policy).stored = manager.stored := rfl

@[simp] theorem rotationPolicy_push (manager : KeyManager) (managed : ManagedKey) :
    (manager.push managed).rotationPolicy = manager.rotationPolicy := rfl

@[simp] theorem policies_push (manager : KeyManager) (managed : ManagedKey) :
    (manager.push managed).policies = manager.policies := rfl

theorem bucket_push (manager : KeyManager) (managed : ManagedKey) (keyId : String) :
    (manager.push managed).bucket keyId =
      if managed.reference.keyId = keyId then
        sortByKey (·.reference.version.toNat) (manager.bucket keyId ++ [managed])
      else manager.bucket keyId := by
  by_cases same : managed.reference.keyId = keyId
  · subst same
    simp [bucket, push, Std.ExtTreeMap.getD_eq_getD_getElem?]
  · simp [bucket, push, Std.ExtTreeMap.getElem?_modify, Std.ExtTreeMap.getElem?_insert, same]

/-- An issued key is found unless an older entry has its version. -/
theorem stored_push (manager : KeyManager) (managed : ManagedKey) (keyId : String)
    (version : UInt32) :
    (manager.push managed).stored keyId version =
      (manager.stored keyId version).or
        (if managed.reference.keyId = keyId ∧ managed.reference.version = version then some managed
        else none) := by
  by_cases same : managed.reference.keyId = keyId
  · have search := find?_sortByKey (fun key : ManagedKey => key.reference.version.toNat)
      version.toNat (manager.bucket keyId ++ [managed])
    simp only [UInt32.toNat_inj] at search
    simp only [stored, bucket_push, same, if_true, true_and, search, List.find?_append,
      List.find?_singleton, decide_eq_true_eq]
  · simp [stored, bucket_push, same]

/-- Revocation marks the entry a search for the version finds, and no other. -/
theorem find?_revokeFirst (version other : UInt32) (entries : List ManagedKey) :
    ((revokeFirst version entries).1.find? fun key => key.reference.version = other) =
      (entries.find? fun key => key.reference.version = other).map fun key =>
        if version = other then { key with revoked := true } else key := by
  induction entries with
  | nil => rfl
  | cons key rest ih =>
      by_cases here : key.reference.version = version
      · simp only [revokeFirst, here, if_true, List.find?_cons]
        by_cases sought : version = other
        · simp [sought]
        · simp [sought]
      · simp only [revokeFirst, here, if_false, List.find?_cons]
        by_cases sought : key.reference.version = other
        · have different : version ≠ other := fun same => here (sought.trans same.symm)
          simp [sought, different]
        · simp [sought, ih]

theorem revokeFirst_found (version : UInt32) (entries : List ManagedKey) :
    (revokeFirst version entries).2 =
      (entries.find? fun key => key.reference.version = version).isSome := by
  induction entries with
  | nil => rfl
  | cons key rest ih =>
      by_cases here : key.reference.version = version
      · simp [revokeFirst, here]
      · simp [revokeFirst, here, ih]

/-! ## What each operation can do -/

/-- The key that issuing a reference stores. -/
def issuedKey (rotationPolicy : KeyRotationPolicy)
    (reference : KeyMaterialRef) (day : UInt32) (seed : UInt64) : ManagedKey where
  reference
  material := deriveKeyMaterial sha256 reference.keyId reference.kind reference.version seed
  activatedDay := day
  expiresDay := day + rotationPolicy.rotateEveryDays
  revoked := false

/-- A generation fails and changes nothing, or it stores the key it returns. -/
theorem generateKey_cases (manager : KeyManager) (keyId : String) (kind : KeyKind)
    (version day : UInt32) (seed : UInt64) :
    (∃ fault, generateKey sha256 checks manager keyId kind version day seed =
      (.error fault, manager)) ∨
      version ≠ 0 ∧ generateKey sha256 checks manager keyId kind version day seed =
        (.ok ⟨keyId, version, kind⟩, manager.push (issuedKey sha256 manager.rotationPolicy
          ⟨keyId, version, kind⟩ day seed)) := by
  by_cases blank : trim keyId = ""
  · exact .inl ⟨_, by rw [generateKey, if_pos blank]⟩
  by_cases zero : version = 0
  · exact .inl ⟨_, by rw [generateKey, if_neg blank, if_pos zero]⟩
  cases expires : addU32 (ε := SecurityError) checks day manager.rotationPolicy.rotateEveryDays with
  | error fault =>
      exact .inl ⟨fault, by simp only [generateKey, if_neg blank, if_neg zero, expires]⟩
  | ok expiresDay =>
      refine .inr ⟨zero, ?_⟩
      have hexpires := eq_of_addU32_eq_ok expires
      simp only [generateKey, if_neg blank, if_neg zero, expires, hexpires, issuedKey]

/-- A rotation fails and changes nothing, or it stores the version after the last
one in the bucket, under the same kind. -/
theorem rotateKey_cases (manager : KeyManager) (keyId : String) (day : UInt32) (seed : UInt64) :
    (∃ fault, rotateKey sha256 checks manager keyId day seed = (.error fault, manager)) ∨
      ∃ latest, (manager.bucket keyId).getLast? = some latest ∧
        latest.reference.version + 1 ≠ 0 ∧
        rotateKey sha256 checks manager keyId day seed =
          (.ok ⟨keyId, latest.reference.version + 1, latest.reference.kind⟩,
            manager.push (issuedKey sha256 manager.rotationPolicy
              ⟨keyId, latest.reference.version + 1, latest.reference.kind⟩ day seed)) := by
  cases hbucket : manager.keys[keyId]? with
  | none => exact .inl ⟨.err (.keyNotFound keyId), by simp only [rotateKey, hbucket]⟩
  | some versions =>
      cases hlast : versions.getLast? with
      | none => exact .inl ⟨.err (.keyNotFound keyId), by simp only [rotateKey, hbucket, hlast]⟩
      | some latest =>
          cases hversion : addU32 (ε := SecurityError) checks latest.reference.version 1 with
          | error fault =>
              exact .inl ⟨fault, by simp only [rotateKey, hbucket, hlast, hversion]⟩
          | ok version =>
              have hnext := eq_of_addU32_eq_ok hversion
              subst hnext
              have hrotate : rotateKey sha256 checks manager keyId day seed =
                  generateKey sha256 checks manager keyId latest.reference.kind
                    (latest.reference.version + 1) day seed := by
                simp only [rotateKey, hbucket, hlast, hversion]
              rw [hrotate]
              obtain hfail | ⟨hpositive, hissue⟩ := generateKey_cases sha256 checks manager keyId
                latest.reference.kind (latest.reference.version + 1) day seed
              · exact .inl hfail
              · exact .inr ⟨latest, by simp [bucket, hbucket, hlast], hpositive, hissue⟩

/-- Revocation changes nothing but the keys. -/
theorem revokeKey_frame (manager : KeyManager) (keyId : String) (version : UInt32) :
    ∃ keys, (revokeKey manager keyId version).2 = { manager with keys } := by
  unfold revokeKey
  split
  · exact ⟨manager.keys, rfl⟩
  · dsimp only
    split <;> exact ⟨_, rfl⟩

@[simp] theorem rotationPolicy_revokeKey (manager : KeyManager) (keyId : String)
    (version : UInt32) :
    (revokeKey manager keyId version).2.rotationPolicy = manager.rotationPolicy := by
  obtain ⟨keys, hkeys⟩ := revokeKey_frame manager keyId version
  rw [hkeys]

@[simp] theorem policies_revokeKey (manager : KeyManager) (keyId : String) (version : UInt32) :
    (revokeKey manager keyId version).2.policies = manager.policies := by
  obtain ⟨keys, hkeys⟩ := revokeKey_frame manager keyId version
  rw [hkeys]

theorem keys_revokeKey {manager : KeyManager} {keyId : String} {versions : List ManagedKey}
    (hbucket : manager.keys[keyId]? = some versions) (version : UInt32) :
    (revokeKey manager keyId version).2.keys =
      manager.keys.insert keyId (revokeFirst version versions).1 := by
  simp only [revokeKey, hbucket]
  split <;> rfl

theorem bucket_revokeKey (manager : KeyManager) (keyId other : String) (version : UInt32) :
    (revokeKey manager keyId version).2.bucket other =
      if keyId = other then (revokeFirst version (manager.bucket other)).1
      else manager.bucket other := by
  cases hbucket : manager.keys[keyId]? with
  | none =>
      by_cases same : keyId = other
      · subst same
        simp [revokeKey, bucket, hbucket, revokeFirst]
      · simp [revokeKey, hbucket, same]
  | some versions =>
      have hkeys := keys_revokeKey hbucket version
      by_cases same : keyId = other
      · subst same
        simp [bucket, hkeys, hbucket]
      · simp [bucket, hkeys, Std.ExtTreeMap.getElem?_insert, same]

theorem stored_revokeKey (manager : KeyManager) (keyId other : String)
    (version otherVersion : UInt32) :
    (revokeKey manager keyId version).2.stored other otherVersion =
      (manager.stored other otherVersion).map fun key =>
        if keyId = other ∧ version = otherVersion then { key with revoked := true } else key := by
  by_cases same : keyId = other
  · simp only [stored, bucket_revokeKey, same, if_true, find?_revokeFirst, true_and]
  · simp [stored, bucket_revokeKey, same]

/-- Revocation succeeds exactly on a stored version. -/
theorem revokeKey_eq_ok_iff (manager : KeyManager) (keyId : String) (version : UInt32) :
    (revokeKey manager keyId version).1 = .ok () ↔ (manager.stored keyId version).isSome := by
  cases hbucket : manager.keys[keyId]? with
  | none => simp [revokeKey, stored, bucket, hbucket]
  | some versions =>
      have found := revokeFirst_found version versions
      simp only [revokeKey, hbucket, stored, bucket, Option.getD_some]
      rw [← found]
      cases (revokeFirst version versions).2 <;> simp

/-! ## Refinement -/

/-- The register that an entry fills. -/
def cell (key : ManagedKey) : Cell ManagedKey :=
  { value := { key with revoked := false }, retired := key.revoked }

/-- The registers of a manager, by key id and version. -/
def cells (manager : KeyManager) : Cells (String × UInt32) ManagedKey :=
  fun (keyId, version) => (manager.stored keyId version).map cell

/-- The key that an operation issued, going by its reply. -/
def issued (rotationPolicy : KeyRotationPolicy) :
    KeyOperation × SecurityOutcome (Option KeyMaterialRef) → Option ManagedKey
  | (.generateKey _ _ _ day seed, .ok (some reference)) =>
      some (issuedKey sha256 rotationPolicy reference day seed)
  | (.rotateKey _ day seed, .ok (some reference)) =>
      some (issuedKey sha256 rotationPolicy reference day seed)
  | _ => none

@[simp] theorem issued_error (rotationPolicy : KeyRotationPolicy) (operation : KeyOperation)
    (fault : Fault SecurityError) :
    issued sha256 rotationPolicy (operation, .error fault) = none := by
  cases operation <;> rfl

/-- The event on the registers that an operation amounts to. -/
def event (rotationPolicy : KeyRotationPolicy)
    (entry : KeyOperation × SecurityOutcome (Option KeyMaterialRef)) :
    Option (Event (String × UInt32) ManagedKey) :=
  match entry with
  | (.revokeKey keyId version, _) => some (.retire (keyId, version))
  | entry => (issued sha256 rotationPolicy entry).map fun key =>
      .write (key.reference.keyId, key.reference.version) key

theorem cells_push (manager : KeyManager) {key : ManagedKey} (live : key.revoked = false) :
    (manager.push key).cells =
      apply manager.cells (.write (key.reference.keyId, key.reference.version) key) := by
  funext ⟨keyId, version⟩
  by_cases here : key.reference.keyId = keyId ∧ key.reference.version = version
  · obtain ⟨rfl, rfl⟩ := here
    cases hstored : manager.stored key.reference.keyId key.reference.version <;>
      simp [cells, stored_push, apply, hstored, cell, ← live]
  · have elsewhere : (keyId, version) ≠ (key.reference.keyId, key.reference.version) := by
      rintro h
      obtain ⟨rfl, rfl⟩ := Prod.mk.inj h
      exact here ⟨rfl, rfl⟩
    simp only [cells, stored_push, apply, if_neg here, Option.or_none,
      Function.update_of_ne elsewhere]

theorem cells_revokeKey (manager : KeyManager) (keyId : String) (version : UInt32) :
    (revokeKey manager keyId version).2.cells =
      apply manager.cells (.retire (keyId, version)) := by
  funext ⟨other, otherVersion⟩
  by_cases here : keyId = other ∧ version = otherVersion
  · obtain ⟨rfl, rfl⟩ := here
    cases hstored : manager.stored keyId version <;>
      simp [cells, stored_revokeKey, apply, hstored, cell]
  · have elsewhere : (other, otherVersion) ≠ (keyId, version) := by
      rintro h
      obtain ⟨rfl, rfl⟩ := Prod.mk.inj h
      exact here ⟨rfl, rfl⟩
    simp only [cells, stored_revokeKey, apply, if_neg here, Option.map_id',
      Function.update_of_ne elsewhere]

/-- Generations and rotations store the key they issued, or change nothing. -/
theorem step_of_mayIssue (manager : KeyManager) {operation : KeyOperation}
    (mayIssue : operation.MayIssue) :
    (∃ fault, step sha256 checks manager operation = (.error fault, manager)) ∨
      ∃ reference key, step sha256 checks manager operation =
          (.ok (some reference), manager.push key) ∧
        issued sha256 manager.rotationPolicy (operation, .ok (some reference)) = some key ∧
        key.reference = reference ∧ key.revoked = false := by
  cases operation with
  | addAccessPolicy => exact mayIssue.elim
  | revokeKey => exact mayIssue.elim
  | generateKey keyId kind version day seed =>
      obtain ⟨fault, hfail⟩ | ⟨-, hissue⟩ :=
        generateKey_cases sha256 checks manager keyId kind version day seed
      · exact .inl ⟨fault, by simp only [step, hfail]; rfl⟩
      · exact .inr ⟨_, _, by simp only [step, hissue]; rfl, rfl, rfl, rfl⟩
  | rotateKey keyId day seed =>
      obtain ⟨fault, hfail⟩ | ⟨latest, -, -, hissue⟩ :=
        rotateKey_cases sha256 checks manager keyId day seed
      · exact .inl ⟨fault, by simp only [step, hfail]; rfl⟩
      · exact .inr ⟨_, _, by simp only [step, hissue]; rfl, rfl, rfl, rfl⟩

/-- What setting a policy, storing a key and revoking one leave true, a step does. -/
theorem step_preserves {P : KeyManager → Prop} {manager : KeyManager} (same : P manager)
    (hpolicy : ∀ policy, P (manager.addAccessPolicy policy))
    (hpush : ∀ managed, P (manager.push managed))
    (hrevoke : ∀ keyId version, P (manager.revokeKey keyId version).2)
    (operation : KeyOperation) : P (step sha256 checks manager operation).2 := by
  by_cases mayIssue : operation.MayIssue
  · obtain ⟨fault, hfail⟩ | ⟨reference, key, hissue, -⟩ :=
      step_of_mayIssue sha256 checks manager mayIssue
    · rw [hfail]
      exact same
    · rw [hissue]
      exact hpush key
  · cases operation with
    | addAccessPolicy policy => exact hpolicy policy
    | revokeKey keyId version => exact hrevoke keyId version
    | generateKey => exact absurd trivial mayIssue
    | rotateKey => exact absurd trivial mayIssue

@[simp] theorem rotationPolicy_step (manager : KeyManager) (operation : KeyOperation) :
    (step sha256 checks manager operation).2.rotationPolicy = manager.rotationPolicy :=
  step_preserves (P := fun next => next.rotationPolicy = manager.rotationPolicy) sha256 checks rfl
    (fun _ => rfl) (rotationPolicy_push manager) (rotationPolicy_revokeKey manager) operation

theorem event_of_mayIssue (rotationPolicy : KeyRotationPolicy) {operation : KeyOperation}
    (mayIssue : operation.MayIssue) (reply : SecurityOutcome (Option KeyMaterialRef)) :
    event sha256 rotationPolicy (operation, reply) =
      (issued sha256 rotationPolicy (operation, reply)).map fun key =>
        .write (key.reference.keyId, key.reference.version) key := by
  cases operation with
  | addAccessPolicy => rfl
  | revokeKey => exact mayIssue.elim
  | generateKey => rfl
  | rotateKey => rfl

/-- One step of the manager is one event on its registers, or none. -/
theorem cells_step (manager : KeyManager) (operation : KeyOperation) :
    (step sha256 checks manager operation).2.cells = applyAll manager.cells
      (event sha256 manager.rotationPolicy
        (operation, (step sha256 checks manager operation).1)).toList := by
  by_cases mayIssue : operation.MayIssue
  · rw [event_of_mayIssue sha256 _ mayIssue]
    obtain ⟨fault, hfail⟩ | ⟨reference, key, hissue, hkey, -, live⟩ := step_of_mayIssue
      sha256 checks manager mayIssue
    · rw [hfail, issued_error]
      rfl
    · rw [hissue, hkey, cells_push manager live]
      rfl
  · cases operation with
    | addAccessPolicy => rfl
    | revokeKey keyId version => exact cells_revokeKey manager keyId version
    | generateKey => exact absurd trivial mayIssue
    | rotateKey => exact absurd trivial mayIssue

theorem rotationPolicy_after (manager : KeyManager) (operations : List KeyOperation) :
    (after (step sha256 checks) manager operations).rotationPolicy = manager.rotationPolicy :=
  after_preserves (P := fun later => later.rotationPolicy = manager.rotationPolicy)
    (fun later operation h => (rotationPolicy_step sha256 checks later operation).trans h) rfl
    operations

/-- The registers after a run are what the run's events make of them. -/
theorem cells_after (manager : KeyManager) (operations : List KeyOperation) :
    (after (step sha256 checks) manager operations).cells = applyAll manager.cells
      ((history (step sha256 checks) manager operations).filterMap
        (event sha256 manager.rotationPolicy)) := by
  refine refines_after (P := fun later => later.rotationPolicy = manager.rotationPolicy)
    (fun later operation h => (rotationPolicy_step sha256 checks later operation).trans h)
    (fun later operation h => ?_) rfl operations
  rw [← h]
  exact cells_step sha256 checks later operation

end KeyManager

end LiteLlmSecurity
