import LiteLlmSecurity.KeyManagement.Lifecycle

/-!
# What a rotation issues

A rotation takes the last entry of a bucket for the one with the highest version.
Buckets are sorted after every operation, so it is, and the version after it is above
every version that was ever issued under the key id. When the version wraps around,
the generation behind the rotation refuses version zero.
-/

namespace LiteLlmSecurity.KeyManager

open Rust Machine StableSort

variable (sha256 : Bytes → Vector UInt8 32) (checks : OverflowChecks)

/-! ## Buckets are not empty -/

/-- No key id in the map is without entries. -/
def Occupied (manager : KeyManager) : Prop := ∀ keyId : String, manager.keys[keyId]? ≠ some []

theorem Occupied.push {manager : KeyManager} (occupied : manager.Occupied)
    (managed : ManagedKey) : (manager.push managed).Occupied := by
  intro keyId hempty
  by_cases same : managed.reference.keyId = keyId
  · have hbucket := bucket_push manager managed keyId
    rw [bucket, hempty, if_pos same, Option.getD_some] at hbucket
    have hlength := congrArg List.length hbucket
    rw [(sortByKey_perm _ _).length_eq, List.length_append] at hlength
    cases hlength
  · refine occupied keyId ?_
    simpa [KeyManager.push, Std.ExtTreeMap.getElem?_modify, Std.ExtTreeMap.getElem?_insert, same]
      using hempty

theorem Occupied.revokeKey {manager : KeyManager} (occupied : manager.Occupied) (keyId : String)
    (version : UInt32) : (manager.revokeKey keyId version).2.Occupied := by
  intro other hempty
  cases hbucket : manager.keys[keyId]? with
  | none =>
      rw [KeyManager.revokeKey, hbucket] at hempty
      exact occupied other hempty
  | some versions =>
      rw [keys_revokeKey hbucket, Std.ExtTreeMap.getElem?_insert] at hempty
      split at hempty
      · have hreferences := revokeFirst_references version versions
        rw [Option.some.inj hempty] at hreferences
        refine occupied keyId ?_
        rw [hbucket, List.map_eq_nil_iff.mp hreferences.symm]
      · exact occupied other hempty

theorem Occupied.step {manager : KeyManager} (occupied : manager.Occupied)
    (operation : KeyOperation) :
    (KeyManager.step sha256 checks manager operation).2.Occupied :=
  step_preserves sha256 checks occupied (fun _ => occupied) occupied.push occupied.revokeKey
    operation

theorem occupied_after_new {rotationPolicy : KeyRotationPolicy} {manager : KeyManager}
    (hnew : new rotationPolicy = .ok manager) (operations : List KeyOperation) :
    (after (KeyManager.step sha256 checks) manager operations).Occupied := by
  have hoccupied : manager.Occupied := by
    rw [eq_of_new hnew]
    simp [Occupied]
  exact after_preserves (fun _ operation occupied => occupied.step sha256 checks operation)
    hoccupied operations

/-! ## Issued references stay -/

/-- The references stored under a key id. -/
def references (manager : KeyManager) (keyId : String) : List KeyMaterialRef :=
  (manager.bucket keyId).map (·.reference)

theorem references_push (manager : KeyManager) (managed : ManagedKey) (keyId : String) :
    ((manager.push managed).references keyId).Perm
      (manager.references keyId ++
        if managed.reference.keyId = keyId then [managed.reference] else []) := by
  rw [references, bucket_push]
  split
  · simpa [references] using (sortByKey_perm (fun key : ManagedKey => key.reference.version.toNat)
      (manager.bucket keyId ++ [managed])).map fun key => key.reference
  · simp [references]

theorem references_revokeKey (manager : KeyManager) (keyId other : String) (version : UInt32) :
    (revokeKey manager keyId version).2.references other = manager.references other := by
  rw [references, bucket_revokeKey]
  split
  · exact revokeFirst_references version _
  · rfl

theorem references_subset_step (manager : KeyManager) (operation : KeyOperation)
    (keyId : String) :
    manager.references keyId ⊆ (step sha256 checks manager operation).2.references keyId := by
  refine step_preserves (P := fun next => manager.references keyId ⊆ next.references keyId) sha256
    checks (List.Subset.refl _) (fun _ => List.Subset.refl _) (fun managed => ?_)
    (fun other version => ?_) operation
  · exact List.Subset.trans (List.subset_append_left _ _)
      (references_push manager managed keyId).symm.subset
  · rw [references_revokeKey]
    exact List.Subset.refl _

/-- An operation that returns a reference stores it. -/
theorem mem_references_of_reply {manager : KeyManager} {operation : KeyOperation}
    {reference : KeyMaterialRef}
    (h : (step sha256 checks manager operation).1 = .ok (some reference)) :
    reference ∈ (step sha256 checks manager operation).2.references reference.keyId := by
  by_cases mayIssue : operation.MayIssue
  · obtain ⟨fault, hfail⟩ | ⟨issued, key, hissue, -, hkey, -⟩ :=
      step_of_mayIssue sha256 checks manager mayIssue
    · rw [hfail] at h
      cases h
    · rw [hissue] at h ⊢
      cases h
      refine (references_push manager key reference.keyId).symm.subset
        (List.mem_append_right _ ?_)
      rw [hkey, if_pos rfl]
      exact List.mem_cons_self
  · cases operation with
    | addAccessPolicy policy => cases h
    | revokeKey keyId version => exact absurd h (Outcome.map_none_ne_some _ reference)
    | generateKey => exact absurd trivial mayIssue
    | rotateKey => exact absurd trivial mayIssue

/-- Every reference that a run returned is stored after it. -/
theorem mem_references_of_mem_history {manager : KeyManager} {operations : List KeyOperation}
    {call : KeyOperation × SecurityOutcome (Option KeyMaterialRef)}
    (hcall : call ∈ history (step sha256 checks) manager operations)
    {reference : KeyMaterialRef} (hreply : call.2 = .ok (some reference)) :
    reference ∈ (after (step sha256 checks) manager operations).references reference.keyId := by
  refine @history_preserves _ _ _ (step sha256 checks)
    (fun past reached => ∀ call ∈ past, ∀ reference, call.2 = .ok (some reference) →
      reference ∈ reached.references reference.keyId)
    (fun past reached operation recorded => ?_) manager (by simp) operations call hcall reference
    hreply
  intro call hcall reference hreply
  rcases List.mem_append.mp hcall with hpast | hlast
  · exact references_subset_step sha256 checks reached operation _
      (recorded call hpast reference hreply)
  · rw [List.mem_singleton.mp hlast] at hreply
    exact mem_references_of_reply sha256 checks hreply

/-! ## Rotation -/

theorem Sorted.version_le {manager : KeyManager} (sorted : manager.Sorted) {keyId : String}
    {latest : ManagedKey} (hlatest : (manager.bucket keyId).getLast? = some latest)
    {reference : KeyMaterialRef} (hreference : reference ∈ manager.references keyId) :
    reference.version ≤ latest.reference.version := by
  obtain ⟨key, hkey, rfl⟩ := List.mem_map.mp hreference
  exact UInt32.le_iff_toNat_le.mpr
    (key_le_of_getLast? (fun key : ManagedKey => key.reference.version.toNat) (sorted keyId)
      hlatest hkey)

/-- A key with the version after the last one goes to the end of its bucket. -/
theorem Sorted.bucket_push_next {manager : KeyManager} (sorted : manager.Sorted)
    {latest managed : ManagedKey}
    (hlatest : (manager.bucket managed.reference.keyId).getLast? = some latest)
    (hnext : managed.reference.version = latest.reference.version + 1)
    (hpositive : latest.reference.version + 1 ≠ 0) (keyId : String) :
    (manager.push managed).bucket keyId =
      manager.bucket keyId ++ if keyId = managed.reference.keyId then [managed] else [] := by
  rw [bucket_push]
  by_cases here : keyId = managed.reference.keyId
  · subst here
    rw [if_pos rfl, if_pos rfl]
    refine sortByKey_concat _ (sorted _) fun key hkey => ?_
    have hle := key_le_of_getLast? (fun key : ManagedKey => key.reference.version.toNat)
      (sorted managed.reference.keyId) hlatest hkey
    rw [hnext, toNat_add_one_of_ne_zero hpositive]
    omega
  · rw [if_neg (Ne.symm here), if_neg here, List.append_nil]

/-- In every state that a manager reaches, buckets are sorted and not empty. A rotation
that succeeds issues exactly one more than the highest version of its bucket, which no
earlier call issued, and adds one entry. A rotation that fails changes nothing. -/
theorem rotateKey_issues_next {rotationPolicy : KeyRotationPolicy} {manager reached : KeyManager}
    (hnew : new rotationPolicy = .ok manager) (operations : List KeyOperation)
    (hreached : after (step sha256 checks) manager operations = reached) (keyId : String)
    (day : UInt32) (seed : UInt64) :
    (reached.Occupied ∧ reached.Sorted) ∧
    (∀ reference, (rotateKey sha256 checks reached keyId day seed).1 = .ok reference →
      reference.keyId = keyId ∧
      (∃ latest ∈ reached.references keyId,
        (∀ stored ∈ reached.references keyId, stored.version ≤ latest.version) ∧
          reference.version.toNat = latest.version.toNat + 1) ∧
      (∀ call ∈ history (step sha256 checks) manager operations, ∀ issued,
        call.2 = .ok (some issued) → issued.keyId = keyId →
          issued.version ≠ reference.version) ∧
      ∃ key, key.reference = reference ∧
        ∀ other, (rotateKey sha256 checks reached keyId day seed).2.bucket other =
          reached.bucket other ++ if other = keyId then [key] else []) ∧
    ∀ fault, (rotateKey sha256 checks reached keyId day seed).1 = .error fault →
      (rotateKey sha256 checks reached keyId day seed).2 = reached := by
  have occupied := occupied_after_new sha256 checks hnew operations
  have sorted := sorted_after_new sha256 checks hnew operations
  rw [hreached] at occupied sorted
  refine ⟨⟨occupied, sorted⟩, ?_⟩
  obtain ⟨fault, hfail⟩ | ⟨latest, hlatest, hpositive, hissue⟩ :=
    rotateKey_cases sha256 checks reached keyId day seed
  · rw [hfail]
    exact ⟨nofun, fun _ _ => rfl⟩
  · rw [hissue]
    refine ⟨fun reference hreference => ?_, nofun⟩
    cases hreference
    have hversion := toNat_add_one_of_ne_zero hpositive
    refine ⟨rfl, ⟨latest.reference, List.mem_map_of_mem (List.mem_of_getLast? hlatest), ?_,
      hversion⟩, ?_, issuedKey sha256 reached.rotationPolicy _ day seed, rfl, ?_⟩
    · exact fun stored hstored => sorted.version_le hlatest hstored
    · intro call hcall issued hreply hkeyId same
      have hissued := mem_references_of_mem_history sha256 checks hcall hreply
      rw [hreached, hkeyId] at hissued
      have hle := UInt32.le_iff_toNat_le.mp (sorted.version_le hlatest hissued)
      rw [same, hversion] at hle
      omega
    · exact sorted.bucket_push_next hlatest rfl hpositive

theorem rotateKey_issues_next_encryptionKey :
    ∃ key : ManagedKey, key.reference = ⟨"model-key", 2, .encryption⟩ ∧
      ∀ other, (rotateKey Sha256.hash .on (after (step Sha256.hash .on) monthly
          encryptionKeyIssued) "model-key" 30 99).2.bucket other =
        (after (step Sha256.hash .on) monthly encryptionKeyIssued).bucket other ++
          if other = "model-key" then [key] else [] := by
  have created : new ⟨30, 7⟩ = .ok monthly := rfl
  have all := rotateKey_issues_next Sha256.hash .on created encryptionKeyIssued rfl "model-key" 30
    99
  exact (all.2.1 ⟨"model-key", 2, .encryption⟩ (by rfl)).2.2.2

end LiteLlmSecurity.KeyManager
