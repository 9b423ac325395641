import LiteLlmSecurity.KeyManagement.Access

/-!
# What an unauthorized identity learns

Authorization comes before every look at the keys and reads the policies only, and
only `addAccessPolicy` writes these. A refused identity therefore gets an answer
that the policies alone determine: whether a key exists, which versions it has and
whether they are revoked or expired makes no difference to it.
-/

namespace LiteLlmSecurity

open Rust Machine

/-- The policy that an operation sets, if it sets one. -/
def KeyOperation.policySet : KeyOperation → Option KeyAccessPolicy
  | .addAccessPolicy policy => some policy
  | .generateKey .. => none
  | .rotateKey .. => none
  | .revokeKey .. => none

namespace KeyManager

variable (sha256 : Bytes → Vector UInt8 32) {checks checks' : OverflowChecks}

/-! ## Policies and keys are apart -/

/-- A step sets the policy of its operation and no other. -/
theorem policies_step (manager : KeyManager) (operation : KeyOperation) :
    (step sha256 checks manager operation).2.policies =
      operation.policySet.toList.foldl
        (fun policies policy => policies.insert policy.identity policy) manager.policies := by
  by_cases mayIssue : operation.MayIssue
  · have unset : operation.policySet = none := by
      cases operation <;> first | rfl | exact mayIssue.elim
    rw [unset]
    obtain ⟨fault, hfail⟩ | ⟨reference, key, hissue, -⟩ :=
      step_of_mayIssue sha256 checks manager mayIssue
    · rw [hfail]
      rfl
    · rw [hissue]
      exact policies_push manager key
  · cases operation with
    | addAccessPolicy policy => rfl
    | revokeKey keyId version => exact policies_revokeKey manager keyId version
    | generateKey => exact absurd trivial mayIssue
    | rotateKey => exact absurd trivial mayIssue

/-- The policies after a run are those that its `addAccessPolicy` calls set. -/
theorem policies_after (manager : KeyManager) (operations : List KeyOperation) :
    (after (step sha256 checks) manager operations).policies =
      (operations.filterMap KeyOperation.policySet).foldl
        (fun policies policy => policies.insert policy.identity policy) manager.policies :=
  projects_after (policies_step sha256) manager operations

theorem policies_new {rotationPolicy : KeyRotationPolicy} {manager : KeyManager}
    (hnew : new rotationPolicy = .ok manager) : manager.policies = ∅ := by
  rw [eq_of_new hnew]

/-! ## Refusals -/

/-- Authorization reads the policies only. -/
theorem authorize_congr {manager manager' : KeyManager}
    (same : manager'.policies = manager.policies) (identity : String)
    (reference : KeyMaterialRef) :
    manager'.authorize identity reference = manager.authorize identity reference := by
  rw [authorize, authorize, same]

/-- A refused identity gets the error of authorization, whatever the keys are. -/
theorem retrieveKey_of_unauthorized {manager : KeyManager} {identity : String}
    {reference : KeyMaterialRef}
    (unauthorized : ¬ ∃ policy, manager.policies[identity]? = some policy ∧
      policy.Admits reference.keyId reference.kind) :
    ∃ error, ∀ (later : KeyManager) (checks : OverflowChecks) (day : UInt32),
      later.policies = manager.policies →
        retrieveKey checks later identity reference day = .error (.err error) := by
  cases authorized : manager.authorize identity reference with
  | ok =>
      have admitted := (authorize_eq_ok_iff manager identity reference).mp authorized
      exact absurd admitted unauthorized
  | error error =>
      refine ⟨error, fun later checks day same => ?_⟩
      have refused := (authorize_congr same identity reference).trans authorized
      simp only [retrieveKey, refused]

/-- Two runs that set the same policies in the same order, from fresh managers and
with any other operations between, refuse an unauthorized identity with one error.
The managers may have different rotation policies and builds. -/
theorem retrieveKey_unauthorized_same {rotationPolicy rotationPolicy' : KeyRotationPolicy}
    {manager manager' : KeyManager} (hnew : new rotationPolicy = .ok manager)
    (hnew' : new rotationPolicy' = .ok manager') (operations operations' : List KeyOperation)
    (same : operations'.filterMap KeyOperation.policySet =
      operations.filterMap KeyOperation.policySet)
    (identity : String) (reference : KeyMaterialRef) (day : UInt32)
    (unauthorized : ¬ ∃ policy,
      (after (step sha256 checks) manager operations).policies[identity]? = some policy ∧
        policy.Admits reference.keyId reference.kind) :
    ∃ error,
      retrieveKey checks (after (step sha256 checks) manager operations) identity reference day =
          .error (.err error) ∧
        retrieveKey checks' (after (step sha256 checks') manager' operations') identity reference
          day = .error (.err error) := by
  have policies : (after (step sha256 checks') manager' operations').policies =
      (after (step sha256 checks) manager operations).policies := by
    rw [policies_after, policies_after, policies_new hnew, policies_new hnew', same]
  obtain ⟨error, refused⟩ := retrieveKey_of_unauthorized unauthorized
  exact ⟨error, refused _ checks day rfl, refused _ checks' day policies⟩

/-- The policy of `signingKeyIssued` without its key. -/
def noKeyIssued : List KeyOperation :=
  [.addAccessPolicy ⟨"loader", {"model-key"}, {.encryption}⟩]

/-- Asking for a signature key tells the loader nothing about whether there is one. -/
theorem retrieveKey_unauthorized_same_loader :
    ∃ error,
      retrieveKey .on (after (step Sha256.hash .on) monthly signingKeyIssued) "loader"
          ⟨"model-key", 1, .signature⟩ 1 = .error (.err error) ∧
        retrieveKey .off (after (step Sha256.hash .off) ⟨⟨60, 14⟩, ∅, ∅⟩ noKeyIssued) "loader"
          ⟨"model-key", 1, .signature⟩ 1 = .error (.err error) := by
  have created : new ⟨30, 7⟩ = .ok monthly := rfl
  have created' : new ⟨60, 14⟩ = .ok ⟨⟨60, 14⟩, ∅, ∅⟩ := rfl
  have hset : (after (step Sha256.hash .on) monthly signingKeyIssued).policies["loader"]? =
      some ⟨"loader", {"model-key"}, {.encryption}⟩ := by rfl
  refine retrieveKey_unauthorized_same Sha256.hash created created' signingKeyIssued noKeyIssued
    rfl "loader" ⟨"model-key", 1, .signature⟩ 1 ?_
  rintro ⟨policy, hpolicy, -, hkind⟩
  rw [hset] at hpolicy
  cases hpolicy
  exact absurd hkind (by decide)

end KeyManager

end LiteLlmSecurity
