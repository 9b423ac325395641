import LiteLlmSecurity.Sandbox.Grant

/-!
# The lifetime of a fresh token

A token should work from the step of its grant to the end of the lifetime that the
caller asked for. The expiry is an unchecked sum of the two. While it fits, the token
does work on all of these steps. When it does not, the grant panics in a build with
overflow checks, and in a build without them the token has expired when it is granted.
-/

namespace LiteLlmSecurity.SandboxRuntime

open Rust Machine

variable (checks : OverflowChecks)

/-- A grant returns a token that expires at the exact end of the lifetime, and right after
it the token passes every check of a granted capability on every step of the lifetime. -/
def WorksThroughout (runtime : SandboxRuntime) (pluginId : String)
    (capabilities : Finset Capability) (nowStep ttlSteps seed : UInt64) : Prop :=
  ∃ token,
    (grantCapabilities checks runtime pluginId capabilities nowStep ttlSteps seed).1 =
      .ok token ∧
    token.expiresStep.toNat = nowStep.toNat + ttlSteps.toNat ∧
    ∀ capability ∈ capabilities, ∀ step, nowStep ≤ step →
      step.toNat ≤ nowStep.toNat + ttlSteps.toNat →
        validateCapability
          (grantCapabilities checks runtime pluginId capabilities nowStep ttlSteps seed).2
          token.tokenId pluginId capability step = .ok ()

/-- What a grant stores is found under its id. -/
theorem tokens_grantCapabilities_self {pluginId : String} {nowStep ttlSteps : UInt64}
    (succeeds : ¬ GrantFails checks pluginId nowStep ttlSteps) (runtime : SandboxRuntime)
    (capabilities : Finset Capability) (seed : UInt64) :
    (grantCapabilities checks runtime pluginId capabilities nowStep ttlSteps seed).2.tokens[
        tokenIdOf pluginId nowStep ttlSteps seed]? =
      some (grantedToken pluginId capabilities nowStep ttlSteps seed) := by
  rw [tokens_grantCapabilities, if_neg (by simpa using succeeds)]

/-- A token works throughout its lifetime exactly when the end of the lifetime fits. -/
theorem worksThroughout_iff_fits (runtime : SandboxRuntime) {pluginId : String}
    (capabilities : Finset Capability) {nowStep ttlSteps : UInt64} (seed : UInt64)
    (named : trim pluginId ≠ "") (positive : ttlSteps ≠ 0) :
    WorksThroughout checks runtime pluginId capabilities nowStep ttlSteps seed ↔
      nowStep.toNat + ttlSteps.toNat < 2 ^ 64 := by
  constructor
  · rintro ⟨token, -, hexpires, -⟩
    rw [← hexpires]
    exact token.expiresStep.toNat_lt
  · intro fits
    have succeeds : ¬ GrantFails checks pluginId nowStep ttlSteps := by
      rintro (blank | zero | ⟨-, overflow⟩)
      · exact named blank
      · exact positive zero
      · exact overflow fits
    have hexpires : (nowStep + ttlSteps).toNat = nowStep.toNat + ttlSteps.toNat := by
      rw [UInt64.toNat_add, Nat.mod_eq_of_lt fits]
    refine ⟨grantedToken pluginId capabilities nowStep ttlSteps seed, ?_, hexpires, ?_⟩
    · rw [grantCapabilities_of_not_fails checks succeeds]
    · intro capability hcapability step _ hstep
      have hstored := tokens_grantCapabilities_self checks succeeds runtime capabilities seed
      refine (validateCapability_of_stored hstored _ _ _).trans
        ((checkToken_eq_ok_iff _ _ _ _).mpr ⟨rfl, hcapability, ?_⟩)
      show step ≤ nowStep + ttlSteps
      rwa [UInt64.le_iff_toNat_le, hexpires]

/-- In every state that a runtime reaches, a grant whose arguments pass its checks gives a
token that works throughout its lifetime, exactly when the end of the lifetime fits. -/
theorem worksThroughout_after_iff (operations : List SandboxOperation) (pluginId : String)
    (capabilities : Finset Capability) (nowStep ttlSteps seed : UInt64)
    (named : trim pluginId ≠ "") (positive : ttlSteps ≠ 0) :
    WorksThroughout checks (after (step checks) empty operations) pluginId capabilities nowStep
        ttlSteps seed ↔
      nowStep.toNat + ttlSteps.toNat < 2 ^ 64 :=
  worksThroughout_iff_fits checks _ capabilities seed named positive

theorem worksThroughout_after_grant :
    WorksThroughout .on (after (SandboxRuntime.step .on) empty
        [.grantCapabilities "plugin-a" {.readTensor} 10 5 1]) "plugin-a" {.network} 11 5 2 ↔
      (11 : UInt64).toNat + (5 : UInt64).toNat < 2 ^ 64 :=
  worksThroughout_after_iff .on [.grantCapabilities "plugin-a" {.readTensor} 10 5 1] "plugin-a"
    {.network} 11 5 2 (by decide) (by decide)

/-- A token that is meant never to expire panics in one build and is dead on arrival in
the other. -/
theorem endless_token_dead :
    (grantCapabilities .on empty "plugin-a" {.readTensor} 10 0xffffffffffffffff 1).1 =
        .error .panic ∧
      validateCapability
          (grantCapabilities .off empty "plugin-a" {.readTensor} 10 0xffffffffffffffff 1).2
          (tokenIdOf "plugin-a" 10 0xffffffffffffffff 1) "plugin-a" .readTensor 10 =
        .error (.sandboxDenied "capability token is expired") ∧
      ∀ checks, ¬ ∀ operations, WorksThroughout checks
        (after (SandboxRuntime.step checks) empty operations) "plugin-a" {.readTensor} 10
        0xffffffffffffffff 1 := by
  have succeeds : ¬ GrantFails .off "plugin-a" 10 0xffffffffffffffff := by decide
  have hstored := tokens_grantCapabilities_self .off succeeds empty {.readTensor} 1
  refine ⟨by rfl, ?_, fun checks claim => ?_⟩
  · exact (validateCapability_of_stored hstored _ _ _).trans (by rfl)
  · have fits := (worksThroughout_iff_fits checks _ _ _ (by decide) (by decide)).mp (claim [])
    exact absurd fits (by decide)

end LiteLlmSecurity.SandboxRuntime
