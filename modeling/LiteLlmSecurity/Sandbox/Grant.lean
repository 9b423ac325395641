import LiteLlmSecurity.Collection.LastWrite
import LiteLlmSecurity.Machine.Run
import LiteLlmSecurity.Sandbox.Runtime
import Mathlib.Data.Set.Prod

/-!
# What a further grant does to a token already handed out

The tokens of a runtime are last-write-wins registers under their ids. The id is
computed from the plugin, the step, the lifetime and the seed of a grant, not
from its capabilities, and is a 64-bit hash besides. So a further grant may
replace an earlier token: that one then has the later grant's plugin, capabilities
and expiry.
-/

namespace LiteLlmSecurity

open Rust Machine LastWrite

/-- What a token permits: a plugin, a capability and a step. -/
def CapabilityToken.permissions (token : CapabilityToken) :
    Set (String × Capability × UInt64) :=
  {token.pluginId} ×ˢ (token.capabilities : Set Capability) ×ˢ {step | step ≤ token.expiresStep}

/-- Whether two tokens have the same plugin, capabilities and expiry. -/
def CapabilityToken.SameGrant (token other : CapabilityToken) : Prop :=
  token.pluginId = other.pluginId ∧ token.capabilities = other.capabilities ∧
    token.expiresStep = other.expiresStep

/-- Tokens permit the same exactly when they are the same grant, or permit
nothing. -/
theorem CapabilityToken.permissions_eq_iff (token other : CapabilityToken) :
    token.permissions = other.permissions ↔
      token.SameGrant other ∨ token.capabilities = ∅ ∧ other.capabilities = ∅ := by
  have nonempty : ∀ last : UInt64, {step : UInt64 | step ≤ last} ≠ ∅ := by
    intro last h
    have hlast : last ∈ {step : UInt64 | step ≤ last} := UInt64.le_refl last
    rw [h] at hlast
    exact hlast
  have same : ∀ last last' : UInt64,
      {step : UInt64 | step ≤ last} = {step | step ≤ last'} ↔ last = last' := by
    intro last last'
    constructor
    · intro h
      have forward : last ∈ {step | step ≤ last'} := h ▸ UInt64.le_refl last
      have backward : last' ∈ {step | step ≤ last} := h ▸ UInt64.le_refl last'
      exact UInt64.le_antisymm forward backward
    · rintro rfl
      rfl
  simp only [permissions, Set.prod_eq_prod_iff, Set.singleton_eq_singleton_iff,
    Set.singleton_ne_empty, false_or, Set.prod_eq_empty_iff, Finset.coe_eq_empty, nonempty,
    or_false, Finset.coe_inj, same, SameGrant]
  constructor
  · rintro (⟨plugin, grant | incapable⟩ | incapable)
    · exact .inl ⟨plugin, grant⟩
    · exact .inr incapable
    · exact .inr incapable
  · rintro (⟨plugin, grant⟩ | incapable)
    · exact .inl ⟨plugin, .inl grant⟩
    · exact .inr incapable

namespace SandboxRuntime

variable (checks : OverflowChecks)

/-! ## Checking a token -/

/-- The results of a check, in the order of its tests. -/
theorem checkToken_cases (token : CapabilityToken) (pluginId : String) (capability : Capability)
    (nowStep : UInt64) :
    (token.pluginId ≠ pluginId ∧ checkToken token pluginId capability nowStep =
        .error (.sandboxDenied "token does not belong to plugin")) ∨
      token.pluginId = pluginId ∧
        ((token.expiresStep < nowStep ∧ checkToken token pluginId capability nowStep =
            .error (.sandboxDenied "capability token is expired")) ∨
          ¬ token.expiresStep < nowStep ∧
            ((capability ∉ token.capabilities ∧ checkToken token pluginId capability nowStep =
                .error (.sandboxDenied s!"missing capability {capability.debug}")) ∨
              capability ∈ token.capabilities ∧
                checkToken token pluginId capability nowStep = .ok ())) := by
  by_cases plugin : token.pluginId = pluginId
  · refine .inr ⟨plugin, ?_⟩
    by_cases expired : token.expiresStep < nowStep
    · exact .inl ⟨expired, by simp [checkToken, plugin, expired]⟩
    · refine .inr ⟨expired, ?_⟩
      by_cases capable : capability ∈ token.capabilities
      · exact .inr ⟨capable, by simp [checkToken, plugin, expired, capable]⟩
      · exact .inl ⟨capable, by simp [checkToken, plugin, expired, capable]⟩
  · exact .inl ⟨plugin, by simp [checkToken, plugin]⟩

/-- The text about a capability is none of the other two. -/
theorem missing_capability_ne (capability : Capability) :
    s!"missing capability {capability.debug}" ≠ "token does not belong to plugin" ∧
      s!"missing capability {capability.debug}" ≠ "capability token is expired" := by
  cases capability <;> decide

theorem mem_permissions_iff (token : CapabilityToken) (pluginId : String)
    (capability : Capability) (nowStep : UInt64) :
    (pluginId, capability, nowStep) ∈ token.permissions ↔
      token.pluginId = pluginId ∧ capability ∈ token.capabilities ∧
        ¬ token.expiresStep < nowStep := by
  simp [CapabilityToken.permissions, UInt64.not_lt, eq_comm]

theorem checkToken_eq_ok_iff (token : CapabilityToken) (pluginId : String)
    (capability : Capability) (nowStep : UInt64) :
    checkToken token pluginId capability nowStep = .ok () ↔
      (pluginId, capability, nowStep) ∈ token.permissions := by
  rw [mem_permissions_iff]
  obtain ⟨foreign, h⟩ | ⟨plugin, ⟨expired, h⟩ | ⟨inTime, ⟨incapable, h⟩ | ⟨capable, h⟩⟩⟩ :=
    checkToken_cases token pluginId capability nowStep
  · simp [h, foreign]
  · simp [h, expired]
  · simp [h, incapable]
  · simp [h, plugin, inTime, capable]

theorem checkToken_eq_foreign_iff (token : CapabilityToken) (pluginId : String)
    (capability : Capability) (nowStep : UInt64) :
    checkToken token pluginId capability nowStep =
        .error (.sandboxDenied "token does not belong to plugin") ↔
      token.pluginId ≠ pluginId := by
  obtain ⟨foreign, h⟩ | ⟨plugin, ⟨-, h⟩ | ⟨-, ⟨-, h⟩ | ⟨-, h⟩⟩⟩ :=
    checkToken_cases token pluginId capability nowStep
  · simp [h, foreign]
  · simp [h, plugin]
  · simpa [h, plugin] using (missing_capability_ne capability).1
  · simp [h, plugin]

theorem checkToken_eq_expired_iff (token : CapabilityToken) (capability : Capability)
    (nowStep : UInt64) :
    checkToken token token.pluginId capability nowStep =
        .error (.sandboxDenied "capability token is expired") ↔
      token.expiresStep < nowStep := by
  obtain ⟨foreign, -⟩ | ⟨-, ⟨expired, h⟩ | ⟨inTime, ⟨-, h⟩ | ⟨-, h⟩⟩⟩ :=
    checkToken_cases token token.pluginId capability nowStep
  · exact absurd rfl foreign
  · simp [h, expired]
  · simpa [h, inTime] using (missing_capability_ne capability).2
  · simp [h, inTime]

/-- Two tokens are checked with the same results exactly when they are the same
grant. -/
theorem checkToken_eq_iff (token other : CapabilityToken) :
    (∀ pluginId capability nowStep, checkToken token pluginId capability nowStep =
      checkToken other pluginId capability nowStep) ↔ token.SameGrant other := by
  constructor
  · intro same
    have permitted : token.permissions = other.permissions := by
      ext ⟨pluginId, capability, nowStep⟩
      rw [← checkToken_eq_ok_iff, ← checkToken_eq_ok_iff, same]
    have plugin : token.pluginId = other.pluginId := by
      by_contra foreign
      have h := (checkToken_eq_foreign_iff other token.pluginId .network 0).mpr (Ne.symm foreign)
      rw [← same] at h
      exact (checkToken_eq_foreign_iff token token.pluginId .network 0).mp h rfl
    refine ((token.permissions_eq_iff other).mp permitted).elim id fun incapable => ?_
    have expiry : ∀ nowStep, token.expiresStep < nowStep ↔ other.expiresStep < nowStep := by
      intro nowStep
      rw [← checkToken_eq_expired_iff token .network, ← checkToken_eq_expired_iff other .network,
        ← plugin, same]
    refine ⟨plugin, incapable.1.trans incapable.2.symm, UInt64.le_antisymm ?_ ?_⟩
    · exact UInt64.not_lt.mp fun h => UInt64.lt_irrefl _ ((expiry _).mpr h)
    · exact UInt64.not_lt.mp fun h => UInt64.lt_irrefl _ ((expiry _).mp h)
  · rintro ⟨plugin, capable, expiry⟩ pluginId capability nowStep
    simp only [checkToken, plugin, capable, expiry]

/-! ## Tokens as registers -/

/-- The tokens of a runtime, by id. -/
def table (runtime : SandboxRuntime) : Table String CapabilityToken :=
  fun tokenId => runtime.tokens[tokenId]?

/-- The event on the tokens that an operation amounts to, going by its reply. -/
def event : SandboxOperation × SecurityOutcome (Option CapabilityToken) →
    Option (Event String CapabilityToken)
  | (.grantCapabilities .., .ok (some token)) => some (.put token.tokenId token)
  | (.revokeToken tokenId, _) => some (.delete tokenId)
  | _ => none

/-- The arguments on which a grant fails. -/
def GrantFails (pluginId : String) (nowStep ttlSteps : UInt64) : Prop :=
  trim pluginId = "" ∨ ttlSteps = 0 ∨ checks = .on ∧ ¬ nowStep.toNat + ttlSteps.toNat < 2 ^ 64

/-- The token that a successful grant stores and returns. -/
def grantedToken (pluginId : String) (capabilities : Finset Capability)
    (nowStep ttlSteps seed : UInt64) : CapabilityToken where
  tokenId := tokenIdOf pluginId nowStep ttlSteps seed
  pluginId
  capabilities
  issuedStep := nowStep
  expiresStep := nowStep + ttlSteps

theorem grantCapabilities_of_fails {pluginId : String} {nowStep ttlSteps : UInt64}
    (fails : GrantFails checks pluginId nowStep ttlSteps) (runtime : SandboxRuntime)
    (capabilities : Finset Capability) (seed : UInt64) :
    ∃ fault, grantCapabilities checks runtime pluginId capabilities nowStep ttlSteps seed =
      (.error fault, runtime) := by
  by_cases blank : trim pluginId = ""
  · exact ⟨.err (.invalidInput "plugin_id must not be empty"), by simp [grantCapabilities, blank]⟩
  by_cases zero : ttlSteps = 0
  · exact ⟨.err (.invalidInput "ttl_steps must be greater than zero"),
      by simp [grantCapabilities, blank, zero]⟩
  have overflow := (fails.resolve_left blank).resolve_left zero
  have hpanic : addU64 (ε := SecurityError) checks nowStep ttlSteps = .error .panic := by
    rw [addU64, addWith, if_pos overflow]
  exact ⟨.panic, by simp only [grantCapabilities, if_neg blank, if_neg zero, hpanic]⟩

theorem grantCapabilities_of_not_fails {pluginId : String} {nowStep ttlSteps : UInt64}
    (succeeds : ¬ GrantFails checks pluginId nowStep ttlSteps) (runtime : SandboxRuntime)
    (capabilities : Finset Capability) (seed : UInt64) :
    grantCapabilities checks runtime pluginId capabilities nowStep ttlSteps seed =
      (.ok (grantedToken pluginId capabilities nowStep ttlSteps seed),
        { runtime with
          tokens := runtime.tokens.insert (tokenIdOf pluginId nowStep ttlSteps seed)
            (grantedToken pluginId capabilities nowStep ttlSteps seed) }) := by
  obtain ⟨blank, zero, fits⟩ : trim pluginId ≠ "" ∧ ttlSteps ≠ 0 ∧
      ¬ (checks = .on ∧ ¬ nowStep.toNat + ttlSteps.toNat < 2 ^ 64) := by
    simpa only [GrantFails, not_or] using succeeds
  have hsum : addU64 (ε := SecurityError) checks nowStep ttlSteps = .ok (nowStep + ttlSteps) := by
    rw [addU64, addWith, if_neg fits]
  simp only [grantCapabilities, if_neg blank, if_neg zero, hsum, grantedToken]

instance (pluginId : String) (nowStep ttlSteps : UInt64) :
    Decidable (GrantFails checks pluginId nowStep ttlSteps) :=
  inferInstanceAs (Decidable (_ ∨ _ ∨ _ ∧ _))

/-- One step of the runtime is one event on its tokens, or none. -/
theorem table_step (runtime : SandboxRuntime) (operation : SandboxOperation) :
    (step checks runtime operation).2.table =
      applyAll runtime.table (event (operation, (step checks runtime operation).1)).toList := by
  cases operation with
  | configure config =>
      simp only [step, configure]
      split <;> rfl
  | grantCapabilities pluginId capabilities nowStep ttlSteps seed =>
      by_cases fails : GrantFails checks pluginId nowStep ttlSteps
      · obtain ⟨fault, hfault⟩ := grantCapabilities_of_fails checks fails runtime capabilities seed
        simp [step, hfault, event, Except.map]
      · funext tokenId
        simp only [step, grantCapabilities_of_not_fails checks fails, event, Prod.map, Except.map,
          table, apply, applyAll_cons, applyAll_nil, Option.toList, grantedToken, id,
          Std.ExtTreeMap.getElem?_insert, Function.update_apply]
        simp [eq_comm (a := tokenId)]
  | recordUsage pluginId usage =>
      simp only [step, recordUsage]
      split
      · rfl
      · split
        · rfl
        · split <;> rfl
  | revokeToken tokenId =>
      funext other
      simp only [step, revokeToken, event, table, apply, applyAll_cons, applyAll_nil,
        Option.toList, Std.ExtTreeMap.getElem?_erase, Function.update_apply]
      simp [eq_comm (a := other)]

/-- The tokens after a run are what the run's events make of them. -/
theorem table_after (runtime : SandboxRuntime) (operations : List SandboxOperation) :
    (after (step checks) runtime operations).table =
      applyAll runtime.table ((history (step checks) runtime operations).filterMap event) :=
  refines_after (P := fun _ => True) (fun _ _ _ => trivial)
    (fun later operation _ => table_step checks later operation) trivial operations

/-! ## A further grant -/

theorem eq_revokeToken_of_event {operation : SandboxOperation} {tokenId : String}
    {reply : SecurityOutcome (Option CapabilityToken)}
    (h : event (operation, reply) = some (.delete tokenId)) :
    operation = .revokeToken tokenId := by
  cases operation with
  | configure => cases h
  | recordUsage => cases h
  | grantCapabilities =>
      unfold event at h
      split at h <;> simp_all
  | revokeToken other =>
      cases h
      rfl

/-- A token that was granted and not revoked since is still stored, under
whatever later grants made of it. -/
theorem exists_stored_after {earlier later : List SandboxOperation} {pluginId : String}
    {capabilities : Finset Capability} {nowStep ttlSteps seed : UInt64} {token : CapabilityToken}
    (hgrant : (grantCapabilities checks (after (step checks) empty earlier) pluginId capabilities
      nowStep ttlSteps seed).1 = .ok token)
    (hkept : ∀ operation ∈ later, operation ≠ .revokeToken token.tokenId) :
    ∃ stored, (after (step checks) empty (earlier ++
      .grantCapabilities pluginId capabilities nowStep ttlSteps seed :: later)).tokens[
        token.tokenId]? = some stored := by
  rw [after_append, after_cons]
  by_cases fails : GrantFails checks pluginId nowStep ttlSteps
  · obtain ⟨fault, hfault⟩ := grantCapabilities_of_fails checks fails
      (after (step checks) empty earlier) capabilities seed
    rw [hfault] at hgrant
    cases hgrant
  · have hissued := grantCapabilities_of_not_fails checks fails
      (after (step checks) empty earlier) capabilities seed
    rw [hissued] at hgrant
    cases hgrant
    simp only [step, hissued, Prod.map, id]
    generalize hstart : SandboxRuntime.mk _ _ _ = start
    have occupied : (start.table (tokenIdOf pluginId nowStep ttlSteps seed)).isSome := by
      rw [← hstart]
      simp [table]
    rw [← Option.isSome_iff_exists]
    have kept : ∀ change ∈ (history (step checks) start later).filterMap event,
        change ≠ .delete (tokenIdOf pluginId nowStep ttlSteps seed) := by
      intro change hchange hdelete
      obtain ⟨⟨operation, reply⟩, hentry, hevent⟩ := List.mem_filterMap.mp hchange
      exact hkept operation (mem_of_mem_history _ hentry)
        (eq_revokeToken_of_event (hevent.trans (congrArg some hdelete)))
    have remains := isSome_applyAll occupied kept
    rwa [← table_after] at remains

theorem validateCapability_of_stored {runtime : SandboxRuntime} {tokenId : String}
    {token : CapabilityToken} (hstored : runtime.tokens[tokenId]? = some token)
    (pluginId : String) (capability : Capability) (nowStep : UInt64) :
    validateCapability runtime tokenId pluginId capability nowStep =
      checkToken token pluginId capability nowStep := by
  simp only [validateCapability, hstored]

/-- A grant leaves a stored token alone when it fails or takes another id, and
otherwise puts its own token in that place. -/
theorem tokens_grantCapabilities (runtime : SandboxRuntime) (pluginId : String)
    (capabilities : Finset Capability) (nowStep ttlSteps seed : UInt64) (tokenId : String) :
    (grantCapabilities checks runtime pluginId capabilities nowStep ttlSteps seed).2.tokens[
        tokenId]? =
      if GrantFails checks pluginId nowStep ttlSteps ∨
          tokenIdOf pluginId nowStep ttlSteps seed ≠ tokenId then
        runtime.tokens[tokenId]?
      else some (grantedToken pluginId capabilities nowStep ttlSteps seed) := by
  by_cases fails : GrantFails checks pluginId nowStep ttlSteps
  · obtain ⟨fault, hfault⟩ := grantCapabilities_of_fails checks fails runtime capabilities seed
    rw [hfault, if_pos (.inl fails)]
  · rw [grantCapabilities_of_not_fails checks fails]
    by_cases same : tokenIdOf pluginId nowStep ttlSteps seed = tokenId
    · simp [fails, same]
    · simp [fails, same, Std.ExtTreeMap.getElem?_insert]

/-- After any run in which a token was granted and not revoked since, and any
further grant: every check of the earlier token has the same result as before
exactly when the further grant fails, has another token id, or is the same grant
as the token stored there. For the checks to agree in whether they succeed, both
tokens may also be without capabilities. -/
theorem validateCapability_grant_iff {earlier later : List SandboxOperation} {pluginId : String}
    {capabilities : Finset Capability} {nowStep ttlSteps seed : UInt64} {token : CapabilityToken}
    {reached : SandboxRuntime}
    (hgrant : (grantCapabilities checks (after (step checks) empty earlier) pluginId capabilities
      nowStep ttlSteps seed).1 = .ok token)
    (hkept : ∀ operation ∈ later, operation ≠ .revokeToken token.tokenId)
    (hreached : after (step checks) empty (earlier ++
      .grantCapabilities pluginId capabilities nowStep ttlSteps seed :: later) = reached)
    (pluginId' : String) (capabilities' : Finset Capability) (nowStep' ttlSteps' seed' : UInt64) :
    ((∀ plugin capability step,
        validateCapability (grantCapabilities checks reached pluginId' capabilities' nowStep'
            ttlSteps' seed').2 token.tokenId plugin capability step =
          validateCapability reached token.tokenId plugin capability step) ↔
      GrantFails checks pluginId' nowStep' ttlSteps' ∨
        tokenIdOf pluginId' nowStep' ttlSteps' seed' ≠ token.tokenId ∨
        ∃ stored, reached.tokens[token.tokenId]? = some stored ∧
          stored.SameGrant (grantedToken pluginId' capabilities' nowStep' ttlSteps' seed')) ∧
    ((∀ plugin capability step,
        validateCapability (grantCapabilities checks reached pluginId' capabilities' nowStep'
            ttlSteps' seed').2 token.tokenId plugin capability step = .ok () ↔
          validateCapability reached token.tokenId plugin capability step = .ok ()) ↔
      GrantFails checks pluginId' nowStep' ttlSteps' ∨
        tokenIdOf pluginId' nowStep' ttlSteps' seed' ≠ token.tokenId ∨
        ∃ stored, reached.tokens[token.tokenId]? = some stored ∧
          (stored.SameGrant (grantedToken pluginId' capabilities' nowStep' ttlSteps' seed') ∨
            stored.capabilities = ∅ ∧ capabilities' = ∅)) := by
  obtain ⟨stored, hstored⟩ := exists_stored_after checks hgrant hkept
  rw [hreached] at hstored
  have hfurther := tokens_grantCapabilities checks reached pluginId' capabilities' nowStep'
    ttlSteps' seed' token.tokenId
  by_cases untouched : GrantFails checks pluginId' nowStep' ttlSteps' ∨
      tokenIdOf pluginId' nowStep' ttlSteps' seed' ≠ token.tokenId
  · rw [if_pos untouched, hstored] at hfurther
    simp only [validateCapability_of_stored hstored, validateCapability_of_stored hfurther,
      implies_true, true_iff, ← or_assoc]
    exact ⟨.inl untouched, .inl untouched⟩
  · rw [if_neg untouched] at hfurther
    simp only [validateCapability_of_stored hstored, validateCapability_of_stored hfurther,
      ← or_assoc, untouched, false_or, hstored, Option.some.injEq, exists_eq_left']
    constructor
    · rw [← checkToken_eq_iff]
      simp only [eq_comm]
    · have permitted := stored.permissions_eq_iff
        (grantedToken pluginId' capabilities' nowStep' ttlSteps' seed')
      rw [show (grantedToken pluginId' capabilities' nowStep' ttlSteps' seed').capabilities =
        capabilities' from rfl] at permitted
      rw [← permitted, Set.ext_iff]
      simp only [Prod.forall, ← checkToken_eq_ok_iff, iff_comm]

theorem validateCapability_grant_otherPlugin :
    ((∀ plugin capability step,
        validateCapability (grantCapabilities .on (after (SandboxRuntime.step .on) empty
            [.grantCapabilities "plugin-a" {.readTensor} 10 5 1]) "plugin-b" {.network} 11 5 2).2
            (tokenIdOf "plugin-a" 10 5 1) plugin capability step =
          validateCapability (after (SandboxRuntime.step .on) empty
            [.grantCapabilities "plugin-a" {.readTensor} 10 5 1]) (tokenIdOf "plugin-a" 10 5 1)
            plugin capability step) ↔
      GrantFails .on "plugin-b" 11 5 ∨
        tokenIdOf "plugin-b" 11 5 2 ≠ tokenIdOf "plugin-a" 10 5 1 ∨
        ∃ stored, (after (SandboxRuntime.step .on) empty
            [.grantCapabilities "plugin-a" {.readTensor} 10 5 1]).tokens[
              tokenIdOf "plugin-a" 10 5 1]? = some stored ∧
          stored.SameGrant (grantedToken "plugin-b" {.network} 11 5 2)) := by
  have granted : (grantCapabilities .on (after (SandboxRuntime.step .on) empty []) "plugin-a"
      {.readTensor} 10 5 1).1 = .ok (grantedToken "plugin-a" {.readTensor} 10 5 1) := by rfl
  have kept : ∀ operation ∈ ([] : List SandboxOperation), operation ≠
      .revokeToken (grantedToken "plugin-a" {.readTensor} 10 5 1).tokenId := by simp
  exact (validateCapability_grant_iff .on granted kept rfl "plugin-b" {.network} 11 5 2).1

/-- A grant with other capabilities and otherwise the same arguments takes the
earlier token's id, and its capabilities with it. -/
theorem regrant_changes_earlier_token :
    ¬ ∀ plugin capability step,
      validateCapability (grantCapabilities .on (after (SandboxRuntime.step .on) empty
          [.grantCapabilities "plugin-a" {.readTensor} 10 5 1]) "plugin-a" {.network} 10 5 1).2
          (tokenIdOf "plugin-a" 10 5 1) plugin capability step =
        validateCapability (after (SandboxRuntime.step .on) empty
          [.grantCapabilities "plugin-a" {.readTensor} 10 5 1]) (tokenIdOf "plugin-a" 10 5 1)
          plugin capability step := by
  intro claim
  have escalated := claim "plugin-a" .network 12
  revert escalated
  decide +kernel

end SandboxRuntime

end LiteLlmSecurity
