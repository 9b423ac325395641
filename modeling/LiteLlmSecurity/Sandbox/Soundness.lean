import LiteLlmSecurity.Sandbox.Grant

/-!
# What a successful check says about the run

A check that succeeds found a token under its id, and the last call that concerned
the id put that token there. So that call was a grant, and the check agrees with
its arguments: the plugin is the same, the capability is among those granted, and
the step is not past the exact end of the lifetime. The stored expiry is a wrapped
sum, which is never above the exact one.
-/

namespace LiteLlmSecurity.SandboxRuntime

open Rust Machine LastWrite

/-- Whether a call, with its reply, returned a token with the id or revoked the id. -/
def Touches (tokenId : String)
    (call : SandboxOperation × SecurityOutcome (Option CapabilityToken)) : Prop :=
  (∃ token, call.2 = .ok (some token) ∧ token.tokenId = tokenId) ∨ call.1 = .revokeToken tokenId

variable {checks : OverflowChecks}

/-! ## Calls and their events -/

/-- Only grants return tokens, each the token of its arguments. -/
theorem exists_grant_of_reply {runtime : SandboxRuntime} {operation : SandboxOperation}
    {token : CapabilityToken} (h : (step checks runtime operation).1 = .ok (some token)) :
    ∃ pluginId capabilities nowStep ttlSteps seed,
      operation = .grantCapabilities pluginId capabilities nowStep ttlSteps seed ∧
        token = grantedToken pluginId capabilities nowStep ttlSteps seed := by
  cases operation with
  | configure config => exact absurd h (Outcome.map_none_ne_some _ token)
  | grantCapabilities pluginId capabilities nowStep ttlSteps seed =>
      refine ⟨pluginId, capabilities, nowStep, ttlSteps, seed, rfl, ?_⟩
      by_cases fails : GrantFails checks pluginId nowStep ttlSteps
      · obtain ⟨fault, hfault⟩ := grantCapabilities_of_fails checks fails runtime capabilities seed
        simp only [step, hfault] at h
        cases h
      · simp only [step, grantCapabilities_of_not_fails checks fails] at h
        cases h
        rfl
  | recordUsage pluginId usage => exact absurd h (Outcome.map_none_ne_some _ token)
  | revokeToken tokenId => cases h

theorem reply_of_event_eq_put {call : SandboxOperation × SecurityOutcome (Option CapabilityToken)}
    {tokenId : String} {token : CapabilityToken} (h : event call = some (.put tokenId token)) :
    call.2 = .ok (some token) ∧ token.tokenId = tokenId := by
  unfold event at h
  split at h
  · cases h
    exact ⟨rfl, rfl⟩
  · cases h
  · cases h

/-- A call on an id is an event on that id. -/
theorem exists_event_of_touches {runtime : SandboxRuntime} {operations : List SandboxOperation}
    {call : SandboxOperation × SecurityOutcome (Option CapabilityToken)}
    (hcall : call ∈ history (step checks) runtime operations) {tokenId : String}
    (touches : Touches tokenId call) :
    ∃ change, event call = some change ∧ change.address = tokenId := by
  obtain ⟨operation, reply⟩ := call
  rcases touches with ⟨token, hreply, rfl⟩ | hrevoke
  · obtain ⟨reached, hreached⟩ := exists_reply_of_mem_history (step checks) hcall
    obtain ⟨pluginId, capabilities, nowStep, ttlSteps, seed, hoperation, -⟩ :=
      exists_grant_of_reply (hreached.trans hreply)
    simp only at hoperation hreply
    subst hoperation hreply
    exact ⟨.put token.tokenId token, rfl, rfl⟩
  · simp only at hrevoke
    subst hrevoke
    exact ⟨.delete tokenId, rfl, rfl⟩

/-! ## The last call on an id -/

theorem table_empty : table empty = fun _ => none := by
  funext tokenId
  simp [table, empty]

/-- A token stored after a run was returned by the last call that touched its id. -/
theorem exists_last_grant {operations : List SandboxOperation} {tokenId : String}
    {token : CapabilityToken}
    (hstored : (after (step checks) empty operations).tokens[tokenId]? = some token) :
    ∃ earlier later pluginId capabilities nowStep ttlSteps seed,
      history (step checks) empty operations = earlier ++
        (.grantCapabilities pluginId capabilities nowStep ttlSteps seed, .ok (some token)) ::
          later ∧
      token = grantedToken pluginId capabilities nowStep ttlSteps seed ∧
      token.tokenId = tokenId ∧ ∀ call ∈ later, ¬ Touches tokenId call := by
  have htable := congrFun (table_after checks empty operations) tokenId
  rw [table_empty] at htable
  obtain ⟨before, rest, hevents, hrest⟩ := exists_last_put (htable.symm.trans hstored)
  obtain ⟨earlier, tail, hsplit, -, htail⟩ := List.filterMap_eq_append_iff.mp hevents
  obtain ⟨skipped, ⟨operation, reply⟩, later, rfl, -, hput, hlater⟩ :=
    List.filterMap_eq_cons_iff.mp htail
  obtain ⟨hreply, htokenId⟩ := reply_of_event_eq_put hput
  have hmem : ∀ call ∈ (operation, reply) :: later,
      call ∈ history (step checks) empty operations := by
    intro call hcall
    rw [hsplit]
    exact List.mem_append_right _ (List.mem_append_right _ hcall)
  obtain ⟨reached, hreached⟩ :=
    exists_reply_of_mem_history (step checks) (hmem _ List.mem_cons_self)
  obtain ⟨pluginId, capabilities, nowStep, ttlSteps, seed, hoperation, htoken⟩ :=
    exists_grant_of_reply (hreached.trans hreply)
  simp only at hoperation hreply
  subst hoperation hreply
  refine ⟨earlier ++ skipped, later, pluginId, capabilities, nowStep, ttlSteps, seed,
    by rw [hsplit, List.append_assoc], htoken, htokenId, ?_⟩
  intro call hcall touches
  obtain ⟨change, hchange, haddress⟩ :=
    exists_event_of_touches (hmem call (List.mem_cons_of_mem _ hcall)) touches
  refine hrest change ?_ haddress
  rw [← hlater]
  exact List.mem_filterMap.mpr ⟨call, hcall, hchange⟩

/-! ## Checks after a run -/

theorem exists_stored_of_validateCapability {runtime : SandboxRuntime} {tokenId pluginId : String}
    {capability : Capability} {nowStep : UInt64}
    (h : validateCapability runtime tokenId pluginId capability nowStep = .ok ()) :
    ∃ token, runtime.tokens[tokenId]? = some token ∧
      (pluginId, capability, nowStep) ∈ token.permissions := by
  cases hstored : runtime.tokens[tokenId]? with
  | none => simp [validateCapability, hstored] at h
  | some token =>
      rw [validateCapability_of_stored hstored, checkToken_eq_ok_iff] at h
      exact ⟨token, rfl, h⟩

/-- A step at which a grant's token permits anything is not past the exact end of its
lifetime, even when the stored end wrapped around. -/
theorem toNat_le_of_mem_permissions {pluginId owner : String} {capability : Capability}
    {capabilities : Finset Capability} {nowStep grantStep ttlSteps seed : UInt64}
    (h : (pluginId, capability, nowStep) ∈
      (grantedToken owner capabilities grantStep ttlSteps seed).permissions) :
    pluginId = owner ∧ capability ∈ capabilities ∧
      nowStep.toNat ≤ grantStep.toNat + ttlSteps.toNat := by
  obtain ⟨hplugin, hcapability, hstep⟩ := h
  have hexpiry : nowStep.toNat ≤ (grantStep + ttlSteps).toNat := UInt64.le_iff_toNat_le.mp hstep
  rw [UInt64.toNat_add] at hexpiry
  exact ⟨hplugin, hcapability, hexpiry.trans (Nat.mod_le _ _)⟩

/-- A check that succeeds after a run is backed by the last call that returned a token
with the id or revoked the id: a successful grant to that plugin, with that
capability, whose exact lifetime has not ended. So after a revocation no check of the
id succeeds until a grant returns the id again. -/
theorem validateCapability_sound (checks : OverflowChecks) (operations : List SandboxOperation)
    (tokenId pluginId : String) (capability : Capability) (nowStep : UInt64) :
    (validateCapability (after (step checks) empty operations) tokenId pluginId capability
        nowStep = .ok () →
      ∃ earlier later capabilities grantStep ttlSteps seed token,
        history (step checks) empty operations = earlier ++
          (.grantCapabilities pluginId capabilities grantStep ttlSteps seed, .ok (some token)) ::
            later ∧
        token.tokenId = tokenId ∧ (∀ call ∈ later, ¬ Touches tokenId call) ∧
        capability ∈ capabilities ∧ nowStep.toNat ≤ grantStep.toNat + ttlSteps.toNat) ∧
    ∀ earlier reply later,
      history (step checks) empty operations =
          earlier ++ (.revokeToken tokenId, reply) :: later →
        (∀ call ∈ later, ∀ token, call.2 = .ok (some token) → token.tokenId ≠ tokenId) →
          ∃ error, validateCapability (after (step checks) empty operations) tokenId pluginId
            capability nowStep = .error error := by
  constructor
  · intro hok
    obtain ⟨token, hstored, hpermitted⟩ := exists_stored_of_validateCapability hok
    obtain ⟨earlier, later, owner, capabilities, grantStep, ttlSteps, seed, hhistory, htoken,
      htokenId, hlater⟩ := exists_last_grant hstored
    rw [htoken] at hpermitted
    obtain ⟨rfl, hcapability, hstep⟩ := toNat_le_of_mem_permissions hpermitted
    exact ⟨earlier, later, capabilities, grantStep, ttlSteps, seed, token, hhistory, htokenId,
      hlater, hcapability, hstep⟩
  · intro past reply future hrevoked hunissued
    rw [exists_error_iff]
    intro hok
    obtain ⟨token, hstored, -⟩ := exists_stored_of_validateCapability hok
    obtain ⟨earlier, later, owner, capabilities, grantStep, ttlSteps, seed, hhistory, -,
      htokenId, hlater⟩ := exists_last_grant hstored
    rw [hhistory, List.append_eq_append_iff] at hrevoked
    -- The grant stands before the revocation or after it.
    rcases hrevoked with ⟨between, -, hbetween⟩ | ⟨between, -, hbetween⟩
    · cases between with
      | nil => cases hbetween
      | cons first rest =>
          obtain ⟨-, rfl⟩ := List.cons.inj hbetween
          exact hlater _ (List.mem_append_right _ List.mem_cons_self) (.inr rfl)
    · cases between with
      | nil => cases hbetween
      | cons first rest =>
          obtain ⟨-, rfl⟩ := List.cons.inj hbetween
          exact hunissued _ (List.mem_append_right _ List.mem_cons_self) token rfl htokenId

example : validateCapability (after (step .off) empty
    [.grantCapabilities "plugin-a" {.readTensor} 10 5 1]) (tokenIdOf "plugin-a" 10 5 1) "plugin-a"
      .readTensor 15 = .ok () := by rfl

end LiteLlmSecurity.SandboxRuntime
