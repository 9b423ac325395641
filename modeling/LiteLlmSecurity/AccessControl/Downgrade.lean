import LiteLlmSecurity.AccessControl.Controller
import LiteLlmSecurity.Machine.Run

/-!
# What a downgrade grants

A request for a tier is allowed when the tier's policy admits the principal, by
tenant and by role. When it does not, the policy may name a tier to downgrade to.
That tier is returned as it stands in the policy: whether its own policy admits
the principal, or exists at all, is not looked up.
-/

namespace LiteLlmSecurity

open Rust Machine

/-- Whether a policy admits a principal, by tenant and by role. -/
def TierPolicy.Admits (policy : TierPolicy) (principal : Principal) : Prop :=
  principal.tenantId ∈ policy.allowedTenants ∧ principal.HasRoleIn policy.allowedRoles

instance (policy : TierPolicy) (principal : Principal) : Decidable (policy.Admits principal) :=
  inferInstanceAs (Decidable
    (principal.tenantId ∈ policy.allowedTenants ∧ principal.HasRoleIn policy.allowedRoles))

namespace AccessController

variable (controller : AccessController) (principal : Principal) (action : Action)

/-! ## The outcomes of a request -/

/-- With a policy for the tier, the request is allowed, downgraded or denied; the two
tests differ only in the reason they give. -/
theorem authorizeTier_cases {tier : TierId} {policy : TierPolicy}
    (hpolicy : controller.tierPolicies[tier]? = some policy) :
    (policy.Admits principal ∧ controller.authorizeTier principal tier = .ok .allow) ∨
      ¬ policy.Admits principal ∧ ∃ reason, controller.authorizeTier principal tier =
        .ok (policy.downgradeTier.elim (.deny reason) (.downgrade · reason)) := by
  by_cases tenant : principal.tenantId ∈ policy.allowedTenants
  · by_cases role : principal.HasRoleIn policy.allowedRoles
    · exact .inl ⟨⟨tenant, role⟩, by simp [authorizeTier, hpolicy, tenant, role]⟩
    · refine .inr ⟨fun admits => role admits.2,
        s!"principal {principal.id} lacks role for tier {tier}", ?_⟩
      cases hdowngrade : policy.downgradeTier <;>
        simp [authorizeTier, hpolicy, tenant, role, hdowngrade]
  · refine .inr ⟨fun admits => tenant admits.1,
      s!"tenant {principal.tenantId} not allowed for tier {tier}", ?_⟩
    cases hdowngrade : policy.downgradeTier <;>
      simp [authorizeTier, hpolicy, tenant, hdowngrade]

theorem authorizeTier_eq_allow_iff (tier : TierId) :
    controller.authorizeTier principal tier = .ok .allow ↔
      ∃ policy, controller.tierPolicies[tier]? = some policy ∧ policy.Admits principal := by
  cases hpolicy : controller.tierPolicies[tier]? with
  | none => simp [authorizeTier, hpolicy]
  | some policy =>
      obtain ⟨admits, hallow⟩ | ⟨excluded, reason, hdecision⟩ :=
        authorizeTier_cases controller principal hpolicy
      · simp [hallow, admits]
      · cases hdowngrade : policy.downgradeTier <;> simp [hdecision, excluded, hdowngrade]

theorem authorizeTier_downgrades_iff (tier toTier : TierId) :
    (∃ reason, controller.authorizeTier principal tier = .ok (.downgrade toTier reason)) ↔
      ∃ policy, controller.tierPolicies[tier]? = some policy ∧ ¬ policy.Admits principal ∧
        policy.downgradeTier = some toTier := by
  cases hpolicy : controller.tierPolicies[tier]? with
  | none => simp [authorizeTier, hpolicy]
  | some policy =>
      obtain ⟨admits, hallow⟩ | ⟨excluded, reason, hdecision⟩ :=
        authorizeTier_cases controller principal hpolicy
      · simp [hallow, admits]
      · cases hdowngrade : policy.downgradeTier <;> simp [hdecision, excluded, hdowngrade]

/-- A request reaches the policy of its tier when the principal is not blank and
holds a role for the action. -/
theorem authorize_some_of_passed (blank : ¬ principal.Blank)
    (role : controller.lacksActionRole principal action = false) (tier : TierId) :
    controller.authorize principal action (some tier) =
      controller.authorizeTier principal tier := by
  rw [authorize, if_neg blank, if_neg (by simp [role])]

theorem authorize_some_of_stopped
    (stopped : principal.Blank ∨ controller.lacksActionRole principal action = true)
    (tier : TierId) :
    (∃ error, controller.authorize principal action (some tier) = .error error) ∨
      ∃ reason, controller.authorize principal action (some tier) = .ok (.deny reason) := by
  by_cases blank : principal.Blank
  · exact .inl ⟨.invalidInput "principal id and tenant_id are required",
      by rw [authorize, if_pos blank]⟩
  · exact .inr ⟨s!"principal {principal.id} lacks role for action {action.debug}",
      by rw [authorize, if_neg blank, if_pos (stopped.resolve_left blank)]⟩

/-- `authorizedTiers` lists the tiers whose policy admits the principal. -/
theorem mem_authorizedTiers_iff (tier : TierId) :
    tier ∈ controller.authorizedTiers principal ↔
      ∃ policy, controller.tierPolicies[tier]? = some policy ∧ policy.Admits principal := by
  simp [authorizedTiers, TierPolicy.Admits, Std.ExtTreeMap.mem_toList_iff_getElem?_eq_some]

/-! ## Downgrades -/

/-- Every downgrade decision for a request names a tier that the principal would
be allowed, exactly when the request is stopped before its tier is looked at, or
the policy of the tier admits the principal, or the policy of the tier it
downgrades to exists and admits the principal, or there is no such tier. -/
theorem authorize_downgrade_allowed_iff (operations : List AccessOperation)
    (principal : Principal) (action : Action) (tier : TierId) :
    (∀ toTier reason,
      (after step empty operations).authorize principal action (some tier) =
          .ok (.downgrade toTier reason) →
        (after step empty operations).authorize principal action (some toTier) = .ok .allow) ↔
      principal.Blank ∨
        (after step empty operations).lacksActionRole principal action = true ∨
        ∀ policy, (after step empty operations).tierPolicies[tier]? = some policy →
          policy.Admits principal ∨
            ∀ toTier, policy.downgradeTier = some toTier →
              ∃ target, (after step empty operations).tierPolicies[toTier]? = some target ∧
                target.Admits principal := by
  generalize after step empty operations = controller
  by_cases stopped : principal.Blank ∨ controller.lacksActionRole principal action = true
  · have hnever : ∀ toTier reason, controller.authorize principal action (some tier) ≠
        .ok (.downgrade toTier reason) := by
      intro toTier reason h
      obtain ⟨error, herror⟩ | ⟨reason', hdeny⟩ :=
        authorize_some_of_stopped controller principal action stopped tier
      · exact nomatch herror.symm.trans h
      · exact nomatch hdeny.symm.trans h
    constructor
    · intro _
      exact stopped.imp_right Or.inl
    · intro _ toTier reason h
      exact absurd h (hnever toTier reason)
  · obtain ⟨blank, role⟩ := not_or.mp stopped
    have hrole := Bool.eq_false_iff.mpr role
    simp only [blank, hrole, Bool.false_eq_true, false_or,
      authorize_some_of_passed controller principal action blank hrole, authorizeTier_eq_allow_iff]
    constructor
    · intro granted policy hpolicy
      by_cases admits : policy.Admits principal
      · exact .inl admits
      · refine .inr fun toTier hdowngrade => ?_
        obtain ⟨reason, hreason⟩ := (authorizeTier_downgrades_iff controller principal tier
          toTier).mpr ⟨policy, hpolicy, admits, hdowngrade⟩
        exact granted toTier reason hreason
    · intro target toTier reason h
      obtain ⟨policy, hpolicy, admits, hdowngrade⟩ :=
        (authorizeTier_downgrades_iff controller principal tier toTier).mp ⟨reason, h⟩
      exact (target policy hpolicy).resolve_left admits toTier hdowngrade

/-- Tier 2 downgrades to tier 1, which is for another tenant. -/
def crossTenantTiers : List AccessOperation :=
  [.setTierPolicy ⟨1, {"admin"}, {"tenant-a"}, none⟩,
    .setTierPolicy ⟨2, {"admin"}, {"tenant-a"}, some 1⟩]

/-- A downgrade hands out a tier whose policy excludes the tenant. -/
theorem downgrade_to_forbidden_tier :
    ¬ ∀ toTier reason,
      (after step empty crossTenantTiers).authorize ⟨"user-1", "tenant-b", {"admin"}⟩
          .runInference (some 2) = .ok (.downgrade toTier reason) →
        (after step empty crossTenantTiers).authorize ⟨"user-1", "tenant-b", {"admin"}⟩
          .runInference (some toTier) = .ok .allow := by
  intro claim
  have granted := claim 1 "tenant tenant-b not allowed for tier 2" (by decide)
  revert granted
  decide

end AccessController

end LiteLlmSecurity
