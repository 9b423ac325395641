import LiteLlmSecurity.AccessControl.Tiers
import LiteLlmSecurity.Machine.Isolation

/-!
# The settings that decide a request

The roles of an action and the policy of a tier are registers, and a request reads one
of each. So a request is decided by the last roles set for its action and the last
policy set for its tier. What was set for them before leaves no residue, and what was
set for others, before, after or in between, does not matter.
-/

namespace LiteLlmSecurity

open Rust Machine

namespace AccessOperation

/-- The roles that an operation sets for an action. -/
def rolesFor (action : Action) : AccessOperation → Option (Finset String)
  | .setActionRoles other roles => if other = action then some roles else none
  | .setTierPolicy _ => none

/-- The policy that an operation sets for a tier. -/
def policyFor (tier : TierId) : AccessOperation → Option TierPolicy
  | .setActionRoles .. => none
  | .setTierPolicy policy => if policy.tier = tier then some policy else none

/-- The roles that were last set for an action. -/
def lastRoles (action : Action) (operations : List AccessOperation) : Option (Finset String) :=
  (operations.filterMap (rolesFor action)).getLast?

/-- The policy that was last set for a tier. -/
def lastPolicy (tier : TierId) (operations : List AccessOperation) : Option TierPolicy :=
  (operations.filterMap (policyFor tier)).getLast?

/-- The settings that count for an action and a tier, two at most. -/
def lastSettings (action : Action) (tier : TierId) (operations : List AccessOperation) :
    List AccessOperation :=
  (lastRoles action operations).toList.map (.setActionRoles action) ++
    (lastPolicy tier operations).toList.map .setTierPolicy

theorem tier_of_lastPolicy {tier : TierId} {operations : List AccessOperation}
    {policy : TierPolicy} (h : lastPolicy tier operations = some policy) : policy.tier = tier := by
  obtain ⟨-, operation, -, -, hset, -⟩ := exists_last_write h
  cases operation with
  | setActionRoles action roles => cases hset
  | setTierPolicy other =>
      obtain ⟨htier, hpolicy⟩ := Option.ite_none_right_eq_some.mp hset
      cases hpolicy
      exact htier

theorem lastRoles_lastSettings (action : Action) (tier : TierId)
    (operations : List AccessOperation) :
    lastRoles action (lastSettings action tier operations) = lastRoles action operations := by
  rw [lastSettings]
  cases lastRoles action operations <;> cases lastPolicy tier operations <;>
    simp [lastRoles, rolesFor, List.filterMap_cons]

theorem lastPolicy_lastSettings (action : Action) (tier : TierId)
    (operations : List AccessOperation) :
    lastPolicy tier (lastSettings action tier operations) = lastPolicy tier operations := by
  rw [lastSettings]
  cases hpolicy : lastPolicy tier operations with
  | none => cases lastRoles action operations <;> simp [lastPolicy, policyFor]
  | some policy =>
      have htier := tier_of_lastPolicy hpolicy
      cases lastRoles action operations <;> simp [lastPolicy, policyFor, htier]

end AccessOperation

namespace AccessController

open AccessOperation

theorem actionRoles_step (action : Action) (controller : AccessController)
    (operation : AccessOperation) :
    (step controller operation).2.actionRoles[action]? =
      (rolesFor action operation).or controller.actionRoles[action]? := by
  cases operation with
  | setActionRoles other roles =>
      by_cases same : other = action <;>
        simp [step, setActionRoles, rolesFor, Std.ExtTreeMap.getElem?_insert, same]
  | setTierPolicy policy => rfl

theorem tierPolicies_step (tier : TierId) (controller : AccessController)
    (operation : AccessOperation) :
    (step controller operation).2.tierPolicies[tier]? =
      (policyFor tier operation).or controller.tierPolicies[tier]? := by
  cases operation with
  | setActionRoles action roles => rfl
  | setTierPolicy policy =>
      by_cases same : policy.tier = tier <;>
        simp [step, setTierPolicy, policyFor, Std.ExtTreeMap.getElem?_insert, same]

theorem actionRoles_after (action : Action) (operations : List AccessOperation) :
    (after step empty operations).actionRoles[action]? = lastRoles action operations := by
  rw [register_after_of_input (fun controller : AccessController => controller.actionRoles[action]?)
    (rolesFor action) (actionRoles_step action), lastRoles]
  simp [empty]

theorem tierPolicies_after (tier : TierId) (operations : List AccessOperation) :
    (after step empty operations).tierPolicies[tier]? = lastPolicy tier operations := by
  rw [register_after_of_input (fun controller : AccessController => controller.tierPolicies[tier]?)
    (policyFor tier) (tierPolicies_step tier), lastPolicy]
  simp [empty]

/-- A request reads the roles of its action and the policy of its tier. -/
theorem authorize_congr {controller controller' : AccessController} {action : Action}
    {tier : TierId} (roles : controller.actionRoles[action]? = controller'.actionRoles[action]?)
    (policies : controller.tierPolicies[tier]? = controller'.tierPolicies[tier]?)
    (principal : Principal) :
    controller.authorize principal action (some tier) =
      controller'.authorize principal action (some tier) := by
  simp only [authorize, lacksActionRole, authorizeTier, roles, policies]

theorem lacksActionRole_eq_false_iff (controller : AccessController) (principal : Principal)
    (action : Action) :
    controller.lacksActionRole principal action = false ↔
      ∀ roles, controller.actionRoles[action]? = some roles → principal.HasRoleIn roles := by
  cases hroles : controller.actionRoles[action]? <;> simp [lacksActionRole, hroles]

/-- After any sequence of settings a request gets the answer that it gets after the last
setting for its action and the last one for its tier alone. It is allowed exactly when the
principal is not blank, has one of the action's last roles, if there are any, and is
admitted by the tier's last policy; the latter alone decides whether the tier is listed. -/
theorem authorize_decided_by_last_settings (operations : List AccessOperation)
    (principal : Principal) (action : Action) (tier : TierId) :
    (after step empty operations).authorize principal action (some tier) =
        (after step empty (lastSettings action tier operations)).authorize principal action
          (some tier) ∧
      ((after step empty operations).authorize principal action (some tier) = .ok .allow ↔
        ¬ principal.Blank ∧
          (∀ roles, lastRoles action operations = some roles → principal.HasRoleIn roles) ∧
          ∃ policy, lastPolicy tier operations = some policy ∧ policy.Admits principal) ∧
      (tier ∈ (after step empty operations).authorizedTiers principal ↔
        ∃ policy, lastPolicy tier operations = some policy ∧ policy.Admits principal) := by
  refine ⟨authorize_congr ?_ ?_ principal, ?_, ?_⟩
  · rw [actionRoles_after, actionRoles_after, lastRoles_lastSettings]
  · rw [tierPolicies_after, tierPolicies_after, lastPolicy_lastSettings]
  · rw [authorize_some_eq_allow_iff, authorizeTier_eq_allow_iff, lacksActionRole_eq_false_iff,
      actionRoles_after, tierPolicies_after, and_assoc]
  · rw [mem_authorizedTiers_iff, tierPolicies_after]

end AccessController

end LiteLlmSecurity
