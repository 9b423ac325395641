import LiteLlmSecurity.Error
import LiteLlmSecurity.Types
import Mathlib.Data.Finset.Basic
import Mathlib.Data.List.Sort

/-!
# Authorization of actions on tiers

A controller holds the roles an action requires and one policy for each tier.
`authorize` decides one request, and `authorizedTiers` lists the tiers whose
policy admits a principal. Both look at the tenant and the roles only; the scopes
of a principal are read by no function.
-/

namespace LiteLlmSecurity

open Rust

structure Principal where
  id : String
  tenantId : String
  roles : Finset String
  deriving DecidableEq

inductive Action where
  | loadModel
  | runInference
  | readTelemetry
  | readAudit
  | prefetch
  | decryptTier
  deriving DecidableEq, Repr

/-- The `{:?}` text of an action. -/
def Action.debug : Action → String
  | .loadModel => "LoadModel"
  | .runInference => "RunInference"
  | .readTelemetry => "ReadTelemetry"
  | .readAudit => "ReadAudit"
  | .prefetch => "Prefetch"
  | .decryptTier => "DecryptTier"

/-- The derived order, by position in the declaration. -/
instance : Ord Action := ⟨compareOn Action.ctorIdx⟩

instance : Std.TransOrd Action := inferInstanceAs (Std.TransCmp (compareOn Action.ctorIdx))

instance : Std.LawfulEqOrd Action where
  eq_of_compare {a b} h := by
    have hindex : a.ctorIdx = b.ctorIdx := Nat.compare_eq_eq.mp h
    revert hindex
    cases a <;> cases b <;> decide

structure TierPolicy where
  tier : TierId
  allowedRoles : Finset String
  allowedTenants : Finset String
  downgradeTier : Option TierId
  deriving DecidableEq

inductive AuthorizationDecision where
  | allow
  | downgrade (toTier : TierId) (reason : String)
  | deny (reason : String)
  deriving DecidableEq, Repr

structure AccessController where
  actionRoles : BTreeMap Action (Finset String)
  tierPolicies : BTreeMap TierId TierPolicy

/-- `principal.roles.iter().any(|role| roles.contains(role))`. -/
def Principal.HasRoleIn (principal : Principal) (roles : Finset String) : Prop :=
  ∃ role ∈ principal.roles, role ∈ roles

instance (principal : Principal) (roles : Finset String) : Decidable (principal.HasRoleIn roles) :=
  inferInstanceAs (Decidable (∃ role ∈ principal.roles, role ∈ roles))

/-- `principal.id.trim().is_empty() || principal.tenant_id.trim().is_empty()`. -/
def Principal.Blank (principal : Principal) : Prop :=
  trim principal.id = "" ∨ trim principal.tenantId = ""

instance (principal : Principal) : Decidable principal.Blank :=
  inferInstanceAs (Decidable (trim principal.id = "" ∨ trim principal.tenantId = ""))

namespace AccessController

/-- `AccessController::default`. -/
def empty : AccessController := { actionRoles := ∅, tierPolicies := ∅ }

def setActionRoles (controller : AccessController) (action : Action) (roles : Finset String) :
    AccessController :=
  { controller with actionRoles := controller.actionRoles.insert action roles }

def setTierPolicy (controller : AccessController) (policy : TierPolicy) : AccessController :=
  { controller with tierPolicies := controller.tierPolicies.insert policy.tier policy }

/-- The part of `authorize` for a requested tier. -/
def authorizeTier (controller : AccessController) (principal : Principal) (tier : TierId) :
    SecurityResult AuthorizationDecision :=
  match controller.tierPolicies[tier]? with
  | none => .error (.unauthorized s!"no policy for tier {tier}")
  | some policy =>
      if principal.tenantId ∉ policy.allowedTenants then
        let reason := s!"tenant {principal.tenantId} not allowed for tier {tier}"
        match policy.downgradeTier with
        | some downgrade => .ok (.downgrade downgrade reason)
        | none => .ok (.deny reason)
      else if ¬ principal.HasRoleIn policy.allowedRoles then
        let reason := s!"principal {principal.id} lacks role for tier {tier}"
        match policy.downgradeTier with
        | some downgrade => .ok (.downgrade downgrade reason)
        | none => .ok (.deny reason)
      else .ok .allow

/-- Whether an action requires roles of which the principal has none. -/
def lacksActionRole (controller : AccessController) (principal : Principal) (action : Action) :
    Bool :=
  match controller.actionRoles[action]? with
  | some requiredRoles => ¬ principal.HasRoleIn requiredRoles
  | none => false

def authorize (controller : AccessController) (principal : Principal) (action : Action)
    (requestedTier : Option TierId) : SecurityResult AuthorizationDecision :=
  if principal.Blank then
    .error (.invalidInput "principal id and tenant_id are required")
  else if controller.lacksActionRole principal action then
    .ok (.deny s!"principal {principal.id} lacks role for action {action.debug}")
  else
    match requestedTier with
    | some tier => controller.authorizeTier principal tier
    | none => .ok .allow

def authorizedTiers (controller : AccessController) (principal : Principal) : List TierId :=
  let tiers := (controller.tierPolicies.toList.filter fun (_, policy) =>
    principal.tenantId ∈ policy.allowedTenants ∧ principal.HasRoleIn policy.allowedRoles).map
      Prod.fst
  tiers.insertionSort fun a b => a.toNat ≤ b.toNat

end AccessController

/-- The operations that change a controller. -/
inductive AccessOperation where
  | setActionRoles (action : Action) (roles : Finset String)
  | setTierPolicy (policy : TierPolicy)
  deriving DecidableEq

def AccessController.step (controller : AccessController) :
    AccessOperation → Unit × AccessController
  | .setActionRoles action roles => ((), controller.setActionRoles action roles)
  | .setTierPolicy policy => ((), controller.setTierPolicy policy)

end LiteLlmSecurity
