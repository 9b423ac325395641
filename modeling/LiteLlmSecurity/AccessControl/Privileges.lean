import LiteLlmSecurity.AccessControl.Tiers

/-!
# More privileges never take access away

Widening a configuration adds roles and tenants and leaves the tiers and their
downgrades as they are; widening a principal adds roles. Both only move a request
forward: a denied one may become a downgrade or be allowed, a downgrade keeps its
tier or becomes an access, and an access stays one.
-/

namespace LiteLlmSecurity

open Rust Machine

/-! ## Wider policies, principals and controllers -/

/-- The wider policy admits at least the roles and tenants, and downgrades alike. -/
structure TierPolicy.WidensTo (policy wider : TierPolicy) : Prop where
  allowedRoles : policy.allowedRoles ⊆ wider.allowedRoles
  allowedTenants : policy.allowedTenants ⊆ wider.allowedTenants
  downgradeTier : wider.downgradeTier = policy.downgradeTier

/-- The wider principal is the same one with at least the roles. -/
structure Principal.WidensTo (principal wider : Principal) : Prop where
  id : wider.id = principal.id
  tenantId : wider.tenantId = principal.tenantId
  roles : principal.roles ⊆ wider.roles

/-- The wider controller configures the same actions and tiers, each at least as wide. -/
structure AccessController.WidensTo (controller wider : AccessController) : Prop where
  actionRoles : ∀ action : Action,
    Option.Rel (· ⊆ ·) controller.actionRoles[action]? wider.actionRoles[action]?
  tierPolicies : ∀ tier : TierId,
    Option.Rel TierPolicy.WidensTo controller.tierPolicies[tier]? wider.tierPolicies[tier]?

/-- Configuring the same action or tier, at least as wide. -/
inductive AccessOperation.WidensTo : AccessOperation → AccessOperation → Prop where
  | setActionRoles {action : Action} {roles wider : Finset String} (h : roles ⊆ wider) :
      WidensTo (.setActionRoles action roles) (.setActionRoles action wider)
  | setTierPolicy {policy wider : TierPolicy} (tier : wider.tier = policy.tier)
      (h : policy.WidensTo wider) : WidensTo (.setTierPolicy policy) (.setTierPolicy wider)

/-- Related entries inserted at one key keep two maps related. -/
theorem rel_getElem?_insert {κ ν : Type} [Ord κ] [Std.TransOrd κ] [Std.LawfulEqOrd κ]
    {R : ν → ν → Prop} {entries wider : BTreeMap κ ν} {value value' : ν} (key : κ)
    (h : ∀ k : κ, Option.Rel R entries[k]? wider[k]?) (hvalue : R value value') (k : κ) :
    Option.Rel R (entries.insert key value)[k]? (wider.insert key value')[k]? := by
  rw [Std.ExtTreeMap.getElem?_insert, Std.ExtTreeMap.getElem?_insert]
  split
  · exact .some hvalue
  · exact h k

namespace AccessController

theorem WidensTo.step {controller wider : AccessController} {operation operation' : AccessOperation}
    (hoperation : operation.WidensTo operation') (h : controller.WidensTo wider) :
    (controller.step operation).2.WidensTo (wider.step operation').2 := by
  cases hoperation with
  | setActionRoles hroles =>
      exact ⟨rel_getElem?_insert _ h.actionRoles hroles, h.tierPolicies⟩
  | @setTierPolicy policy policy' tier hpolicy =>
      have same : (wider.setTierPolicy policy').tierPolicies =
          wider.tierPolicies.insert policy.tier policy' := by rw [setTierPolicy, tier]
      refine ⟨h.actionRoles, fun requested => ?_⟩
      show Option.Rel TierPolicy.WidensTo _ (wider.setTierPolicy policy').tierPolicies[requested]?
      rw [same]
      exact rel_getElem?_insert _ h.tierPolicies hpolicy requested

/-- Controllers configured by the same calls, each at least as wide, are wider. -/
theorem widensTo_after {operations operations' : List AccessOperation}
    (h : List.Forall₂ AccessOperation.WidensTo operations operations') :
    (after AccessController.step empty operations).WidensTo
      (after AccessController.step empty operations') := by
  have preserved : ∀ (controller wider : AccessController) (operation operation' : AccessOperation),
      operation.WidensTo operation' → controller.WidensTo wider →
        (controller.step operation).2.WidensTo (wider.step operation').2 :=
    fun _ _ _ _ hoperation => WidensTo.step hoperation
  have hempty : empty.WidensTo empty := ⟨fun _ => .none, fun _ => .none⟩
  exact after_rel preserved h hempty

end AccessController

/-! ## Tests that widening keeps -/

theorem Principal.WidensTo.blank_iff {principal wider : Principal}
    (h : principal.WidensTo wider) : wider.Blank ↔ principal.Blank := by
  rw [Principal.Blank, Principal.Blank, h.id, h.tenantId]

theorem Principal.WidensTo.hasRoleIn {principal wider : Principal} (h : principal.WidensTo wider)
    {roles widerRoles : Finset String} (hroles : roles ⊆ widerRoles)
    (has : principal.HasRoleIn roles) : wider.HasRoleIn widerRoles := by
  obtain ⟨role, hprincipal, hrole⟩ := has
  exact ⟨role, h.roles hprincipal, hroles hrole⟩

theorem TierPolicy.WidensTo.admits {policy widerPolicy : TierPolicy} {principal wider : Principal}
    (hpolicy : policy.WidensTo widerPolicy) (h : principal.WidensTo wider)
    (admits : policy.Admits principal) : widerPolicy.Admits wider := by
  refine ⟨?_, h.hasRoleIn hpolicy.allowedRoles admits.2⟩
  rw [h.tenantId]
  exact hpolicy.allowedTenants admits.1

namespace AccessController

variable {controller widerController : AccessController} {principal wider : Principal}

/-- Widening keeps a request past the check of the action's roles. -/
theorem WidensTo.lacksActionRole (hcontroller : controller.WidensTo widerController)
    (hprincipal : principal.WidensTo wider) {action : Action}
    (passed : controller.lacksActionRole principal action = false) :
    widerController.lacksActionRole wider action = false := by
  have hroles := hcontroller.actionRoles action
  rw [AccessController.lacksActionRole] at passed ⊢
  generalize controller.actionRoles[action]? = required at hroles passed
  generalize widerController.actionRoles[action]? = widerRequired at hroles
  cases hroles with
  | none => rfl
  | some hsubset =>
      have has := of_not_not (of_decide_eq_false passed)
      exact decide_eq_false (not_not_intro (hprincipal.hasRoleIn hsubset has))

/-- The policy of a tier, in a wider controller. -/
theorem WidensTo.exists_policy (hcontroller : controller.WidensTo widerController) {tier : TierId}
    {policy : TierPolicy} (hpolicy : controller.tierPolicies[tier]? = some policy) :
    ∃ widerPolicy, widerController.tierPolicies[tier]? = some widerPolicy ∧
      policy.WidensTo widerPolicy := by
  have hrel := hcontroller.tierPolicies tier
  rw [hpolicy] at hrel
  generalize widerController.tierPolicies[tier]? = found at hrel ⊢
  cases hrel with
  | some hwidens => exact ⟨_, rfl, hwidens⟩

/-! ## Decisions -/

/-- The tests that stand before the tier, passed by the wider request as well. -/
theorem WidensTo.passed (hcontroller : controller.WidensTo widerController)
    (hprincipal : principal.WidensTo wider) {action : Action}
    (passed : ¬ principal.Blank ∧ controller.lacksActionRole principal action = false) :
    ¬ wider.Blank ∧ widerController.lacksActionRole wider action = false :=
  ⟨fun blank => passed.1 (hprincipal.blank_iff.mp blank),
    hcontroller.lacksActionRole hprincipal passed.2⟩

/-- A downgrade is decided by the policy of the requested tier, for a request that
passed the tests before it. -/
theorem authorize_downgrades_iff (controller : AccessController) (principal : Principal)
    (action : Action) (requestedTier : Option TierId) (toTier : TierId) :
    (∃ reason, controller.authorize principal action requestedTier =
        .ok (.downgrade toTier reason)) ↔
      (¬ principal.Blank ∧ controller.lacksActionRole principal action = false) ∧
        ∃ tier, requestedTier = some tier ∧
          ∃ reason, controller.authorizeTier principal tier = .ok (.downgrade toTier reason) := by
  by_cases blank : principal.Blank
  · simp [authorize, blank]
  · cases role : controller.lacksActionRole principal action with
    | true => simp [authorize, blank, role]
    | false => cases requestedTier <;> simp [authorize, blank, role]

/-- A request that is allowed stays allowed for a wider controller and principal. -/
theorem WidensTo.authorize_allow (hcontroller : controller.WidensTo widerController)
    (hprincipal : principal.WidensTo wider) {action : Action} {requestedTier : Option TierId}
    (allowed : controller.authorize principal action requestedTier = .ok .allow) :
    widerController.authorize wider action requestedTier = .ok .allow := by
  cases requestedTier with
  | none =>
      rw [authorize_none_eq_allow_iff] at allowed ⊢
      exact hcontroller.passed hprincipal allowed
  | some tier =>
      rw [authorize_some_eq_allow_iff, authorizeTier_eq_allow_iff] at allowed ⊢
      obtain ⟨passed, policy, hpolicy, admits⟩ := allowed
      obtain ⟨widerPolicy, hwider, hwidens⟩ := hcontroller.exists_policy hpolicy
      exact ⟨hcontroller.passed hprincipal passed, widerPolicy, hwider,
        hwidens.admits hprincipal admits⟩

/-- A request that is downgraded keeps its tier or becomes an access. -/
theorem WidensTo.authorize_downgrade (hcontroller : controller.WidensTo widerController)
    (hprincipal : principal.WidensTo wider) {action : Action} {requestedTier : Option TierId}
    {toTier : TierId} (downgraded : ∃ reason,
      controller.authorize principal action requestedTier = .ok (.downgrade toTier reason)) :
    widerController.authorize wider action requestedTier = .ok .allow ∨
      ∃ reason, widerController.authorize wider action requestedTier =
        .ok (.downgrade toTier reason) := by
  obtain ⟨passed, tier, rfl, downgradedTier⟩ :=
    (authorize_downgrades_iff _ _ _ _ _).mp downgraded
  obtain ⟨policy, hpolicy, -, hdowngrade⟩ :=
    (authorizeTier_downgrades_iff _ _ _ _).mp downgradedTier
  obtain ⟨widerPolicy, hwider, hwidens⟩ := hcontroller.exists_policy hpolicy
  have widerPassed := hcontroller.passed hprincipal passed
  by_cases admits : widerPolicy.Admits wider
  · refine .inl ((authorize_some_eq_allow_iff _ _ _ _).mpr ⟨widerPassed, ?_⟩)
    exact (authorizeTier_eq_allow_iff _ _ _).mpr ⟨widerPolicy, hwider, admits⟩
  · refine .inr ((authorize_downgrades_iff _ _ _ _ _).mpr ⟨widerPassed, tier, rfl, ?_⟩)
    exact (authorizeTier_downgrades_iff _ _ _ _).mpr
      ⟨widerPolicy, hwider, admits, hwidens.downgradeTier.trans hdowngrade⟩

/-- Authorization is monotone: what a controller allows a principal, a wider
controller allows a wider principal, and where it downgrades to a tier, the other
allows the request or downgrades to the same tier. -/
theorem authorize_widened (hcontroller : controller.WidensTo widerController)
    (hprincipal : principal.WidensTo wider) (action : Action) (requestedTier : Option TierId) :
    (controller.authorize principal action requestedTier = .ok .allow →
        widerController.authorize wider action requestedTier = .ok .allow) ∧
      ∀ toTier,
        (∃ reason, controller.authorize principal action requestedTier =
          .ok (.downgrade toTier reason)) →
        widerController.authorize wider action requestedTier = .ok .allow ∨
          ∃ reason, widerController.authorize wider action requestedTier =
            .ok (.downgrade toTier reason) :=
  ⟨hcontroller.authorize_allow hprincipal,
    fun _ => hcontroller.authorize_downgrade hprincipal⟩

/-- Inference on tier 2 for administrators of one tenant. -/
def narrowTiers : List AccessOperation :=
  [.setActionRoles .runInference {"admin"}, .setTierPolicy ⟨2, {"admin"}, {"tenant-a"}, some 1⟩]

/-- The same for a second tenant, and for operators as well. -/
def widerTiers : List AccessOperation :=
  [.setActionRoles .runInference {"admin", "operator"},
    .setTierPolicy ⟨2, {"admin", "operator"}, {"tenant-a", "tenant-b"}, some 1⟩]

theorem narrowTiers_widensTo :
    (after AccessController.step empty narrowTiers).WidensTo
      (after AccessController.step empty widerTiers) :=
  widensTo_after (.cons (.setActionRoles (by decide))
    (.cons (.setTierPolicy rfl ⟨by decide, by decide, rfl⟩) .nil))

/-- A downgraded request, repeated with more roles in a wider configuration. -/
theorem authorize_widened_tenant_b :
    (∃ reason, (after AccessController.step empty narrowTiers).authorize
        ⟨"user-1", "tenant-b", {"admin"}⟩ .runInference (some 2) = .ok (.downgrade 1 reason)) ∧
      ((after AccessController.step empty widerTiers).authorize
          ⟨"user-1", "tenant-b", {"admin", "operator"}⟩ .runInference (some 2) = .ok .allow ∨
        ∃ reason, (after AccessController.step empty widerTiers).authorize
          ⟨"user-1", "tenant-b", {"admin", "operator"}⟩ .runInference (some 2) =
            .ok (.downgrade 1 reason)) := by
  have downgraded : (after AccessController.step empty narrowTiers).authorize
      ⟨"user-1", "tenant-b", {"admin"}⟩ .runInference (some 2) =
        .ok (.downgrade 1 "tenant tenant-b not allowed for tier 2") := by decide
  have hprincipal : Principal.WidensTo ⟨"user-1", "tenant-b", {"admin"}⟩
      ⟨"user-1", "tenant-b", {"admin", "operator"}⟩ := ⟨rfl, rfl, by decide⟩
  exact ⟨⟨_, downgraded⟩,
    (authorize_widened narrowTiers_widensTo hprincipal .runInference (some 2)).2 1
      ⟨_, downgraded⟩⟩

end AccessController

end LiteLlmSecurity
