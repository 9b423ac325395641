import LiteLlmSecurity.AccessControl.Downgrade
import LiteLlmSecurity.Collection.StableSort

/-!
# One request and the list of tiers

The rule that a tier's policy admits a principal is written twice: as a cascade of
early returns in `authorize`, and as a filter in `authorizedTiers`. A request for
a tier is allowed exactly when the same request without a tier is allowed and the
tier is in the list.
-/

namespace LiteLlmSecurity.AccessController

open Rust

variable (controller : AccessController) (principal : Principal) (action : Action)

/-- A request without a tier passes the two checks that stand before the tier. -/
theorem authorize_none_eq_allow_iff :
    controller.authorize principal action none = .ok .allow ↔
      ¬ principal.Blank ∧ controller.lacksActionRole principal action = false := by
  by_cases blank : principal.Blank
  · simp [authorize, blank]
  · cases role : controller.lacksActionRole principal action <;> simp [authorize, blank, role]

/-- A request for a tier passes these checks and the policy of the tier. -/
theorem authorize_some_eq_allow_iff (tier : TierId) :
    controller.authorize principal action (some tier) = .ok .allow ↔
      (¬ principal.Blank ∧ controller.lacksActionRole principal action = false) ∧
        controller.authorizeTier principal tier = .ok .allow := by
  by_cases passed : ¬ principal.Blank ∧ controller.lacksActionRole principal action = false
  · rw [authorize_some_of_passed controller principal action passed.1 passed.2]
    exact (and_iff_right passed).symm
  · have stopped : principal.Blank ∨ controller.lacksActionRole principal action = true := by
      rw [not_and_or, not_not, Bool.not_eq_false] at passed
      exact passed
    refine iff_of_false (fun allowed => ?_) fun h => passed h.1
    obtain ⟨error, herror⟩ | ⟨reason, hdeny⟩ :=
      authorize_some_of_stopped controller principal action stopped tier
    · exact nomatch herror.symm.trans allowed
    · exact nomatch hdeny.symm.trans allowed

/-- The list has no duplicates, since its tiers are keys of a map. -/
theorem authorizedTiers_nodup : (controller.authorizedTiers principal).Nodup := by
  have hkeys : (controller.tierPolicies.toList.map Prod.fst).Nodup := by
    refine List.pairwise_map.mpr (Std.ExtTreeMap.distinct_keys_toList.imp ?_)
    intro a b hne same
    exact hne (by rw [same]; exact Std.ReflCmp.compare_self)
  have hfilter := hkeys.sublist (List.Sublist.map Prod.fst (List.filter_sublist
    (p := fun entry : TierId × TierPolicy => principal.tenantId ∈ entry.2.allowedTenants ∧
      principal.HasRoleIn entry.2.allowedRoles)))
  exact (List.perm_insertionSort _ _).nodup_iff.mpr hfilter

theorem authorizedTiers_ascending : (controller.authorizedTiers principal).Pairwise (· < ·) := by
  have hsorted : (controller.authorizedTiers principal).Pairwise
      (fun a b => a.toNat ≤ b.toNat) := StableSort.sortByKey_pairwise UInt16.toNat _
  refine (hsorted.and (authorizedTiers_nodup controller principal)).imp ?_
  rintro a b ⟨hle, hne⟩
  rw [UInt16.lt_iff_toNat_lt]
  exact lt_of_le_of_ne hle fun same => hne (UInt16.toNat_inj.mp same)

/-- A request for a tier is allowed exactly when the request without a tier is and the
tier is one of the principal's tiers, which are listed in strictly ascending order. -/
theorem authorize_some_allow_iff_mem_authorizedTiers :
    (∀ tier, controller.authorize principal action (some tier) = .ok .allow ↔
      controller.authorize principal action none = .ok .allow ∧
        tier ∈ controller.authorizedTiers principal) ∧
      (controller.authorizedTiers principal).Pairwise (· < ·) := by
  refine ⟨fun tier => ?_, authorizedTiers_ascending controller principal⟩
  rw [authorize_some_eq_allow_iff, authorize_none_eq_allow_iff, authorizeTier_eq_allow_iff,
    mem_authorizedTiers_iff]

end LiteLlmSecurity.AccessController
