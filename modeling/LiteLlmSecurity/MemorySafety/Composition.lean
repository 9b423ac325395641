import LiteLlmSecurity.MemorySafety.Acceptance
import Mathlib.Algebra.Order.BigOperators.Group.List

/-!
# Audits of parts and of weaker evidence

Every requirement but the number of unsafe blocks is about one record or one
boundary at a time. A code base may therefore be audited in parts: the whole is
accepted exactly when every part is and the parts together stay within the limit.

Acceptance is also kept when the profile is relaxed, items are removed, or a tool
run that failed passes. The one thing that can go wrong is a relaxed profile that
the audit does not take.
-/

namespace LiteLlmSecurity

/-- The audit runs and accepts. -/
def MemorySafetyProfile.Accepts (profile : MemorySafetyProfile)
    (unsafeRecords : List UnsafeUsageRecord) (ffiAudits : List FfiBoundaryAudit)
    (miriPassed fuzzingPassed : Bool) : Prop :=
  ∃ report, auditMemorySafety profile unsafeRecords ffiAudits miriPassed fuzzingPassed =
    .ok report ∧ report.accepted = true

/-- The audit takes the profile: a limit of zero goes with a policy that denies. -/
def MemorySafetyProfile.Consistent (profile : MemorySafetyProfile) : Prop :=
  ¬ (profile.maxUnsafeBlocks = 0 ∧ profile.unsafePolicy ≠ .deny)

namespace MemorySafetyProfile

variable {profile strict relaxed : MemorySafetyProfile}
  {unsafeRecords fewerRecords : List UnsafeUsageRecord}
  {ffiAudits fewerAudits : List FfiBoundaryAudit}
  {miriPassed fuzzingPassed miriPassed' fuzzingPassed' : Bool}

theorem accepts_iff :
    profile.Accepts unsafeRecords ffiAudits miriPassed fuzzingPassed ↔
      profile.Consistent ∧
        profile.Met NoBlankReviewer unsafeRecords ffiAudits miriPassed fuzzingPassed := by
  constructor
  · rintro ⟨report, hreport, accepted⟩
    exact ⟨(Rust.ite_error_eq_ok_iff.mp hreport).1, (accepted_iff_met hreport).mp accepted⟩
  · rintro ⟨consistent, met⟩
    refine ⟨_, if_neg consistent, ?_⟩
    exact (accepted_iff_met (if_neg consistent)).mpr met

/-! ## Parts -/

theorem permits_flatten_iff (policy : UnsafeBlockPolicy) (parts : List (List UnsafeUsageRecord)) :
    policy.Permits parts.flatten ↔ ∀ part ∈ parts, policy.Permits part := by
  cases policy with
  | deny => exact List.flatten_eq_nil_iff
  | allowWithReview => exact List.forall_mem_flatten
  | allowWithAudit => exact List.forall_mem_flatten

/-- The whole is accepted exactly when the profile and the tool runs are, each part is,
and the records of all parts together stay within the limit. -/
theorem accepts_flatten_iff (profile : MemorySafetyProfile)
    (parts : List (List UnsafeUsageRecord × List FfiBoundaryAudit))
    (miriPassed fuzzingPassed : Bool) :
    profile.Accepts (parts.map Prod.fst).flatten (parts.map Prod.snd).flatten
        miriPassed fuzzingPassed ↔
      profile.Accepts [] [] miriPassed fuzzingPassed ∧
        (∀ part ∈ parts, profile.Accepts part.1 part.2 miriPassed fuzzingPassed) ∧
        (parts.map fun part => part.1.length).sum ≤ profile.maxUnsafeBlocks := by
  have hsum : (parts.map Prod.fst).flatten.length = (parts.map fun part => part.1.length).sum := by
    rw [List.length_flatten, List.map_map]
    rfl
  simp only [accepts_iff]
  constructor
  · rintro ⟨consistent, miri, fuzzing, count, records, boundaries⟩
    rw [permits_flatten_iff, List.forall_mem_map] at records
    rw [List.forall_mem_flatten, List.forall_mem_map] at boundaries
    have hempty := (permits_flatten_iff profile.unsafePolicy []).mpr (by simp)
    refine ⟨⟨consistent, miri, fuzzing, Nat.zero_le _, hempty, by simp⟩, fun part hpart => ?_,
      hsum ▸ count⟩
    refine ⟨consistent, miri, fuzzing, ?_, records part hpart, boundaries part hpart⟩
    calc part.1.length ≤ (parts.map fun part => part.1.length).sum :=
          List.le_sum_of_mem (List.mem_map_of_mem hpart)
      _ ≤ profile.maxUnsafeBlocks := hsum ▸ count
  · rintro ⟨⟨consistent, miri, fuzzing, -, -, -⟩, accepted, count⟩
    refine ⟨consistent, miri, fuzzing, hsum.symm ▸ count, ?_, ?_⟩
    · rw [permits_flatten_iff, List.forall_mem_map]
      exact fun part hpart => (accepted part hpart).2.records
    · rw [List.forall_mem_flatten, List.forall_mem_map]
      exact fun part hpart => (accepted part hpart).2.boundaries

/-! ## Relaxed profiles and weaker evidence -/

/-- The second profile asks for no more than the first. Of the policies only a denial
asks for all that another does. -/
structure Relaxes (strict relaxed : MemorySafetyProfile) : Prop where
  miri : relaxed.requireMiri = true → strict.requireMiri = true
  fuzzing : relaxed.requireFuzzing = true → strict.requireFuzzing = true
  policy : strict.unsafePolicy = .deny ∨ relaxed.unsafePolicy = strict.unsafePolicy
  count : strict.maxUnsafeBlocks ≤ relaxed.maxUnsafeBlocks
  layout : relaxed.requireFfiLayoutValidation = true → strict.requireFfiLayoutValidation = true
  lifetime : relaxed.requireFfiLifetimeValidation = true →
    strict.requireFfiLifetimeValidation = true

theorem Relaxes.permits (relaxes : strict.Relaxes relaxed)
    (fewer : fewerRecords ⊆ unsafeRecords) (permits : strict.unsafePolicy.Permits unsafeRecords) :
    relaxed.unsafePolicy.Permits fewerRecords := by
  rcases relaxes.policy with denies | same
  · have hnone : unsafeRecords = [] := by rwa [denies] at permits
    rw [hnone, List.subset_nil] at fewer
    rw [fewer]
    exact (permits_flatten_iff relaxed.unsafePolicy []).mpr (by simp)
  · rw [same]
    cases hpolicy : strict.unsafePolicy with
    | deny =>
        rw [hpolicy] at permits
        exact List.subset_nil.mp (permits ▸ fewer)
    | allowWithReview =>
        rw [hpolicy] at permits
        exact fun record hrecord => permits record (fewer hrecord)
    | allowWithAudit =>
        rw [hpolicy] at permits
        exact fun record hrecord => permits record (fewer hrecord)

/-- What is accepted stays accepted under a relaxed profile, with records or boundaries
removed and more tool runs passed, unless the audit does not take the profile. -/
theorem accepts_relaxed_iff (relaxes : strict.Relaxes relaxed)
    (fewerRecords_sublist : fewerRecords.Sublist unsafeRecords)
    (fewerAudits_subset : fewerAudits ⊆ ffiAudits)
    (miriKept : miriPassed = true → miriPassed' = true)
    (fuzzingKept : fuzzingPassed = true → fuzzingPassed' = true)
    (accepts : strict.Accepts unsafeRecords ffiAudits miriPassed fuzzingPassed) :
    relaxed.Accepts fewerRecords fewerAudits miriPassed' fuzzingPassed' ↔ relaxed.Consistent := by
  obtain ⟨-, miri, fuzzing, count, records, boundaries⟩ := accepts_iff.mp accepts
  rw [accepts_iff]
  refine and_iff_left ⟨?_, ?_, ?_, ?_, ?_⟩
  · exact fun required => miriKept (miri (relaxes.miri required))
  · exact fun required => fuzzingKept (fuzzing (relaxes.fuzzing required))
  · calc fewerRecords.length ≤ unsafeRecords.length := fewerRecords_sublist.length_le
      _ ≤ strict.maxUnsafeBlocks := count
      _ ≤ relaxed.maxUnsafeBlocks := relaxes.count
  · exact relaxes.permits fewerRecords_sublist.subset records
  · intro ffi hffi usesUnsafe
    obtain ⟨reviewer, layout, lifetime⟩ := boundaries ffi (fewerAudits_subset hffi) usesUnsafe
    exact ⟨reviewer, fun required => layout (relaxes.layout required),
      fun required => lifetime (relaxes.lifetime required)⟩

/-- A profile that allows two reviewed blocks and asks for both tools. -/
def twoReviewed : MemorySafetyProfile where
  requireMiri := true
  requireFuzzing := true
  unsafePolicy := .allowWithReview
  maxUnsafeBlocks := 2
  requireFfiLayoutValidation := true
  requireFfiLifetimeValidation := true

/-- A profile that allows nine of them and asks for one tool. -/
def nineReviewed : MemorySafetyProfile where
  requireMiri := true
  requireFuzzing := false
  unsafePolicy := .allowWithReview
  maxUnsafeBlocks := 9
  requireFfiLayoutValidation := true
  requireFfiLifetimeValidation := false

/-- Two reviewed blocks and a validated boundary, and one of the blocks without it. -/
theorem accepts_relaxed_nineReviewed :
    nineReviewed.Accepts [⟨"kernel::ffi", 7, "", true⟩] [] true true ↔
      nineReviewed.Consistent := by
  have accepts : twoReviewed.Accepts
      [⟨"kernel::simd", 10, "loads", true⟩, ⟨"kernel::ffi", 7, "", true⟩]
      [⟨"blas", true, true, true, some "core"⟩] true true :=
    ⟨⟨true, 2, 2, []⟩, by decide, rfl⟩
  have relaxes : twoReviewed.Relaxes nineReviewed :=
    ⟨by decide, by decide, .inr rfl, by decide, by decide, by decide⟩
  exact accepts_relaxed_iff relaxes (.cons _ (.refl _)) (List.nil_subset _) id id accepts

end MemorySafetyProfile

end LiteLlmSecurity
