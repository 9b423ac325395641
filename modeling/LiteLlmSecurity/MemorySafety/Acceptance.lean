import LiteLlmSecurity.MemorySafety.Audit

/-!
# When the audit accepts

The audit accepts exactly when all its requirements hold, where a boundary that
uses unsafe code must not have a blank reviewer. It should have a named one. The
two differ on a boundary without any reviewer, which the audit passes.
-/

namespace LiteLlmSecurity

open StableSort

/-- The requirements of a profile, given what is asked of the reviewer of a boundary
that uses unsafe code. -/
structure MemorySafetyProfile.Met (reviewer : Option String → Prop)
    (profile : MemorySafetyProfile) (unsafeRecords : List UnsafeUsageRecord)
    (ffiAudits : List FfiBoundaryAudit) (miriPassed fuzzingPassed : Bool) : Prop where
  miri : profile.requireMiri = true → miriPassed = true
  fuzzing : profile.requireFuzzing = true → fuzzingPassed = true
  count : unsafeRecords.length ≤ profile.maxUnsafeBlocks
  records : profile.unsafePolicy.Permits unsafeRecords
  boundaries : ∀ ffi ∈ ffiAudits, ffi.usesUnsafe = true → ffi.Clean reviewer profile

variable {profile : MemorySafetyProfile} {unsafeRecords : List UnsafeUsageRecord}
  {ffiAudits : List FfiBoundaryAudit} {miriPassed fuzzingPassed : Bool}

theorem collectViolations_eq_nil_iff :
    collectViolations profile unsafeRecords ffiAudits miriPassed fuzzingPassed = [] ↔
      profile.Met NoBlankReviewer unsafeRecords ffiAudits miriPassed fuzzingPassed := by
  simp only [collectViolations, foldl_eq_nil_iff (auditBoundary_eq_nil_iff profile),
    auditRecords_eq_nil_iff, pushIf_eq_nil_iff, true_and]
  constructor
  · rintro ⟨⟨⟨⟨miri, fuzzing⟩, count⟩, records⟩, boundaries⟩
    refine ⟨fun required => ?_, fun required => ?_, Nat.not_lt.mp count, records, boundaries⟩
    · exact not_not.mp fun failed => miri ⟨required, failed⟩
    · exact not_not.mp fun failed => fuzzing ⟨required, failed⟩
  · rintro ⟨miri, fuzzing, count, records, boundaries⟩
    refine ⟨⟨⟨⟨?_, ?_⟩, Nat.not_lt.mpr count⟩, records⟩, boundaries⟩
    · rintro ⟨required, failed⟩
      exact failed (miri required)
    · rintro ⟨required, failed⟩
      exact failed (fuzzing required)

/-- An audit that runs accepts when its requirements are met, with no blank reviewer. -/
theorem accepted_iff_met {report : MemorySafetyReport}
    (hreport : auditMemorySafety profile unsafeRecords ffiAudits miriPassed fuzzingPassed =
      .ok report) :
    report.accepted = true ↔
      profile.Met NoBlankReviewer unsafeRecords ffiAudits miriPassed fuzzingPassed := by
  rw [auditMemorySafety, Rust.ite_error_eq_ok_iff] at hreport
  obtain ⟨-, hreport⟩ := hreport
  rw [← Except.ok.inj hreport, ← collectViolations_eq_nil_iff, List.isEmpty_iff]
  exact ⟨fun h => (h ▸ sortByKey_perm _ _).symm.eq_nil, fun h => by rw [h]; rfl⟩

/-- A boundary names its reviewer when it has one and that one is not blank. -/
theorem met_namesReviewer_iff :
    profile.Met NamesReviewer unsafeRecords ffiAudits miriPassed fuzzingPassed ↔
      profile.Met NoBlankReviewer unsafeRecords ffiAudits miriPassed fuzzingPassed ∧
        ∀ ffi ∈ ffiAudits, ffi.usesUnsafe = true → ffi.reviewedBy ≠ none := by
  constructor
  · rintro ⟨miri, fuzzing, count, records, boundaries⟩
    refine ⟨⟨miri, fuzzing, count, records, fun ffi hffi usesUnsafe => ?_⟩,
      fun ffi hffi usesUnsafe => ?_⟩
    · obtain ⟨⟨name, hname, nonblank⟩, layout, lifetime⟩ := boundaries ffi hffi usesUnsafe
      refine ⟨fun other hother => ?_, layout, lifetime⟩
      rw [← Option.some.inj (hname.symm.trans hother)]
      exact nonblank
    · obtain ⟨name, hname, -⟩ := (boundaries ffi hffi usesUnsafe).reviewer_ok
      simp [hname]
  · rintro ⟨⟨miri, fuzzing, count, records, boundaries⟩, reviewed⟩
    refine ⟨miri, fuzzing, count, records, fun ffi hffi usesUnsafe => ?_⟩
    obtain ⟨noBlank, layout, lifetime⟩ := boundaries ffi hffi usesUnsafe
    obtain ⟨name, hname⟩ := Option.ne_none_iff_exists'.mp (reviewed ffi hffi usesUnsafe)
    exact ⟨⟨name, hname, noBlank name hname⟩, layout, lifetime⟩

/-- An audit that runs accepts exactly when all requirements are met, with a named
reviewer for every boundary that uses unsafe code, if and only if no such boundary has
no reviewer at all or another requirement is not met. -/
theorem accepted_iff_met_iff (profile : MemorySafetyProfile)
    (unsafeRecords : List UnsafeUsageRecord) (ffiAudits : List FfiBoundaryAudit)
    (miriPassed fuzzingPassed : Bool) (report : MemorySafetyReport)
    (hreport : auditMemorySafety profile unsafeRecords ffiAudits miriPassed fuzzingPassed =
      .ok report) :
    (report.accepted = true ↔
        profile.Met NamesReviewer unsafeRecords ffiAudits miriPassed fuzzingPassed) ↔
      (∀ ffi ∈ ffiAudits, ffi.usesUnsafe = true → ffi.reviewedBy ≠ none) ∨
        ¬ profile.Met NoBlankReviewer unsafeRecords ffiAudits miriPassed fuzzingPassed := by
  rw [accepted_iff_met hreport, met_namesReviewer_iff]
  constructor
  · intro same
    refine or_iff_not_imp_right.mpr fun met => ?_
    exact (same.mp (not_not.mp met)).2
  · rintro (reviewed | unmet)
    · exact ⟨fun met => ⟨met, reviewed⟩, fun h => h.1⟩
    · exact ⟨fun met => absurd met unmet, fun h => absurd h.1 unmet⟩

/-- A strict profile. -/
def strictProfile : MemorySafetyProfile where
  requireMiri := true
  requireFuzzing := true
  unsafePolicy := .deny
  maxUnsafeBlocks := 0
  requireFfiLayoutValidation := true
  requireFfiLifetimeValidation := true

/-- A validated boundary that uses unsafe code and was reviewed. -/
def reviewedBoundary : FfiBoundaryAudit where
  boundaryName := "cuda"
  usesUnsafe := true
  layoutValidated := true
  lifetimeValidated := true
  reviewedBy := some "sec-review"

/-- The boundary is accepted, and all requirements are met. -/
theorem accepted_iff_met_reviewed :
    ∃ report, auditMemorySafety strictProfile [] [reviewedBoundary] true true = .ok report ∧
      report.accepted = true ∧
      strictProfile.Met NamesReviewer [] [reviewedBoundary] true true := by
  have hreport : auditMemorySafety strictProfile [] [reviewedBoundary] true true = .ok {
      accepted := true
      unsafeBlockCount := 0
      reviewedUnsafeBlockCount := 0
      violations := [] } := by decide
  have accepts_iff := (accepted_iff_met_iff strictProfile [] [reviewedBoundary] true true _
    hreport).mpr (.inl (by simp [reviewedBoundary]))
  exact ⟨_, hreport, rfl, accepts_iff.mp rfl⟩

/-- A validated boundary that uses unsafe code and has no reviewer. -/
def unreviewedBoundary : FfiBoundaryAudit where
  boundaryName := "cuda"
  usesUnsafe := true
  layoutValidated := true
  lifetimeValidated := true
  reviewedBy := none

theorem auditMemorySafety_unreviewed :
    auditMemorySafety strictProfile [] [unreviewedBoundary] true true = .ok {
      accepted := true
      unsafeBlockCount := 0
      reviewedUnsafeBlockCount := 0
      violations := [] } := by
  decide

/-- The audit accepts a boundary with unsafe code that nobody reviewed. -/
theorem unreviewed_boundary_accepted :
    ¬ ∀ report, auditMemorySafety strictProfile [] [unreviewedBoundary] true true = .ok report →
      (report.accepted = true ↔
        strictProfile.Met NamesReviewer [] [unreviewedBoundary] true true) := by
  intro claim
  have met := (claim _ auditMemorySafety_unreviewed).mp rfl
  obtain ⟨name, hname, -⟩ := (met.boundaries unreviewedBoundary List.mem_cons_self rfl).reviewer_ok
  cases hname

end LiteLlmSecurity
