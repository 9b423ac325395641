import LiteLlmSecurity.Collection.StableSort
import LiteLlmSecurity.Error
import LiteLlmSecurity.Rust.Basic
import Mathlib.Data.String.Basic

/-!
# The audit of unsafe code

The audit collects a text for every violation it finds, in two tool runs, in the
records of unsafe blocks and in the audits of foreign boundaries, and accepts when
there is none. A `usize` is a natural number here: the audit compares counts and
adds none.
-/

namespace LiteLlmSecurity

open Rust StableSort

inductive UnsafeBlockPolicy where
  | deny
  | allowWithReview
  | allowWithAudit
  deriving DecidableEq, Repr

structure MemorySafetyProfile where
  requireMiri : Bool
  requireFuzzing : Bool
  unsafePolicy : UnsafeBlockPolicy
  maxUnsafeBlocks : Nat
  requireFfiLayoutValidation : Bool
  requireFfiLifetimeValidation : Bool
  deriving DecidableEq, Repr

structure UnsafeUsageRecord where
  modulePath : String
  line : UInt32
  reason : String
  reviewed : Bool
  deriving DecidableEq, Repr

structure FfiBoundaryAudit where
  boundaryName : String
  usesUnsafe : Bool
  layoutValidated : Bool
  lifetimeValidated : Bool
  reviewedBy : Option String
  deriving DecidableEq, Repr

structure MemorySafetyReport where
  accepted : Bool
  unsafeBlockCount : Nat
  reviewedUnsafeBlockCount : Nat
  violations : List String
  deriving DecidableEq, Repr

/-- `if condition { violations.push(violation) }`. -/
def pushIf (condition : Prop) [Decidable condition] (violation : String)
    (violations : List String) : List String :=
  if condition then violations ++ [violation] else violations

/-- The branch of the match for the profile's policy. -/
def auditRecords (policy : UnsafeBlockPolicy) (unsafeRecords : List UnsafeUsageRecord)
    (violations : List String) : List String :=
  match policy with
  | .deny =>
      pushIf (unsafeRecords.length > 0) "unsafe blocks are denied by policy" violations
  | .allowWithReview =>
      unsafeRecords.foldl (fun violations record =>
        pushIf (¬ record.reviewed)
          s!"unsafe block at {record.modulePath}:{record.line} lacks review" violations) violations
  | .allowWithAudit =>
      unsafeRecords.foldl (fun violations record =>
        pushIf (trim record.reason = "")
          s!"unsafe block at {record.modulePath}:{record.line} lacks justification" violations)
        violations

/-- The body of the loop over the boundaries. A missing reviewer is read as the text
`\x7b\x7d`. -/
def auditBoundary (profile : MemorySafetyProfile) (violations : List String)
    (ffi : FfiBoundaryAudit) : List String :=
  let violations := pushIf (ffi.usesUnsafe ∧ trim (ffi.reviewedBy.getD "\x7b\x7d") = "")
    s!"ffi boundary '{ffi.boundaryName}' lacks reviewer" violations
  let violations := pushIf
    (profile.requireFfiLayoutValidation ∧ ffi.usesUnsafe ∧ ¬ ffi.layoutValidated)
    s!"ffi boundary '{ffi.boundaryName}' missing layout validation" violations
  pushIf (profile.requireFfiLifetimeValidation ∧ ffi.usesUnsafe ∧ ¬ ffi.lifetimeValidated)
    s!"ffi boundary '{ffi.boundaryName}' missing lifetime validation" violations

/-- The violations in the order in which they are found. -/
def collectViolations (profile : MemorySafetyProfile) (unsafeRecords : List UnsafeUsageRecord)
    (ffiAudits : List FfiBoundaryAudit) (miriPassed fuzzingPassed : Bool) : List String :=
  let violations := pushIf (profile.requireMiri ∧ ¬ miriPassed)
    "miri requirement not satisfied" []
  let violations := pushIf (profile.requireFuzzing ∧ ¬ fuzzingPassed)
    "fuzzing requirement not satisfied" violations
  let violations := pushIf (unsafeRecords.length > profile.maxUnsafeBlocks)
    (s!"unsafe block count {unsafeRecords.length} " ++
      s!"exceeds limit {profile.maxUnsafeBlocks}") violations
  let violations := auditRecords profile.unsafePolicy unsafeRecords violations
  ffiAudits.foldl (auditBoundary profile) violations

def auditMemorySafety (profile : MemorySafetyProfile) (unsafeRecords : List UnsafeUsageRecord)
    (ffiAudits : List FfiBoundaryAudit) (miriPassed fuzzingPassed : Bool) :
    SecurityResult MemorySafetyReport :=
  if profile.maxUnsafeBlocks = 0 ∧ profile.unsafePolicy ≠ .deny then
    .error (.invalidConfig "max_unsafe_blocks must be positive when unsafe blocks are allowed")
  else
    let violations := sortByKey (fun violation => violation)
      (collectViolations profile unsafeRecords ffiAudits miriPassed fuzzingPassed)
    .ok {
      accepted := violations.isEmpty
      unsafeBlockCount := unsafeRecords.length
      reviewedUnsafeBlockCount := (unsafeRecords.filter (·.reviewed)).length
      violations }

/-! ## When nothing is pushed -/

@[simp] theorem pushIf_eq_nil_iff {condition : Prop} [Decidable condition] {violation : String}
    {violations : List String} :
    pushIf condition violation violations = [] ↔ violations = [] ∧ ¬ condition := by
  by_cases h : condition <;> simp [pushIf, h]

/-- A loop that only pushes leaves the list empty when it starts empty and no round
pushes. -/
theorem foldl_eq_nil_iff {α : Type} {audit : List String → α → List String} {clean : α → Prop}
    (haudit : ∀ violations a, audit violations a = [] ↔ violations = [] ∧ clean a)
    (items : List α) (violations : List String) :
    items.foldl audit violations = [] ↔ violations = [] ∧ ∀ a ∈ items, clean a := by
  induction items generalizing violations with
  | nil => simp
  | cons item items ih => rw [List.foldl_cons, ih, haudit, List.forall_mem_cons, and_assoc]

/-- What the policy asks of the records. -/
def UnsafeBlockPolicy.Permits (policy : UnsafeBlockPolicy)
    (unsafeRecords : List UnsafeUsageRecord) : Prop :=
  match policy with
  | .deny => unsafeRecords = []
  | .allowWithReview => ∀ record ∈ unsafeRecords, record.reviewed = true
  | .allowWithAudit => ∀ record ∈ unsafeRecords, ¬ Blank record.reason

theorem auditRecords_eq_nil_iff (policy : UnsafeBlockPolicy)
    (unsafeRecords : List UnsafeUsageRecord) (violations : List String) :
    auditRecords policy unsafeRecords violations = [] ↔
      violations = [] ∧ policy.Permits unsafeRecords := by
  cases policy with
  | deny => simp [auditRecords, UnsafeBlockPolicy.Permits]
  | allowWithReview =>
      refine foldl_eq_nil_iff (fun violations record => ?_) unsafeRecords violations
      rw [pushIf_eq_nil_iff, not_not]
  | allowWithAudit =>
      refine foldl_eq_nil_iff (fun violations record => ?_) unsafeRecords violations
      rw [pushIf_eq_nil_iff, trim_eq_empty_iff]

/-- What a boundary that uses unsafe code must satisfy, given what is asked of its
reviewer. -/
structure FfiBoundaryAudit.Clean (reviewer : Option String → Prop)
    (profile : MemorySafetyProfile) (ffi : FfiBoundaryAudit) : Prop where
  reviewer_ok : reviewer ffi.reviewedBy
  layout : profile.requireFfiLayoutValidation = true → ffi.layoutValidated = true
  lifetime : profile.requireFfiLifetimeValidation = true → ffi.lifetimeValidated = true

/-- The reviewer is named, and not by a blank text. -/
def NamesReviewer (reviewedBy : Option String) : Prop :=
  ∃ name, reviewedBy = some name ∧ ¬ Blank name

/-- The reviewer is not a blank text. None need be named. -/
def NoBlankReviewer (reviewedBy : Option String) : Prop :=
  ∀ name, reviewedBy = some name → ¬ Blank name

theorem trim_getD_eq_empty_iff (reviewedBy : Option String) :
    trim (reviewedBy.getD "\x7b\x7d") = "" ↔ ¬ NoBlankReviewer reviewedBy := by
  cases reviewedBy with
  | none =>
      have hbraces : trim "\x7b\x7d" ≠ "" := by decide
      simp [NoBlankReviewer, hbraces]
  | some name => simp [NoBlankReviewer, trim_eq_empty_iff]

theorem auditBoundary_eq_nil_iff (profile : MemorySafetyProfile) (violations : List String)
    (ffi : FfiBoundaryAudit) :
    auditBoundary profile violations ffi = [] ↔
      violations = [] ∧ (ffi.usesUnsafe = true → ffi.Clean NoBlankReviewer profile) := by
  simp only [auditBoundary, pushIf_eq_nil_iff, trim_getD_eq_empty_iff, and_assoc]
  refine and_congr_right fun _ => ?_
  constructor
  · rintro ⟨reviewer, layout, lifetime⟩ usesUnsafe
    refine ⟨?_, fun required => ?_, fun required => ?_⟩
    · exact not_not.mp fun blank => reviewer ⟨usesUnsafe, blank⟩
    · exact not_not.mp fun invalid => layout ⟨required, usesUnsafe, invalid⟩
    · exact not_not.mp fun invalid => lifetime ⟨required, usesUnsafe, invalid⟩
  · intro clean
    refine ⟨?_, ?_, ?_⟩
    · rintro ⟨usesUnsafe, blank⟩
      exact blank (clean usesUnsafe).reviewer_ok
    · rintro ⟨required, usesUnsafe, invalid⟩
      exact invalid ((clean usesUnsafe).layout required)
    · rintro ⟨required, usesUnsafe, invalid⟩
      exact invalid ((clean usesUnsafe).lifetime required)

end LiteLlmSecurity
