import LiteLlmSecurity.MemorySafety.Audit

/-!
# The audit and the order of its lists

Every loop of the audit only pushes, and what it pushes for an item depends on the
item alone. Reordering the records and the boundaries therefore reorders the
violations, and sorting them as texts takes the difference away again. Equal texts
from different items do not matter, since a list of texts sorts in one way only.
-/

namespace LiteLlmSecurity

open Rust StableSort

variable {profile : MemorySafetyProfile} {unsafeRecords unsafeRecords' : List UnsafeUsageRecord}
  {ffiAudits ffiAudits' : List FfiBoundaryAudit} {miriPassed fuzzingPassed : Bool}

/-- A step that adds texts at the end and chooses them without looking at the others. -/
def Appends (push : List String → List String) : Prop :=
  ∀ violations, push violations = violations ++ push []

theorem appends_pushIf (condition : Prop) [Decidable condition] (violation : String) :
    Appends (pushIf condition violation) := by
  intro violations
  by_cases h : condition <;> simp [pushIf, h]

theorem Appends.comp {first second : List String → List String} (hfirst : Appends first)
    (hsecond : Appends second) : Appends (fun violations => second (first violations)) := by
  intro violations
  show second (first violations) = violations ++ second (first [])
  rw [hsecond (first violations), hfirst violations, hsecond (first []), List.append_assoc]

/-- A loop whose rounds add at the end what their item contributes turns a reordering
of the items into one of the results. -/
theorem foldl_perm {α : Type} {audit : List String → α → List String}
    (haudit : ∀ a, Appends (audit · a)) {items items' : List α}
    (hitems : items.Perm items') {violations violations' : List String}
    (hviolations : violations.Perm violations') :
    (items.foldl audit violations).Perm (items'.foldl audit violations') := by
  have collected : ∀ (list : List α) (start : List String),
      list.foldl audit start = start ++ (list.map (audit [])).flatten := by
    intro list start
    have rounds : audit = fun violations a => violations ++ audit [] a :=
      funext₂ fun violations a => haudit a violations
    rw [← List.foldl_append_eq_append, ← rounds]
  rw [collected, collected]
  exact hviolations.append (hitems.map _).flatten

theorem auditRecords_perm (hrecords : unsafeRecords.Perm unsafeRecords')
    (policy : UnsafeBlockPolicy) (violations : List String) :
    (auditRecords policy unsafeRecords violations).Perm
      (auditRecords policy unsafeRecords' violations) := by
  cases policy with
  | deny =>
      rw [auditRecords, auditRecords, hrecords.length_eq]
  | allowWithReview =>
      refine foldl_perm (fun record => ?_) hrecords .rfl
      exact appends_pushIf (¬ record.reviewed) _
  | allowWithAudit =>
      refine foldl_perm (fun record => ?_) hrecords .rfl
      exact appends_pushIf (trim record.reason = "") _

/-- The three tests of a boundary, one after the other. -/
theorem appends_auditBoundary (profile : MemorySafetyProfile) (ffi : FfiBoundaryAudit) :
    Appends (auditBoundary profile · ffi) :=
  ((appends_pushIf _ _).comp (appends_pushIf _ _)).comp (appends_pushIf _ _)

theorem collectViolations_perm (hrecords : unsafeRecords.Perm unsafeRecords')
    (hffi : ffiAudits.Perm ffiAudits') :
    (collectViolations profile unsafeRecords ffiAudits miriPassed fuzzingPassed).Perm
      (collectViolations profile unsafeRecords' ffiAudits' miriPassed fuzzingPassed) := by
  simp only [collectViolations, hrecords.length_eq]
  exact foldl_perm (appends_auditBoundary profile) hffi (auditRecords_perm hrecords _ _)

/-- The result of the audit, its error or its whole report, is the same for every
order of the records and of the boundaries. -/
theorem auditMemorySafety_perm (profile : MemorySafetyProfile) (miriPassed fuzzingPassed : Bool)
    (unsafeRecords unsafeRecords' : List UnsafeUsageRecord)
    (ffiAudits ffiAudits' : List FfiBoundaryAudit)
    (hrecords : unsafeRecords.Perm unsafeRecords') (hffi : ffiAudits.Perm ffiAudits') :
    auditMemorySafety profile unsafeRecords ffiAudits miriPassed fuzzingPassed =
      auditMemorySafety profile unsafeRecords' ffiAudits' miriPassed fuzzingPassed := by
  have hviolations := sortByKey_of_perm (@collectViolations_perm profile _ _ _ _ miriPassed
    fuzzingPassed hrecords hffi)
  have hreviewed := (hrecords.filter (·.reviewed)).length_eq
  simp only [auditMemorySafety, hviolations, hreviewed, hrecords.length_eq]

/-- A profile under which records are reviewed and boundaries validated. -/
def reviewProfile : MemorySafetyProfile where
  requireMiri := true
  requireFuzzing := true
  unsafePolicy := .allowWithReview
  maxUnsafeBlocks := 1
  requireFfiLayoutValidation := true
  requireFfiLifetimeValidation := true

/-- Two records and two boundaries, each list in both orders. -/
theorem auditMemorySafety_perm_swap :
    auditMemorySafety reviewProfile
        [⟨"kernel::simd", 10, "vector loads", false⟩, ⟨"kernel::ffi", 7, "", false⟩]
        [⟨"cuda", true, false, true, none⟩, ⟨"blas", true, true, false, some ""⟩] false true =
      auditMemorySafety reviewProfile
        [⟨"kernel::ffi", 7, "", false⟩, ⟨"kernel::simd", 10, "vector loads", false⟩]
        [⟨"blas", true, true, false, some ""⟩, ⟨"cuda", true, false, true, none⟩] false true :=
  auditMemorySafety_perm reviewProfile false true _ _ _ _ (.swap _ _ _) (.swap _ _ _)

end LiteLlmSecurity
