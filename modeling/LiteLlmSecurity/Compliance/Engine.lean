import LiteLlmSecurity.Collection.StableSort
import LiteLlmSecurity.Types
import Mathlib.Data.Finset.Sort
import Mathlib.Data.String.Basic

/-!
# Compliance reports

The engine knows eight controls by name and a profile says which of them are
enabled. A report goes through the controls that a regulation requires, lists the
ones that are not enabled, and adds a dated artifact for each.

What it reports is a function of the set of enabled controls, which the engine
answers on its own: the required controls outside that set are missing, in
ascending order and each once, and the artifacts are those of the required
controls in the same order.
-/

namespace LiteLlmSecurity

open Rust StableSort

inductive Regulation where
  | gdpr
  | ccpa
  | cpra
  | hipaa
  | soc2
  | iso27001
  deriving DecidableEq, Repr

structure ComplianceProfile where
  dataMinimization : Bool
  deletionRequestsSupported : Bool
  encryptionAtRest : Bool
  accessControl : Bool
  auditLogging : Bool
  incidentResponsePlan : Bool
  zeroization : Bool
  telemetryPiiRedaction : Bool
  deriving DecidableEq, Repr

structure ComplianceArtifact where
  artifactId : String
  generatedDay : UInt32
  control : String
  evidenceHash : String
  deriving DecidableEq, Repr

structure ComplianceReport where
  regulation : Regulation
  ready : Bool
  missingControls : List String
  artifacts : List ComplianceArtifact
  deriving DecidableEq, Repr

structure ComplianceEngine where
  profile : ComplianceProfile
  deriving DecidableEq, Repr

def requiredControls : Regulation → List String
  | .gdpr =>
      ["data_minimization", "deletion_requests", "access_control", "audit_logging",
        "telemetry_redaction"]
  | .ccpa | .cpra =>
      ["data_minimization", "deletion_requests", "access_control", "audit_logging"]
  | .hipaa =>
      ["encryption_at_rest", "access_control", "audit_logging", "incident_response",
        "zeroization"]
  | .soc2 | .iso27001 =>
      ["encryption_at_rest", "access_control", "audit_logging", "incident_response",
        "data_minimization"]

def allControls : List String :=
  ["data_minimization", "deletion_requests", "encryption_at_rest", "access_control",
    "audit_logging", "incident_response", "zeroization", "telemetry_redaction"]

namespace ComplianceEngine

variable (engine : ComplianceEngine)

def controlEnabled (control : String) : Bool :=
  match control with
  | "data_minimization" => engine.profile.dataMinimization
  | "deletion_requests" => engine.profile.deletionRequestsSupported
  | "encryption_at_rest" => engine.profile.encryptionAtRest
  | "access_control" => engine.profile.accessControl
  | "audit_logging" => engine.profile.auditLogging
  | "incident_response" => engine.profile.incidentResponsePlan
  | "zeroization" => engine.profile.zeroization
  | "telemetry_redaction" => engine.profile.telemetryPiiRedaction
  | _ => false

/-- The text whose hash is the evidence. -/
def evidenceText (control : String) (day : UInt32) (enabled : Bool) : String :=
  s!"{control}|{day}|{enabled}"

/-- `generate_artifact`, which reads nothing of the engine. -/
def generateArtifact (control : String) (day : UInt32) (enabled : Bool) : ComplianceArtifact where
  artifactId := s!"{control}-{day}"
  generatedDay := day
  control := control
  evidenceHash := fnv64Hex (asBytes (evidenceText control day enabled))

/-- The body of the loop over the required controls. -/
def evaluateControl (day : UInt32) (found : List String × List ComplianceArtifact)
    (control : String) : List String × List ComplianceArtifact :=
  let (missing, artifacts) := found
  let enabled := engine.controlEnabled control
  let missing := if enabled = false then missing ++ [control] else missing
  (missing, artifacts ++ [generateArtifact control day enabled])

def evaluate (regulation : Regulation) (day : UInt32) : ComplianceReport :=
  let (missing, artifacts) := (requiredControls regulation).foldl (engine.evaluateControl day)
    ([], [])
  let missing := sortByKey (fun control => control) missing
  { regulation
    ready := missing.isEmpty
    missingControls := missing
    artifacts := sortByKey (fun artifact => artifact.control) artifacts }

def enabledControls : Finset String :=
  allControls.foldl (fun controls control =>
    if engine.controlEnabled control then insert control controls else controls) ∅

end ComplianceEngine

/-- The report that a set of enabled controls calls for. -/
def ComplianceReport.ofEnabled (regulation : Regulation) (day : UInt32)
    (enabled : Finset String) : ComplianceReport :=
  let required := (requiredControls regulation).toFinset
  { regulation
    ready := required ⊆ enabled
    missingControls := (required \ enabled).sort
    artifacts := required.sort.map fun control =>
      ComplianceEngine.generateArtifact control day (control ∈ enabled) }

namespace ComplianceEngine

variable {engine : ComplianceEngine}

/-! ## The enabled controls -/

/-- A loop that inserts the items which pass a test collects exactly those. -/
theorem mem_foldl_insert {α : Type} [DecidableEq α] (test : α → Bool) (items : List α)
    (collected : Finset α) (a : α) :
    a ∈ items.foldl (fun collected a => if test a then insert a collected else collected)
        collected ↔
      a ∈ collected ∨ a ∈ items ∧ test a = true := by
  induction items generalizing collected with
  | nil => simp
  | cons item items ih =>
      rw [List.foldl_cons, ih, List.mem_cons]
      by_cases htest : test item = true
      · rw [if_pos htest, Finset.mem_insert]
        grind
      · rw [if_neg htest]
        grind

/-- Every name the match knows is in the list of all controls. -/
theorem mem_allControls_of_enabled {control : String}
    (h : engine.controlEnabled control = true) : control ∈ allControls := by
  unfold controlEnabled at h
  split at h <;> first | cases h | simp [allControls]

/-- The set answers the match, for every text: an unknown name is not enabled. -/
theorem mem_enabledControls {control : String} :
    control ∈ engine.enabledControls ↔ engine.controlEnabled control = true := by
  rw [enabledControls, mem_foldl_insert]
  constructor
  · rintro (hempty | ⟨-, henabled⟩)
    · simp at hempty
    · exact henabled
  · exact fun henabled => .inr ⟨mem_allControls_of_enabled henabled, henabled⟩

/-! ## The report -/

theorem nodup_requiredControls (regulation : Regulation) : (requiredControls regulation).Nodup := by
  cases regulation <;> decide

/-- The loop filters the controls and maps them, behind what it starts with. -/
theorem foldl_evaluateControl (day : UInt32) (controls missing : List String)
    (artifacts : List ComplianceArtifact) :
    controls.foldl (engine.evaluateControl day) (missing, artifacts) =
      (missing ++ controls.filter (engine.controlEnabled · = false),
        artifacts ++ controls.map fun control =>
          generateArtifact control day (engine.controlEnabled control)) := by
  induction controls generalizing missing artifacts with
  | nil => simp
  | cons control controls ih =>
      rw [List.foldl_cons, evaluateControl, ih]
      by_cases henabled : engine.controlEnabled control = false <;> simp [henabled]

theorem missingControls_evaluate (engine : ComplianceEngine) (regulation : Regulation)
    (day : UInt32) : (engine.evaluate regulation day).missingControls =
      ((requiredControls regulation).toFinset \ engine.enabledControls).sort := by
  simp only [evaluate, foldl_evaluateControl, List.nil_append]
  refine sortByKey_eq_sort ((nodup_requiredControls regulation).filter _) ?_
  ext control
  simp [mem_enabledControls]

theorem artifacts_evaluate (engine : ComplianceEngine) (regulation : Regulation)
    (day : UInt32) : (engine.evaluate regulation day).artifacts =
      (requiredControls regulation).toFinset.sort.map fun control =>
        generateArtifact control day (control ∈ engine.enabledControls) := by
  have hmapped := List.map_insertionSort (r := fun a b : String => a ≤ b)
    (s := fun a b : ComplianceArtifact => a.control ≤ b.control)
    (fun control => generateArtifact control day (engine.controlEnabled control))
    (requiredControls regulation) (fun _ _ _ _ => .rfl)
  simp only [evaluate, foldl_evaluateControl, List.nil_append]
  rw [← sortByKey_eq_sort (nodup_requiredControls regulation) rfl]
  simp only [mem_enabledControls, Bool.decide_eq_true]
  exact hmapped.symm

/-- The report is ready when what is required is enabled. -/
theorem ready_evaluate (engine : ComplianceEngine) (regulation : Regulation) (day : UInt32) :
    (engine.evaluate regulation day).ready =
      decide ((requiredControls regulation).toFinset ⊆ engine.enabledControls) := by
  have hready : (engine.evaluate regulation day).ready =
      (engine.evaluate regulation day).missingControls.isEmpty := rfl
  rw [hready, missingControls_evaluate, Bool.eq_iff_iff, List.isEmpty_iff, decide_eq_true_iff,
    ← List.length_eq_zero_iff, Finset.length_sort, Finset.card_eq_zero,
    Finset.sdiff_eq_empty_iff_subset]

/-- The report is the one that the set of enabled controls calls for. -/
theorem evaluate_eq_ofEnabled (engine : ComplianceEngine) (regulation : Regulation)
    (day : UInt32) :
    engine.evaluate regulation day = .ofEnabled regulation day engine.enabledControls := by
  have fields : engine.evaluate regulation day = {
      regulation
      ready := (engine.evaluate regulation day).ready
      missingControls := (engine.evaluate regulation day).missingControls
      artifacts := (engine.evaluate regulation day).artifacts } := rfl
  rw [fields, ready_evaluate, missingControls_evaluate, artifacts_evaluate,
    ComplianceReport.ofEnabled]

end ComplianceEngine

end LiteLlmSecurity
