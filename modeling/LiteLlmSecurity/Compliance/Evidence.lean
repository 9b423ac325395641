import LiteLlmSecurity.Compliance.Engine
import LiteLlmSecurity.Rust.Ascii
import LiteLlmSecurity.Text.Separator
import LiteLlmSecurity.Types.Fnv

/-!
# What compliance artifacts tell

The identifier of an artifact is its control and its day, joined at the last dash.
Its evidence is an FNV hash, which does collide, but never on the two texts it may
be made of: `true` and `false` have byte sums of different parity, and the hash
keeps the parity. The artifacts alone thus tell which controls were enabled, and
with that the whole outcome of the report.
-/

namespace LiteLlmSecurity

open Rust StableSort

namespace ComplianceEngine

/-! ## One artifact -/

/-- The last dash stands before the day. -/
theorem artifactId_inj {control control' : String} {day day' : UInt32} {enabled enabled' : Bool} :
    (generateArtifact control day enabled).artifactId =
        (generateArtifact control' day' enabled').artifactId ↔
      control = control' ∧ day = day' := by
  constructor
  · intro h
    have nodash : ∀ n : Nat, '-' ∉ n.repr.toList := Decimal.notMem_repr (by decide)
    have htext : control.toList ++ '-' :: day.toNat.repr.toList =
        control'.toList ++ '-' :: day'.toNat.repr.toList := by
      simpa [generateArtifact] using congrArg String.toList h
    obtain ⟨hcontrol, hday⟩ := Separator.append_cons_inj_right htext (nodash _) (nodash _)
    exact ⟨String.toList_inj.mp hcontrol,
      UInt32.toNat_inj.mp (Decimal.repr_toList_injective hday)⟩
  · rintro ⟨rfl, rfl⟩
    rfl

/-- The two texts of a control and a day never have one hash. -/
theorem evidence_inj {control : String} {day : UInt32} {enabled enabled' : Bool} :
    fnv64Hex (asBytes (evidenceText control day enabled)) =
        fnv64Hex (asBytes (evidenceText control day enabled')) ↔
      enabled = enabled' := by
  have split : ∀ enabled, asBytes (evidenceText control day enabled) =
      asBytes s!"{control}|{day}|" ++ asBytes (toString enabled) := by
    intro enabled
    rw [← asBytes_append]
    rfl
  have parity : ((asBytes "true").map fun byte => (byte.toNat : ZMod 2)).sum ≠
      ((asBytes "false").map fun byte => (byte.toNat : ZMod 2)).sum := by decide
  constructor
  · intro h
    rw [split, split] at h
    cases enabled <;> cases enabled'
    · rfl
    · exact absurd h.symm (fnv64Hex_append_ne_of_parity _ parity)
    · exact absurd h (fnv64Hex_append_ne_of_parity _ parity)
    · rfl
  · rintro rfl
    rfl

/-! ## Artifacts of reports -/

variable {engine engine' : ComplianceEngine} {regulation regulation' : Regulation}
  {day day' : UInt32}

theorem mem_artifacts {artifact : ComplianceArtifact} :
    artifact ∈ (engine.evaluate regulation day).artifacts ↔
      ∃ control ∈ requiredControls regulation,
        artifact = generateArtifact control day (control ∈ engine.enabledControls) := by
  rw [artifacts_evaluate]
  simp only [List.mem_map, Finset.mem_sort, List.mem_toFinset, eq_comm]

variable (engine engine' regulation regulation' day day') in
/-- Artifacts with one identifier, of any two reports, are about one control and one
day, and their evidence is the same exactly when both engines enabled the control or
neither did. -/
theorem artifact_tells_enabled {artifact artifact' : ComplianceArtifact}
    (hmem : artifact ∈ (engine.evaluate regulation day).artifacts)
    (hmem' : artifact' ∈ (engine'.evaluate regulation' day').artifacts)
    (sameId : artifact.artifactId = artifact'.artifactId) :
    artifact.control = artifact'.control ∧ artifact.generatedDay = artifact'.generatedDay ∧
      (artifact.evidenceHash = artifact'.evidenceHash ↔
        (artifact.control ∈ engine.enabledControls ↔
          artifact.control ∈ engine'.enabledControls)) := by
  obtain ⟨control, -, rfl⟩ := mem_artifacts.mp hmem
  obtain ⟨control', -, rfl⟩ := mem_artifacts.mp hmem'
  obtain ⟨rfl, rfl⟩ := artifactId_inj.mp sameId
  exact ⟨rfl, rfl, evidence_inj.trans decide_eq_decide⟩

/-- A profile with everything but the handling of deletion requests. -/
def withoutDeletion : ComplianceEngine := ⟨⟨true, false, true, true, true, true, true, true⟩⟩

/-- A profile with everything. -/
def complete : ComplianceEngine := ⟨⟨true, true, true, true, true, true, true, true⟩⟩

/-- The artifacts for deletion requests of one day, in reports on two regulations, show
that one of the engines does not handle them. -/
theorem artifact_tells_deletion :
    (generateArtifact "deletion_requests" 100 false).evidenceHash ≠
      (generateArtifact "deletion_requests" 100 true).evidenceHash := by
  have disabled : "deletion_requests" ∉ withoutDeletion.enabledControls := by
    rw [mem_enabledControls]
    exact Bool.false_ne_true
  have enabled : "deletion_requests" ∈ complete.enabledControls := mem_enabledControls.mpr rfl
  have hmem : generateArtifact "deletion_requests" 100 false ∈
      (withoutDeletion.evaluate .gdpr 100).artifacts :=
    mem_artifacts.mpr ⟨"deletion_requests", by decide, by rw [decide_eq_false disabled]⟩
  have hmem' : generateArtifact "deletion_requests" 100 true ∈
      (complete.evaluate .ccpa 100).artifacts :=
    mem_artifacts.mpr ⟨"deletion_requests", by decide, by rw [decide_eq_true enabled]⟩
  intro heq
  obtain ⟨-, -, tells⟩ :=
    artifact_tells_enabled withoutDeletion complete .gdpr .ccpa 100 100 hmem hmem' rfl
  exact disabled ((tells.mp heq).mpr enabled)

/-! ## All artifacts of a report -/

theorem requiredControls_ne_nil (regulation : Regulation) : requiredControls regulation ≠ [] := by
  cases regulation <;> exact List.cons_ne_nil _ _

theorem generateArtifact_inj {control control' : String} {enabled enabled' : Bool} :
    generateArtifact control day enabled = generateArtifact control' day' enabled' ↔
      control = control' ∧ day = day' ∧ enabled = enabled' := by
  constructor
  · intro h
    obtain ⟨rfl, rfl⟩ := artifactId_inj.mp (congrArg ComplianceArtifact.artifactId h)
    exact ⟨rfl, rfl, evidence_inj.mp (congrArg ComplianceArtifact.evidenceHash h)⟩
  · rintro ⟨rfl, rfl, rfl⟩
    rfl

/-- Two reports have the same artifacts exactly when they are of one day and of
regulations with the same requirements, and miss the same controls. -/
theorem artifacts_eq_iff (engine engine' : ComplianceEngine) (regulation regulation' : Regulation)
    (day day' : UInt32) :
    (engine.evaluate regulation day).artifacts = (engine'.evaluate regulation' day').artifacts ↔
      day = day' ∧
      (requiredControls regulation).toFinset = (requiredControls regulation').toFinset ∧
      (engine.evaluate regulation day).missingControls =
        (engine'.evaluate regulation' day').missingControls := by
  rw [artifacts_evaluate, artifacts_evaluate, missingControls_evaluate, missingControls_evaluate]
  constructor
  · intro h
    have hcontrols := congrArg (List.map ComplianceArtifact.control) h
    have hsort : (requiredControls regulation).toFinset.sort =
        (requiredControls regulation').toFinset.sort := by
      simpa [Function.comp_def, generateArtifact] using hcontrols
    have hrequired : (requiredControls regulation).toFinset =
        (requiredControls regulation').toFinset := sort_inj.mp hsort
    rw [hsort, List.map_inj_left] at h
    simp only [Finset.mem_sort, generateArtifact_inj] at h
    obtain ⟨control, hcontrol⟩ := List.exists_mem_of_ne_nil _ (requiredControls_ne_nil regulation')
    refine ⟨(h control (List.mem_toFinset.mpr hcontrol)).2.1, hrequired, ?_⟩
    rw [hrequired]
    congr 1
    ext control
    simp only [Finset.mem_sdiff]
    exact and_congr_right fun hmem => not_congr (decide_eq_decide.mp (h control hmem).2.2)
  · rintro ⟨rfl, hrequired, hmissing⟩
    have hsets : (requiredControls regulation').toFinset \ engine.enabledControls =
        (requiredControls regulation').toFinset \ engine'.enabledControls :=
      sort_inj.mp (hrequired ▸ hmissing)
    rw [hrequired, List.map_inj_left]
    intro control hmem
    rw [Finset.mem_sort] at hmem
    have hboth := Finset.ext_iff.mp hsets control
    simp only [Finset.mem_sdiff, hmem, true_and, not_iff_not] at hboth
    rw [generateArtifact_inj]
    exact ⟨rfl, rfl, decide_eq_decide.mpr hboth⟩

end ComplianceEngine

end LiteLlmSecurity
