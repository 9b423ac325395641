import LiteLlmSecurity.Machine.Isolation
import LiteLlmSecurity.Sandbox.Grant

/-!
# The configuration in force and the usage it admitted

The configuration of a runtime is a register that accepted `configure` calls write,
and the usage of a plugin one that accepted `record_usage` calls write. Syscalls and
usage are decided by the configuration in force, which is the last accepted one. A
recorded usage was within the limits of the configuration in force when it was
recorded; later limits do not revise it.
-/

namespace LiteLlmSecurity

open Rust Machine

/-- A call on a runtime with its reply. -/
abbrev SandboxCall := SandboxOperation × SecurityOutcome (Option CapabilityToken)

/-- Whether a configuration admits a usage. -/
def SandboxConfig.Admits (config : SandboxConfig) (usage : ResourceUsage) : Prop :=
  usage.memoryBytes ≤ config.maxMemoryBytes ∧ usage.cpuMillis ≤ config.maxCpuMillis

/-- The limits that a configuration must have. -/
def SandboxConfig.Limited (config : SandboxConfig) : Prop :=
  config.maxMemoryBytes ≠ 0 ∧ config.maxCpuMillis ≠ 0

instance (config : SandboxConfig) : Decidable config.Limited :=
  inferInstanceAs (Decidable (_ ∧ _))

namespace SandboxRuntime

variable (checks : OverflowChecks)

/-- The configuration that a call puts in force. -/
def configured : SandboxCall → Option SandboxConfig
  | (.configure config, .ok _) => some config
  | _ => none

/-- The usage that a call records for a plugin. -/
def recorded (pluginId : String) : SandboxCall → Option ResourceUsage
  | (.recordUsage other usage, .ok _) => if other = pluginId then some usage else none
  | _ => none

/-- The configuration that the last accepted `configure` call put in force. -/
def configInForce (past : List SandboxCall) : Option SandboxConfig :=
  (past.filterMap configured).getLast?

/-- The usage that the last accepted `record_usage` call of a plugin recorded. -/
def lastUsage (pluginId : String) (past : List SandboxCall) : Option ResourceUsage :=
  (past.filterMap (recorded pluginId)).getLast?

/-! ## The outcomes of the two calls -/

theorem configure_of_limited {config : SandboxConfig} (limited : config.Limited)
    (runtime : SandboxRuntime) :
    configure runtime config = (.ok (), { runtime with config := some config }) := by
  rw [configure, if_neg (not_or.mpr limited)]

theorem configure_of_not_limited {config : SandboxConfig} (unlimited : ¬ config.Limited)
    (runtime : SandboxRuntime) :
    configure runtime config =
      (.error (.invalidConfig "sandbox resource limits must be greater than zero"), runtime) := by
  have zero : config.maxMemoryBytes = 0 ∨ config.maxCpuMillis = 0 := by
    simpa only [SandboxConfig.Limited, ne_eq, ← not_or, not_not] using unlimited
  rw [configure, if_pos zero]

/-- Usage is recorded when the configuration admits it, and otherwise refused without
a trace. -/
theorem recordUsage_cases (runtime : SandboxRuntime) (pluginId : String) (usage : ResourceUsage) :
    (∃ config, runtime.config = some config ∧ config.Admits usage ∧
      recordUsage runtime pluginId usage =
        (.ok (), { runtime with pluginUsage := runtime.pluginUsage.insert pluginId usage })) ∨
      (∀ config, runtime.config = some config → ¬ config.Admits usage) ∧
        ∃ error, recordUsage runtime pluginId usage = (.error error, runtime) := by
  cases hconfig : runtime.config with
  | none =>
      exact .inr ⟨nofun, .invalidState "sandbox not configured", by simp [recordUsage, hconfig]⟩
  | some config =>
      by_cases memory : usage.memoryBytes > config.maxMemoryBytes
      · refine .inr ⟨?_, .sandboxDenied "memory limit exceeded", by
          simp only [recordUsage, hconfig, if_pos memory]⟩
        rintro _ ⟨⟩ admits
        exact UInt64.not_le.mpr memory admits.1
      by_cases cpu : usage.cpuMillis > config.maxCpuMillis
      · refine .inr ⟨?_, .sandboxDenied "cpu limit exceeded", by
          simp only [recordUsage, hconfig, if_neg memory, if_pos cpu]⟩
        rintro _ ⟨⟩ admits
        exact UInt64.not_le.mpr cpu admits.2
      · exact .inl ⟨config, rfl, ⟨UInt64.not_lt.mp memory, UInt64.not_lt.mp cpu⟩, by
          simp only [recordUsage, hconfig, if_neg memory, if_neg cpu]⟩

theorem grantCapabilities_frame (runtime : SandboxRuntime) (pluginId : String)
    (capabilities : Finset Capability) (nowStep ttlSteps seed : UInt64) :
    (grantCapabilities checks runtime pluginId capabilities nowStep ttlSteps seed).2.config =
        runtime.config ∧
      (grantCapabilities checks runtime pluginId capabilities nowStep ttlSteps
        seed).2.pluginUsage = runtime.pluginUsage := by
  by_cases fails : GrantFails checks pluginId nowStep ttlSteps
  · obtain ⟨fault, hfault⟩ := grantCapabilities_of_fails checks fails runtime capabilities seed
    rw [hfault]
    exact ⟨rfl, rfl⟩
  · rw [grantCapabilities_of_not_fails checks fails]
    exact ⟨rfl, rfl⟩

/-! ## The two registers -/

/-- A step writes the configuration exactly by an accepted `configure`. -/
theorem config_step (runtime : SandboxRuntime) (operation : SandboxOperation) :
    (step checks runtime operation).2.config =
      (configured (operation, (step checks runtime operation).1)).or runtime.config := by
  cases operation with
  | configure config =>
      by_cases limited : config.Limited
      · simp only [step, configure_of_limited limited]
        rfl
      · simp only [step, configure_of_not_limited limited]
        rfl
  | grantCapabilities pluginId capabilities nowStep ttlSteps seed =>
      have kept := (grantCapabilities_frame checks runtime pluginId capabilities nowStep ttlSteps
        seed).1
      simp only [step, Prod.map_snd, id, kept]
      rfl
  | recordUsage pluginId usage =>
      obtain ⟨config, -, -, hok⟩ | ⟨-, error, hfail⟩ := recordUsage_cases runtime pluginId usage
      · simp only [step, hok]
        rfl
      · simp only [step, hfail]
        rfl
  | revokeToken tokenId => rfl

/-- A step writes the usage of a plugin exactly by an accepted `record_usage`. -/
theorem pluginUsage_step (pluginId : String) (runtime : SandboxRuntime)
    (operation : SandboxOperation) :
    (step checks runtime operation).2.pluginUsage[pluginId]? =
      (recorded pluginId (operation, (step checks runtime operation).1)).or
        runtime.pluginUsage[pluginId]? := by
  cases operation with
  | configure config =>
      by_cases limited : config.Limited
      · simp only [step, configure_of_limited limited]
        rfl
      · simp only [step, configure_of_not_limited limited]
        rfl
  | grantCapabilities owner capabilities nowStep ttlSteps seed =>
      have kept := (grantCapabilities_frame checks runtime owner capabilities nowStep ttlSteps
        seed).2
      simp only [step, Prod.map_snd, id, kept]
      rfl
  | recordUsage other usage =>
      obtain ⟨config, -, -, hok⟩ | ⟨-, error, hfail⟩ := recordUsage_cases runtime other usage
      · simp only [step, hok, Prod.map_fst, Prod.map_snd, id, recorded, Outcome.ofResult,
          Except.map, Std.ExtTreeMap.getElem?_insert]
        by_cases same : other = pluginId <;> simp [same]
      · simp only [step, hfail]
        rfl
  | revokeToken tokenId => rfl

theorem config_after (operations : List SandboxOperation) :
    (after (step checks) empty operations).config =
      configInForce (history (step checks) empty operations) :=
  (register_after (·.config) configured (config_step checks) empty operations).trans Option.or_none

theorem pluginUsage_after (pluginId : String) (operations : List SandboxOperation) :
    (after (step checks) empty operations).pluginUsage[pluginId]? =
      lastUsage pluginId (history (step checks) empty operations) := by
  have written := register_after (fun runtime => runtime.pluginUsage[pluginId]?) (recorded pluginId)
    (pluginUsage_step checks pluginId) empty operations
  rw [lastUsage, written]
  simp [empty]

/-- Every configuration that comes into force has limits. -/
theorem limited_after (operations : List SandboxOperation) :
    ∀ config, (after (step checks) empty operations).config = some config → config.Limited := by
  refine @after_preserves _ _ _ (step checks)
    (fun runtime => ∀ config, runtime.config = some config → config.Limited)
    (fun runtime operation limited config hconfig => ?_) empty (by simp [empty]) operations
  rw [config_step] at hconfig
  cases operation with
  | configure next =>
      by_cases positive : next.Limited
      · simp only [step, configure_of_limited positive] at hconfig
        cases hconfig
        exact positive
      · simp only [step, configure_of_not_limited positive] at hconfig
        exact limited config hconfig
  | grantCapabilities => exact limited config hconfig
  | recordUsage => exact limited config hconfig
  | revokeToken => exact limited config hconfig

/-! ## Decisions -/

theorem validateSyscall_eq_ok_iff (runtime : SandboxRuntime) (syscall : String) :
    validateSyscall runtime syscall = .ok () ↔
      ∃ config, runtime.config = some config ∧ syscall ∈ config.allowedSyscalls := by
  cases hconfig : runtime.config with
  | none => simp [validateSyscall, hconfig]
  | some config => by_cases allowed : syscall ∈ config.allowedSyscalls <;>
      simp [validateSyscall, hconfig, allowed]

theorem recordUsage_eq_ok_iff (runtime : SandboxRuntime) (pluginId : String)
    (usage : ResourceUsage) :
    (recordUsage runtime pluginId usage).1 = .ok () ↔
      ∃ config, runtime.config = some config ∧ config.Admits usage := by
  obtain ⟨config, hconfig, admits, hok⟩ | ⟨refused, error, hfail⟩ :=
    recordUsage_cases runtime pluginId usage
  · simp [hok, hconfig, admits]
  · simp only [hfail, reduceCtorEq, false_iff]
    rintro ⟨config, hconfig, admits⟩
    exact refused config hconfig admits

/-- After every run, a syscall is allowed and a usage is accepted exactly by the
configuration in force: the last one that was accepted, which has positive limits.
Before the first one nothing is. Tokens, usage and rejected calls do not matter. -/
theorem decided_by_configInForce (operations : List SandboxOperation) :
    (∀ syscall, validateSyscall (after (step checks) empty operations) syscall = .ok () ↔
      ∃ config, configInForce (history (step checks) empty operations) = some config ∧
        syscall ∈ config.allowedSyscalls) ∧
    (∀ pluginId usage,
      (recordUsage (after (step checks) empty operations) pluginId usage).1 = .ok () ↔
        ∃ config, configInForce (history (step checks) empty operations) = some config ∧
          config.Admits usage) ∧
    ∀ config, configInForce (history (step checks) empty operations) = some config →
      config.Limited := by
  rw [← config_after]
  exact ⟨fun syscall => validateSyscall_eq_ok_iff _ syscall,
    fun pluginId usage => recordUsage_eq_ok_iff _ pluginId usage, limited_after checks operations⟩

/-- The usage stored for a plugin after a run is the one in its last accepted
`record_usage` call, and the configuration then in force admitted it. There is none
exactly when no such call was accepted. -/
theorem stored_usage_was_admitted (operations : List SandboxOperation) (pluginId : String) :
    (∀ usage, (after (step checks) empty operations).pluginUsage[pluginId]? = some usage →
      ∃ earlier later config,
        history (step checks) empty operations =
          earlier ++ (.recordUsage pluginId usage, .ok none) :: later ∧
        (∀ call ∈ later, recorded pluginId call = none) ∧
        configInForce earlier = some config ∧ config.Limited ∧ config.Admits usage) ∧
    ((after (step checks) empty operations).pluginUsage[pluginId]? = none ↔
      ∀ call ∈ history (step checks) empty operations, recorded pluginId call = none) := by
  rw [pluginUsage_after, lastUsage]
  constructor
  · intro usage hlast
    obtain ⟨earlier, ⟨operation, reply⟩, later, hsplit, hwritten, hlater⟩ := exists_last_write hlast
    obtain ⟨before, rest, -, hearlier, hreply⟩ := history_eq_append_cons hsplit
    cases operation with
    | configure => cases hwritten
    | grantCapabilities => cases hwritten
    | revokeToken => cases hwritten
    | recordUsage other value =>
        obtain ⟨config, hconfig, admits, hok⟩ | ⟨-, error, hfail⟩ :=
          recordUsage_cases (after (step checks) empty before) other value
        · simp only [step, hok, Prod.map_fst] at hreply
          subst hreply
          obtain ⟨rfl, hvalue⟩ := Option.ite_none_right_eq_some.mp hwritten
          cases hvalue
          refine ⟨earlier, later, config, hsplit, hlater, ?_, limited_after checks before config
            hconfig, admits⟩
          rw [← hearlier, ← config_after, hconfig]
        · simp only [step, hfail, Prod.map_fst] at hreply
          subst hreply
          cases hwritten
  · rw [List.getLast?_eq_none_iff, List.filterMap_eq_nil_iff]

end SandboxRuntime

end LiteLlmSecurity
