import LiteLlmSecurity.Error
import LiteLlmSecurity.Types
import Mathlib.Data.Finset.Basic

/-!
# The plugin sandbox

A runtime grants capability tokens, checks them, and records resource usage. A
token is stored under an id computed from four of the grant's arguments, and a
grant replaces whatever is stored under its id.
-/

namespace LiteLlmSecurity

open Rust

inductive Capability where
  | readTensor
  | routeToken
  | accessKvCache
  | loadExpert
  | filesystem
  | network
  deriving DecidableEq, Repr

/-- The `{:?}` text of a capability. -/
def Capability.debug : Capability → String
  | .readTensor => "ReadTensor"
  | .routeToken => "RouteToken"
  | .accessKvCache => "AccessKvCache"
  | .loadExpert => "LoadExpert"
  | .filesystem => "Filesystem"
  | .network => "Network"

structure CapabilityToken where
  tokenId : String
  pluginId : String
  capabilities : Finset Capability
  issuedStep : UInt64
  expiresStep : UInt64
  deriving DecidableEq

structure SandboxConfig where
  allowedSyscalls : Finset String
  maxMemoryBytes : UInt64
  maxCpuMillis : UInt64
  deriving DecidableEq

structure ResourceUsage where
  memoryBytes : UInt64
  cpuMillis : UInt64
  deriving DecidableEq, Repr

structure SandboxRuntime where
  config : Option SandboxConfig
  tokens : BTreeMap String CapabilityToken
  pluginUsage : BTreeMap String ResourceUsage

/-- The id a grant stores its token under. -/
def tokenIdOf (pluginId : String) (nowStep ttlSteps seed : UInt64) : String :=
  fnv64Hex (asBytes s!"{pluginId}|{nowStep}|{ttlSteps}|{seed}")

namespace SandboxRuntime

/-- `SandboxRuntime::default`. -/
def empty : SandboxRuntime := { config := none, tokens := ∅, pluginUsage := ∅ }

def configure (runtime : SandboxRuntime) (config : SandboxConfig) :
    SecurityResult Unit × SandboxRuntime :=
  if config.maxMemoryBytes = 0 ∨ config.maxCpuMillis = 0 then
    (.error (.invalidConfig "sandbox resource limits must be greater than zero"), runtime)
  else (.ok (), { runtime with config := some config })

def grantCapabilities (checks : OverflowChecks) (runtime : SandboxRuntime) (pluginId : String)
    (capabilities : Finset Capability) (nowStep ttlSteps seed : UInt64) :
    SecurityOutcome CapabilityToken × SandboxRuntime :=
  if trim pluginId = "" then
    (.error (.err (.invalidInput "plugin_id must not be empty")), runtime)
  else if ttlSteps = 0 then
    (.error (.err (.invalidInput "ttl_steps must be greater than zero")), runtime)
  else
    let tokenId := tokenIdOf pluginId nowStep ttlSteps seed
    match addU64 checks nowStep ttlSteps with
    | .error fault => (.error fault, runtime)
    | .ok expiresStep =>
        let token := { tokenId, pluginId, capabilities, issuedStep := nowStep, expiresStep }
        (.ok token, { runtime with tokens := runtime.tokens.insert tokenId token })

/-- The checks of `validate_capability` on the token it found. -/
def checkToken (token : CapabilityToken) (pluginId : String) (capability : Capability)
    (nowStep : UInt64) : SecurityResult Unit :=
  if token.pluginId ≠ pluginId then .error (.sandboxDenied "token does not belong to plugin")
  else if nowStep > token.expiresStep then .error (.sandboxDenied "capability token is expired")
  else if capability ∉ token.capabilities then
    .error (.sandboxDenied s!"missing capability {capability.debug}")
  else .ok ()

def validateCapability (runtime : SandboxRuntime) (tokenId pluginId : String)
    (capability : Capability) (nowStep : UInt64) : SecurityResult Unit :=
  match runtime.tokens[tokenId]? with
  | none => .error (.sandboxDenied "unknown capability token")
  | some token => checkToken token pluginId capability nowStep

def validateSyscall (runtime : SandboxRuntime) (syscall : String) : SecurityResult Unit :=
  match runtime.config with
  | none => .error (.invalidState "sandbox not configured")
  | some config =>
      if syscall ∉ config.allowedSyscalls then
        .error (.sandboxDenied s!"syscall '{syscall}' not allowed")
      else .ok ()

def recordUsage (runtime : SandboxRuntime) (pluginId : String) (usage : ResourceUsage) :
    SecurityResult Unit × SandboxRuntime :=
  match runtime.config with
  | none => (.error (.invalidState "sandbox not configured"), runtime)
  | some config =>
      if usage.memoryBytes > config.maxMemoryBytes then
        (.error (.sandboxDenied "memory limit exceeded"), runtime)
      else if usage.cpuMillis > config.maxCpuMillis then
        (.error (.sandboxDenied "cpu limit exceeded"), runtime)
      else (.ok (), { runtime with pluginUsage := runtime.pluginUsage.insert pluginId usage })

def revokeToken (runtime : SandboxRuntime) (tokenId : String) : SandboxRuntime :=
  { runtime with tokens := runtime.tokens.erase tokenId }

end SandboxRuntime

/-- The operations that change a runtime. -/
inductive SandboxOperation where
  | configure (config : SandboxConfig)
  | grantCapabilities (pluginId : String) (capabilities : Finset Capability)
      (nowStep ttlSteps seed : UInt64)
  | recordUsage (pluginId : String) (usage : ResourceUsage)
  | revokeToken (tokenId : String)
  deriving DecidableEq

/-- One operation, with its reply: the token it returned, if it returns one. -/
def SandboxRuntime.step (checks : OverflowChecks) (runtime : SandboxRuntime) :
    SandboxOperation → SecurityOutcome (Option CapabilityToken) × SandboxRuntime
  | .configure config =>
      (configure runtime config).map (fun reply => (Outcome.ofResult reply).map fun _ => none) id
  | .grantCapabilities pluginId capabilities nowStep ttlSteps seed =>
      (grantCapabilities checks runtime pluginId capabilities nowStep ttlSteps seed).map
        (·.map some) id
  | .recordUsage pluginId usage =>
      (recordUsage runtime pluginId usage).map
        (fun reply => (Outcome.ofResult reply).map fun _ => none) id
  | .revokeToken tokenId => (.ok none, runtime.revokeToken tokenId)

end LiteLlmSecurity
