import LiteLlmSecurity.Crates
import LiteLlmSecurity.Error

/-!
# The deterministic audit log

A log is a list of records. Each record seals one event with three digests: of
the event's canonical text, of the previous chain hash joined to it, and of the
signing secret joined to the new chain hash. `append` computes them for one event
and `verifyChain` recomputes them for a whole log, threading the previous chain
hash through its loop.
-/

namespace LiteLlmSecurity

open Rust

inductive AuditCategory where
  | modelLoad
  | tierActivation
  | routing
  | accessControl
  | cache
  | error
  | security
  deriving DecidableEq, Repr

/-- The `{:?}` text of a category. -/
def AuditCategory.debug : AuditCategory → String
  | .modelLoad => "ModelLoad"
  | .tierActivation => "TierActivation"
  | .routing => "Routing"
  | .accessControl => "AccessControl"
  | .cache => "Cache"
  | .error => "Error"
  | .security => "Security"

structure AuditEvent where
  sequence : UInt64
  timestampMs : UInt64
  category : AuditCategory
  actor : String
  action : String
  payload : String
  deriving DecidableEq, Repr

structure AuditRecord where
  event : AuditEvent
  prevHash : String
  eventHash : String
  chainHash : String
  signatureHex : String
  deriving DecidableEq, Repr

structure DeterministicAuditLog where
  nodeId : String
  signerId : String
  signingSecret : String
  records : List AuditRecord
  deriving DecidableEq, Repr

def canonicalEventPayload (event : AuditEvent) (nodeId : String) : String :=
  s!"{nodeId}|{event.sequence}|{event.category.debug}|{event.timestampMs}|" ++
    s!"{event.actor}|{event.action}|{event.payload}"

/-- The chain hash before the first record, the SHA-256 of the empty message. -/
def genesisHash : String :=
  "e3b0c44298fc1c149afbf4c8996fb92427ae41e4649b934ca495991b7852b855"

namespace DeterministicAuditLog

def new (nodeId signerId signingSecret : String) : DeterministicAuditLog :=
  { nodeId, signerId, signingSecret, records := [] }

def rootHash (log : DeterministicAuditLog) : String :=
  (log.records.getLast?.map (·.chainHash)).getD genesisHash

section

variable (sha256 : Bytes → Vector UInt8 32) (hex : Hex) (subtle : Subtle)

def signatureMaterial (secret signerId chainHash : String) : String :=
  sha256Hex sha256 hex s!"{secret}|{signerId}|{chainHash}"

/-- The body of the loop in `verify_chain`. -/
def verifyRecord (log : DeterministicAuditLog) (idx : Nat) (previous : String)
    (record : AuditRecord) : SecurityResult Unit :=
  if record.event.sequence ≠ UInt64.ofNat idx then
    .error (.tamperDetected "non-contiguous audit sequence")
  else if record.prevHash ≠ previous then
    .error (.tamperDetected "audit prev_hash mismatch")
  else
    let canonical := canonicalEventPayload record.event log.nodeId
    let expectedEventHash := sha256Hex sha256 hex canonical
    if subtle.differ expectedEventHash record.eventHash then
      .error (.tamperDetected "audit event hash mismatch")
    else
      let expectedChainHash := sha256Hex sha256 hex s!"{previous}|{expectedEventHash}"
      if subtle.differ expectedChainHash record.chainHash then
        .error (.tamperDetected "audit chain hash mismatch")
      else
        let expectedSig :=
          signatureMaterial sha256 hex log.signingSecret log.signerId record.chainHash
        if subtle.differ expectedSig record.signatureHex then
          .error (.tamperDetected "audit signature mismatch")
        else
          .ok ()

/-- The loop in `verify_chain` from index `idx` on. -/
def verifyFrom (log : DeterministicAuditLog) (idx : Nat) (previous : String) :
    List AuditRecord → SecurityResult Unit
  | [] => .ok ()
  | record :: rest => do
      verifyRecord sha256 hex subtle log idx previous record
      verifyFrom log (idx + 1) record.chainHash rest

def verifyChain (log : DeterministicAuditLog) : SecurityResult Unit :=
  verifyFrom sha256 hex subtle log 0 genesisHash log.records

/-- One append, with the log after it. A rejected event leaves the log alone. -/
def append (log : DeterministicAuditLog) (event : AuditEvent) :
    SecurityResult AuditRecord × DeterministicAuditLog :=
  if event.sequence ≠ UInt64.ofNat log.records.length then
    (.error (.invalidInput "audit sequence must be contiguous"), log)
  else
    let prevHash := log.rootHash
    let canonical := canonicalEventPayload event log.nodeId
    let eventHash := sha256Hex sha256 hex canonical
    let chainHash := sha256Hex sha256 hex s!"{prevHash}|{eventHash}"
    let signatureHex := signatureMaterial sha256 hex log.signingSecret log.signerId chainHash
    let record := { event, prevHash, eventHash, chainHash, signatureHex }
    (.ok record, { log with records := log.records ++ [record] })

end

end DeterministicAuditLog

end LiteLlmSecurity
