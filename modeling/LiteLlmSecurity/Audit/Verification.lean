import LiteLlmSecurity.Audit.Log
import LiteLlmSecurity.Machine.Run

/-!
# Verification accepts exactly what appending builds

`sealRecord` is the record that a log with a given previous chain hash holds for
an event. One verification step accepts a record exactly when it is sealed at its
index, and one append adds exactly the sealed record, so the two code paths agree
record by record. Induction from the right aligns the verifier's `previous`
variable with `rootHash`.
-/

namespace LiteLlmSecurity.DeterministicAuditLog

open Rust Machine

variable (sha256 : Bytes → Vector UInt8 32) (hex : Hex) (subtle : Subtle)

/-- The record of an event after the chain hash `previous`. -/
def sealRecord (log : DeterministicAuditLog) (previous : String) (event : AuditEvent) :
    AuditRecord :=
  let eventHash := sha256Hex sha256 hex (canonicalEventPayload event log.nodeId)
  let chainHash := sha256Hex sha256 hex s!"{previous}|{eventHash}"
  { event
    prevHash := previous
    eventHash
    chainHash
    signatureHex := signatureMaterial sha256 hex log.signingSecret log.signerId chainHash }

@[simp] theorem sealRecord_event (log : DeterministicAuditLog) (previous : String)
    (event : AuditEvent) : (sealRecord sha256 hex log previous event).event = event := rfl

/-- Sealing reads the log's identity and not its records. -/
@[simp] theorem sealRecord_records (log : DeterministicAuditLog) (records : List AuditRecord)
    (previous : String) (event : AuditEvent) :
    sealRecord sha256 hex { log with records } previous event =
      sealRecord sha256 hex log previous event := rfl

theorem append_of_ne {log : DeterministicAuditLog} {event : AuditEvent}
    (h : event.sequence ≠ UInt64.ofNat log.records.length) :
    append sha256 hex log event =
      (.error (.invalidInput "audit sequence must be contiguous"), log) := by
  simp [append, h]

theorem append_of_eq {log : DeterministicAuditLog} {event : AuditEvent}
    (h : event.sequence = UInt64.ofNat log.records.length) :
    append sha256 hex log event =
      (.ok (sealRecord sha256 hex log log.rootHash event),
        { log with records := log.records ++ [sealRecord sha256 hex log log.rootHash event] }) := by
  simp [append, h, sealRecord]

/-- The reply of an append determines the log after it. -/
theorem append_snd (log : DeterministicAuditLog) (event : AuditEvent) :
    (append sha256 hex log event).2 =
      { log with records := log.records ++ (append sha256 hex log event).1.toOption.toList } := by
  by_cases h : event.sequence = UInt64.ofNat log.records.length
  · rw [append_of_eq sha256 hex h]
    rfl
  · rw [append_of_ne sha256 hex h]
    simp [Except.toOption]

/-- One verification step accepts exactly the sealed record of its event, at the
event's own index. -/
theorem verifyRecord_eq_ok_iff (log : DeterministicAuditLog) (idx : Nat) (previous : String)
    (record : AuditRecord) :
    verifyRecord sha256 hex subtle log idx previous record = .ok () ↔
      record.event.sequence = UInt64.ofNat idx ∧
        record = sealRecord sha256 hex log previous record.event := by
  obtain ⟨event, prevHash, eventHash, chainHash, signatureHex⟩ := record
  simp only [verifyRecord, ite_error_eq_ok_iff, Subtle.differ_iff, sealRecord,
    AuditRecord.mk.injEq, ne_eq, not_not, true_and, and_true]
  refine and_congr_right fun _ => ?_
  constructor
  · rintro ⟨hprev, hevent, hchain, hsignature⟩
    subst hprev hevent hchain hsignature
    exact ⟨rfl, rfl, rfl, rfl⟩
  · rintro ⟨hprev, hevent, hchain, hsignature⟩
    subst hprev hevent hchain hsignature
    exact ⟨rfl, rfl, rfl, rfl⟩

@[simp] theorem verifyFrom_nil (log : DeterministicAuditLog) (idx : Nat) (previous : String) :
    verifyFrom sha256 hex subtle log idx previous [] = .ok () := rfl

theorem verifyFrom_cons_eq_ok_iff (log : DeterministicAuditLog) (idx : Nat) (previous : String)
    (record : AuditRecord) (rest : List AuditRecord) :
    verifyFrom sha256 hex subtle log idx previous (record :: rest) = .ok () ↔
      verifyRecord sha256 hex subtle log idx previous record = .ok () ∧
        verifyFrom sha256 hex subtle log (idx + 1) record.chainHash rest = .ok () := by
  rw [verifyFrom]
  cases h : verifyRecord sha256 hex subtle log idx previous record with
  | error e => simp [bind, Except.bind]
  | ok u => simp [bind, Except.bind]

/-- The chain hash after a list of records that starts after `previous`. -/
def lastHash (previous : String) (records : List AuditRecord) : String :=
  (records.getLast?.map (·.chainHash)).getD previous

@[simp] theorem lastHash_nil (previous : String) : lastHash previous [] = previous := rfl

@[simp] theorem lastHash_cons (previous : String) (record : AuditRecord)
    (records : List AuditRecord) :
    lastHash previous (record :: records) = lastHash record.chainHash records := by
  cases h : records.getLast? <;> simp [lastHash, List.getLast?_cons, h]

/-- A log verifies in two parts, the second starting where the first ends. -/
theorem verifyFrom_append_eq_ok_iff (log : DeterministicAuditLog) (idx : Nat)
    (previous : String) (front back : List AuditRecord) :
    verifyFrom sha256 hex subtle log idx previous (front ++ back) = .ok () ↔
      verifyFrom sha256 hex subtle log idx previous front = .ok () ∧
        verifyFrom sha256 hex subtle log (idx + front.length) (lastHash previous front) back =
          .ok () := by
  induction front generalizing idx previous with
  | nil => simp
  | cons record front ih =>
      rw [List.cons_append, verifyFrom_cons_eq_ok_iff, verifyFrom_cons_eq_ok_iff, ih, and_assoc,
        lastHash_cons, List.length_cons, Nat.add_assoc, Nat.add_comm 1]

theorem verifyFrom_records (log : DeterministicAuditLog) (kept : List AuditRecord) (idx : Nat)
    (previous : String) (records : List AuditRecord) :
    verifyFrom sha256 hex subtle { log with records := kept } idx previous records =
      verifyFrom sha256 hex subtle log idx previous records := by
  induction records generalizing idx previous with
  | nil => rfl
  | cons record records ih =>
      simp only [verifyFrom, ih]
      rfl

/-- Verifying one more record checks it after the root hash of the others. -/
theorem verifyChain_concat_eq_ok_iff (log : DeterministicAuditLog) (records : List AuditRecord)
    (record : AuditRecord) :
    verifyChain sha256 hex subtle { log with records := records ++ [record] } = .ok () ↔
      verifyChain sha256 hex subtle { log with records } = .ok () ∧
        record.event.sequence = UInt64.ofNat records.length ∧
        record = sealRecord sha256 hex log ({ log with records } : DeterministicAuditLog).rootHash
          record.event := by
  simp only [verifyChain, verifyFrom_records, verifyFrom_append_eq_ok_iff,
    verifyFrom_cons_eq_ok_iff, verifyFrom_nil, verifyRecord_eq_ok_iff, Nat.zero_add, and_true]
  rfl

/-- An accepted append keeps a verified log verified, a rejected one keeps the log. -/
theorem verifyChain_append {log : DeterministicAuditLog}
    (verified : verifyChain sha256 hex subtle log = .ok ()) (event : AuditEvent) :
    verifyChain sha256 hex subtle (append sha256 hex log event).2 = .ok () := by
  by_cases h : event.sequence = UInt64.ofNat log.records.length
  · rw [append_of_eq sha256 hex h]
    exact (verifyChain_concat_eq_ok_iff sha256 hex subtle log log.records _).mpr
      ⟨verified, h, rfl⟩
  · rw [append_of_ne sha256 hex h]
    exact verified

theorem verifyChain_after (nodeId signerId signingSecret : String) (events : List AuditEvent) :
    verifyChain sha256 hex subtle
      (after (append sha256 hex) (new nodeId signerId signingSecret) events) = .ok () :=
  after_preserves (P := fun log => verifyChain sha256 hex subtle log = .ok ())
    (fun _ event verified => verifyChain_append sha256 hex subtle verified event) rfl events

/-- A run's accepted replies are the records it added. -/
theorem after_append_eq (log : DeterministicAuditLog) (events : List AuditEvent) :
    after (append sha256 hex) log events =
      { log with records := log.records ++
          (history (append sha256 hex) log events).filterMap (·.2.toOption) } := by
  induction events generalizing log with
  | nil => simp
  | cons event events ih =>
      rw [after_cons, ih, history_cons, append_snd]
      cases (append sha256 hex log event).1 <;> simp [Except.toOption]

/-- The events of `records`, appended in order to an empty log, are all accepted
and give back `records`. -/
def Rebuilds (nodeId signerId signingSecret : String) (records : List AuditRecord) : Prop :=
  history (append sha256 hex) (new nodeId signerId signingSecret) (records.map (·.event)) =
    records.map fun record => (record.event, .ok record)

variable {sha256 hex}

theorem Rebuilds.after_eq {nodeId signerId signingSecret : String} {records : List AuditRecord}
    (h : Rebuilds sha256 hex nodeId signerId signingSecret records) :
    after (append sha256 hex) (new nodeId signerId signingSecret) (records.map (·.event)) =
      { nodeId, signerId, signingSecret, records } := by
  rw [after_append_eq, h]
  simp [new, List.filterMap_map, Except.toOption]

/-- One more record is rebuilt exactly when the others are and the log they give
appends it. -/
theorem rebuilds_concat_iff {nodeId signerId signingSecret : String}
    {records : List AuditRecord} {record : AuditRecord} :
    Rebuilds sha256 hex nodeId signerId signingSecret (records ++ [record]) ↔
      Rebuilds sha256 hex nodeId signerId signingSecret records ∧
        (append sha256 hex { nodeId, signerId, signingSecret, records } record.event).1 =
          .ok record := by
  have split : Rebuilds sha256 hex nodeId signerId signingSecret (records ++ [record]) ↔
      Rebuilds sha256 hex nodeId signerId signingSecret records ∧
        (append sha256 hex (after (append sha256 hex) (new nodeId signerId signingSecret)
          (records.map (·.event))) record.event).1 = .ok record := by
    simp only [Rebuilds, List.map_append, List.map_cons, List.map_nil, history_append,
      history_cons, history_nil]
    constructor
    · intro h
      obtain ⟨hfront, hlast⟩ := List.append_inj' h rfl
      exact ⟨hfront, by simpa using hlast⟩
    · rintro ⟨hfront, hlast⟩
      rw [hfront, hlast]
  rw [split]
  exact and_congr_right fun h => by rw [h.after_eq]

variable (sha256 hex)

theorem verifyChain_eq_ok_iff_rebuilds (nodeId signerId signingSecret : String)
    (records : List AuditRecord) :
    verifyChain sha256 hex subtle { nodeId, signerId, signingSecret, records } = .ok () ↔
      Rebuilds sha256 hex nodeId signerId signingSecret records := by
  induction records using List.reverseRecOn with
  | nil => exact ⟨fun _ => rfl, fun _ => rfl⟩
  | append_singleton records record ih =>
      have step := verifyChain_concat_eq_ok_iff sha256 hex subtle
        { nodeId, signerId, signingSecret, records } records record
      rw [step, ih, rebuilds_concat_iff]
      refine and_congr_right fun _ => ?_
      by_cases h : record.event.sequence = UInt64.ofNat records.length
      · rw [append_of_eq sha256 hex h]
        simp [h, eq_comm]
      · rw [append_of_ne sha256 hex h]
        simp [h]

/-- Verification accepts a record list exactly when appending its events in order
to an empty log of the same identity succeeds at every step and yields the list.
In particular every log that appends have built verifies, whichever of the events
were rejected. -/
theorem verifyChain_eq_ok_iff_rebuilt (nodeId signerId signingSecret : String) :
    (∀ records : List AuditRecord,
      verifyChain sha256 hex subtle { nodeId, signerId, signingSecret, records } = .ok () ↔
        history (append sha256 hex) (new nodeId signerId signingSecret)
            (records.map (·.event)) = records.map (fun record => (record.event, .ok record)) ∧
          after (append sha256 hex) (new nodeId signerId signingSecret)
            (records.map (·.event)) = { nodeId, signerId, signingSecret, records }) ∧
      ∀ events : List AuditEvent,
        verifyChain sha256 hex subtle
          (after (append sha256 hex) (new nodeId signerId signingSecret) events) = .ok () := by
  refine ⟨fun records => ?_, verifyChain_after sha256 hex subtle nodeId signerId signingSecret⟩
  rw [verifyChain_eq_ok_iff_rebuilds]
  exact ⟨fun h => ⟨h, h.after_eq⟩, fun h => h.1⟩

end LiteLlmSecurity.DeterministicAuditLog
