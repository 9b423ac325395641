import LiteLlmSecurity.Audit.Verification
import LiteLlmSecurity.Reference
import LiteLlmSecurity.Text.Separator

/-!
# What replacing an event in a log goes unnoticed

The event of a record is covered by the digest of its canonical text, seven
fields joined at `|`. The first four cannot contain the separator or are shared
by the whole log, so the text determines them. The last three are free texts and
are determined only jointly, as one text `actor|action|payload`. Moving a
separator between them gives another event with the same digest.
-/

namespace LiteLlmSecurity

open Rust Machine DeterministicAuditLog

/-- The three free-text fields as the canonical text joins them. -/
def AuditEvent.freeText (event : AuditEvent) : String :=
  s!"{event.actor}|{event.action}|{event.payload}"

theorem AuditCategory.debug_injective : Function.Injective AuditCategory.debug := by
  intro a b
  cases a <;> cases b <;> decide

theorem AuditCategory.notMem_debug (category : AuditCategory) :
    '|' ∉ category.debug.toList := by
  cases category <;> decide

theorem canonicalEventPayload_toList (event : AuditEvent) (nodeId : String) :
    (canonicalEventPayload event nodeId).toList =
      nodeId.toList ++ '|' :: (event.sequence.toNat.repr.toList ++ '|' ::
        (event.category.debug.toList ++ '|' :: (event.timestampMs.toNat.repr.toList ++ '|' ::
          event.freeText.toList))) := by
  simp [canonicalEventPayload, AuditEvent.freeText]

/-- The canonical texts of two events on one node agree exactly when the events
agree in sequence, category and timestamp and in their joined free text. -/
theorem canonicalEventPayload_eq_iff (e f : AuditEvent) (nodeId : String) :
    canonicalEventPayload e nodeId = canonicalEventPayload f nodeId ↔
      e.sequence = f.sequence ∧ e.category = f.category ∧ e.timestampMs = f.timestampMs ∧
        e.freeText = f.freeText := by
  have nodigit : ∀ n : Nat, '|' ∉ n.repr.toList := Decimal.notMem_repr (by decide)
  constructor
  · intro h
    have hlist := congrArg String.toList h
    rw [canonicalEventPayload_toList, canonicalEventPayload_toList] at hlist
    have hfields := (List.cons.inj (List.append_cancel_left hlist)).2
    obtain ⟨hsequence, hfields⟩ := Separator.append_cons_inj hfields (nodigit _) (nodigit _)
    obtain ⟨hcategory, hfields⟩ :=
      Separator.append_cons_inj hfields e.category.notMem_debug f.category.notMem_debug
    obtain ⟨htimestamp, hfree⟩ := Separator.append_cons_inj hfields (nodigit _) (nodigit _)
    exact ⟨UInt64.toNat_inj.mp (Decimal.repr_toList_injective hsequence),
      AuditCategory.debug_injective (String.toList_inj.mp hcategory),
      UInt64.toNat_inj.mp (Decimal.repr_toList_injective htimestamp), String.toList_inj.mp hfree⟩
  · rintro ⟨hsequence, hcategory, htimestamp, hfree⟩
    rw [← String.toList_inj, canonicalEventPayload_toList, canonicalEventPayload_toList,
      hsequence, hcategory, htimestamp, hfree]

namespace DeterministicAuditLog

variable {sha256 : Bytes → Vector UInt8 32} {hex : Hex} {subtle : Subtle}

/-- Replace the event of the record at an index and nothing else. -/
def replaceEvent (log : DeterministicAuditLog) (i : Nat) (event : AuditEvent) :
    DeterministicAuditLog :=
  { log with records := log.records.modify i fun record => { record with event } }

/-- A sealed record stays acceptable under another event exactly when the event
has the same sequence and the same digest. -/
theorem verifyRecord_replaced_eq_ok_iff {log : DeterministicAuditLog} {idx : Nat}
    {previous : String} {record : AuditRecord} (event : AuditEvent)
    (verified : verifyRecord sha256 hex subtle log idx previous record = .ok ()) :
    verifyRecord sha256 hex subtle log idx previous { record with event } = .ok () ↔
      event.sequence = record.event.sequence ∧
        sha256Hex sha256 hex (canonicalEventPayload event log.nodeId) =
          sha256Hex sha256 hex (canonicalEventPayload record.event log.nodeId) := by
  obtain ⟨hsequence, hsealed⟩ := (verifyRecord_eq_ok_iff sha256 hex subtle _ _ _ _).mp verified
  rw [verifyRecord_eq_ok_iff, hsequence]
  refine and_congr_right fun _ => ?_
  constructor
  · intro h
    have hnew := congrArg AuditRecord.eventHash h
    have hold := congrArg AuditRecord.eventHash hsealed
    simp only [sealRecord] at hnew hold
    rw [← hnew, ← hold]
  · intro h
    conv_lhs => rw [hsealed]
    simp only [sealRecord, h]

/-- Replacing the event at an index of a verified log is noticed by no check
exactly when the check of that record does not notice it. -/
theorem verifyChain_replaceEvent_eq_ok_iff {log : DeterministicAuditLog} {i : Nat}
    {record : AuditRecord} (event : AuditEvent)
    (verified : verifyChain sha256 hex subtle log = .ok ())
    (hrecord : log.records[i]? = some record) :
    verifyChain sha256 hex subtle (log.replaceEvent i event) = .ok () ↔
      event.sequence = record.event.sequence ∧
        sha256Hex sha256 hex (canonicalEventPayload event log.nodeId) =
          sha256Hex sha256 hex (canonicalEventPayload record.event log.nodeId) := by
  obtain ⟨hi, hget⟩ := List.getElem?_eq_some_iff.mp hrecord
  have hsplit : log.records = log.records.take i ++ record :: log.records.drop (i + 1) := by
    rw [← hget, ← List.drop_eq_getElem_cons hi, List.take_append_drop]
  have hreplaced : (log.replaceEvent i event).records =
      log.records.take i ++ { record with event } :: log.records.drop (i + 1) := by
    rw [replaceEvent, List.modify_eq_take_cons_drop hi, hget]
  rw [verifyChain, hsplit, verifyFrom_append_eq_ok_iff, verifyFrom_cons_eq_ok_iff] at verified
  obtain ⟨hfront, hhere, hback⟩ := verified
  rw [verifyChain, hreplaced, replaceEvent, verifyFrom_records, verifyFrom_append_eq_ok_iff,
    verifyFrom_cons_eq_ok_iff, ← verifyRecord_replaced_eq_ok_iff event hhere]
  exact ⟨fun h => h.2.1, fun h => ⟨hfront, h, hback⟩⟩

/-- In every log built by appends, replacing one event by a different one makes
verification fail exactly when the two events differ in sequence, category or
timestamp, or in their joined free text. The digests of the two canonical texts
must not collide. -/
theorem verifyChain_replaceEvent_error_iff (hhex : Function.Injective hex.encode)
    (nodeId signerId signingSecret : String) (events : List AuditEvent) (i : Nat)
    (record : AuditRecord) (event : AuditEvent)
    (hrecord : (after (append sha256 hex) (new nodeId signerId signingSecret)
      events).records[i]? = some record)
    (hsha : Set.InjOn sha256 {asBytes (canonicalEventPayload event nodeId),
      asBytes (canonicalEventPayload record.event nodeId)}) :
    (∃ error, verifyChain sha256 hex subtle
        ((after (append sha256 hex) (new nodeId signerId signingSecret) events).replaceEvent
          i event) = .error error) ↔
      event.sequence ≠ record.event.sequence ∨ event.category ≠ record.event.category ∨
        event.timestampMs ≠ record.event.timestampMs ∨
        event.freeText ≠ record.event.freeText := by
  have hnode : (after (append sha256 hex) (new nodeId signerId signingSecret) events).nodeId =
      nodeId := by
    rw [after_append_eq]
    rfl
  have verified := verifyChain_after sha256 hex subtle nodeId signerId signingSecret events
  have accepted := verifyChain_replaceEvent_eq_ok_iff event verified hrecord
  rw [hnode, sha256Hex_inj hhex hsha, canonicalEventPayload_eq_iff] at accepted
  rw [exists_error_iff, accepted, ← and_assoc, and_self, not_and_or, not_and_or, not_and_or]

/-- An event whose actor contains the separator. -/
def loadEvent : AuditEvent where
  sequence := 0
  timestampMs := 1000
  category := .security
  actor := "runtime|load"
  action := "auth"
  payload := "ok"

theorem verifyChain_replaceEvent_error_payload :
    (∃ error, verifyChain Sha256.hash Reference.hex Reference.subtle
        ((after (append Sha256.hash Reference.hex) (new "n1" "signer" "secret")
          [loadEvent]).replaceEvent 0 { loadEvent with payload := "tampered" }) =
        .error error) ↔
      (0 : UInt64) ≠ 0 ∨ AuditCategory.security ≠ .security ∨ (1000 : UInt64) ≠ 1000 ∨
        "runtime|load|auth|tampered" ≠ "runtime|load|auth|ok" := by
  have hdigests : Sha256.hash (asBytes "n1|0|Security|1000|runtime|load|auth|tampered") ≠
      Sha256.hash (asBytes "n1|0|Security|1000|runtime|load|auth|ok") := by decide +kernel
  exact verifyChain_replaceEvent_error_iff Reference.hex_lawful.encode_injective
    "n1" "signer" "secret" [loadEvent] 0
    (sealRecord Sha256.hash Reference.hex (new "n1" "signer" "secret") genesisHash loadEvent)
    { loadEvent with payload := "tampered" } rfl
    (Set.injOn_pair.mpr fun h => absurd h hdigests)

/-- The same event with the separator on the other side of the word `load`. -/
def movedEvent : AuditEvent := { loadEvent with actor := "runtime", action := "load|auth" }

/-- The separator between actor and action can be moved without a trace. -/
theorem moved_separator_unnoticed :
    ¬ ∀ (record : AuditRecord) (event : AuditEvent),
      (after (append Sha256.hash Reference.hex) (new "n1" "signer" "secret")
        [loadEvent]).records[0]? = some record →
      event ≠ record.event →
      Set.InjOn Sha256.hash {asBytes (canonicalEventPayload event "n1"),
        asBytes (canonicalEventPayload record.event "n1")} →
      ∃ error, verifyChain Sha256.hash Reference.hex Reference.subtle
        ((after (append Sha256.hash Reference.hex) (new "n1" "signer" "secret")
          [loadEvent]).replaceEvent 0 event) = .error error := by
  intro claim
  have sameText : canonicalEventPayload movedEvent "n1" = canonicalEventPayload loadEvent "n1" := by
    decide
  have stored : (after (append Sha256.hash Reference.hex) (new "n1" "signer" "secret")
      [loadEvent]).records[0]? =
    some (sealRecord Sha256.hash Reference.hex (new "n1" "signer" "secret") genesisHash
      loadEvent) := rfl
  have accepted : verifyChain Sha256.hash Reference.hex Reference.subtle
      ((after (append Sha256.hash Reference.hex) (new "n1" "signer" "secret")
        [loadEvent]).replaceEvent 0 movedEvent) = .ok () :=
    (verifyChain_replaceEvent_eq_ok_iff movedEvent
      (verifyChain_after _ _ _ "n1" "signer" "secret" [loadEvent]) stored).mpr
      ⟨rfl, congrArg (sha256Hex Sha256.hash Reference.hex) sameText⟩
  obtain ⟨error, rejected⟩ := claim _ movedEvent stored (by decide)
    (Set.injOn_pair.mpr fun _ => congrArg asBytes sameText)
  rw [accepted] at rejected
  cases rejected

end DeterministicAuditLog

end LiteLlmSecurity
