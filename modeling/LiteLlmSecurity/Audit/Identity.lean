import LiteLlmSecurity.Audit.Commitment

/-!
# Under which identities a log verifies

Two digests tie a record to the identity of its log. The canonical text starts
with the node id, before fields that the record fixes, so it determines the node
id. The signature is taken of the secret, the signer id and the chain hash joined
at `|`, and determines the first two only as one text: a separator can be moved
from the one to the other.
-/

namespace LiteLlmSecurity.DeterministicAuditLog

open Rust Machine

/-- The secret and the signer id as the signed text joins them. -/
def signerText (log : DeterministicAuditLog) : String := s!"{log.signingSecret}|{log.signerId}"

/-- The text whose digest is a signature. -/
def signatureText (secret signerId chainHash : String) : String :=
  s!"{secret}|{signerId}|{chainHash}"

/-- The texts that verifying a log hashes. -/
def hashedTexts (log : DeterministicAuditLog) : List String :=
  log.chainTexts ++
    log.records.map fun record => signatureText log.signingSecret log.signerId record.chainHash

variable {sha256 : Bytes → Vector UInt8 32} {hex : Hex} {subtle : Subtle}

/-! ## What the two texts determine -/

/-- The canonical text of an event determines the node id. -/
theorem nodeId_eq_of_canonicalEventPayload_eq {event : AuditEvent} {nodeId nodeId' : String}
    (h : canonicalEventPayload event nodeId = canonicalEventPayload event nodeId') :
    nodeId = nodeId' := by
  have hlist := congrArg String.toList h
  rw [canonicalEventPayload_toList, canonicalEventPayload_toList] at hlist
  exact String.toList_inj.mp (List.append_cancel_right hlist)

theorem signatureText_toList (log : DeterministicAuditLog) (chainHash : String) :
    (signatureText log.signingSecret log.signerId chainHash).toList =
      log.signerText.toList ++ '|' :: chainHash.toList := by
  simp [signatureText, signerText]

/-- The signed text of a chain hash determines the joined secret and signer id, and no
more. -/
theorem signatureText_eq_iff (log log' : DeterministicAuditLog) (chainHash : String) :
    signatureText log.signingSecret log.signerId chainHash =
        signatureText log'.signingSecret log'.signerId chainHash ↔
      log.signerText = log'.signerText := by
  rw [← String.toList_inj, signatureText_toList, signatureText_toList, ← String.toList_inj]
  exact List.append_left_inj _

/-! ## Verification under two identities -/

/-- Verification sees no more of an identity than the node id and the signer text. -/
theorem verifyFrom_congr {log log' : DeterministicAuditLog} (hnode : log'.nodeId = log.nodeId)
    (hsigner : log'.signerText = log.signerText) (idx : Nat) (previous : String)
    (records : List AuditRecord) :
    verifyFrom sha256 hex subtle log' idx previous records =
      verifyFrom sha256 hex subtle log idx previous records := by
  have hsignature : ∀ chainHash, signatureMaterial sha256 hex log'.signingSecret log'.signerId
      chainHash = signatureMaterial sha256 hex log.signingSecret log.signerId chainHash :=
    fun chainHash => congrArg (sha256Hex sha256 hex)
      ((signatureText_eq_iff log' log chainHash).mpr hsigner)
  induction records generalizing idx previous with
  | nil => rfl
  | cons record rest ih => simp only [verifyFrom, verifyRecord, hnode, hsignature, ih]

/-- Nor do the hashed texts show more of it. -/
theorem hashedTexts_congr {log log' : DeterministicAuditLog} (hnode : log'.nodeId = log.nodeId)
    (hsigner : log'.signerText = log.signerText) (sameRecords : log'.records = log.records) :
    log'.hashedTexts = log.hashedTexts := by
  have hsignature : ∀ chainHash, signatureText log'.signingSecret log'.signerId chainHash =
      signatureText log.signingSecret log.signerId chainHash :=
    fun chainHash => (signatureText_eq_iff log' log chainHash).mpr hsigner
  simp only [hashedTexts, chainTexts, canonicals, sameRecords, hnode, hsignature]

/-- A record that is sealed under two identities gives them one node id and one signer
text. -/
theorem identity_eq_of_sealed (hhex : Function.Injective hex.encode)
    {log log' : DeterministicAuditLog} {previous : String} {record : AuditRecord}
    (hrecord : record ∈ log.records) (hrecord' : record ∈ log'.records)
    (collisionFree : CollisionFree sha256 (log.hashedTexts ++ log'.hashedTexts))
    (hsealed : record = sealRecord sha256 hex log previous record.event)
    (hsealed' : record = sealRecord sha256 hex log' previous record.event) :
    log'.nodeId = log.nodeId ∧ log'.signerText = log.signerText := by
  have hashes_eq := collisionFree.injOn_sha256Hex hhex
  constructor
  · have hevent : sha256Hex sha256 hex (canonicalEventPayload record.event log'.nodeId) =
        sha256Hex sha256 hex (canonicalEventPayload record.event log.nodeId) :=
      congrArg AuditRecord.eventHash (hsealed'.symm.trans hsealed)
    have hcanonical : ∀ l : DeterministicAuditLog, record ∈ l.records →
        canonicalEventPayload record.event l.nodeId ∈ l.hashedTexts := by
      intro l hl
      exact List.mem_append_left _ (mem_chainTexts_of_mem_canonicals (List.mem_map_of_mem hl))
    exact nodeId_eq_of_canonicalEventPayload_eq
      (hashes_eq (List.mem_append_right _ (hcanonical log' hrecord'))
        (List.mem_append_left _ (hcanonical log hrecord)) hevent)
  · have hsignature : ∀ l : DeterministicAuditLog,
        record = sealRecord sha256 hex l previous record.event →
          record.signatureHex =
            sha256Hex sha256 hex (signatureText l.signingSecret l.signerId record.chainHash) := by
      intro l hl
      rw [hl]
      rfl
    have hmem : ∀ l : DeterministicAuditLog, record ∈ l.records →
        signatureText l.signingSecret l.signerId record.chainHash ∈ l.hashedTexts := by
      intro l hl
      exact List.mem_append_right _ (List.mem_map_of_mem hl)
    refine (signatureText_eq_iff log' log record.chainHash).mp
      (hashes_eq (List.mem_append_right _ (hmem log' hrecord'))
        (List.mem_append_left _ (hmem log hrecord)) ?_)
    rw [← hsignature log' hsealed', ← hsignature log hsealed]

/-- A non-empty list of records that verifies under one identity fails under another
exactly when the two differ in the node id or in the joined secret and signer id. -/
theorem verifyChain_otherIdentity_error_iff (hhex : Function.Injective hex.encode)
    (log other : DeterministicAuditLog) (nonempty : log.records ≠ [])
    (sameRecords : other.records = log.records)
    (verified : verifyChain sha256 hex subtle log = .ok ())
    (collisionFree : CollisionFree sha256 (log.hashedTexts ++ other.hashedTexts)) :
    (∃ error, verifyChain sha256 hex subtle other = .error error) ↔
      other.nodeId ≠ log.nodeId ∨
        s!"{other.signingSecret}|{other.signerId}" ≠ s!"{log.signingSecret}|{log.signerId}" := by
  rw [exists_error_iff, Ne, Ne, ← not_and_or, not_iff_not]
  constructor
  · intro verified'
    obtain ⟨record, rest, hrecords⟩ := List.exists_cons_of_ne_nil nonempty
    have hmem : record ∈ log.records := by simp [hrecords]
    -- The first record already tells the identities apart.
    rw [verifyChain, hrecords, verifyFrom_cons_eq_ok_iff, verifyRecord_eq_ok_iff] at verified
    rw [verifyChain, sameRecords, hrecords, verifyFrom_cons_eq_ok_iff,
      verifyRecord_eq_ok_iff] at verified'
    exact identity_eq_of_sealed hhex hmem (sameRecords ▸ hmem) collisionFree verified.1.2
      verified'.1.2
  · rintro ⟨hnode, hsigner⟩
    rw [verifyChain, sameRecords, verifyFrom_congr hnode hsigner]
    exact verified

/-! ## A separator in the signer id -/

def pipedRecord : AuditRecord :=
  sealRecord Sha256.hash Reference.hex (new "n1" "a|signer" "secret") genesisHash loadEvent

/-- A log of one event whose signer id contains the separator. -/
def pipedLog : DeterministicAuditLog :=
  { new "n1" "a|signer" "secret" with records := [pipedRecord] }

/-- The same records on another node. -/
def otherNodeLog : DeterministicAuditLog := { pipedLog with nodeId := "n2" }

/-- The same records with the separator moved into the secret. -/
def movedLog : DeterministicAuditLog :=
  { pipedLog with signerId := "signer", signingSecret := "secret|a" }

theorem pipedLog_collisionFree :
    CollisionFree Sha256.hash (canonicalEventPayload loadEvent "n2" :: pipedLog.hashedTexts) := by
  apply CollisionFree.of_nodup
  decide +kernel

theorem verifyChain_pipedLog :
    verifyChain Sha256.hash Reference.hex Reference.subtle pipedLog = .ok () :=
  verifyChain_after _ _ _ "n1" "a|signer" "secret" [loadEvent]

theorem verifyChain_otherIdentity_error_n2 :
    (∃ error, verifyChain Sha256.hash Reference.hex Reference.subtle otherNodeLog =
        .error error) ↔
      "n2" ≠ "n1" ∨ "secret|a|signer" ≠ "secret|a|signer" := by
  have htexts : pipedLog.hashedTexts ++ otherNodeLog.hashedTexts ⊆
      canonicalEventPayload loadEvent "n2" :: pipedLog.hashedTexts := by
    have hother : otherNodeLog.hashedTexts =
        "" :: canonicalEventPayload loadEvent "n2" :: pipedLog.hashedTexts.drop 2 := rfl
    have hgenesis : "" ∈ pipedLog.hashedTexts := List.mem_cons_self
    rw [hother, List.append_subset, List.cons_subset, List.cons_subset]
    exact ⟨List.subset_cons_self _ _, List.mem_cons_of_mem _ hgenesis, List.mem_cons_self,
      List.subset_cons_of_subset _ (List.drop_subset _ _)⟩
  exact verifyChain_otherIdentity_error_iff Reference.hex_lawful.encode_injective pipedLog
    otherNodeLog (List.cons_ne_nil _ _) rfl verifyChain_pipedLog
    (pipedLog_collisionFree.mono htexts)

/-- A log with another signer and another secret verifies. -/
theorem moved_signer_verifies :
    ¬ ∀ log : DeterministicAuditLog, log.records = pipedLog.records →
      (log.nodeId ≠ pipedLog.nodeId ∨ log.signerId ≠ pipedLog.signerId ∨
        log.signingSecret ≠ pipedLog.signingSecret) →
      verifyChain Sha256.hash Reference.hex Reference.subtle pipedLog = .ok () →
      CollisionFree Sha256.hash (pipedLog.hashedTexts ++ log.hashedTexts) →
      ∃ error, verifyChain Sha256.hash Reference.hex Reference.subtle log = .error error := by
  intro claim
  have sameSigner : movedLog.signerText = pipedLog.signerText := by decide
  have htexts : movedLog.hashedTexts = pipedLog.hashedTexts := hashedTexts_congr rfl sameSigner rfl
  have hverified : verifyChain Sha256.hash Reference.hex Reference.subtle movedLog = .ok () :=
    (verifyFrom_congr rfl sameSigner 0 genesisHash pipedLog.records).trans verifyChain_pipedLog
  have hfree : CollisionFree Sha256.hash (pipedLog.hashedTexts ++ movedLog.hashedTexts) := by
    rw [htexts]
    exact pipedLog_collisionFree.mono (List.append_subset.mpr
      ⟨List.subset_cons_self _ _, List.subset_cons_self _ _⟩)
  obtain ⟨error, rejected⟩ := claim movedLog rfl (.inr (.inl (by decide))) verifyChain_pipedLog
    hfree
  rw [hverified] at rejected
  cases rejected

end LiteLlmSecurity.DeterministicAuditLog
