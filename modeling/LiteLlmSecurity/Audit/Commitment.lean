import LiteLlmSecurity.Audit.Tamper
import LiteLlmSecurity.Crypto.HashChain
import Mathlib.Data.List.Nodup

/-!
# What the root hash commits to

The chain hashes of a verified log are a hash chain over the canonical texts of
its events. A link joins the previous chain hash to the digest of a text. Both
are written in hexadecimal digits, so the link is taken apart at its separator,
and no link is the empty text that the chain starts from.
-/

namespace LiteLlmSecurity

open Rust

/-- What the root hash commits to of a record. -/
structure Commitment where
  canonical : String
  eventHash : String
  prevHash : String
  chainHash : String
  deriving DecidableEq, Repr

/-- The commitment to a record of a log with the given node id. -/
def AuditRecord.commitment (nodeId : String) (record : AuditRecord) : Commitment where
  canonical := canonicalEventPayload record.event nodeId
  eventHash := record.eventHash
  prevHash := record.prevHash
  chainHash := record.chainHash

namespace DeterministicAuditLog

def commitments (log : DeterministicAuditLog) : List Commitment :=
  log.records.map (·.commitment log.nodeId)

/-- The canonical texts of the events. -/
def canonicals (log : DeterministicAuditLog) : List String :=
  log.records.map fun record => canonicalEventPayload record.event log.nodeId

/-- The text whose digest is a chain hash. -/
def linkText (previous eventHash : String) : String := s!"{previous}|{eventHash}"

/-- The texts that are hashed for the events and the chain, and the empty text of the
genesis hash. -/
def chainTexts (log : DeterministicAuditLog) : List String :=
  "" :: (log.canonicals ++
    log.records.map fun record => linkText record.prevHash record.eventHash)

section

variable (sha256 : Bytes → Vector UInt8 32) (hex : Hex)

/-- The link of a chain over canonical texts. -/
def canonicalLink (previous canonical : String) : String :=
  linkText previous (sha256Hex sha256 hex canonical)

/-- A step of the chain, as the log stores it. -/
def commitmentOf (block : HashChain.Block String String) : Commitment where
  canonical := block.entry
  eventHash := sha256Hex sha256 hex block.entry
  prevHash := block.previous
  chainHash := block.digest

end

variable {sha256 : Bytes → Vector UInt8 32} {hex : Hex} {subtle : Subtle}

/-! ## Links -/

theorem linkText_toList (previous eventHash : String) :
    (linkText previous eventHash).toList = previous.toList ++ '|' :: eventHash.toList := by
  simp [linkText]

theorem linkText_ne_empty (previous eventHash : String) : linkText previous eventHash ≠ "" := by
  rw [Ne, ← String.toList_inj, linkText_toList]
  simp

theorem notMem_sha256Hex (lawful : hex.Lawful) (text : String) :
    '|' ∉ (sha256Hex sha256 hex text).toList := by
  intro h
  exact absurd (lawful.encode_digits _ _ h) (by simp)

/-- A link is taken apart at its last separator. -/
theorem canonicalLink_inj (lawful : hex.Lawful) {texts : List String}
    (collisionFree : CollisionFree sha256 texts) {previous previous' canonical canonical' : String}
    (hmem : canonical ∈ texts) (hmem' : canonical' ∈ texts)
    (h : canonicalLink sha256 hex previous canonical =
      canonicalLink sha256 hex previous' canonical') :
    previous = previous' ∧ canonical = canonical' := by
  have hlist := congrArg String.toList h
  rw [canonicalLink, canonicalLink, linkText_toList, linkText_toList] at hlist
  obtain ⟨hprevious, hdigest⟩ := Separator.append_cons_inj_right hlist
    (notMem_sha256Hex lawful canonical) (notMem_sha256Hex lawful canonical')
  exact ⟨String.toList_inj.mp hprevious,
    collisionFree.injOn_sha256Hex lawful.encode_injective hmem hmem'
      (String.toList_inj.mp hdigest)⟩

/-! ## A verified log is a chain -/

theorem commitments_of_verifyFrom {log : DeterministicAuditLog} {idx : Nat} {previous : String}
    {records : List AuditRecord}
    (verified : verifyFrom sha256 hex subtle log idx previous records = .ok ()) :
    records.map (·.commitment log.nodeId) =
      (HashChain.blocks (sha256Hex sha256 hex) (canonicalLink sha256 hex) previous
        (records.map fun record => canonicalEventPayload record.event log.nodeId)).map
          (commitmentOf sha256 hex) := by
  induction records generalizing idx previous with
  | nil => rfl
  | cons record rest ih =>
      obtain ⟨hrecord, hrest⟩ := (verifyFrom_cons_eq_ok_iff _ _ _ _ _ _ _ _).mp verified
      obtain ⟨-, hsealed⟩ := (verifyRecord_eq_ok_iff _ _ _ _ _ _ _).mp hrecord
      have hhere : record.commitment log.nodeId = commitmentOf sha256 hex {
          previous
          entry := canonicalEventPayload record.event log.nodeId
          digest := sha256Hex sha256 hex (canonicalLink sha256 hex previous
            (canonicalEventPayload record.event log.nodeId)) } := by
        rw [hsealed]
        rfl
      have hchain : record.chainHash = sha256Hex sha256 hex (canonicalLink sha256 hex previous
          (canonicalEventPayload record.event log.nodeId)) :=
        congrArg Commitment.chainHash hhere
      rw [List.map_cons, List.map_cons, HashChain.blocks, List.map_cons, hhere, ih hrest, hchain]

theorem commitments_of_verifyChain {log : DeterministicAuditLog}
    (verified : verifyChain sha256 hex subtle log = .ok ()) :
    log.commitments =
      (HashChain.blocks (sha256Hex sha256 hex) (canonicalLink sha256 hex) genesisHash
        log.canonicals).map (commitmentOf sha256 hex) :=
  commitments_of_verifyFrom verified

theorem rootHash_of_verifyChain {log : DeterministicAuditLog}
    (verified : verifyChain sha256 hex subtle log = .ok ()) :
    log.rootHash =
      HashChain.root (sha256Hex sha256 hex) (canonicalLink sha256 hex) genesisHash
        log.canonicals := by
  have hlast : log.rootHash =
      ((log.commitments.getLast?).map Commitment.chainHash).getD genesisHash := by
    rw [commitments, List.getLast?_map, Option.map_map]
    rfl
  rw [hlast, commitments_of_verifyChain verified, List.getLast?_map, Option.map_map]
  exact HashChain.root_eq_getLast? _ _ genesisHash log.canonicals

/-- The links that the records of a verified log write down are the texts its chain hashes. -/
theorem links_of_verifyChain {log : DeterministicAuditLog}
    (verified : verifyChain sha256 hex subtle log = .ok ()) :
    (log.records.map fun record => linkText record.prevHash record.eventHash) =
      HashChain.texts (sha256Hex sha256 hex) (canonicalLink sha256 hex) genesisHash
        log.canonicals := by
  have hlinks : (log.commitments.map fun c => linkText c.prevHash c.eventHash) =
      HashChain.texts (sha256Hex sha256 hex) (canonicalLink sha256 hex) genesisHash
        log.canonicals := by
    rw [commitments_of_verifyChain verified, List.map_map]
    rfl
  rw [← hlinks, commitments, List.map_map]
  rfl

/-- The chain of a verified log hashes no texts but those of its records. -/
theorem mem_chainTexts_of_mem_texts {log : DeterministicAuditLog}
    (verified : verifyChain sha256 hex subtle log = .ok ()) :
    ∀ text ∈ HashChain.texts (sha256Hex sha256 hex) (canonicalLink sha256 hex) genesisHash
      log.canonicals, text ∈ log.chainTexts := by
  intro text htext
  rw [← links_of_verifyChain verified] at htext
  exact List.mem_cons_of_mem _ (List.mem_append_right _ htext)

/-- Verified logs of the same canonical texts hash the same texts, whoever signs them. -/
theorem chainTexts_eq_of_canonicals_eq {log log' : DeterministicAuditLog}
    (verified : verifyChain sha256 hex subtle log = .ok ())
    (verified' : verifyChain sha256 hex subtle log' = .ok ())
    (h : log.canonicals = log'.canonicals) : log.chainTexts = log'.chainTexts := by
  rw [chainTexts, chainTexts, links_of_verifyChain verified, links_of_verifyChain verified', h]

theorem rootHash_eq_of_canonicals_eq {log log' : DeterministicAuditLog}
    (verified : verifyChain sha256 hex subtle log = .ok ())
    (verified' : verifyChain sha256 hex subtle log' = .ok ())
    (h : log.canonicals = log'.canonicals) : log.rootHash = log'.rootHash := by
  rw [rootHash_of_verifyChain verified, rootHash_of_verifyChain verified', h]

theorem mem_chainTexts_of_mem_canonicals {log : DeterministicAuditLog} {text : String}
    (htext : text ∈ log.canonicals) : text ∈ log.chainTexts :=
  List.mem_cons_of_mem _ (List.mem_append_left _ htext)

/-! ## The root determines the history -/

section

variable {log log' : DeterministicAuditLog}

/-- Verified logs with one root hash hold the same history. -/
theorem commitments_eq_of_rootHash_eq (lawful : hex.Lawful)
    (hgenesis : sha256Hex sha256 hex "" = genesisHash)
    (collisionFree : CollisionFree sha256 (log.chainTexts ++ log'.chainTexts))
    (verified : verifyChain sha256 hex subtle log = .ok ())
    (verified' : verifyChain sha256 hex subtle log' = .ok ())
    (hroot : log.rootHash = log'.rootHash) : log.commitments = log'.commitments := by
  have htexts := mem_chainTexts_of_mem_texts verified
  have htexts' := mem_chainTexts_of_mem_texts verified'
  rw [rootHash_of_verifyChain verified, rootHash_of_verifyChain verified'] at hroot
  rw [commitments_of_verifyChain verified, commitments_of_verifyChain verified']
  rw [← hgenesis] at htexts htexts' hroot ⊢
  have hcanonicals : log.canonicals = log'.canonicals := by
    refine HashChain.eq_of_root_eq (collisionFree.injOn_sha256Hex lawful.encode_injective)
      (by simp [chainTexts]) (fun _ _ => linkText_ne_empty _ _)
      (fun text htext => List.mem_append_left _ (htexts text htext))
      (fun text htext => List.mem_append_right _ (htexts' text htext)) ?_ hroot
    intro previous previous' canonical hmem canonical' hmem' hlink
    exact canonicalLink_inj lawful collisionFree
      (List.mem_append_left _ (mem_chainTexts_of_mem_canonicals hmem))
      (List.mem_append_right _ (mem_chainTexts_of_mem_canonicals hmem')) hlink
  rw [hcanonicals]

/-- No chain hash occurs twice in a verified log. -/
theorem chainHash_nodup (lawful : hex.Lawful) (hgenesis : sha256Hex sha256 hex "" = genesisHash)
    (collisionFree : CollisionFree sha256 log.chainTexts)
    (verified : verifyChain sha256 hex subtle log = .ok ()) :
    (log.records.map (·.chainHash)).Nodup := by
  have hdigests : log.records.map (·.chainHash) =
      (HashChain.blocks (sha256Hex sha256 hex) (canonicalLink sha256 hex) genesisHash
        log.canonicals).map (·.digest) := by
    have hchain := congrArg (List.map Commitment.chainHash) (commitments_of_verifyChain verified)
    rw [commitments, List.map_map, List.map_map] at hchain
    exact hchain
  have htexts := mem_chainTexts_of_mem_texts verified
  rw [hdigests]
  rw [← hgenesis] at htexts ⊢
  refine HashChain.blocks_digest_nodup (collisionFree.injOn_sha256Hex lawful.encode_injective)
    (by simp [chainTexts]) (fun _ _ => linkText_ne_empty _ _) htexts ?_
  intro previous previous' canonical hmem canonical' hmem' hlink
  exact canonicalLink_inj lawful collisionFree (mem_chainTexts_of_mem_canonicals hmem)
    (mem_chainTexts_of_mem_canonicals hmem') hlink

theorem length_eq_of_commitments_eq (h : log.commitments = log'.commitments) :
    log.records.length = log'.records.length := by
  have hlength := congrArg List.length h
  rwa [commitments, commitments, List.length_map, List.length_map] at hlength

/-- A strict front of a verified log has another root hash. -/
theorem rootHash_take_ne (lawful : hex.Lawful) (hgenesis : sha256Hex sha256 hex "" = genesisHash)
    (collisionFree : CollisionFree sha256 log.chainTexts)
    (verified : verifyChain sha256 hex subtle log = .ok ()) {n : Nat}
    (hn : n < log.records.length) :
    ({ log with records := log.records.take n } : DeterministicAuditLog).rootHash ≠
      log.rootHash := by
  intro hroot
  have hverified : verifyChain sha256 hex subtle { log with records := log.records.take n } =
      .ok () := by
    rw [verifyChain, ← List.take_append_drop n log.records,
      verifyFrom_append_eq_ok_iff] at verified
    rw [verifyChain, verifyFrom_records]
    exact verified.1
  have htexts : ({ log with records := log.records.take n } : DeterministicAuditLog).chainTexts ⊆
      log.chainTexts := by
    have hrecords := List.take_subset n log.records
    exact List.cons_subset_cons _ (List.append_subset.mpr
      ⟨List.subset_append_of_subset_left _ (List.map_subset _ hrecords),
        List.subset_append_of_subset_right _ (List.map_subset _ hrecords)⟩)
  have hlength := length_eq_of_commitments_eq (commitments_eq_of_rootHash_eq lawful hgenesis
    (collisionFree.mono (List.append_subset.mpr ⟨htexts, List.Subset.refl _⟩)) hverified verified
    hroot)
  rw [List.length_take] at hlength
  omega

/-- A reordering of a verified log that keeps the chain hashes in place changes
nothing. -/
theorem records_eq_of_perm (hnodup : (log.records.map (·.chainHash)).Nodup)
    (hperm : log.records.Perm log'.records) (h : log.commitments = log'.commitments) :
    log.records = log'.records := by
  have hchain : log.records.map (·.chainHash) = log'.records.map (·.chainHash) := by
    have hcommitted := congrArg (List.map Commitment.chainHash) h
    rw [commitments, commitments, List.map_map, List.map_map] at hcommitted
    exact hcommitted
  refine List.ext_getElem hperm.length_eq fun i hi hi' => ?_
  have hhere : log.records[i].chainHash = log'.records[i].chainHash := by
    simpa [hi, hi'] using congrArg (·[i]?) hchain
  exact List.inj_on_of_nodup_map hnodup (List.getElem_mem hi)
    (hperm.mem_iff.mpr (List.getElem_mem hi')) hhere

/-- The root hash commits to the whole history. Verified logs with one root hash, under
whatever identities, hold the same canonical texts and the same hashes at every index.
So a strict front of a verified log, a verified extension of it and a verified
reordering of it have other root hashes. -/
theorem rootHash_commits (lawful : hex.Lawful) (hgenesis : sha256Hex sha256 hex "" = genesisHash)
    (log log' : DeterministicAuditLog)
    (collisionFree : CollisionFree sha256 (log.chainTexts ++ log'.chainTexts))
    (verified : verifyChain sha256 hex subtle log = .ok ())
    (verified' : verifyChain sha256 hex subtle log' = .ok ()) :
    (log.rootHash = log'.rootHash → log.commitments = log'.commitments) ∧
    (∀ n < log.records.length,
      ({ log with records := log.records.take n } : DeterministicAuditLog).rootHash ≠
        log.rootHash) ∧
    (log.records <+: log'.records ∨ log.records.Perm log'.records →
      log.records ≠ log'.records → log'.rootHash ≠ log.rootHash) := by
  have same := commitments_eq_of_rootHash_eq lawful hgenesis collisionFree verified verified'
  have hfree := collisionFree.mono (List.subset_append_left _ _)
  refine ⟨same, fun n hn => rootHash_take_ne lawful hgenesis hfree verified hn, ?_⟩
  intro hrelated hne hroot
  have hcommitments := same hroot.symm
  rcases hrelated with hfront | hperm
  · exact hne (hfront.eq_of_length (length_eq_of_commitments_eq hcommitments))
  · have hnodup := chainHash_nodup lawful hgenesis hfree verified
    exact hne (records_eq_of_perm hnodup hperm hcommitments)

end

/-! ## The signer -/

theorem canonicals_append {log log' : DeterministicAuditLog} (hnode : log.nodeId = log'.nodeId)
    (h : log.canonicals = log'.canonicals) (event : AuditEvent) :
    (append sha256 hex log event).2.canonicals = (append sha256 hex log' event).2.canonicals := by
  have hlength : log.records.length = log'.records.length := by
    simpa [canonicals] using congrArg List.length h
  by_cases hsequence : event.sequence = UInt64.ofNat log.records.length
  · rw [append_of_eq sha256 hex hsequence, append_of_eq sha256 hex (hlength ▸ hsequence)]
    simp only [canonicals, List.map_append, List.map_cons, List.map_nil, sealRecord, ← hnode] at h ⊢
    rw [h]
  · rw [append_of_ne sha256 hex hsequence, append_of_ne sha256 hex (hlength ▸ hsequence), h]

theorem nodeId_append (log : DeterministicAuditLog) (event : AuditEvent) :
    (append sha256 hex log event).2.nodeId = log.nodeId := by
  rw [append_snd]

/-- What is hashed of a run does not depend on the signer. -/
theorem canonicals_after {log log' : DeterministicAuditLog} (hnode : log.nodeId = log'.nodeId)
    (h : log.canonicals = log'.canonicals) (events : List AuditEvent) :
    (Machine.after (append sha256 hex) log events).canonicals =
      (Machine.after (append sha256 hex) log' events).canonicals := by
  induction events generalizing log log' with
  | nil => exact h
  | cons event rest ih =>
      refine ih ?_ (canonicals_append hnode h event)
      rw [nodeId_append, nodeId_append, hnode]

/-- A log of one event. -/
def oneEventLog : DeterministicAuditLog :=
  Machine.after (append Sha256.hash Reference.hex) (new "n1" "signer" "secret") [loadEvent]

/-- The load and a second event. -/
def twoEvents : List AuditEvent := [loadEvent, { loadEvent with sequence := 1 }]

def twoEventLog : DeterministicAuditLog :=
  Machine.after (append Sha256.hash Reference.hex) (new "n1" "signer" "secret") twoEvents

/-- The same two events, signed by somebody else. -/
def otherSignerLog : DeterministicAuditLog :=
  Machine.after (append Sha256.hash Reference.hex) (new "n1" "other" "secret2") twoEvents

theorem twoEventLog_collisionFree : CollisionFree Sha256.hash twoEventLog.chainTexts := by
  apply CollisionFree.of_nodup
  decide +kernel

theorem twoEventLog_verified :
    verifyChain Sha256.hash Reference.hex Reference.subtle twoEventLog = .ok () :=
  verifyChain_after _ _ _ "n1" "signer" "secret" twoEvents

theorem otherSignerLog_verified :
    verifyChain Sha256.hash Reference.hex Reference.subtle otherSignerLog = .ok () :=
  verifyChain_after _ _ _ "n1" "other" "secret2" twoEvents

theorem otherSignerLog_canonicals : otherSignerLog.canonicals = twoEventLog.canonicals :=
  @canonicals_after Sha256.hash Reference.hex (new "n1" "other" "secret2")
    (new "n1" "signer" "secret") rfl rfl twoEvents

theorem oneEventLog_prefix : oneEventLog.records <+: twoEventLog.records := by
  have happend : twoEventLog = (append Sha256.hash Reference.hex oneEventLog
      { loadEvent with sequence := 1 }).2 := rfl
  rw [happend, append_snd]
  exact List.prefix_append _ _

/-- Two signers of the same events reach one root hash, and it is not the root hash of the
first event alone. -/
theorem rootHash_commits_twoEvents :
    twoEventLog.records.length = 2 ∧
      twoEventLog.signerId ≠ otherSignerLog.signerId ∧
      twoEventLog.rootHash = otherSignerLog.rootHash ∧
      twoEventLog.commitments = otherSignerLog.commitments ∧
      (∀ n < twoEventLog.records.length,
        ({ twoEventLog with records := twoEventLog.records.take n } :
          DeterministicAuditLog).rootHash ≠ twoEventLog.rootHash) ∧
      twoEventLog.rootHash ≠ oneEventLog.rootHash := by
  have hroot := rootHash_eq_of_canonicals_eq twoEventLog_verified otherSignerLog_verified
    otherSignerLog_canonicals.symm
  have hsigners :
      CollisionFree Sha256.hash (twoEventLog.chainTexts ++ otherSignerLog.chainTexts) := by
    rw [chainTexts_eq_of_canonicals_eq otherSignerLog_verified twoEventLog_verified
      otherSignerLog_canonicals]
    exact twoEventLog_collisionFree.mono
      (List.append_subset.mpr ⟨List.Subset.refl _, List.Subset.refl _⟩)
  obtain ⟨committed, fronts, -⟩ := rootHash_commits Reference.hex_lawful Reference.sha256Hex_empty
    twoEventLog otherSignerLog hsigners twoEventLog_verified otherSignerLog_verified
  have hfront : CollisionFree Sha256.hash (oneEventLog.chainTexts ++ twoEventLog.chainTexts) :=
    twoEventLog_collisionFree.mono
      (List.append_subset.mpr ⟨by decide +kernel, List.Subset.refl _⟩)
  obtain ⟨-, -, extended⟩ := rootHash_commits Reference.hex_lawful Reference.sha256Hex_empty
    oneEventLog twoEventLog hfront
    (verifyChain_after _ _ _ "n1" "signer" "secret" [loadEvent]) twoEventLog_verified
  have longer : oneEventLog.records ≠ twoEventLog.records :=
    fun h => absurd (congrArg List.length h) (by decide)
  exact ⟨rfl, by decide, hroot, committed hroot, fronts,
    extended (.inl oneEventLog_prefix) longer⟩

end DeterministicAuditLog

end LiteLlmSecurity
