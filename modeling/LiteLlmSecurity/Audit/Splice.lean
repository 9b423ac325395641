import LiteLlmSecurity.Audit.Commitment

/-!
# Verified logs put together from parts

Records of a verified log may be cut off at its end, and in no other way rearranged: a
list of them, in whatever order and number, verifies exactly when it is a front of the
log. No property of the hash is used, since every record carries its place.

When one identity signed two histories, records of both may be put together. A front of
the one and the rest of the other verify exactly when the two histories told the same up
to the cut.
-/

namespace LiteLlmSecurity.DeterministicAuditLog

open Rust

variable {sha256 : Bytes → Vector UInt8 32} {hex : Hex} {subtle : Subtle}

/-! ## Records of one log -/

/-- A list drawn from another in which both number their entries by position is a front of
it, as long as the numbers are different up to the length of the longer. -/
theorem prefix_of_numbered {α κ : Type*} (number : α → κ) {position : Nat → κ}
    {entries drawn : List α} (apart : Set.InjOn position (Set.Iic entries.length))
    (numbered : ∀ (i : Nat) (h : i < entries.length), number entries[i] = position i)
    (numbered' : ∀ (i : Nat) (h : i < drawn.length), number drawn[i] = position i)
    (subset : ∀ a ∈ drawn, a ∈ entries) : drawn <+: entries := by
  -- An entry at an index up to the length was drawn from that index.
  have source : ∀ (j : Nat) (h : j < drawn.length), j ≤ entries.length →
      ∃ h' : j < entries.length, drawn[j] = entries[j] := by
    intro j h hle
    obtain ⟨i, hi, hget⟩ := List.getElem_of_mem (subset _ (List.getElem_mem h))
    have same : position i = position j := by rw [← numbered i hi, hget, numbered' j h]
    obtain rfl : i = j := apart hi.le hle same
    exact ⟨hi, hget.symm⟩
  have hlength : drawn.length ≤ entries.length := by
    by_contra longer
    obtain ⟨hlt, -⟩ := source entries.length (Nat.lt_of_not_le longer) le_rfl
    exact absurd hlt (lt_irrefl _)
  rw [List.prefix_iff_getElem]
  refine ⟨hlength, fun j h => ?_⟩
  obtain ⟨_, hget⟩ := source j h (h.le.trans hlength)
  exact hget

/-- Verified records carry their positions as sequences. -/
theorem sequence_of_verifyFrom {log : DeterministicAuditLog} {idx : Nat} {previous : String}
    {records : List AuditRecord}
    (verified : verifyFrom sha256 hex subtle log idx previous records = .ok ())
    (i : Nat) (h : i < records.length) :
    records[i].event.sequence = UInt64.ofNat (idx + i) := by
  induction records generalizing idx previous i with
  | nil => exact absurd h (Nat.not_lt_zero i)
  | cons record rest ih =>
      obtain ⟨hrecord, hrest⟩ := (verifyFrom_cons_eq_ok_iff _ _ _ _ _ _ _ _).mp verified
      cases i with
      | zero => exact ((verifyRecord_eq_ok_iff _ _ _ _ _ _ _).mp hrecord).1
      | succ i =>
          have later := ih hrest i (by simpa using h)
          rwa [List.getElem_cons_succ, Nat.add_comm i, ← Nat.add_assoc]

/-- A front of a verified log verifies. -/
theorem verifyChain_of_prefix (log : DeterministicAuditLog) {records : List AuditRecord}
    (front : records <+: log.records) (verified : verifyChain sha256 hex subtle log = .ok ()) :
    verifyChain sha256 hex subtle { log with records } = .ok () := by
  obtain ⟨back, hback⟩ := front
  rw [verifyChain, ← hback, verifyFrom_append_eq_ok_iff] at verified
  rw [verifyChain, verifyFrom_records]
  exact verified.1

/-- Records drawn from a verified log, in any order and any number of times, verify exactly
when they are a front of it. The log is no longer than its sequence numbers can count. -/
theorem verifyChain_drawn_iff (log : DeterministicAuditLog)
    (verified : verifyChain sha256 hex subtle log = .ok ()) (hlength : log.records.length < 2 ^ 64)
    (records : List AuditRecord) (drawn : ∀ record ∈ records, record ∈ log.records) :
    verifyChain sha256 hex subtle { log with records } = .ok () ↔ records <+: log.records := by
  constructor
  · intro hrecords
    have apart : Set.InjOn UInt64.ofNat (Set.Iic log.records.length) := by
      intro i hi j hj same
      have hnat := congrArg UInt64.toNat same
      rwa [UInt64.toNat_ofNat_of_lt' (lt_of_le_of_lt hi hlength),
        UInt64.toNat_ofNat_of_lt' (lt_of_le_of_lt hj hlength)] at hnat
    refine prefix_of_numbered (fun record : AuditRecord => record.event.sequence) apart
      (fun i h => ?_) (fun i h => ?_) drawn
    · simpa using sequence_of_verifyFrom verified i h
    · simpa using sequence_of_verifyFrom hrecords i h
  · exact fun front => verifyChain_of_prefix log front verified

/-- A record that is listed twice is noticed. -/
theorem verifyChain_drawn_twice :
    verifyChain Sha256.hash Reference.hex Reference.subtle
        { oneEventLog with records := oneEventLog.records ++ oneEventLog.records } = .ok () ↔
      oneEventLog.records ++ oneEventLog.records <+: oneEventLog.records :=
  verifyChain_drawn_iff oneEventLog
    (verifyChain_after _ _ _ "n1" "signer" "secret" [loadEvent]) (by decide) _ (by simp)

/-! ## Records of two logs -/

theorem chainTexts_subset (log : DeterministicAuditLog) {records : List AuditRecord}
    (h : records ⊆ log.records) :
    ({ log with records } : DeterministicAuditLog).chainTexts ⊆ log.chainTexts :=
  List.cons_subset_cons _ (List.append_subset.mpr
    ⟨List.subset_append_of_subset_left _ (List.map_subset _ h),
      List.subset_append_of_subset_right _ (List.map_subset _ h)⟩)

theorem canonicals_of_commitments_eq {log log' : DeterministicAuditLog}
    (h : log.commitments = log'.commitments) : log.canonicals = log'.canonicals := by
  have hcanonical := congrArg (List.map Commitment.canonical) h
  rw [commitments, commitments, List.map_map, List.map_map] at hcanonical
  exact hcanonical

/-- The first record after a cut names the root hash of the records before it. -/
theorem prevHash_of_verifyFrom {log : DeterministicAuditLog} {idx : Nat} {previous : String}
    {record : AuditRecord} {rest : List AuditRecord}
    (verified : verifyFrom sha256 hex subtle log idx previous (record :: rest) = .ok ()) :
    record.prevHash = previous := by
  obtain ⟨hrecord, -⟩ := (verifyFrom_cons_eq_ok_iff _ _ _ _ _ _ _ _).mp verified
  have hsealed := ((verifyRecord_eq_ok_iff _ _ _ _ _ _ _).mp hrecord).2
  rw [hsealed]
  rfl

/-- Two histories under one identity, cut after the same number of records: the front of the
first and the rest of the second verify exactly when the two fronts have the same canonical
texts. Assumed: no collision between the texts hashed for the two. -/
theorem verifyChain_graft_iff (lawful : hex.Lawful)
    (hgenesis : sha256Hex sha256 hex "" = genesisHash) (log : DeterministicAuditLog)
    (records : List AuditRecord)
    (collisionFree : CollisionFree sha256
      (log.chainTexts ++ ({ log with records } : DeterministicAuditLog).chainTexts))
    (verified : verifyChain sha256 hex subtle log = .ok ())
    (verified' : verifyChain sha256 hex subtle { log with records } = .ok ())
    (n : Nat) (hn : n < records.length) :
    verifyChain sha256 hex subtle
        { log with records := log.records.take n ++ records.drop n } = .ok () ↔
      log.canonicals.take n =
        ({ log with records } : DeterministicAuditLog).canonicals.take n := by
  have front := verifyChain_of_prefix log (List.take_prefix n log.records) verified
  have front' : verifyChain sha256 hex subtle { log with records := records.take n } = .ok () :=
    verifyChain_of_prefix { log with records } (List.take_prefix n records) verified'
  have canonicals : ∀ records : List AuditRecord,
      ({ log with records := records.take n } : DeterministicAuditLog).canonicals =
        ({ log with records } : DeterministicAuditLog).canonicals.take n :=
    fun _ => List.map_take
  -- Both sides say that the rest continues the root hash that it was sealed after.
  have hdrop : records.drop n = records[n] :: records.drop (n + 1) := List.drop_eq_getElem_cons hn
  have rest : verifyFrom sha256 hex subtle log n (lastHash genesisHash (records.take n))
      (records.drop n) = .ok () := by
    have whole : verifyFrom sha256 hex subtle log 0 genesisHash records = .ok () := by
      rwa [verifyChain, verifyFrom_records] at verified'
    rw [← List.take_append_drop n records, verifyFrom_append_eq_ok_iff] at whole
    have hsplit := whole.2
    rwa [List.length_take_of_le hn.le, Nat.zero_add] at hsplit
  constructor
  · intro grafted
    rw [verifyChain, verifyFrom_records, verifyFrom_append_eq_ok_iff, hdrop] at grafted
    rw [hdrop] at rest
    have hroot : lastHash genesisHash (log.records.take n) =
        lastHash genesisHash (records.take n) :=
      (prevHash_of_verifyFrom grafted.2).symm.trans (prevHash_of_verifyFrom rest)
    have hfree := collisionFree.mono (List.append_subset.mpr
      ⟨List.subset_append_of_subset_left _ (chainTexts_subset log (List.take_subset n log.records)),
        List.subset_append_of_subset_right _ (chainTexts_subset { log with records }
          (List.take_subset n records))⟩)
    have same := canonicals_of_commitments_eq
      (commitments_eq_of_rootHash_eq lawful hgenesis hfree front front' hroot)
    rwa [canonicals, canonicals] at same
  · intro same
    rw [← canonicals, ← canonicals] at same
    have hroot : lastHash genesisHash (log.records.take n) =
        lastHash genesisHash (records.take n) := by
      have hfront := rootHash_of_verifyChain front
      rw [same, ← rootHash_of_verifyChain front'] at hfront
      exact hfront
    have hlength : (log.records.take n).length = n := by
      have hsame := congrArg List.length same
      rw [DeterministicAuditLog.canonicals, DeterministicAuditLog.canonicals, List.length_map,
        List.length_map, List.length_take_of_le hn.le] at hsame
      exact hsame
    rw [verifyChain, verifyFrom_records, verifyFrom_append_eq_ok_iff, Nat.zero_add, hlength, hroot]
    rw [verifyChain, verifyFrom_records] at front
    exact ⟨front, rest⟩

/-- The log that the identity of `oneEventLog` shows to somebody else. -/
def forkedLog : DeterministicAuditLog :=
  Machine.after (append Sha256.hash Reference.hex) (new "n1" "signer" "secret")
    [{ loadEvent with payload := "denied" }, { loadEvent with sequence := 1 }]

theorem forkedLog_collisionFree :
    CollisionFree Sha256.hash (oneEventLog.chainTexts ++ forkedLog.chainTexts) := by
  have distinct : CollisionFree Sha256.hash
      (oneEventLog.chainTexts ++ forkedLog.chainTexts.tail) := by
    apply CollisionFree.of_nodup
    decide +kernel
  refine distinct.mono (List.append_subset.mpr
    ⟨List.subset_append_left _ _, List.cons_subset.mpr ⟨List.mem_cons_self, ?_⟩⟩)
  exact List.subset_append_right _ _

/-- The second record of the fork does not continue the other history. -/
theorem verifyChain_graft_forked :
    verifyChain Sha256.hash Reference.hex Reference.subtle
        { oneEventLog with
          records := oneEventLog.records.take 1 ++ forkedLog.records.drop 1 } = .ok () ↔
      oneEventLog.canonicals.take 1 =
        ({ oneEventLog with records := forkedLog.records } :
          DeterministicAuditLog).canonicals.take 1 :=
  verifyChain_graft_iff Reference.hex_lawful Reference.sha256Hex_empty oneEventLog
    forkedLog.records forkedLog_collisionFree
    (verifyChain_after _ _ _ "n1" "signer" "secret" [loadEvent])
    (verifyChain_after _ _ _ "n1" "signer" "secret"
      [{ loadEvent with payload := "denied" }, { loadEvent with sequence := 1 }])
    1 (by decide)

end LiteLlmSecurity.DeterministicAuditLog
