import LiteLlmSecurity.KeyManagement.Lifecycle
import LiteLlmSecurity.KeyManagement.Window

/-!
# Keys whose days fit

Three additions of `u32` are unchecked: the expiry of a key, the end of its overlap
and the version after the last one. While the exact sums fit, no build panics or
wraps, and every key is retrieved on every day of its window. The end of the overlap
is computed when a key is retrieved, so what must fit is decided when it is issued.
For the retrieval of one key alone its own last day must fit, whatever else overflowed.
-/

namespace LiteLlmSecurity

open Rust Machine StableSort

/-- The exact last day of a key that is activated on a day. -/
def KeyRotationPolicy.lastDay (policy : KeyRotationPolicy) (activatedDay : UInt32) : Nat :=
  activatedDay.toNat + policy.rotateEveryDays.toNat + policy.overlapDays.toNat

/-- The days of a key are the exact ones. -/
structure ManagedKey.Exact (key : ManagedKey) (rotationPolicy : KeyRotationPolicy) : Prop where
  expiresDay_eq :
    key.expiresDay.toNat = key.activatedDay.toNat + rotationPolicy.rotateEveryDays.toNat
  lastDay_lt : rotationPolicy.lastDay key.activatedDay < 2 ^ 32

namespace KeyManager

variable (sha256 : Bytes → Vector UInt8 32)

/-- Whether the sums of an operation fit, and with them the overlap of the key that it
issues. An operation that is refused adds nothing, and a key under a stored version is
never retrieved, so its overlap is never added. -/
def Fits (manager : KeyManager) : KeyOperation → Prop
  | .addAccessPolicy _ => True
  | .generateKey keyId _ version activatedDay _ =>
      trim keyId = "" ∨ version = 0 ∨
        activatedDay.toNat + manager.rotationPolicy.rotateEveryDays.toNat < 2 ^ 32 ∧
          (manager.stored keyId version = none →
            manager.rotationPolicy.lastDay activatedDay < 2 ^ 32)
  | .rotateKey keyId day _ =>
      ∀ latest, (manager.bucket keyId).getLast? = some latest →
        latest.reference.version.toNat + 1 < 2 ^ 32 ∧ manager.rotationPolicy.lastDay day < 2 ^ 32
  | .revokeKey .. => True

/-- Every key that a search finds has exact days. -/
def KeysExact (manager : KeyManager) : Prop :=
  ∀ keyId version key, manager.stored keyId version = some key → key.Exact manager.rotationPolicy

/-! ## Operations that fit -/

theorem issuedKey_exact {rotationPolicy : KeyRotationPolicy} {day : UInt32}
    (fits : rotationPolicy.lastDay day < 2 ^ 32) (reference : KeyMaterialRef) (seed : UInt64) :
    (issuedKey sha256 rotationPolicy reference day seed).Exact rotationPolicy where
  expiresDay_eq := by
    have hsum : day.toNat + rotationPolicy.rotateEveryDays.toNat < 2 ^ 32 :=
      lt_of_le_of_lt (Nat.le_add_right _ _) fits
    simp only [issuedKey, UInt32.toNat_add, Nat.mod_eq_of_lt hsum]
  lastDay_lt := fits

theorem KeysExact.push {manager : KeyManager} (exact : manager.KeysExact) {managed : ManagedKey}
    (hmanaged : manager.stored managed.reference.keyId managed.reference.version = none →
      managed.Exact manager.rotationPolicy) : (manager.push managed).KeysExact := by
  intro keyId version key hstored
  rw [stored_push] at hstored
  cases hold : manager.stored keyId version with
  | some old =>
      rw [hold, Option.some_or, Option.some.injEq] at hstored
      exact hstored ▸ exact keyId version old hold
  | none =>
      rw [hold, Option.none_or, Option.ite_none_right_eq_some] at hstored
      obtain ⟨⟨rfl, rfl⟩, hkey⟩ := hstored
      exact Option.some.inj hkey ▸ hmanaged hold

theorem KeysExact.revokeKey {manager : KeyManager} (exact : manager.KeysExact) (keyId : String)
    (version : UInt32) : (manager.revokeKey keyId version).2.KeysExact := by
  intro other otherVersion key hstored
  rw [stored_revokeKey] at hstored
  obtain ⟨old, hold, rfl⟩ := Option.map_eq_some_iff.mp hstored
  obtain ⟨hexpires, hlast⟩ := exact other otherVersion old hold
  rw [rotationPolicy_revokeKey]
  split
  · exact ⟨hexpires, hlast⟩
  · exact ⟨hexpires, hlast⟩

/-- A generation that fits has the same outcome in every build, does not panic, and keeps
the days of the keys exact. -/
theorem generateKey_of_fits {manager : KeyManager} {keyId : String} {kind : KeyKind}
    {version day : UInt32} {seed : UInt64}
    (fits : manager.Fits (.generateKey keyId kind version day seed)) :
    ∃ reply next,
      (∀ checks, generateKey sha256 checks manager keyId kind version day seed = (reply, next)) ∧
        reply ≠ .error .panic ∧ (manager.KeysExact → next.KeysExact) := by
  by_cases blank : trim keyId = ""
  · exact ⟨_, manager, fun checks => by rw [generateKey, if_pos blank], by simp, id⟩
  by_cases zero : version = 0
  · exact ⟨_, manager, fun checks => by rw [generateKey, if_neg blank, if_pos zero], by simp, id⟩
  obtain ⟨hexpires, hoverlap⟩ := (fits.resolve_left blank).resolve_left zero
  refine ⟨.ok ⟨keyId, version, kind⟩, manager.push (issuedKey sha256 manager.rotationPolicy
    ⟨keyId, version, kind⟩ day seed), fun checks => ?_, by simp, fun exact => ?_⟩
  · simp only [generateKey, if_neg blank, if_neg zero, addU32_of_fits hexpires, issuedKey]
  · exact exact.push fun unused => issuedKey_exact sha256 (hoverlap unused) _ seed

/-- A rotation that fits fails without adding, or is a generation that fits. -/
theorem rotateKey_of_fits {manager : KeyManager} {keyId : String} {day : UInt32} {seed : UInt64}
    (fits : manager.Fits (.rotateKey keyId day seed)) :
    (∃ error, ∀ checks, rotateKey sha256 checks manager keyId day seed =
      (.error (.err error), manager)) ∨
      ∃ kind version, manager.Fits (.generateKey keyId kind version day seed) ∧
        ∀ checks, rotateKey sha256 checks manager keyId day seed =
          generateKey sha256 checks manager keyId kind version day seed := by
  cases hbucket : manager.keys[keyId]? with
  | none => exact .inl ⟨.keyNotFound keyId, fun checks => by simp only [rotateKey, hbucket]⟩
  | some versions =>
      cases hlast : versions.getLast? with
      | none =>
          exact .inl ⟨.keyNotFound keyId, fun checks => by simp only [rotateKey, hbucket, hlast]⟩
      | some latest =>
          have hlatest : (manager.bucket keyId).getLast? = some latest := by
            simp [bucket, hbucket, hlast]
          obtain ⟨hversion, hday⟩ := fits latest hlatest
          have hexpires := lt_of_le_of_lt (Nat.le_add_right _ _) hday
          refine .inr ⟨latest.reference.kind, latest.reference.version + 1,
            .inr (.inr ⟨hexpires, fun _ => hday⟩), fun checks => ?_⟩
          simp only [rotateKey, hbucket, hlast, addU32_of_fits (b := (1 : UInt32)) hversion]

/-- The same for every step that fits. -/
theorem step_of_fits {manager : KeyManager} {operation : KeyOperation}
    (fits : manager.Fits operation) :
    ∃ reply next, (∀ checks, step sha256 checks manager operation = (reply, next)) ∧
      reply ≠ .error .panic ∧ (manager.KeysExact → next.KeysExact) := by
  cases operation with
  | addAccessPolicy policy =>
      exact ⟨.ok none, manager.addAccessPolicy policy, fun _ => rfl, by simp, id⟩
  | generateKey keyId kind version day seed =>
      obtain ⟨reply, next, hgenerate, nopanic, preserved⟩ := generateKey_of_fits sha256 fits
      exact ⟨reply.map some, next, fun checks => by rw [step, hgenerate checks]; rfl,
        Outcome.map_ne_panic nopanic some, preserved⟩
  | rotateKey keyId day seed =>
      obtain ⟨error, herror⟩ | ⟨kind, version, hfits, hrotate⟩ := rotateKey_of_fits sha256 fits
      · exact ⟨.error (.err error), manager, fun checks => by rw [step, herror checks]; rfl,
          by simp, id⟩
      · obtain ⟨reply, next, hgenerate, nopanic, preserved⟩ := generateKey_of_fits sha256 hfits
        exact ⟨reply.map some, next,
          fun checks => by rw [step, hrotate checks, hgenerate checks]; rfl,
          Outcome.map_ne_panic nopanic some, preserved⟩
  | revokeKey keyId version =>
      exact ⟨_, _, fun _ => rfl, Outcome.map_ne_panic (Outcome.ofResult_ne_panic _) _,
        fun exact => exact.revokeKey keyId version⟩

/-! ## Retrieval of keys with exact days -/

theorem endOfOverlap_of_exact {key : ManagedKey} {rotationPolicy : KeyRotationPolicy}
    (exact : key.Exact rotationPolicy) (checks : OverflowChecks) :
    addU32 (ε := SecurityError) checks key.expiresDay rotationPolicy.overlapDays =
        .ok (key.expiresDay + rotationPolicy.overlapDays) ∧
      (key.expiresDay + rotationPolicy.overlapDays).toNat =
        rotationPolicy.lastDay key.activatedDay := by
  obtain ⟨hexpires, hlast⟩ := exact
  have hsum : key.expiresDay.toNat + rotationPolicy.overlapDays.toNat =
      rotationPolicy.lastDay key.activatedDay := by rw [hexpires, KeyRotationPolicy.lastDay]
  refine ⟨addU32_of_fits (by rwa [hsum]) checks, ?_⟩
  rw [UInt32.toNat_add, hsum, Nat.mod_eq_of_lt hlast]

/-- A key that is not revoked is served up to its exact last day. -/
theorem servedOn_of_exact {key : ManagedKey} {rotationPolicy : KeyRotationPolicy}
    (exact : key.Exact rotationPolicy) (live : key.revoked = false) {day : UInt32}
    (hday : day.toNat ≤ rotationPolicy.lastDay key.activatedDay) (checks : OverflowChecks) :
    key.ServedOn checks rotationPolicy day := by
  obtain ⟨hsum, hlast⟩ := endOfOverlap_of_exact exact checks
  refine ⟨live, _, ?_, hsum⟩
  rw [UInt32.le_iff_toNat_le, hlast]
  exact hday

/-- What a key with exact days is served as is the same in every build, and no panic. -/
theorem serve_of_exact {key : ManagedKey} {rotationPolicy : KeyRotationPolicy}
    (exact : key.Exact rotationPolicy) (day : UInt32) :
    ∃ reply, (∀ checks, serve checks rotationPolicy key day = reply) ∧
      reply ≠ .error .panic := by
  have hsum := fun checks => (endOfOverlap_of_exact exact checks).1
  refine ⟨serve .off rotationPolicy key day, fun checks => ?_, ?_⟩
  · simp only [serve, hsum]
  · simp only [serve, hsum]
    cases key.revoked with
    | true => simp
    | false => by_cases past : day > key.expiresDay + rotationPolicy.overlapDays <;> simp [past]

theorem retrieveKey_of_not_stored {manager : KeyManager} {reference : KeyMaterialRef}
    (hstored : manager.stored reference.keyId reference.version = none) (identity : String)
    (day : UInt32) :
    ∃ error, ∀ checks, retrieveKey checks manager identity reference day =
      .error (.err error) := by
  cases authorized : manager.authorize identity reference with
  | error e => exact ⟨e, fun checks => by simp only [retrieveKey, authorized]⟩
  | ok =>
      cases hbucket : manager.keys[reference.keyId]? with
      | none => exact ⟨_, fun checks => by simp only [retrieveKey, authorized, hbucket]; rfl⟩
      | some versions =>
          simp only [stored, bucket, hbucket, Option.getD_some] at hstored
          exact ⟨_, fun checks => by simp only [retrieveKey, authorized, hbucket, hstored]; rfl⟩

/-- While the stored keys have exact days, no retrieval panics, and all builds agree. -/
theorem retrieveKey_of_exact {manager : KeyManager} (exact : manager.KeysExact)
    (identity : String) (reference : KeyMaterialRef) (day : UInt32) :
    ∃ reply, (∀ checks, retrieveKey checks manager identity reference day = reply) ∧
      reply ≠ .error .panic := by
  cases hstored : manager.stored reference.keyId reference.version with
  | none =>
      obtain ⟨error, herror⟩ := retrieveKey_of_not_stored hstored identity day
      exact ⟨.error (.err error), herror, nofun⟩
  | some key =>
      obtain ⟨served, hserved, nopanic⟩ := serve_of_exact (exact _ _ key hstored) day
      simp only [retrieveKey_of_stored _ hstored]
      cases hauthorized : manager.authorize identity reference with
      | error e => exact ⟨.error (.err e), fun _ => rfl, nofun⟩
      | ok => exact ⟨served, hserved, nopanic⟩

/-- Every entry stands in the bucket of its key id. -/
def Filed (manager : KeyManager) : Prop :=
  ∀ keyId, ∀ key ∈ manager.bucket keyId, key.reference.keyId = keyId

theorem Filed.push {manager : KeyManager} (filed : manager.Filed) (managed : ManagedKey) :
    (manager.push managed).Filed := by
  intro keyId key hkey
  rw [bucket_push] at hkey
  split at hkey
  · rename_i here
    rcases List.mem_append.mp ((mem_sortByKey _).mp hkey) with hold | hnew
    · exact filed keyId key hold
    · rw [List.mem_singleton.mp hnew, here]
  · exact filed keyId key hkey

theorem Filed.revokeKey {manager : KeyManager} (filed : manager.Filed) (keyId : String)
    (version : UInt32) : (manager.revokeKey keyId version).2.Filed := by
  intro other key hkey
  have hreference : key.reference ∈ (manager.bucket other).map (·.reference) := by
    rw [bucket_revokeKey] at hkey
    split at hkey
    · rw [← revokeFirst_references version]
      exact List.mem_map_of_mem hkey
    · exact List.mem_map_of_mem hkey
  obtain ⟨old, hold, hsame⟩ := List.mem_map.mp hreference
  rw [← hsame]
  exact filed other old hold

theorem Filed.step {manager : KeyManager} (filed : manager.Filed) (checks : OverflowChecks)
    (operation : KeyOperation) : (KeyManager.step sha256 checks manager operation).2.Filed :=
  step_preserves sha256 checks filed (fun _ => filed) filed.push filed.revokeKey operation

/-- Every key that is alone under its key id and version and not revoked is retrieved by
every identity that may use it, on every day of its exact window. -/
def KeysAvailable (checks : OverflowChecks) (manager : KeyManager) : Prop :=
  ∀ keyId key identity policy (day : UInt32),
    (manager.bucket keyId).filter (fun other => other.reference.version = key.reference.version) =
        [key] →
      key.revoked = false → manager.policies[identity]? = some policy →
        policy.Admits key.reference.keyId key.reference.kind → key.activatedDay ≤ day →
          day.toNat ≤ key.activatedDay.toNat + manager.rotationPolicy.rotateEveryDays.toNat +
              manager.rotationPolicy.overlapDays.toNat →
            retrieveKey checks manager identity key.reference day = .ok key.material

/-- A search finds the entry that is alone under its key id and version. -/
theorem stored_of_alone {manager : KeyManager} (filed : manager.Filed) {keyId : String}
    {key : ManagedKey}
    (alone : (manager.bucket keyId).filter
      (fun other => other.reference.version = key.reference.version) = [key]) :
    manager.stored key.reference.keyId key.reference.version = some key := by
  have hmem : key ∈ manager.bucket keyId := by
    have hfiltered := List.mem_singleton_self key
    rw [← alone] at hfiltered
    exact List.mem_of_mem_filter hfiltered
  rw [stored, filed keyId key hmem, ← List.head?_filter, alone]
  rfl

/-- A stored key with exact days is retrieved up to its exact last day. -/
theorem retrieveKey_of_exact_key {manager : KeyManager} {key : ManagedKey}
    (hstored : manager.stored key.reference.keyId key.reference.version = some key)
    (exact : key.Exact manager.rotationPolicy) (live : key.revoked = false) {identity : String}
    {policy : KeyAccessPolicy} (hpolicy : manager.policies[identity]? = some policy)
    (hadmits : policy.Admits key.reference.keyId key.reference.kind) {day : UInt32}
    (hday : day.toNat ≤ manager.rotationPolicy.lastDay key.activatedDay)
    (checks : OverflowChecks) :
    retrieveKey checks manager identity key.reference day = .ok key.material :=
  (retrieveKey_eq_ok_iff manager identity key.reference day key.material).mpr
    ⟨⟨policy, hpolicy, hadmits⟩, key, hstored, servedOn_of_exact exact live hday checks, rfl⟩

theorem keysAvailable_of_exact {manager : KeyManager} (filed : manager.Filed)
    (exact : manager.KeysExact) (checks : OverflowChecks) : manager.KeysAvailable checks := by
  intro keyId key identity policy day alone live hpolicy hadmits _ hday
  have hstored := stored_of_alone filed alone
  exact retrieveKey_of_exact_key hstored (exact _ _ key hstored) live hpolicy hadmits hday checks

/-! ## Runs -/

theorem filed_after_new {rotationPolicy : KeyRotationPolicy} {manager : KeyManager}
    (hnew : new rotationPolicy = .ok manager) (checks : OverflowChecks)
    (operations : List KeyOperation) :
    (after (KeyManager.step sha256 checks) manager operations).Filed :=
  after_preserves (fun _ operation filed => filed.step sha256 checks operation)
    (fun keyId key hkey => by simp [bucket_new hnew] at hkey) operations

/-- In every state of every run, a lone key that is not revoked is available when its own
exact last day fits, whatever other sums of the run overflowed. -/
theorem retrieveKey_of_lastDay_lt {rotationPolicy : KeyRotationPolicy} {manager : KeyManager}
    (hnew : new rotationPolicy = .ok manager) (checks : OverflowChecks)
    (operations : List KeyOperation) {keyId : String} {key : ManagedKey}
    (alone : ((after (step sha256 checks) manager operations).bucket keyId).filter
      (fun other => other.reference.version = key.reference.version) = [key])
    (live : key.revoked = false) (fits : rotationPolicy.lastDay key.activatedDay < 2 ^ 32)
    {identity : String} {policy : KeyAccessPolicy}
    (hpolicy : (after (step sha256 checks) manager operations).policies[identity]? = some policy)
    (hadmits : policy.Admits key.reference.keyId key.reference.kind) {day : UInt32}
    (hday : day.toNat ≤ rotationPolicy.lastDay key.activatedDay) :
    retrieveKey checks (after (step sha256 checks) manager operations) identity key.reference
      day = .ok key.material := by
  have hrotation := (rotationPolicy_after sha256 checks manager operations).trans
    (rotationPolicy_new hnew)
  have hstored := stored_of_alone (filed_after_new sha256 hnew checks operations) alone
  have hissued := firstIssued_of_stored sha256 hnew hstored
  have hexpires : key.expiresDay = key.activatedDay + rotationPolicy.rotateEveryDays := by
    simpa using expiresDay_of_firstIssued sha256 hissued
  have exact : key.Exact rotationPolicy := by
    refine ⟨?_, fits⟩
    rw [hexpires, UInt32.toNat_add,
      Nat.mod_eq_of_lt (lt_of_le_of_lt (Nat.le_add_right _ _) fits)]
  exact retrieveKey_of_exact_key hstored (hrotation ▸ exact) live hpolicy hadmits
    (hrotation ▸ hday) checks

/-- In every state that is reached by operations whose sums fit, every key that is alone
under its key id and version is available, and no addition of the run or of a retrieval
overflows: no call panics in a build with overflow checks, and builds with and without
them agree. -/
theorem keysAvailable_of_fits {rotationPolicy : KeyRotationPolicy} {manager : KeyManager}
    (hnew : new rotationPolicy = .ok manager) (checks : OverflowChecks)
    (operations : List KeyOperation)
    (fits : Guarded (step sha256 checks) Fits manager operations) :
    KeysAvailable checks (after (step sha256 checks) manager operations) ∧
    (∀ call ∈ history (step sha256 checks) manager operations, call.2 ≠ .error .panic) ∧
    (∀ identity reference day,
      retrieveKey checks (after (step sha256 checks) manager operations) identity reference day ≠
        .error .panic) ∧
    ∀ checks',
      history (step sha256 checks') manager operations =
        history (step sha256 checks) manager operations ∧
      after (step sha256 checks') manager operations =
        after (step sha256 checks) manager operations ∧
      ∀ identity reference day,
        retrieveKey checks' (after (step sha256 checks') manager operations) identity reference
            day =
          retrieveKey checks (after (step sha256 checks) manager operations) identity reference
            day := by
  have filed := filed_after_new sha256 hnew checks operations
  have exact : (after (step sha256 checks) manager operations).KeysExact := by
    refine after_preserves_of_guarded (fun reached operation fits exact => ?_) fits
      (fun keyId version key hkey => by simp [stored, bucket_new hnew] at hkey)
    obtain ⟨reply, next, hstep, -, preserved⟩ := step_of_fits sha256 fits
    rw [hstep checks]
    exact preserved exact
  refine ⟨keysAvailable_of_exact filed exact checks, ?_, ?_, fun checks' => ?_⟩
  · refine history_forall_of_guarded (Q := fun reply => reply ≠ .error .panic)
      (fun reached operation fits => ?_) fits
    obtain ⟨reply, next, hstep, nopanic, -⟩ := step_of_fits sha256 fits
    rw [hstep checks]
    exact nopanic
  · intro identity reference day
    obtain ⟨reply, hreply, nopanic⟩ := retrieveKey_of_exact exact identity reference day
    rw [hreply checks]
    exact nopanic
  · have agree : ∀ reached operation, Fits reached operation →
        step sha256 checks' reached operation = step sha256 checks reached operation := by
      intro reached operation fits
      obtain ⟨reply, next, hstep, -, -⟩ := step_of_fits sha256 fits
      rw [hstep checks', hstep checks]
    obtain ⟨sameHistory, sameState⟩ := run_congr_of_guarded agree fits
    refine ⟨sameHistory, sameState, fun identity reference day => ?_⟩
    obtain ⟨reply, hreply, -⟩ := retrieveKey_of_exact exact identity reference day
    rw [sameState, hreply checks', hreply checks]

/-- The loader may use a key that is activated on the last day there is. -/
def lastDayKeyIssued : List KeyOperation :=
  [.addAccessPolicy ⟨"loader", {"model-key"}, {.encryption}⟩,
    .generateKey "model-key" .encryption 1 4294967295 42]

theorem keysAvailable_of_fits_encryptionKey :
    KeysAvailable .on (after (step Sha256.hash .on) monthly encryptionKeyIssued) := by
  have created : new ⟨30, 7⟩ = .ok monthly := rfl
  have fits : Guarded (step Sha256.hash .on) Fits monthly encryptionKeyIssued :=
    ⟨trivial, .inr (.inr ⟨by decide, fun _ => by decide⟩), trivial⟩
  exact (keysAvailable_of_fits Sha256.hash created .on encryptionKeyIssued fits).1

/-- A build with overflow checks panics on that day, and a build without them stores a
key that is expired when it is activated. -/
theorem overflowing_key_lost :
    (¬ ∀ operations, ∀ call ∈ history (step Sha256.hash .on) monthly operations,
        call.2 ≠ .error .panic) ∧
      ¬ ∀ operations,
        KeysAvailable .off (after (step Sha256.hash .off) monthly operations) := by
  constructor
  · intro claim
    have hcall : (KeyOperation.generateKey "model-key" .encryption 1 4294967295 42,
        .error .panic) ∈ history (step Sha256.hash .on) monthly lastDayKeyIssued :=
      List.mem_cons_of_mem _ List.mem_cons_self
    exact claim lastDayKeyIssued _ hcall rfl
  · intro claim
    have promised := claim lastDayKeyIssued "model-key"
      (issuedKey Sha256.hash ⟨30, 7⟩ ⟨"model-key", 1, .encryption⟩ 4294967295 42) "loader"
      ⟨"loader", {"model-key"}, {.encryption}⟩ 4294967295 (by rfl) rfl (by rfl)
      ⟨by decide, by decide⟩ (by decide) (by decide)
    have refused : retrieveKey .off (after (step Sha256.hash .off) monthly lastDayKeyIssued)
        "loader" ⟨"model-key", 1, .encryption⟩ 4294967295 =
          .error (.err (.keyRevoked "model-key@1 expired")) := by rfl
    cases promised.symm.trans refused

end KeyManager

end LiteLlmSecurity
