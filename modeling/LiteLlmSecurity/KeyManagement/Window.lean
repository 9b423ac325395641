import LiteLlmSecurity.KeyManagement.Access

/-!
# The days on which a key is retrieved

A key has a day of activation, and a last day that is computed from it. Retrieval
compares the day with the last one only, and the last one, a wrapped sum, is never
after the exact end of the window. So a key is never retrieved after its window,
but it is retrieved before it.
-/

namespace LiteLlmSecurity.KeyManager

open Rust Machine

variable (sha256 : Bytes → Vector UInt8 32) {checks : OverflowChecks}

/-- The expiry of an issued key is the wrapped sum of its activation and the rotation
period. -/
theorem expiresDay_of_firstIssued {rotationPolicy : KeyRotationPolicy}
    {past : List (KeyOperation × SecurityOutcome (Option KeyMaterialRef))} {keyId : String}
    {version : UInt32} {key : ManagedKey}
    (h : firstIssued sha256 rotationPolicy past keyId version = some key) :
    key.expiresDay = key.activatedDay + rotationPolicy.rotateEveryDays := by
  obtain ⟨⟨operation, reply⟩, -, hissued⟩ := List.mem_filterMap.mp (List.mem_of_find?_eq_some h)
  unfold issued at hissued
  split at hissued
  · rw [← Option.some.inj hissued]
    rfl
  · rw [← Option.some.inj hissued]
    rfl
  · cases hissued

/-- A served day is not past the exact end of the window, whether or not the sums
wrapped around. -/
theorem toNat_le_of_servedOn {rotationPolicy : KeyRotationPolicy} {key : ManagedKey}
    {day : UInt32} (hexpires : key.expiresDay = key.activatedDay + rotationPolicy.rotateEveryDays)
    (served : key.ServedOn checks rotationPolicy day) :
    day.toNat ≤ key.activatedDay.toNat + rotationPolicy.rotateEveryDays.toNat +
      rotationPolicy.overlapDays.toNat := by
  obtain ⟨-, last, hle, hlast⟩ := served
  have hday := UInt32.le_iff_toNat_le.mp hle
  rw [eq_of_addU32_eq_ok hlast, hexpires, UInt32.toNat_add, UInt32.toNat_add] at hday
  omega

/-- In every state a manager reaches: every material that is retrieved is that of a key
whose activation is not after the day, and whose window has not ended, exactly when no
admitted reference leads to a served key that is activated after the day. -/
theorem retrieveKey_inWindow_iff {rotationPolicy : KeyRotationPolicy} {manager : KeyManager}
    (hnew : new rotationPolicy = .ok manager) (operations : List KeyOperation)
    (identity : String) (reference : KeyMaterialRef) (day : UInt32) :
    (∀ material,
      retrieveKey checks (after (step sha256 checks) manager operations) identity reference day =
          .ok material →
        ∃ key,
          firstIssued sha256 rotationPolicy (history (step sha256 checks) manager operations)
            reference.keyId reference.version = some key ∧
          material = key.material ∧ key.activatedDay ≤ day ∧
          day.toNat ≤ key.activatedDay.toNat + rotationPolicy.rotateEveryDays.toNat +
            rotationPolicy.overlapDays.toNat) ↔
      ¬ ∃ policy key,
        (after (step sha256 checks) manager operations).policies[identity]? = some policy ∧
        policy.Admits reference.keyId reference.kind ∧
        (after (step sha256 checks) manager operations).stored reference.keyId
          reference.version = some key ∧
        key.ServedOn checks rotationPolicy day ∧ day < key.activatedDay := by
  have hretrieves :=
    retrieveKey_after_eq_ok_iff sha256 checks hnew operations identity reference day
  constructor
  · rintro inWindow ⟨policy, key, hidentity, hadmits, hstored, hserved, hearly⟩
    obtain ⟨first, hfirst, -, hactivated, -⟩ := inWindow key.material
      ((hretrieves key.material).mpr ⟨⟨policy, hidentity, hadmits⟩, key, hstored, hserved, rfl⟩)
    rw [firstIssued_of_stored sha256 hnew hstored] at hfirst
    cases hfirst
    exact UInt32.not_le.mpr hearly hactivated
  · intro notEarly material hretrieve
    obtain ⟨⟨policy, hidentity, hadmits⟩, key, hstored, hserved, hmaterial⟩ :=
      (hretrieves material).mp hretrieve
    have hissued := firstIssued_of_stored sha256 hnew hstored
    have hexpires : key.expiresDay = key.activatedDay + rotationPolicy.rotateEveryDays := by
      simpa using expiresDay_of_firstIssued sha256 hissued
    have hlast := toNat_le_of_servedOn hexpires hserved
    refine ⟨{ key with revoked := false }, hissued, hmaterial, ?_, hlast⟩
    exact UInt32.not_lt.mp fun hearly =>
      notEarly ⟨policy, key, hidentity, hadmits, hstored, hserved, hearly⟩

/-- The loader may use a key that is activated on day 100. -/
def laterKeyIssued : List KeyOperation :=
  [.addAccessPolicy ⟨"loader", {"model-key"}, {.encryption}⟩,
    .generateKey "model-key" .encryption 1 100 42]

theorem retrieveKey_inWindow_day101 :
    (∀ material,
      retrieveKey .on (after (step Sha256.hash .on) monthly laterKeyIssued) "loader"
          ⟨"model-key", 1, .encryption⟩ 101 = .ok material →
        ∃ key,
          firstIssued Sha256.hash ⟨30, 7⟩ (history (step Sha256.hash .on) monthly laterKeyIssued)
            "model-key" 1 = some key ∧
          material = key.material ∧ key.activatedDay ≤ 101 ∧
          (101 : UInt32).toNat ≤ key.activatedDay.toNat + (30 : UInt32).toNat +
            (7 : UInt32).toNat) ↔
      ¬ ∃ policy key,
        (after (step Sha256.hash .on) monthly laterKeyIssued).policies["loader"]? = some policy ∧
        policy.Admits "model-key" .encryption ∧
        (after (step Sha256.hash .on) monthly laterKeyIssued).stored "model-key" 1 = some key ∧
        key.ServedOn .on ⟨30, 7⟩ 101 ∧ 101 < key.activatedDay :=
  retrieveKey_inWindow_iff Sha256.hash rfl laterKeyIssued "loader" ⟨"model-key", 1, .encryption⟩
    101

/-- The key is retrieved on day 1. -/
theorem key_retrieved_before_activation :
    ¬ ∀ material,
      retrieveKey .on (after (step Sha256.hash .on) monthly laterKeyIssued) "loader"
          ⟨"model-key", 1, .encryption⟩ 1 = .ok material →
        ∃ key,
          firstIssued Sha256.hash ⟨30, 7⟩ (history (step Sha256.hash .on) monthly laterKeyIssued)
            "model-key" 1 = some key ∧
          material = key.material ∧ key.activatedDay ≤ 1 ∧
          (1 : UInt32).toNat ≤ key.activatedDay.toNat + (30 : UInt32).toNat +
            (7 : UInt32).toNat := by
  intro claim
  obtain ⟨first, hfirst, -, hactivated, -⟩ := claim
    (deriveKeyMaterial Sha256.hash "model-key" .encryption 1 42) (by rfl)
  have hissued : firstIssued Sha256.hash ⟨30, 7⟩
      (history (step Sha256.hash .on) monthly laterKeyIssued) "model-key" 1 =
        some (issuedKey Sha256.hash ⟨30, 7⟩ ⟨"model-key", 1, .encryption⟩ 100 42) := by rfl
  rw [hissued] at hfirst
  cases hfirst
  exact absurd hactivated (by decide)

end LiteLlmSecurity.KeyManager
