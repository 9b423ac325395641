import LiteLlmSecurity.Collection.StableSort
import LiteLlmSecurity.Error
import LiteLlmSecurity.Types
import Mathlib.Data.Finset.Basic

/-!
# The key manager

Keys are stored in one bucket for each key id. `generateKey` appends to a bucket
and sorts it by version, `rotateKey` issues the version after the last one, and
revocation and retrieval act on the first entry with a version.

The additions of days and versions are unchecked `u32` additions, so an operation
takes the build's overflow setting. Every operation returns its result together
with the manager after it, also when it fails: nothing is rolled back.
-/

namespace LiteLlmSecurity

open Rust StableSort

inductive KeyKind where
  | encryption
  | signature
  | tls
  deriving DecidableEq, Repr

/-- The `{:?}` text of a kind. -/
def KeyKind.debug : KeyKind → String
  | .encryption => "Encryption"
  | .signature => "Signature"
  | .tls => "Tls"

structure KeyMaterialRef where
  keyId : String
  version : UInt32
  kind : KeyKind
  deriving DecidableEq, Repr

structure KeyRotationPolicy where
  rotateEveryDays : UInt32
  overlapDays : UInt32
  deriving DecidableEq, Repr

def KeyRotationPolicy.isValid (policy : KeyRotationPolicy) : Bool :=
  policy.rotateEveryDays > 0 && policy.overlapDays ≤ policy.rotateEveryDays

structure KeyAccessPolicy where
  identity : String
  allowedKeyIds : Finset String
  allowedKinds : Finset KeyKind
  deriving DecidableEq

structure ManagedKey where
  reference : KeyMaterialRef
  material : Bytes
  activatedDay : UInt32
  expiresDay : UInt32
  revoked : Bool
  deriving DecidableEq, Repr

structure KeyManager where
  rotationPolicy : KeyRotationPolicy
  keys : BTreeMap String (List ManagedKey)
  policies : BTreeMap String KeyAccessPolicy

section Derivation

variable (sha256 : Bytes → Vector UInt8 32)

/-- The loop of `derive_key_material`, which hashes the context of one counter
value after another until there are 32 bytes. -/
def deriveLoop (context : UInt64 → Bytes) (out : Bytes) (counter : UInt64) : Bytes :=
  if out.length < 32 then
    deriveLoop context (out ++ (sha256 (context counter)).toList) (counter + 1)
  else out
termination_by 32 - out.length
decreasing_by
  simp only [List.length_append, Vector.length_toList]
  omega

def deriveKeyMaterial (keyId : String) (kind : KeyKind) (version : UInt32) (seed : UInt64) :
    Bytes :=
  (deriveLoop sha256 (fun counter =>
    asBytes "lite-llm::key-derivation" ++ asBytes keyId ++
      asBytes s!"{kind.debug}|{version}|{seed}|{counter}") [] 0).take 32

end Derivation

namespace KeyManager

def new (rotationPolicy : KeyRotationPolicy) : SecurityResult KeyManager :=
  if !rotationPolicy.isValid then .error (.invalidConfig "invalid key rotation policy")
  else .ok { rotationPolicy, keys := ∅, policies := ∅ }

def addAccessPolicy (manager : KeyManager) (policy : KeyAccessPolicy) : KeyManager :=
  { manager with policies := manager.policies.insert policy.identity policy }

/-- `entry(..).or_default().push(..)`, then `get_mut(..)` and the stable sort. The
versions are compared as numbers. -/
def push (manager : KeyManager) (managed : ManagedKey) : KeyManager :=
  let keyId := managed.reference.keyId
  let keys := manager.keys.insert keyId (manager.keys.getD keyId [] ++ [managed])
  { manager with keys := keys.modify keyId (sortByKey (·.reference.version.toNat)) }

def generateKey (sha256 : Bytes → Vector UInt8 32) (checks : OverflowChecks)
    (manager : KeyManager) (keyId : String) (kind : KeyKind) (version activatedDay : UInt32)
    (seed : UInt64) : SecurityOutcome KeyMaterialRef × KeyManager :=
  if trim keyId = "" then
    (.error (.err (.invalidInput "key_id must not be empty")), manager)
  else if version = 0 then
    (.error (.err (.invalidInput "key version must be greater than zero")), manager)
  else
    let material := deriveKeyMaterial sha256 keyId kind version seed
    let reference := { keyId, version, kind }
    match addU32 checks activatedDay manager.rotationPolicy.rotateEveryDays with
    | .error fault => (.error fault, manager)
    | .ok expiresDay =>
        let managed := { reference, material, activatedDay, expiresDay, revoked := false }
        (.ok reference, manager.push managed)

def rotateKey (sha256 : Bytes → Vector UInt8 32) (checks : OverflowChecks)
    (manager : KeyManager) (keyId : String) (day : UInt32) (seed : UInt64) :
    SecurityOutcome KeyMaterialRef × KeyManager :=
  match manager.keys[keyId]? with
  | none => (.error (.err (.keyNotFound keyId)), manager)
  | some versions =>
      match versions.getLast? with
      | none => (.error (.err (.keyNotFound keyId)), manager)
      | some latest =>
          match addU32 checks latest.reference.version 1 with
          | .error fault => (.error fault, manager)
          | .ok version =>
              generateKey sha256 checks manager keyId latest.reference.kind version day seed

/-- The loop of `revoke_key`: mark the first entry with the version and stop. The
flag says whether there was one. -/
def revokeFirst (version : UInt32) : List ManagedKey → List ManagedKey × Bool
  | [] => ([], false)
  | key :: rest =>
      if key.reference.version = version then ({ key with revoked := true } :: rest, true)
      else
        let (rest, found) := revokeFirst version rest
        (key :: rest, found)

def revokeKey (manager : KeyManager) (keyId : String) (version : UInt32) :
    SecurityResult Unit × KeyManager :=
  match manager.keys[keyId]? with
  | none => (.error (.keyNotFound keyId), manager)
  | some versions =>
      let (versions, found) := revokeFirst version versions
      let manager := { manager with keys := manager.keys.insert keyId versions }
      if !found then (.error (.keyNotFound s!"{keyId}@{version}"), manager)
      else (.ok (), manager)

def authorize (manager : KeyManager) (identity : String) (reference : KeyMaterialRef) :
    SecurityResult Unit :=
  match manager.policies[identity]? with
  | none => .error (.unauthorized s!"identity '{identity}' has no key policy")
  | some policy =>
      if reference.keyId ∉ policy.allowedKeyIds then
        .error (.unauthorized
          s!"identity '{identity}' not allowed for key '{reference.keyId}'")
      else if reference.kind ∉ policy.allowedKinds then
        .error (.unauthorized
          s!"identity '{identity}' not allowed for key kind {reference.kind.debug}")
      else .ok ()

/-- The checks of `retrieve_key` on the entry it found. -/
def serve (checks : OverflowChecks) (rotationPolicy : KeyRotationPolicy) (key : ManagedKey)
    (day : UInt32) : SecurityOutcome Bytes := do
  if key.revoked then
    throw (.err (.keyRevoked s!"{key.reference.keyId}@{key.reference.version}"))
  let last ← addU32 checks key.expiresDay rotationPolicy.overlapDays
  if day > last then
    throw (.err (.keyRevoked s!"{key.reference.keyId}@{key.reference.version} expired"))
  return key.material

def retrieveKey (checks : OverflowChecks) (manager : KeyManager) (identity : String)
    (reference : KeyMaterialRef) (day : UInt32) : SecurityOutcome Bytes :=
  match manager.authorize identity reference with
  | .error e => .error (.err e)
  | .ok () =>
      match manager.keys[reference.keyId]? with
      | none => .error (.err (.keyNotFound reference.keyId))
      | some versions =>
          match versions.find? fun key => key.reference.version = reference.version with
          | none =>
              .error (.err (.keyNotFound s!"{reference.keyId}@{reference.version}"))
          | some key => serve checks manager.rotationPolicy key day

end KeyManager

/-- The operations that change a key manager. -/
inductive KeyOperation where
  | addAccessPolicy (policy : KeyAccessPolicy)
  | generateKey (keyId : String) (kind : KeyKind) (version activatedDay : UInt32) (seed : UInt64)
  | rotateKey (keyId : String) (day : UInt32) (seed : UInt64)
  | revokeKey (keyId : String) (version : UInt32)
  deriving DecidableEq

/-- One operation, with its reply: the reference it returned, if it returns one. -/
def KeyManager.step (sha256 : Bytes → Vector UInt8 32) (checks : OverflowChecks)
    (manager : KeyManager) : KeyOperation → SecurityOutcome (Option KeyMaterialRef) × KeyManager
  | .addAccessPolicy policy => (.ok none, manager.addAccessPolicy policy)
  | .generateKey keyId kind version activatedDay seed =>
      (generateKey sha256 checks manager keyId kind version activatedDay seed).map
        (·.map some) id
  | .rotateKey keyId day seed =>
      (rotateKey sha256 checks manager keyId day seed).map (·.map some) id
  | .revokeKey keyId version =>
      (revokeKey manager keyId version).map
        (fun reply => (Outcome.ofResult reply).map fun _ => none) id

end LiteLlmSecurity
