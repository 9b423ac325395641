import LiteLlmSecurity.Collection.StableSort
import LiteLlmSecurity.Crates
import LiteLlmSecurity.Error
import LiteLlmSecurity.Types
import Mathlib.Data.String.Basic

/-!
# Model manifests

A manifest lists the tiers and the shards of a model. Its hash is taken of a
canonical text: a line for the model id, one for the version, one for the sorted
tiers, and one for each shard in the order of the paths. Model ids and paths are
written as they are, without escapes.
-/

namespace LiteLlmSecurity

open Rust StableSort

def sha256Algorithm : String := "sha256"

def sha512Algorithm : String := "sha512"

structure ArtifactDigest where
  algorithm : String
  hex : String
  deriving DecidableEq, Repr

namespace ArtifactDigest

variable (sha256 : Bytes → Vector UInt8 32) (sha512 : Bytes → Vector UInt8 64) (hex : Hex)

def ofSha256 (payload : Bytes) : ArtifactDigest :=
  { algorithm := sha256Algorithm, hex := hex.encode (sha256 payload).toList }

def ofSha512 (payload : Bytes) : ArtifactDigest :=
  { algorithm := sha512Algorithm, hex := hex.encode (sha512 payload).toList }

def fromPayload (payload : Bytes) (algorithm : String) : SecurityResult ArtifactDigest :=
  if algorithm = sha256Algorithm then .ok (ofSha256 sha256 hex payload)
  else if algorithm = sha512Algorithm then .ok (ofSha512 sha512 hex payload)
  else .error (.invalidConfig "unsupported digest algorithm")

end ArtifactDigest

structure SignatureEnvelope where
  signerId : String
  keyId : String
  signatureHex : String
  deriving DecidableEq, Repr

structure ManifestShard where
  path : String
  tier : TierId
  digest : ArtifactDigest
  bytes : UInt64
  deriving DecidableEq, Repr

structure SecureModelManifest where
  modelId : String
  versionMajor : UInt32
  versionMinor : UInt32
  versionPatch : UInt32
  tiers : List TierId
  shards : List ManifestShard
  manifestHashHex : String
  signature : SignatureEnvelope
  deriving DecidableEq, Repr

namespace SecureModelManifest

/-- The tiers in ascending order. -/
def sortedTiers (manifest : SecureModelManifest) : List TierId :=
  sortByKey UInt16.toNat manifest.tiers

/-- The shards in the order of their paths. -/
def sortedShards (manifest : SecureModelManifest) : List ManifestShard :=
  sortByKey (·.path) manifest.shards

def canonicalPayload (manifest : SecureModelManifest) : String :=
  let out := s!"model_id={manifest.modelId}\n"
  let out := out ++
    s!"version={manifest.versionMajor}.{manifest.versionMinor}.{manifest.versionPatch}\n"
  let tiers := ",".intercalate (manifest.sortedTiers.map toString)
  let out := out ++ s!"tiers={tiers}\n"
  manifest.sortedShards.foldl (fun out shard => out ++
    (s!"shard|{shard.path}|{shard.tier}|{shard.digest.algorithm}|" ++
      s!"{shard.digest.hex}|{shard.bytes}\n")) out

def recomputeHash (sha256 : Bytes → Vector UInt8 32) (hex : Hex)
    (manifest : SecureModelManifest) : String :=
  sha256Hex sha256 hex manifest.canonicalPayload

/-- The loop of `validate_shape` over the shards. -/
def validateShards : List ManifestShard → SecurityResult Unit
  | [] => .ok ()
  | shard :: rest =>
      if trim shard.path = "" then .error (.invalidInput "shard path is required")
      else if shard.bytes = 0 then .error (.invalidInput "shard bytes must be positive")
      else validateShards rest

def validateShape (manifest : SecureModelManifest) : SecurityResult Unit :=
  if trim manifest.modelId = "" then .error (.invalidInput "manifest model_id is required")
  else if manifest.tiers = [] then .error (.invalidInput "manifest tiers are required")
  else if manifest.shards = [] then .error (.invalidInput "manifest shards are required")
  else validateShards manifest.shards

end SecureModelManifest

end LiteLlmSecurity
