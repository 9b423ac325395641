import LiteLlmSecurity.Text.Separator
import LiteLlmSecurity.Crypto.Hmac
import LiteLlmSecurity.Audit.Tamper
import LiteLlmSecurity.KeyManagement.Lifecycle
import LiteLlmSecurity.AccessControl.Downgrade
import LiteLlmSecurity.Sandbox.Grant
import LiteLlmSecurity.Encryption.KeySeparation
import LiteLlmSecurity.Integrity.Authentication
import LiteLlmSecurity.Integrity.Loading
import LiteLlmSecurity.Integrity.Publisher
import LiteLlmSecurity.Audit.Commitment
import LiteLlmSecurity.Audit.Identity
import LiteLlmSecurity.AccessControl.Tiers
import LiteLlmSecurity.Sandbox.Soundness
import LiteLlmSecurity.MemorySafety.Acceptance
import LiteLlmSecurity.KeyManagement.Window
import LiteLlmSecurity.KeyManagement.Availability
import LiteLlmSecurity.KeyManagement.Rotation
import LiteLlmSecurity.Sandbox.Lifetime
import LiteLlmSecurity.Integrity.ListingOrder
import LiteLlmSecurity.Encryption.TierSeparation
import LiteLlmSecurity.AccessControl.Privileges
import LiteLlmSecurity.Zeroization.Session
import LiteLlmSecurity.MemorySafety.ListingOrder
import LiteLlmSecurity.KeyManagement.Secrecy
import LiteLlmSecurity.KeyManagement.Derivation
import LiteLlmSecurity.Types.HexCodec
import LiteLlmSecurity.Types.Fnv
import LiteLlmSecurity.Machine.Isolation
import LiteLlmSecurity.KeyManagement.Isolation
import LiteLlmSecurity.Sandbox.Usage
import LiteLlmSecurity.AccessControl.Latest
import LiteLlmSecurity.Integrity.Locality
import LiteLlmSecurity.Integrity.Delivery
import LiteLlmSecurity.Audit.Splice
import LiteLlmSecurity.Encryption.Custody
import LiteLlmSecurity.Compliance.Engine
import LiteLlmSecurity.Compliance.Evidence
import LiteLlmSecurity.Number.Nearest
import LiteLlmSecurity.Rust.Single
import LiteLlmSecurity.Hardening.Checklist
import LiteLlmSecurity.Hardening.Coverage
import LiteLlmSecurity.MemorySafety.Composition
import LiteLlmSecurity.Zeroization.Trail
import LiteLlmSecurity.Encryption.KeyUse
import LiteLlmSecurity.Sandbox.Isolation
import LiteLlmSecurity.Integrity.Provenance
import LiteLlmSecurity.Integrity.Rollover
