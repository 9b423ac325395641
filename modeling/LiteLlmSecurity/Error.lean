import LiteLlmSecurity.Rust.Basic

/-!
# The crate's error type
-/

namespace LiteLlmSecurity

inductive SecurityError where
  | invalidConfig (message : String)
  | invalidInput (message : String)
  | invalidState (message : String)
  | parseError (message : String)
  | unauthorized (message : String)
  | integrityViolation (message : String)
  | signatureInvalid (message : String)
  | encryptionFailed (message : String)
  | decryptionFailed (message : String)
  | keyNotFound (message : String)
  | keyRevoked (message : String)
  | sandboxDenied (message : String)
  | tamperDetected (message : String)
  | complianceGap (message : String)
  | ioError (message : String)
  deriving DecidableEq, Repr

abbrev SecurityResult (α : Type) := Except SecurityError α

/-- The result of a call whose arithmetic may panic. -/
abbrev SecurityOutcome (α : Type) := Rust.Outcome SecurityError α

end LiteLlmSecurity
