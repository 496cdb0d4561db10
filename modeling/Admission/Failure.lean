/-
# Admission.Failure — why a decision could not be made

A failure is never a denial. It falls into one of three groups: the caller's input is wrong
(`isClientFault`), the backend could not tell (`isUnavailable`), or the caller gave up (`cancelled`).
One constructor stands apart: a quota that was never checked can make the arithmetic of a decision
meaningless, and then there is no decision at all (`divisionByZero`).

`Failure.message` is the one place where failures get their words.
-/
import Admission.Duration.Scaled

namespace Admission

/-- What can go wrong with a storage backend. -/
inductive StorageFailure where
  /-- The backend could not be reached or refused the operation. -/
  | unavailable (reason : String) (retryable : Bool)
  /-- All pooled connections are in use. -/
  | poolExhausted
  /-- A command took too long. -/
  | timeout (limit : Duration)
  /-- A state could not be written down. -/
  | serialization (reason : String)
  /-- Every attempt of a conditional write lost against another writer. -/
  | conflict (attempts : Nat)
deriving DecidableEq, Repr

/-- What can be wrong with a configuration. -/
inductive ConfigFailure where
  /-- The limit is zero. -/
  | invalidLimit (limit : Nat)
  /-- The window is shorter than a millisecond. -/
  | invalidWindow (window : Duration)
  /-- There is no backend. -/
  | missingStorage
  /-- The backend is not one that exists. -/
  | invalidStorage (reason : String)
  /-- A text is not a duration. -/
  | invalidDuration (reason : String)
deriving DecidableEq, Repr

/-- What can go wrong while connecting to a backend. -/
inductive ConnectionFailure where
  /-- There is nobody to connect to, or the connection was refused. -/
  | refused (reason : String)
  /-- Connecting took too long. -/
  | timeout (limit : Duration)
deriving DecidableEq, Repr

/-- Why a decision could not be made. -/
inductive Failure where
  /-- The backend failed. -/
  | storage (cause : StorageFailure)
  /-- The configuration is wrong. -/
  | config (cause : ConfigFailure)
  /-- There is no algorithm of that name. -/
  | unsupportedAlgorithm (name : String)
  /-- The request is malformed. -/
  | invalidRequest (reason : String)
  /-- The backend could not be connected to. -/
  | connection (cause : ConnectionFailure)
  /-- The caller gave up. -/
  | cancelled
  /-- The arithmetic of an unchecked quota has no result. -/
  | divisionByZero
deriving DecidableEq, Repr

namespace StorageFailure

/-- Whether trying again may help. -/
def isRetryable : StorageFailure → Bool
  | .unavailable _ retryable => retryable
  | .poolExhausted => true
  | .timeout _ => true
  | .serialization _ => false
  | .conflict _ => true

/-- The failure in words. -/
def message : StorageFailure → String
  | .unavailable reason _ => "Storage unavailable: " ++ reason
  | .poolExhausted => "Connection pool exhausted"
  | .timeout limit => "Storage operation timed out after " ++ limit.scaled
  | .serialization reason => "Serialization error: " ++ reason
  | .conflict attempts =>
    "Atomic update gave up after " ++ toString attempts ++ " conflicting attempts"

end StorageFailure

/-- The failure in words. -/
def ConfigFailure.message : ConfigFailure → String
  | .invalidLimit limit => "limit must be greater than 0, got " ++ toString limit
  | .invalidWindow window => "window must be at least 1ms, got " ++ window.scaled
  | .missingStorage => "storage is required"
  | .invalidStorage reason => "Invalid storage configuration: " ++ reason
  | .invalidDuration reason => "Invalid duration: " ++ reason

/-- The failure in words. -/
def ConnectionFailure.message : ConnectionFailure → String
  | .refused reason => "Failed to connect: " ++ reason
  | .timeout limit => "Connection timeout after " ++ limit.scaled

namespace Failure

/-- The failure in words. -/
def message : Failure → String
  | .storage cause => "Storage error: " ++ cause.message
  | .config cause => "Configuration error: " ++ cause.message
  | .unsupportedAlgorithm name => "Unsupported algorithm: " ++ name
  | .invalidRequest reason => "Invalid request: " ++ reason
  | .connection cause => "Connection error: " ++ cause.message
  | .cancelled => "Operation cancelled"
  | .divisionByZero => "Division by zero"

/-- Whether the backend could not tell. -/
def isUnavailable : Failure → Bool
  | .storage _ => true
  | .connection _ => true
  | _ => false

/-- Whether the caller gave up. -/
def isCancelled (f : Failure) : Bool := f = .cancelled

/-- Whether the caller's input is wrong. -/
def isClientFault : Failure → Bool
  | .config _ => true
  | .unsupportedAlgorithm _ => true
  | .invalidRequest _ => true
  | _ => false

/-- The HTTP status an endpoint answers with. -/
def status (f : Failure) : Nat := if f.isClientFault then 400 else 500

end Failure

end Admission
