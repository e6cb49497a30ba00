import AccessControl.Duration
import AccessControl.Identifier.Reader
import AccessControl.Store.Error

/-!
# Errors of the authorization service

An error says which operation failed, for whom or what, and why.  Callers branch on its kind, which
tells a denial from a request that could never succeed and from a decision that could not be made.
-/

namespace AccessControl

/-- What callers branch on. -/
inductive ErrorKind where
  /-- The user may not perform the action. -/
  | denied
  /-- The request is malformed: asking again will not help. -/
  | precondition
  | notFound
  | duplicateEntry
  /-- The decision could not be made; this is no denial. -/
  | internal
  deriving DecidableEq, Repr

namespace ErrorKind

/-- The name of a kind of error. -/
def name : ErrorKind → String
  | denied => "denied"
  | precondition => "precondition"
  | notFound => "not_found"
  | duplicateEntry => "duplicate_entry"
  | internal => "internal"

/-- Whether asking again may help. -/
def isRetryable : ErrorKind → Bool
  | internal => true
  | _ => false

end ErrorKind

/-- Why an operation of the service failed. -/
inductive ServiceCause where
  /-- The store did not do what it was asked. -/
  | storage (error : StorageError)
  /-- The text of the request names no resource. -/
  | invalidIdentifier (error : InvalidIdentifier)
  /-- The method of the request has no action. -/
  | unsupportedMethod (method : String)
  /-- A grant has to allow something. -/
  | emptyActions
  /-- The store did not answer in time. -/
  | deadline (limit : Duration)
  deriving DecidableEq, Repr

namespace ServiceCause

/-- What is said about a cause. -/
def message : ServiceCause → String
  | storage error => error.message
  | invalidIdentifier error => error.message
  | unsupportedMethod method => "unsupported http method '" ++ method ++ "'"
  | emptyActions => "action set must not be empty"
  | deadline limit => "deadline of " ++ limit.text ++ " exceeded"

/-- The kind of error a cause makes. -/
def kind : ServiceCause → ErrorKind
  | storage .accessDenied => .denied
  | storage .duplicateEntry => .duplicateEntry
  | storage (.notFound _) => .notFound
  | storage (.internal _) => .internal
  | invalidIdentifier _ => .precondition
  | unsupportedMethod _ => .precondition
  | emptyActions => .precondition
  | deadline _ => .internal

end ServiceCause

/-- A failed operation of the service. -/
structure ServiceError where
  operation : String
  context : String
  cause : ServiceCause
  deriving DecidableEq, Repr

namespace ServiceError

/-- What is said about a failed operation. -/
def message (error : ServiceError) : String :=
  error.operation ++ " failed (" ++ error.context ++ "): " ++ error.cause.message

/-- The kind of a failed operation. -/
def kind (error : ServiceError) : ErrorKind := error.cause.kind

/-- Whether the operation failed because the answer is no. -/
def isDenied (error : ServiceError) : Bool := error.kind == .denied

/-- Whether asking again may help. -/
def isRetryable (error : ServiceError) : Bool := error.kind.isRetryable

end ServiceError

end AccessControl
