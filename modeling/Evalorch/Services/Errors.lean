import Evalorch.Models.Enums

/-!
# Failures

`Exn` lists the exceptions the retry policy tells apart: the errors of the evaluation service
with their class and code, the errors of the HTTP client, the built-in errors that mark a
programming or configuration mistake, the errors of the database driver, and the service's
own signals. `classifyError` maps each to a class, `errorCodeFor` to a code.
-/

namespace Evalorch

/-- Identifiers of rows. -/
abbrev Uuid : Type := ℕ

/-- An exception. -/
inductive Exn where
  /-- `EvaluationError` and its subclasses, with the class and code the instance carries. -/
  | evaluation (errorClass : ErrorClass) (errorCode message : String)
  /-- `httpx.HTTPStatusError`. -/
  | httpStatus (statusCode : ℕ) (message : String)
  /-- `httpx.TimeoutException`. -/
  | httpTimeout (message : String)
  /-- `httpx.ConnectError` and `httpx.NetworkError`. -/
  | httpConnection (message : String)
  /-- `TimeoutError`. -/
  | timeout (message : String)
  /-- `ValueError`, `TypeError`, `KeyError`, `LookupError`, `AttributeError` and their
  subclasses, with the name of the class. -/
  | builtin (typeName message : String)
  /-- `JobCreationError`, a `ValueError` with an HTTP status. -/
  | jobCreation (message : String) (statusCode : ℕ)
  /-- `StaleWorkerError`. -/
  | staleWorker (ticketId : Uuid)
  /-- `IllegalTicketTransition`. -/
  | illegalTransition (current target : TicketStatus)
  /-- `JobCancelled`. -/
  | jobCancelled
  /-- SQLAlchemy's `OperationalError`; `deadlock` is what `is_postgres_deadlock` answers. -/
  | operational (message : String) (deadlock : Bool)
  /-- psycopg's `DeadlockDetected`. -/
  | deadlockDetected (message : String)
  /-- SQLAlchemy's `IntegrityError`: a violated constraint. -/
  | integrity (constraint : String)
  /-- Any other exception, with the name of its class. -/
  | other (typeName message : String)

namespace Exn

/-- `PermanentEvaluationError(message, error_code=code)`. -/
def permanentEvaluation (message code : String) : Exn :=
  .evaluation .permanent code message

/-- `MissingContextError(message)`. -/
def missingContext (message : String) : Exn :=
  .evaluation .missingContext "MISSING_CONTEXT" message

/-- `InvalidEvaluatorConfigError(message)`. -/
def invalidEvaluatorConfig (message : String) : Exn :=
  permanentEvaluation message "INVALID_EVALUATOR_CONFIG"

/-- `ValueError(message)`. -/
def value (message : String) : Exn :=
  .builtin "ValueError" message

/-- `LookupError(message)`. -/
def lookup (message : String) : Exn :=
  .builtin "LookupError" message

/-- The name of the class of an exception that is not classified by its own code. -/
def typeName : Exn → String
  | .evaluation .. => "EvaluationError"
  | .httpStatus .. => "HTTPStatusError"
  | .httpTimeout _ => "TimeoutException"
  | .httpConnection _ => "ConnectError"
  | .timeout _ => "TimeoutError"
  | .builtin name _ => name
  | .jobCreation .. => "JobCreationError"
  | .staleWorker _ => "StaleWorkerError"
  | .illegalTransition .. => "IllegalTicketTransition"
  | .jobCancelled => "JobCancelled"
  | .operational .. => "OperationalError"
  | .deadlockDetected _ => "DeadlockDetected"
  | .integrity _ => "IntegrityError"
  | .other name _ => name

/-- `str(exc)`. -/
def text : Exn → String
  | .evaluation _ _ message => message
  | .httpStatus _ message => message
  | .httpTimeout message => message
  | .httpConnection message => message
  | .timeout message => message
  | .builtin _ message => message
  | .jobCreation message _ => message
  | .staleWorker ticketId => s!"stale worker cannot settle ticket {ticketId}"
  | .illegalTransition current target =>
      "illegal ticket transition " ++ current.value ++ " -> " ++ target.value
  | .jobCancelled => ""
  | .operational message _ => message
  | .deadlockDetected message => message
  | .integrity constraint => constraint
  | .other _ message => message

end Exn

/-- `PERMANENT_HTTP_STATUS`. -/
def permanentHttpStatus : List ℕ := [400, 401, 403, 404, 405, 422]

/-- The retry policy of an exception. The unlisted ones are transient: the tests of the
source on their texts all give the same answer. -/
def classifyError : Exn → ErrorClass
  | .evaluation errorClass _ _ => errorClass
  | .httpStatus statusCode _ =>
      if statusCode ∈ permanentHttpStatus then .permanent else .transient
  | .httpTimeout _ | .httpConnection _ => .transient
  | .timeout _ => .transient
  | .builtin .. | .jobCreation .. => .permanent
  | .staleWorker _ | .illegalTransition .. | .jobCancelled | .operational ..
  | .deadlockDetected _ | .integrity _ | .other .. => .transient

/-- The error code of an exception. -/
def errorCodeFor : Exn → String
  | .evaluation _ errorCode _ => errorCode
  | .httpStatus statusCode _ => s!"HTTP_{statusCode}"
  | .httpTimeout _ => "LLM_TIMEOUT"
  | .httpConnection _ => "CONNECTION_ERROR"
  | e => e.typeName.toUpper

/-- `assert_ticket_transition`. -/
def assertTicketTransition (current target : TicketStatus) : Except Exn Unit :=
  if target ∈ allowedTicketTransitions current then .ok ()
  else .error (.illegalTransition current target)

/-- An exception of the service's own that `execute_ticket` catches by name. -/
def Exn.isSignal : Exn → Bool
  | .staleWorker _ | .jobCancelled => true
  | _ => false

end Evalorch
