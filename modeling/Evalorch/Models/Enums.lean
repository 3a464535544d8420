import Mathlib.Data.List.Basic

/-!
# Lifecycle enumerations

The statuses of jobs, tickets and results, the classes of errors, and the ticket state
machine: `allowedTicketTransitions s` lists the statuses a ticket in status `s` may move to.
-/

namespace Evalorch

inductive JobStatus where
  | created
  | ready
  | running
  | completed
  | partialFailed
  | failed
  | cancelled
deriving DecidableEq, Repr

inductive TicketStatus where
  | ready
  | running
  | retry
  | done
  | failed
  | cancelled
  | notApplicable
deriving DecidableEq, Repr

inductive CheckType where
  | deterministic
  | llmJudge
deriving DecidableEq, Repr

inductive ResultStatus where
  | passed
  | failed
  | notApplicable
  | error
deriving DecidableEq, Repr

/-- The policy for a check whose required context cannot be resolved. -/
inductive OnMissingContext where
  | notApplicable
  | fail
deriving DecidableEq, Repr

inductive ErrorClass where
  | transient
  | permanent
  | missingContext
deriving DecidableEq, Repr

/-- The database label of a ticket status. -/
def TicketStatus.value : TicketStatus → String
  | .ready => "READY"
  | .running => "RUNNING"
  | .retry => "RETRY"
  | .done => "DONE"
  | .failed => "FAILED"
  | .cancelled => "CANCELLED"
  | .notApplicable => "NOT_APPLICABLE"

/-- The database label of a job status. -/
def JobStatus.value : JobStatus → String
  | .created => "CREATED"
  | .ready => "READY"
  | .running => "RUNNING"
  | .completed => "COMPLETED"
  | .partialFailed => "PARTIAL_FAILED"
  | .failed => "FAILED"
  | .cancelled => "CANCELLED"

/-- The database label of a result status. -/
def ResultStatus.value : ResultStatus → String
  | .passed => "PASSED"
  | .failed => "FAILED"
  | .notApplicable => "NOT_APPLICABLE"
  | .error => "ERROR"

/-- The database label of a check type. -/
def CheckType.value : CheckType → String
  | .deterministic => "DETERMINISTIC"
  | .llmJudge => "LLM_JUDGE"

/-- `CheckType(value)`, or nothing when it raises `ValueError`. -/
def CheckType.ofValue? (value : String) : Option CheckType :=
  [CheckType.deterministic, .llmJudge].find? fun checkType => checkType.value = value

theorem CheckType.ofValue?_value (checkType : CheckType) :
  CheckType.ofValue? checkType.value = some checkType
  := by cases checkType <;> decide

/-- `TICKET_TERMINAL_STATUSES`. -/
def TicketStatus.isTerminal (status : TicketStatus) : Bool :=
  status ∈ [.done, .failed, .cancelled, .notApplicable]

/-- `ALLOWED_TICKET_TRANSITIONS`. -/
def allowedTicketTransitions : TicketStatus → List TicketStatus
  | .ready => [.running, .cancelled]
  | .running => [.done, .retry, .failed, .cancelled, .notApplicable]
  | .retry => [.running, .cancelled, .failed]
  | .done => []
  | .failed => [.ready]
  | .cancelled => []
  | .notApplicable => []

/-- Every status a running ticket may move to is terminal or `retry`. -/
theorem mem_allowed_running {target : TicketStatus} :
  target ∈ allowedTicketTransitions .running ↔ target.isTerminal = true ∨ target = .retry
  := by cases target <;> simp [allowedTicketTransitions, TicketStatus.isTerminal]

end Evalorch
