import Evalorch.Models.Json

/-!
# Rows

The rows of the three tables, column by column, and the job counters derived from tickets.
Times are instants of the database clock and durations are lengths of time on it, both in
microseconds.
-/

namespace Evalorch

/-- A moment of the database clock, in microseconds. -/
abbrev Instant : Type := ℤ

/-- A length of time, in microseconds. -/
abbrev Duration : Type := ℤ

/-- `INTERVAL '1 second'`. -/
def second : Duration := 1000000

/-- A row of `evaluation_jobs`. -/
structure EvaluationJob where
  id : Uuid
  name : Option String
  datasetId : Option String
  configSnapshotJson : Dict
  status : JobStatus
  payloadCount : ℕ
  totalTickets : ℕ
  completedTickets : ℕ
  failedTickets : ℕ
  cancelledTickets : ℕ
  notApplicableTickets : ℕ
  createdAt : Instant
  startedAt : Option Instant
  completedAt : Option Instant
  cancellationRequestedAt : Option Instant
  errorMessage : Option String
  idempotencyKey : Option String
  idempotencyRequestHash : Option String

/-- A row of `evaluation_tickets`. -/
structure EvaluationTicket where
  id : Uuid
  jobId : Uuid
  payloadId : Uuid
  sourceDatasetId : String
  sourcePayloadRef : String
  sourcePayloadId : Option String
  metricRecordId : Uuid
  metricId : String
  metricVersionNumber : ℤ
  agentId : String
  metricSnapshotJson : Dict
  checkId : String
  checkType : CheckType
  evaluator : String
  status : TicketStatus
  priority : ℤ
  attemptCount : ℤ
  maxAttempts : ℤ
  availableAt : Instant
  workerId : Option String
  claimedAt : Option Instant
  startedAt : Option Instant
  completedAt : Option Instant
  leaseExpiresAt : Option Instant
  resultId : Option Uuid
  inputSnapshotJson : Option Dict
  errorCode : Option String
  errorMessage : Option String
  createdAt : Instant

/-- A row of `evaluation_results`. -/
structure EvaluationResult where
  id : Uuid
  jobId : Uuid
  ticketId : Uuid
  payloadId : Uuid
  sourcePayloadRef : String
  metricRecordId : Uuid
  metricId : String
  metricVersionNumber : ℤ
  checkId : String
  checkType : CheckType
  evaluatorType : String
  evaluatorVersion : String
  status : ResultStatus
  passed : Option Bool
  score : Option Float64
  explanation : String
  evidenceJson : Option Dict
  inputSnapshotJson : Option Dict
  outputJson : Dict
  errorCode : Option String
  errorMessage : Option String
  executionTimeMs : Float64
  attemptCount : ℤ
  createdAt : Instant
  completedAt : Option Instant

/-- The number of tickets in each status. -/
abbrev TicketCounts : Type := TicketStatus → ℕ

namespace TicketCounts

/-- `sum(counts.values())`. -/
def total (counts : TicketCounts) : ℕ :=
  counts .ready + counts .running + counts .retry + counts .done + counts .failed
    + counts .cancelled + counts .notApplicable

/-- The tickets in a terminal status. -/
def terminal (counts : TicketCounts) : ℕ :=
  counts .done + counts .failed + counts .cancelled + counts .notApplicable

theorem terminal_le_total (counts : TicketCounts) :
  counts.terminal ≤ counts.total
  := by
  unfold terminal total
  omega

end TicketCounts

/-- Job counters derived from ticket rows. -/
structure JobProgress where
  jobId : Uuid
  status : JobStatus
  totalTickets : ℕ
  completedTickets : ℕ
  failedTickets : ℕ
  cancelledTickets : ℕ
  notApplicableTickets : ℕ
  runningTickets : ℕ
  pendingTickets : ℕ
  countsByStatus : TicketCounts

/-- A worker: an identifier that is not empty, as every runner has one. -/
structure Worker where
  id : String
  nonempty : id ≠ ""
deriving DecidableEq

end Evalorch
