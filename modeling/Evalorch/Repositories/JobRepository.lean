import Evalorch.Repositories.TicketRepository

/-!
# The job repository

The statements on `evaluation_jobs`, and `recomputeProgress`, which derives a job's status
and counters from its tickets.
-/

namespace Evalorch

open Transact

namespace JobRepository

/-- `JobRepository.insert`; the columns it leaves out keep their defaults. -/
def insert (job : EvaluationJob) (db : Db) : Except Exn (EvaluationJob × Db) :=
  let row := { job with
    completedTickets := 0
    failedTickets := 0
    cancelledTickets := 0
    notApplicableTickets := 0
    createdAt := db.now
    startedAt := none
    completedAt := none
    cancellationRequestedAt := none
    errorMessage := none }
  do
    let db' ← db.insertJob row
    .ok (row, db')

/-- `JobRepository.get_cancellation_state`. -/
def getCancellationState (jobId : Uuid) (db : Db) : Option (JobStatus × Bool) :=
  (db.job jobId).map fun j => (j.status, j.cancellationRequestedAt.isSome)

/-- `JobRepository.set_total_tickets`. -/
def setTotalTickets (jobId : Uuid) (total : ℕ) (status : JobStatus) (db : Db) : Db :=
  db.updateJobs (·.id = jobId) fun j => { j with totalTickets := total, status := status }

/-- The row `mark_running_if_pending` writes. -/
def markedRow (now : Instant) (j : EvaluationJob) : EvaluationJob :=
  { j with status := .running, startedAt := some (j.startedAt.getD now) }

/-- `JobRepository.mark_running_if_pending`. No transaction holds a job between its steps
here, so no job is skipped as locked. -/
def markRunningIfPending (jobIds : List Uuid) (db : Db) : ℕ × Db :=
  let selects (j : EvaluationJob) : Bool :=
    jobIds.contains j.id && (j.status = .created || j.status = .ready)
  (db.jobs.count selects, db.updateJobs selects (markedRow db.now))

/-- `JobRepository.request_cancellation`. -/
def requestCancellation (jobId : Uuid) (db : Db) : Db :=
  db.updateJobs (·.id = jobId) fun j =>
    { j with cancellationRequestedAt := some (j.cancellationRequestedAt.getD db.now) }

/-- `JobRepository.ticket_counts`, with zero for a status that does not occur. -/
def ticketCounts (jobId : Uuid) (db : Db) : TicketCounts :=
  TicketRepository.countsByStatus jobId db

@[simp]
theorem ticketCounts_updateJobs {jobId : Uuid} {db : Db} {selects : EvaluationJob → Bool}
    {set : EvaluationJob → EvaluationJob} {keeps : ∀ j, (set j).id = j.id} :
  ticketCounts jobId (db.updateJobs selects set keeps) = ticketCounts jobId db
  := rfl

/-- The status `recompute_progress` decides on: `current` is the status of the job. -/
def progressStatus (current : JobStatus) (cancellationRequested : Bool)
    (counts : TicketCounts) : JobStatus :=
  if counts.total = 0 then current
  else if counts.terminal < counts.total then
    if counts .running ≠ 0 ∨ counts.terminal ≠ 0 then .running else .ready
  else if counts .cancelled > 0
      ∧ (cancellationRequested = true ∨ counts .done + counts .failed = 0) then .cancelled
  else if counts .failed = 0 then .completed
  else if counts .done + counts .notApplicable > 0 then .partialFailed
  else .failed

/-- The row `recompute_progress` writes. -/
def progressRow (now : Instant) (counts : TicketCounts) (j : EvaluationJob) : EvaluationJob :=
  let status := progressStatus j.status j.cancellationRequestedAt.isSome counts
  let isTerminal := counts.total > 0 ∧ counts.terminal ≥ counts.total
  let started := status ≠ .ready ∧ status ≠ .created
  { j with
    status := status
    totalTickets := max j.totalTickets counts.total
    completedTickets := counts .done
    failedTickets := counts .failed
    cancelledTickets := counts .cancelled
    notApplicableTickets := counts .notApplicable
    startedAt := if started then some (j.startedAt.getD now) else j.startedAt
    completedAt := if isTerminal then some (j.completedAt.getD now) else none }

/-- `JobRepository.recompute_progress`. -/
def recomputeProgress (jobId : Uuid) (db : Db) : Option JobProgress × Db :=
  match db.job jobId with
  | none => (none, db)
  | some job =>
    let counts := ticketCounts jobId db
    let row := progressRow db.now counts job
    (some {
        jobId := jobId
        status := row.status
        totalTickets := row.totalTickets
        completedTickets := counts .done
        failedTickets := counts .failed
        cancelledTickets := counts .cancelled
        notApplicableTickets := counts .notApplicable
        runningTickets := counts .running
        pendingTickets := counts .ready + counts .retry
        countsByStatus := counts },
      db.updateJobs (·.id = jobId) (progressRow db.now counts))

/-- Recomputing progress rewrites the row of the job and nothing else. -/
theorem recomputeProgress_db (jobId : Uuid) (db : Db) :
  (recomputeProgress jobId db).2
    = db.updateJobs (·.id = jobId) (progressRow db.now (ticketCounts jobId db))
  := by
  unfold recomputeProgress
  cases hjob : db.job jobId with
  | some job => rfl
  | none =>
    symm
    apply Db.updateJobs_of_forall_neg
    intro j hj
    simpa using Table.find_eq_none.mp hjob j hj

end JobRepository

end Evalorch
