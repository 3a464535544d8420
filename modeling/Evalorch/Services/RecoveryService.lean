import Evalorch.Core.Config
import Evalorch.Repositories.JobRepository

/-!
# Recovery of abandoned work

`recoverAbandonedTickets` reclaims expired leases and settles what is left running on
cancelled jobs, then recomputes the affected jobs; `reconcileActiveJobs` recomputes every job
with open tickets.
-/

namespace Evalorch

/-- `RecoveryReport`. -/
structure RecoveryReport where
  recoveredToRetry : ℕ
  recoveredToFailed : ℕ
  cancelledRunning : ℕ
  jobsUpdated : List Uuid

/-- `RecoveryReport.total`. -/
def RecoveryReport.total (report : RecoveryReport) : ℕ :=
  report.recoveredToRetry + report.recoveredToFailed + report.cancelledRunning

/-- Recompute the progress of several jobs, one after another. -/
def recomputeJobs (jobIds : List Uuid) (db : Db) : Db :=
  jobIds.foldl (fun db jobId => (JobRepository.recomputeProgress jobId db).2) db

/-- `recover_abandoned_tickets`. `locked` and `locked'` are the rows its two statements skip;
`jitter` is what `random()` gives a row. -/
def recoverAbandonedTickets (settings : Settings) (locked locked' : Uuid → Bool)
    (jitter : Uuid → Duration) (limit : Option ℕ) (db : Db) : RecoveryReport × Db :=
  let batch := limit.getD settings.runnerRecoveryBatchLimit
  let (recovered, db₁) := TicketRepository.recoverExpiredLeases locked jitter batch db
  let (cancelled, db₂) := TicketRepository.cancelRunningForCancelledJobs locked' batch db₁
  let tickets := recovered ++ cancelled
  let affected := (tickets.map (·.jobId)).dedup
  ({
    recoveredToRetry := tickets.countP fun t => t.status ≠ .cancelled && t.status ≠ .failed
    recoveredToFailed := tickets.countP fun t => t.status = .failed
    cancelledRunning := tickets.countP fun t => t.status = .cancelled
    jobsUpdated := affected },
    recomputeJobs affected db₂)

/-- `reconcile_active_jobs`. -/
def reconcileActiveJobs (db : Db) : ℕ × Db :=
  let jobIds := TicketRepository.jobsWithActiveTickets db
  (jobIds.length, recomputeJobs jobIds db)

end Evalorch
