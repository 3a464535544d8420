import Evalorch.Repositories.JobRepository

/-!
# Creating, cancelling and retrying jobs

`storeJob` is the writing half of `create_job`: it inserts a job with the tickets prepared
for it. `cancelJob` and `retryFailedTickets` are the two operator requests on a job.
-/

namespace Evalorch

/-- What `create_job` has prepared for one ticket. -/
structure PreparedTicket where
  id : Uuid
  payloadId : Uuid
  sourcePayloadRef : String
  sourcePayloadId : Option String
  metricRecordId : Uuid
  metricId : String
  metricVersionNumber : ℤ
  agentId : String
  metricSnapshotJson : Dict
  checkId : String
  checkType : CheckType
  evaluator : String
  priority : ℤ
  maxAttempts : ℤ

/-- What `create_job` has prepared for a job. -/
structure PreparedJob where
  id : Uuid
  name : Option String
  datasetId : String
  configSnapshotJson : Dict
  payloadCount : ℕ
  tickets : List PreparedTicket
  idempotencyKey : Option String
  idempotencyRequestHash : Option String

/-- The ticket `create_job` builds. -/
def PreparedTicket.ticket (jobId : Uuid) (datasetId : String) (now : Instant)
    (p : PreparedTicket) : EvaluationTicket where
  id := p.id
  jobId := jobId
  payloadId := p.payloadId
  sourceDatasetId := datasetId
  sourcePayloadRef := p.sourcePayloadRef
  sourcePayloadId := p.sourcePayloadId
  metricRecordId := p.metricRecordId
  metricId := p.metricId
  metricVersionNumber := p.metricVersionNumber
  agentId := p.agentId
  metricSnapshotJson := p.metricSnapshotJson
  checkId := p.checkId
  checkType := p.checkType
  evaluator := p.evaluator
  status := .ready
  priority := p.priority
  attemptCount := 0
  maxAttempts := p.maxAttempts
  availableAt := now
  workerId := none
  claimedAt := none
  startedAt := none
  completedAt := none
  leaseExpiresAt := none
  resultId := none
  inputSnapshotJson := none
  errorCode := none
  errorMessage := none
  createdAt := now

/-- The job `create_job` builds. -/
def PreparedJob.job (now : Instant) (p : PreparedJob) : EvaluationJob where
  id := p.id
  name := p.name
  datasetId := some p.datasetId
  configSnapshotJson := p.configSnapshotJson
  status := .created
  payloadCount := p.payloadCount
  totalTickets := p.tickets.length
  completedTickets := 0
  failedTickets := 0
  cancelledTickets := 0
  notApplicableTickets := 0
  createdAt := now
  startedAt := none
  completedAt := none
  cancellationRequestedAt := none
  errorMessage := none
  idempotencyKey := p.idempotencyKey
  idempotencyRequestHash := p.idempotencyRequestHash

/-- The part of `create_job` that writes: the job, its tickets, then its total. -/
def storeJob (p : PreparedJob) (db : Db) : Except Exn (EvaluationJob × Db) :=
  if p.tickets.isEmpty then
    .error (.jobCreation "no evaluation tickets could be created from the dataset" 400)
  else do
    let (job, db₁) ← JobRepository.insert (p.job db.now) db
    let (created, db₂) ← TicketRepository.bulkInsert
      (p.tickets.map (·.ticket job.id p.datasetId db.now)) db₁
    let db₃ := JobRepository.setTotalTickets job.id created .ready db₂
    match db₃.job job.id with
    | none => .error (.other "AssertionError" "")
    | some job => .ok (job, db₃)

/-- A job is stored at the time it is. -/
theorem now_storeJob {p : PreparedJob} {db db' : Db} {job : EvaluationJob}
    (h : storeJob p db = .ok (job, db')) :
  db'.now = db.now
  := by
  unfold storeJob at h
  split at h
  case isTrue => cases h
  case isFalse hne =>
    obtain ⟨⟨j, db₁⟩, hinsert, h⟩ := Transact.bind_eq_ok.mp h
    obtain ⟨db₁', hjob, hrow⟩ := Transact.bind_eq_ok.mp hinsert
    cases hrow
    obtain ⟨⟨created, db₂⟩, hbulk, h⟩ := Transact.bind_eq_ok.mp h
    unfold TicketRepository.bulkInsert at hbulk
    rw [if_neg (by simpa using hne)] at hbulk
    obtain ⟨db₂', hinserted, hcount⟩ := Transact.bind_eq_ok.mp hbulk
    cases hcount
    simp only at h
    split at h
    case h_1 => cases h
    case h_2 =>
      cases h
      calc db₂.now = db₁.now := (Db.insertTickets_ok hinserted).2.1
        _ = db.now := (Db.insertJob_ok hjob).2.1

/-- `CancellationResult`. -/
structure CancellationResult where
  job : EvaluationJob
  cancelledTickets : ℕ
  runningTickets : ℕ
  progress : Option JobProgress

/-- The error of a request that names no job. -/
def jobNotFound (jobId : Uuid) : Exn :=
  .jobCreation s!"job {jobId} not found" 404

/-- `cancel_job`. -/
def cancelJob (jobId : Uuid) (db : Db) : Except Exn (CancellationResult × Db) :=
  match db.job jobId with
  | none => .error (jobNotFound jobId)
  | some job =>
    if job.status = .completed ∨ job.status = .failed ∨ job.status = .partialFailed then
      .error (.jobCreation s!"cannot cancel a job in {job.status.value} state" 409)
    else
      let db₁ := JobRepository.requestCancellation jobId db
      let (cancelled, db₂) := TicketRepository.cancelUnclaimed jobId db₁
      let (progress, db₃) := JobRepository.recomputeProgress jobId db₂
      match db₃.job jobId with
      | none => .error (.other "AssertionError" "")
      | some updated =>
        .ok ({
          job := updated
          cancelledTickets := cancelled
          runningTickets := (progress.map (·.runningTickets)).getD 0
          progress := progress }, db₃)

/-- `retry_failed_tickets`. -/
def retryFailedTickets (jobId : Uuid) (db : Db) : Except Exn ((EvaluationJob × ℕ) × Db) :=
  match db.job jobId with
  | none => .error (jobNotFound jobId)
  | some job =>
    if job.cancellationRequestedAt.isSome then
      .error (.jobCreation "cannot retry tickets on a cancelled job" 409)
    else
      let (resetIds, db₁) := TicketRepository.resetFailed jobId db
      if resetIds.isEmpty then .error (.jobCreation "no failed tickets to retry" 409)
      else
        let (_, db₂) := JobRepository.recomputeProgress jobId db₁
        match db₂.job jobId with
        | none => .error (.other "AssertionError" "")
        | some updated => .ok ((updated, resetIds.length), db₂)

end Evalorch
