import Evalorch.Interleaving.Rows
import Evalorch.Services.EvaluationService
import Evalorch.Services.JobService
import Evalorch.Services.RecoveryService

/-!
# The transactions, statement by statement

The transactions of the repositories and services as texts of statements, for a database at
`READ COMMITTED`. A `SELECT` looks at what is committed when it starts. An `UPDATE` and a
`SELECT … FOR UPDATE` find their rows in such a look, then lock them one after another, and test
each once more as it is after it was locked; with `SKIP LOCKED` a row that another transaction
has locked is passed over. Rows that are joined and not locked stay as the look has them.
`now()` is the time at which the transaction began.

What a database may choose, such as the order in which a query without `ORDER BY` returns its
rows, is a parameter.
-/

namespace Evalorch

open Transact TicketRepository JobRepository

/-- An order in which the database may visit the rows of a query. -/
structure Scan (α : Type) where
  order : List α → List α
  perm : ∀ rows, (order rows).Perm rows

/-- The rows in the order in which they are stored. -/
def Scan.stored {α : Type} : Scan α where
  order := id
  perm _ := .refl _

/-! ### Statements on jobs -/

/-- `JobRepository.get_for_update`. -/
def lockJob (jobId : Uuid) (next : Option EvaluationJob → Text) : Text :=
  .read fun db =>
    match db.job jobId with
    | none => next none
    | some _ => .lock (.job jobId) .forUpdate <| .read fun db => next (db.job jobId)

/-- The row that `recompute_progress` writes. -/
def progressPatch (now : Instant) (counts : TicketCounts) : JobPatch where
  set := progressRow now counts

/-- `JobRepository.recompute_progress` with the job it has read. -/
def recomputeRead (now : Instant) (jobId : Uuid) (next : Text) : Option EvaluationJob → Text
  | none => next
  | some _ => .read fun db =>
      writeJob jobId (progressPatch now (ticketCounts jobId db)) next

/-- `JobRepository.recompute_progress`. -/
def recompute (now : Instant) (jobId : Uuid) (next : Text) : Text :=
  lockJob jobId (recomputeRead now jobId next)

/-- `JobRepository.recompute_progress` with `lock=False`. -/
def recomputeUnlocked (now : Instant) (jobId : Uuid) (next : Text) : Text :=
  .read fun db => recomputeRead now jobId next (db.job jobId)

/-- `recompute_progress` for several jobs, one after another. -/
def recomputeEach (now : Instant) (jobIds : List Uuid) (next : Text) : Text :=
  jobIds.foldr (recompute now) next

/-- The row that `request_cancellation` writes. -/
def flagPatch (now : Instant) : JobPatch where
  set j := { j with cancellationRequestedAt := some (j.cancellationRequestedAt.getD now) }

/-- The job waits to be marked. -/
def markable (j : EvaluationJob) : Bool :=
  j.status = .created || j.status = .ready

/-- The `SELECT … FOR UPDATE SKIP LOCKED` of `mark_running_if_pending`. -/
def lockMarkable (next : List Uuid → Text) : List Uuid → List Uuid → Text
  | [], locked => next locked
  | jobId :: jobIds, locked => .tryLock (.job jobId) .forUpdate fun got =>
      if got then .read fun db =>
        lockMarkable next jobIds
          (if (db.job jobId).any markable then jobId :: locked else locked)
      else lockMarkable next jobIds locked

/-- `JobRepository.mark_running_if_pending`. -/
def markRunning (now : Instant) (scan : Scan Uuid) (jobIds : List Uuid) (next : Text) : Text :=
  .read fun db =>
    lockMarkable (fun locked => locked.foldr (writeJob · ⟨markedRow now, fun _ => rfl⟩) next)
      (scan.order (jobIds.filter fun jobId => (db.job jobId).any markable)) []

/-! ### Statements on tickets -/

/-- An `UPDATE … WHERE` on the tickets `ids` that a look has found: each is locked, tested again
and written. `next` gets the tickets that were written. -/
def updateEach (selects : EvaluationTicket → Bool) (p : TicketPatch) (next : List Uuid → Text) :
    List Uuid → List Uuid → Text
  | [], updated => next updated
  | id :: ids, updated => .lock (.ticket id) .forNoKeyUpdate <| .read fun db =>
      if (db.ticket id).any selects then
        writeTicket id p (updateEach selects p next ids (id :: updated))
      else updateEach selects p next ids updated

/-- An `UPDATE … WHERE` on tickets. -/
def updateWhere (scan : Scan EvaluationTicket) (selects : EvaluationTicket → Bool)
    (p : TicketPatch) (next : List Uuid → Text) : Text :=
  .read fun db =>
    updateEach selects p next
      ((scan.order (db.tickets.rows.filter selects)).map EvaluationTicket.id) []

/-- `UPDATE … WHERE id IN` on tickets that are locked. -/
def writeEach (patch : EvaluationTicket → TicketPatch) (ts : List EvaluationTicket)
    (next : Text) : Text :=
  ts.foldr (fun t => writeTicket t.id (patch t)) next

/-- The `SELECT … FOR UPDATE OF t SKIP LOCKED LIMIT` of `claim` on the tickets that a look has
found, tested again after each is locked. -/
def lockClaimable (selects : EvaluationTicket → Bool) (next : List EvaluationTicket → Text) :
    ℕ → List EvaluationTicket → List EvaluationTicket → Text
  | 0, _, taken => next taken
  | _ + 1, [], taken => next taken
  | limit + 1, t :: ts, taken => .tryLock (.ticket t.id) .forUpdate fun got =>
      if got then .read fun db =>
        if (db.ticket t.id).any selects then lockClaimable selects next limit ts (t :: taken)
        else lockClaimable selects next (limit + 1) ts taken
      else lockClaimable selects next (limit + 1) ts taken

/-- `SELECT … FOR UPDATE OF j2, t2 SKIP LOCKED LIMIT` on the tickets that a look has found: the
job first, then the ticket. `selects` tests a ticket again after both are locked. -/
def lockAbandoned (selects : Db → EvaluationTicket → Bool) (next : List EvaluationTicket → Text) :
    ℕ → List EvaluationTicket → List EvaluationTicket → Text
  | 0, _, taken => next taken
  | _ + 1, [], taken => next taken
  | limit + 1, t :: ts, taken => .tryLock (.job t.jobId) .forUpdate fun gotJob =>
      if gotJob then .tryLock (.ticket t.id) .forUpdate fun got =>
        if got then .read fun db =>
          if (db.ticket t.id).any (selects db) then lockAbandoned selects next limit ts (t :: taken)
          else lockAbandoned selects next (limit + 1) ts taken
        else lockAbandoned selects next (limit + 1) ts taken
      else lockAbandoned selects next (limit + 1) ts taken

/-! ### Claiming -/

/-- The row `claim` writes. -/
def claimedPatch (now : Instant) (worker : Worker) (leaseSeconds : ℤ) : TicketPatch where
  set := claimedRow now worker.id leaseSeconds

/-- What a claim is asked for, and what the database chooses in it. -/
structure ClaimRequest where
  worker : Worker
  limit : ℕ
  leaseSeconds : ℤ
  jobId : Option Uuid
  scan : Scan EvaluationTicket
  jobScan : Scan Uuid

/-- `claim_tickets` after the tickets are locked. -/
def takeTickets (now : Instant) (r : ClaimRequest) (taken : List EvaluationTicket) : Text :=
  if taken.isEmpty then .commit
  else .read fun db =>
    if taken.all fun t =>
        (db.ticket t.id).all fun t =>
          Db.ticketChecks (claimedRow now r.worker.id r.leaseSeconds t) then
      writeEach (fun _ => claimedPatch now r.worker r.leaseSeconds) taken <|
        markRunning now r.jobScan (taken.map EvaluationTicket.jobId).dedup .commit
    else .rollback

/-- The tickets that a look has found claimable, in the order in which they are claimed. -/
def claimables (now : Instant) (r : ClaimRequest) (db : Db) : List EvaluationTicket :=
  (r.scan.order (db.tickets.rows.filter (claimable (db.tick now) r.jobId))).insertionSort
    fun t t' => claimOrder t t'

/-- `claim_tickets`. -/
def claimText (now : Instant) (r : ClaimRequest) : Text :=
  .read fun db =>
    lockClaimable (claimable (db.tick now) r.jobId) (takeTickets now r) r.limit
      (claimables now r db) []

/-! ### Settling -/

/-- The row `transition` writes. -/
def transitionPatch (now : Instant) (target : TicketStatus) (s : Settlement) : TicketPatch where
  set := transitionRow now target s
  keepsId := transitionRow_id now target s
  keepsJob := transitionRow_jobId now target s

/-- `settle_ticket`, for the job it is given. -/
def settleText (now : Instant) (ticketId jobId : Uuid) (target : TicketStatus) (s : Settlement)
    (workerId : String) : Text :=
  if workerId = "" then .rollback
  else lockJob jobId fun _ => .read fun db =>
    match db.ticket ticketId with
    | none => .rollback
    | some _ => .lock (.ticket ticketId) .forUpdate <| .read fun db =>
      match transition ticketId target s (some workerId) (db.tick now) with
      | .error _ => .rollback
      | .ok _ =>
        writeTicket ticketId (transitionPatch now target s) (recomputeUnlocked now jobId .commit)

/-- The settlement of an execution: the copy of the ticket that it holds, and the worker that it
runs for. -/
structure SettleRequest where
  ticket : EvaluationTicket
  target : TicketStatus
  settlement : Settlement
  workerId : String

/-- The transactions of `execute_ticket` that settle a ticket without a result. -/
def settleOnlyText (now : Instant) (r : SettleRequest) : Text :=
  .read fun db =>
    match db.ticket r.ticket.id with
    | none => .commit
    | some _ =>
        settleText now r.ticket.id r.ticket.jobId r.target r.settlement r.workerId

/-- What an execution persists: its copy of the ticket, the verdict, the snapshot of the input, the
worker that it runs for, and the identifier that it draws for a new result. -/
structure PersistRequest where
  id : Uuid
  ticket : EvaluationTicket
  verdict : Verdict
  snapshot : Option Dict
  workerId : String

/-- The result that is written. -/
def PersistRequest.result (now : Instant) (r : PersistRequest) : EvaluationResult :=
  resultRow r.id r.ticket r.verdict r.snapshot now

/-- The settlement with the verdict, once the identifier of its result is known. -/
def PersistRequest.settle (r : PersistRequest) (resultId : Option Uuid) : SettleRequest where
  ticket := r.ticket
  target := r.verdict.target
  settlement := {
    resultId := resultId
    errorCode := r.verdict.errorCode
    errorMessage := r.verdict.errorMessage
    delaySeconds := r.verdict.delaySeconds
    inputSnapshot := r.snapshot }
  workerId := r.workerId

/-- The locks of `ResultRepository.upsert`: the row of the result, and when the row is new those
of its foreign keys. -/
def lockResult (ticketId jobId : Uuid) (next : Text) : Text :=
  .lock (.result ticketId) .forNoKeyUpdate <| .read fun db =>
    match db.resultOf ticketId with
    | some _ => next
    | none => .lock (.job jobId) .forKeyShare <| .lock (.ticket ticketId) .forKeyShare next

/-- `ResultRepository.upsert`: `next` gets the identifier that it returns. -/
def upsertText (now : Instant) (jobId : Uuid) (result : EvaluationResult) (next : Uuid → Text) :
    Text :=
  lockResult result.ticketId jobId <| .read fun db =>
    match ResultRepository.upsert result (db.tick now) with
    | .error _ => .rollback
    | .ok (row, _) => writeResult now result (next row.id)

/-- `_persist_once`. -/
def persistText (now : Instant) (r : PersistRequest) : Text :=
  let settle (s : SettleRequest) : Text :=
    settleText now s.ticket.id s.ticket.jobId s.target s.settlement s.workerId
  .read fun db =>
    match db.ticket r.ticket.id with
    | none => .commit
    | some _ => lockJob r.ticket.jobId fun _ => .read fun db =>
        if (getCancellationState r.ticket.jobId db).any Prod.snd
            && r.verdict.target ≠ .cancelled then
          settleText now r.ticket.id r.ticket.jobId .cancelled
            (withError "CANCELLED" "job cancelled while ticket was running") r.workerId
        else if recordsResult r.verdict.target then
          upsertText now r.ticket.jobId (r.result now) fun resultId =>
            settle (r.settle (some resultId))
        else settle (r.settle none)

/-- The row `extend_lease` writes. -/
def extendedPatch (now : Instant) (leaseSeconds : ℤ) : TicketPatch where
  set := extendedRow now leaseSeconds

/-- `heartbeat_ticket`. -/
def heartbeatText (now : Instant) (ticketId : Uuid) (worker : Worker) (leaseSeconds : ℤ) : Text :=
  .read fun db =>
    if (db.ticket ticketId).any (owned worker.id) then
      .lock (.ticket ticketId) .forNoKeyUpdate <| .read fun db =>
        if (db.ticket ticketId).any (owned worker.id) then
          writeTicket ticketId (extendedPatch now leaseSeconds) .commit
        else .commit
    else .commit

/-! ### Cancelling and retrying jobs -/

/-- The row a ticket is cancelled to outside a settlement. -/
def cancelledPatch (now : Instant) (message : String) : TicketPatch where
  set := cancelledRow now message

/-- The row `reset_failed` writes. -/
def resetPatch (now : Instant) : TicketPatch where
  set := resetRow now

/-- `cancel_job`. -/
def cancelText (now : Instant) (jobId : Uuid) (scan : Scan EvaluationTicket) : Text :=
  lockJob jobId fun
    | none => .rollback
    | some job =>
      if job.status = .completed ∨ job.status = .failed ∨ job.status = .partialFailed then
        .rollback
      else
        writeJob jobId (flagPatch now) <|
          updateWhere scan (unclaimedOf jobId) (cancelledPatch now "job cancellation requested")
            fun _ => recompute now jobId .commit

/-- `retry_failed_tickets`. -/
def retryText (now : Instant) (jobId : Uuid) (scan : Scan EvaluationTicket) : Text :=
  lockJob jobId fun
    | none => .rollback
    | some job =>
      if job.cancellationRequestedAt.isSome then .rollback
      else updateWhere scan (failedOf jobId) (resetPatch now) fun
        | [] => .rollback
        | _ :: _ => recompute now jobId .commit

/-! ### Recovering -/

/-- The row `recover_expired_leases` writes, with the flag of the job as the statement has it. -/
def recoveredPatch (now : Instant) (cancelled : Bool) (delay : Duration) : TicketPatch where
  set := recoveredRow now cancelled delay

/-- What the database chooses in a recovery sweep, and its limit. -/
structure SweepRequest where
  limit : ℕ
  jitter : Uuid → Duration
  scan : Scan EvaluationTicket
  scan' : Scan EvaluationTicket
  jobScan : Scan Uuid

/-- The rows a look has found abandoned, by their leases. -/
def abandoned (scan : Scan EvaluationTicket) (selects : EvaluationTicket → Bool) (db : Db) :
    List EvaluationTicket :=
  (scan.order (db.tickets.rows.filter selects)).insertionSort fun t t' => leaseOrder t t'

/-- `recover_abandoned_tickets` from its second statement on. -/
def sweepCancelled (now : Instant) (r : SweepRequest) (recovered : List EvaluationTicket) : Text :=
  .read fun db =>
    lockAbandoned (fun db t => expired now t && jobCancelled db t)
      (fun swept =>
        writeEach (fun _ => cancelledPatch now "job cancelled while ticket was running") swept <|
        recomputeEach now
          (r.jobScan.order ((recovered ++ swept).map EvaluationTicket.jobId).dedup) .commit)
      r.limit (abandoned r.scan' (fun t => expired now t && jobCancelled db t) db) []

/-- `recover_abandoned_tickets`. The statement that recovers reads the flags of the jobs in the
look that it starts with. -/
def recoverText (now : Instant) (r : SweepRequest) : Text :=
  .read fun db =>
    lockAbandoned (fun _ t => expired now t)
      (fun recovered =>
        writeEach (fun t => recoveredPatch now (jobCancelled db t) (r.jitter t.id)) recovered <|
        sweepCancelled now r recovered)
      r.limit (abandoned r.scan (expired now) db) []

/-- The transaction of `run_forever` before its loop: `reconcile_active_jobs`, then
`recover_abandoned_tickets`. -/
def startupText (now : Instant) (scan : Scan Uuid) (r : SweepRequest) : Text :=
  .read fun db =>
    recomputeEach now (scan.order (jobsWithActiveTickets db)) (recoverText now r)

/-! ### Operations -/

/-- A transaction that may run at the same time as others. -/
inductive Operation where
  | persist (now : Instant) (r : PersistRequest)
  | settle (now : Instant) (r : SettleRequest)
  | cancelJob (now : Instant) (jobId : Uuid) (scan : Scan EvaluationTicket)
  | retryFailed (now : Instant) (jobId : Uuid) (scan : Scan EvaluationTicket)
  | claim (now : Instant) (r : ClaimRequest)
  | heartbeat (now : Instant) (ticketId : Uuid) (worker : Worker) (leaseSeconds : ℤ)
  | recover (now : Instant) (r : SweepRequest)
  | startup (now : Instant) (scan : Scan Uuid) (r : SweepRequest)

/-- The text of a transaction. -/
def Operation.text : Operation → Text
  | .persist now r => persistText now r
  | .settle now r => settleOnlyText now r
  | .cancelJob now jobId scan => cancelText now jobId scan
  | .retryFailed now jobId scan => retryText now jobId scan
  | .claim now r => claimText now r
  | .heartbeat now ticketId worker leaseSeconds => heartbeatText now ticketId worker leaseSeconds
  | .recover now r => recoverText now r
  | .startup now scan r => startupText now scan r

/-- The database, and the transactions under way on it. -/
abbrev Interleaved : Type := Concurrent Db Row LockMode Operation

/-- The state after a run of transactions, from a database on. -/
def interleaved (db : Db) (turns : List (Turn Operation)) : Interleaved :=
  run (Concurrent.step rowLocks Operation.text) (Concurrent.initial db) turns

end Evalorch
