import Evalorch.Database
import Evalorch.Query.Paging
import Evalorch.Transact.Program
import Mathlib.Data.List.Dedup
import Mathlib.Data.List.Sort
import Mathlib.Data.Prod.Lex

/-!
# The ticket repository

The statements on `evaluation_tickets`. Every `UPDATE` is a selection of rows together with
the row it writes in place of a selected one (`claimedRow`, `transitionRow`, `resetRow`, …);
a function that returns a state returns the one its statements lead to. The rows that
`FOR UPDATE SKIP LOCKED` finds locked by others are given by `locked`, which also decides
between rows that the `ORDER BY` does not tell apart.
-/

namespace Evalorch

open Transact

/-- The optional arguments of `transition` and `settle_ticket`. -/
structure Settlement where
  resultId : Option Uuid
  errorCode : Option String
  errorMessage : Option String
  delaySeconds : Option ℚ
  inputSnapshot : Option Dict

/-- A settlement whose arguments are all left out. -/
def Settlement.none : Settlement where
  resultId := .none
  errorCode := .none
  errorMessage := .none
  delaySeconds := .none
  inputSnapshot := .none

/-- `seconds * INTERVAL '1 second'`, to the nearest microsecond. -/
def interval (seconds : ℚ) : Duration :=
  roundHalfEven (seconds * second)

namespace TicketRepository

/-- The identifiers of the first `limit` unlocked rows that a query selects. -/
def selectForUpdate (db : Db) (selects : EvaluationTicket → Bool)
    (order : EvaluationTicket → EvaluationTicket → Bool) (locked : Uuid → Bool) (limit : ℕ) :
    List Uuid :=
  (((db.tickets.rows.filter fun t => selects t && !locked t.id).insertionSort
    fun t t' => order t t').take limit).map EvaluationTicket.id

/-- A selected row meets the condition of the query. -/
theorem selects_of_mem {db : Db} {selects : EvaluationTicket → Bool}
    {order : EvaluationTicket → EvaluationTicket → Bool} {locked : Uuid → Bool} {limit : ℕ}
    {t : EvaluationTicket} (ht : t ∈ db.tickets.rows)
    (h : t.id ∈ selectForUpdate db selects order locked limit) :
  selects t = true
  := by
  obtain ⟨t', ht', hid⟩ := List.mem_map.mp h
  have hsel := (List.mem_insertionSort _).mp (List.mem_of_mem_take ht')
  obtain ⟨hrow, hcond⟩ := List.mem_filter.mp hsel
  rw [Table.eq_of_key hrow ht hid] at hcond
  simp only [Bool.and_eq_true] at hcond
  apply hcond.1

/-- The columns `bulk_insert` writes; the others keep their defaults. -/
def insertedRow (now : Instant) (t : EvaluationTicket) : EvaluationTicket :=
  { t with
    availableAt := now
    workerId := none
    claimedAt := none
    startedAt := none
    completedAt := none
    leaseExpiresAt := none
    resultId := none
    inputSnapshotJson := none
    errorCode := none
    errorMessage := none
    createdAt := now }

/-- `TicketRepository.bulk_insert`. -/
def bulkInsert (tickets : List EvaluationTicket) (db : Db) : Except Exn (ℕ × Db) :=
  if tickets.isEmpty then .ok (0, db)
  else do
    let db' ← db.insertTickets (tickets.map (insertedRow db.now))
    .ok (tickets.length, db')

/-! ### Claiming -/

/-- The job lets its tickets be claimed. -/
def claimableJob (j : EvaluationJob) : Bool :=
  j.cancellationRequestedAt.isNone
    && (j.status = .created || j.status = .ready || j.status = .running)

/-- The condition `claim` selects tickets by. -/
def claimable (db : Db) (jobId : Option Uuid) (t : EvaluationTicket) : Bool :=
  (t.status = .ready || t.status = .retry)
    && t.availableAt ≤ db.now
    && (db.job t.jobId).any claimableJob
    && jobId.all (t.jobId = ·)

/-- `ORDER BY t.priority DESC, t.created_at`. -/
def claimOrder (t t' : EvaluationTicket) : Bool :=
  t'.priority < t.priority || (t.priority = t'.priority && t.createdAt ≤ t'.createdAt)

/-- The row `claim` writes. -/
def claimedRow (now : Instant) (workerId : String) (leaseSeconds : ℤ) (t : EvaluationTicket) :
    EvaluationTicket :=
  { t with
    status := .running
    workerId := some workerId
    claimedAt := some now
    startedAt := some now
    leaseExpiresAt := some (now + leaseSeconds * second)
    attemptCount := t.attemptCount + 1
    errorCode := none
    errorMessage := none }

/-- The `UPDATE` of `claim`, on the tickets it selected. -/
def takenBy (ids : List Uuid) (workerId : String) (leaseSeconds : ℤ) (db : Db) : Db :=
  db.updateTickets (fun t => ids.contains t.id) (claimedRow db.now workerId leaseSeconds)

/-- `TicketRepository.claim`. -/
def claim (locked : Uuid → Bool) (limit : ℕ) (workerId : String) (leaseSeconds : ℤ)
    (jobId : Option Uuid) (db : Db) : Except Exn (List EvaluationTicket × Db) :=
  let ids := selectForUpdate db (claimable db jobId) claimOrder locked limit
  if ids.isEmpty then .ok ([], db)
  else
    let db' := takenBy ids workerId leaseSeconds db
    let updated := db'.tickets.rows.filter fun t => ids.contains t.id
    if updated.all Db.ticketChecks then .ok (updated, db')
    else .error (.integrity "ck_tickets_attempts")

/-- A claim takes tickets that are claimable, and returns the rows it wrote. -/
theorem claim_ok {locked : Uuid → Bool} {limit : ℕ} {workerId : String} {leaseSeconds : ℤ}
    {jobId : Option Uuid} {db db' : Db} {tickets : List EvaluationTicket}
    (h : claim locked limit workerId leaseSeconds jobId db = .ok (tickets, db')) :
  ∃ ids : List Uuid,
    (∀ t ∈ db.tickets.rows, t.id ∈ ids → claimable db jobId t = true)
      ∧ db' = takenBy ids workerId leaseSeconds db
      ∧ tickets = db'.tickets.rows.filter (fun t => ids.contains t.id)
      ∧ tickets.all Db.ticketChecks = true
  := by
  unfold claim at h
  set ids := selectForUpdate db (claimable db jobId) claimOrder locked limit with hids
  use ids
  constructor
  · intro t ht hmem
    apply selects_of_mem ht hmem
  · simp only at h
    split at h
    case isTrue hnil =>
      rw [List.isEmpty_iff] at hnil
      cases h
      rw [takenBy, Db.updateTickets_of_forall_neg (by simp [hnil])]
      simp [hnil]
    case isFalse hne =>
      split at h
      case isTrue hchecks =>
        cases h
        exact ⟨rfl, rfl, hchecks⟩
      case isFalse => cases h

/-! ### Settling -/

/-- The row is `RUNNING` under the worker. -/
def owned (workerId : String) (t : EvaluationTicket) : Bool :=
  t.status = .running && t.workerId = some workerId

theorem owned_iff {workerId : String} {t : EvaluationTicket} :
  owned workerId t = true ↔ t.status = .running ∧ t.workerId = some workerId
  := by simp [owned]

/-- `error_message[:4000] if error_message else None`. -/
def storedMessage (message : Option String) : Option String :=
  (message.filter (· != "")).map (truncated 4000)

/-- The row `reset_failed` writes, and `transition` to `READY`. -/
def resetRow (now : Instant) (t : EvaluationTicket) : EvaluationTicket :=
  { t with
    status := .ready
    attemptCount := 0
    availableAt := now
    workerId := none
    claimedAt := none
    startedAt := none
    completedAt := none
    leaseExpiresAt := none
    resultId := none
    errorCode := none
    errorMessage := none }

/-- The row `transition` writes for each target. -/
def transitionRow (now : Instant) (target : TicketStatus) (s : Settlement)
    (t : EvaluationTicket) : EvaluationTicket :=
  match target with
  | .done =>
      { t with
        status := .done
        resultId := s.resultId
        completedAt := some now
        leaseExpiresAt := none
        errorCode := none
        errorMessage := none
        inputSnapshotJson := s.inputSnapshot.or t.inputSnapshotJson }
  | .retry =>
      { t with
        status := .retry
        availableAt := now + interval (s.delaySeconds.getD 0)
        workerId := none
        leaseExpiresAt := none
        errorCode := s.errorCode
        errorMessage := storedMessage s.errorMessage }
  | .failed | .notApplicable =>
      { t with
        status := target
        completedAt := some now
        leaseExpiresAt := none
        resultId := s.resultId.or t.resultId
        errorCode := s.errorCode
        errorMessage := storedMessage s.errorMessage
        inputSnapshotJson := s.inputSnapshot.or t.inputSnapshotJson }
  | .cancelled =>
      { t with
        status := .cancelled
        completedAt := some now
        leaseExpiresAt := none
        errorCode := s.errorCode.or (some "CANCELLED")
        errorMessage := storedMessage s.errorMessage }
  | .ready => resetRow now t
  | .running => t

theorem transitionRow_id (now : Instant) (target : TicketStatus) (s : Settlement)
    (t : EvaluationTicket) :
  (transitionRow now target s t).id = t.id
  := by cases target <;> rfl

theorem transitionRow_jobId (now : Instant) (target : TicketStatus) (s : Settlement)
    (t : EvaluationTicket) :
  (transitionRow now target s t).jobId = t.jobId
  := by cases target <;> rfl

/-- The `UPDATE` of `transition`. -/
def settledBy (ticketId : Uuid) (workerId : String) (target : TicketStatus) (s : Settlement)
    (db : Db) : Db :=
  db.updateTickets (fun t => t.id = ticketId && owned workerId t)
    (transitionRow db.now target s) (transitionRow_id db.now target s)
    (transitionRow_jobId db.now target s)

/-- The check of `transition` on a row the worker does not own: what it raises. -/
def notOwned (ticketId : Uuid) (workerId : String) (target : TicketStatus)
    (current : EvaluationTicket) : Exn :=
  if (current.workerId.any (· != workerId))
      || target ∈ allowedTicketTransitions current.status then .staleWorker ticketId
  else .illegalTransition current.status target

/-- `TicketRepository.transition`. The row stays locked, so its last `UPDATE` always finds
it. -/
def transition (ticketId : Uuid) (target : TicketStatus) (s : Settlement)
    (expectedWorkerId : Option String) (db : Db) : Except Exn (EvaluationTicket × Db) :=
  match db.ticket ticketId with
  | none => .error (.lookup s!"ticket {ticketId} not found")
  | some current =>
    match expectedWorkerId.filter (· != "") with
    | none => .error (.value "worker_id is required to settle a ticket")
    | some workerId =>
      if owned workerId current then do
        assertTicketTransition current.status target
        if target = .running then .error (.value "transition to RUNNING is not supported here")
        else .ok (transitionRow db.now target s current,
          settledBy ticketId workerId target s db)
      else .error (notOwned ticketId workerId target current)

theorem assertTicketTransition_ok {current target : TicketStatus} {u : Unit}
    (h : assertTicketTransition current target = .ok u) :
  target ∈ allowedTicketTransitions current
  := by
  unfold assertTicketTransition at h
  split at h
  case isTrue hmem => apply hmem
  case isFalse => cases h

/-- A transition that returns has written the row of a running ticket its worker owns. -/
theorem transition_ok {ticketId : Uuid} {target : TicketStatus} {s : Settlement}
    {workerId : String} (hne : workerId ≠ "") {db db' : Db} {t : EvaluationTicket}
    (h : transition ticketId target s (some workerId) db = .ok (t, db')) :
  ∃ current, db.ticket ticketId = some current ∧ owned workerId current = true
    ∧ target ∈ allowedTicketTransitions .running
    ∧ t = transitionRow db.now target s current
    ∧ db' = settledBy ticketId workerId target s db
  := by
  unfold transition at h
  cases hcur : db.ticket ticketId with
  | none =>
    rw [hcur] at h
    cases h
  | some current =>
    simp only [hcur, filter_of_ne hne] at h
    split at h
    case isTrue howned =>
      obtain ⟨u, hassert, h⟩ := bind_eq_ok.mp h
      have hmem := assertTicketTransition_ok hassert
      rw [(owned_iff.mp howned).1] at hmem
      split at h
      case isTrue => cases h
      case isFalse =>
        cases h
        exact ⟨current, rfl, howned, hmem, rfl, rfl⟩
    case isFalse => cases h

/-- A transition on a row its worker does not own raises. -/
theorem transition_not_owned {ticketId : Uuid} {target : TicketStatus} {s : Settlement}
    {workerId : String} (hne : workerId ≠ "") {db : Db} {current : EvaluationTicket}
    (hcur : db.ticket ticketId = some current) (h : owned workerId current = false) :
  transition ticketId target s (some workerId) db
    = .error (notOwned ticketId workerId target current)
  := by
  unfold transition
  simp [hcur, filter_of_ne hne, h]

/-- A transition of a row its worker owns, to an allowed target, returns. -/
theorem transition_owned {ticketId : Uuid} {target : TicketStatus} {s : Settlement}
    {workerId : String} (hne : workerId ≠ "") {db : Db} {current : EvaluationTicket}
    (hcur : db.ticket ticketId = some current) (h : owned workerId current = true)
    (hallowed : target ∈ allowedTicketTransitions .running) :
  transition ticketId target s (some workerId) db
    = .ok (transitionRow db.now target s current, settledBy ticketId workerId target s db)
  := by
  have hstatus := (owned_iff.mp h).1
  have hrunning : target ≠ .running := by
    rintro rfl
    simp [allowedTicketTransitions] at hallowed
  unfold transition
  simp [hcur, filter_of_ne hne, h, hstatus, assertTicketTransition, hallowed, hrunning, bind,
    Except.bind]

/-- The row `extend_lease` writes. -/
def extendedRow (now : Instant) (leaseSeconds : ℤ) (t : EvaluationTicket) : EvaluationTicket :=
  { t with leaseExpiresAt := some (now + leaseSeconds * second) }

/-- `TicketRepository.extend_lease`. -/
def extendLease (ticketId : Uuid) (workerId : String) (leaseSeconds : ℤ) (db : Db) :
    Except Exn (Option EvaluationTicket × Db) :=
  if workerId = "" then .error (.value "worker_id is required to extend a lease")
  else
    .ok (((db.ticket ticketId).filter (owned workerId)).map (extendedRow db.now leaseSeconds),
      db.updateTickets (fun t => t.id = ticketId && owned workerId t)
        (extendedRow db.now leaseSeconds))

/-! ### Cancelling, resetting, recovering -/

/-- A `READY` or `RETRY` ticket of the job. -/
def unclaimedOf (jobId : Uuid) (t : EvaluationTicket) : Bool :=
  t.jobId = jobId && (t.status = .ready || t.status = .retry)

/-- The row a ticket is cancelled to outside a settlement. -/
def cancelledRow (now : Instant) (message : String) (t : EvaluationTicket) :
    EvaluationTicket :=
  { t with
    status := .cancelled
    errorCode := some "CANCELLED"
    errorMessage := some message
    completedAt := some now
    leaseExpiresAt := none }

/-- `TicketRepository.cancel_unclaimed`. -/
def cancelUnclaimed (jobId : Uuid) (db : Db) : ℕ × Db :=
  (db.tickets.count (unclaimedOf jobId),
    db.updateTickets (unclaimedOf jobId) (cancelledRow db.now "job cancellation requested"))

/-- A `FAILED` ticket of the job. -/
def failedOf (jobId : Uuid) (t : EvaluationTicket) : Bool :=
  t.jobId = jobId && t.status = .failed

/-- `TicketRepository.reset_failed`. -/
def resetFailed (jobId : Uuid) (db : Db) : List Uuid × Db :=
  ((db.tickets.rows.filter (failedOf jobId)).map EvaluationTicket.id,
    db.updateTickets (failedOf jobId) (resetRow db.now))

/-- A `RUNNING` ticket whose lease has passed. -/
def expired (now : Instant) (t : EvaluationTicket) : Bool :=
  t.status = .running && t.leaseExpiresAt.any (· < now)

/-- `ORDER BY t2.lease_expires_at`. -/
def leaseOrder (t t' : EvaluationTicket) : Bool :=
  t.leaseExpiresAt.getD 0 ≤ t'.leaseExpiresAt.getD 0

/-- The job of the ticket has cancellation requested. -/
def jobCancelled (db : Db) (t : EvaluationTicket) : Bool :=
  (db.job t.jobId).any fun j => j.cancellationRequestedAt.isSome

/-- The row `recover_expired_leases` writes; `cancelled` is the flag of the ticket's job and
`delay` the random part of its availability. -/
def recoveredRow (now : Instant) (cancelled : Bool) (delay : Duration) (t : EvaluationTicket) :
    EvaluationTicket :=
  { t with
    status :=
      if cancelled then .cancelled
      else if t.attemptCount ≥ t.maxAttempts then .failed
      else .retry
    errorCode := some (if cancelled then "CANCELLED" else "LEASE_EXPIRED")
    errorMessage := some (
      if cancelled then "job cancelled while ticket was running"
      else "runner lease expired; ticket recovered")
    availableAt := if !cancelled && t.attemptCount < t.maxAttempts then now + delay else now
    workerId := none
    leaseExpiresAt := none
    completedAt :=
      if cancelled || t.attemptCount ≥ t.maxAttempts then some now else t.completedAt }

/-- `TicketRepository.recover_expired_leases`; `jitter` is what `random()` gives a row. -/
def recoverExpiredLeases (locked : Uuid → Bool) (jitter : Uuid → Duration) (limit : ℕ)
    (db : Db) : List EvaluationTicket × Db :=
  let ids := selectForUpdate db (expired db.now) leaseOrder locked limit
  let db' := db.updateTickets (fun t => ids.contains t.id)
    (fun t => recoveredRow db.now (jobCancelled db t) (jitter t.id) t)
  (db'.tickets.rows.filter fun t => ids.contains t.id, db')

/-- `TicketRepository.cancel_running_for_cancelled_jobs`. -/
def cancelRunningForCancelledJobs (locked : Uuid → Bool) (limit : ℕ) (db : Db) :
    List EvaluationTicket × Db :=
  let ids := selectForUpdate db (fun t => expired db.now t && jobCancelled db t) leaseOrder
    locked limit
  let db' := db.updateTickets (fun t => ids.contains t.id)
    (cancelledRow db.now "job cancelled while ticket was running")
  (db'.tickets.rows.filter fun t => ids.contains t.id, db')

/-! ### Reading -/

/-- `TicketRepository.counts_by_status`, with zero for a status that does not occur. -/
def countsByStatus (jobId : Uuid) (db : Db) : TicketCounts := fun status =>
  db.tickets.count fun t => t.jobId = jobId && t.status = status

/-- `TicketRepository.jobs_with_active_tickets`. -/
def jobsWithActiveTickets (db : Db) : List Uuid :=
  ((db.tickets.rows.filter fun t =>
    t.status = .ready || t.status = .running || t.status = .retry).map
    EvaluationTicket.jobId).dedup

/-- The optional filters of `list_by_job`. -/
structure Filters where
  status : Option TicketStatus
  checkId : Option String
  metricId : Option String

/-- The row meets every filter that is given. -/
def Filters.admits (f : Filters) (t : EvaluationTicket) : Bool :=
  f.status.all (t.status = ·) && f.checkId.all (t.checkId = ·) && f.metricId.all (t.metricId = ·)

/-- The rows of a job that its filters admit. -/
def matching (jobId : Uuid) (f : Filters) (db : Db) : List EvaluationTicket :=
  db.tickets.rows.filter fun t => t.jobId = jobId && f.admits t

/-- `TicketRepository.list_by_job`: the total and a page. `arrange` is how the database orders
the rows that the query selects. -/
def listByJob (arrange : List EvaluationTicket → List EvaluationTicket) (jobId : Uuid)
    (f : Filters) (limit offset : ℕ) (db : Db) : ℕ × List EvaluationTicket :=
  ((matching jobId f db).length, Query.page limit offset (arrange (matching jobId f db)))

/-- `ORDER BY priority DESC, created_at, check_id`, with the collation of the database. -/
def listingKey {β : Type} (collate : String → β) (t : EvaluationTicket) :
    ℤᵒᵈ ×ₗ Instant ×ₗ β :=
  toLex (OrderDual.toDual t.priority, toLex (t.createdAt, collate t.checkId))

end TicketRepository

end Evalorch
