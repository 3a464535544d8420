import Evalorch.Core.Config
import Evalorch.Repositories.JobRepository

/-!
# Claiming and settling tickets

`claimTickets`, `settleTicket` and `heartbeatTicket`, each inside the caller's transaction.
-/

namespace Evalorch

open Transact

/-- `build_worker_id`. -/
def buildWorkerId (pre host : String) (pid : ℕ) (hex : String) : Worker where
  id := pre ++ ":" ++ host ++ s!":{pid}:" ++ hex
  nonempty := by
    intro h
    have := congrArg String.length h
    simp [String.length_append] at this

/-- `claim_tickets`. -/
def claimTickets (settings : Settings) (locked : Uuid → Bool) (worker : Worker)
    (limit : Option ℕ) (leaseSeconds : Option ℤ) (jobId : Option Uuid) (db : Db) :
    Except Exn (List EvaluationTicket × Db) := do
  let batch := (limit.filter (· != 0)).getD settings.runnerClaimBatchSize
  let lease := (leaseSeconds.filter (· != 0)).getD settings.runnerLeaseSeconds
  let (tickets, db') ← TicketRepository.claim locked batch worker.id lease jobId db
  if tickets.isEmpty then .ok (tickets, db')
  else
    .ok (tickets, (JobRepository.markRunningIfPending (tickets.map (·.jobId)).dedup db').2)

/-- A claim takes tickets that are claimable, and marks their jobs. -/
theorem claimTickets_ok {settings : Settings} {locked : Uuid → Bool} {worker : Worker}
    {limit : Option ℕ} {leaseSeconds : Option ℤ} {jobId : Option Uuid} {db db' : Db}
    {tickets : List EvaluationTicket}
    (h : claimTickets settings locked worker limit leaseSeconds jobId db = .ok (tickets, db')) :
  ∃ (ids : List Uuid) (lease : ℤ),
    (∀ t ∈ db.tickets.rows, t.id ∈ ids → TicketRepository.claimable db jobId t = true)
      ∧ tickets = (TicketRepository.takenBy ids worker.id lease db).tickets.rows.filter
        (fun t => ids.contains t.id)
      ∧ tickets.all Db.ticketChecks = true
      ∧ db' = (JobRepository.markRunningIfPending (tickets.map (·.jobId)).dedup
        (TicketRepository.takenBy ids worker.id lease db)).2
  := by
  unfold claimTickets at h
  obtain ⟨⟨claimed, db₁⟩, hclaim, h⟩ := bind_eq_ok.mp h
  obtain ⟨ids, hids, rfl, hclaimed, hchecks⟩ := TicketRepository.claim_ok hclaim
  use ids, (leaseSeconds.filter (· != 0)).getD settings.runnerLeaseSeconds, hids
  simp only at h
  split at h
  case isTrue hempty =>
    rw [List.isEmpty_iff] at hempty
    cases h
    refine ⟨hclaimed, hchecks, ?_⟩
    symm
    apply Db.updateJobs_of_forall_neg
    intro j hj
    rw [hempty]
    rfl
  case isFalse =>
    cases h
    exact ⟨hclaimed, hchecks, rfl⟩

/-- The job whose progress a settlement recomputes: the given one, or the ticket's. -/
def resolveJobId (ticketId : Uuid) (jobId : Option Uuid) (db : Db) : Except Exn Uuid :=
  match jobId with
  | some jobId => .ok jobId
  | none =>
    match db.ticket ticketId with
    | some current => .ok current.jobId
    | none => .error (.lookup s!"ticket {ticketId} not found")

/-- `settle_ticket`. -/
def settleTicket (ticketId : Uuid) (target : TicketStatus) (s : Settlement)
    (jobId : Option Uuid) (workerId : Option String) (db : Db) :
    Except Exn ((EvaluationTicket × Option JobProgress) × Db) :=
  match workerId.filter (· != "") with
  | none => .error (.value "worker_id is required to settle a ticket")
  | some _ => do
    let resolvedJobId ← resolveJobId ticketId jobId db
    let (ticket, db') ← TicketRepository.transition ticketId target s workerId db
    let (progress, db'') := JobRepository.recomputeProgress resolvedJobId db'
    .ok ((ticket, progress), db'')

/-- A settlement that returns has settled a running ticket its worker owns, then recomputed
a job: the one it was given, if any. -/
theorem settleTicket_returns {ticketId : Uuid} {target : TicketStatus} {s : Settlement}
    {jobId : Option Uuid} {workerId : Option String} {db db' : Db}
    {r : EvaluationTicket × Option JobProgress}
    (h : settleTicket ticketId target s jobId workerId db = .ok (r, db')) :
  ∃ worker resolvedJobId current, workerId = some worker
    ∧ (∀ id, jobId = some id → resolvedJobId = id)
    ∧ db.ticket ticketId = some current
    ∧ TicketRepository.owned worker current = true
    ∧ target ∈ allowedTicketTransitions .running
    ∧ db' = (JobRepository.recomputeProgress resolvedJobId
        (TicketRepository.settledBy ticketId worker target s db)).2
  := by
  unfold settleTicket at h
  split at h
  case h_1 => cases h
  case h_2 worker hworker =>
    obtain ⟨rfl, hne⟩ : workerId = some worker ∧ worker ≠ "" := by
      simpa [Option.filter_eq_some_iff] using hworker
    obtain ⟨resolvedJobId, hresolved, h⟩ := bind_eq_ok.mp h
    obtain ⟨⟨t, db₁⟩, htransition, h⟩ := bind_eq_ok.mp h
    obtain ⟨current, hcur, howned, hallowed, -, rfl⟩ :=
      TicketRepository.transition_ok hne htransition
    cases h
    refine ⟨worker, resolvedJobId, current, rfl, ?_, hcur, howned, hallowed, rfl⟩
    rintro id rfl
    cases hresolved
    rfl

/-- A settlement of a ticket of a given job. -/
theorem settleTicket_ok {ticketId jobId : Uuid} {target : TicketStatus} {s : Settlement}
    {workerId : String} {db db' : Db} {r : EvaluationTicket × Option JobProgress}
    (h : settleTicket ticketId target s (some jobId) (some workerId) db = .ok (r, db')) :
  ∃ current, db.ticket ticketId = some current
    ∧ TicketRepository.owned workerId current = true
    ∧ target ∈ allowedTicketTransitions .running
    ∧ db' = (JobRepository.recomputeProgress jobId
        (TicketRepository.settledBy ticketId workerId target s db)).2
  := by
  obtain ⟨worker, resolvedJobId, current, hworker, hjob, hcur, howned, hallowed, rfl⟩ :=
    settleTicket_returns h
  cases hworker
  rw [hjob jobId rfl]
  exact ⟨current, hcur, howned, hallowed, rfl⟩

/-- A settlement of a ticket its worker does not own raises. -/
theorem settleTicket_not_owned {ticketId jobId : Uuid} {target : TicketStatus} {s : Settlement}
    {workerId : String} (hne : workerId ≠ "") {db : Db} {current : EvaluationTicket}
    (hcur : db.ticket ticketId = some current)
    (h : TicketRepository.owned workerId current = false) :
  settleTicket ticketId target s (some jobId) (some workerId) db
    = .error (TicketRepository.notOwned ticketId workerId target current)
  := by
  unfold settleTicket
  simp [filter_of_ne hne, resolveJobId, TicketRepository.transition_not_owned hne hcur h, bind,
    Except.bind]

/-- A settlement of a ticket its worker owns, to an allowed target, returns. -/
theorem settleTicket_owned {ticketId : Uuid} (jobId : Uuid) {target : TicketStatus}
    (s : Settlement) {workerId : String} (hne : workerId ≠ "") {db : Db}
    {current : EvaluationTicket}
    (hcur : db.ticket ticketId = some current)
    (h : TicketRepository.owned workerId current = true)
    (hallowed : target ∈ allowedTicketTransitions .running) :
  ∃ r, settleTicket ticketId target s (some jobId) (some workerId) db
    = .ok (r, (JobRepository.recomputeProgress jobId
        (TicketRepository.settledBy ticketId workerId target s db)).2)
  := by
  use (TicketRepository.transitionRow db.now target s current,
    (JobRepository.recomputeProgress jobId
      (TicketRepository.settledBy ticketId workerId target s db)).1)
  unfold settleTicket
  simp [filter_of_ne hne, resolveJobId, TicketRepository.transition_owned hne hcur h hallowed,
    bind, Except.bind]

/-- `heartbeat_ticket`. -/
def heartbeatTicket (ticketId : Uuid) (workerId : String) (leaseSeconds : ℤ) (db : Db) :
    Except Exn (Option EvaluationTicket × Db) :=
  TicketRepository.extendLease ticketId workerId leaseSeconds db

end Evalorch
