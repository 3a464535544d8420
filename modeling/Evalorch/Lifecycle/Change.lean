import Evalorch.Runner

/-!
# What a step may change

Every transaction changes the database in one of two ways. `Created` says that a job and its
tickets were added. `Change` says that rows were rewritten in place: each ticket by a `Move`,
each job by a `JobMove`, and the results by a `ResultMove`, all of them with the conditions
under which the transaction writes them. The invariants are proved from these, one case for
each kind of move.
-/

namespace Evalorch

open Transact TicketRepository JobRepository

/-- The transactions that rewrite rows, with who runs them and on what. -/
inductive Action where
  | tick
  | claim (worker : Worker)
  | heartbeat (ticketId : Uuid) (worker : Worker)
  | execute (ticket : EvaluationTicket) (worker : Worker) (tag : Tag)
  | cancelJob (jobId : Uuid)
  | retryFailedTickets (jobId : Uuid)
  | recover
  | reconcile

/-- The worker has the ticket: its row is `RUNNING` under the worker. -/
def Db.holds (db : Db) (worker : Worker) (ticketId : Uuid) : Prop :=
  ∃ t, db.ticket ticketId = some t ∧ owned worker.id t = true

instance (db : Db) (worker : Worker) (ticketId : Uuid) : Decidable (db.holds worker ticketId) :=
  decidable_of_iff ((db.ticket ticketId).any (owned worker.id) = true)
    (by simp [Db.holds, Option.any_eq_true])

/-- An execution and a heartbeat change nothing unless the worker has the ticket. -/
def Action.enabled (db : Db) : Action → Prop
  | .execute ticket worker _ => db.holds worker ticket.id
  | .heartbeat ticketId worker => db.holds worker ticketId
  | _ => True

/-- The status waits for a claim. -/
def TicketStatus.pending (status : TicketStatus) : Prop :=
  status = .ready ∨ status = .retry

instance (status : TicketStatus) : Decidable status.pending :=
  inferInstanceAs (Decidable (status = .ready ∨ status = .retry))

/-- The status of a result fits the status its ticket is settled to. -/
def pairs (target : TicketStatus) (status : ResultStatus) : Prop :=
  match target with
  | .done => status = .passed ∨ status = .failed
  | .notApplicable => status = .notApplicable
  | .failed => status = .error ∨ status = .failed
  | _ => False

/-- The ways a transaction that leads to `db'` rewrites the row of a ticket. -/
inductive Move (db db' : Db) : Action → EvaluationTicket → EvaluationTicket → Prop where
  | stay {a t} : Move db db' a t t
  | claimed {worker t} (leaseSeconds : ℤ) (pending : t.status.pending)
      (available : t.availableAt ≤ db.now)
      (job : ∃ j, db.job t.jobId = some j ∧ claimableJob j = true)
      (checks : Db.ticketChecks (claimedRow db.now worker.id leaseSeconds t) = true) :
      Move db db' (.claim worker) t (claimedRow db.now worker.id leaseSeconds t)
  | extended {worker t} (leaseSeconds : ℤ) (owns : owned worker.id t = true) :
      Move db db' (.heartbeat t.id worker) t (extendedRow db.now leaseSeconds t)
  /-- A settlement to `CANCELLED`. -/
  | cancelled {ticket worker tag t} (s : Settlement) (id : t.id = ticket.id)
      (owns : owned worker.id t = true) :
      Move db db' (.execute ticket worker tag) t (transitionRow db.now .cancelled s t)
  /-- A settlement to `RETRY`: only `_persist_once` has looked at the cancellation flag. -/
  | retried {ticket worker tag t} (s : Settlement) (id : t.id = ticket.id)
      (owns : owned worker.id t = true) (left : ticket.attemptCount < t.maxAttempts)
      (tag_eq : tag = .retryTransient ∨ tag = .persist .retry ∧ ¬ db.cancelRequested t.jobId) :
      Move db db' (.execute ticket worker tag) t (transitionRow db.now .retry s t)
  /-- A settlement with a result. -/
  | recorded {ticket worker target t} (s : Settlement) (id : t.id = ticket.id)
      (owns : owned worker.id t = true) (records : recordsResult target = true)
      (result : ∃ row, db'.resultOf t.id = some row ∧ s.resultId = some row.id
        ∧ pairs target row.status)
      (job : ¬ db.cancelRequested t.jobId) :
      Move db db' (.execute ticket worker (.persist target)) t (transitionRow db.now target s t)
  | cancelledUnclaimed {t} (message : String) (pending : t.status.pending) :
      Move db db' (.cancelJob t.jobId) t (cancelledRow db.now message t)
  | reset {t} (failed : t.status = .failed) (job : ¬ db.cancelRequested t.jobId) :
      Move db db' (.retryFailedTickets t.jobId) t (resetRow db.now t)
  | recovered {t} (delay : Duration) (passed : expired db.now t = true) :
      Move db db' .recover t (recoveredRow db.now (jobCancelled db t) delay t)
  | swept {t} (message : String) (passed : expired db.now t = true)
      (cancelled : jobCancelled db t = true) :
      Move db db' .recover t (cancelledRow db.now message t)

/-- The ways a transaction that rewrites tickets by `f`, and leads to `db'`, rewrites the row
of a job. -/
inductive JobMove (db db' : Db) (f : EvaluationTicket → EvaluationTicket) :
    Action → EvaluationJob → EvaluationJob → Prop where
  /-- The row stays when its tickets keep their statuses. -/
  | kept {a j} (same : ∀ t ∈ db.tickets.rows, t.jobId = j.id → (f t).status = t.status) :
      JobMove db db' f a j j
  /-- A claim took some of the tickets. -/
  | started {worker j} (claimable : claimableJob j = true)
      (moved : ∀ t ∈ db.tickets.rows, t.jobId = j.id →
        (f t).status = t.status ∨ t.status.pending ∧ (f t).status = .running)
      (some : ∃ t ∈ db.tickets.rows, t.jobId = j.id ∧ (f t).status = .running) :
      JobMove db db' f (.claim worker) j
        (if j.status = .created ∨ j.status = .ready then markedRow db.now j else j)
  | recomputed {a j} : JobMove db db' f a j (progressRow db.now (ticketCounts j.id db') j)
  /-- Cancellation was requested, and the unclaimed tickets cancelled. -/
  | cancelled {j} (open_ : j.status ≠ .completed ∧ j.status ≠ .failed ∧ j.status ≠ .partialFailed)
      (unclaimed : ∀ t ∈ db.tickets.rows, t.jobId = j.id → ¬ (f t).status.pending) :
      JobMove db db' f (.cancelJob j.id) j
        (progressRow db.now (ticketCounts j.id db') { j with
          cancellationRequestedAt := .some (j.cancellationRequestedAt.getD db.now) })

/-- The ways a transaction changes the results. -/
inductive ResultMove (db db' : Db) : Action → Prop where
  | kept {a} (results : db'.results = db.results) : ResultMove db db' a
  /-- The result of a ticket was written when the ticket was settled. -/
  | recorded {ticket worker target} (result row : EvaluationResult) (t : EvaluationTicket)
      (ticketId : result.ticketId = ticket.id) (before : db.ticket ticket.id = some t)
      (jobId : result.jobId = t.jobId)
      (written :
        (∃ old, db.resultOf ticket.id = some old
            ∧ row = ResultRepository.replacedRow db.now result old)
          ∨ (db.resultOf ticket.id = none ∧ row = ResultRepository.insertedRow db.now result))
      (resultOf : ∀ ticketId,
        db'.resultOf ticketId = if ticketId = ticket.id then some row else db.resultOf ticketId)
      (paired : pairs target result.status) (job : ¬ db.cancelRequested t.jobId)
      (settled : ∃ t', db'.ticket ticket.id = some t' ∧ t'.status = target
        ∧ t'.resultId = some row.id) :
      ResultMove db db' (.execute ticket worker (.persist target))

/-- An action rewrote the tickets by `f` and the jobs by `g`. -/
structure ChangeBy (a : Action) (db db' : Db) (f : EvaluationTicket → EvaluationTicket)
    (g : EvaluationJob → EvaluationJob) : Prop where
  enabled : a.enabled db
  tickets : db'.tickets.rows = db.tickets.rows.map f
  moves : ∀ t ∈ db.tickets.rows, Move db db' a t (f t)
  jobs : db'.jobs.rows = db.jobs.rows.map g
  jobMoves : ∀ j ∈ db.jobs.rows, JobMove db db' f a j (g j)
  results : ResultMove db db' a

/-- An action rewrote rows in place. -/
def Change (a : Action) (db db' : Db) : Prop :=
  ∃ f g, ChangeBy a db db' f g

/-- The tickets of a prepared job, as they are inserted. -/
def PreparedJob.ticketRows (p : PreparedJob) (now : Instant) : List EvaluationTicket :=
  p.tickets.map fun q => q.ticket p.id p.datasetId now

/-- The row of a job that was just created. -/
def PreparedJob.readyRow (p : PreparedJob) (now : Instant) : EvaluationJob :=
  { p.job now with totalTickets := p.tickets.length, status := .ready }

/-- A job was added with its tickets. -/
structure Created (p : PreparedJob) (db db' : Db) : Prop where
  tickets_ne : p.tickets ≠ []
  fresh : ∀ j ∈ db.jobs.rows, j.id ≠ p.id
  checks : ∀ t ∈ p.ticketRows db.now, Db.ticketChecks t = true
  tickets : db'.tickets.rows = db.tickets.rows ++ p.ticketRows db.now
  jobs : db'.jobs.rows = db.jobs.rows ++ [p.readyRow db.now]
  results : db'.results = db.results

/-! ### Following rows through a change -/

theorem Move.id_jobId {db db' : Db} {a : Action} {t t' : EvaluationTicket}
    (h : Move db db' a t t') :
  t'.id = t.id ∧ t'.jobId = t.jobId ∧ t'.maxAttempts = t.maxAttempts
  := by
  cases h with
  | recorded s => cases ‹TicketStatus› <;> exact ⟨rfl, rfl, rfl⟩
  | _ => exact ⟨rfl, rfl, rfl⟩

theorem JobMove.id_eq {db db' : Db} {f : EvaluationTicket → EvaluationTicket} {a : Action}
    {j j' : EvaluationJob} (h : JobMove db db' f a j j') :
  j'.id = j.id
  := by
  cases h with
  | started => split <;> rfl
  | _ => rfl

namespace ChangeBy

variable {a : Action} {db db' : Db} {f : EvaluationTicket → EvaluationTicket}
  {g : EvaluationJob → EvaluationJob}

theorem ticket (h : ChangeBy a db db' f g) (ticketId : Uuid) :
  db'.ticket ticketId = (db.ticket ticketId).map f
  := Table.find_of_map h.tickets (fun t ht => (h.moves t ht).id_jobId.1) ticketId

theorem job (h : ChangeBy a db db' f g) (jobId : Uuid) :
  db'.job jobId = (db.job jobId).map g
  := Table.find_of_map h.jobs (fun j hj => (h.jobMoves j hj).id_eq) jobId

/-- Every ticket after a change comes from one before it. -/
theorem mem_tickets (h : ChangeBy a db db' f g) {t' : EvaluationTicket} :
  t' ∈ db'.tickets.rows ↔ ∃ t ∈ db.tickets.rows, f t = t'
  := by rw [h.tickets, List.mem_map]

/-- Every job after a change comes from one before it. -/
theorem mem_jobs (h : ChangeBy a db db' f g) {j' : EvaluationJob} :
  j' ∈ db'.jobs.rows ↔ ∃ j ∈ db.jobs.rows, g j = j'
  := by rw [h.jobs, List.mem_map]

end ChangeBy

namespace Change

variable {a : Action} {db db' : Db}

/-- A ticket is rewritten by a move. -/
theorem exists_ticket (h : Change a db db') {ticketId : Uuid} {t : EvaluationTicket}
    (ht : db.ticket ticketId = some t) :
  ∃ t', db'.ticket ticketId = some t' ∧ Move db db' a t t'
  := by
  obtain ⟨f, g, h⟩ := h
  use f t
  constructor
  · rw [h.ticket, ht, Option.map_some]
  · apply h.moves t (Db.ticket_eq_some.mp ht).1

/-- Every ticket was there before. -/
theorem exists_ticket_before (h : Change a db db') {ticketId : Uuid} {t' : EvaluationTicket}
    (ht' : db'.ticket ticketId = some t') :
  ∃ t, db.ticket ticketId = some t ∧ Move db db' a t t'
  := by
  obtain ⟨f, g, h⟩ := h
  rw [h.ticket] at ht'
  obtain ⟨t, ht, rfl⟩ := Option.map_eq_some_iff.mp ht'
  exact ⟨t, ht, h.moves t (Db.ticket_eq_some.mp ht).1⟩

end Change

end Evalorch
