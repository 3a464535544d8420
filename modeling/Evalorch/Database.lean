import Evalorch.Models.Entities
import Evalorch.Transact.Table

/-!
# The database

`Db` holds the three tables and the clock that `now()` reads. Its fields carry what the
schema enforces on every state: primary keys, one result per ticket, and the foreign keys to
jobs and tickets. The statements of the repositories are built from `updateJobs`,
`updateTickets`, `updateResults`, `insertJob`, `insertTickets` and `insertResult`, each of
which keeps them.
-/

namespace Evalorch

open Transact

/-- The state of the database. -/
structure Db where
  /-- What `now()` answers. -/
  now : Instant
  jobs : Table EvaluationJob.id
  tickets : Table EvaluationTicket.id
  /-- `uq_results_ticket_id`: the results are keyed by their ticket. -/
  results : Table EvaluationResult.ticketId
  resultIds : (results.rows.map EvaluationResult.id).Nodup
  ticketJob : ∀ t ∈ tickets.rows, ∃ j ∈ jobs.rows, j.id = t.jobId
  resultJob : ∀ r ∈ results.rows, ∃ j ∈ jobs.rows, j.id = r.jobId
  resultTicket : ∀ r ∈ results.rows, ∃ t ∈ tickets.rows, t.id = r.ticketId

namespace Db

@[ext]
theorem ext {db db' : Db} (hnow : db.now = db'.now) (hjobs : db.jobs = db'.jobs)
    (htickets : db.tickets = db'.tickets) (hresults : db.results = db'.results) :
  db = db'
  := by
  cases db
  cases db'
  simp_all

/-- The database of a new installation. -/
def empty : Db where
  now := 0
  jobs := .empty
  tickets := .empty
  results := .empty
  resultIds := List.nodup_nil
  ticketJob := by simp [Table.empty]
  resultJob := by simp [Table.empty]
  resultTicket := by simp [Table.empty]

/-- The job with an id. -/
def job (db : Db) (jobId : Uuid) : Option EvaluationJob := db.jobs.find jobId

/-- The ticket with an id. -/
def ticket (db : Db) (ticketId : Uuid) : Option EvaluationTicket := db.tickets.find ticketId

/-- The result of a ticket. -/
def resultOf (db : Db) (ticketId : Uuid) : Option EvaluationResult := db.results.find ticketId

/-- Cancellation of the job has been requested. -/
def cancelRequested (db : Db) (jobId : Uuid) : Prop :=
  ∃ j, db.job jobId = some j ∧ j.cancellationRequestedAt.isSome

/-! ### Statements -/

/-- The clock moved to another instant. -/
def tick (db : Db) (now : Instant) : Db := { db with now := now }

/-- `UPDATE evaluation_jobs SET set WHERE selects`. -/
def updateJobs (db : Db) (selects : EvaluationJob → Bool) (set : EvaluationJob → EvaluationJob)
    (keeps : ∀ j, (set j).id = j.id := by intro j; exact id rfl) : Db where
  now := db.now
  jobs := db.jobs.update selects set keeps
  tickets := db.tickets
  results := db.results
  resultIds := db.resultIds
  ticketJob t ht := Table.exists_update_key (db.ticketJob t ht)
  resultJob r hr := Table.exists_update_key (db.resultJob r hr)
  resultTicket := db.resultTicket

/-- `UPDATE evaluation_tickets SET set WHERE selects`. -/
def updateTickets (db : Db) (selects : EvaluationTicket → Bool)
    (set : EvaluationTicket → EvaluationTicket)
    (keepsId : ∀ t, (set t).id = t.id := by intro t; exact id rfl)
    (keepsJob : ∀ t, (set t).jobId = t.jobId := by intro t; exact id rfl) : Db where
  now := db.now
  jobs := db.jobs
  tickets := db.tickets.update selects set keepsId
  results := db.results
  resultIds := db.resultIds
  ticketJob := by
    intro t ht
    obtain ⟨t₀, ht₀, rfl⟩ := Table.mem_update.mp ht
    rw [patch_field EvaluationTicket.jobId keepsJob]
    apply db.ticketJob t₀ ht₀
  resultJob := db.resultJob
  resultTicket r hr := Table.exists_update_key (db.resultTicket r hr)

/-- `UPDATE evaluation_results SET set WHERE selects`. -/
def updateResults (db : Db) (selects : EvaluationResult → Bool)
    (set : EvaluationResult → EvaluationResult)
    (keepsId : ∀ r, (set r).id = r.id := by intro r; exact id rfl)
    (keepsTicket : ∀ r, (set r).ticketId = r.ticketId := by intro r; exact id rfl)
    (keepsJob : ∀ r, (set r).jobId = r.jobId := by intro r; exact id rfl) : Db where
  now := db.now
  jobs := db.jobs
  tickets := db.tickets
  results := db.results.update selects set keepsTicket
  resultIds := by
    have h : EvaluationResult.id ∘ patch selects set = EvaluationResult.id := by
      funext r
      apply patch_field EvaluationResult.id keepsId
    rw [Table.rows_update, List.map_map, h]
    apply db.resultIds
  ticketJob := db.ticketJob
  resultJob := by
    intro r hr
    obtain ⟨r₀, hr₀, rfl⟩ := Table.mem_update.mp hr
    rw [patch_field EvaluationResult.jobId keepsJob]
    apply db.resultJob r₀ hr₀
  resultTicket := by
    intro r hr
    obtain ⟨r₀, hr₀, rfl⟩ := Table.mem_update.mp hr
    rw [patch_field EvaluationResult.ticketId keepsTicket]
    apply db.resultTicket r₀ hr₀

/-- `INSERT INTO evaluation_jobs`: refused when the primary key or the idempotency key is
taken. -/
def insertJob (db : Db) (j : EvaluationJob) : Except Exn Db :=
  if hkey : ∀ j' ∈ db.jobs.rows, j'.id ≠ j.id then
    if ∀ j' ∈ db.jobs.rows, j.idempotencyKey.isSome → j'.idempotencyKey ≠ j.idempotencyKey then
      .ok {
        now := db.now
        jobs := db.jobs.insert [j] (Table.nodup_append_singleton hkey)
        tickets := db.tickets
        results := db.results
        resultIds := db.resultIds
        ticketJob := fun t ht => Table.exists_insert_key (db.ticketJob t ht)
        resultJob := fun r hr => Table.exists_insert_key (db.resultJob r hr)
        resultTicket := db.resultTicket }
    else .error (.integrity "uq_evaluation_jobs_idempotency_key")
  else .error (.integrity "evaluation_jobs_pkey")

/-- `ck_tickets_max_attempts` and `ck_tickets_attempts`. -/
def ticketChecks (t : EvaluationTicket) : Bool :=
  1 ≤ t.maxAttempts && 0 ≤ t.attemptCount && t.attemptCount ≤ t.maxAttempts + 1

/-- The columns of `uq_tickets_job_payload_metric`. -/
def ticketIndex (t : EvaluationTicket) : Uuid × String × Uuid :=
  (t.jobId, t.sourcePayloadRef, t.metricRecordId)

/-- `INSERT INTO evaluation_tickets`: refused when a key is taken, a check fails or a job is
missing. -/
def insertTickets (db : Db) (new : List EvaluationTicket) : Except Exn Db :=
  if hkeys : ((db.tickets.rows ++ new).map EvaluationTicket.id).Nodup then
    if ((db.tickets.rows ++ new).map ticketIndex).Nodup then
      if new.all ticketChecks then
        if hjobs : ∀ t ∈ new, ∃ j ∈ db.jobs.rows, j.id = t.jobId then
          .ok {
            now := db.now
            jobs := db.jobs
            tickets := db.tickets.insert new hkeys
            results := db.results
            resultIds := db.resultIds
            ticketJob := by
              intro t ht
              rcases List.mem_append.mp ht with ht | ht
              · apply db.ticketJob t ht
              · apply hjobs t ht
            resultJob := db.resultJob
            resultTicket := fun r hr => Table.exists_insert_key (db.resultTicket r hr) }
        else .error (.integrity "evaluation_tickets_job_id_fkey")
      else .error (.integrity "ck_tickets_attempts")
    else .error (.integrity "uq_tickets_job_payload_metric")
  else .error (.integrity "evaluation_tickets_pkey")

/-- `INSERT INTO evaluation_results`: refused when a key is taken or a foreign key points
nowhere. -/
def insertResult (db : Db) (r : EvaluationResult) : Except Exn Db :=
  if hkey : ∀ r' ∈ db.results.rows, r'.ticketId ≠ r.ticketId then
    if hid : ∀ r' ∈ db.results.rows, r'.id ≠ r.id then
      if hjob : ∃ j ∈ db.jobs.rows, j.id = r.jobId then
        if hticket : ∃ t ∈ db.tickets.rows, t.id = r.ticketId then
          .ok {
            now := db.now
            jobs := db.jobs
            tickets := db.tickets
            results := db.results.insert [r] (Table.nodup_append_singleton hkey)
            resultIds := by
              rw [Table.insert, List.map_append, List.nodup_append]
              use db.resultIds, List.nodup_singleton _
              simp only [List.mem_map, List.map_singleton, List.mem_singleton]
              rintro _ ⟨r', hr', rfl⟩ _ rfl
              apply hid r' hr'
            ticketJob := db.ticketJob
            resultJob := by
              intro r' hr'
              rcases List.mem_append.mp hr' with hr' | hr'
              · apply db.resultJob r' hr'
              · rw [List.mem_singleton.mp hr']
                apply hjob
            resultTicket := by
              intro r' hr'
              rcases List.mem_append.mp hr' with hr' | hr'
              · apply db.resultTicket r' hr'
              · rw [List.mem_singleton.mp hr']
                apply hticket }
        else .error (.integrity "evaluation_results_ticket_id_fkey")
      else .error (.integrity "evaluation_results_job_id_fkey")
    else .error (.integrity "evaluation_results_pkey")
  else .error (.integrity "uq_results_ticket_id")

/-- An inserted job is the last row. -/
theorem insertJob_ok {db db' : Db} {j : EvaluationJob} (h : db.insertJob j = .ok db') :
  (∀ j' ∈ db.jobs.rows, j'.id ≠ j.id) ∧ db'.now = db.now
    ∧ db'.jobs.rows = db.jobs.rows ++ [j] ∧ db'.tickets = db.tickets
    ∧ db'.results = db.results
  := by
  unfold insertJob at h
  split at h
  case isFalse => cases h
  case isTrue hkey =>
    split at h
    case isFalse => cases h
    case isTrue =>
      cases h
      exact ⟨hkey, rfl, rfl, rfl, rfl⟩

/-- Inserted tickets are the last rows, and pass the checks of the table. -/
theorem insertTickets_ok {db db' : Db} {new : List EvaluationTicket}
    (h : db.insertTickets new = .ok db') :
  (∀ t ∈ new, ticketChecks t = true) ∧ db'.now = db.now ∧ db'.jobs = db.jobs
    ∧ db'.tickets.rows = db.tickets.rows ++ new ∧ db'.results = db.results
  := by
  unfold insertTickets at h
  split at h
  case isFalse => cases h
  case isTrue =>
    split at h
    case isFalse => cases h
    case isTrue =>
      split at h
      case isFalse => cases h
      case isTrue hchecks =>
        split at h
        case isFalse => cases h
        case isTrue =>
          cases h
          exact ⟨List.all_eq_true.mp hchecks, rfl, rfl, rfl, rfl⟩

/-! ### What the statements leave alone -/

section Frame

variable {db : Db} {selectsJob : EvaluationJob → Bool} {setJob : EvaluationJob → EvaluationJob}
  {keepsJob : ∀ j, (setJob j).id = j.id} {selects : EvaluationTicket → Bool}
  {set : EvaluationTicket → EvaluationTicket} {keepsId : ∀ t, (set t).id = t.id}
  {keepsJobId : ∀ t, (set t).jobId = t.jobId}

@[simp]
theorem now_updateJobs :
  (db.updateJobs selectsJob setJob keepsJob).now = db.now
  := rfl

@[simp]
theorem jobs_updateJobs :
  (db.updateJobs selectsJob setJob keepsJob).jobs = db.jobs.update selectsJob setJob keepsJob
  := rfl

@[simp]
theorem tickets_updateJobs :
  (db.updateJobs selectsJob setJob keepsJob).tickets = db.tickets
  := rfl

@[simp]
theorem results_updateJobs :
  (db.updateJobs selectsJob setJob keepsJob).results = db.results
  := rfl

@[simp]
theorem ticket_updateJobs (ticketId : Uuid) :
  (db.updateJobs selectsJob setJob keepsJob).ticket ticketId = db.ticket ticketId
  := rfl

@[simp]
theorem resultOf_updateJobs (ticketId : Uuid) :
  (db.updateJobs selectsJob setJob keepsJob).resultOf ticketId = db.resultOf ticketId
  := rfl

theorem job_updateJobs (jobId : Uuid) :
  (db.updateJobs selectsJob setJob keepsJob).job jobId
    = (db.job jobId).map (patch selectsJob setJob)
  := Table.find_update keepsJob jobId

@[simp]
theorem now_updateTickets :
  (db.updateTickets selects set keepsId keepsJobId).now = db.now
  := rfl

@[simp]
theorem jobs_updateTickets :
  (db.updateTickets selects set keepsId keepsJobId).jobs = db.jobs
  := rfl

@[simp]
theorem tickets_updateTickets :
  (db.updateTickets selects set keepsId keepsJobId).tickets
    = db.tickets.update selects set keepsId
  := rfl

@[simp]
theorem results_updateTickets :
  (db.updateTickets selects set keepsId keepsJobId).results = db.results
  := rfl

@[simp]
theorem job_updateTickets (jobId : Uuid) :
  (db.updateTickets selects set keepsId keepsJobId).job jobId = db.job jobId
  := rfl

@[simp]
theorem resultOf_updateTickets (ticketId : Uuid) :
  (db.updateTickets selects set keepsId keepsJobId).resultOf ticketId = db.resultOf ticketId
  := rfl

theorem resultOf_updateResults {selectsResult : EvaluationResult → Bool}
    {setResult : EvaluationResult → EvaluationResult}
    {keepsResult : ∀ r, (setResult r).id = r.id}
    {keepsTicket : ∀ r, (setResult r).ticketId = r.ticketId}
    {keepsJob : ∀ r, (setResult r).jobId = r.jobId} (ticketId : Uuid) :
  (db.updateResults selectsResult setResult keepsResult keepsTicket keepsJob).resultOf ticketId
    = (db.resultOf ticketId).map (patch selectsResult setResult)
  := Table.find_update keepsTicket ticketId

theorem ticket_updateTickets (ticketId : Uuid) :
  (db.updateTickets selects set keepsId keepsJobId).ticket ticketId
    = (db.ticket ticketId).map (patch selects set)
  := Table.find_update keepsId ticketId

end Frame

/-- An update of tickets that selects none changes nothing. -/
theorem updateTickets_of_forall_neg {db : Db} {selects : EvaluationTicket → Bool}
    {set : EvaluationTicket → EvaluationTicket} {keepsId : ∀ t, (set t).id = t.id}
    {keepsJobId : ∀ t, (set t).jobId = t.jobId}
    (h : ∀ t ∈ db.tickets.rows, selects t = false) :
  db.updateTickets selects set keepsId keepsJobId = db
  := by
  apply ext
  · rfl
  · rfl
  · apply Table.update_of_forall_neg keepsId h
  · rfl

/-- An update of jobs that selects none changes nothing. -/
theorem updateJobs_of_forall_neg {db : Db} {selects : EvaluationJob → Bool}
    {set : EvaluationJob → EvaluationJob} {keeps : ∀ j, (set j).id = j.id}
    (h : ∀ j ∈ db.jobs.rows, selects j = false) :
  db.updateJobs selects set keeps = db
  := by
  apply ext
  · rfl
  · apply Table.update_of_forall_neg keeps h
  · rfl
  · rfl

theorem ticket_eq_some {db : Db} {ticketId : Uuid} {t : EvaluationTicket} :
  db.ticket ticketId = some t ↔ t ∈ db.tickets.rows ∧ t.id = ticketId
  := Table.find_eq_some

theorem job_eq_some {db : Db} {jobId : Uuid} {j : EvaluationJob} :
  db.job jobId = some j ↔ j ∈ db.jobs.rows ∧ j.id = jobId
  := Table.find_eq_some

theorem resultOf_eq_some {db : Db} {ticketId : Uuid} {r : EvaluationResult} :
  db.resultOf ticketId = some r ↔ r ∈ db.results.rows ∧ r.ticketId = ticketId
  := Table.find_eq_some

/-- Every ticket has its job. -/
theorem exists_job {db : Db} {t : EvaluationTicket} (ht : t ∈ db.tickets.rows) :
  ∃ j, db.job t.jobId = some j
  := by
  obtain ⟨j, hj, hid⟩ := db.ticketJob t ht
  exact ⟨j, job_eq_some.mpr ⟨hj, hid⟩⟩

end Db

end Evalorch
