import Evalorch.Repositories.JobRepository
import Evalorch.Repositories.ResultRepository
import Evalorch.Transact.WaitsFor

/-!
# Rows and their locks

The rows that transactions lock, the strengths of row locks with their conflicts, and the writes
of single rows. A write of a job or a ticket is an `UPDATE` of the row with a given id: it changes
no other row, and depends on no other. The upsert of a result changes no other row, but whether
it is refused depends on the keys of other rows.
-/

namespace Evalorch

open Transact

/-- A row that is locked. The row of a result is named by its ticket, also before it is there. -/
inductive Row where
  | job (jobId : Uuid)
  | ticket (ticketId : Uuid)
  | result (ticketId : Uuid)
deriving DecidableEq

/-- What a row of the database holds, if it is there. -/
abbrev Row.Value : Row → Type
  | .job _ => Option EvaluationJob
  | .ticket _ => Option EvaluationTicket
  | .result _ => Option EvaluationResult

/-- A row of the database. -/
def Db.row (db : Db) : (key : Row) → key.Value
  | .job jobId => db.job jobId
  | .ticket ticketId => db.ticket ticketId
  | .result ticketId => db.resultOf ticketId

/-- The strengths of row locks: a foreign key check takes the first, an `UPDATE` of columns that
are no key the second, `SELECT … FOR UPDATE` the third. -/
inductive LockMode where
  | forKeyShare
  | forNoKeyUpdate
  | forUpdate
deriving DecidableEq

/-- The conflicts of row locks. -/
def LockMode.conflicts : LockMode → LockMode → Bool
  | .forKeyShare, .forKeyShare => false
  | .forKeyShare, .forNoKeyUpdate => false
  | .forNoKeyUpdate, .forKeyShare => false
  | _, _ => true

/-- The lock lets the row be written. -/
def LockMode.writes : LockMode → Bool
  | .forKeyShare => false
  | _ => true

/-- The row is not one whose insertion looks at the keys of others. -/
def Row.selfContained : Row → Bool
  | .result _ => false
  | _ => true

/-- The locks on the rows of the database. -/
def rowLocks : Locking Db Row LockMode Row.Value where
  row := Db.row
  selfContained := Row.selfContained
  conflicts := LockMode.conflicts
  writes := LockMode.writes
  symm m m' := by cases m <;> cases m' <;> rfl
  exclusive m m' h h' := by
    cases m <;> cases m' <;> simp_all [LockMode.writes, LockMode.conflicts]

/-- The text of a transaction on the database. -/
abbrev Text : Type := Script Db Row LockMode

/-- The locks of a transaction. -/
abbrev Locks : Type := List (Row × LockMode)

/-- The writes of a transaction. -/
abbrev Writes : Type := List (Row × (Db → Db))

/-! ### Rewriting a row -/

/-- A way to rewrite a ticket that keeps its keys. -/
structure TicketPatch where
  set : EvaluationTicket → EvaluationTicket
  keepsId : ∀ t, (set t).id = t.id := by intro t; exact id rfl
  keepsJob : ∀ t, (set t).jobId = t.jobId := by intro t; exact id rfl

/-- A way to rewrite a job that keeps its key. -/
structure JobPatch where
  set : EvaluationJob → EvaluationJob
  keepsId : ∀ j, (set j).id = j.id := by intro j; exact id rfl

/-- The `UPDATE` of the ticket with an id. -/
def TicketPatch.effect (p : TicketPatch) (ticketId : Uuid) (db : Db) : Db :=
  db.updateTickets (·.id = ticketId) p.set p.keepsId p.keepsJob

/-- The `UPDATE` of the job with an id. -/
def JobPatch.effect (p : JobPatch) (jobId : Uuid) (db : Db) : Db :=
  db.updateJobs (·.id = jobId) p.set p.keepsId

/-- The upsert of a result. One that the database refuses changes nothing. -/
def resultEffect (now : Instant) (result : EvaluationResult) (db : Db) : Db :=
  match ResultRepository.upsert result (db.tick now) with
  | .ok (_, db') => db'.tick db.now
  | .error _ => db

/-- A transaction rewrites a ticket it has locked. -/
def writeTicket (ticketId : Uuid) (p : TicketPatch) (next : Text) : Text :=
  .write (.ticket ticketId) (p.effect ticketId) next

/-- A transaction rewrites a job it has locked. -/
def writeJob (jobId : Uuid) (p : JobPatch) (next : Text) : Text :=
  .write (.job jobId) (p.effect jobId) next

/-- A transaction upserts a result it has locked. -/
def writeResult (now : Instant) (result : EvaluationResult) (next : Text) : Text :=
  .write (.result result.ticketId) (resultEffect now result) next

namespace TicketPatch

variable (p : TicketPatch) (ticketId : Uuid) (db : Db)

theorem ticket_effect (id : Uuid) :
  (p.effect ticketId db).ticket id
    = if id = ticketId then (db.ticket id).map p.set else db.ticket id
  := by
  unfold effect
  rw [Db.ticket_updateTickets]
  cases hticket : db.ticket id with
  | none => simp
  | some t =>
    obtain ⟨-, rfl⟩ := Db.ticket_eq_some.mp hticket
    by_cases hid : t.id = ticketId <;> simp [patch, hid]

@[simp]
theorem job_effect (jobId : Uuid) :
  (p.effect ticketId db).job jobId = db.job jobId
  := rfl

@[simp]
theorem jobs_effect :
  (p.effect ticketId db).jobs = db.jobs
  := rfl

theorem touches :
  rowLocks.Touches (.ticket ticketId) (p.effect ticketId)
  := by
  constructor
  · intro db key hkey
    cases key with
    | job jobId => rfl
    | result id => rfl
    | ticket id =>
      have hid : id ≠ ticketId := fun h => hkey (congrArg Row.ticket h)
      exact (p.ticket_effect ticketId db id).trans (if_neg hid)
  · intro _ db db' hrow
    change (p.effect ticketId db).ticket ticketId = (p.effect ticketId db').ticket ticketId
    change db.ticket ticketId = db'.ticket ticketId at hrow
    rw [ticket_effect, ticket_effect, hrow]

end TicketPatch

namespace JobPatch

variable (p : JobPatch) (jobId : Uuid) (db : Db)

theorem job_effect (id : Uuid) :
  (p.effect jobId db).job id = if id = jobId then (db.job id).map p.set else db.job id
  := by
  unfold effect
  rw [Db.job_updateJobs]
  cases hjob : db.job id with
  | none => simp
  | some j =>
    obtain ⟨-, rfl⟩ := Db.job_eq_some.mp hjob
    by_cases hid : j.id = jobId <;> simp [patch, hid]

@[simp]
theorem ticket_effect (ticketId : Uuid) :
  (p.effect jobId db).ticket ticketId = db.ticket ticketId
  := rfl

@[simp]
theorem tickets_effect :
  (p.effect jobId db).tickets = db.tickets
  := rfl

theorem touches :
  rowLocks.Touches (.job jobId) (p.effect jobId)
  := by
  constructor
  · intro db key hkey
    cases key with
    | ticket ticketId => rfl
    | result id => rfl
    | job id =>
      have hid : id ≠ jobId := fun h => hkey (congrArg Row.job h)
      exact (p.job_effect jobId db id).trans (if_neg hid)
  · intro _ db db' hrow
    change (p.effect jobId db).job jobId = (p.effect jobId db').job jobId
    change db.job jobId = db'.job jobId at hrow
    rw [job_effect, job_effect, hrow]

end JobPatch

/-! ### Upserts of results -/

section Result

variable (now : Instant) (result : EvaluationResult) (db : Db)

/-- An upsert of a result changes neither jobs nor tickets, and no other result. -/
theorem resultEffect_frame :
  (resultEffect now result db).jobs = db.jobs ∧ (resultEffect now result db).tickets = db.tickets
    ∧ ∀ ticketId, ticketId ≠ result.ticketId →
      (resultEffect now result db).resultOf ticketId = db.resultOf ticketId
  := by
  unfold resultEffect
  split
  case h_1 row db' hupsert =>
    have hup := ResultRepository.upsert_ok hupsert
    refine ⟨hup.jobs, hup.tickets, ?_⟩
    intro ticketId hne
    exact (hup.resultOf ticketId).trans (if_neg hne)
  case h_2 => exact ⟨rfl, rfl, fun _ _ => rfl⟩

@[simp]
theorem job_resultEffect (jobId : Uuid) :
  (resultEffect now result db).job jobId = db.job jobId
  := by rw [Db.job, Db.job, (resultEffect_frame now result db).1]

@[simp]
theorem ticket_resultEffect (ticketId : Uuid) :
  (resultEffect now result db).ticket ticketId = db.ticket ticketId
  := by rw [Db.ticket, Db.ticket, (resultEffect_frame now result db).2.1]

theorem touches_resultEffect :
  rowLocks.Touches (.result result.ticketId) (resultEffect now result)
  := by
  constructor
  · intro db key hkey
    cases key with
    | job jobId => exact job_resultEffect now result db jobId
    | ticket ticketId => exact ticket_resultEffect now result db ticketId
    | result ticketId =>
      apply (resultEffect_frame now result db).2.2
      exact fun h => hkey (congrArg Row.result h)
  · intro hcontained
    cases hcontained

end Result

end Evalorch
