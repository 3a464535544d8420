import Evalorch.Database
import Evalorch.Query.Paging
import Evalorch.Transact.Program
import Mathlib.Data.Prod.Lex

/-!
# The result repository

`upsert` writes the result of a ticket: a new row, or the old row of that ticket with every
column but its identifier and job replaced. The other functions read the results of a job.
-/

namespace Evalorch

open Transact

namespace ResultRepository

/-- The row `upsert` inserts. -/
def insertedRow (now : Instant) (result : EvaluationResult) : EvaluationResult :=
  { result with
    errorMessage := (result.errorMessage.filter (· != "")).map (truncated 4000)
    createdAt := now
    completedAt := some now }

/-- The row `upsert` writes over `old` on a conflict. -/
def replacedRow (now : Instant) (result old : EvaluationResult) : EvaluationResult :=
  { insertedRow now result with
    id := old.id
    jobId := old.jobId
    ticketId := old.ticketId
    createdAt := old.createdAt }

/-- `ResultRepository.upsert`. -/
def upsert (result : EvaluationResult) (db : Db) : Except Exn (EvaluationResult × Db) :=
  match db.resultOf result.ticketId with
  | some old =>
      .ok (replacedRow db.now result old,
        db.updateResults (·.ticketId = result.ticketId) (replacedRow db.now result))
  | none => do
      let db' ← db.insertResult (insertedRow db.now result)
      .ok (insertedRow db.now result, db')

/-- The effect of writing `result`: the row that is stored, and where. -/
structure Upserted (result row : EvaluationResult) (db db' : Db) : Prop where
  now : db'.now = db.now
  jobs : db'.jobs = db.jobs
  tickets : db'.tickets = db.tickets
  written :
    (∃ old, db.resultOf result.ticketId = some old ∧ row = replacedRow db.now result old)
      ∨ (db.resultOf result.ticketId = none ∧ row = insertedRow db.now result)
  resultOf : ∀ ticketId,
    db'.resultOf ticketId = if ticketId = result.ticketId then some row else db.resultOf ticketId

namespace Upserted

variable {result row : EvaluationResult} {db db' : Db}

/-- The stored row has the ticket and the status of the result. -/
theorem ticketId_status (h : Upserted result row db db') :
  row.ticketId = result.ticketId ∧ row.status = result.status
  := by
  obtain ⟨old, hold, rfl⟩ | ⟨-, rfl⟩ := h.written
  · exact ⟨(Db.resultOf_eq_some.mp hold).2, rfl⟩
  · exact ⟨rfl, rfl⟩

end Upserted

theorem insertResult_ok {db db' : Db} {r : EvaluationResult} (h : db.insertResult r = .ok db') :
  db'.now = db.now ∧ db'.jobs = db.jobs ∧ db'.tickets = db.tickets
    ∧ ∀ ticketId,
      db'.resultOf ticketId = if ticketId = r.ticketId then some r else db.resultOf ticketId
  := by
  unfold Db.insertResult at h
  split at h
  case isFalse => cases h
  case isTrue hkey =>
    split at h
    case isFalse => cases h
    case isTrue =>
      split at h
      case isFalse => cases h
      case isTrue =>
        split at h
        case isFalse => cases h
        case isTrue =>
          cases h
          use rfl, rfl, rfl
          apply Table.find_insert_singleton

/-- An upsert that returns stores the result under its ticket and changes nothing else. -/
theorem upsert_ok {result row : EvaluationResult} {db db' : Db}
    (h : upsert result db = .ok (row, db')) :
  Upserted result row db db'
  := by
  unfold upsert at h
  cases hold : db.resultOf result.ticketId with
  | some old =>
    rw [hold] at h
    cases h
    refine ⟨rfl, rfl, rfl, .inl ⟨old, hold, rfl⟩, fun ticketId => ?_⟩
    rw [Db.resultOf_updateResults]
    split
    case isTrue hid =>
      rw [hid, hold, Option.map_some, patch_of_pos]
      simpa using (Db.resultOf_eq_some.mp hold).2
    case isFalse hid =>
      cases hr : db.resultOf ticketId with
      | none => rfl
      | some r =>
        rw [Option.map_some, patch_of_neg]
        simpa [(Db.resultOf_eq_some.mp hr).2] using hid
  | none =>
    rw [hold] at h
    obtain ⟨db₁, hinsert, h⟩ := bind_eq_ok.mp h
    cases h
    obtain ⟨hnow, hjobs, htickets, hresult⟩ := insertResult_ok hinsert
    exact ⟨hnow, hjobs, htickets, .inr ⟨hold, rfl⟩, hresult⟩

/-- An upsert of a result whose ticket and job exist returns, when its identifier is new. -/
theorem exists_upsert (result : EvaluationResult) {db : Db} {t : EvaluationTicket}
    {j : EvaluationJob} (ht : db.ticket result.ticketId = some t)
    (hj : db.job result.jobId = some j) (hnew : ∀ r ∈ db.results.rows, r.id ≠ result.id) :
  ∃ row db', upsert result db = .ok (row, db')
  := by
  unfold upsert
  cases hold : db.resultOf result.ticketId with
  | some old => exact ⟨_, _, rfl⟩
  | none =>
    have hkey : ∀ r ∈ db.results.rows, r.ticketId ≠ (insertedRow db.now result).ticketId :=
      Table.find_eq_none.mp hold
    have hid : ∀ r ∈ db.results.rows, r.id ≠ (insertedRow db.now result).id := hnew
    have hjob : ∃ j' ∈ db.jobs.rows, j'.id = (insertedRow db.now result).jobId :=
      ⟨j, Db.job_eq_some.mp hj⟩
    have hticket : ∃ t' ∈ db.tickets.rows, t'.id = (insertedRow db.now result).ticketId :=
      ⟨t, Db.ticket_eq_some.mp ht⟩
    simp only [Db.insertResult]
    rw [dif_pos hkey, dif_pos hid, dif_pos hjob, dif_pos hticket]
    exact ⟨_, _, rfl⟩

/-- The conditions `list_by_job` may put on results besides the job. -/
structure Filters where
  status : Option ResultStatus
  checkId : Option String
  payloadId : Option Uuid
  sourcePayloadRef : Option String
  metricId : Option String

/-- A result meets the conditions. -/
def Filters.admits (f : Filters) (r : EvaluationResult) : Bool :=
  f.status.all (r.status = ·) && f.checkId.all (r.checkId = ·)
    && f.payloadId.all (r.payloadId = ·)
    && f.sourcePayloadRef.all (r.sourcePayloadRef = ·) && f.metricId.all (r.metricId = ·)

/-- `ResultRepository.list_by_job` up to order and paging: the results it counts and
pages through. -/
def listByJob (jobId : Uuid) (f : Filters) (db : Db) : List EvaluationResult :=
  db.results.rows.filter fun r => r.jobId = jobId && f.admits r

/-- The response of `list_by_job`: the total and a page. `arrange` is how the database orders the
rows that the query selects. -/
def listPage (arrange : List EvaluationResult → List EvaluationResult) (jobId : Uuid)
    (f : Filters) (limit offset : ℕ) (db : Db) : ℕ × List EvaluationResult :=
  ((listByJob jobId f db).length, Query.page limit offset (arrange (listByJob jobId f db)))

/-- `ORDER BY created_at, check_id`, with the collation of the database. -/
def listingKey {β : Type} (collate : String → β) (r : EvaluationResult) : Instant ×ₗ β :=
  toLex (r.createdAt, collate r.checkId)

/-- `ResultRepository.count_by_job`. -/
def countByJob (jobId : Uuid) (db : Db) : ℕ :=
  db.results.count fun r => r.jobId = jobId

/-- The counts of the overall row of `summary_by_job`. -/
structure Summary where
  totalResults : ℕ
  passed : ℕ
  failed : ℕ
  notApplicable : ℕ
  errored : ℕ
deriving DecidableEq

/-- `ResultRepository.summary_by_job`, its overall counts. -/
def summaryByJob (jobId : Uuid) (db : Db) : Summary :=
  let number (status : ResultStatus) : ℕ :=
    db.results.count fun r => r.jobId = jobId && r.status = status
  { totalResults := countByJob jobId db
    passed := number .passed
    failed := number .failed
    notApplicable := number .notApplicable
    errored := number .error }

end ResultRepository

end Evalorch
