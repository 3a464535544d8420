import Evalorch.Evaluators.Base
import Evalorch.Query.Groups
import Evalorch.Repositories.JobRepository
import Evalorch.Repositories.ResultRepository

/-!
# What a job reports

`jobStatusPayload` counts the tickets of a job again, where its row has counters. The summary of
the results of a job has a pass rate, and a row for each check.
-/

namespace Evalorch

open Evaluator

/-- The return value of `job_status_payload`. -/
structure JobStatusPayload where
  ticketCounts : TicketCounts
  terminalTickets : ℕ
  progressRatio : Float64

/-- `job_status_payload`. -/
def jobStatusPayload (job : EvaluationJob) (db : Db) : JobStatusPayload :=
  let counts := TicketRepository.countsByStatus job.id db
  let terminal := counts .done + counts .failed + counts .cancelled + counts .notApplicable
  let total := if job.totalTickets ≠ 0 then job.totalTickets else counts.total
  { ticketCounts := counts
    terminalTickets := terminal
    progressRatio := if total ≠ 0 then share terminal total else .finite 0 }

namespace ResultRepository

/-- The `pass_rate` of `summary_by_job`. -/
def Summary.passRate (s : Summary) : Option Float64 :=
  let scored := s.passed + s.failed
  if scored ≠ 0 then some (share s.passed scored) else none

/-- An entry of the `checks` of `summary_by_job`, without its average score. -/
structure CheckSummary where
  checkId : String
  checkType : CheckType
  total : ℕ
  passed : ℕ
  failed : ℕ
  notApplicable : ℕ
  errored : ℕ
deriving DecidableEq

/-- The `checks` of `summary_by_job`, up to their order. -/
def checksByJob (jobId : Uuid) (db : Db) : List CheckSummary :=
  let results := db.results.rows.filter fun r => r.jobId = jobId
  (Query.groups (fun r => (r.checkId, r.checkType)) results).map fun group =>
    { checkId := group.1.1
      checkType := group.1.2
      total := group.2.length
      passed := group.2.countP (·.status = .passed)
      failed := group.2.countP (·.status = .failed)
      notApplicable := group.2.countP (·.status = .notApplicable)
      errored := group.2.countP (·.status = .error) }

end ResultRepository

end Evalorch
