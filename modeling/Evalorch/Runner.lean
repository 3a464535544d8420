import Evalorch.Services.EvaluationService
import Evalorch.Services.JobService
import Evalorch.Services.RecoveryService
import Evalorch.Transact.Machine

/-!
# The running system

Any number of workers share a database. A `System` is the database together with the
executions of claimed tickets that have begun, each at some point of its program; an
execution that is never stepped again is one whose worker died. A `Label` says what happens
next: a request, a claim, a sweep, a heartbeat, one more transaction of an execution, or time
passing. `step` is total: a transaction that raises is rolled back.
-/

namespace Evalorch

open Transact

/-- The execution of a claimed ticket by a worker: the copy of the ticket that the claim
returned, and what is left to run. -/
structure Run where
  ticket : EvaluationTicket
  worker : Worker
  program : Execution TicketOutcome

/-- The database and the executions under way. -/
structure System where
  db : Db
  runs : List Run

/-- What happens next. -/
inductive Label where
  | createJob (job : PreparedJob)
  /-- `claim_once`: every claimed ticket begins to execute, with collaborators of its own. -/
  | claim (worker : Worker) (limit : Option ℕ) (leaseSeconds : Option ℤ) (jobId : Option Uuid)
      (locked : Uuid → Bool) (collaborators : Uuid → Collaborators)
  /-- An execution runs its next transaction, or the database fails it with an exception. -/
  | execute (index : ℕ) (failure : Option Exn)
  | heartbeat (ticketId : Uuid) (worker : Worker) (leaseSeconds : ℤ)
  | cancelJob (jobId : Uuid)
  | retryFailedTickets (jobId : Uuid)
  | recover (locked locked' : Uuid → Bool) (jitter : Uuid → Duration) (limit : Option ℕ)
  | reconcile
  | tick (now : Instant)

namespace System

/-- The system of a new installation. -/
def initial : System where
  db := .empty
  runs := []

/-- The execution that begins when a worker has claimed a ticket. -/
def begin (settings : Settings) (worker : Worker) (collaborators : Uuid → Collaborators)
    (ticket : EvaluationTicket) : Run where
  ticket := ticket
  worker := worker
  program := executeTicket settings (collaborators ticket.id) ticket (some worker.id)

/-- The state after a claim. -/
def claimed (settings : Settings) (s : System) (worker : Worker) (limit : Option ℕ)
    (leaseSeconds : Option ℤ) (jobId : Option Uuid) (locked : Uuid → Bool)
    (collaborators : Uuid → Collaborators) : System :=
  match claimTickets settings locked worker limit leaseSeconds jobId s.db with
  | .error _ => s
  | .ok (tickets, db) =>
      { db := db, runs := s.runs ++ tickets.map (begin settings worker collaborators) }

/-- The state after the execution at `index` took its next transaction. -/
def executed (s : System) (index : ℕ) (failure : Option Exn) : System :=
  match s.runs[index]? with
  | none => s
  | some r =>
      { db := (r.program.step failure s.db).2
        runs := s.runs.set index { r with program := (r.program.step failure s.db).1 } }

/-- One step of the system. -/
def step (settings : Settings) (s : System) : Label → System
  | .createJob job => { s with db := committed (storeJob job s.db) s.db }
  | .claim worker limit leaseSeconds jobId locked collaborators =>
      s.claimed settings worker limit leaseSeconds jobId locked collaborators
  | .execute index failure => s.executed index failure
  | .heartbeat ticketId worker leaseSeconds =>
      { s with db := committed (heartbeatTicket ticketId worker.id leaseSeconds s.db) s.db }
  | .cancelJob jobId => { s with db := committed (Evalorch.cancelJob jobId s.db) s.db }
  | .retryFailedTickets jobId =>
      { s with db := committed (Evalorch.retryFailedTickets jobId s.db) s.db }
  | .recover locked locked' jitter limit =>
      { s with db := (recoverAbandonedTickets settings locked locked' jitter limit s.db).2 }
  | .reconcile => { s with db := (reconcileActiveJobs s.db).2 }
  | .tick now => { s with db := s.db.tick now }

/-- The state after a run of the system from a new installation. -/
def after (settings : Settings) (labels : List Label) : System :=
  Transact.run (step settings) initial labels

theorem after_append (settings : Settings) (labels more : List Label) :
  after settings (labels ++ more) = Transact.run (step settings) (after settings labels) more
  := run_append initial labels more

theorem after_concat (settings : Settings) (labels : List Label) (l : Label) :
  after settings (labels ++ [l]) = (after settings labels).step settings l
  := after_append settings labels [l]

end System

/-! ### A small installation -/

namespace Demo

/-- A worker. -/
def worker : Worker where
  id := "runner:a"
  nonempty := by decide

/-- A second worker. -/
def otherWorker : Worker where
  id := "runner:b"
  nonempty := by decide

/-- A ticket that may be attempted twice. -/
def ticket : PreparedTicket where
  id := 10
  payloadId := 20
  sourcePayloadRef := "payload.json"
  sourcePayloadId := none
  metricRecordId := 30
  metricId := "metric"
  metricVersionNumber := 1
  agentId := "agent"
  metricSnapshotJson := [("check_id", .str "check"), ("evaluator", .str "required_fields")]
  checkId := "check"
  checkType := .deterministic
  evaluator := "required_fields"
  priority := 0
  maxAttempts := 2

/-- A job with that ticket. -/
def job : PreparedJob where
  id := 1
  name := none
  datasetId := "dataset"
  configSnapshotJson := []
  payloadCount := 1
  tickets := [ticket]
  idempotencyKey := none
  idempotencyRequestHash := none

/-- Collaborators that resolve nothing and evaluate to a given result. -/
def collaborators (result : Except Exn EvaluatorOutput) : Collaborators where
  loadSourcePayload _ _ := .ok []
  metricSpanNames _ := .ok []
  scopePayloadToSpans payload _ := .ok payload
  resolveInputMapping _ _ := .ok ⟨[], [], [], []⟩
  applies _ _ _ := .ok (true, "")
  getEvaluator _ := .ok ⟨"required_fields", "1.0.0", fun _ _ _ => result⟩
  elapsedMs := .finite 1
  uniform low _ := low
  uuid4 attempt := 100 + attempt
  repr _ := ""

/-- The output of an evaluator that reaches a verdict with a status. -/
def output (status : ResultStatus) : EvaluatorOutput where
  status := status
  passed := none
  score := none
  explanation := ""
  evidence := []
  evaluatorType := ""
  evaluatorVersion := ""
  executionTimeMs := .finite 0
  errorCode := none
  errorMessage := none
  output := none

/-- A claim by a worker, of a ticket that will evaluate to a given result. -/
def claim (worker : Worker) (result : Except Exn EvaluatorOutput) : Label :=
  .claim worker none none none (fun _ => false) fun _ => collaborators result

/-- A recovery sweep. -/
def recover : Label :=
  .recover (fun _ => false) (fun _ => false) (fun _ => 0) none

end Demo

end Evalorch
