import Evalorch.Evaluators.Base
import Evalorch.Repositories.ResultRepository
import Evalorch.Services.ContextResolver
import Evalorch.Services.ProfileResolution
import Evalorch.Services.TicketService
import Evalorch.Transact.Program

/-!
# Execution of one ticket

`executeTicket` is a program of transactions: it loads the ticket's metric, evaluates it
outside any transaction, and persists the outcome. The evaluation is a function of what was
loaded (`resolveMetric`, then `judgeMetric`), with everything it calls outside the database
given by `Collaborators`; it ends in a `Verdict`, the arguments of `_persist`, or in an
exception. Exceptions go through the three handlers of `exceptHandlers`.
-/

namespace Evalorch

open Transact

/-- What `execute_ticket` calls outside the database. Any of them may raise. -/
structure Collaborators where
  loadSourcePayload : String → String → Except Exn Dict
  metricSpanNames : Dict → Except Exn (List String)
  scopePayloadToSpans : Dict → List String → Except Exn Dict
  resolveInputMapping : Dict → Json → Except Exn ResolvedInput
  applies : Dict → ResolvedInput → Dict → Except Exn (Bool × String)
  getEvaluator : Json → Except Exn Evaluator
  /-- The milliseconds the evaluation took. -/
  elapsedMs : Float64
  /-- `random.uniform`. -/
  uniform : ℚ → ℚ → ℚ
  /-- The identifier `uuid.uuid4` yields in each attempt to persist. -/
  uuid4 : ℕ → Uuid
  /-- `repr`. -/
  repr : Json → String

/-- `TicketOutcome`. -/
structure TicketOutcome where
  ticketId : Uuid
  status : TicketStatus
  resultId : Option Uuid
  resultStatus : Option ResultStatus
  errorCode : Option String
  errorMessage : Option String
  retryInSeconds : Option ℚ

/-- What a transaction of an execution is there for. -/
inductive Tag where
  /-- The transaction that loads job and ticket. -/
  | load
  /-- `_persist_once`. -/
  | persist (target : TicketStatus)
  /-- The settlement of the `JobCancelled` handler. -/
  | settleCancelled
  /-- The retry of `_handle_failure`. -/
  | retryTransient
deriving DecidableEq

/-- A program of transactions on the database. -/
abbrev Execution (α : Type) : Type := Program Db Tag Exn α

/-! ### Evaluation -/

/-- The arguments of `_persist` besides the ticket, the resolution and the worker. -/
structure Verdict where
  output : EvaluatorOutput
  target : TicketStatus
  errorCode : Option String
  errorMessage : Option String
  delaySeconds : Option ℚ

/-- `OnMissingContext(value)`. -/
def onMissingContext (c : Collaborators) (value : Json) : Except Exn OnMissingContext :=
  match value with
  | .str "not_applicable" => .ok .notApplicable
  | .str "fail" => .ok .fail
  | value => .error (.value (c.repr value ++ " is not a valid OnMissingContext"))

/-- `metric.get("on_missing_context") or settings.default_on_missing_context`, as a
policy. -/
def missingContextPolicy (settings : Settings) (c : Collaborators) (metric : Dict) :
    Except Exn OnMissingContext :=
  if (metric.get "on_missing_context").truthy then
    onMissingContext c (metric.get "on_missing_context")
  else .ok settings.defaultOnMissingContext

/-- A metric with what was resolved for it. -/
structure ResolvedMetric where
  metric : Dict
  payload : Dict
  policy : OnMissingContext
  resolved : ResolvedInput

/-- The part of `execute_ticket` from the loaded snapshot to the resolved input. -/
def resolveMetric (settings : Settings) (c : Collaborators) (ticket : EvaluationTicket)
    (job : EvaluationJob) (snapshot : Dict) : Except Exn ResolvedMetric :=
  match metricFromSnapshot snapshot with
  | none => .error (.permanentEvaluation
      s!"metric snapshot on ticket {ticket.id} is missing a check definition"
      "CHECK_NOT_IN_SNAPSHOT")
  | some metric => do
    let datasetId :=
      if ticket.sourceDatasetId = "" then job.datasetId.getD "" else ticket.sourceDatasetId
    let document ← c.loadSourcePayload datasetId ticket.sourcePayloadRef
    let spanNames ← c.metricSpanNames metric
    let payload ← c.scopePayloadToSpans document spanNames
    let policy ← missingContextPolicy settings c metric
    let resolved ← c.resolveInputMapping payload (metric.get "input_mapping")
    .ok ⟨metric, payload, policy, resolved⟩

/-- `{"resolution": resolved.as_snapshot()} if resolved else {}`. -/
def resolutionEvidence (resolved : Option ResolvedInput) : Dict :=
  match resolved with
  | some resolved => [("resolution", .dict resolved.asSnapshot)]
  | none => []

/-- `_settle_not_applicable`, up to the call of `_persist`. -/
def settleNotApplicable (c : Collaborators) (r : ResolvedMetric) (explanation errorCode : String) :
    Except Exn Verdict := do
  let evaluator ← c.getEvaluator (← r.metric.item "evaluator")
  .ok {
    output := evaluator.notApplicable explanation (resolutionEvidence (some r.resolved)) errorCode
    target := .notApplicable
    errorCode := some errorCode
    errorMessage := some explanation
    delaySeconds := none }

/-- The message of a required context that is missing. -/
def contextUnavailable (resolved : ResolvedInput) : String :=
  "required context unavailable (" ++ ", ".intercalate resolved.errorCodes
    ++ ") for: " ++ ", ".intercalate resolved.missingRequired

/-- How `execute_ticket` settles what the evaluator returned. -/
def verdictOf (settings : Settings) (c : Collaborators) (ticket : EvaluationTicket)
    (output : EvaluatorOutput) : Verdict :=
  match output.status with
  | .error =>
      { output := output
        target := if ticket.attemptCount < ticket.maxAttempts then .retry else .failed
        errorCode := orText output.errorCode (some "EVALUATOR_ERROR")
        errorMessage := orText output.errorMessage (some output.explanation)
        delaySeconds :=
          if ticket.attemptCount < ticket.maxAttempts then
            some (settings.backoffForAttempt c.uniform ticket.attemptCount)
          else none }
  | .notApplicable =>
      { output := output
        target := .notApplicable
        errorCode := orText output.errorCode (some "NOT_APPLICABLE")
        errorMessage := some output.explanation
        delaySeconds := none }
  | .passed | .failed =>
      { output := output
        target := .done
        errorCode := none
        errorMessage := none
        delaySeconds := none }

/-- The part of `execute_ticket` from the resolved input to the call of `_persist`. -/
def judgeMetric (settings : Settings) (c : Collaborators) (ticket : EvaluationTicket)
    (owner : Option String) (snapshot : Dict) (r : ResolvedMetric) : Except Exn Verdict := do
  let (applicable, reason) ← c.applies r.metric r.resolved r.payload
  if !applicable then settleNotApplicable c r reason "NOT_APPLICABLE"
  else if !r.resolved.ok then
    match r.policy with
    | .notApplicable =>
        settleNotApplicable c r (contextUnavailable r.resolved) "MISSING_CONTEXT"
    | .fail => .error (.missingContext (contextUnavailable r.resolved))
  else
    let evaluator ← c.getEvaluator (← r.metric.item "evaluator")
    let output ← evaluator.run c.elapsedMs r.resolved.values r.metric {
      jobId := ticket.jobId
      ticketId := ticket.id
      payloadId := ticket.payloadId
      checkId := ticket.checkId
      checkType := ticket.checkType
      attempt := ticket.attemptCount
      maxAttempts := ticket.maxAttempts
      workerId := owner
      configSnapshot := snapshot }
    .ok (verdictOf settings c ticket output)

/-! ### Persisting -/

/-- `_stale_outcome`. -/
def staleOutcome (ticket : EvaluationTicket) : TicketOutcome where
  ticketId := ticket.id
  status := .running
  resultId := none
  resultStatus := none
  errorCode := some "STALE_WORKER"
  errorMessage := some "ticket is no longer owned by this worker"
  retryInSeconds := none

/-- The outcome of a ticket that is cancelled. -/
def cancelledOutcome (ticket : EvaluationTicket) : TicketOutcome where
  ticketId := ticket.id
  status := .cancelled
  resultId := none
  resultStatus := none
  errorCode := some "CANCELLED"
  errorMessage := none
  retryInSeconds := none

/-- The outcome of a ticket that no longer exists. -/
def goneOutcome (ticket : EvaluationTicket) (message : Option String) : TicketOutcome where
  ticketId := ticket.id
  status := .failed
  resultId := none
  resultStatus := none
  errorCode := some "TICKET_GONE"
  errorMessage := message
  retryInSeconds := none

/-- A settlement that gives only an error code and a message. -/
def withError (errorCode errorMessage : String) : Settlement :=
  { Settlement.none with errorCode := some errorCode, errorMessage := some errorMessage }

/-- The targets that `_persist_once` writes a result for. -/
def recordsResult (target : TicketStatus) : Bool :=
  target = .done || target = .notApplicable || target = .failed

/-- The result `_persist_once` writes; the database fills in its times. -/
def resultRow (id : Uuid) (ticket : EvaluationTicket) (v : Verdict) (snapshot : Option Dict)
    (now : Instant) : EvaluationResult where
  id := id
  jobId := ticket.jobId
  ticketId := ticket.id
  payloadId := ticket.payloadId
  sourcePayloadRef := ticket.sourcePayloadRef
  metricRecordId := ticket.metricRecordId
  metricId := ticket.metricId
  metricVersionNumber := ticket.metricVersionNumber
  checkId := ticket.checkId
  checkType := ticket.checkType
  evaluatorType :=
    if v.output.evaluatorType = "" then ticket.evaluator else v.output.evaluatorType
  evaluatorVersion := v.output.evaluatorVersion
  status := v.output.status
  passed := v.output.passed
  score := v.output.score
  explanation := v.output.explanation
  evidenceJson := if v.output.evidence.isEmpty then none else some v.output.evidence
  inputSnapshotJson := snapshot
  outputJson := v.output.asOutputJson
  errorCode := orText v.output.errorCode v.errorCode
  errorMessage := orText v.output.errorMessage v.errorMessage
  executionTimeMs := v.output.executionTimeMs
  attemptCount := ticket.attemptCount
  createdAt := now
  completedAt := none

/-- The result upsert of `_persist_once`: the identifier it returns, if the target has a
result. -/
def recordResult (id : Uuid) (ticket : EvaluationTicket) (v : Verdict) (snapshot : Option Dict)
    (db : Db) : Except Exn (Option Uuid × Db) :=
  if recordsResult v.target then do
    let (result, db') ← ResultRepository.upsert (resultRow id ticket v snapshot db.now) db
    .ok (some result.id, db')
  else .ok (none, db)

/-- `_persist_once`; `id` is the identifier it draws. -/
def persistOnce (id : Uuid) (ticket : EvaluationTicket) (v : Verdict) (snapshot : Option Dict)
    (workerId : Option String) (db : Db) : Except Exn (TicketOutcome × Db) :=
  match db.ticket ticket.id with
  | none => .ok (goneOutcome ticket (some "ticket no longer exists"), db)
  | some _ =>
    let cancelled := (JobRepository.getCancellationState ticket.jobId db).any Prod.snd
    if cancelled && v.target ≠ .cancelled then do
      let (_, db') ← settleTicket ticket.id .cancelled
        (withError "CANCELLED" "job cancelled while ticket was running")
        (some ticket.jobId) workerId db
      .ok (cancelledOutcome ticket, db')
    else do
      let (resultId, db') ← recordResult id ticket v snapshot db
      let (_, db'') ← settleTicket ticket.id v.target {
        resultId := resultId
        errorCode := v.errorCode
        errorMessage := v.errorMessage
        delaySeconds := v.delaySeconds
        inputSnapshot := snapshot } (some ticket.jobId) workerId db'
      .ok ({
        ticketId := ticket.id
        status := v.target
        resultId := resultId
        resultStatus := some v.output.status
        errorCode := orText v.errorCode v.output.errorCode
        errorMessage := orText v.errorMessage v.output.errorMessage
        retryInSeconds := v.delaySeconds }, db'')

/-- The errors `_persist` tries again after: `is_postgres_deadlock` on the errors that
`_persist` catches. -/
def isPostgresDeadlock : Exn → Bool
  | .operational _ deadlock => deadlock
  | .deadlockDetected _ => true
  | _ => false

/-- The loop of `_persist`: `n` attempts are left, `attempt` have been made, and `last` is
the deadlock the last one ended in. -/
def persistLoop (once : ℕ → Execution TicketOutcome) (stale : TicketOutcome) :
    ℕ → ℕ → Exn → Execution TicketOutcome
  | 0, _, last => .done (.error last)
  | n + 1, attempt, _ => (once attempt).attempt fun
      | .ok outcome => .done (.ok outcome)
      | .error (.staleWorker _) => .done (.ok stale)
      | .error e =>
          if isPostgresDeadlock e then persistLoop once stale n (attempt + 1) e
          else .done (.error e)

/-- `_persist`; `drawn` attempts have been made before. -/
def persist (settings : Settings) (c : Collaborators) (drawn : ℕ) (ticket : EvaluationTicket)
    (v : Verdict) (resolved : Option ResolvedInput) (workerId : Option String) :
    Execution TicketOutcome :=
  let snapshot := resolved.map ResolvedInput.asSnapshot
  persistLoop
    (fun attempt => Program.atomically (.persist v.target)
      (persistOnce (c.uuid4 (drawn + attempt)) ticket v snapshot workerId))
    (staleOutcome ticket) settings.persistDeadlockMaxRetries 0 (.other "AssertionError" "")

/-! ### Failures -/

/-- The settlements outside `_persist`: a transaction that settles the ticket without a
result, or finds it gone. -/
def settleOnly (ticket : EvaluationTicket) (target : TicketStatus) (s : Settlement)
    (workerId : Option String) (outcome : TicketOutcome) (db : Db) :
    Except Exn (TicketOutcome × Db) :=
  match db.ticket ticket.id with
  | none => .ok (goneOutcome ticket none, db)
  | some _ => do
    let (_, db') ← settleTicket ticket.id target s (some ticket.jobId) workerId db
    .ok (outcome, db')

/-- A transaction whose `StaleWorkerError` is turned into the stale outcome. -/
def orStale (ticket : EvaluationTicket) (p : Execution TicketOutcome) : Execution TicketOutcome :=
  p.attempt fun
    | .error (.staleWorker _) => .done (.ok (staleOutcome ticket))
    | outcome => .done outcome

/-- The settlement of the `JobCancelled` handler. -/
def settleJobCancelled (ticket : EvaluationTicket) (owner : Option String) :
    Execution TicketOutcome :=
  orStale ticket (Program.atomically .settleCancelled
    (settleOnly ticket .cancelled (withError "CANCELLED" "job cancellation requested") owner
      (cancelledOutcome ticket)))

/-- The output a failure is recorded with. -/
def failureOutput (ticket : EvaluationTicket) (resolved : Option ResolvedInput)
    (status : ResultStatus) (passed : Option Bool) (score : Option Float64)
    (code message : String) : EvaluatorOutput where
  status := status
  passed := passed
  score := score
  explanation := message
  evidence := resolutionEvidence resolved
  evaluatorType := ticket.evaluator
  evaluatorVersion := ""
  executionTimeMs := .finite 0
  errorCode := some code
  errorMessage := some message
  output := none

/-- How `_handle_failure` records a failure that is not retried. -/
def failureVerdict (ticket : EvaluationTicket) (resolved : Option ResolvedInput) (exc : Exn) :
    Verdict :=
  let message := truncated 2000 exc.text
  let code :=
    if classifyError exc = .transient then "TRANSIENT_ATTEMPTS_EXHAUSTED"
    else errorCodeFor exc
  { output :=
      if classifyError exc = .missingContext then
        failureOutput ticket resolved .failed (some false) (some (.finite 0)) code message
      else failureOutput ticket resolved .error none none code message
    target := .failed
    errorCode := some code
    errorMessage := some message
    delaySeconds := none }

/-- `_handle_failure`. -/
def handleFailure (settings : Settings) (c : Collaborators) (drawn : ℕ)
    (ticket : EvaluationTicket) (exc : Exn) (resolved : Option ResolvedInput)
    (workerId : Option String) : Execution TicketOutcome :=
  if classifyError exc = .transient ∧ ticket.attemptCount < ticket.maxAttempts then
    let code := errorCodeFor exc
    let message := truncated 2000 exc.text
    let delay := settings.backoffForAttempt c.uniform ticket.attemptCount
    orStale ticket (Program.atomically .retryTransient
      (settleOnly ticket .retry
        { withError code message with delaySeconds := some delay } workerId {
          ticketId := ticket.id
          status := .retry
          resultId := none
          resultStatus := none
          errorCode := some code
          errorMessage := some message
          retryInSeconds := some delay }))
  else persist settings c drawn ticket (failureVerdict ticket resolved exc) resolved workerId

/-- The `except` clauses of `execute_ticket`. -/
def exceptHandlers (settings : Settings) (c : Collaborators) (drawn : ℕ)
    (ticket : EvaluationTicket) (resolved : Option ResolvedInput) (owner : Option String) :
    Exn → Execution TicketOutcome
  | .jobCancelled => settleJobCancelled ticket owner
  | .staleWorker _ => .done (.ok (staleOutcome ticket))
  | exc => handleFailure settings c drawn ticket exc resolved owner

/-! ### Executing -/

/-- The loading transaction of `execute_ticket`: the job and the metric snapshot. -/
def loadState (ticket : EvaluationTicket) (db : Db) : Except Exn ((EvaluationJob × Dict) × Db) :=
  match db.job ticket.jobId with
  | none => .error (.permanentEvaluation s!"job {ticket.jobId} disappeared" "JOB_MISSING")
  | some job =>
    if job.cancellationRequestedAt.isSome || job.status = .cancelled then
      .error .jobCancelled
    else
      let stored := (db.ticket ticket.id).map EvaluationTicket.metricSnapshotJson
      .ok ((job, (stored.filter (!·.isEmpty)).getD ticket.metricSnapshotJson), db)

/-- `execute_ticket` after the loading transaction. -/
def evaluateAndPersist (settings : Settings) (c : Collaborators) (ticket : EvaluationTicket)
    (owner : Option String) (job : EvaluationJob) (snapshot : Dict) : Execution TicketOutcome :=
  match resolveMetric settings c ticket job snapshot with
  | .error e => exceptHandlers settings c 0 ticket none owner e
  | .ok r =>
    match judgeMetric settings c ticket owner snapshot r with
    | .error e => exceptHandlers settings c 0 ticket (some r.resolved) owner e
    | .ok v => (persist settings c 0 ticket v (some r.resolved) owner).handle
        (exceptHandlers settings c settings.persistDeadlockMaxRetries ticket (some r.resolved)
          owner)

/-- `execute_ticket`. -/
def executeTicket (settings : Settings) (c : Collaborators) (ticket : EvaluationTicket)
    (workerId : Option String) : Execution TicketOutcome :=
  let owner := orText workerId ticket.workerId
  (Program.atomically .load (loadState ticket)).attempt fun
    | .ok (job, snapshot) => evaluateAndPersist settings c ticket owner job snapshot
    | .error e => exceptHandlers settings c 0 ticket none owner e

end Evalorch
