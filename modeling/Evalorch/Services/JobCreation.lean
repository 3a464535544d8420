import Evalorch.Services.DatasetFolder
import Evalorch.Services.JobService
import Evalorch.Services.ProfileResolution

/-!
# Creating a job

`createJob` answers a create request in one transaction. A request whose key belongs to a job
replays that job. Any other request reads its dataset folder, validates every payload and
freezes the metrics of its agent, and then stores the job with one ticket for each payload and
metric.
-/

namespace Evalorch

open Transact

/-! ### Requests -/

/-- A create request. -/
structure CreateRequest where
  datasetId : String
  name : Option String
  priority : Option ℤ
  maxAttempts : Option ℤ
  idempotencyKey : Option String

/-- An optional number as a document. -/
def ofNumber : Option ℤ → Json
  | none => .null
  | some n => .int n

/-- The body that `_request_hash` digests. -/
def CreateRequest.body (request : CreateRequest) : Dict :=
  [("dataset_id", .str request.datasetId), ("max_attempts", ofNumber request.maxAttempts),
    ("name", .ofText request.name), ("priority", ofNumber request.priority)]

/-- The key of a request without surrounding white space, when it has one that is allowed. -/
def requireKey (settings : CreationSettings) (request : CreateRequest) :
    Except Exn (Option String) :=
  match request.idempotencyKey.map Python.strip with
  | none => .ok none
  | some key =>
    if key = "" then .error (.jobCreation "Idempotency-Key is empty" 400)
    else if settings.idempotencyKeyMaxLength < key.length then
      .error (.jobCreation "Idempotency-Key is too long" 400)
    else .ok (some key)

/-- What the creation of a job takes from outside: the interpreter, the identifiers of names,
`sha256` of a body, and the folders. -/
structure Surroundings where
  builtins : Builtins
  settings : CreationSettings
  identifiers : Identifiers
  digest : Dict → String
  files : Files

/-- What `uuid4` draws for a job: its identifier, and those of its payloads and tickets by their
positions. -/
structure Drawn where
  job : Uuid
  payload : ℕ → Uuid
  ticket : ℕ → ℕ → Uuid

/-! ### Results -/

/-- `JobCreationResult`; `byAgent` and `byStatus` make up `tickets_summary`. -/
structure JobCreationResult where
  job : EvaluationJob
  ticketCount : ℕ
  payloadCount : ℕ
  datasetId : String
  metricIds : List String
  profiles : List String
  warnings : List String
  byAgent : List (String × ℕ)
  byStatus : TicketCounts
  replayed : Bool

/-- `counts[key] += n`, of a `defaultdict(int)`. -/
def addCount (key : String) (n : ℕ) : List (String × ℕ) → List (String × ℕ)
  | [] => [(key, n)]
  | (k, m) :: rest => if k = key then (k, m + n) :: rest else (k, m) :: addCount key n rest

/-- A document that is an object, or the empty one. -/
def fieldsOf : Json → Dict
  | .dict fields => fields
  | _ => []

/-- A document that is an array, or the empty one. -/
def itemsOf : Json → List Json
  | .list items => items
  | _ => []

/-- A document that is text, unless it is empty. -/
def textOf : Json → Option String
  | .str text => if text = "" then none else some text
  | _ => none

/-- The metrics of an agent in a stored snapshot. -/
def snapshotMetrics (agent : Json) : List Json :=
  itemsOf ((fieldsOf agent).get "metrics")

/-- `_result_for_existing_job`. A stored snapshot has the shape that `create_job` gives it. -/
def resultForExistingJob (db : Db) (job : EvaluationJob) (storedHash : Option String)
    (requestHash : String) : Except Exn JobCreationResult :=
  if storedHash ≠ some requestHash then
    .error (.jobCreation "Idempotency-Key was already used for a different request" 409)
  else
    let agents := fieldsOf (job.configSnapshotJson.get "agents")
    let metrics := agents.flatMap fun agent => snapshotMetrics agent.2
    let agentIds := (itemsOf (job.configSnapshotJson.get "payloads")).filterMap fun payload =>
      textOf ((fieldsOf payload).get "agent_id")
    .ok {
      job := job
      ticketCount := job.totalTickets
      payloadCount := job.payloadCount
      datasetId := job.datasetId.getD ""
      metricIds := (metrics.filterMap fun metric =>
        textOf ((fieldsOf metric).get "metric_id")).eraseDups
      profiles := agents.map Prod.fst
      warnings := []
      byAgent := agentIds.foldl
        (fun counts agentId =>
          addCount agentId (snapshotMetrics (agents.get agentId)).length counts) []
      byStatus := TicketRepository.countsByStatus job.id db
      replayed := true }

/-! ### Preparing a job -/

/-- `_wrap` of the exceptions that a handler names, with their statuses. -/
def wrapping {α : Type} (handled : List (String × ℕ)) : Except Exn α → Except Exn α
  | .error (.builtin name message) =>
    match handled.lookup name with
    | some status => .error (.jobCreation message status)
    | none => .error (.builtin name message)
  | outcome => outcome

/-- The exceptions of reading a folder. -/
def folderErrors : List (String × ℕ) :=
  [("DatasetFolderError", 400), ("DatasetNotFoundError", 404), ("PayloadValidationError", 400)]

/-- The exceptions of preparing a payload. -/
def payloadErrors : List (String × ℕ) :=
  [("PayloadValidationError", 400), ("ProfileResolutionError", 400),
    ("ProfileNotFoundError", 404)]

/-- A payload with the metrics that evaluate it. -/
structure PreparedPayload where
  file : PayloadFile
  payloadId : Uuid
  agentId : String
  metrics : List FrozenMetric

/-- The loop over the payloads, when it is done. -/
structure Preparation where
  prepared : List PreparedPayload
  warnings : List String
  metricsByAgent : List (String × List FrozenMetric)

/-- The metrics of an agent, those known already when there are some. -/
def selectMetrics (e : Surroundings) (config : Dict)
    (known : List (String × List FrozenMetric)) (agentId source : String) :
    Except Exn (List FrozenMetric × List (String × List FrozenMetric)) :=
  match known.lookup agentId with
  | some metrics => .ok (metrics, known)
  | none => do
    let metrics ← metricsForAgent e.builtins e.settings e.identifiers config agentId source
    .ok (metrics, known ++ [(agentId, metrics)])

/-- The body of the loop over the payloads: the warnings, the agent and its metrics. -/
def preparePayload (e : Surroundings) (config : Dict)
    (known : List (String × List FrozenMetric)) (file : PayloadFile) :
    Except Exn (List String × String × List FrozenMetric × List (String × List FrozenMetric)) := do
  let report ← validatePayload e.builtins (.dict file.payload) none
  let agentId ← extractAgentId file.payload file.filename
  let selected ← selectMetrics e config known agentId file.filename
  .ok (report.warnings.map fun warning => file.filename ++ ": " ++ warning, agentId, selected)

/-- The loop over the payloads, from a position on. -/
def preparePayloads (e : Surroundings) (drawn : Drawn) (config : Dict) :
    ℕ → List (String × List FrozenMetric) → List PayloadFile → Except Exn Preparation
  | _, known, [] => .ok ⟨[], [], known⟩
  | i, known, file :: files => do
    let (warnings, agentId, metrics, known') ←
      wrapping payloadErrors (preparePayload e config known file)
    let rest ← preparePayloads e drawn config (i + 1) known' files
    .ok ⟨⟨file, drawn.payload i, agentId, metrics⟩ :: rest.prepared, warnings ++ rest.warnings,
      rest.metricsByAgent⟩

/-- A metric as the snapshot of the configuration lists it. -/
def listedMetric (e : Surroundings) (m : FrozenMetric) : Json :=
  .dict [("metric_record_id", .str (e.identifiers.uuidText m.metricRecordId)),
    ("metric_id", .str m.definition.checkId), ("metric_code", .str m.definition.checkId),
    ("metric_version_number", .int m.metricVersionNumber),
    ("check_id", .str m.definition.checkId)]

/-- The snapshot of the configuration that a job stores. -/
def snapshotDoc (e : Surroundings) (datasetId : String) (preparation : Preparation) : Dict :=
  [("dataset_id", .str datasetId),
    ("payloads", .list (preparation.prepared.map fun p => .dict
      [("file", .str p.file.filename), ("payload_id", .ofText p.file.payloadId),
        ("agent_id", .str p.agentId),
        ("synthetic_payload_id", .str (e.identifiers.uuidText p.payloadId))])),
    ("agents", .dict (preparation.metricsByAgent.map fun agent =>
      (agent.1, .dict [("metrics", .list (agent.2.map (listedMetric e)))])))]

/-- The ticket of a payload and a metric. -/
def preparedTicket (e : Surroundings) (request : CreateRequest) (ticketId : Uuid)
    (p : PreparedPayload) (m : FrozenMetric) : PreparedTicket where
  id := ticketId
  payloadId := p.payloadId
  sourcePayloadRef := p.file.filename
  sourcePayloadId := p.file.payloadId
  metricRecordId := m.metricRecordId
  metricId := m.definition.checkId
  metricVersionNumber := m.metricVersionNumber
  agentId := p.agentId
  metricSnapshotJson := m.asSnapshot e.identifiers
  checkId := m.definition.checkId
  checkType := m.definition.checkType
  evaluator := m.definition.evaluator
  priority := request.priority.getD m.definition.priority
  maxAttempts := m.definition.maxAttempts

/-- The numbers of a ticket are those that `create_job` reads from the snapshot. The definition in
it has both, so the defaults that they are read with are not used. -/
theorem preparedTicket_numbers (e : Surroundings) (request : CreateRequest) (ticketId : Uuid)
    (p : PreparedPayload) (m : FrozenMetric) (defaultPriority defaultAttempts : Json) :
  e.builtins.int ((m.definitionPayload.lookup "max_attempts").getD defaultAttempts)
      = .ok (preparedTicket e request ticketId p m).maxAttempts
    ∧ (match request.priority with
      | some priority => Except.ok priority
      | none => e.builtins.int ((m.definitionPayload.lookup "priority").getD defaultPriority))
      = .ok (preparedTicket e request ticketId p m).priority
  := by
  constructor
  · rfl
  · unfold preparedTicket
    cases request.priority <;> rfl

/-- The tickets of a payload. -/
def payloadTickets (e : Surroundings) (request : CreateRequest) (drawn : Drawn)
    (p : PreparedPayload × ℕ) : List PreparedTicket :=
  p.1.metrics.zipIdx.map fun m => preparedTicket e request (drawn.ticket p.2 m.2) p.1 m.1

/-- The job that is stored. -/
def preparedJob (e : Surroundings) (request : CreateRequest) (key : Option String)
    (drawn : Drawn) (preparation : Preparation) : PreparedJob where
  id := drawn.job
  name := request.name
  datasetId := request.datasetId
  configSnapshotJson := snapshotDoc e request.datasetId preparation
  payloadCount := preparation.prepared.length
  tickets := preparation.prepared.zipIdx.flatMap (payloadTickets e request drawn)
  idempotencyKey := key
  idempotencyRequestHash := key.map fun _ => e.digest request.body

/-- The part of `create_job` before it writes. -/
def prepareJob (e : Surroundings) (request : CreateRequest) (drawn : Drawn) :
    Except Exn (DatasetFolderContents × Preparation) := do
  let folder ← wrapping folderErrors (readDatasetFolder e.builtins e.files request.datasetId)
  let preparation ← preparePayloads e drawn folder.config 0 [] folder.payloads
  .ok (folder, preparation)

/-- What a job that was created is reported as. -/
def createdResult (request : CreateRequest) (folder : DatasetFolderContents)
    (preparation : Preparation) (p : PreparedJob) (job : EvaluationJob) : JobCreationResult where
  job := job
  ticketCount := p.tickets.length
  payloadCount := preparation.prepared.length
  datasetId := request.datasetId
  metricIds := (p.tickets.map PreparedTicket.metricId).eraseDups
  profiles := preparation.metricsByAgent.map Prod.fst
  warnings := folder.warnings ++ preparation.warnings
  byAgent := p.tickets.foldl (fun counts t => addCount t.agentId 1 counts) []
  byStatus := fun status => if status = .ready then p.tickets.length else 0
  replayed := false

/-- The part of `create_job` after no job was found for its key. -/
def createNewJob (e : Surroundings) (request : CreateRequest) (key : Option String)
    (drawn : Drawn) (db : Db) : Except Exn (JobCreationResult × Db) := do
  let (folder, preparation) ← prepareJob e request drawn
  let p := preparedJob e request key drawn preparation
  let (job, db') ← storeJob p db
  .ok (createdResult request folder preparation p job, db')

/-- `JobRepository.get_by_idempotency_key`. -/
def jobByKey (db : Db) (key : String) : Option EvaluationJob :=
  db.jobs.rows.find? fun job => job.idempotencyKey = some key

/-- `create_job`. -/
def createJob (e : Surroundings) (request : CreateRequest) (drawn : Drawn) (db : Db) :
    Except Exn (JobCreationResult × Db) := do
  let key ← requireKey e.settings request
  match key.bind (jobByKey db) with
  | some job => do
    let result ← resultForExistingJob db job job.idempotencyRequestHash (e.digest request.body)
    .ok (result, db)
  | none => createNewJob e request key drawn db

end Evalorch
