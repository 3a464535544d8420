import Evalorch.Lifecycle.Operations
import Evalorch.Python.Raising
import Evalorch.Services.JobCreation
import Mathlib.Data.List.ProdSigma
import Mathlib.Data.Nat.Pairing

/-!
# The fan-out of a job

A job that is created has one ticket for each payload file of its dataset folder and each
enabled metric of the configuration, and they are told apart by the file and the record of the
metric. Everything is validated before the first row is written, so an invalid payload or metric
leaves the database as it was.
-/

namespace Evalorch

open Python Transact

variable {e : Surroundings} {request : CreateRequest} {drawn : Drawn}

/-! ### Valid folders -/

/-- The entry holds a payload that satisfies the contract and names the agent. -/
def ValidPayload (e : Surroundings) (agentId : String) (entry : Entry) : Prop :=
  ∃ document, readJsonObject entry = .ok document
    ∧ Returns (validatePayload e.builtins (.dict document) none)
    ∧ extractAgentId document entry.name = .ok agentId

/-- The metrics that a configuration lists are objects, and those that are enabled can each be
frozen and have distinct identifiers. -/
structure ValidMetrics (e : Surroundings) (agentId : String) (metrics : List Json) : Prop where
  objects : ∀ entry ∈ metrics, (coerceObject entry).isSome
  each : ∀ metric ∈ enabledMetrics metrics, ∃ m,
    Freezes e.builtins e.settings e.identifiers agentId metric m
  distinct : ((enabledMetrics metrics).map fun metric =>
    strippedField e.builtins metric "metricId").Nodup

/-- The configuration of a folder lists valid metrics for an agent, and each payload of the
folder is a valid one of that agent. -/
def ValidFolder (e : Surroundings) (entries : List Entry) : Prop :=
  ∃ config document agentId metrics, configEntry entries = some config
    ∧ readJsonObject config = .ok document ∧ document.get "agentId" = .str agentId
    ∧ document.get "metrics" = .list metrics ∧ ValidMetrics e (strip agentId) metrics
    ∧ ∀ entry ∈ entries, isPayload e.builtins entry = true → ValidPayload e (strip agentId) entry

/-- The tickets of a job are one for each payload of a folder and each frozen metric. -/
structure FansOut (e : Surroundings) (payloads : List PayloadFile) (agentId : String)
    (frozen : List FrozenMetric) (job : EvaluationJob) (tickets : List EvaluationTicket) :
    Prop where
  agents : ∀ file ∈ payloads, extractAgentId file.payload file.filename = .ok agentId
  pairs : tickets.map (fun t =>
      (t.sourcePayloadRef, t.agentId, t.metricRecordId, t.metricSnapshotJson))
    = payloads.flatMap fun file => frozen.map fun m =>
        (file.filename, agentId, m.metricRecordId, m.asSnapshot e.identifiers)
  ready : ∀ t ∈ tickets, t.jobId = job.id ∧ t.status = .ready ∧ t.attemptCount = 0
  distinct : (tickets.map fun t => (t.sourcePayloadRef, t.metricRecordId)).Nodup
  count : tickets.length = payloads.length * frozen.length
  payloadCount : job.payloadCount = payloads.length
  totalTickets : job.totalTickets = tickets.length

/-- The names that the records of the metrics of a configuration are hashed from. -/
def recordNames (e : Surroundings) (config : Dict) : Set String :=
  {name | ∃ agentId source frozen m,
    metricsForAgent e.builtins e.settings e.identifiers config agentId source = .ok frozen
      ∧ m ∈ frozen ∧ name = metricRecordName (strip agentId) m.definition.checkId}

/-! ### Preparing -/

/-- A handler lets through what returns. -/
theorem wrapping_eq_ok {α : Type} {handled : List (String × ℕ)} {outcome : Except Exn α} {a : α} :
  wrapping handled outcome = .ok a ↔ outcome = .ok a
  := by
  unfold wrapping
  split
  · split <;> simp
  · rfl

/-- The agent of a payload is named without surrounding white space. -/
theorem strip_extractAgentId {payload : Dict} {source agentId : String}
    (h : extractAgentId payload source = .ok agentId) :
  strip agentId = agentId
  := by
  unfold extractAgentId at h
  split at h
  · cases h
  · split at h
    · cases h
    · split at h
      · cases h
      · cases h
        apply strip_strip
    · cases h
  · cases h

/-- What is known of a payload that is prepared. -/
structure PreparedFrom (e : Surroundings) (known : List (String × List FrozenMetric))
    (p : PreparedPayload) : Prop where
  valid : Returns (validatePayload e.builtins (.dict p.file.payload) none)
  agent : extractAgentId p.file.payload p.file.filename = .ok p.agentId
  metrics : known.lookup p.agentId = some p.metrics

/-- The metrics that are known of an agent are those that the configuration lists for it. -/
def KnownMetrics (e : Surroundings) (config : Dict) (known : List (String × List FrozenMetric)) :
    Prop :=
  ∀ agentId frozen, known.lookup agentId = some frozen → ∃ source,
    metricsForAgent e.builtins e.settings e.identifiers config agentId source = .ok frozen

/-- What is known of an agent stays known. -/
def Extends (known known' : List (String × List FrozenMetric)) : Prop :=
  ∀ agentId frozen, known.lookup agentId = some frozen → known'.lookup agentId = some frozen

/-- The metrics of an agent are looked up, or added to those that are known. -/
theorem selectMetrics_ok {config : Dict} {known known' : List (String × List FrozenMetric)}
    {agentId source : String} {frozen : List FrozenMetric} (hknown : KnownMetrics e config known)
    (h : selectMetrics e config known agentId source = .ok (frozen, known')) :
  known'.lookup agentId = some frozen ∧ KnownMetrics e config known' ∧ Extends known known'
  := by
  unfold selectMetrics at h
  split at h
  case h_1 metrics hmetrics =>
    cases h
    exact ⟨hmetrics, hknown, fun _ _ h => h⟩
  case h_2 hnone =>
    obtain ⟨metrics, hmetrics, h⟩ := bind_eq_ok.mp h
    cases h
    have hlookup : ∀ other, (known ++ [(agentId, frozen)]).lookup other
        = (known.lookup other).or (if other = agentId then some frozen else none) := by
      intro other
      rw [List.lookup_append]
      by_cases heq : other = agentId
      · simp [heq]
      · simp [List.lookup_cons, heq, beq_eq_false_iff_ne.mpr heq]
    refine ⟨by simp [hlookup, hnone], ?_, ?_⟩
    · intro other frozen' hother
      rw [hlookup, Option.or_eq_some_iff] at hother
      rcases hother with hother | ⟨-, hother⟩
      · apply hknown other frozen' hother
      · split at hother
        case isTrue heq =>
          cases hother
          subst heq
          exact ⟨source, hmetrics⟩
        case isFalse => cases hother
    · intro other frozen' hother
      simp [hlookup, hother]

/-- The loop over the payloads prepares each file, with the metrics of its agent. -/
theorem preparePayloads_ok {config : Dict} {i : ℕ} {known : List (String × List FrozenMetric)}
    {files : List PayloadFile} {preparation : Preparation} (hknown : KnownMetrics e config known)
    (h : preparePayloads e drawn config i known files = .ok preparation) :
  preparation.prepared.map PreparedPayload.file = files
    ∧ (∀ p ∈ preparation.prepared, PreparedFrom e preparation.metricsByAgent p)
    ∧ KnownMetrics e config preparation.metricsByAgent
    ∧ Extends known preparation.metricsByAgent
  := by
  induction files generalizing i known preparation with
  | nil =>
    cases h
    exact ⟨rfl, by simp, hknown, fun _ _ h => h⟩
  | cons file files ih =>
    obtain ⟨⟨warnings, agentId, frozen, known'⟩, hfile, h⟩ := bind_eq_ok.mp h
    obtain ⟨rest, hrest, h⟩ := bind_eq_ok.mp h
    cases h
    obtain ⟨report, hreport, hfile⟩ := bind_eq_ok.mp (wrapping_eq_ok.mp hfile)
    obtain ⟨agentId', hagent, hfile⟩ := bind_eq_ok.mp hfile
    obtain ⟨⟨frozen', known''⟩, hselected, hfile⟩ := bind_eq_ok.mp hfile
    cases hfile
    obtain ⟨hlookup, hknown', hextends⟩ := selectMetrics_ok hknown hselected
    obtain ⟨hfiles, hprepared, hall, hkept⟩ := ih hknown' hrest
    refine ⟨by simp [hfiles], ?_, hall, ?_⟩
    · rw [List.forall_mem_cons]
      exact ⟨⟨⟨report, hreport⟩, hagent, hkept _ _ hlookup⟩, hprepared⟩
    · intro other frozen' hother
      apply hkept _ _ (hextends _ _ hother)

/-! ### The tickets -/

/-- What tickets say of their payload and their metric, payload by payload. -/
theorem map_preparedTickets {α : Type} {f : PreparedTicket → α}
    {g : PreparedPayload → FrozenMetric → α}
    (h : ∀ ticketId p m, f (preparedTicket e request ticketId p m) = g p m)
    (key : Option String) (preparation : Preparation) :
  (preparedJob e request key drawn preparation).tickets.map f
    = preparation.prepared.flatMap fun p => p.metrics.map (g p)
  := by
  have hpayload : ∀ p : PreparedPayload × ℕ,
      (payloadTickets e request drawn p).map f = p.1.metrics.map (g p.1) := by
    intro p
    calc (payloadTickets e request drawn p).map f
        = p.1.metrics.zipIdx.map (g p.1 ∘ Prod.fst) := by
          simp [payloadTickets, h, Function.comp_def]
      _ = p.1.metrics.map (g p.1) := by rw [← List.map_map, List.zipIdx_map_fst]
  calc (preparedJob e request key drawn preparation).tickets.map f
      = preparation.prepared.zipIdx.flatMap fun p => p.1.metrics.map (g p.1) := by
        simp only [preparedJob, List.map_flatMap, hpayload]
    _ = (preparation.prepared.zipIdx.map Prod.fst).flatMap fun p => p.metrics.map (g p) := by
        rw [List.flatMap_map]
    _ = _ := by rw [List.zipIdx_map_fst]

/-- The file and the record of each ticket are a row and a column of a table. -/
theorem flatMap_eq_product {files : List PreparedPayload} {frozen : List FrozenMetric}
    (h : ∀ p ∈ files, p.metrics = frozen) :
  (files.flatMap fun p => p.metrics.map fun m => (p.file.filename, m.metricRecordId))
    = (files.map fun p => p.file.filename) ×ˢ (frozen.map FrozenMetric.metricRecordId)
  := by
  change _ = List.product _ _
  unfold List.product
  rw [List.flatMap_map]
  apply List.flatMap_congr
  intro p hp
  simp [h p hp]

theorem metricRecordName_injective (agentId : String) :
  Function.Injective (metricRecordName agentId)
  := by
  intro checkId checkId' h
  unfold metricRecordName at h
  exact (String.append_right_inj _).mp h

/-- Two metrics of a configuration have different records. -/
theorem nodup_metricRecordId {config : Dict} {agentId source : String}
    {frozen : List FrozenMetric} (huuid : Set.InjOn e.identifiers.uuid5 (recordNames e config))
    (h : metricsForAgent e.builtins e.settings e.identifiers config agentId source
      = .ok frozen) :
  (frozen.map FrozenMetric.metricRecordId).Nodup
  := by
  obtain ⟨rawAgentId, metrics, -, -, -, hall, hnodup, -⟩ := metricsForAgent_ok h
  have hrecord : ∀ m ∈ frozen, m.metricRecordId
      = e.identifiers.uuid5 (metricRecordName (strip agentId) m.definition.checkId) := by
    intro m hm
    obtain ⟨metric, -, hconfigured⟩ := Python.exists_rel_of_forall₂ hall hm
    exact hconfigured.metricRecordId
  apply List.Nodup.map_on _ (List.Nodup.of_map _ hnodup)
  intro m hm m' hm' heq
  rw [hrecord m hm, hrecord m' hm'] at heq
  have hname := huuid ⟨agentId, source, frozen, m, h, hm, rfl⟩
    ⟨agentId, source, frozen, m', h, hm', rfl⟩ heq
  have hcheckId : m.definition.checkId = m'.definition.checkId :=
    metricRecordName_injective (strip agentId) hname
  exact List.inj_on_of_nodup_map hnodup hm hm' hcheckId

/-! ### The job -/

/-- What a job is prepared from: the entries of a folder, one file to each payload, and the
metrics that its configuration lists, frozen for the one agent of all payloads. -/
structure PreparedOf (e : Surroundings) (request : CreateRequest) (folder : DatasetFolderContents)
    (preparation : Preparation) (entries : List Entry) (config : Entry) (metrics : List Json)
    (agentId : String) (frozen : List FrozenMetric) : Prop where
  listed : resolveDatasetDir e.builtins e.files request.datasetId = .ok (.ok entries)
  files : List.Forall₂ (fun entry file => readPayload e.builtins entry = .ok file)
    (payloadEntries e.builtins entries) folder.payloads
  configured : configEntry entries = some config ∧ readJsonObject config = .ok folder.config
  agent : ∃ rawAgentId, folder.config.get "agentId" = .str rawAgentId ∧ strip rawAgentId = agentId
  listedMetrics : folder.config.get "metrics" = .list metrics
  configuredMetrics : List.Forall₂ (Configured e.builtins e.settings e.identifiers agentId [])
    (enabledMetrics metrics) frozen
  selected : ∃ source,
    metricsForAgent e.builtins e.settings e.identifiers folder.config agentId source = .ok frozen
  prepared : preparation.prepared.map PreparedPayload.file = folder.payloads
  payloads : ∀ p ∈ preparation.prepared,
    Returns (validatePayload e.builtins (.dict p.file.payload) none)
    ∧ extractAgentId p.file.payload p.file.filename = .ok agentId
    ∧ p.agentId = agentId ∧ p.metrics = frozen

theorem prepareJob_ok {folder : DatasetFolderContents} {preparation : Preparation}
    (h : prepareJob e request drawn = .ok (folder, preparation)) :
  ∃ entries config metrics agentId frozen,
    PreparedOf e request folder preparation entries config metrics agentId frozen
  := by
  obtain ⟨folder', hfolder, h⟩ := bind_eq_ok.mp h
  obtain ⟨preparation', hpreparation, h⟩ := bind_eq_ok.mp h
  cases h
  obtain ⟨entries, config, hentries, hpayloads, hne, hconfig, hdocument⟩ :=
    readDatasetFolder_ok (wrapping_eq_ok.mp hfolder)
  obtain ⟨hfiles, hprepared, hknown, -⟩ :=
    preparePayloads_ok (fun _ _ h => by cases h) hpreparation
  -- every payload belongs to the agent of the configuration
  have hagent : ∀ p ∈ preparation.prepared, ∃ rawAgentId metrics source,
      folder.config.get "agentId" = .str rawAgentId ∧ strip rawAgentId = p.agentId
        ∧ folder.config.get "metrics" = .list metrics
        ∧ List.Forall₂ (Configured e.builtins e.settings e.identifiers p.agentId [])
            (enabledMetrics metrics) p.metrics
        ∧ metricsForAgent e.builtins e.settings e.identifiers folder.config p.agentId source
            = .ok p.metrics := by
    intro p hp
    obtain ⟨source, hmetrics⟩ := hknown _ _ (hprepared p hp).metrics
    have hstrip := strip_extractAgentId (hprepared p hp).agent
    obtain ⟨rawAgentId, metrics, hraw, heq, hlist, hall, -, -⟩ := metricsForAgent_ok hmetrics
    rw [hstrip] at heq hall
    exact ⟨rawAgentId, metrics, source, hraw, heq, hlist, hall, hmetrics⟩
  have hsome : preparation.prepared ≠ [] := by
    rintro hnil
    rw [hnil] at hfiles
    exact hne hfiles.symm
  obtain ⟨p₀, hp₀⟩ := List.exists_mem_of_ne_nil _ hsome
  obtain ⟨rawAgentId, metrics, source, hraw, heq, hlist, hall, hmetrics⟩ := hagent p₀ hp₀
  refine ⟨entries, config, metrics, p₀.agentId, p₀.metrics, hentries, forall₂_of_mapM hpayloads,
    ⟨hconfig, hdocument⟩, ⟨rawAgentId, hraw, heq⟩, hlist, hall, ⟨source, hmetrics⟩, hfiles, ?_⟩
  intro p hp
  obtain ⟨rawAgentId', -, -, hraw', heq', -, -, -⟩ := hagent p hp
  rw [hraw, Json.str.injEq] at hraw'
  subst hraw'
  have hsame : p.agentId = p₀.agentId := heq'.symm.trans heq
  have hmetrics' := (hprepared p hp).metrics
  rw [hsame, (hprepared p₀ hp₀).metrics, Option.some.injEq] at hmetrics'
  refine ⟨(hprepared p hp).valid, ?_, hsame, hmetrics'.symm⟩
  rw [← hsame]
  apply (hprepared p hp).agent

/-- The names of the payload files of a folder are distinct when those of its entries are. -/
theorem nodup_filename {entries : List Entry} {payloads : List PayloadFile}
    (hnames : (entries.map Entry.name).Nodup)
    (hfiles : List.Forall₂ (fun entry file => readPayload e.builtins entry = .ok file)
      (payloadEntries e.builtins entries) payloads) :
  (payloads.map PayloadFile.filename).Nodup
  := by
  have hmap : payloads.map PayloadFile.filename
      = (payloadEntries e.builtins entries).map Entry.name := by
    generalize payloadEntries e.builtins entries = read at hfiles
    induction hfiles with
    | nil => rfl
    | cons hfile _ ih =>
      obtain ⟨document, -, hfile⟩ := bind_eq_ok.mp hfile
      cases hfile
      rw [List.map_cons, List.map_cons, ih]
  rw [hmap]
  apply List.Nodup.sublist ((List.filter_sublist).map Entry.name)
  exact ((List.perm_insertionSort _ entries).map Entry.name).nodup_iff.mpr hnames

/-- A job that is prepared fans out. -/
theorem fansOut_of_preparedOf (drawn : Drawn) {folder : DatasetFolderContents}
    {preparation : Preparation} {entries : List Entry} {config : Entry} {metrics : List Json}
    {agentId : String}
    {frozen : List FrozenMetric} (key : Option String) (now : Instant)
    (h : PreparedOf e request folder preparation entries config metrics agentId frozen)
    (hnames : (entries.map Entry.name).Nodup)
    (huuid : Set.InjOn e.identifiers.uuid5 (recordNames e folder.config)) :
  FansOut e folder.payloads agentId frozen
    ((preparedJob e request key drawn preparation).readyRow now)
    ((preparedJob e request key drawn preparation).ticketRows now)
  := by
  obtain ⟨source, hmetrics⟩ := h.selected
  have hindex : ((preparedJob e request key drawn preparation).tickets.map fun t =>
        (t.sourcePayloadRef, t.metricRecordId))
      = folder.payloads.map PayloadFile.filename ×ˢ frozen.map FrozenMetric.metricRecordId := by
    rw [map_preparedTickets (g := fun p m => (p.file.filename, m.metricRecordId))
      (fun _ _ _ => rfl), flatMap_eq_product fun p hp => (h.payloads p hp).2.2.2, ← h.prepared,
      List.map_map]
    rfl
  have hlength : (preparedJob e request key drawn preparation).tickets.length
      = folder.payloads.length * frozen.length := by
    have hcongr := congrArg List.length hindex
    rw [List.length_map, List.length_product, List.length_map, List.length_map] at hcongr
    exact hcongr
  constructor
  · intro file hfile
    rw [← h.prepared] at hfile
    obtain ⟨p, hp, rfl⟩ := List.mem_map.mp hfile
    apply (h.payloads p hp).2.1
  · unfold PreparedJob.ticketRows
    rw [List.map_map]
    calc List.map _ (preparedJob e request key drawn preparation).tickets
        = preparation.prepared.flatMap fun p => p.metrics.map fun m =>
            (p.file.filename, p.agentId, m.metricRecordId, m.asSnapshot e.identifiers) :=
          map_preparedTickets (fun _ _ _ => rfl) key preparation
      _ = preparation.prepared.flatMap fun p => frozen.map fun m =>
            (p.file.filename, agentId, m.metricRecordId, m.asSnapshot e.identifiers) := by
          apply List.flatMap_congr
          intro p hp
          obtain ⟨-, -, hagent, hfrozen⟩ := h.payloads p hp
          rw [hagent, hfrozen]
      _ = _ := by rw [← h.prepared, List.flatMap_map]
  · intro t ht
    obtain ⟨q, -, rfl⟩ := List.mem_map.mp ht
    exact ⟨rfl, rfl, rfl⟩
  · unfold PreparedJob.ticketRows
    rw [List.map_map]
    change ((preparedJob e request key drawn preparation).tickets.map fun t =>
      (t.sourcePayloadRef, t.metricRecordId)).Nodup
    rw [hindex]
    apply List.Nodup.product (nodup_filename hnames h.files) (nodup_metricRecordId huuid hmetrics)
  · unfold PreparedJob.ticketRows
    rw [List.length_map, hlength]
  · change preparation.prepared.length = _
    rw [← h.prepared, List.length_map]
  · unfold PreparedJob.ticketRows
    rw [List.length_map]
    rfl

/-! ### Storing -/

/-- The job that is stored is the one that was prepared. -/
theorem storeJob_job {p : PreparedJob} {db db' : Db} {job : EvaluationJob}
    (h : storeJob p db = .ok (job, db')) :
  job = p.readyRow db.now
  := by
  have hcreated := created_of_storeJob h
  have hfound : db'.job p.id = some job := by
    unfold storeJob at h
    split at h
    case isTrue => cases h
    case isFalse =>
      obtain ⟨⟨j, db₁⟩, hinsert, h⟩ := bind_eq_ok.mp h
      obtain ⟨db₁', -, hrow⟩ := bind_eq_ok.mp hinsert
      cases hrow
      obtain ⟨⟨created, db₂⟩, -, h⟩ := bind_eq_ok.mp h
      simp only at h
      split at h
      case h_1 => cases h
      case h_2 found hfound =>
        cases h
        exact hfound
  obtain ⟨hmem, hid⟩ := Db.job_eq_some.mp hfound
  rw [hcreated.jobs, List.mem_append, List.mem_singleton] at hmem
  rcases hmem with hmem | hmem
  · exact absurd hid (hcreated.fresh job hmem)
  · exact hmem

/-- A job is not refused by the index of tickets. -/
theorem insertJob_ne_ticketIndex (db : Db) (j : EvaluationJob) :
  db.insertJob j ≠ .error (.integrity "uq_tickets_job_payload_metric")
  := by
  unfold Db.insertJob
  split
  · split <;> simp
  · simp

/-- Tickets of a new job that differ in their file or their record are not refused by the unique
index. -/
theorem insertTickets_ne_ticketIndex {db : Db} {new : List EvaluationTicket}
    (hindex : ((db.tickets.rows ++ new).map Db.ticketIndex).Nodup) :
  db.insertTickets new ≠ .error (.integrity "uq_tickets_job_payload_metric")
  := by
  unfold Db.insertTickets
  split
  · split
    · split <;> simp
    · simp
  · simp

/-- The tickets of a new job are told apart from each other and from the tickets of other jobs. -/
theorem nodup_ticketIndex {p : PreparedJob} {db : Db}
    (hindex : (db.tickets.rows.map Db.ticketIndex).Nodup)
    (hfresh : ∀ j ∈ db.jobs.rows, j.id ≠ p.id)
    (hdistinct : (p.tickets.map fun t => (t.sourcePayloadRef, t.metricRecordId)).Nodup) :
  ((db.tickets.rows ++ p.ticketRows db.now).map Db.ticketIndex).Nodup
  := by
  have hrows : (p.ticketRows db.now).map Db.ticketIndex
      = (p.tickets.map fun t => (t.sourcePayloadRef, t.metricRecordId)).map (Prod.mk p.id) := by
    simp [PreparedJob.ticketRows, Db.ticketIndex, PreparedTicket.ticket, Function.comp_def]
  rw [List.map_append, List.nodup_append]
  refine ⟨hindex, ?_, ?_⟩
  · rw [hrows]
    apply hdistinct.map (Prod.mk_right_injective p.id)
  · intro index hold index' hnew heq
    subst heq
    obtain ⟨t, ht, rfl⟩ := List.mem_map.mp hold
    rw [hrows] at hnew
    obtain ⟨pair, -, hpair⟩ := List.mem_map.mp hnew
    obtain ⟨j, hj, hjob⟩ := db.ticketJob t ht
    apply hfresh j hj
    rw [hjob]
    exact (congrArg Prod.fst hpair).symm

/-- The tickets that are stored are not refused by the unique index. -/
theorem storeJob_ne_ticketIndex {p : PreparedJob} {db : Db}
    (hindex : (db.tickets.rows.map Db.ticketIndex).Nodup)
    (hdistinct : (p.tickets.map fun t => (t.sourcePayloadRef, t.metricRecordId)).Nodup) :
  storeJob p db ≠ .error (.integrity "uq_tickets_job_payload_metric")
  := by
  intro h
  unfold storeJob at h
  split at h
  case isTrue => cases h
  case isFalse hne =>
    rcases bind_eq_error.mp h with h | ⟨⟨j, db₁⟩, hinsert, h⟩
    · rcases bind_eq_error.mp h with h | ⟨_, _, h⟩
      · exact insertJob_ne_ticketIndex _ _ h
      · cases h
    · obtain ⟨db₁', hjob, hrow⟩ := bind_eq_ok.mp hinsert
      cases hrow
      obtain ⟨hfresh, hnow, -, htickets, -⟩ := Db.insertJob_ok hjob
      rcases bind_eq_error.mp h with h | ⟨⟨created, db₂⟩, -, h⟩
      · unfold TicketRepository.bulkInsert at h
        split at h
        case isTrue => cases h
        case isFalse =>
          rcases bind_eq_error.mp h with h | ⟨_, _, h⟩
          · refine insertTickets_ne_ticketIndex ?_ h
            have hrows : List.map (TicketRepository.insertedRow db₁.now)
                (p.tickets.map (·.ticket p.id p.datasetId db.now)) = p.ticketRows db.now := by
              rw [hnow, List.map_map]
              rfl
            have hnodup := nodup_ticketIndex hindex hfresh hdistinct
            rw [htickets]
            exact hrows ▸ hnodup
          · cases h
      · simp only at h
        split at h <;> cases h

/-! ### The result -/

/-- A job is prepared only from a valid folder. -/
theorem validFolder_of_preparedOf {folder : DatasetFolderContents} {preparation : Preparation}
    {entries : List Entry} {config : Entry} {metrics : List Json} {agentId : String}
    {frozen : List FrozenMetric}
    (h : PreparedOf e request folder preparation entries config metrics agentId frozen) :
  ValidFolder e entries
  := by
  obtain ⟨rawAgentId, hraw, rfl⟩ := h.agent
  obtain ⟨source, hselected⟩ := h.selected
  obtain ⟨_, metrics', -, -, hlisted, -, hnodup, hobjects⟩ := metricsForAgent_ok hselected
  rw [h.listedMetrics, Json.list.injEq] at hlisted
  subst hlisted
  refine ⟨config, folder.config, rawAgentId, metrics, h.configured.1, h.configured.2, hraw,
    h.listedMetrics, ⟨hobjects, ?_, ?_⟩, ?_⟩
  · intro metric hmetric
    obtain ⟨m, -, hm⟩ :=
      Python.exists_rel_of_forall₂ (List.Forall₂.flip h.configuredMetrics) hmetric
    exact ⟨m, hm.frozen⟩
  · have hids : (enabledMetrics metrics).map (fun metric =>
          strippedField e.builtins metric "metricId")
        = (frozen.map fun m => m.definition.checkId).map .str := by
      have hall := h.configuredMetrics
      generalize enabledMetrics metrics = enabled at hall
      clear hnodup hselected h
      induction hall with
      | nil => rfl
      | cons hm _ ih => rw [List.map_cons, List.map_cons, List.map_cons, hm.metricId, ih]
    rw [hids]
    apply hnodup.map
    intro x y hxy
    exact Json.str.inj hxy
  · intro entry hentry hpayload
    have hread : entry ∈ payloadEntries e.builtins entries := by
      unfold payloadEntries
      rw [List.mem_filter, sortedEntries, List.mem_insertionSort]
      exact ⟨hentry, hpayload⟩
    obtain ⟨file, hfile, hrel⟩ := Python.exists_rel_of_forall₂ (List.Forall₂.flip h.files) hread
    obtain ⟨document, hdocument, hrel⟩ := bind_eq_ok.mp hrel
    cases hrel
    rw [← h.prepared] at hfile
    obtain ⟨p, hp, hpfile⟩ := List.mem_map.mp hfile
    obtain ⟨hvalid, hagent, -, -⟩ := h.payloads p hp
    rw [hpfile] at hvalid hagent
    exact ⟨document, hdocument, hvalid, hagent⟩

/-- A job that was created was prepared and stored. -/
theorem createNewJob_ok {key : Option String} {db db' : Db} {result : JobCreationResult}
    (h : createNewJob e request key drawn db = .ok (result, db')) :
  ∃ folder preparation, prepareJob e request drawn = .ok (folder, preparation)
    ∧ Created (preparedJob e request key drawn preparation) db db'
    ∧ result.job = (preparedJob e request key drawn preparation).readyRow db.now
    ∧ result.replayed = false
  := by
  obtain ⟨⟨folder, preparation⟩, hprepare, h⟩ := bind_eq_ok.mp h
  obtain ⟨⟨job, db₁⟩, hstore, h⟩ := bind_eq_ok.mp h
  cases h
  exact ⟨folder, preparation, hprepare, created_of_storeJob hstore, storeJob_job hstore, rfl⟩

/-- A request that succeeds replays a job and changes nothing, or creates a job. -/
theorem createJob_ok {db db' : Db} {result : JobCreationResult}
    (h : createJob e request drawn db = .ok (result, db')) :
  (result.replayed = true ∧ db' = db)
    ∨ ∃ key, createNewJob e request key drawn db = .ok (result, db')
  := by
  obtain ⟨key, -, h⟩ := bind_eq_ok.mp h
  split at h
  case h_1 job hjob =>
    obtain ⟨replay, hreplay, h⟩ := bind_eq_ok.mp h
    cases h
    unfold resultForExistingJob at hreplay
    split at hreplay
    case isTrue => cases hreplay
    case isFalse =>
      cases hreplay
      exact .inl ⟨rfl, rfl⟩
  case h_2 => exact .inr ⟨key, h⟩

/-- The fan-out of a create request is exact. When it creates a job, the job has one ticket for
each payload file and each enabled metric; the unique index never refuses them; and unless every
payload and every enabled metric is valid, the database stays as it was. -/
theorem createJob_fan_out {entries : List Entry} {db : Db}
    (hlisted : resolveDatasetDir e.builtins e.files request.datasetId = .ok (.ok entries))
    (hnames : (entries.map Entry.name).Nodup)
    (huuid : ∀ config document, configEntry entries = some config →
      readJsonObject config = .ok document →
      Set.InjOn e.identifiers.uuid5 (recordNames e document))
    (hindex : (db.tickets.rows.map Db.ticketIndex).Nodup) :
  (∀ result db', createJob e request drawn db = .ok (result, db') → result.replayed = false →
    ∃ payloads config document metrics agentId frozen tickets,
      List.Forall₂ (fun entry file => readPayload e.builtins entry = .ok file)
        (payloadEntries e.builtins entries) payloads
      ∧ configEntry entries = some config ∧ readJsonObject config = .ok document
      ∧ document.get "metrics" = .list metrics
      ∧ List.Forall₂ (Freezes e.builtins e.settings e.identifiers agentId)
          (enabledMetrics metrics) frozen
      ∧ db'.jobs.rows = db.jobs.rows ++ [result.job]
      ∧ db'.tickets.rows = db.tickets.rows ++ tickets
      ∧ FansOut e payloads agentId frozen result.job tickets
      ∧ result.job.payloadCount = (payloadEntries e.builtins entries).length
      ∧ result.job.totalTickets
          = (payloadEntries e.builtins entries).length * (enabledMetrics metrics).length)
    ∧ (∀ key folder preparation, prepareJob e request drawn = .ok (folder, preparation) →
        storeJob (preparedJob e request key drawn preparation) db
          ≠ .error (.integrity "uq_tickets_job_payload_metric"))
    ∧ (¬ ValidFolder e entries → committed (createJob e request drawn db) db = db)
  := by
  refine ⟨?_, ?_, ?_⟩
  · intro result db' h hnew
    rcases createJob_ok h with ⟨hreplayed, -⟩ | ⟨key, h⟩
    · rw [hnew] at hreplayed
      cases hreplayed
    · obtain ⟨folder, preparation, hprepare, hcreated, hjob, -⟩ := createNewJob_ok h
      obtain ⟨entries', config, metrics, agentId, frozen, hof⟩ := prepareJob_ok hprepare
      rw [hof.listed, Except.ok.injEq, Except.ok.injEq] at hlisted
      subst hlisted
      refine ⟨folder.payloads, config, folder.config, metrics, agentId, frozen, _, hof.files,
        hof.configured.1, hof.configured.2, hof.listedMetrics,
        hof.configuredMetrics.imp fun _ _ h => h.frozen, ?_, hcreated.tickets, ?_⟩
      · rw [hjob]
        apply hcreated.jobs
      · have hfans := fansOut_of_preparedOf drawn key db.now hof hnames
          (huuid _ _ hof.configured.1 hof.configured.2)
        rw [hof.files.length_eq, hof.configuredMetrics.length_eq, hjob]
        exact ⟨hfans, hfans.payloadCount, hfans.totalTickets.trans hfans.count⟩
  · intro key folder preparation hprepare
    obtain ⟨entries', config, metrics, agentId, frozen, hof⟩ := prepareJob_ok hprepare
    rw [hof.listed, Except.ok.injEq, Except.ok.injEq] at hlisted
    subst hlisted
    have hfans := fansOut_of_preparedOf drawn key db.now hof hnames
      (huuid _ _ hof.configured.1 hof.configured.2)
    have hdistinct := hfans.distinct
    unfold PreparedJob.ticketRows at hdistinct
    rw [List.map_map] at hdistinct
    apply storeJob_ne_ticketIndex hindex hdistinct
  · intro hinvalid
    apply committed_of (· = db) rfl
    intro result db' h
    rcases createJob_ok h with ⟨-, rfl⟩ | ⟨key, h⟩
    · rfl
    · obtain ⟨folder, preparation, hprepare, -⟩ := createNewJob_ok h
      obtain ⟨entries', config, metrics, agentId, frozen, hof⟩ := prepareJob_ok hprepare
      rw [hof.listed, Except.ok.injEq, Except.ok.injEq] at hlisted
      subst hlisted
      exact absurd (validFolder_of_preparedOf hof) hinvalid

/-! ### A small dataset -/

namespace Demo

/-- Identifiers that are different for different names. -/
def distinctIdentifiers : Identifiers where
  uuid5 name := name.toList.foldr (fun c n => Nat.pair c.toNat n + 1) 0
  uuidText _ := ""
  isoNow := ""

theorem uuid5_injective :
  Function.Injective distinctIdentifiers.uuid5
  := by
  have hlist : ∀ text text' : List Char,
      text.foldr (fun c n => Nat.pair c.toNat n + 1) 0
        = text'.foldr (fun c n => Nat.pair c.toNat n + 1) 0 → text = text' := by
    intro text
    induction text with
    | nil =>
      intro text' h
      cases text' with
      | nil => rfl
      | cons c text' => simp at h
    | cons c text ih =>
      intro text' h
      cases text' with
      | nil => simp at h
      | cons c' text' =>
        rw [List.foldr_cons, List.foldr_cons, Nat.add_right_cancel_iff, Nat.pair_eq_pair] at h
        rw [Char.toNat_inj.mp h.1, ih text' h.2]
  intro name name' h
  exact String.toList_injective (hlist _ _ h)

/-- An identifier of a trace. -/
def traceId : String :=
  "0000000000000000000000000000000a"

/-- A payload of the agent without spans. -/
def emptyPayload : Dict :=
  [("agent_registry", .dict [("agent_id", .str agentId)]),
    ("payload_metadata", .dict [("payload_id", .str agentId), ("payload_version", .str "1"),
      ("payload_type", .str "run"), ("created_at", .str "now"), ("evaluation_mode", .str "all")]),
    ("correlation", .dict [("agent_id", .str agentId), ("event_id", .str agentId),
      ("trace_id", .str traceId), ("session_id", .str agentId),
      ("invocation_id", .str agentId), ("user_id", .str "user"), ("app_name", .str "app"),
      ("service_name", .str "service")]),
    ("trace_context", .dict [("trace", .dict [("trace_id", .str traceId),
      ("started_at_raw", .str "0"), ("ended_at_raw", .str "1"), ("service_name", .str "service"),
      ("root_span_name_raw", .str "root"), ("status", .str "OK"), ("duration_ms", .int 1),
      ("error_message", .null), ("session_id", .str agentId), ("invocation_id", .str agentId),
      ("user_id", .str "user"), ("app_name", .str "app"), ("spans", .list [])])])]

/-- A folder with two payloads and a configuration of two metrics, one of them switched off. -/
def entries : List Entry :=
  [⟨"a.json", false, .json (.dict emptyPayload)⟩, ⟨"b.json", false, .json (.dict emptyPayload)⟩,
    ⟨"config.json", false, .json (.dict (config [configMetric "first" "correlation" [],
      .dict [("enabled", .bool false)]]))⟩]

/-- A dataset of that folder. -/
def surroundings : Surroundings where
  builtins := builtins
  settings := .default
  identifiers := distinctIdentifiers
  digest _ := ""
  files _ := .folder (.ok entries)

/-- A request for the dataset. -/
def createRequest (key : Option String) : CreateRequest where
  datasetId := "dataset"
  name := none
  priority := none
  maxAttempts := none
  idempotencyKey := key

/-- Identifiers of the rows of one job. -/
def rowIds : Drawn where
  job := 0
  payload i := i
  ticket i j := 2 * i + j

end Demo

/-- The request creates a job. -/
theorem demo_created :
  ∃ result db', createJob Demo.surroundings (Demo.createRequest none) Demo.rowIds Db.empty
      = .ok (result, db') ∧ result.replayed = false
  := by
  have hcreated : ((createJob Demo.surroundings (Demo.createRequest none) Demo.rowIds
      Db.empty).toOption.map fun r => r.1.replayed) = some false := by decide +kernel
  cases h : createJob Demo.surroundings (Demo.createRequest none) Demo.rowIds Db.empty with
  | error exn => simp [h, Except.toOption] at hcreated
  | ok r =>
    obtain ⟨result, db'⟩ := r
    simp only [h, Except.toOption, Option.map_some, Option.some.injEq] at hcreated
    exact ⟨result, db', rfl, hcreated⟩

theorem createJob_fan_out_demo :
  ∃ result db', createJob Demo.surroundings (Demo.createRequest none) Demo.rowIds Db.empty
      = .ok (result, db')
    ∧ ∃ payloads config document metrics agentId frozen tickets,
      List.Forall₂ (fun entry file => readPayload Demo.surroundings.builtins entry = .ok file)
        (payloadEntries Demo.surroundings.builtins Demo.entries) payloads
      ∧ configEntry Demo.entries = some config ∧ readJsonObject config = .ok document
      ∧ document.get "metrics" = .list metrics
      ∧ List.Forall₂ (Freezes Demo.surroundings.builtins Demo.surroundings.settings
          Demo.surroundings.identifiers agentId) (enabledMetrics metrics) frozen
      ∧ db'.jobs.rows = Db.empty.jobs.rows ++ [result.job]
      ∧ db'.tickets.rows = Db.empty.tickets.rows ++ tickets
      ∧ FansOut Demo.surroundings payloads agentId frozen result.job tickets
      ∧ result.job.payloadCount
          = (payloadEntries Demo.surroundings.builtins Demo.entries).length
      ∧ result.job.totalTickets
          = (payloadEntries Demo.surroundings.builtins Demo.entries).length
            * (enabledMetrics metrics).length
  := by
  have hlisted : resolveDatasetDir Demo.surroundings.builtins Demo.surroundings.files
      (Demo.createRequest none).datasetId = .ok (.ok Demo.entries) := rfl
  obtain ⟨hcreates, -, -⟩ := @createJob_fan_out Demo.surroundings (Demo.createRequest none)
    Demo.rowIds Demo.entries Db.empty hlisted (by decide)
    (fun _ _ _ _ => Demo.uuid5_injective.injOn) List.nodup_nil
  obtain ⟨result, db', h, hnew⟩ := demo_created
  exact ⟨result, db', h, hcreates result db' h hnew⟩

end Evalorch
