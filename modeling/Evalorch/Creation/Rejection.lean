import Evalorch.Creation.Storage

/-!
# Clean rejection

A create request that is not accepted is rejected cleanly: it raises `JobCreationError` and leaves
no row. That holds exactly when no metric that is reached has a number that `int` does not
convert, and when what is stored of an accepted request fits its columns.
-/

namespace Evalorch

open Python Transact

variable {e : Surroundings} {request : CreateRequest} {drawn : Drawn}

/-! ### Storing -/

theorem returns_insertJob {db : Db} {j : EvaluationJob} (hfresh : ∀ j' ∈ db.jobs.rows, j'.id ≠ j.id)
    (hkey : ∀ j' ∈ db.jobs.rows, j.idempotencyKey.isSome → j'.idempotencyKey ≠ j.idempotencyKey) :
  Returns (db.insertJob j)
  := by
  rw [Db.insertJob, dif_pos hfresh, if_pos hkey]
  apply returns_ok

theorem returns_insertTickets {db : Db} {new : List EvaluationTicket}
    (hids : ((db.tickets.rows ++ new).map EvaluationTicket.id).Nodup)
    (hindex : ((db.tickets.rows ++ new).map Db.ticketIndex).Nodup)
    (hchecks : ∀ t ∈ new, Db.ticketChecks t = true)
    (hjobs : ∀ t ∈ new, ∃ j ∈ db.jobs.rows, j.id = t.jobId) :
  Returns (db.insertTickets new)
  := by
  rw [Db.insertTickets, dif_pos hids, if_pos hindex, if_pos (List.all_eq_true.mpr hchecks),
    dif_pos hjobs]
  apply returns_ok

/-- A job is stored when its row and its tickets are not refused. -/
theorem returns_storeJob {p : PreparedJob} {db : Db} (hne : p.tickets ≠ [])
    (hfresh : ∀ j ∈ db.jobs.rows, j.id ≠ p.id)
    (hkey : ∀ j ∈ db.jobs.rows, p.idempotencyKey.isSome → j.idempotencyKey ≠ p.idempotencyKey)
    (hids : ((db.tickets.rows ++ p.ticketRows db.now).map EvaluationTicket.id).Nodup)
    (hindex : ((db.tickets.rows ++ p.ticketRows db.now).map Db.ticketIndex).Nodup)
    (hchecks : ∀ t ∈ p.ticketRows db.now, Db.ticketChecks t = true) :
  Returns (storeJob p db)
  := by
  obtain ⟨db₁, hjob⟩ := @returns_insertJob db (p.job db.now) hfresh hkey
  obtain ⟨-, hnow₁, hjobs₁, htickets₁, -⟩ := Db.insertJob_ok hjob
  have hinserted : JobRepository.insert (p.job db.now) db = .ok (p.job db.now, db₁) := by
    rw [JobRepository.insert]
    change db.insertJob (p.job db.now) >>= _ = _
    rw [hjob]
    rfl
  have hrows : (p.tickets.map (·.ticket p.id p.datasetId db.now)).map
      (TicketRepository.insertedRow db₁.now) = p.ticketRows db.now := by
    rw [hnow₁, List.map_map]
    rfl
  have hmine : p.job db.now ∈ db₁.jobs.rows := by
    rw [hjobs₁]
    apply List.mem_append_right _ List.mem_cons_self
  obtain ⟨db₂, htickets⟩ := @returns_insertTickets db₁ (p.ticketRows db.now)
    (by rw [htickets₁]; exact hids) (by rw [htickets₁]; exact hindex) hchecks (by
      intro t ht
      obtain ⟨q, -, rfl⟩ := List.mem_map.mp ht
      exact ⟨_, hmine, rfl⟩)
  obtain ⟨-, -, hjobs₂, -, -⟩ := Db.insertTickets_ok htickets
  have hbulk : TicketRepository.bulkInsert
      (p.tickets.map (·.ticket (p.job db.now).id p.datasetId db.now)) db₁
      = .ok ((p.tickets.map (·.ticket (p.job db.now).id p.datasetId db.now)).length, db₂) := by
    rw [TicketRepository.bulkInsert, if_neg (by simpa using hne)]
    change db₁.insertTickets ((p.tickets.map (·.ticket p.id p.datasetId db.now)).map
      (TicketRepository.insertedRow db₁.now)) >>= _ = _
    rw [hrows, htickets]
    rfl
  have hfound : db₂.job (p.job db.now).id = some (p.job db.now) := by
    rw [Db.job_eq_some, hjobs₂]
    exact ⟨hmine, rfl⟩
  rw [storeJob, if_neg (by simpa using hne), hinserted, ok_bind]
  simp only [hbulk, ok_bind, JobRepository.setTotalTickets, Db.job_updateJobs, hfound,
    Option.map_some]
  apply returns_ok

/-- The identifiers that are drawn are new and distinct. -/
structure FreshlyDrawn (drawn : Drawn) (db : Db) : Prop where
  job : ∀ j ∈ db.jobs.rows, j.id ≠ drawn.job
  ticket : ∀ i j, ∀ t ∈ db.tickets.rows, t.id ≠ drawn.ticket i j
  distinct : ∀ i j i' j', drawn.ticket i j = drawn.ticket i' j' → i = i' ∧ j = j'

/-- Positions in a list are distinct. -/
theorem nodup_map_snd_zipIdx {α : Type} (l : List α) :
  (l.zipIdx.map Prod.snd).Nodup
  := by
  simp [List.zipIdx_map_snd, List.nodup_range']

/-- The tickets of a job have new and distinct identifiers. -/
theorem nodup_ticketIds {db : Db} (hfresh : FreshlyDrawn drawn db) (key : Option String)
    (preparation : Preparation) (now : Instant) :
  ((db.tickets.rows ++ (preparedJob e request key drawn preparation).ticketRows now).map
    EvaluationTicket.id).Nodup
  := by
  have hids : ((preparedJob e request key drawn preparation).ticketRows now).map
      EvaluationTicket.id = preparation.prepared.zipIdx.flatMap fun p =>
        (p.1.metrics.zipIdx.map Prod.snd).map (drawn.ticket p.2) := by
    rw [PreparedJob.ticketRows, List.map_map]
    simp only [preparedJob, List.map_flatMap, payloadTickets, List.map_map]
    rfl
  rw [List.map_append, hids, List.nodup_append]
  refine ⟨db.tickets.nodup, ?_, ?_⟩
  · rw [List.nodup_flatMap]
    constructor
    · intro p _
      apply (nodup_map_snd_zipIdx p.1.metrics).map
      intro j j' heq
      exact (hfresh.distinct p.2 j p.2 j' heq).2
    · have hpositions := nodup_map_snd_zipIdx preparation.prepared
      rw [List.nodup_iff_pairwise_ne, List.pairwise_map] at hpositions
      apply hpositions.imp
      intro p p' hne id hid hid'
      obtain ⟨j, -, rfl⟩ := List.mem_map.mp hid
      obtain ⟨j', -, heq⟩ := List.mem_map.mp hid'
      exact hne (hfresh.distinct p'.2 j' p.2 j heq).1.symm
  · intro id hold id' hnew heq
    obtain ⟨t, ht, rfl⟩ := List.mem_map.mp hold
    obtain ⟨p, -, hmem⟩ := List.mem_flatMap.mp hnew
    obtain ⟨j, -, rfl⟩ := List.mem_map.mp hmem
    exact hfresh.ticket p.2 j t ht heq

/-- What a create request relies on besides its dataset: `str.lower` and `str.upper`, texts from
outside that fit, identifiers that are new and distinct, and the names of the entries of a folder,
which are distinct. -/
structure Outside (e : Surroundings) (drawn : Drawn) (db : Db) : Prop where
  case : CaseMappings e.builtins
  plain : PlainTexts e
  fresh : FreshlyDrawn drawn db
  index : (db.tickets.rows.map Db.ticketIndex).Nodup
  names : ∀ identifier entries, e.files identifier = .folder (.ok entries) →
    (entries.map Entry.name).Nodup
  uuid5 : ∀ config, Set.InjOn e.identifiers.uuid5 (recordNames e config)

/-- A job that is prepared has a payload and a metric. -/
theorem prepareJob_ne {folder : DatasetFolderContents} {preparation : Preparation}
    {entries : List Entry} {config : Entry} {metrics : List Json} {agentId : String}
    {frozen : List FrozenMetric} (h : prepareJob e request drawn = .ok (folder, preparation))
    (hof : PreparedOf e request folder preparation entries config metrics agentId frozen) :
  preparation.prepared ≠ [] ∧ frozen ≠ []
  := by
  obtain ⟨folder', hfolder, h⟩ := bind_eq_ok.mp h
  obtain ⟨preparation', hpreparation, h⟩ := bind_eq_ok.mp h
  cases h
  obtain ⟨-, -, -, -, hne, -⟩ := readDatasetFolder_ok (wrapping_eq_ok.mp hfolder)
  obtain ⟨source, hselected⟩ := hof.selected
  constructor
  · rintro hnil
    apply hne
    rw [← hof.prepared, hnil, List.map_nil]
  · exact (metricsForAgent_agent hselected).2

/-- What is prepared of a request that has no job yet is stored. -/
theorem returns_storeJob_prepared {db : Db} (houtside : Outside e drawn db)
    {folder : DatasetFolderContents} {preparation : Preparation} {key : Option String}
    (hprepare : prepareJob e request drawn = .ok (folder, preparation))
    (hnew : key.bind (jobByKey db) = none) :
  Returns (storeJob (preparedJob e request key drawn preparation) db)
  := by
  obtain ⟨entries, config, metrics, agentId, frozen, hof⟩ := prepareJob_ok hprepare
  obtain ⟨hprepared, hfrozen⟩ := prepareJob_ne hprepare hof
  obtain ⟨-, hfiles⟩ := resolveDatasetDir_ok hof.listed
  have hfans := fansOut_of_preparedOf drawn key db.now hof (houtside.names _ _ hfiles)
    (houtside.uuid5 _)
  have hdistinct := hfans.distinct
  rw [PreparedJob.ticketRows, List.map_map] at hdistinct
  have hmetrics : ∀ p ∈ preparation.prepared, p.metrics = frozen :=
    fun p hp => (hof.payloads p hp).2.2.2
  apply returns_storeJob
  · intro hnil
    have hcount := hfans.count
    rw [PreparedJob.ticketRows, List.length_map, hnil, ← hof.prepared, List.length_map] at hcount
    simp [hprepared, hfrozen] at hcount
  · exact houtside.fresh.job
  · intro j hj hsome heq
    obtain ⟨text, htext⟩ := Option.isSome_iff_exists.mp hsome
    obtain rfl : key = some text := htext
    rw [Option.bind_some, jobByKey, List.find?_eq_none] at hnew
    apply hnew j hj
    rw [heq]
    simp [preparedJob]
  · apply nodup_ticketIds houtside.fresh
  · apply nodup_ticketIndex houtside.index houtside.fresh.job hdistinct
  · intro t ht
    obtain ⟨m, hm, -, -, hattempts⟩ := exists_metric_of_ticket hmetrics ht
    obtain ⟨metric, -, hconfigured⟩ := exists_rel_of_forall₂ hof.configuredMetrics hm
    obtain ⟨parts, hparts⟩ := hconfigured.frozen.parts
    obtain ⟨label, hnormal⟩ := hparts.normal
    have hpos := (normalDefinition_of_ok houtside.case hnormal).maxAttempts_pos
    obtain ⟨q, -, rfl⟩ := List.mem_map.mp ht
    change q.maxAttempts = m.definition.maxAttempts at hattempts
    simp only [Db.ticketChecks, PreparedTicket.ticket, hattempts, Bool.and_eq_true,
      decide_eq_true_eq]
    omega

/-! ### The answers to a request -/

/-- A create request is answered cleanly: only `JobCreationError` is raised, and then no row is
left; and the numbers of every ticket that is accepted fit their columns. -/
structure Clean (e : Surroundings) (request : CreateRequest) (drawn : Drawn) (db : Db) :
    Prop where
  raises : RaisesOnly IsRejection (createJobTyped e request drawn db)
  unchanged : ¬ Returns (createJobTyped e request drawn db) →
    committed (createJobTyped e request drawn db) db = db
  fits : ∀ result db', createJob e request drawn db = .ok (result, db') →
    result.replayed = false →
    ∀ t ∈ db'.tickets.rows, t.jobId = result.job.id → fitsNumbers t = true

/-- What is stored of a request and of a folder fits its columns. -/
structure Storable (e : Surroundings) (request : CreateRequest) (folder : DatasetFolderContents)
    (metrics : List Json) : Prop where
  name : request.name.all fitsText = true
  key : request.idempotencyKey.all fitsText = true
  files : ∀ file ∈ folder.payloads, fitsText file.filename = true
  payloads : fitsInteger folder.payloads.length = true
  tickets : fitsInteger (folder.payloads.length * (enabledMetrics metrics).length) = true
  metrics : ∀ metric ∈ enabledMetrics metrics,
    StorableNumbers e request metric ∧ StorableFields e.builtins metric

/-- The numbers and the documents of a dataset cause no other error: every metric that is reached
and well formed can be converted, and what is stored of a dataset that is accepted fits. -/
structure CleanDataset (e : Surroundings) (request : CreateRequest) (drawn : Drawn) : Prop where
  convertible : ∀ folder source agentId metrics metric,
    readDatasetFolder e.builtins e.files request.datasetId = .ok folder →
    EntersMetrics e folder source agentId metrics →
    Reaches e.builtins e.settings e.identifiers agentId source [] metrics metric →
    WellFormed e.builtins source metric →
      Convertible e.builtins e.settings agentId source metric
  storable : ∀ folder metrics,
    readDatasetFolder e.builtins e.files request.datasetId = .ok folder →
    folder.config.get "metrics" = .list metrics → Returns (prepareJob e request drawn) →
    Storable e request folder metrics

theorem raisesOnly_requireKey (settings : CreationSettings) :
  RaisesOnly IsRejection (requireKey settings request)
  := by
  rw [requireKey]
  split
  · apply raisesOnly_ok
  · split
    · simp [IsRejection]
    · split <;> simp [IsRejection]

theorem raisesOnly_resultForExistingJob (db : Db) (job : EvaluationJob)
    (storedHash : Option String) (requestHash : String) :
  RaisesOnly IsRejection (resultForExistingJob db job storedHash requestHash)
  := by
  rw [resultForExistingJob]
  split
  · simp [IsRejection]
  · apply raisesOnly_ok

/-- A key that is allowed is the one of the request, without surrounding white space. -/
theorem all_fitsText_key {settings : CreationSettings} {key : Option String}
    (h : requireKey settings request = .ok key) :
  key.all fitsText = request.idempotencyKey.all fitsText
  := by
  rw [requireKey] at h
  cases hgiven : request.idempotencyKey with
  | none =>
    rw [hgiven] at h
    obtain rfl := Except.ok.inj h
    rfl
  | some given =>
    rw [hgiven] at h
    simp only [Option.map_some] at h
    split at h
    case isTrue => cases h
    split at h
    case isTrue => cases h
    case isFalse =>
      obtain rfl := Except.ok.inj h
      rw [Option.all_some, Option.all_some, fitsText_strip]

/-- The tickets of a new job are the rows that were added. -/
theorem filter_created {p : PreparedJob} {db db' : Db} (h : Created p db db') :
  (db'.tickets.rows.filter fun t => t.jobId = p.id) = p.ticketRows db.now
  := by
  have hold : (db.tickets.rows.filter fun t => t.jobId = p.id) = [] := by
    rw [List.filter_eq_nil_iff]
    intro t ht
    obtain ⟨j, hj, hid⟩ := db.ticketJob t ht
    have hne := h.fresh j hj
    rw [hid] at hne
    simpa using hne
  have hnew : ((p.ticketRows db.now).filter fun t => t.jobId = p.id) = p.ticketRows db.now := by
    rw [List.filter_eq_self]
    intro t ht
    obtain ⟨q, -, rfl⟩ := List.mem_map.mp ht
    simp [PreparedTicket.ticket]
  rw [h.tickets, List.filter_append, hold, hnew, List.nil_append]

section Accepted

variable {db : Db} {key : Option String} {folder : DatasetFolderContents}
  {preparation : Preparation}

/-- A request that is prepared and has no job yet creates its job. -/
theorem createJob_of_prepared (houtside : Outside e drawn db)
    (hkey : requireKey e.settings request = .ok key) (hnew : key.bind (jobByKey db) = none)
    (hprepare : prepareJob e request drawn = .ok (folder, preparation)) :
  ∃ result db', createJob e request drawn db = .ok (result, db') ∧ result.replayed = false
    ∧ result.job = (preparedJob e request key drawn preparation).readyRow db.now
    ∧ Created (preparedJob e request key drawn preparation) db db'
  := by
  obtain ⟨⟨job, db'⟩, hstore⟩ := returns_storeJob_prepared houtside hprepare hnew
  refine ⟨createdResult request folder preparation
    (preparedJob e request key drawn preparation) job, db', ?_, rfl, storeJob_job hstore,
    created_of_storeJob hstore⟩
  rw [createJob, hkey, ok_bind, hnew]
  simp only [createNewJob, hprepare, ok_bind, hstore]

/-- The agent and the metrics of a job that is prepared. -/
theorem oneAgent_of_preparedOf {entries : List Entry} {config : Entry} {metrics : List Json}
    {agentId : String} {frozen : List FrozenMetric}
    (hprepare : prepareJob e request drawn = .ok (folder, preparation))
    (hof : PreparedOf e request folder preparation entries config metrics agentId frozen)
    (htickets : (preparedJob e request key drawn preparation).tickets ≠ []) :
  OneAgent preparation agentId frozen
  := by
  obtain ⟨agentId', frozen', hone⟩ := oneAgent_of_prepareJob hprepare htickets
  obtain ⟨p, hp⟩ := List.exists_mem_of_ne_nil _ hone.payloads_ne
  obtain ⟨-, -, hagent, hfrozen⟩ := hof.payloads p hp
  obtain ⟨hagent', hfrozen'⟩ := hone.prepared p hp
  rw [← hagent, ← hfrozen, hagent', hfrozen']
  exact hone

/-- The rows of a job that is created fit exactly when what is stored of its request and its
folder does. -/
theorem fits_created_iff {db' : Db} (houtside : Outside e drawn db)
    (hkey : requireKey e.settings request = .ok key)
    (hprepare : prepareJob e request drawn = .ok (folder, preparation))
    (hcreated : Created (preparedJob e request key drawn preparation) db db') {metrics : List Json}
    (hmetrics : folder.config.get "metrics" = .list metrics) :
  (fitsJob ((preparedJob e request key drawn preparation).readyRow db.now)
      && ((preparedJob e request key drawn preparation).ticketRows db.now).all fitsTicket) = true
    ↔ Storable e request folder metrics
  := by
  obtain ⟨entries, config, listed, agentId, frozen, hof⟩ := prepareJob_ok hprepare
  have hlisted := hof.listedMetrics
  rw [hmetrics, Json.list.injEq] at hlisted
  subst hlisted
  have hone := oneAgent_of_preparedOf hprepare hof hcreated.tickets_ne
  have hids : (∀ metric ∈ enabledMetrics metrics,
      StorableNumbers e request metric ∧ StorableFields e.builtins metric) →
      ∀ m ∈ frozen, fitsText m.definition.checkId = true := by
    intro hall m hm
    obtain ⟨metric, hmetric, hconfigured⟩ := exists_rel_of_forall₂ hof.configuredMetrics hm
    obtain ⟨parts, hparts⟩ := hconfigured.frozen.parts
    obtain ⟨label, hnormal⟩ := hparts.normal
    rw [(definedFrom_of_normal houtside.case hnormal).checkId, fitsText_strip]
    exact ((storableFields_iff parts).mp (hall metric hmetric).2).1.1
  rw [Bool.and_eq_true, all_fitsTicket_iff houtside.case houtside.plain hof hone.payloads_ne]
  constructor
  · rintro ⟨hjob, hfiles, hall⟩
    obtain ⟨hname, hkeyFits, hpayloads, htickets⟩ :=
      (fitsJob_iff houtside.plain hof hone (hids hall) hfiles key db.now).mp hjob
    rw [all_fitsText_key hkey] at hkeyFits
    exact ⟨hname, hkeyFits, hfiles, hpayloads, htickets, hall⟩
  · intro hstorable
    use (fitsJob_iff houtside.plain hof hone (hids hstorable.metrics) hstorable.files key
      db.now).mpr ⟨hstorable.name, by rw [all_fitsText_key hkey]; exact hstorable.key,
        hstorable.payloads, hstorable.tickets⟩
    exact ⟨hstorable.files, hstorable.metrics⟩

end Accepted

/-- A request that creates a job has an allowed key without a job, and was prepared and stored. -/
theorem createJob_new {db db' : Db} {result : JobCreationResult}
    (h : createJob e request drawn db = .ok (result, db')) (hnew : result.replayed = false) :
  ∃ key folder preparation, requireKey e.settings request = .ok key
    ∧ key.bind (jobByKey db) = none ∧ prepareJob e request drawn = .ok (folder, preparation)
    ∧ result.job = (preparedJob e request key drawn preparation).readyRow db.now
    ∧ Created (preparedJob e request key drawn preparation) db db'
  := by
  obtain ⟨key, hkey, h⟩ := bind_eq_ok.mp h
  split at h
  case h_1 job _ =>
    obtain ⟨replay, hreplay, h⟩ := bind_eq_ok.mp h
    cases h
    rw [resultForExistingJob] at hreplay
    split at hreplay
    case isTrue => cases hreplay
    case isFalse =>
      cases hreplay
      cases hnew
  case h_2 hnone =>
    obtain ⟨folder, preparation, hprepare, hcreated, hjob, -⟩ := createNewJob_ok h
    exact ⟨key, folder, preparation, hkey, hnone, hprepare, hjob, hcreated⟩

/-- What is prepared was read from the folder. -/
theorem readDatasetFolder_of_prepareJob {folder : DatasetFolderContents}
    {preparation : Preparation} (h : prepareJob e request drawn = .ok (folder, preparation)) :
  readDatasetFolder e.builtins e.files request.datasetId = .ok folder
  := by
  obtain ⟨read, hread, h⟩ := bind_eq_ok.mp h
  obtain ⟨_, -, h⟩ := bind_eq_ok.mp h
  cases h
  exact wrapping_eq_ok.mp hread

/-- The typed columns refuse rows that do not fit, and nothing else. -/
theorem raisesOnly_createJobTyped {db : Db} :
  RaisesOnly IsRejection (createJobTyped e request drawn db)
    ↔ RaisesOnly IsRejection (createJob e request drawn db)
      ∧ ∀ result db', createJob e request drawn db = .ok (result, db') → result.replayed = false →
        (fitsJob result.job
          && (db'.tickets.rows.filter fun t => t.jobId = result.job.id).all fitsTicket) = true
  := by
  rw [createJobTyped, raisesOnly_bind]
  apply and_congr_right
  intro _
  constructor
  · intro hall result db' h hnew
    have htyped := hall (result, db') h
    simp only [hnew, Bool.false_or] at htyped
    split at htyped
    case isTrue hfits => exact hfits
    case isFalse => simp [dataError, IsRejection] at htyped
  · rintro hall ⟨result, db'⟩ h
    simp only
    split
    case isTrue => apply raisesOnly_ok
    case isFalse hrefused =>
      simp only [Bool.or_eq_true, not_or, Bool.not_eq_true] at hrefused
      have hfits := hall result db' h hrefused.1
      rw [hrefused.2] at hfits
      cases hfits

/-- A create request is answered cleanly exactly when it has a job already, or is refused for its
key, or the numbers and the documents of its dataset cause no other error. -/
theorem createJob_clean_iff {db : Db} (houtside : Outside e drawn db) :
  Clean e request drawn db
    ↔ ∀ key, requireKey e.settings request = .ok key → key.bind (jobByKey db) = none →
      CleanDataset e request drawn
  := by
  constructor
  · intro hclean key hkey hnone
    obtain ⟨hraises, hfits⟩ := raisesOnly_createJobTyped.mp hclean.raises
    rw [createJob, hkey, ok_bind, hnone] at hraises
    constructor
    case convertible =>
      apply (raisesOnly_prepareJob houtside.case).mp
      apply (raisesOnly_bind.mp hraises).1
    case storable =>
      rintro folder metrics hfolder hmetrics ⟨⟨folder', preparation⟩, hprepare⟩
      obtain rfl : folder = folder' :=
        Except.ok.inj (hfolder.symm.trans (readDatasetFolder_of_prepareJob hprepare))
      obtain ⟨result, db', hcreate, hnew, hjob, hcreated⟩ :=
        createJob_of_prepared houtside hkey hnone hprepare
      have hrows := hfits result db' hcreate hnew
      rw [hjob] at hrows
      apply (fits_created_iff houtside hkey hprepare hcreated hmetrics).mp
      rw [← filter_created hcreated]
      exact hrows
  · intro hdataset
    have hfits : ∀ result db', createJob e request drawn db = .ok (result, db') →
        result.replayed = false → (fitsJob result.job
          && (db'.tickets.rows.filter fun t => t.jobId = result.job.id).all fitsTicket)
            = true := by
      intro result db' hcreate hnew
      obtain ⟨key, folder, preparation, hkey, hnone, hprepare, hjob, hcreated⟩ :=
        createJob_new hcreate hnew
      obtain ⟨entries, config, metrics, agentId, frozen, hof⟩ := prepareJob_ok hprepare
      have hstorable := (hdataset key hkey hnone).storable folder metrics
        (readDatasetFolder_of_prepareJob hprepare) hof.listedMetrics ⟨_, hprepare⟩
      rw [hjob]
      change (_ && (db'.tickets.rows.filter fun t =>
        t.jobId = (preparedJob e request key drawn preparation).id).all fitsTicket) = true
      rw [filter_created hcreated]
      apply (fits_created_iff houtside hkey hprepare hcreated hof.listedMetrics).mpr hstorable
    constructor
    case raises =>
      apply raisesOnly_createJobTyped.mpr
      refine ⟨?_, hfits⟩
      rw [createJob, raisesOnly_bind]
      use raisesOnly_requireKey e.settings
      intro key hkey
      cases hnone : key.bind (jobByKey db) with
      | some job =>
        simp only [raisesOnly_bind, raisesOnly_ok, implies_true, and_true]
        apply raisesOnly_resultForExistingJob
      | none =>
        rw [createNewJob, raisesOnly_bind]
        use (raisesOnly_prepareJob houtside.case).mpr (hdataset key hkey hnone).convertible
        rintro ⟨folder, preparation⟩ hprepare
        obtain ⟨stored, hstore⟩ := returns_storeJob_prepared houtside hprepare hnone
        simp only [hstore, ok_bind]
        apply raisesOnly_ok
    case unchanged =>
      intro hraised
      cases htyped : createJobTyped e request drawn db with
      | ok outcome => exact absurd ⟨outcome, htyped⟩ hraised
      | error exn => rfl
    case fits =>
      intro result db' hcreate hnew t ht hjob
      have hrows := hfits result db' hcreate hnew
      rw [Bool.and_eq_true, List.all_eq_true] at hrows
      have hticket := hrows.2 t (List.mem_filter.mpr ⟨ht, by simpa using hjob⟩)
      simp only [fitsTicket, Bool.and_eq_true] at hticket
      exact hticket.1.1.1.1.1.1.1.1

namespace Demo

/-- Identifiers that are all different. -/
def distinctIds : Drawn where
  job := 0
  payload i := i
  ticket i j := Nat.pair i j

/-- A metric of some weight. -/
def weightedMetric (weight : Json) : Dict :=
  Dict.set (fieldsOf (configMetric "first" "correlation" [])) "weight" weight

/-- A dataset of two payloads and one metric of some weight. -/
def weighted (weight : Json) : Surroundings where
  builtins := builtins
  settings := .default
  identifiers := distinctIdentifiers
  digest _ := ""
  files _ := .folder (.ok [⟨"a.json", false, .json (.dict emptyPayload)⟩,
    ⟨"b.json", false, .json (.dict emptyPayload)⟩,
    ⟨"config.json", false, .json (.dict (config
      [.dict (weightedMetric weight)]))⟩])

/-- A dataset whose metric has a lone surrogate for its name. -/
def surrogate : Surroundings :=
  { weighted (.int 1) with
    files := fun _ => .folder (.ok [⟨"a.json", false, .json (.dict emptyPayload)⟩,
      ⟨"config.json", false, .json (.dict (config
        [configMetric (String.singleton (Char.ofNat 0x10d800)) "correlation" []]))⟩]) }

theorem outside (weight : Json) :
  Outside (weighted weight) distinctIds Db.empty
  := by
  constructor
  case case => exact caseMappings
  case plain =>
    constructor
    case uuidText =>
      intro _
      rfl
    case digest =>
      intro _
      rfl
    case isoNow => rfl
    case judgeModel =>
      change fitsText "gpt-4o-mini" = true
      decide
    case defaultProvider =>
      change fitsText "openai" = true
      decide
  case fresh =>
    constructor
    case job => simp [Db.empty, Table.empty]
    case ticket => simp [Db.empty, Table.empty]
    case distinct =>
      intro i j i' j' h
      apply Nat.pair_eq_pair.mp h
  case index => exact List.nodup_nil
  case names =>
    intro _ entries hentries
    cases hentries
    change ["a.json", "b.json", "config.json"].Nodup
    decide
  case uuid5 =>
    intro config
    exact uuid5_injective.injOn

end Demo

/-- A dataset whose metric has a weight of one is answered cleanly. -/
theorem createJob_clean_demo :
  Clean (Demo.weighted (.int 1)) (Demo.createRequest none) Demo.distinctIds Db.empty
  := by
  have hconfig : ∀ folder, readDatasetFolder (Demo.weighted (.int 1)).builtins
      (Demo.weighted (.int 1)).files (Demo.createRequest none).datasetId = .ok folder →
      folder.payloads.length = 2
        ∧ folder.config.get "metrics" = .list [.dict (Demo.weightedMetric (.int 1))]
        ∧ ∀ file ∈ folder.payloads, fitsText file.filename = true
          ∧ extractAgentId file.payload file.filename = .ok Demo.agentId := by
    intro folder hfolder
    have hread : readDatasetFolder (Demo.weighted (.int 1)).builtins
        (Demo.weighted (.int 1)).files (Demo.createRequest none).datasetId = .ok _ := rfl
    rw [hread] at hfolder
    obtain rfl := Except.ok.inj hfolder
    refine ⟨rfl, rfl, ?_⟩
    intro file hfile
    rcases List.mem_cons.mp hfile with rfl | hfile
    · exact ⟨by decide, rfl⟩
    · obtain rfl := List.mem_singleton.mp hfile
      exact ⟨by decide, rfl⟩
  apply (createJob_clean_iff (Demo.outside (.int 1))).mpr
  intro key _ _
  constructor
  case convertible =>
    rintro folder source agentId metrics metric hfolder henters ⟨before, after, rfl, -⟩ -
    have hlisted := henters.configures.listed
    rw [(hconfig folder hfolder).2.1, Json.list.injEq] at hlisted
    obtain rfl : metric = Demo.weightedMetric (.int 1) := by
      cases before with
      | nil => exact (Json.dict.inj (List.cons.inj hlisted).1).symm
      | cons _ before => simp at hlisted
    refine ⟨rfl, rfl, ?_⟩
    obtain ⟨file, hfile, rfl, -, hagent⟩ := henters.payload
    obtain rfl := Except.ok.inj (((hconfig folder hfolder).2.2 file
      (List.mem_of_mem_head? hfile)).2.symm.trans hagent)
    intro check hcheck d hd
    cases hcheck
    cases hd
    decide +kernel
  case storable =>
    intro folder metrics hfolder hlisted _
    obtain ⟨hpayloads, hmetrics, hfiles⟩ := hconfig folder hfolder
    rw [hmetrics, Json.list.injEq] at hlisted
    subst hlisted
    constructor
    case name => rfl
    case key => rfl
    case files => exact fun file hfile => (hfiles file hfile).1
    case payloads => rw [hpayloads]; rfl
    case tickets => rw [hpayloads]; rfl
    case metrics =>
      intro metric hmetric
      obtain rfl : metric = Demo.weightedMetric (.int 1) := List.mem_singleton.mp hmetric
      constructor
      · constructor
        case priority =>
          intro n hn
          obtain rfl := Except.ok.inj hn
          decide
        case maxAttempts =>
          intro n hn
          obtain rfl := Except.ok.inj hn
          decide
        case version =>
          intro n hn
          have hone : int? ((split '.' (strip (Demo.builtins.str
              ((Demo.weightedMetric (.int 1)).get "metricVersion")))).headD "") = some 1 := by
            decide +kernel
          obtain rfl := Option.some.inj (hone.symm.trans hn)
          decide
      · constructor
        case texts => decide +kernel
        all_goals decide +kernel

/-- An infinite weight makes `create_job` raise `OverflowError`, a lone surrogate in the name of a
metric makes it raise `UnicodeEncodeError`, and a weight of 32 bits and more is accepted for a
ticket whose row is then refused. -/
theorem createJob_clean_counterexample :
  createJob (Demo.weighted (.float .infinity)) (Demo.createRequest none) Demo.distinctIds Db.empty
      = .error (.other "OverflowError" "cannot convert float infinity to integer")
    ∧ ¬ Clean (Demo.weighted (.float .infinity)) (Demo.createRequest none) Demo.distinctIds Db.empty
    ∧ createJob Demo.surrogate (Demo.createRequest none) Demo.distinctIds Db.empty
      = .error (.builtin "UnicodeEncodeError"
        "'utf-8' codec can't encode characters: surrogates not allowed")
    ∧ (∃ result db', createJob (Demo.weighted (.int 4294967296)) (Demo.createRequest none)
        Demo.distinctIds Db.empty = .ok (result, db')
      ∧ ∃ t ∈ db'.tickets.rows, t.jobId = result.job.id ∧ t.priority = 4294967296)
    ∧ ¬ Clean (Demo.weighted (.int 4294967296)) (Demo.createRequest none) Demo.distinctIds Db.empty
  := by
  have hinfinite : createJob (Demo.weighted (.float .infinity)) (Demo.createRequest none)
      Demo.distinctIds Db.empty
      = .error (.other "OverflowError" "cannot convert float infinity to integer") := by rfl
  have hlarge : ((createJob (Demo.weighted (.int 4294967296)) (Demo.createRequest none)
      Demo.distinctIds Db.empty).toOption.map fun r => (r.1.replayed, r.1.job.id,
        r.2.tickets.rows.map fun t => (t.jobId, t.priority)))
      = some (false, 0, [(0, 4294967296), (0, 4294967296)]) := by decide +kernel
  have haccepted : ∃ result db', createJob (Demo.weighted (.int 4294967296))
      (Demo.createRequest none) Demo.distinctIds Db.empty = .ok (result, db')
      ∧ result.replayed = false
      ∧ ∃ t ∈ db'.tickets.rows, t.jobId = result.job.id ∧ t.priority = 4294967296 := by
    cases h : createJob (Demo.weighted (.int 4294967296)) (Demo.createRequest none)
        Demo.distinctIds Db.empty with
    | error exn => simp [h, Except.toOption] at hlarge
    | ok r =>
      obtain ⟨result, db'⟩ := r
      simp only [h, Except.toOption, Option.map_some, Option.some.injEq, Prod.mk.injEq] at hlarge
      obtain ⟨hnew, hid, hrows⟩ := hlarge
      have hmem : ((0 : ℕ), (4294967296 : ℤ)) ∈ db'.tickets.rows.map
          fun t => (t.jobId, t.priority) := by
        rw [hrows]
        apply List.mem_cons_self
      obtain ⟨t, ht, heq⟩ := List.mem_map.mp hmem
      rw [Prod.mk.injEq] at heq
      exact ⟨result, db', rfl, hnew, t, ht, by rw [heq.1, hid], heq.2⟩
  refine ⟨hinfinite, ?_, rfl, ?_, ?_⟩
  · intro hclean
    have hraises := (raisesOnly_createJobTyped.mp hclean.raises).1
    rw [hinfinite, raisesOnly_error] at hraises
    obtain ⟨_, _, hrejection⟩ := hraises
    cases hrejection
  · obtain ⟨result, db', h, -, t, ht, hjob, hpriority⟩ := haccepted
    exact ⟨result, db', h, t, ht, hjob, hpriority⟩
  · intro hclean
    obtain ⟨result, db', h, hnew, t, ht, hjob, hpriority⟩ := haccepted
    have hfits := hclean.fits result db' h hnew t ht hjob
    simp [fitsNumbers, fitsInteger, hpriority] at hfits

end Evalorch
