import Evalorch.Creation.FanOut
import Evalorch.Resolution.Normalization

/-!
# Priority and attempts of tickets

The priority of a ticket is the one of the request, or else the weight of its metric. The attempts
of a ticket are those of its metric, where normalization has filled in the setting when the
configuration gives none. So the attempts of the request never reach a ticket.
-/

namespace Evalorch

open Python Transact

variable {e : Surroundings} {request : CreateRequest} {drawn : Drawn}

/-! ### The numbers of a definition -/

/-- An integer of a definition without a problem is what `int` makes of it. -/
theorem definitionInt_ok {b : Builtins} {label field : String} {raw : Dict} {default : Json}
    {standIn : ℤ} {n : ℤ × List String}
    (h : definitionInt b label raw field default standIn = .ok n) (hproblems : n.2 = []) :
  b.int ((raw.lookup field).getD default) = .ok n.1
  := by
  unfold definitionInt at h
  split at h
  case h_1 n hn =>
    cases h
    exact hn
  case h_2 =>
    cases h
    cases hproblems
  case h_3 => cases h

/-- The attempts of a definition without a problem are as they were. -/
theorem atLeastOne_ok {label : String} {maxAttempts : ℤ}
    (h : (atLeastOne label maxAttempts).2 = []) :
  (atLeastOne label maxAttempts).1 = maxAttempts
  := by
  unfold atLeastOne at h ⊢
  split at h
  case isTrue => cases h
  case isFalse hlt => rw [if_neg hlt]

/-- The priority and the attempts of a definition are those of the raw one, or their defaults. -/
theorem normalizeDefinition_numbers {b : Builtins} {settings : Settings} {raw : Dict}
    {label : String} {d : MetricDefinition}
    (h : normalizeDefinition b settings raw label (freezeDefaults settings) = .ok d) :
  b.int ((raw.lookup "priority").getD (.int 0)) = .ok d.priority
    ∧ b.int ((raw.lookup "max_attempts").getD (.int settings.runnerMaxAttempts))
      = .ok d.maxAttempts
  := by
  rw [normalizeDefinition] at h
  obtain ⟨_, -, h⟩ := bind_eq_ok.mp h
  obtain ⟨_, -, h⟩ := bind_eq_ok.mp h
  obtain ⟨_, -, h⟩ := bind_eq_ok.mp h
  obtain ⟨_, -, h⟩ := bind_eq_ok.mp h
  obtain ⟨priority, hpriority, h⟩ := bind_eq_ok.mp h
  obtain ⟨maxAttempts, hattempts, h⟩ := bind_eq_ok.mp h
  simp only [Bool.not_eq_true', List.isEmpty_eq_false_iff] at h
  split at h
  case isTrue => cases h
  case isFalse hproblems =>
    simp only [ne_eq, not_not, List.append_eq_nil_iff] at hproblems
    obtain ⟨⟨⟨⟨⟨-, hnoPriority⟩, hnoAttempts⟩, hbounded⟩, -⟩, -⟩ := hproblems
    have hkept := atLeastOne_ok hbounded
    cases h
    constructor
    · apply definitionInt_ok hpriority hnoPriority
    · rw [hkept]
      apply definitionInt_ok hattempts hnoAttempts

/-! ### The numbers of a metric -/

/-- A field that is passed on is the field of the metric. -/
theorem lookup_passedField (metric : Dict) (field : String) :
  (passedField metric field).lookup field = metric.lookup field
  := by
  unfold passedField
  split
  case h_1 value hvalue => simp [hvalue]
  case h_2 hnone => simp [hnone]

/-- A check that is built has the priority it was built with, and the attempts of its metric. -/
theorem lookup_builtCheck (metric : Dict) (metricId evaluator metricName : String)
    (checkType : Option CheckType) (mapping params : Dict) (pass : Json) (priority : ℤ)
    (spanNames : List String) :
  (builtCheck metric metricId evaluator metricName checkType mapping params pass priority
      spanNames).lookup "priority" = some (.int priority)
    ∧ (builtCheck metric metricId evaluator metricName checkType mapping params pass priority
      spanNames).lookup "max_attempts" = metric.lookup "max_attempts"
  := by
  have hpolicy := lookup_passedField_of_ne metric
    (show "max_attempts" ≠ "on_missing_context" by decide)
  have hattempts := lookup_passedField metric "max_attempts"
  constructor
  · rfl
  · unfold builtCheck
    cases hguard : requiredSpansGuard (spanNames.map strip) <;> cases checkType <;>
      simp [List.lookup_append, List.lookup_cons, hpolicy, hattempts]

/-- A check has the weight of its metric as an integer for its priority, and its attempts. -/
theorem metricDefinition_numbers {b : Builtins} {metric check : Dict} {source : String}
    (h : metricDefinition b metric source = .ok check) :
  ∃ priority, b.int (metric.get "weight") = .ok priority
    ∧ check.lookup "priority" = some (.int priority)
    ∧ check.lookup "max_attempts" = metric.lookup "max_attempts"
  := by
  obtain ⟨parts, rfl⟩ := metricDefinition_parts h
  use parts.priority, parts.priority_eq
  apply lookup_builtCheck

/-- A metric is frozen with the defaults of `freeze_metric`. -/
theorem freezeMetric_normalizes {b : Builtins} {settings : CreationSettings} {ids : Identifiers}
    {check : Dict} {agentId : String} {m : FrozenMetric}
    (h : freezeMetric b settings ids check agentId = .ok m) :
  ∃ label, normalizeDefinition b settings.toSettings check label
    (freezeDefaults settings.toSettings) = .ok m.definition
  := by
  rw [freezeMetric] at h
  split at h
  case h_1 => cases h
  case h_2 => cases h
  case h_3 definition hdefinition =>
    obtain ⟨id, -, h⟩ := bind_eq_ok.mp h
    cases h
    exact ⟨_, hdefinition⟩

/-- The numbers of a frozen metric are those of its entry in the configuration. -/
theorem Freezes.numbers {b : Builtins} {settings : CreationSettings} {ids : Identifiers}
    {agentId : String} {metric : Dict} {m : FrozenMetric}
    (h : Freezes b settings ids agentId metric m) :
  b.int (metric.get "weight") = .ok m.definition.priority
    ∧ b.int ((metric.lookup "max_attempts").getD (.int settings.runnerMaxAttempts))
      = .ok m.definition.maxAttempts
  := by
  obtain ⟨source, seen, h⟩ := h
  rw [configuredMetric] at h
  obtain ⟨check, hcheck, h⟩ := bind_eq_ok.mp h
  obtain ⟨frozen, hfrozen, h⟩ := bind_eq_ok.mp h
  have hdefinition : m.definition = frozen.definition := by
    simp only at h
    split at h
    case isTrue => cases h
    case isFalse =>
      obtain ⟨version, -, h⟩ := bind_eq_ok.mp h
      cases h
      rfl
  obtain ⟨label, hnormal⟩ := freezeMetric_normalizes hfrozen
  obtain ⟨hpriority, hattempts⟩ := normalizeDefinition_numbers hnormal
  obtain ⟨priority, hweight, hlookup⟩ := metricDefinition_numbers hcheck
  rw [hlookup.1] at hpriority
  rw [hlookup.2] at hattempts
  cases hpriority
  rw [hdefinition]
  exact ⟨hweight, hattempts⟩

/-! ### The numbers of a ticket -/

/-- The ticket has the priority and the attempts that are asked for: of the request before the
metric for its priority, and of the metric before the request for its attempts. -/
structure AsAsked (e : Surroundings) (request : CreateRequest) (metric : Dict)
    (t : EvaluationTicket) : Prop where
  priority : ∀ priority, request.priority = some priority → t.priority = priority
  weight : request.priority = none → e.builtins.int (metric.get "weight") = .ok t.priority
  ownAttempts : ∀ attempts, metric.lookup "max_attempts" = some attempts →
    e.builtins.int attempts = .ok t.maxAttempts
  attempts : metric.lookup "max_attempts" = none →
    t.maxAttempts = request.maxAttempts.getD e.settings.runnerMaxAttempts

/-- The metric, its priority and its attempts, of the tickets of a job. -/
theorem map_ticketRows (key : Option String) (preparation : Preparation) (now : Instant) :
  ((preparedJob e request key drawn preparation).ticketRows now).map
      (fun t => (t.metricId, t.priority, t.maxAttempts))
    = preparation.prepared.flatMap fun p => p.metrics.map fun m =>
        (m.definition.checkId, request.priority.getD m.definition.priority,
          m.definition.maxAttempts)
  := by
  have hprepared : ((preparedJob e request key drawn preparation).tickets.map fun t =>
      (t.metricId, t.priority, t.maxAttempts))
      = preparation.prepared.flatMap fun p => p.metrics.map fun m =>
        (m.definition.checkId, request.priority.getD m.definition.priority,
          m.definition.maxAttempts) :=
    map_preparedTickets (fun _ _ _ => rfl) key preparation
  rw [PreparedJob.ticketRows, List.map_map]
  exact hprepared

/-- The ticket of a metric is as asked exactly when the metric has attempts of its own or the
request leaves them as they are set. -/
theorem asAsked_iff {agentId : String} {metric : Dict} {m : FrozenMetric} {t : EvaluationTicket}
    (h : Freezes e.builtins e.settings e.identifiers agentId metric m)
    (hpriority : t.priority = request.priority.getD m.definition.priority)
    (hattempts : t.maxAttempts = m.definition.maxAttempts) :
  AsAsked e request metric t
    ↔ (metric.lookup "max_attempts" = none →
      request.maxAttempts.getD e.settings.runnerMaxAttempts = e.settings.runnerMaxAttempts)
  := by
  obtain ⟨hweight, hown⟩ := h.numbers
  have hset : metric.lookup "max_attempts" = none →
      m.definition.maxAttempts = e.settings.runnerMaxAttempts := by
    intro hnone
    rw [hnone] at hown
    exact (Except.ok.inj hown).symm
  constructor
  · intro hasked hnone
    rw [← hasked.attempts hnone, hattempts, hset hnone]
  · intro hrequest
    constructor
    case priority =>
      intro priority hsome
      rw [hpriority, hsome, Option.getD_some]
    case weight =>
      intro hnone
      rw [hpriority, hnone, Option.getD_none, hweight]
    case ownAttempts =>
      intro attempts hsome
      rw [hsome, Option.getD_some] at hown
      rw [hattempts, hown]
    case attempts =>
      intro hnone
      rw [hrequest hnone, hattempts, hset hnone]

/-- The tickets of a job are those of its frozen metrics. -/
theorem exists_metric_of_ticket {frozen : List FrozenMetric} {preparation : Preparation}
    (hmetrics : ∀ p ∈ preparation.prepared, p.metrics = frozen) {key : Option String}
    {now : Instant} {t : EvaluationTicket}
    (ht : t ∈ (preparedJob e request key drawn preparation).ticketRows now) :
  ∃ m ∈ frozen, t.metricId = m.definition.checkId
    ∧ t.priority = request.priority.getD m.definition.priority
    ∧ t.maxAttempts = m.definition.maxAttempts
  := by
  have hmap := List.mem_map_of_mem (f := fun t => (t.metricId, t.priority, t.maxAttempts)) ht
  rw [map_ticketRows] at hmap
  obtain ⟨p, hp, hmap⟩ := List.mem_flatMap.mp hmap
  obtain ⟨m, hm, heq⟩ := List.mem_map.mp hmap
  rw [hmetrics p hp] at hm
  simp only [Prod.mk.injEq] at heq
  exact ⟨m, hm, heq.1.symm, heq.2.1.symm, heq.2.2.symm⟩

/-- Every frozen metric has a ticket. -/
theorem exists_ticket_of_metric {frozen : List FrozenMetric} {preparation : Preparation}
    (hne : preparation.prepared ≠ []) (hmetrics : ∀ p ∈ preparation.prepared, p.metrics = frozen)
    {key : Option String} {now : Instant} {m : FrozenMetric} (hm : m ∈ frozen) :
  ∃ t ∈ (preparedJob e request key drawn preparation).ticketRows now,
    t.metricId = m.definition.checkId
    ∧ t.priority = request.priority.getD m.definition.priority
    ∧ t.maxAttempts = m.definition.maxAttempts
  := by
  obtain ⟨p, hp⟩ := List.exists_mem_of_ne_nil _ hne
  have hmap : (m.definition.checkId, request.priority.getD m.definition.priority,
      m.definition.maxAttempts) ∈ ((preparedJob e request key drawn preparation).ticketRows
        now).map fun t => (t.metricId, t.priority, t.maxAttempts) := by
    rw [map_ticketRows]
    apply List.mem_flatMap.mpr
    use p, hp
    rw [hmetrics p hp]
    exact List.mem_map.mpr ⟨m, hm, rfl⟩
  obtain ⟨t, ht, heq⟩ := List.mem_map.mp hmap
  simp only [Prod.mk.injEq] at heq
  exact ⟨t, ht, heq⟩

/-- Two enabled metrics of a job with one identifier are the same. -/
theorem enabledMetric_unique {folder : DatasetFolderContents} {preparation : Preparation}
    {entries : List Entry} {config : Entry} {metrics : List Json} {agentId : String}
    {frozen : List FrozenMetric}
    (hof : PreparedOf e request folder preparation entries config metrics agentId frozen)
    {metric metric' : Dict} (hmetric : metric ∈ enabledMetrics metrics)
    (hmetric' : metric' ∈ enabledMetrics metrics)
    (hid : strippedField e.builtins metric "metricId"
      = strippedField e.builtins metric' "metricId") :
  metric = metric'
  := by
  obtain ⟨_, document, _, metrics', hconfig, hdocument, -, hmetrics', hvalid, -⟩ :=
    validFolder_of_preparedOf hof
  cases hof.configured.1.symm.trans hconfig
  cases hof.configured.2.symm.trans hdocument
  have hsame := hof.listedMetrics.symm.trans hmetrics'
  rw [Json.list.injEq] at hsame
  subst hsame
  exact List.inj_on_of_nodup_map hvalid.distinct hmetric hmetric' hid

/-- Each ticket of a job that is created has the priority and the attempts that are asked for
exactly when every enabled metric has attempts of its own or the request leaves them as they are
set. -/
theorem tickets_asAsked_iff {db db' : Db} {result : JobCreationResult}
    (h : createJob e request drawn db = .ok (result, db')) (hnew : result.replayed = false) :
  ∃ entries config document metrics tickets,
    resolveDatasetDir e.builtins e.files request.datasetId = .ok (.ok entries)
    ∧ configEntry entries = some config ∧ readJsonObject config = .ok document
    ∧ document.get "metrics" = .list metrics ∧ db'.tickets.rows = db.tickets.rows ++ tickets
    ∧ ((∀ t ∈ tickets, ∃ metric ∈ enabledMetrics metrics,
          strippedField e.builtins metric "metricId" = .str t.metricId
            ∧ AsAsked e request metric t)
      ↔ ∀ metric ∈ enabledMetrics metrics, metric.lookup "max_attempts" = none →
        request.maxAttempts.getD e.settings.runnerMaxAttempts = e.settings.runnerMaxAttempts)
  := by
  rcases createJob_ok h with ⟨hreplayed, -⟩ | ⟨key, h⟩
  · rw [hnew] at hreplayed
    cases hreplayed
  obtain ⟨folder, preparation, hprepare, hcreated, -, -⟩ := createNewJob_ok h
  obtain ⟨entries, config, metrics, agentId, frozen, hof⟩ := prepareJob_ok hprepare
  refine ⟨entries, config, folder.config, metrics, _, hof.listed, hof.configured.1,
    hof.configured.2, hof.listedMetrics, hcreated.tickets, ?_⟩
  have hmetrics : ∀ p ∈ preparation.prepared, p.metrics = frozen :=
    fun p hp => (hof.payloads p hp).2.2.2
  have hne : preparation.prepared ≠ [] := by
    rintro hnil
    apply hcreated.tickets_ne
    simp [preparedJob, hnil]
  constructor
  · intro hasked metric hmetric
    obtain ⟨m, hm, hconfigured⟩ :=
      Python.exists_rel_of_forall₂ (List.Forall₂.flip hof.configuredMetrics) hmetric
    obtain ⟨t, ht, hid, hpriority, hattempts⟩ := exists_ticket_of_metric hne hmetrics hm
    obtain ⟨metric', hmetric', hid', hasked⟩ := hasked t ht
    rw [hid, ← hconfigured.metricId] at hid'
    cases enabledMetric_unique hof hmetric' hmetric hid'
    exact (asAsked_iff hconfigured.frozen hpriority hattempts).mp hasked
  · intro hrequest t ht
    obtain ⟨m, hm, hid, hpriority, hattempts⟩ := exists_metric_of_ticket hmetrics ht
    obtain ⟨metric, hmetric, hconfigured⟩ := Python.exists_rel_of_forall₂ hof.configuredMetrics hm
    use metric, hmetric
    rw [hid]
    use hconfigured.metricId
    exact (asAsked_iff hconfigured.frozen hpriority hattempts).mpr (hrequest metric hmetric)

namespace Demo

/-- A metric that sets its own attempts. -/
def ownAttempts : Dict :=
  Evalorch.fieldsOf (configMetric "first" "correlation" []) ++ [("max_attempts", .int 2)]

/-- The dataset with that metric only. -/
def ownSurroundings : Surroundings :=
  { surroundings with
    files := fun _ => .folder (.ok (entries.take 2 ++
      [⟨"config.json", false, .json (.dict (config [.dict ownAttempts]))⟩])) }

/-- A request for a priority and seven attempts. -/
def urgentRequest : CreateRequest :=
  { createRequest none with
    priority := some 5
    maxAttempts := some 7 }

end Demo

/-- The priority is that of the request, and the attempts are those that the metric sets. -/
theorem tickets_asAsked_demo :
  ∃ result db, createJob Demo.ownSurroundings Demo.urgentRequest Demo.rowIds Db.empty
      = .ok (result, db)
    ∧ db.tickets.rows.map (fun t => (t.priority, t.maxAttempts)) = [(5, 2), (5, 2)]
    ∧ ∀ t ∈ db.tickets.rows, ∃ metric ∈ enabledMetrics [.dict Demo.ownAttempts],
      AsAsked Demo.ownSurroundings Demo.urgentRequest metric t
  := by
  have hcreated : ((createJob Demo.ownSurroundings Demo.urgentRequest Demo.rowIds
      Db.empty).toOption.map fun r => (r.1.replayed,
        r.2.tickets.rows.map fun t => (t.priority, t.maxAttempts)))
      = some (false, [(5, 2), (5, 2)]) := by decide +kernel
  cases h : createJob Demo.ownSurroundings Demo.urgentRequest Demo.rowIds Db.empty with
  | error exn => simp [h, Except.toOption] at hcreated
  | ok r =>
    obtain ⟨result, db⟩ := r
    simp only [h, Except.toOption, Option.map_some, Option.some.injEq, Prod.mk.injEq] at hcreated
    obtain ⟨entries, config, document, metrics, tickets, hentries, hconfig, hdocument, hmetrics,
      htickets, hiff⟩ := @tickets_asAsked_iff Demo.ownSurroundings Demo.urgentRequest Demo.rowIds
        Db.empty db result h hcreated.1
    cases hentries
    cases hconfig
    cases hdocument
    cases hmetrics
    refine ⟨result, db, rfl, hcreated.2, ?_⟩
    rw [htickets]
    intro t ht
    obtain ⟨metric, hmetric, -, hasked⟩ := hiff.mpr (by decide +kernel) t ht
    exact ⟨metric, hmetric, hasked⟩

namespace Demo

/-- A request that asks for seven attempts. -/
def sevenAttempts : CreateRequest :=
  { createRequest none with maxAttempts := some 7 }

/-- The one enabled metric of the dataset. -/
def onlyMetric : Dict :=
  Evalorch.fieldsOf (configMetric "first" "correlation" [])

end Demo

/-- A request for seven attempts gets three. -/
theorem tickets_asAsked_counterexample :
  ∃ result db, createJob Demo.surroundings Demo.sevenAttempts Demo.rowIds Db.empty
      = .ok (result, db)
    ∧ ∃ t ∈ db.tickets.rows, t.metricId = "first"
      ∧ ¬ AsAsked Demo.surroundings Demo.sevenAttempts Demo.onlyMetric t
  := by
  have hattempts : ((createJob Demo.surroundings Demo.sevenAttempts Demo.rowIds
      Db.empty).toOption.map fun r => r.2.tickets.rows.map fun t => (t.metricId, t.maxAttempts))
      = some [("first", 3), ("first", 3)] := by decide +kernel
  cases h : createJob Demo.surroundings Demo.sevenAttempts Demo.rowIds Db.empty with
  | error exn => simp [h, Except.toOption] at hattempts
  | ok r =>
    obtain ⟨result, db⟩ := r
    simp only [h, Except.toOption, Option.map_some, Option.some.injEq] at hattempts
    use result, db, rfl
    have hmem : ("first", 3) ∈ db.tickets.rows.map fun t => (t.metricId, t.maxAttempts) := by
      rw [hattempts]
      exact List.mem_cons_self
    obtain ⟨t, ht, heq⟩ := List.mem_map.mp hmem
    simp only [Prod.mk.injEq] at heq
    use t, ht, heq.1
    intro hasked
    have hseven := hasked.attempts rfl
    rw [heq.2] at hseven
    cases hseven

end Evalorch
