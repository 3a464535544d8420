import Evalorch.Python.Raising
import Evalorch.Services.MetricValidation
import Evalorch.Services.PayloadValidation

/-!
# Metrics of a configuration

`metricsForAgent` reads the metrics that `config.json` lists for the agent of a payload, checks
each enabled one, and freezes its definition: a `FrozenMetric` carries the identifier its name
is hashed to and the normalized definition, and `asSnapshot` is what a ticket stores of it.
`metricFromSnapshot` finds the check definition in that snapshot again.
-/

namespace Evalorch

/-- The document itself, when it is a check definition. -/
def checkDefinition (document : Dict) : Option Dict :=
  if (document.get "check_id").truthy then some document else none

/-- `metric_from_snapshot`. -/
def metricFromSnapshot (metricSnapshot : Dict) : Option Dict :=
  match metricSnapshot.get "definition_payload" with
  | .dict definition => (checkDefinition definition).or (checkDefinition metricSnapshot)
  | _ => checkDefinition metricSnapshot

/-! ### Identifiers -/

/-- What freezing a metric takes from the interpreter: `uuid.uuid5` of a name in the URL
namespace that can be encoded, the text of an identifier, and the time as a text. -/
structure Identifiers where
  uuid5 : String → Uuid
  uuidText : Uuid → String
  isoNow : String

/-- `uuid.uuid5(uuid.NAMESPACE_URL, name)`, which encodes the name as UTF-8. -/
def Identifiers.uuid5? (ids : Identifiers) (name : String) : Except Exn Uuid :=
  if Python.encodes name then .ok (ids.uuid5 name)
  else .error (.builtin "UnicodeEncodeError"
    "'utf-8' codec can't encode characters: surrogates not allowed")

theorem Identifiers.uuid5?_ok {ids : Identifiers} {name : String} {id : Uuid}
    (h : ids.uuid5? name = .ok id) :
  Python.encodes name = true ∧ id = ids.uuid5 name
  := by
  unfold uuid5? at h
  split at h
  case isTrue hencodes => exact ⟨hencodes, (Except.ok.inj h).symm⟩
  case isFalse => cases h

/-- `ProfileResolutionError(message)`. -/
def profileResolutionError (message : String) : Exn :=
  .builtin "ProfileResolutionError" message

/-- `ProfileNotFoundError(message)`. -/
def profileNotFoundError (message : String) : Exn :=
  .builtin "ProfileNotFoundError" message

/-- `extract_agent_id`. -/
def extractAgentId (payload : Dict) (source : String) : Except Exn String :=
  match payload.get "agent_registry" with
  | .null => .error (profileResolutionError
      (source ++ ": missing agent_registry; expected payload.agent_registry.agent_id"))
  | .dict registry =>
    match Dict.get registry "agent_id" with
    | .null => .error (profileResolutionError
        (source ++ ": agent_registry.agent_id is required and must be non-empty"))
    | .str agentId =>
      if Python.strip agentId = "" then
        .error (profileResolutionError
          (source ++ ": agent_registry.agent_id is required and must be non-empty"))
      else .ok (Python.strip agentId)
    | _ => .error (profileResolutionError
        (source ++ ": agent_registry.agent_id must be a string"))
  | registry => .error (profileResolutionError
      (source ++ ": agent_registry must be an object, got " ++ registry.typeName))

/-! ### Freezing -/

/-- A metric as it is frozen for tickets. -/
structure FrozenMetric where
  metricRecordId : Uuid
  metricName : Json
  metricDesc : Json
  metricVersionNumber : ℤ
  definition : MetricDefinition
  /-- The fields that the configuration adds to the definition. -/
  configured : Dict
  agentId : String
  frozenAt : String
  /-- The model and the provider of a judge. -/
  judge : Option (String × String)

namespace FrozenMetric

/-- `definition_payload`. -/
def definitionPayload (m : FrozenMetric) : Dict :=
  m.definition.asDict ++ m.configured

/-- The snapshot that a ticket stores. -/
def asSnapshot (ids : Identifiers) (m : FrozenMetric) : Dict :=
  [("metric_record_id", .str (ids.uuidText m.metricRecordId)),
    ("metric_id", .str m.definition.checkId), ("metric_code", .str m.definition.checkId),
    ("metric_name", m.metricName), ("metric_desc", m.metricDesc),
    ("metric_type", .str m.definition.checkType.value),
    ("metric_version_number", .int m.metricVersionNumber),
    ("definition_payload", .dict m.definitionPayload), ("agent_id", .str m.agentId),
    ("frozen_at", .str m.frozenAt)]
    ++ match m.judge with
      | some (model, provider) =>
          [("model", .dict [("model", .str model), ("provider", .str provider)])]
      | none => []

end FrozenMetric

/-- The name that the identifier of a metric is hashed from. -/
def metricRecordName (agentId checkId : String) : String :=
  "eval-platform:" ++ agentId ++ ":" ++ checkId

/-- `freeze_metric`. -/
def freezeMetric (b : Builtins) (settings : CreationSettings) (ids : Identifiers)
    (check : Dict) (agentId : String) : Except Exn FrozenMetric :=
  let defaults : Dict := [("priority", .int 0), ("max_attempts", .int settings.runnerMaxAttempts),
    ("on_missing_context", .str settings.defaultOnMissingContext.value)]
  let named := Python.strip
    (b.str (((check.get "check_id").or (check.get "id")).or (.str "")))
  let checkId := if named = "" then "check" else named
  match normalizeMetricDefinition b settings.toSettings (.dict check)
      ("config.json agent " ++ agentId ++ " check " ++ checkId) (some defaults) with
  | .error (.builtin "MetricDefinitionError" message) =>
      .error (profileResolutionError ("config.json agent " ++ b.repr (.str agentId) ++ " check "
        ++ b.repr (.str checkId) ++ " is invalid: " ++ message))
  | .error e => .error e
  | .ok definition => do
    let metricRecordId ← ids.uuid5? (metricRecordName agentId definition.checkId)
    .ok {
      metricRecordId := metricRecordId
      metricName := .str definition.checkId
      metricDesc := definition.description
      metricVersionNumber := 1
      definition := definition
      configured := []
      agentId := agentId
      frozenAt := ids.isoNow
      judge :=
        if definition.checkType = .llmJudge then
          some (settings.judgeModel, settings.defaultProvider)
        else none }

/-! ### Fields of a metric -/

/-- `_version_number`. -/
def versionNumber (b : Builtins) (value : Json) (source metricId : String) : Except Exn ℤ :=
  match Python.int? ((Python.split '.' (Python.strip (b.str value))).headD "") with
  | none => .error (profileResolutionError (source ++ ": metric " ++ b.repr (.str metricId)
      ++ " metricVersion must start with an integer, got " ++ b.repr value))
  | some number =>
    if number < 1 then
      .error (profileResolutionError
        (source ++ ": metric " ++ b.repr (.str metricId) ++ " metricVersion must be >= 1"))
    else .ok number

/-- `_number`. -/
def requireNumber (b : Builtins) (value : Json) (source metricId field : String) :
    Except Exn Unit :=
  match value with
  | .int _ | .float _ => .ok ()
  | _ => .error (profileResolutionError
      (source ++ ": metric " ++ b.repr (.str metricId) ++ " " ++ field ++ " must be a number"))

/-- A text field of a metric that must not be blank. -/
def requireMetricText (metric : Dict) (label field : String) : Except Exn String :=
  match metric.get field with
  | .str value =>
    if Python.strip value = "" then
      .error (profileResolutionError
        (label ++ ": " ++ field ++ " is required and must be a non-empty string"))
    else .ok value
  | _ => .error (profileResolutionError
      (label ++ ": " ++ field ++ " is required and must be a non-empty string"))

/-- The text of a document, when it is text that is not blank. -/
def nonblankText : Json → Option String
  | .str text => if Python.strip text = "" then none else some text
  | _ => none

/-- `spanNames` of a metric. -/
def requireSpanNames (metric : Dict) (label : String) : Except Exn (List String) :=
  match metric.get "spanNames" with
  | .list names =>
    match names.mapM nonblankText with
    | some names => .ok names
    | none => .error (profileResolutionError
        (label ++ ": spanNames must be an array of non-empty strings"))
  | _ => .error (profileResolutionError
      (label ++ ": spanNames must be an array of non-empty strings"))

/-- `thresholds.pass` and `thresholds.fail` of a metric. -/
def requireThresholds (b : Builtins) (metric : Dict) (source label metricId : String) :
    Except Exn (Json × Json) :=
  match metric.get "thresholds" with
  | .dict thresholds =>
    match List.lookup "pass" thresholds, List.lookup "fail" thresholds with
    | some pass, some fail => do
      requireNumber b pass source metricId "thresholds.pass"
      requireNumber b fail source metricId "thresholds.fail"
      .ok (pass, fail)
    | _, _ => .error (profileResolutionError (label ++ ": thresholds must include pass and fail"))
  | _ => .error (profileResolutionError (label ++ ": thresholds must include pass and fail"))

/-- A field of a metric that must be an object. -/
def requireObject (metric : Dict) (label field : String) : Except Exn Dict :=
  match metric.get field with
  | .dict value => .ok value
  | _ => .error (profileResolutionError (label ++ ": " ++ field ++ " must be an object"))

/-- The evaluator of a metric, and the type it declares. -/
def metricEvaluator (b : Builtins) (label metricType pluginId : String) :
    Except Exn (String × Option CheckType) :=
  let name := b.lower (Python.strip metricType)
  let plugin := resolveEvaluatorName b pluginId
  if name = "llm_judge" ∨ name = "llm" then .ok ("llm_judge", some .llmJudge)
  else if name = "deterministic" then
    if evaluatorExists b plugin then .ok (plugin, none)
    else .error (profileResolutionError (label ++ ": evaluatorPluginId "
      ++ b.repr (.str pluginId) ++ " is not a known evaluator"))
  else if evaluatorExists b (resolveEvaluatorName b name) then
    .ok (resolveEvaluatorName b name, none)
  else .error (profileResolutionError
    (label ++ ": metricType must be llm_judge or deterministic, got "
      ++ b.repr (.str metricType)))

/-- `enabled` of a metric. -/
def requireEnabled (metric : Dict) (label : String) : Except Exn Unit :=
  match metric.get "enabled" with
  | .bool _ => .ok ()
  | _ => .error (profileResolutionError (label ++ ": enabled must be true or false"))

/-- The guard that span names make. -/
def requiredSpansGuard (names : List String) : Dict :=
  if names.isEmpty then [] else [("required_spans", .list (names.map .str))]

/-- A field of a metric that is passed on as it is. -/
def passedField (metric : Dict) (field : String) : Dict :=
  match metric.lookup field with
  | some value => [(field, value)]
  | none => []

/-- The check that `_metric_definition` builds. -/
def builtCheck (metric : Dict) (metricId evaluator metricName : String)
    (checkType : Option CheckType) (mapping params : Dict) (pass : Json) (priority : ℤ)
    (spanNames : List String) : Dict :=
  let guard := requiredSpansGuard (spanNames.map Python.strip)
  [("check_id", .str metricId), ("evaluator", .str evaluator),
    ("description", .str (Python.strip metricName)), ("input_mapping", .dict mapping),
    ("params", .dict (if (params.lookup "pass_threshold").isSome then params
      else params ++ [("pass_threshold", pass)])),
    ("priority", .int priority)]
    ++ (checkType.map fun checkType => ("check_type", Json.str checkType.value)).toList
    ++ (if guard.isEmpty then [] else [("applies_when", .dict guard)])
    ++ passedField metric "on_missing_context" ++ passedField metric "max_attempts"

/-- `_metric_definition`. -/
def metricDefinition (b : Builtins) (metric : Dict) (source : String) : Except Exn Dict := do
  let metricId := Python.strip (b.str ((metric.get "metricId").or (.str "")))
  let label := source ++ ": metric " ++ if metricId = "" then "<missing>" else metricId
  let _ ← requireMetricText metric label "metricId"
  let metricName ← requireMetricText metric label "metricName"
  let _ ← requireMetricText metric label "metricVersion"
  let metricType ← requireMetricText metric label "metricType"
  let pluginId ← requireMetricText metric label "evaluatorPluginId"
  requireEnabled metric label
  let spanNames ← requireSpanNames metric label
  let (pass, _) ← requireThresholds b metric source label metricId
  requireNumber b (metric.get "weight") source metricId "weight"
  let mapping ← requireObject metric label "inputMapping"
  let params ← requireObject metric label "params"
  let (evaluator, checkType) ← metricEvaluator b label metricType pluginId
  let priority ← b.int (metric.get "weight")
  .ok (builtCheck metric metricId evaluator metricName checkType mapping params pass priority
    spanNames)

/-! ### The metrics of an agent -/

/-- A field of a metric as text, without surrounding white space. -/
def strippedField (b : Builtins) (metric : Dict) (field : String) : Json :=
  .str (Python.strip (b.str (metric.get field)))

/-- A field of a field of a metric. -/
def innerField (metric : Dict) (field inner : String) : Json :=
  match metric.get field with
  | .dict fields => Dict.get fields inner
  | _ => .null

/-- `[name.strip() for name in raw["spanNames"]]`. -/
def strippedSpanNames (b : Builtins) (metric : Dict) : Json :=
  match metric.get "spanNames" with
  | .list names => .list (names.map fun name => .str (Python.strip (b.str name)))
  | _ => .list []

/-- The fields that `_metrics_from_config` adds to a definition. -/
def configuredFields (b : Builtins) (metric : Dict) : Dict :=
  [("evaluator_plugin_id", strippedField b metric "evaluatorPluginId"),
    ("span_names", strippedSpanNames b metric),
    ("thresholds", .dict [("pass", innerField metric "thresholds" "pass"),
      ("fail", innerField metric "thresholds" "fail")]),
    ("weight", metric.get "weight"),
    ("metric_version", strippedField b metric "metricVersion")]

/-- An object of a list. -/
def coerceObject : Json → Option Dict
  | .dict fields => some fields
  | _ => none

/-- A metric that is switched off. -/
def isDisabled (metric : Dict) : Bool :=
  match metric.get "enabled" with
  | .bool false => true
  | _ => false

/-- The frozen metric of an enabled entry, unless its identifier is one of `seen`. -/
def configuredMetric (b : Builtins) (settings : CreationSettings) (ids : Identifiers)
    (agentId source : String) (seen : List String) (metric : Dict) : Except Exn FrozenMetric := do
  let check ← metricDefinition b metric source
  let frozen ← freezeMetric b settings ids check agentId
  let checkId := frozen.definition.checkId
  if checkId ∈ seen then
    .error (profileResolutionError (source ++ ": duplicate metricId " ++ b.repr (.str checkId)
      ++ " for agent " ++ b.repr (.str agentId)))
  else
    let version ← versionNumber b (metric.get "metricVersion") source checkId
    .ok { frozen with
      metricName := strippedField b metric "metricName"
      metricDesc := strippedField b metric "metricName"
      metricVersionNumber := version
      configured := configuredFields b metric }

/-- The loop of `_metrics_from_config` over the listed metrics. -/
def configuredMetrics (b : Builtins) (settings : CreationSettings) (ids : Identifiers)
    (agentId source : String) : List String → List Json → Except Exn (List FrozenMetric)
  | _, [] => .ok []
  | seen, .dict metric :: rest =>
    if isDisabled metric then configuredMetrics b settings ids agentId source seen rest
    else do
      let frozen ← configuredMetric b settings ids agentId source seen metric
      let others ← configuredMetrics b settings ids agentId source
        (frozen.definition.checkId :: seen) rest
      .ok (frozen :: others)
  | _, _ :: _ => .error (profileResolutionError
      (source ++ ": each config.json metrics entry must be an object"))

/-- `_metrics_from_config`. -/
def metricsFromConfig (b : Builtins) (settings : CreationSettings) (ids : Identifiers)
    (config : Dict) (agentId source : String) : Except Exn (List FrozenMetric) :=
  match config.get "agentId" with
  | .str rawAgentId =>
    let configured := Python.strip rawAgentId
    if !isUuid rawAgentId then
      .error (profileResolutionError (source ++ ": config.json agentId must be a UUID"))
    else if !isUuid agentId then
      .error (profileResolutionError
        (source ++ ": agent_id must be a UUID, got " ++ b.repr (.str agentId)))
    else if configured ≠ Python.strip agentId then
      .error (profileNotFoundError
        (source ++ ": agent_id " ++ b.repr (.str agentId) ++ " was not found in config.json"))
    else
      match config.get "metrics" with
      | .list (metric :: metrics) => do
        let snapshots ← configuredMetrics b settings ids configured source [] (metric :: metrics)
        if snapshots.isEmpty then
          .error (profileResolutionError (source ++ ": config.json agent "
            ++ b.repr (.str configured) ++ " has no enabled metrics"))
        else .ok snapshots
      | _ => .error (profileResolutionError
          (source ++ ": config.json must contain a non-empty metrics list"))
  | _ => .error (profileResolutionError (source ++ ": config.json agentId must be a UUID"))

/-- `metrics_for_agent`. -/
def metricsForAgent (b : Builtins) (settings : CreationSettings) (ids : Identifiers)
    (config : Dict) (agentId source : String) : Except Exn (List FrozenMetric) :=
  if (config.lookup "agents").isSome || (config.lookup "checks").isSome then
    .error (profileResolutionError
      (source ++ ": config.json agents/checks is not supported; use agentId and metrics"))
  else metricsFromConfig b settings ids config agentId source

/-! ### What a frozen metric carries -/

/-- Blank text is not kept. -/
theorem nonblankText_eq_some {document : Json} {text : String}
    (h : nonblankText document = some text) :
  document = .str text ∧ Python.strip text ≠ ""
  := by
  cases document with
  | str s =>
    simp only [nonblankText] at h
    split at h
    case isTrue => cases h
    case isFalse hne =>
      cases h
      exact ⟨rfl, hne⟩
  | _ => simp [nonblankText] at h

/-- A text field of a metric that is required is text. -/
theorem requireMetricText_ok {metric : Dict} {label field value : String}
    (h : requireMetricText metric label field = .ok value) :
  metric.get field = .str value ∧ Python.strip value ≠ ""
  := by
  unfold requireMetricText at h
  split at h
  case h_2 => cases h
  case h_1 text htext =>
    split at h
    case isTrue => cases h
    case isFalse hne =>
      cases h
      exact ⟨htext, hne⟩

/-- The span names of a metric are its texts, none of them blank. -/
theorem requireSpanNames_ok {metric : Dict} {label : String} {names : List String}
    (h : requireSpanNames metric label = .ok names) :
  metric.get "spanNames" = .list (names.map .str) ∧ ∀ name ∈ names, Python.strip name ≠ ""
  := by
  unfold requireSpanNames at h
  split at h
  case h_2 => cases h
  case h_1 items hitems =>
    split at h
    case h_2 => cases h
    case h_1 texts htexts =>
      cases h
      rw [hitems]
      clear hitems
      induction items generalizing names with
      | nil =>
        cases htexts
        simp
      | cons item items ih =>
        simp only [List.mapM_cons, Option.pure_def, Option.bind_eq_bind,
          Option.bind_eq_some_iff, Option.some.injEq] at htexts
        obtain ⟨text, htext, texts, hrest, rfl⟩ := htexts
        obtain ⟨rfl, hne⟩ := nonblankText_eq_some htext
        obtain ⟨hitems, hall⟩ := ih hrest
        rw [Json.list.injEq] at hitems
        simp [hitems, hne]
        simpa using hall

/-- A field that is passed on does not stand in for another. -/
theorem lookup_passedField_of_ne (metric : Dict) {field other : String} (h : other ≠ field) :
  (passedField metric field).lookup other = none
  := by
  have hne : (other == field) = false := by simpa using h
  unfold passedField
  split <;> simp [List.lookup_cons, hne]

/-- A check that is built has the guard of its span names. -/
theorem builtCheck_appliesWhen (metric : Dict) (metricId evaluator metricName : String)
    (checkType : Option CheckType) (mapping params : Dict) (pass : Json) (priority : ℤ)
    (spanNames : List String) (label : String) :
  definitionAppliesWhen label (builtCheck metric metricId evaluator metricName checkType mapping
      params pass priority spanNames)
    = (requiredSpansGuard (spanNames.map Python.strip), [])
  := by
  have hpolicy := lookup_passedField_of_ne metric
    (show "applies_when" ≠ "on_missing_context" by decide)
  have hattempts := lookup_passedField_of_ne metric
    (show "applies_when" ≠ "max_attempts" by decide)
  unfold definitionAppliesWhen builtCheck Dict.get
  cases hguard : requiredSpansGuard (spanNames.map Python.strip) <;> cases checkType <;>
    simp [List.lookup_append, List.lookup_cons, hpolicy, hattempts]

/-- The identifier of a check that is built is the one it was built with. -/
theorem builtCheck_checkId {metric mapping params : Dict} {metricId evaluator metricName : String}
    {checkType : Option CheckType} {pass : Json} {priority : ℤ} {spanNames : List String}
    {label checkId : String} (hstrip : Python.strip metricId = metricId)
    (hne : metricId ≠ "")
    (h : definitionCheckId label (builtCheck metric metricId evaluator metricName checkType mapping
      params pass priority spanNames) = .ok checkId) :
  checkId = metricId
  := by
  have hget : (builtCheck metric metricId evaluator metricName checkType mapping params pass
      priority spanNames).get "check_id" = .str metricId := rfl
  unfold definitionCheckId at h
  rw [hget] at h
  simp only [Json.or, Json.truthy, bne_iff_ne, ne_eq, hne, not_false_eq_true, if_true, hstrip,
    if_false] at h
  cases h
  rfl

/-- A field of a metric that is required to be an object is one. -/
theorem requireObject_ok {metric value : Dict} {label field : String}
    (h : requireObject metric label field = .ok value) :
  metric.get field = .dict value
  := by
  rw [requireObject] at h
  split at h
  case h_1 hvalue =>
    obtain rfl := Except.ok.inj h
    exact hvalue
  case h_2 => cases h

/-- The thresholds of a metric are among its fields. -/
theorem requireThresholds_ok {b : Builtins} {metric : Dict} {source label metricId : String}
    {pass fail : Json} (h : requireThresholds b metric source label metricId = .ok (pass, fail)) :
  innerField metric "thresholds" "pass" = pass ∧ innerField metric "thresholds" "fail" = fail
  := by
  rw [requireThresholds] at h
  split at h
  case h_2 => cases h
  case h_1 thresholds hthresholds =>
    split at h
    case h_2 => cases h
    case h_1 hpass hfail =>
      obtain ⟨_, -, h⟩ := Transact.bind_eq_ok.mp h
      obtain ⟨_, -, h⟩ := Transact.bind_eq_ok.mp h
      cases h
      rw [innerField, innerField, hthresholds]
      simp [Dict.get, hpass, hfail]

/-- The parts of a metric that its check is built from. -/
structure CheckParts (b : Builtins) (metric : Dict) where
  metricId : String
  metricName : String
  metricVersion : String
  pluginId : String
  evaluator : String
  checkType : Option CheckType
  mapping : Dict
  params : Dict
  priority : ℤ
  spanNames : List String
  metricId_eq : metric.get "metricId" = .str metricId
  metricId_ne : Python.strip metricId ≠ ""
  metricName_eq : metric.get "metricName" = .str metricName
  metricVersion_eq : metric.get "metricVersion" = .str metricVersion
  pluginId_eq : metric.get "evaluatorPluginId" = .str pluginId
  evaluator_eq : ∃ label metricType,
    metricEvaluator b label metricType pluginId = .ok (evaluator, checkType)
  mapping_eq : metric.get "inputMapping" = .dict mapping
  params_eq : metric.get "params" = .dict params
  priority_eq : b.int (metric.get "weight") = .ok priority
  spanNames_eq : metric.get "spanNames" = .list (spanNames.map .str)
  spanNames_ne : ∀ name ∈ spanNames, Python.strip name ≠ ""

/-- The check that is built from its parts. -/
def CheckParts.check {b : Builtins} {metric : Dict} (parts : CheckParts b metric) : Dict :=
  builtCheck metric (Python.strip parts.metricId) parts.evaluator parts.metricName
    parts.checkType parts.mapping parts.params (innerField metric "thresholds" "pass")
    parts.priority parts.spanNames

/-- A check is built from the parts of its metric. -/
theorem metricDefinition_parts {b : Builtins} {metric : Dict} {source : String} {check : Dict}
    (h : metricDefinition b metric source = .ok check) :
  ∃ parts : CheckParts b metric, check = parts.check
  := by
  rw [metricDefinition] at h
  obtain ⟨metricId, hmetricId, h⟩ := Transact.bind_eq_ok.mp h
  obtain ⟨metricName, hmetricName, h⟩ := Transact.bind_eq_ok.mp h
  obtain ⟨metricVersion, hmetricVersion, h⟩ := Transact.bind_eq_ok.mp h
  obtain ⟨metricType, -, h⟩ := Transact.bind_eq_ok.mp h
  obtain ⟨pluginId, hpluginId, h⟩ := Transact.bind_eq_ok.mp h
  obtain ⟨-, -, h⟩ := Transact.bind_eq_ok.mp h
  obtain ⟨names, hnames, h⟩ := Transact.bind_eq_ok.mp h
  obtain ⟨⟨pass, fail⟩, hthresholds, h⟩ := Transact.bind_eq_ok.mp h
  obtain ⟨-, -, h⟩ := Transact.bind_eq_ok.mp h
  obtain ⟨mapping, hmapping, h⟩ := Transact.bind_eq_ok.mp h
  obtain ⟨params, hparams, h⟩ := Transact.bind_eq_ok.mp h
  obtain ⟨⟨evaluator, checkType⟩, hevaluator, h⟩ := Transact.bind_eq_ok.mp h
  obtain ⟨priority, hpriority, h⟩ := Transact.bind_eq_ok.mp h
  obtain ⟨hspans, hne⟩ := requireSpanNames_ok hnames
  obtain ⟨hid, hblank⟩ := requireMetricText_ok hmetricId
  obtain ⟨hpass, -⟩ := requireThresholds_ok hthresholds
  have hnonempty : metricId ≠ "" := by
    rintro rfl
    exact hblank rfl
  have hor : (metric.get "metricId").or (.str "") = .str metricId := by
    simp [hid, Json.or, Json.truthy, hnonempty]
  rw [hor, ← hpass] at h
  let parts : CheckParts b metric := {
    metricId := metricId
    metricName := metricName
    metricVersion := metricVersion
    pluginId := pluginId
    evaluator := evaluator
    checkType := checkType
    mapping := mapping
    params := params
    priority := priority
    spanNames := names
    metricId_eq := hid
    metricId_ne := hblank
    metricName_eq := (requireMetricText_ok hmetricName).1
    metricVersion_eq := (requireMetricText_ok hmetricVersion).1
    pluginId_eq := (requireMetricText_ok hpluginId).1
    evaluator_eq := ⟨_, _, hevaluator⟩
    mapping_eq := requireObject_ok hmapping
    params_eq := requireObject_ok hparams
    priority_eq := hpriority
    spanNames_eq := hspans
    spanNames_ne := hne }
  exact ⟨parts, (Except.ok.inj h).symm⟩

/-- A metric whose definition is built has text span names, and the definition their guard and
the identifier of the metric. -/
theorem metricDefinition_ok {b : Builtins} {metric : Dict} {source : String} {check : Dict}
    (h : metricDefinition b metric source = .ok check) :
  (∀ label checkId, definitionCheckId label check = .ok checkId →
      strippedField b metric "metricId" = .str checkId)
    ∧ ∃ names : List String, metric.get "spanNames" = .list (names.map .str)
    ∧ (∀ name ∈ names, Python.strip name ≠ "")
    ∧ ∀ label, definitionAppliesWhen label check
        = (requiredSpansGuard (names.map Python.strip), [])
  := by
  obtain ⟨parts, rfl⟩ := metricDefinition_parts h
  constructor
  · intro label checkId hcheckId
    rw [builtCheck_checkId (Python.strip_strip parts.metricId) parts.metricId_ne hcheckId]
    simp [strippedField, parts.metricId_eq, Builtins.str]
  · use parts.spanNames, parts.spanNames_eq, parts.spanNames_ne
    intro label
    apply builtCheck_appliesWhen

/-- A frozen metric has the definition its check normalizes to, and the identifier of its
name. -/
theorem freezeMetric_ok {b : Builtins} {settings : CreationSettings} {ids : Identifiers}
    {check : Dict} {agentId : String} {m : FrozenMetric}
    (h : freezeMetric b settings ids check agentId = .ok m) :
  m.metricRecordId = ids.uuid5 (metricRecordName agentId m.definition.checkId)
    ∧ ∃ label defaults,
        normalizeDefinition b settings.toSettings check label defaults = .ok m.definition
  := by
  unfold freezeMetric at h
  simp only at h
  split at h
  case h_1 => cases h
  case h_2 => cases h
  case h_3 definition hdefinition =>
    obtain ⟨id, hid, h⟩ := Transact.bind_eq_ok.mp h
    cases h
    exact ⟨(Identifiers.uuid5?_ok hid).2, _, _, hdefinition⟩

/-- An entry of a configuration is frozen as a metric, after some others. -/
def Freezes (b : Builtins) (settings : CreationSettings) (ids : Identifiers) (agentId : String)
    (metric : Dict) (m : FrozenMetric) : Prop :=
  ∃ source seen, configuredMetric b settings ids agentId source seen metric = .ok m

/-- What is known of the frozen metric of an entry: an identifier that no earlier metric has,
the row identifier of its name, and the guard of its span names. -/
structure Configured (b : Builtins) (settings : CreationSettings) (ids : Identifiers)
    (agentId : String) (seen : List String) (metric : Dict) (m : FrozenMetric) : Prop where
  frozen : Freezes b settings ids agentId metric m
  fresh : m.definition.checkId ∉ seen
  named : m.definition.checkId ≠ ""
  metricId : strippedField b metric "metricId" = .str m.definition.checkId
  metricRecordId : m.metricRecordId = ids.uuid5 (metricRecordName agentId m.definition.checkId)
  configured : m.configured = configuredFields b metric
  guarded : ∃ names : List String, metric.get "spanNames" = .list (names.map .str)
    ∧ (∀ name ∈ names, Python.strip name ≠ "")
    ∧ m.definition.appliesWhen = requiredSpansGuard (names.map Python.strip)

theorem configuredMetric_ok {b : Builtins} {settings : CreationSettings} {ids : Identifiers}
    {agentId source : String} {seen : List String} {metric : Dict} {m : FrozenMetric}
    (h : configuredMetric b settings ids agentId source seen metric = .ok m) :
  Configured b settings ids agentId seen metric m
  := by
  have hfrozen : Freezes b settings ids agentId metric m := ⟨source, seen, h⟩
  unfold configuredMetric at h
  obtain ⟨check, hcheck, h⟩ := Transact.bind_eq_ok.mp h
  obtain ⟨metricFrozen, hmetric, h⟩ := Transact.bind_eq_ok.mp h
  simp only at h
  split at h
  case isTrue => cases h
  case isFalse hfresh =>
    obtain ⟨version, -, h⟩ := Transact.bind_eq_ok.mp h
    obtain ⟨hrecord, label, defaults, hdefinition⟩ := freezeMetric_ok hmetric
    obtain ⟨hcheckId, -, -, happlies⟩ := normalizeDefinition_ok hdefinition
    obtain ⟨hmetricId, names, hspans, hne, hguard⟩ := metricDefinition_ok hcheck
    cases h
    refine ⟨hfrozen, hfresh, definitionCheckId_ne_empty hcheckId, hmetricId _ _ hcheckId,
      hrecord, rfl, names, hspans, hne, ?_⟩
    rw [hguard label] at happlies
    exact (congrArg Prod.fst happlies).symm

/-- The entries of a list of metrics that are switched on. -/
def enabledMetrics (metrics : List Json) : List Dict :=
  (metrics.filterMap coerceObject).filter fun metric => !isDisabled metric

/-- The metrics of the loop belong to the enabled entries, one to each, and their identifiers
are distinct from each other and from those seen before; every entry is an object. -/
theorem configuredMetrics_ok {b : Builtins} {settings : CreationSettings} {ids : Identifiers}
    {agentId source : String} {seen : List String} {metrics : List Json}
    {frozen : List FrozenMetric}
    (h : configuredMetrics b settings ids agentId source seen metrics = .ok frozen) :
  List.Forall₂ (Configured b settings ids agentId seen) (enabledMetrics metrics) frozen
    ∧ (frozen.map fun m => m.definition.checkId).Nodup
    ∧ ∀ entry ∈ metrics, (coerceObject entry).isSome
  := by
  induction metrics generalizing seen frozen with
  | nil =>
    cases h
    exact ⟨.nil, .nil, by simp⟩
  | cons metric rest ih =>
    cases metric with
    | dict metric =>
      rw [configuredMetrics] at h
      split at h
      case isTrue hdisabled =>
        obtain ⟨hall, hnodup, hobjects⟩ := ih h
        refine ⟨by simpa [enabledMetrics, coerceObject, hdisabled] using hall, hnodup, ?_⟩
        rw [List.forall_mem_cons]
        exact ⟨rfl, hobjects⟩
      case isFalse henabled =>
        obtain ⟨m, hm, h⟩ := Transact.bind_eq_ok.mp h
        obtain ⟨others, hothers, h⟩ := Transact.bind_eq_ok.mp h
        cases h
        obtain ⟨hrest, hnodup, hobjects⟩ := ih hothers
        have hhead : enabledMetrics (.dict metric :: rest) = metric :: enabledMetrics rest := by
          simp [enabledMetrics, coerceObject, henabled]
        rw [hhead, List.forall_mem_cons]
        refine ⟨?_, ?_, rfl, hobjects⟩
        · refine .cons (configuredMetric_ok hm) (List.Forall₂.imp ?_ hrest)
          intro metric m hconfigured
          exact { hconfigured with
            fresh := fun hseen => hconfigured.fresh (List.mem_cons_of_mem _ hseen) }
        · rw [List.map_cons, List.nodup_cons]
          refine ⟨?_, hnodup⟩
          intro hmem
          obtain ⟨m', hm', heq⟩ := List.mem_map.mp hmem
          obtain ⟨metric', -, hconfigured⟩ := Python.exists_rel_of_forall₂ hrest hm'
          apply hconfigured.fresh
          rw [heq]
          exact List.mem_cons_self
    | _ => cases h

/-- The metrics of an agent belong to the enabled entries of a configuration for that agent, one
to each, and their identifiers are distinct; every entry is an object. -/
theorem metricsForAgent_ok {b : Builtins} {settings : CreationSettings} {ids : Identifiers}
    {config : Dict} {agentId source : String} {frozen : List FrozenMetric}
    (h : metricsForAgent b settings ids config agentId source = .ok frozen) :
  ∃ rawAgentId metrics, config.get "agentId" = .str rawAgentId
    ∧ Python.strip rawAgentId = Python.strip agentId ∧ config.get "metrics" = .list metrics
    ∧ List.Forall₂ (Configured b settings ids (Python.strip agentId) [])
        (enabledMetrics metrics) frozen
    ∧ (frozen.map fun m => m.definition.checkId).Nodup
    ∧ ∀ entry ∈ metrics, (coerceObject entry).isSome
  := by
  unfold metricsForAgent at h
  split at h
  case isTrue => cases h
  case isFalse =>
    unfold metricsFromConfig at h
    split at h
    case h_2 => cases h
    case h_1 rawAgentId hrawAgentId =>
      simp only at h
      split at h
      case isTrue => cases h
      split at h
      case isTrue => cases h
      split at h
      case isTrue => cases h
      case isFalse hagent =>
        split at h
        case h_2 => cases h
        case h_1 metric metrics hmetrics =>
          obtain ⟨snapshots, hsnapshots, h⟩ := Transact.bind_eq_ok.mp h
          split at h
          case isTrue => cases h
          case isFalse =>
            cases h
            obtain ⟨hall, hnodup, hobjects⟩ := configuredMetrics_ok hsnapshots
            rw [not_not.mp hagent] at hall
            exact ⟨_, _, hrawAgentId, not_not.mp hagent, hmetrics, hall, hnodup, hobjects⟩

/-! ### A small configuration -/

namespace Demo

/-- Identifiers that depend on nothing. -/
def identifiers : Identifiers where
  uuid5 _ := 0
  uuidText _ := ""
  isoNow := ""

/-- The agent of the configuration. -/
def agentId : String :=
  "00000000-0000-0000-0000-000000000001"

/-- An enabled metric that maps one value and names some spans. -/
def configMetric (metricId path : String) (spanNames : List String) : Json :=
  .dict [("metricId", .str metricId), ("metricName", .str "Metric"), ("metricVersion", .str "1"),
    ("metricType", .str "deterministic"), ("evaluatorPluginId", .str "required_fields"),
    ("enabled", .bool true), ("spanNames", .list (spanNames.map .str)),
    ("thresholds", .dict [("pass", .int 1), ("fail", .int 0)]), ("weight", .int 1),
    ("inputMapping", .dict [("value", .str path)]), ("params", .dict [])]

/-- A configuration with some metrics. -/
def config (metrics : List Json) : Dict :=
  [("agentId", .str agentId), ("metrics", .list metrics)]

end Demo

end Evalorch
