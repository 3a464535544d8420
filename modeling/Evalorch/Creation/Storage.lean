import Evalorch.Creation.Handlers
import Evalorch.Creation.Replay
import Evalorch.Services.Columns

/-!
# What a job stores

The rows of a job are made from the request, the names and identifiers of its payload files, and
the enabled metrics of its configuration. They fit their columns exactly when the numbers of these
are of 32 bits and their documents can be stored, and when they fit they are stored.
-/

namespace Evalorch

open Python Transact

/-! ### Plain texts -/

/-- The texts that come from outside the dataset fit: identifiers and times are printed in ASCII,
and the model and the provider of a judge are set in the configuration of the service. -/
structure PlainTexts (e : Surroundings) : Prop where
  uuidText : ∀ id, fitsText (e.identifiers.uuidText id) = true
  isoNow : fitsText e.identifiers.isoNow = true
  judgeModel : fitsText e.settings.judgeModel = true
  defaultProvider : fitsText e.settings.defaultProvider = true
  digest : ∀ body, fitsText (e.digest body) = true

theorem fitsChar_of_isHexDigit {c : Char} (h : isHexDigit c = true) :
  fitsChar c = true
  := by
  simp only [isHexDigit, Bool.or_eq_true, Bool.and_eq_true, decide_eq_true_eq] at h
  rcases h with (⟨hfirst, hlast⟩ | ⟨hfirst, hlast⟩) | ⟨hfirst, hlast⟩ <;>
    exact fitsChar_of_le hfirst hlast (by decide) (by decide)

theorem fitsChar_of_isPlain {c : Char} (h : isPlain c = true) :
  fitsChar c = true
  := by
  simp only [isPlain, Bool.or_eq_true, Bool.and_eq_true, decide_eq_true_eq] at h
  rcases h with (⟨hfirst, hlast⟩ | ⟨hfirst, hlast⟩) | ⟨hfirst, hlast⟩ <;>
    exact fitsChar_of_le hfirst hlast (by decide) (by decide)

/-- An identifier fits. -/
theorem fitsText_of_isUuid {text : String} (h : isUuid text = true) :
  fitsText text = true
  := by
  rw [← fitsText_strip, fitsText_iff]
  intro c hmem
  by_cases hdash : c = '-'
  · rw [hdash]
    decide
  · obtain ⟨group, hgroup, hc⟩ := exists_mem_splitOn hdash hmem
    rw [isUuid] at h
    simp only [Bool.and_eq_true, List.all_eq_true] at h
    exact fitsChar_of_isHexDigit (h.2 group hgroup _ hc)

/-- The name of a dataset folder fits. -/
theorem fitsText_of_isDatasetId {text : String} (h : isDatasetId (strip text) = true) :
  fitsText text = true
  := by
  rw [← fitsText_strip, fitsText_iff]
  intro c hmem
  rw [isDatasetId] at h
  split at h
  case h_1 => cases h
  case h_2 first rest htext =>
    rw [htext] at hmem
    simp only [Bool.and_eq_true, List.all_eq_true, Bool.or_eq_true, decide_eq_true_eq] at h
    rcases List.mem_cons.mp hmem with rfl | hrest
    · exact fitsChar_of_isPlain h.1.1
    · rcases h.2 c hrest with ((hplain | rfl) | rfl) | rfl
      · exact fitsChar_of_isPlain hplain
      all_goals decide

/-! ### Frozen metrics -/

section Frozen

variable {b : Builtins} {settings : CreationSettings} {ids : Identifiers} {agentId : String}
  {metric : Dict} {m : FrozenMetric}

/-- A number that is finite can be stored in a document. -/
theorem fitsJson_number {value : Json} (h : isNumber value = true)
    (hfinite : isFinite value = true) :
  fitsJson value = true
  := by
  cases value with
  | int n => simp [fitsJson]
  | float x => cases x <;> simp_all [fitsJson, isFinite]
  | _ => cases h

/-- How the parts of a metric are frozen. -/
structure FrozenFrom (b : Builtins) (settings : CreationSettings) (ids : Identifiers)
    (agentId : String) (metric : Dict) (parts : CheckParts b metric) (m : FrozenMetric) :
    Prop where
  normal : ∃ label, normalizeDefinition b settings.toSettings parts.check label
    (freezeDefaults settings.toSettings) = .ok m.definition
  name : m.metricName = strippedField b metric "metricName"
  desc : m.metricDesc = strippedField b metric "metricName"
  version : ∃ source metricId,
    versionNumber b (metric.get "metricVersion") source metricId = .ok m.metricVersionNumber
  configured : m.configured = configuredFields b metric
  agent : m.agentId = agentId
  frozenAt : m.frozenAt = ids.isoNow
  judge : ∀ judge ∈ m.judge, judge = (settings.judgeModel, settings.defaultProvider)
  weight : fitsJson (metric.get "weight") = true

theorem Freezes.parts (h : Freezes b settings ids agentId metric m) :
  ∃ parts, FrozenFrom b settings ids agentId metric parts m
  := by
  obtain ⟨source, seen, h⟩ := h
  rw [configuredMetric] at h
  obtain ⟨check, hcheck, hconfigured⟩ := bind_eq_ok.mp h
  obtain ⟨frozen, hfrozen, hseen⟩ := bind_eq_ok.mp hconfigured
  obtain ⟨parts, rfl⟩ := metricDefinition_parts hcheck
  simp only at hseen
  split at hseen
  case isTrue => cases hseen
  case isFalse =>
    obtain ⟨version, hversion, hm⟩ := bind_eq_ok.mp hseen
    cases hm
    have hnormal := freezeMetric_normalizes hfrozen
    rw [freezeMetric] at hfrozen
    split at hfrozen
    case h_1 => cases hfrozen
    case h_2 => cases hfrozen
    case h_3 definition hdefinition =>
      obtain ⟨id, -, hfrozen⟩ := bind_eq_ok.mp hfrozen
      cases hfrozen
      refine ⟨parts, hnormal, rfl, rfl, ⟨_, _, hversion⟩, rfl, rfl, rfl, ?_, ?_⟩
      · intro judge hjudge
        simp only at hjudge
        split at hjudge
        · exact (Option.mem_some_iff.mp hjudge).symm
        · cases hjudge
      · obtain ⟨hformed, hfinite⟩ := returns_metricDefinition.mp ⟨_, hcheck⟩
        apply fitsJson_number hformed.2 hfinite

/-- The description of a definition is kept. -/
theorem normalizeDefinition_description {raw : Dict} {label : String} {defaults : Dict}
    {d : MetricDefinition}
    (h : normalizeDefinition b settings.toSettings raw label defaults = .ok d) :
  d.description = raw.get "description"
  := by
  rw [normalizeDefinition] at h
  obtain ⟨_, -, h⟩ := bind_eq_ok.mp h
  obtain ⟨_, -, h⟩ := bind_eq_ok.mp h
  obtain ⟨_, -, h⟩ := bind_eq_ok.mp h
  obtain ⟨_, -, h⟩ := bind_eq_ok.mp h
  obtain ⟨_, -, h⟩ := bind_eq_ok.mp h
  obtain ⟨_, -, h⟩ := bind_eq_ok.mp h
  simp only at h
  split at h
  case isTrue => cases h
  case isFalse =>
    cases h
    rfl

/-- What an entry of a mapping is normalized to does not depend on how the mapping is called in
problems. -/
theorem normalizeSpec_label (label label' key : String) (spec : Json) :
  (normalizeSpec b label key spec).toOption = (normalizeSpec b label' key spec).toOption
  := by
  rw [normalizeSpec.eq_def, normalizeSpec.eq_def]
  split
  · rfl
  · split
    · split <;> rfl
    · split
      · split <;> rfl
      · rfl
    · rfl

/-- The entries of a mapping do not depend on how it is called in problems. -/
theorem validateInputMapping_label (mapping : Json) (label label' : String) :
  (validateInputMapping b mapping label).1 = (validateInputMapping b mapping label').1
  := by
  cases mapping with
  | dict mapping =>
    simp only [validateInputMapping]
    apply List.filterMap_congr
    intro entry _
    have hsame := normalizeSpec_label (b := b) label label' entry.1 entry.2
    cases hspec : normalizeSpec b label entry.1 entry.2 <;>
      cases hspec' : normalizeSpec b label' entry.1 entry.2 <;>
      simp_all [Except.toOption]
  | _ => rfl

/-- What a definition takes from the parts of its metric. -/
structure DefinedFrom (b : Builtins) (metric : Dict) (parts : CheckParts b metric)
    (d : MetricDefinition) : Prop where
  checkId : d.checkId = strip parts.metricId
  evaluator : ∃ resolvedType, evaluators.lookup d.evaluator = some resolvedType
  description : d.description = .str (strip parts.metricName)
  inputMapping : d.inputMapping = (validateInputMapping b (metric.get "inputMapping") "").1
  params : d.params = if (parts.params.lookup "pass_threshold").isSome then parts.params
    else parts.params ++ [("pass_threshold", innerField metric "thresholds" "pass")]
  policy : ∃ policy : OnMissingContext, d.onMissingContext = .str policy.value
  appliesWhen : d.appliesWhen = requiredSpansGuard (parts.spanNames.map strip)

theorem definedFrom_of_normal (hcase : CaseMappings b) {parts : CheckParts b metric}
    {label : String} {d : MetricDefinition}
    (h : normalizeDefinition b settings.toSettings parts.check label
      (freezeDefaults settings.toSettings) = .ok d) :
  DefinedFrom b metric parts d
  := by
  obtain ⟨hcheckId, hmapping, hparams, happlies⟩ := normalizeDefinition_ok h
  have hnormal := normalDefinition_of_ok hcase h
  constructor
  case checkId =>
    apply builtCheck_checkId (strip_strip parts.metricId) parts.metricId_ne hcheckId
  case evaluator => exact ⟨_, hnormal.evaluator_type⟩
  case description =>
    rw [normalizeDefinition_description h]
    rfl
  case inputMapping =>
    rw [show parts.check.get "input_mapping" = metric.get "inputMapping" from
      parts.mapping_eq.symm] at hmapping
    rw [validateInputMapping_label _ "" label, hmapping]
  case params =>
    have hget : parts.check.get "params" = .dict (if (parts.params.lookup "pass_threshold").isSome
        then parts.params
        else parts.params ++ [("pass_threshold", innerField metric "thresholds" "pass")]) := rfl
    rw [definitionParams, hget] at hparams
    exact (Prod.mk.inj hparams).1.symm
  case policy => exact hnormal.policy
  case appliesWhen =>
    rw [CheckParts.check, builtCheck_appliesWhen] at happlies
    exact (Prod.mk.inj happlies).1.symm

/-- The documents of a metric that are stored can be. -/
structure StorableFields (b : Builtins) (metric : Dict) : Prop where
  texts : ∀ field ∈ ["metricId", "metricName", "metricVersion", "evaluatorPluginId", "spanNames",
    "params"], fitsJson (metric.get field) = true
  pass : fitsJson (innerField metric "thresholds" "pass") = true
  fail : fitsJson (innerField metric "thresholds" "fail") = true
  mapping : fitsFields (validateInputMapping b (metric.get "inputMapping") "").1 = true

/-- The texts of a metric that are stored can be. -/
theorem storableFields_iff (parts : CheckParts b metric) :
  StorableFields b metric ↔ (fitsText parts.metricId = true ∧ fitsText parts.metricName = true
      ∧ fitsText parts.metricVersion = true ∧ fitsText parts.pluginId = true
      ∧ (∀ name ∈ parts.spanNames, fitsText name = true) ∧ fitsFields parts.params = true)
    ∧ fitsJson (innerField metric "thresholds" "pass") = true
    ∧ fitsJson (innerField metric "thresholds" "fail") = true
    ∧ fitsFields (validateInputMapping b (metric.get "inputMapping") "").1 = true
  := by
  have htexts : (∀ field ∈ ["metricId", "metricName", "metricVersion", "evaluatorPluginId",
      "spanNames", "params"], fitsJson (metric.get field) = true)
      ↔ fitsText parts.metricId = true ∧ fitsText parts.metricName = true
        ∧ fitsText parts.metricVersion = true ∧ fitsText parts.pluginId = true
        ∧ (∀ name ∈ parts.spanNames, fitsText name = true) ∧ fitsFields parts.params = true := by
    simp only [List.forall_mem_cons, List.not_mem_nil, IsEmpty.forall_iff, implies_true, and_true,
      parts.metricId_eq, parts.metricName_eq, parts.metricVersion_eq, parts.pluginId_eq,
      parts.spanNames_eq, parts.params_eq, fitsJson, fitsItems_iff, List.forall_mem_map]
  rw [← htexts]
  constructor
  · rintro ⟨htexts, hpass, hfail, hmapping⟩
    exact ⟨htexts, hpass, hfail, hmapping⟩
  · rintro ⟨htexts, hpass, hfail, hmapping⟩
    exact ⟨htexts, hpass, hfail, hmapping⟩

/-- The name of a known evaluator has no NUL. -/
theorem fitsText_evaluator {name : String} {checkType : CheckType}
    (h : evaluators.lookup name = some checkType) :
  fitsText name = true
  := by
  have hnames : ∀ entry ∈ evaluators, fitsText entry.1 = true := by decide +kernel
  obtain ⟨before, after, heq, -⟩ := List.lookup_eq_some_iff.mp h
  apply hnames (name, checkType)
  simp [heq]

/-- A definition can be stored when its parts can. -/
theorem fitsFields_asDict {parts : CheckParts b metric} {d : MetricDefinition}
    (h : DefinedFrom b metric parts d) :
  fitsFields d.asDict = true ↔ fitsText parts.metricId = true ∧ fitsText parts.metricName = true
    ∧ fitsFields d.inputMapping = true ∧ fitsFields d.params = true
    ∧ ∀ name ∈ parts.spanNames, fitsText name = true
  := by
  obtain ⟨policy, hpolicy⟩ := h.policy
  obtain ⟨resolvedType, htype⟩ := h.evaluator
  have hevaluator := fitsText_evaluator htype
  have htypes : fitsText d.checkType.value = true := by
    cases d.checkType <;> decide
  have hpolicies : fitsText policy.value = true := by
    cases policy <;> decide
  have hguard : fitsFields (if d.appliesWhen.isEmpty then []
      else [("applies_when", .dict d.appliesWhen)]) = true
        ↔ ∀ name ∈ parts.spanNames, fitsText name = true := by
    rw [h.appliesWhen]
    cases parts.spanNames with
    | nil => simp [requiredSpansGuard, fitsFields]
    | cons name names =>
      simp +decide [requiredSpansGuard, fitsFields, fitsJson, fitsItems_iff, fitsItems]
  rw [MetricDefinition.asDict, fitsFields_append, Bool.and_eq_true, hguard, h.checkId,
    h.description, hpolicy]
  simp +decide [fitsFields, fitsJson, htypes, hpolicies, hevaluator, and_assoc]

/-- The fields that the configuration adds to a definition can be stored when their parts can. -/
theorem fitsFields_configuredFields (parts : CheckParts b metric)
    (hweight : fitsJson (metric.get "weight") = true) :
  fitsFields (configuredFields b metric) = true ↔ fitsText parts.pluginId = true
    ∧ (∀ name ∈ parts.spanNames, fitsText name = true)
    ∧ (fitsJson (innerField metric "thresholds" "pass") = true
      ∧ fitsJson (innerField metric "thresholds" "fail") = true)
    ∧ fitsText parts.metricVersion = true
  := by
  have hspans : fitsJson (strippedSpanNames b metric) = true
      ↔ ∀ name ∈ parts.spanNames, fitsText name = true := by
    rw [strippedSpanNames, parts.spanNames_eq]
    simp [fitsJson, fitsItems_iff, Builtins.str]
  rw [configuredFields, strippedField, strippedField, parts.pluginId_eq, parts.metricVersion_eq]
  simp +decide [fitsFields, fitsJson, hweight, hspans, Builtins.str]

variable {e : Surroundings}

/-- Besides its definition, the snapshot of a frozen metric has texts of its entry. -/
theorem fitsFields_asSnapshot {parts : CheckParts e.builtins metric} (hplain : PlainTexts e)
    (hagent : fitsText agentId = true)
    (h : FrozenFrom e.builtins e.settings e.identifiers agentId metric parts m)
    (hcheckId : m.definition.checkId = strip parts.metricId) :
  fitsFields (m.asSnapshot e.identifiers) = true
    ↔ fitsText parts.metricId = true ∧ fitsText parts.metricName = true
      ∧ fitsFields m.definitionPayload = true
  := by
  have htypes : fitsText m.definition.checkType.value = true := by
    cases m.definition.checkType <;> decide
  have hname : fitsJson (strippedField e.builtins metric "metricName")
      = fitsText parts.metricName := by
    simp [strippedField, parts.metricName_eq, fitsJson, Builtins.str]
  rw [FrozenMetric.asSnapshot]
  cases hjudge : m.judge with
  | none =>
    simp +decide [fitsFields, fitsJson, hplain.uuidText, hplain.isoNow, hcheckId, h.name, h.desc,
      h.agent, h.frozenAt, hagent, htypes, hname]
  | some judge =>
    obtain rfl := h.judge judge hjudge
    simp +decide [fitsFields, fitsJson, hplain.uuidText, hplain.isoNow, hcheckId, h.name, h.desc,
      h.agent, h.frozenAt, hagent, htypes, hname, hplain.judgeModel, hplain.defaultProvider]

/-- The snapshot of a frozen metric can be stored exactly when the documents of its entry can. -/
theorem fitsFields_asSnapshot_iff (hcase : CaseMappings e.builtins) (hplain : PlainTexts e)
    (hagent : fitsText agentId = true)
    (h : Freezes e.builtins e.settings e.identifiers agentId metric m) :
  fitsFields (m.asSnapshot e.identifiers) = true ↔ StorableFields e.builtins metric
  := by
  obtain ⟨parts, hparts⟩ := h.parts
  obtain ⟨label, hnormal⟩ := hparts.normal
  have hdefined := definedFrom_of_normal hcase hnormal
  have hparams : fitsJson (innerField metric "thresholds" "pass") = true →
      (fitsFields m.definition.params = true ↔ fitsFields parts.params = true) := by
    intro hpass
    rw [hdefined.params]
    split
    · rfl
    · simp +decide [fitsFields_append, fitsFields, hpass]
  rw [fitsFields_asSnapshot hplain hagent hparts hdefined.checkId, storableFields_iff parts,
    FrozenMetric.definitionPayload, fitsFields_append, Bool.and_eq_true, hparts.configured,
    fitsFields_asDict hdefined, fitsFields_configuredFields parts hparts.weight,
    hdefined.inputMapping]
  constructor
  · rintro ⟨hid, hname, ⟨-, -, hmapping, hdefinition, hspans⟩, hplugin, -, ⟨hpass, hfail⟩,
      hversion⟩
    exact ⟨⟨hid, hname, hversion, hplugin, hspans, (hparams hpass).mp hdefinition⟩, hpass, hfail,
      hmapping⟩
  · rintro ⟨⟨hid, hname, hversion, hplugin, hspans, hgiven⟩, hpass, hfail, hmapping⟩
    exact ⟨hid, hname, ⟨hid, hname, hmapping, (hparams hpass).mpr hgiven, hspans⟩, hplugin, hspans,
      ⟨hpass, hfail⟩, hversion⟩

end Frozen

/-! ### Tickets -/

section Tickets

variable {e : Surroundings} {request : CreateRequest} {drawn : Drawn}

/-- The numbers of the tickets of a metric are of 32 bits: the priority that is asked for or the
weight, one more than the attempts, and the leading number of the version. -/
structure StorableNumbers (e : Surroundings) (request : CreateRequest) (metric : Dict) : Prop where
  priority : ∀ n, e.builtins.int (metric.get "weight") = .ok n →
    fitsInteger (request.priority.getD n) = true
  maxAttempts : ∀ n, e.builtins.int
      ((metric.lookup "max_attempts").getD (.int e.settings.runnerMaxAttempts)) = .ok n →
    fitsInteger (n + 1) = true
  version : ∀ n, int? ((split '.' (strip (e.builtins.str (metric.get "metricVersion")))).headD "")
      = some n →
    fitsInteger n = true

/-- The numbers of a ticket fit exactly when those of its metric do. -/
theorem fitsNumbers_iff (hcase : CaseMappings e.builtins) {agentId : String} {metric : Dict}
    {m : FrozenMetric} {t : EvaluationTicket}
    (h : Freezes e.builtins e.settings e.identifiers agentId metric m)
    (hpriority : t.priority = request.priority.getD m.definition.priority)
    (hversion : t.metricVersionNumber = m.metricVersionNumber)
    (hattempts : t.maxAttempts = m.definition.maxAttempts) :
  fitsNumbers t = true ↔ StorableNumbers e request metric
  := by
  obtain ⟨hweight, hown⟩ := h.numbers
  obtain ⟨parts, hparts⟩ := h.parts
  obtain ⟨label, hnormal⟩ := hparts.normal
  have hpos := (normalDefinition_of_ok hcase hnormal).maxAttempts_pos
  obtain ⟨source, metricId, hnumber⟩ := hparts.version
  have hint : int? ((split '.' (strip (e.builtins.str (metric.get "metricVersion")))).headD "")
      = some m.metricVersionNumber := by
    rw [versionNumber] at hnumber
    split at hnumber
    case h_1 => cases hnumber
    case h_2 number hint =>
      split at hnumber
      case isTrue => cases hnumber
      case isFalse =>
        cases hnumber
        exact hint
  have hsucc : fitsInteger (m.definition.maxAttempts + 1) = true →
      fitsInteger m.definition.maxAttempts = true := by
    simp only [fitsInteger, Bool.and_eq_true, decide_eq_true_eq]
    omega
  rw [fitsNumbers, hpriority, hversion, hattempts]
  simp only [Bool.and_eq_true]
  constructor
  · rintro ⟨⟨⟨hp, hv⟩, -⟩, ha⟩
    constructor
    case priority =>
      intro n hn
      rw [hweight] at hn
      cases hn
      exact hp
    case maxAttempts =>
      intro n hn
      rw [hown] at hn
      cases hn
      exact ha
    case version =>
      intro n hn
      rw [hint] at hn
      cases hn
      exact hv
  · intro hnumbers
    exact ⟨⟨⟨hnumbers.priority _ hweight, hnumbers.version _ hint⟩,
      hsucc (hnumbers.maxAttempts _ hown)⟩, hnumbers.maxAttempts _ hown⟩

/-- A field that is not missing is found. -/
theorem lookup_of_get {document : Dict} {key : String} {value : Json}
    (h : document.get key = value) (hne : value ≠ .null) :
  document.lookup key = some value
  := by
  rw [Dict.get] at h
  cases hlookup : document.lookup key with
  | none =>
    rw [hlookup] at h
    exact absurd h.symm hne
  | some found =>
    rw [hlookup] at h
    exact congrArg some h

/-- A field that is required to be an identifier is one. -/
theorem requireUuid_ok {b : Builtins} {container : Dict} {key label value : String}
    (h : requireUuid b container key label = .ok value) :
  ∃ text, container.get key = .str text ∧ strip text = value ∧ isUuid value = true
  := by
  obtain ⟨text, htext, h⟩ := bind_eq_ok.mp h
  rw [requireText] at htext
  split at htext
  case h_2 => cases htext
  case h_1 raw hraw =>
    split at htext
    case isTrue => cases htext
    case isFalse =>
      cases htext
      split at h
      case isFalse => cases h
      case isTrue huuid =>
        cases h
        exact ⟨raw, hraw, rfl, huuid⟩

/-- A payload that satisfies the contract has an identifier in its metadata. -/
theorem enforcePayloadContract_payloadId {b : Builtins} {payload : Dict} {label agentId : String}
    (h : enforcePayloadContract b payload label = .ok agentId) :
  ∃ metadata payloadId, payload.get "payload_metadata" = .dict metadata
    ∧ Dict.get metadata "payload_id" = .str payloadId ∧ isUuid (strip payloadId) = true
  := by
  rw [enforcePayloadContract] at h
  obtain ⟨_, -, h⟩ := bind_eq_ok.mp h
  obtain ⟨metadata, hmetadata, h⟩ := bind_eq_ok.mp h
  obtain ⟨_, -, h⟩ := bind_eq_ok.mp h
  obtain ⟨_, -, h⟩ := bind_eq_ok.mp h
  split at h
  case h_2 => cases h
  case h_1 =>
    obtain ⟨_, -, h⟩ := bind_eq_ok.mp h
    obtain ⟨_, -, h⟩ := bind_eq_ok.mp h
    obtain ⟨_, -, h⟩ := bind_eq_ok.mp h
    obtain ⟨_, -, h⟩ := bind_eq_ok.mp h
    obtain ⟨_, hpayloadId, -⟩ := bind_eq_ok.mp h
    obtain ⟨payloadId, hget, rfl, huuid⟩ := requireUuid_ok hpayloadId
    rw [requireMapping] at hmetadata
    split at hmetadata
    case h_2 => cases hmetadata
    case h_1 value hvalue =>
      cases hmetadata
      exact ⟨metadata, payloadId, hvalue, hget, huuid⟩

/-- The identifier of a valid payload is a text without NUL. -/
theorem fitsText_payloadId {entry : Entry} {file : PayloadFile}
    (hfile : readPayload e.builtins entry = .ok file)
    (hvalid : Returns (validatePayload e.builtins (.dict file.payload) none)) :
  ∀ payloadId ∈ file.payloadId, fitsText payloadId = true
  := by
  obtain ⟨document, -, hfile⟩ := bind_eq_ok.mp hfile
  cases hfile
  obtain ⟨report, hreport⟩ := hvalid
  rw [validatePayload.eq_def] at hreport
  split at hreport
  case h_1 => cases hreport
  case h_3 hdict => exact absurd rfl (hdict _)
  case h_2 payload _ hpayload =>
    obtain rfl := Json.dict.inj hpayload
    obtain ⟨agentId, hcontract, -⟩ := bind_eq_ok.mp hreport
    obtain ⟨metadata, payloadId, hmetadata, hget, huuid⟩ :=
      enforcePayloadContract_payloadId hcontract
    intro found hfound
    simp only [extractIdentifiers, firstStr, List.findSome?_cons, valueAt,
      lookup_of_get hmetadata (by simp), Option.bind_some, lookup_of_get hget (by simp),
      identifierText, Builtins.str] at hfound
    by_cases hblank : strip payloadId = ""
    · simp [hblank] at hfound
    · simp only [hblank, if_false, Option.mem_some_iff] at hfound
      rw [← hfound]
      apply fitsText_of_isUuid huuid

/-- The metrics of an agent are listed under an identifier, and there is one. -/
theorem metricsForAgent_agent {b : Builtins} {settings : CreationSettings} {ids : Identifiers}
    {config : Dict} {agentId source : String} {frozen : List FrozenMetric}
    (h : metricsForAgent b settings ids config agentId source = .ok frozen) :
  isUuid agentId = true ∧ frozen ≠ []
  := by
  rw [metricsForAgent] at h
  split at h
  case isTrue => cases h
  case isFalse =>
    rw [metricsFromConfig] at h
    split at h
    case h_2 => cases h
    case h_1 =>
      dsimp only at h
      split at h
      case isTrue => cases h
      split at h
      case isTrue => cases h
      case isFalse huuid =>
        split at h
        case isTrue => cases h
        split at h
        case h_2 => cases h
        case h_1 =>
          obtain ⟨snapshots, -, h⟩ := bind_eq_ok.mp h
          split at h
          case isTrue => cases h
          case isFalse hne =>
            cases h
            exact ⟨by simpa using huuid, by simpa using hne⟩

section Prepared

variable {folder : DatasetFolderContents} {preparation : Preparation} {entries : List Entry}
  {config : Entry} {metrics : List Json} {agentId : String} {frozen : List FrozenMetric}

/-- What is stored of the payloads of a job fits, besides the names of their files. -/
structure PlainPayload (request : CreateRequest) (agentId : String) (p : PreparedPayload) :
    Prop where
  datasetId : fitsText request.datasetId = true
  payloadId : p.file.payloadId.all fitsText = true
  agent : fitsText agentId = true

theorem plainPayload_of_preparedOf
    (hof : PreparedOf e request folder preparation entries config metrics agentId frozen)
    {p : PreparedPayload} (hp : p ∈ preparation.prepared) :
  PlainPayload request agentId p
  := by
  obtain ⟨hdatasetId, hfiles⟩ := resolveDatasetDir_ok hof.listed
  obtain ⟨source, hselected⟩ := hof.selected
  have hfile : p.file ∈ folder.payloads := by
    rw [← hof.prepared]
    apply List.mem_map_of_mem hp
  obtain ⟨entry, hentry, hread⟩ := Python.exists_rel_of_forall₂ hof.files hfile
  constructor
  case datasetId => apply fitsText_of_isDatasetId hdatasetId
  case agent => apply fitsText_of_isUuid (metricsForAgent_agent hselected).1
  case payloadId =>
    rw [Option.all_eq_true]
    apply fitsText_payloadId hread (hof.payloads p hp).1

/-- A ticket fits its columns exactly when the name of its file and what is stored of its metric
do. -/
theorem fitsTicket_iff (hcase : CaseMappings e.builtins) (hplain : PlainTexts e)
    {p : PreparedPayload} (hp : PlainPayload request agentId p) (hagent : p.agentId = agentId)
    {metric : Dict} {m : FrozenMetric}
    (h : Freezes e.builtins e.settings e.identifiers agentId metric m) (ticketId jobId : Uuid)
    (now : Instant) :
  fitsTicket ((preparedTicket e request ticketId p m).ticket jobId request.datasetId now) = true
    ↔ fitsText p.file.filename = true
      ∧ StorableNumbers e request metric ∧ StorableFields e.builtins metric
  := by
  have hnumbers : fitsNumbers ((preparedTicket e request ticketId p m).ticket jobId
      request.datasetId now) = true ↔ StorableNumbers e request metric :=
    fitsNumbers_iff hcase h rfl rfl rfl
  have hsnapshot := fitsFields_asSnapshot_iff hcase hplain hp.agent h
  obtain ⟨parts, hparts⟩ := h.parts
  obtain ⟨label, hnormal⟩ := hparts.normal
  have hdefined := definedFrom_of_normal hcase hnormal
  obtain ⟨resolvedType, htype⟩ := hdefined.evaluator
  have hcheckId : StorableFields e.builtins metric → fitsText m.definition.checkId = true := by
    intro hfields
    rw [hdefined.checkId, fitsText_strip]
    exact ((storableFields_iff parts).mp hfields).1.1
  have hpayloadId := hp.payloadId
  rw [← hnumbers, ← hsnapshot]
  rw [← hsnapshot] at hcheckId
  simp only [fitsTicket, PreparedTicket.ticket, preparedTicket, hp.datasetId, hpayloadId, hagent,
    hp.agent, fitsText_evaluator htype, Bool.and_true, Bool.and_eq_true]
  constructor
  · rintro ⟨⟨⟨⟨hfits, hfile⟩, -⟩, hdocument⟩, -⟩
    exact ⟨hfile, hfits, hdocument⟩
  · rintro ⟨hfile, hfits, hdocument⟩
    exact ⟨⟨⟨⟨hfits, hfile⟩, hcheckId hdocument⟩, hdocument⟩, hcheckId hdocument⟩

/-- The tickets of a job fit exactly when the name of each file and what is stored of each enabled
metric do. -/
theorem all_fitsTicket_iff (hcase : CaseMappings e.builtins) (hplain : PlainTexts e)
    (hof : PreparedOf e request folder preparation entries config metrics agentId frozen)
    (hne : preparation.prepared ≠ []) (key : Option String) (now : Instant) :
  ((preparedJob e request key drawn preparation).ticketRows now).all fitsTicket = true
    ↔ (∀ file ∈ folder.payloads, fitsText file.filename = true)
      ∧ ∀ metric ∈ enabledMetrics metrics,
        StorableNumbers e request metric ∧ StorableFields e.builtins metric
  := by
  have hmap : ((preparedJob e request key drawn preparation).tickets.map fun t =>
      fitsTicket (t.ticket drawn.job request.datasetId now))
      = preparation.prepared.flatMap fun p => p.metrics.map fun m =>
        fitsTicket ((preparedTicket e request 0 p m).ticket drawn.job request.datasetId now) :=
    map_preparedTickets (fun _ _ _ => rfl) key preparation
  have hall : ((preparedJob e request key drawn preparation).ticketRows now).all fitsTicket = true
      ↔ ∀ fits ∈ (preparedJob e request key drawn preparation).tickets.map fun t =>
        fitsTicket (t.ticket drawn.job request.datasetId now), fits = true := by
    rw [PreparedJob.ticketRows, List.all_map, List.all_eq_true, List.forall_mem_map]
    rfl
  rw [hall, hmap]
  simp only [List.mem_flatMap, List.mem_map]
  have hiff : ∀ p ∈ preparation.prepared, ∀ metric m, Freezes e.builtins e.settings e.identifiers
      agentId metric m → _ := fun p hp metric m h => fitsTicket_iff hcase hplain
        (plainPayload_of_preparedOf hof hp) (hof.payloads p hp).2.2.1 h 0 drawn.job now
  constructor
  · intro hfits
    constructor
    · intro file hfile
      obtain ⟨source, hselected⟩ := hof.selected
      obtain ⟨m, hm⟩ := List.exists_mem_of_ne_nil _ (metricsForAgent_agent hselected).2
      obtain ⟨metric, -, hconfigured⟩ := Python.exists_rel_of_forall₂ hof.configuredMetrics hm
      rw [← hof.prepared] at hfile
      obtain ⟨p, hp, rfl⟩ := List.mem_map.mp hfile
      apply ((hiff p hp metric m hconfigured.frozen).mp _).1
      apply hfits _ ⟨p, hp, m, by rwa [(hof.payloads p hp).2.2.2], rfl⟩
    · intro metric hmetric
      obtain ⟨p, hp⟩ := List.exists_mem_of_ne_nil _ hne
      obtain ⟨m, hm, hconfigured⟩ :=
        Python.exists_rel_of_forall₂ (List.Forall₂.flip hof.configuredMetrics) hmetric
      apply ((hiff p hp metric m hconfigured.frozen).mp _).2
      apply hfits _ ⟨p, hp, m, by rwa [(hof.payloads p hp).2.2.2], rfl⟩
  · rintro ⟨hfiles, hmetrics⟩ fits ⟨p, hp, m, hm, rfl⟩
    rw [(hof.payloads p hp).2.2.2] at hm
    obtain ⟨metric, hmetric, hconfigured⟩ := Python.exists_rel_of_forall₂ hof.configuredMetrics hm
    apply (hiff p hp metric m hconfigured.frozen).mpr
    have hfile : p.file ∈ folder.payloads := by
      rw [← hof.prepared]
      apply List.mem_map_of_mem hp
    exact ⟨hfiles _ hfile, hmetrics metric hmetric⟩

/-- The snapshot of a configuration can be stored when its metrics have identifiers that can. -/
theorem fitsFields_snapshotDoc (hplain : PlainTexts e)
    (hof : PreparedOf e request folder preparation entries config metrics agentId frozen)
    (hone : OneAgent preparation agentId frozen)
    (hids : ∀ m ∈ frozen, fitsText m.definition.checkId = true)
    (hfiles : ∀ file ∈ folder.payloads, fitsText file.filename = true) :
  fitsFields (snapshotDoc e request.datasetId preparation) = true
  := by
  have hpayloads : ∀ p ∈ preparation.prepared, fitsText p.file.filename = true
      ∧ fitsJson (.ofText p.file.payloadId) = true ∧ fitsText p.agentId = true
      ∧ fitsText (e.identifiers.uuidText p.payloadId) = true := by
    intro p hp
    have hpayload := plainPayload_of_preparedOf hof hp
    have hpayloadId := hpayload.payloadId
    have hfile : p.file ∈ folder.payloads := by
      rw [← hof.prepared]
      apply List.mem_map_of_mem hp
    refine ⟨hfiles _ hfile, ?_, ?_, hplain.uuidText _⟩
    · cases hid : p.file.payloadId with
      | none => simp [Json.ofText, fitsJson]
      | some payloadId =>
        rw [hid, Option.all_some] at hpayloadId
        simpa [Json.ofText, fitsJson] using hpayloadId
    · rw [(hof.payloads p hp).2.2.1]
      exact hpayload.agent
  have hmetrics : ∀ m ∈ frozen, fitsJson (listedMetric e m) = true := by
    intro m hm
    simp +decide [listedMetric, fitsFields, fitsJson, hids m hm, hplain.uuidText]
  obtain ⟨p, hp⟩ := List.exists_mem_of_ne_nil _ hone.payloads_ne
  have hpayload := plainPayload_of_preparedOf hof hp
  rw [snapshotDoc, hone.metricsByAgent]
  simp +decide [fitsFields, fitsJson, fitsItems_iff, hpayload.datasetId, hpayload.agent]
  exact ⟨hpayloads, hmetrics⟩

/-- A job fits its columns exactly when the texts of its request and its counts do. -/
theorem fitsJob_iff (hplain : PlainTexts e)
    (hof : PreparedOf e request folder preparation entries config metrics agentId frozen)
    (hone : OneAgent preparation agentId frozen)
    (hids : ∀ m ∈ frozen, fitsText m.definition.checkId = true)
    (hfiles : ∀ file ∈ folder.payloads, fitsText file.filename = true) (key : Option String)
    (now : Instant) :
  fitsJob ((preparedJob e request key drawn preparation).readyRow now) = true
    ↔ request.name.all fitsText = true ∧ key.all fitsText = true
      ∧ fitsInteger folder.payloads.length = true
      ∧ fitsInteger (folder.payloads.length * (enabledMetrics metrics).length) = true
  := by
  have hlength : (preparedJob e request key drawn preparation).tickets.length
      = folder.payloads.length * (enabledMetrics metrics).length := by
    have hagents := congrArg List.length
      (@tickets_of_oneAgent e request drawn preparation agentId frozen hone key).1
    rw [List.length_map, List.length_replicate] at hagents
    rw [hagents, ← hof.prepared, List.length_map, hof.configuredMetrics.length_eq]
  have hpayloads : preparation.prepared.length = folder.payloads.length := by
    rw [← hof.prepared, List.length_map]
  have hsnapshot := fitsFields_snapshotDoc hplain hof hone hids hfiles
  obtain ⟨p, hp⟩ := List.exists_mem_of_ne_nil _ hone.payloads_ne
  have hdatasetId := (plainPayload_of_preparedOf hof hp).datasetId
  have hhash : (key.map fun _ => e.digest request.body).all fitsText = true := by
    cases key with
    | none => rfl
    | some key => apply hplain.digest
  change (request.name.all fitsText && (some request.datasetId).all fitsText
    && fitsFields (snapshotDoc e request.datasetId preparation)
    && fitsInteger preparation.prepared.length
    && fitsInteger (preparedJob e request key drawn preparation).tickets.length
    && key.all fitsText && (key.map fun _ => e.digest request.body).all fitsText) = true ↔ _
  rw [Option.all_some, hdatasetId, hsnapshot, hhash, hlength, hpayloads]
  simp only [Bool.and_true, Bool.and_eq_true, Nat.cast_mul]
  constructor
  · rintro ⟨⟨⟨hname, hpayload⟩, htickets⟩, hkey⟩
    exact ⟨hname, hkey, hpayload, htickets⟩
  · rintro ⟨hname, hkey, hpayload, htickets⟩
    exact ⟨⟨⟨hname, hpayload⟩, htickets⟩, hkey⟩

end Prepared

end Tickets

end Evalorch
