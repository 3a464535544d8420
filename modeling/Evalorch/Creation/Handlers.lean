import Evalorch.Creation.Overrides
import Evalorch.Creation.SpanForest

/-!
# What the handlers catch

The handlers of `create_job` name the exceptions of the dataset folder, of the validation of
payloads and of the resolution of profiles. Reading a folder and validating a payload raise
nothing else. The conversion of a metric does: `int` of an infinite number raises
`OverflowError`, and `int` of one that is not a number raises a plain `ValueError`.
-/

namespace Evalorch

open Python Transact

/-- A `JobCreationError`. -/
def IsRejection (exn : Exn) : Prop :=
  ∃ message status, exn = .jobCreation message status

/-- A `JobCreationError`, or an exception that a handler turns into one. -/
def Handled (handled : List (String × ℕ)) (exn : Exn) : Prop :=
  IsRejection exn ∨ ∃ name message, exn = .builtin name message ∧ (handled.lookup name).isSome

/-- Behind a handler, only what it does not name is no rejection. -/
theorem raisesOnly_wrapping {α : Type} {handled : List (String × ℕ)} {outcome : Except Exn α} :
  RaisesOnly IsRejection (wrapping handled outcome) ↔ RaisesOnly (Handled handled) outcome
  := by
  cases outcome with
  | ok a => simp [wrapping]
  | error exn =>
    cases exn with
    | builtin name message =>
      cases hlookup : handled.lookup name <;>
        simp [-List.lookup_isSome_iff, wrapping, hlookup, Handled, IsRejection]
    | _ => simp [wrapping, Handled, IsRejection]

/-! ### Validation -/

section Validation

variable {P : Exn → Prop} {b : Builtins}

theorem raisesOnly_requireMapping (hP : ∀ message, P (payloadValidationError message))
    (payload : Dict) (key label : String) :
  RaisesOnly P (requireMapping payload key label)
  := by
  rw [requireMapping]
  split <;> simp [hP]

theorem raisesOnly_requireText (hP : ∀ message, P (payloadValidationError message))
    (container : Dict) (key label : String) :
  RaisesOnly P (requireText container key label)
  := by
  rw [requireText]
  split
  · split <;> simp [hP]
  · simp [hP]

theorem raisesOnly_requireTexts (hP : ∀ message, P (payloadValidationError message))
    (container : Dict) (label : String) (keys : List String) :
  RaisesOnly P (requireTexts container label keys)
  := by
  induction keys with
  | nil => apply raisesOnly_ok
  | cons key keys ih => simp [requireTexts, raisesOnly_bind, raisesOnly_requireText hP, ih]

theorem raisesOnly_requireUuid (hP : ∀ message, P (payloadValidationError message))
    (container : Dict) (key label : String) :
  RaisesOnly P (requireUuid b container key label)
  := by
  rw [requireUuid, raisesOnly_bind]
  use raisesOnly_requireText hP container key label
  intro value _
  split <;> simp [hP]

theorem raisesOnly_requireSame (hP : ∀ message, P (payloadValidationError message))
    (left right label field : String) :
  RaisesOnly P (requireSame b left right label field)
  := by
  rw [requireSame]
  split <;> simp [hP]

theorem raisesOnly_requireThat (hP : ∀ message, P (payloadValidationError message))
    (condition : Bool) (message : String) :
  RaisesOnly P (requireThat condition message)
  := by
  rw [requireThat]
  split <;> simp [hP]

theorem raisesOnly_validateSpan (hP : ∀ message, P (payloadValidationError message))
    (label traceId : String) (byId : List (String × Dict)) (place : String) (span : Dict) :
  RaisesOnly P (validateSpan b label traceId byId place span)
  := by
  simp [validateSpan, raisesOnly_bind, raisesOnly_requireText hP, raisesOnly_requireTexts hP,
    raisesOnly_requireThat hP, raisesOnly_requireSame hP]

theorem raisesOnly_validateSpans (hP : ∀ message, P (payloadValidationError message))
    (label traceId : String) (index : ℕ) (byId : List (String × Dict)) (spans : List Json) :
  RaisesOnly P (validateSpans b label traceId index byId spans)
  := by
  induction spans generalizing index byId with
  | nil => apply raisesOnly_ok
  | cons span spans ih =>
    cases span with
    | dict span => simp [validateSpans, raisesOnly_bind, raisesOnly_validateSpan hP, ih]
    | _ => simp [validateSpans, hP]

theorem raisesOnly_walkParents (hP : ∀ message, P (payloadValidationError message))
    (label : String) (byId : List (String × Dict)) (current : Dict) (seen : List String) :
  RaisesOnly P (walkParents b label byId current seen)
  := by
  intro raised hraised
  obtain ⟨message, rfl⟩ := walkParents_error byId current seen hraised
  apply hP

theorem raisesOnly_validateParents (hP : ∀ message, P (payloadValidationError message))
    (label : String) (byId : List (String × Dict)) (spans : List Dict) :
  RaisesOnly P (validateParents b label byId spans)
  := by
  induction spans with
  | nil => apply raisesOnly_ok
  | cons span spans ih =>
    simp [validateParents, raisesOnly_bind, raisesOnly_walkParents hP, ih]

theorem raisesOnly_validateSpanTree (hP : ∀ message, P (payloadValidationError message))
    (spans : List Json) (traceId label : String) :
  RaisesOnly P (validateSpanTree b spans traceId label)
  := by
  simp [validateSpanTree, raisesOnly_bind, raisesOnly_validateSpans hP,
    raisesOnly_requireThat hP, raisesOnly_validateParents hP]

theorem raisesOnly_requireSameText (hP : ∀ message, P (payloadValidationError message))
    (value : String) (trace : Dict) (label field : String) :
  RaisesOnly P (requireSameText b value trace label field)
  := by
  simp [requireSameText, raisesOnly_bind, raisesOnly_requireText hP, raisesOnly_requireSame hP]

theorem raisesOnly_requireSameUuid (hP : ∀ message, P (payloadValidationError message))
    (value : String) (trace : Dict) (label field : String) :
  RaisesOnly P (requireSameUuid b value trace label field)
  := by
  simp [requireSameUuid, raisesOnly_bind, raisesOnly_requireUuid hP, raisesOnly_requireSame hP]

theorem raisesOnly_enforcePayloadContract (hP : ∀ message, P (payloadValidationError message))
    (payload : Dict) (label : String) :
  RaisesOnly P (enforcePayloadContract b payload label)
  := by
  simp only [enforcePayloadContract, raisesOnly_bind, raisesOnly_requireMapping hP, true_and]
  intro registry _ metadata _ correlation _ traceContext _
  split
  · simp only [raisesOnly_bind, raisesOnly_ok, raisesOnly_requireUuid hP, raisesOnly_requireText hP,
      raisesOnly_requireTexts hP, raisesOnly_requireThat hP, raisesOnly_requireSame hP,
      raisesOnly_requireSameText hP, raisesOnly_requireSameUuid hP, true_and]
    intros
    split <;> simp [raisesOnly_bind, raisesOnly_validateSpanTree hP, hP]
  · simp [raisesOnly_bind, hP]

/-- The validation of a payload raises only its own error. -/
theorem raisesOnly_validatePayload (hP : ∀ message, P (payloadValidationError message))
    (payload : Json) (index : Option ℕ) :
  RaisesOnly P (validatePayload b payload index)
  := by
  rw [validatePayload.eq_def]
  split
  · simp [hP]
  · simp [raisesOnly_bind, raisesOnly_enforcePayloadContract hP]
  · simp [hP]

end Validation

/-! ### The dataset folder -/

section Folder

variable {b : Builtins}

theorem handled_datasetFolderError (message : String) :
  Handled folderErrors (datasetFolderError message)
  := .inr ⟨_, message, rfl, rfl⟩

theorem handled_datasetNotFoundError (message : String) :
  Handled folderErrors (datasetNotFoundError message)
  := .inr ⟨_, message, rfl, rfl⟩

theorem handled_documentError (message : String) :
  Handled folderErrors (payloadValidationError message)
  := .inr ⟨_, message, rfl, rfl⟩

theorem raisesOnly_readJsonObject (entry : Entry) :
  RaisesOnly (Handled folderErrors) (readJsonObject entry)
  := by
  rw [readJsonObject.eq_def]
  split <;> simp [handled_datasetFolderError, handled_documentError]

theorem raisesOnly_resolveDatasetDir (files : Files) (datasetId : String) :
  RaisesOnly (Handled folderErrors) (resolveDatasetDir b files datasetId)
  := by
  rw [resolveDatasetDir]
  split
  · simp [handled_datasetFolderError]
  · split
    · simp [handled_datasetFolderError]
    · split <;> simp [handled_datasetFolderError, handled_datasetNotFoundError]

/-- Reading a dataset folder raises only what its handler names. -/
theorem raisesOnly_readDatasetFolder (files : Files) (datasetId : String) :
  RaisesOnly (Handled folderErrors) (readDatasetFolder b files datasetId)
  := by
  rw [readDatasetFolder, raisesOnly_bind]
  use raisesOnly_resolveDatasetDir files datasetId
  intro listing _
  split
  · simp [handled_datasetFolderError]
  · rw [raisesOnly_bind]
    constructor
    · apply raisesOnly_mapM
      intro entry _
      simp [readPayload, raisesOnly_bind, raisesOnly_readJsonObject]
    · intro payloads _
      split
      · simp [handled_datasetFolderError]
      · split
        · simp [handled_datasetFolderError]
        · simp [raisesOnly_bind, raisesOnly_readJsonObject]

end Folder

/-! ### The fields of a metric -/

section Fields

variable {b : Builtins}

theorem handled_payloadValidationError (message : String) :
  Handled payloadErrors (payloadValidationError message)
  := .inr ⟨_, message, rfl, rfl⟩

theorem handled_profileResolutionError (message : String) :
  Handled payloadErrors (profileResolutionError message)
  := .inr ⟨_, message, rfl, rfl⟩

theorem handled_profileNotFoundError (message : String) :
  Handled payloadErrors (profileNotFoundError message)
  := .inr ⟨_, message, rfl, rfl⟩

theorem raisesOnly_extractAgentId (payload : Dict) (source : String) :
  RaisesOnly (Handled payloadErrors) (extractAgentId payload source)
  := by
  rw [extractAgentId]
  split
  · simp [handled_profileResolutionError]
  · split
    · simp [handled_profileResolutionError]
    · split <;> simp [handled_profileResolutionError]
    · simp [handled_profileResolutionError]
  · simp [handled_profileResolutionError]

theorem raisesOnly_requireNumber (value : Json) (source metricId field : String) :
  RaisesOnly (Handled payloadErrors) (requireNumber b value source metricId field)
  := by
  rw [requireNumber.eq_def]
  split <;> simp [handled_profileResolutionError]

theorem raisesOnly_requireMetricText (metric : Dict) (label field : String) :
  RaisesOnly (Handled payloadErrors) (requireMetricText metric label field)
  := by
  rw [requireMetricText]
  split
  · split <;> simp [handled_profileResolutionError]
  · simp [handled_profileResolutionError]

theorem raisesOnly_requireSpanNames (metric : Dict) (label : String) :
  RaisesOnly (Handled payloadErrors) (requireSpanNames metric label)
  := by
  rw [requireSpanNames]
  split
  · split <;> simp [handled_profileResolutionError]
  · simp [handled_profileResolutionError]

theorem raisesOnly_requireThresholds (metric : Dict) (source label metricId : String) :
  RaisesOnly (Handled payloadErrors) (requireThresholds b metric source label metricId)
  := by
  rw [requireThresholds]
  split
  · split <;> simp [raisesOnly_bind, raisesOnly_requireNumber, handled_profileResolutionError]
  · simp [handled_profileResolutionError]

theorem raisesOnly_requireObject (metric : Dict) (label field : String) :
  RaisesOnly (Handled payloadErrors) (requireObject metric label field)
  := by
  rw [requireObject]
  split <;> simp [handled_profileResolutionError]

theorem raisesOnly_requireEnabled (metric : Dict) (label : String) :
  RaisesOnly (Handled payloadErrors) (requireEnabled metric label)
  := by
  rw [requireEnabled]
  split <;> simp [handled_profileResolutionError]

theorem raisesOnly_metricEvaluator (label metricType pluginId : String) :
  RaisesOnly (Handled payloadErrors) (metricEvaluator b label metricType pluginId)
  := by
  rw [metricEvaluator]
  split
  · simp
  · split
    · split <;> simp [handled_profileResolutionError]
    · split <;> simp [handled_profileResolutionError]

theorem raisesOnly_versionNumber (value : Json) (source metricId : String) :
  RaisesOnly (Handled payloadErrors) (versionNumber b value source metricId)
  := by
  rw [versionNumber]
  split
  · simp [handled_profileResolutionError]
  · split <;> simp [handled_profileResolutionError]

end Fields

/-! ### The weight of a metric -/

/-- A document that is not an infinite number, and not `nan`. -/
def isFinite : Json → Bool
  | .float (.finite _) => true
  | .float _ => false
  | _ => true

/-- An infinite number. -/
def isInfinite : Json → Bool
  | .float .infinity | .float .negInfinity => true
  | _ => false

section Weight

variable {b : Builtins} {metric : Dict} {source : String}

/-- The metric has all that `_metric_definition` asks for, and its weight is a number. -/
def WellFormed (b : Builtins) (source : String) (metric : Dict) : Prop :=
  Returns (metricDefinition b (metric.set "weight" (.int 0)) source)
    ∧ isNumber (metric.get "weight") = true

theorem requireNumber_eq_ok {value : Json} {metricId field : String} :
  requireNumber b value source metricId field = .ok () ↔ isNumber value = true
  := by cases value <;> simp [requireNumber, isNumber]

theorem requireMetricText_set {label field : String} (h : field ≠ "weight") (value : Json) :
  requireMetricText (metric.set "weight" value) label field
    = requireMetricText metric label field
  := by rw [requireMetricText, requireMetricText, Dict.get_set_of_ne metric value h]

theorem requireObject_set {label field : String} (h : field ≠ "weight") (value : Json) :
  requireObject (metric.set "weight" value) label field = requireObject metric label field
  := by rw [requireObject, requireObject, Dict.get_set_of_ne metric value h]

theorem requireEnabled_set (label : String) (value : Json) :
  requireEnabled (metric.set "weight" value) label = requireEnabled metric label
  := by rw [requireEnabled, requireEnabled, Dict.get_set_of_ne metric value (by decide)]

theorem requireSpanNames_set (label : String) (value : Json) :
  requireSpanNames (metric.set "weight" value) label = requireSpanNames metric label
  := by rw [requireSpanNames, requireSpanNames, Dict.get_set_of_ne metric value (by decide)]

theorem requireThresholds_set (label metricId : String) (value : Json) :
  requireThresholds b (metric.set "weight" value) source label metricId
    = requireThresholds b metric source label metricId
  := by rw [requireThresholds, requireThresholds, Dict.get_set_of_ne metric value (by decide)]

theorem builtCheck_set (metricId evaluator metricName : String) (checkType : Option CheckType)
    (mapping params : Dict) (pass : Json) (priority : ℤ) (spanNames : List String)
    (value : Json) :
  builtCheck (metric.set "weight" value) metricId evaluator metricName checkType mapping params
      pass priority spanNames
    = builtCheck metric metricId evaluator metricName checkType mapping params pass priority
      spanNames
  := by
  rw [builtCheck, builtCheck, passedField, passedField, passedField, passedField,
    Dict.lookup_set_of_ne metric value (show "on_missing_context" ≠ "weight" by decide),
    Dict.lookup_set_of_ne metric value (show "max_attempts" ≠ "weight" by decide)]

/-- How a check is built from a metric, beside the same metric with a weight of zero: when that
is built and the weight is a number, only `int` of the weight is left, and else the error is
handled. -/
def BuiltBeside (b : Builtins) (weight : Json) (zero given : Except Exn Dict) : Prop :=
  (Returns zero ∧ isNumber weight = true
      ∧ ∃ build : ℤ → Dict, given = b.int weight >>= fun n => .ok (build n))
    ∨ ¬ (Returns zero ∧ isNumber weight = true)
      ∧ ∃ exn, given = .error exn ∧ Handled payloadErrors exn

/-- The same check in front of both. -/
theorem BuiltBeside.bind {α : Type} {weight : Json} {x : Except Exn α}
    {zero given : α → Except Exn Dict} (hx : RaisesOnly (Handled payloadErrors) x)
    (h : ∀ a, BuiltBeside b weight (zero a) (given a)) :
  BuiltBeside b weight (x >>= zero) (x >>= given)
  := by
  cases x with
  | ok a => apply h a
  | error exn =>
    right
    constructor
    · rintro ⟨⟨a, ha⟩, -⟩
      cases ha
    · exact ⟨exn, rfl, hx exn rfl⟩

theorem metricDefinition_builtBeside (b : Builtins) (metric : Dict) (source : String) :
  BuiltBeside b (metric.get "weight")
    (metricDefinition b (metric.set "weight" (.int 0)) source) (metricDefinition b metric source)
  := by
  simp only [metricDefinition, Dict.get_set_self, requireEnabled_set, requireSpanNames_set,
    requireThresholds_set, builtCheck_set,
    Dict.get_set_of_ne metric _ (show "metricId" ≠ "weight" by decide),
    requireMetricText_set (show "metricId" ≠ "weight" by decide),
    requireMetricText_set (show "metricName" ≠ "weight" by decide),
    requireMetricText_set (show "metricVersion" ≠ "weight" by decide),
    requireMetricText_set (show "metricType" ≠ "weight" by decide),
    requireMetricText_set (show "evaluatorPluginId" ≠ "weight" by decide),
    requireObject_set (show "inputMapping" ≠ "weight" by decide),
    requireObject_set (show "params" ≠ "weight" by decide)]
  apply BuiltBeside.bind (raisesOnly_requireMetricText _ _ _)
  intro _
  apply BuiltBeside.bind (raisesOnly_requireMetricText _ _ _)
  intro metricName
  apply BuiltBeside.bind (raisesOnly_requireMetricText _ _ _)
  intro _
  apply BuiltBeside.bind (raisesOnly_requireMetricText _ _ _)
  intro metricType
  apply BuiltBeside.bind (raisesOnly_requireMetricText _ _ _)
  intro pluginId
  apply BuiltBeside.bind (raisesOnly_requireEnabled _ _)
  intro _
  apply BuiltBeside.bind (raisesOnly_requireSpanNames _ _)
  intro spanNames
  apply BuiltBeside.bind (raisesOnly_requireThresholds _ _ _ _)
  intro thresholds
  by_cases hnumber : isNumber (metric.get "weight") = true
  · have hzero : isNumber (.int 0) = true := rfl
    rw [requireNumber_eq_ok.mpr hnumber, requireNumber_eq_ok.mpr hzero]
    apply BuiltBeside.bind (raisesOnly_ok _ ())
    intro _
    apply BuiltBeside.bind (raisesOnly_requireObject _ _ _)
    intro mapping
    apply BuiltBeside.bind (raisesOnly_requireObject _ _ _)
    intro params
    apply BuiltBeside.bind (raisesOnly_metricEvaluator _ _ _)
    intro evaluator
    left
    exact ⟨⟨_, rfl⟩, hnumber, _, rfl⟩
  · right
    constructor
    · intro h
      exact hnumber h.2
    · cases hrequired : requireNumber b (metric.get "weight") source
          (strip (b.str ((metric.get "metricId").or (.str "")))) "weight" with
      | ok _ => exact absurd (requireNumber_eq_ok.mp hrequired) hnumber
      | error exn => exact ⟨exn, rfl, raisesOnly_requireNumber _ _ _ _ exn hrequired⟩

/-- A metric that is well formed is built once its weight is converted, and any other is
refused. -/
theorem metricDefinition_wellFormed (b : Builtins) (metric : Dict) (source : String) :
  (WellFormed b source metric ∧ ∃ build : ℤ → Dict,
      metricDefinition b metric source = b.int (metric.get "weight") >>= fun n => .ok (build n))
    ∨ ¬ WellFormed b source metric
      ∧ ∃ exn, metricDefinition b metric source = .error exn ∧ Handled payloadErrors exn
  := by
  rcases metricDefinition_builtBeside b metric source with ⟨hzero, hnumber, hbuilt⟩ | hrefused
  · exact .inl ⟨⟨hzero, hnumber⟩, hbuilt⟩
  · exact .inr hrefused

/-- `int` converts a number that is finite, and raises what no handler names for any other. -/
theorem int_of_isNumber {value : Json} (h : isNumber value = true) :
  (isFinite value = true ∧ Returns (b.int value))
    ∨ isFinite value = false ∧ ∃ exn, b.int value = .error exn ∧ ¬ Handled payloadErrors exn
  := by
  cases value with
  | int n => exact .inl ⟨rfl, n, rfl⟩
  | float x =>
    cases x with
    | finite q => exact .inl ⟨rfl, _, rfl⟩
    | infinity => exact .inr ⟨rfl, _, rfl, by simp [Handled, IsRejection]⟩
    | negInfinity => exact .inr ⟨rfl, _, rfl, by simp [Handled, IsRejection]⟩
    | nan => exact .inr ⟨rfl, _, rfl, by simp [Handled, IsRejection, Exn.value, payloadErrors]⟩
  | _ => cases h

/-- A check is built from a metric that is well formed and whose weight is finite. -/
theorem returns_metricDefinition :
  Returns (metricDefinition b metric source)
    ↔ WellFormed b source metric ∧ isFinite (metric.get "weight") = true
  := by
  rcases metricDefinition_wellFormed b metric source with ⟨hformed, build, hbuilt⟩
    | ⟨hformed, exn, hrefused, -⟩
  · rw [hbuilt]
    rcases int_of_isNumber (b := b) hformed.2 with ⟨hfinite, n, hn⟩ | ⟨hfinite, exn, hn, -⟩
    · simp [hformed, hfinite, hn, bind, Except.bind]
    · simp [hfinite, hn, bind, Except.bind]
  · simp [hformed, hrefused]

/-- Building a check raises only what is handled unless the metric is well formed and its weight
is not finite. -/
theorem raisesOnly_metricDefinition :
  RaisesOnly (Handled payloadErrors) (metricDefinition b metric source)
    ↔ (WellFormed b source metric → isFinite (metric.get "weight") = true)
  := by
  rcases metricDefinition_wellFormed b metric source with ⟨hformed, build, hbuilt⟩
    | ⟨hformed, exn, hrefused, hhandled⟩
  · rw [hbuilt]
    rcases int_of_isNumber (b := b) hformed.2 with ⟨hfinite, n, hn⟩ | ⟨hfinite, exn, hn, hexn⟩
    · simp [hfinite, hn, bind, Except.bind]
    · simp [hformed, hfinite, hn, hexn, bind, Except.bind]
  · simp [hformed, hrefused, hhandled]

end Weight

/-! ### The attempts of a metric -/

section Attempts

variable {b : Builtins} {settings : CreationSettings} {ids : Identifiers} {metric check : Dict}
  {agentId source : String}

/-- The evaluator of a metric is a known one under its resolved name, and of the type that is
declared with it. -/
theorem metricEvaluator_ok (hcase : CaseMappings b) {label metricType pluginId evaluator : String}
    {checkType : Option CheckType}
    (h : metricEvaluator b label metricType pluginId = .ok (evaluator, checkType)) :
  resolveEvaluatorName b evaluator = evaluator
    ∧ ∃ resolvedType, evaluators.lookup evaluator = some resolvedType
      ∧ ∀ declared ∈ checkType, declared = resolvedType
  := by
  rw [metricEvaluator] at h
  split at h
  · cases h
    use resolveEvaluatorName_llmJudge hcase, .llmJudge, rfl
    simp
  · have hknown : ∀ name, evaluatorExists b (resolveEvaluatorName b name) = true →
        ∃ resolvedType, evaluators.lookup (resolveEvaluatorName b name) = some resolvedType := by
      intro name hexists
      rw [evaluatorExists, resolveEvaluatorName_idem hcase] at hexists
      apply Option.isSome_iff_exists.mp hexists
    split at h
    · split at h
      case isTrue hexists =>
        cases h
        obtain ⟨resolvedType, htype⟩ := hknown _ hexists
        use resolveEvaluatorName_idem hcase _, resolvedType, htype
        simp
      case isFalse => cases h
    · split at h
      case isTrue hexists =>
        cases h
        obtain ⟨resolvedType, htype⟩ := hknown _ hexists
        use resolveEvaluatorName_idem hcase _, resolvedType, htype
        simp
      case isFalse => cases h

/-- The type that a check declares. -/
theorem get_checkType (parts : CheckParts b metric) :
  parts.check.get "check_type"
    = (parts.checkType.map fun declared => Json.str declared.value).getD .null
  := by
  have hpolicy := lookup_passedField_of_ne metric
    (show "check_type" ≠ "on_missing_context" by decide)
  have hattempts := lookup_passedField_of_ne metric
    (show "check_type" ≠ "max_attempts" by decide)
  rw [CheckParts.check, builtCheck, Dict.get]
  cases hguard : requiredSpansGuard (parts.spanNames.map strip) <;>
    cases parts.checkType <;> simp [List.lookup_append, List.lookup_cons, hpolicy, hattempts]

/-- A check that is built names a known evaluator, of the type that it declares. -/
theorem evaluator_of_parts (hcase : CaseMappings b) (parts : CheckParts b metric)
    (label : String) :
  ∃ resolvedType, evaluators.lookup parts.evaluator = some resolvedType
    ∧ definitionEvaluator b label parts.check = .ok parts.evaluator
    ∧ evaluatorCheckType b parts.evaluator = .ok resolvedType
    ∧ checkDeclaredType b label parts.check parts.evaluator resolvedType = .ok ()
  := by
  obtain ⟨_, _, hevaluator⟩ := parts.evaluator_eq
  obtain ⟨hname, resolvedType, htype, hdeclared⟩ := metricEvaluator_ok hcase hevaluator
  have hget : parts.check.get "evaluator" = .str parts.evaluator := rfl
  have hne : parts.evaluator ≠ "" := by
    intro hempty
    rw [hempty] at htype
    revert htype
    cases resolvedType <;> decide +kernel
  use resolvedType, htype
  refine ⟨?_, ?_, ?_⟩
  · simp [definitionEvaluator, hget, Json.or, Json.truthy, hne, Builtins.str, evaluatorExists,
      hname, htype]
  · simp [evaluatorCheckType, hname, htype]
  · cases hchecked : parts.checkType with
    | none => simp [checkDeclaredType, get_checkType, hchecked, Json.truthy]
    | some declared =>
      obtain rfl : declared = resolvedType := by
        apply hdeclared
        rw [hchecked, Option.mem_some_iff]
      have hupper : b.upper declared.value = declared.value := by
        cases declared <;> exact hcase.upper_name _ (by decide +kernel)
      simp [checkDeclaredType, get_checkType, hchecked, Json.truthy, Builtins.str, hupper,
        CheckType.ofValue?_value]

/-- The normalization of a check that was built comes to its attempts. -/
theorem normalizeDefinition_attempts (hcase : CaseMappings b) (parts : CheckParts b metric)
    (label : String) (defaults : Dict) :
  ∃ finish : ℤ × List String → Except Exn MetricDefinition,
    normalizeDefinition b settings.toSettings parts.check label defaults
      = definitionInt b label parts.check "max_attempts"
          ((defaults.lookup "max_attempts").getD (.int settings.runnerMaxAttempts))
          settings.runnerMaxAttempts >>= finish
    ∧ ∀ n, RaisesOnly (fun exn => ∃ message, exn = .builtin "MetricDefinitionError" message)
        (finish n)
  := by
  obtain ⟨resolvedType, -, hfound, hresolved, hagrees⟩ := evaluator_of_parts hcase parts label
  have hcheckId : definitionCheckId label parts.check = .ok (strip parts.metricId) := by
    have hget : parts.check.get "check_id" = .str (strip parts.metricId) := rfl
    simp [definitionCheckId, hget, Json.or, Json.truthy, parts.metricId_ne]
  have hpriority : ∀ default, definitionInt b label parts.check "priority" default 0
      = .ok (parts.priority, []) := by
    intro default
    have hlookup : parts.check.lookup "priority" = some (.int parts.priority) := rfl
    simp [definitionInt, hlookup, Builtins.int]
  simp only [normalizeDefinition, hcheckId, hfound, hresolved, hagrees, hpriority, ok_bind]
  refine ⟨_, rfl, ?_⟩
  intro n
  split <;> simp [metricDefinitionError]

/-- What freezing handles of a definition. -/
def Refused (exn : Exn) : Prop :=
  Handled payloadErrors exn ∨ ∃ message, exn = .builtin "MetricDefinitionError" message

/-- An integer of a definition raises what freezing does not handle exactly when it is infinite. -/
theorem raisesOnly_definitionInt {label field : String} {raw : Dict} {default : Json}
    {standIn : ℤ} :
  RaisesOnly Refused (definitionInt b label raw field default standIn)
    ↔ isInfinite ((raw.lookup field).getD default) = false
  := by
  rw [definitionInt]
  generalize (raw.lookup field).getD default = value
  cases value with
  | float x =>
    cases x <;> simp [Builtins.int, Builtins.intOfFloat, isInfinite, Exn.value, Refused, Handled,
      IsRejection]
  | str text =>
    cases htext : int? text <;> simp [Builtins.int, Builtins.intOfText, htext, isInfinite,
      Exn.value]
  | _ => simp [Builtins.int, isInfinite]

/-- The definition of a check, as it is frozen. -/
def frozenDefinition (b : Builtins) (settings : CreationSettings) (agentId : String)
    (check : Dict) : Except Exn MetricDefinition :=
  let named := strip (b.str (((check.get "check_id").or (check.get "id")).or (.str "")))
  normalizeDefinition b settings.toSettings check
    ("config.json agent " ++ agentId ++ " check " ++ if named = "" then "check" else named)
    (freezeDefaults settings.toSettings)

/-- The name that the identifier of a check is hashed from can be encoded, if it comes to that. -/
def Hashable (b : Builtins) (settings : CreationSettings) (agentId : String) (check : Dict) :
    Prop :=
  ∀ d, frozenDefinition b settings agentId check = .ok d →
    encodes (metricRecordName agentId d.checkId) = true

/-- A name is hashed unless it cannot be encoded, which nothing handles. -/
theorem raisesOnly_uuid5? {name : String} :
  RaisesOnly (Handled payloadErrors) (ids.uuid5? name) ↔ encodes name = true
  := by
  unfold Identifiers.uuid5?
  split
  case isTrue h => simp [h]
  case isFalse h => simp [h, Handled, IsRejection, payloadErrors]

/-- Freezing handles what it is to handle. -/
theorem raisesOnly_freezeMetric (check : Dict) :
  RaisesOnly (Handled payloadErrors) (freezeMetric b settings ids check agentId)
    ↔ RaisesOnly Refused (frozenDefinition b settings agentId check)
      ∧ Hashable b settings agentId check
  := by
  unfold Hashable frozenDefinition
  rw [freezeMetric]
  simp only [normalizeMetricDefinition, Option.getD_some]
  split
  case h_1 message hnormal =>
    rw [show normalizeDefinition _ _ _ _ (freezeDefaults settings.toSettings) = _ from hnormal]
    simp [handled_profileResolutionError, Refused]
  case h_2 exn hother hnormal =>
    rw [show normalizeDefinition _ _ _ _ (freezeDefaults settings.toSettings) = _ from hnormal]
    have hunnamed : ¬ ∃ message, exn = .builtin "MetricDefinitionError" message := by
      rintro ⟨message, h⟩
      exact hother message h
    simp [Refused, hunnamed]
  case h_3 definition hnormal =>
    rw [show normalizeDefinition _ _ _ _ (freezeDefaults settings.toSettings) = _ from hnormal]
    simp [raisesOnly_bind, raisesOnly_uuid5?]

/-- Freezing a check that was built raises only what is handled unless its attempts are infinite or
its identifier cannot be hashed. -/
theorem raisesOnly_freezeMetric_parts (hcase : CaseMappings b) (parts : CheckParts b metric) :
  RaisesOnly (Handled payloadErrors) (freezeMetric b settings ids parts.check agentId)
    ↔ isInfinite (metric.get "max_attempts") = false
      ∧ Hashable b settings agentId parts.check
  := by
  have hlookup : parts.check.lookup "max_attempts" = metric.lookup "max_attempts" :=
    (lookup_builtCheck ..).2
  have hdefault : ∀ default : ℤ, isInfinite ((metric.lookup "max_attempts").getD (.int default))
      = isInfinite (metric.get "max_attempts") := by
    intro default
    rw [Dict.get]
    cases metric.lookup "max_attempts" <;> rfl
  rw [raisesOnly_freezeMetric, and_congr_left_iff]
  intro _
  obtain ⟨finish, hnormal, hfinish⟩ := @normalizeDefinition_attempts b settings metric hcase parts
    _ (freezeDefaults settings.toSettings)
  have hsetting : ((freezeDefaults settings.toSettings).lookup "max_attempts").getD
      (.int settings.runnerMaxAttempts) = .int settings.runnerMaxAttempts := rfl
  rw [frozenDefinition, hnormal, raisesOnly_bind, raisesOnly_definitionInt, hlookup, hsetting, hdefault,
    and_iff_left]
  intro n _ exn hexn
  right
  apply hfinish n exn hexn

/-- What `int` is applied to in a metric can be converted, and what its identifier is hashed from
can be encoded. -/
structure Convertible (b : Builtins) (settings : CreationSettings) (agentId source : String)
    (metric : Dict) : Prop where
  weight : isFinite (metric.get "weight") = true
  maxAttempts : isInfinite (metric.get "max_attempts") = false
  hashable : ∀ check, metricDefinition b metric source = .ok check →
    Hashable b settings agentId check

/-- Freezing an entry raises only what is handled unless it is well formed and cannot be
converted. -/
theorem raisesOnly_configuredMetric (hcase : CaseMappings b) {seen : List String} :
  RaisesOnly (Handled payloadErrors) (configuredMetric b settings ids agentId source seen metric)
    ↔ (WellFormed b source metric → Convertible b settings agentId source metric)
  := by
  have htail : ∀ frozen : FrozenMetric, RaisesOnly (Handled payloadErrors)
      (if frozen.definition.checkId ∈ seen then
        .error (profileResolutionError (source ++ ": duplicate metricId "
          ++ b.repr (.str frozen.definition.checkId) ++ " for agent " ++ b.repr (.str agentId)))
      else do
        let version ← versionNumber b (metric.get "metricVersion") source frozen.definition.checkId
        .ok { frozen with
          metricName := strippedField b metric "metricName"
          metricDesc := strippedField b metric "metricName"
          metricVersionNumber := version
          configured := configuredFields b metric }) := by
    intro frozen
    split
    · simp [handled_profileResolutionError]
    · simp [raisesOnly_bind, raisesOnly_versionNumber]
  rw [configuredMetric, raisesOnly_bind, raisesOnly_metricDefinition]
  constructor
  · rintro ⟨hweight, hfreeze⟩ hformed
    obtain ⟨check, hcheck⟩ := returns_metricDefinition.mpr ⟨hformed, hweight hformed⟩
    obtain ⟨parts, rfl⟩ := metricDefinition_parts hcheck
    obtain ⟨hattempts, hhashable⟩ :=
      (raisesOnly_freezeMetric_parts hcase parts).mp (raisesOnly_bind.mp (hfreeze _ hcheck)).1
    use hweight hformed, hattempts
    intro check' hcheck'
    rw [hcheck, Except.ok.injEq] at hcheck'
    exact hcheck' ▸ hhashable
  · intro hconvertible
    use fun hformed => (hconvertible hformed).weight
    intro check hcheck
    have hformed := (returns_metricDefinition.mp ⟨check, hcheck⟩).1
    obtain ⟨parts, rfl⟩ := metricDefinition_parts hcheck
    rw [raisesOnly_bind]
    constructor
    · have hmetric := hconvertible hformed
      apply (raisesOnly_freezeMetric_parts hcase parts).mpr
      exact ⟨hmetric.maxAttempts, hmetric.hashable _ hcheck⟩
    · intro frozen _
      apply htail frozen

end Attempts

/-! ### The metrics of a configuration -/

section Metrics

variable {b : Builtins} {settings : CreationSettings} {ids : Identifiers} {agentId source : String}

/-- The entries before a metric are accepted. -/
def Reaches (b : Builtins) (settings : CreationSettings) (ids : Identifiers)
    (agentId source : String) (seen : List String) (metrics : List Json) (metric : Dict) : Prop :=
  ∃ before after, metrics = before ++ .dict metric :: after ∧ isDisabled metric = false
    ∧ Returns (configuredMetrics b settings ids agentId source seen before)

/-- An entry that is switched off is passed by. -/
theorem reaches_cons_disabled {seen : List String} {metrics : List Json} {first metric : Dict}
    (h : isDisabled first = true) :
  Reaches b settings ids agentId source seen (.dict first :: metrics) metric
    ↔ Reaches b settings ids agentId source seen metrics metric
  := by
  constructor
  · rintro ⟨before, after, hmetrics, henabled, hreturns⟩
    cases before with
    | nil =>
      obtain ⟨hfirst, -⟩ := List.cons.inj hmetrics
      obtain rfl := Json.dict.inj hfirst
      rw [h] at henabled
      cases henabled
    | cons entry before =>
      obtain ⟨rfl, hrest⟩ := List.cons.inj hmetrics
      rw [configuredMetrics, if_pos h] at hreturns
      exact ⟨before, after, hrest, henabled, hreturns⟩
  · rintro ⟨before, after, hmetrics, henabled, hreturns⟩
    refine ⟨.dict first :: before, after, by rw [hmetrics, List.cons_append], henabled, ?_⟩
    rw [configuredMetrics, if_pos h]
    exact hreturns

/-- After an entry that is switched on, the loop goes on when that is accepted. -/
theorem reaches_cons_enabled {seen : List String} {metrics : List Json} {first metric : Dict}
    (h : isDisabled first = false) :
  Reaches b settings ids agentId source seen (.dict first :: metrics) metric
    ↔ metric = first ∨ ∃ frozen,
      configuredMetric b settings ids agentId source seen first = .ok frozen
        ∧ Reaches b settings ids agentId source (frozen.definition.checkId :: seen) metrics metric
  := by
  constructor
  · rintro ⟨before, after, hmetrics, henabled, hreturns⟩
    cases before with
    | nil =>
      obtain ⟨hfirst, -⟩ := List.cons.inj hmetrics
      exact .inl (Json.dict.inj hfirst).symm
    | cons entry before =>
      obtain ⟨rfl, hrest⟩ := List.cons.inj hmetrics
      rw [configuredMetrics, if_neg (by simp [h]), returns_bind] at hreturns
      obtain ⟨frozen, hfrozen, hreturns⟩ := hreturns
      obtain ⟨others, hothers, -⟩ := returns_bind.mp hreturns
      exact .inr ⟨frozen, hfrozen, before, after, hrest, henabled, others, hothers⟩
  · rintro (rfl | ⟨frozen, hfrozen, before, after, hmetrics, henabled, others, hothers⟩)
    · exact ⟨[], metrics, rfl, h, [], rfl⟩
    · refine ⟨.dict first :: before, after, by rw [hmetrics, List.cons_append], henabled,
        frozen :: others, ?_⟩
      rw [configuredMetrics, if_neg (by simp [h]), hfrozen, ok_bind, hothers, ok_bind]

/-- The loop over the metrics raises only what is handled unless it reaches one that is well
formed and cannot be converted. -/
theorem raisesOnly_configuredMetrics (hcase : CaseMappings b) {seen : List String}
    {metrics : List Json} :
  RaisesOnly (Handled payloadErrors) (configuredMetrics b settings ids agentId source seen metrics)
    ↔ ∀ metric, Reaches b settings ids agentId source seen metrics metric →
      WellFormed b source metric → Convertible b settings agentId source metric
  := by
  induction metrics generalizing seen with
  | nil => simp [configuredMetrics, Reaches]
  | cons entry metrics ih =>
    cases entry with
    | dict first =>
      cases hdisabled : isDisabled first with
      | true =>
        rw [configuredMetrics, if_pos hdisabled, ih]
        simp only [reaches_cons_disabled hdisabled]
      | false =>
        rw [configuredMetrics, if_neg (by simp [hdisabled]), raisesOnly_bind,
          raisesOnly_configuredMetric hcase]
        simp only [raisesOnly_bind, raisesOnly_ok, implies_true, and_true, ih,
          reaches_cons_enabled hdisabled]
        constructor
        · rintro ⟨hfirst, hothers⟩ metric (rfl | ⟨frozen, hfrozen, hreaches⟩)
          · exact hfirst
          · apply hothers frozen hfrozen metric hreaches
        · intro hall
          use hall first (.inl rfl)
          intro frozen hfrozen metric hreaches
          apply hall metric (.inr ⟨frozen, hfrozen, hreaches⟩)
    | _ =>
      simp only [configuredMetrics, raisesOnly_error, handled_profileResolutionError, true_iff]
      rintro metric ⟨before, after, hmetrics, -, hreturns⟩
      cases before with
      | nil => cases hmetrics
      | cons entry before =>
        obtain ⟨rfl, -⟩ := List.cons.inj hmetrics
        simp [configuredMetrics] at hreturns

/-- A configuration lists metrics for an agent. -/
structure Configures (config : Dict) (agentId : String) (metrics : List Json) : Prop where
  profiles : config.lookup "agents" = none ∧ config.lookup "checks" = none
  agent : ∃ rawAgentId, config.get "agentId" = .str rawAgentId ∧ isUuid rawAgentId = true
    ∧ isUuid agentId = true ∧ strip rawAgentId = strip agentId
  listed : config.get "metrics" = .list metrics

/-- The metrics of an agent raise only what is handled unless the configuration lists one for it
that is reached, is well formed and cannot be converted. -/
theorem raisesOnly_metricsForAgent (hcase : CaseMappings b) {config : Dict} :
  RaisesOnly (Handled payloadErrors) (metricsForAgent b settings ids config agentId source)
    ↔ ∀ metrics metric, Configures config agentId metrics →
      Reaches b settings ids (strip agentId) source [] metrics metric →
      WellFormed b source metric → Convertible b settings (strip agentId) source metric
  := by
  rw [metricsForAgent]
  split
  case isTrue hprofiles =>
    simp only [raisesOnly_error, handled_profileResolutionError, true_iff]
    intro metrics metric hconfigures
    simp [hconfigures.profiles] at hprofiles
  case isFalse hprofiles =>
    have hnone : config.lookup "agents" = none ∧ config.lookup "checks" = none := by
      cases hagents : config.lookup "agents" <;> cases hchecks : config.lookup "checks" <;>
        simp [hagents, hchecks] at hprofiles ⊢
    rw [metricsFromConfig]
    split
    case h_2 hraw =>
      simp only [raisesOnly_error, handled_profileResolutionError, true_iff]
      intro metrics metric hconfigures
      obtain ⟨rawAgentId, hrawAgentId, -⟩ := hconfigures.agent
      exact absurd hrawAgentId (hraw rawAgentId)
    case h_1 rawAgentId hrawAgentId =>
      have hsame : ∀ metrics, Configures config agentId metrics → isUuid rawAgentId = true
          ∧ isUuid agentId = true ∧ strip rawAgentId = strip agentId := by
        intro metrics hconfigures
        obtain ⟨other, hother, hagent⟩ := hconfigures.agent
        rw [hrawAgentId, Json.str.injEq] at hother
        rw [hother]
        exact hagent
      dsimp only
      split
      case isTrue hraw =>
        simp only [raisesOnly_error, handled_profileResolutionError, true_iff]
        intro metrics metric hconfigures
        simp [(hsame metrics hconfigures).1] at hraw
      split
      case isTrue hgiven =>
        simp only [raisesOnly_error, handled_profileResolutionError, true_iff]
        intro metrics metric hconfigures
        simp [(hsame metrics hconfigures).2.1] at hgiven
      split
      case isTrue hother =>
        simp only [raisesOnly_error, handled_profileNotFoundError, true_iff]
        intro metrics metric hconfigures
        exact absurd (hsame metrics hconfigures).2.2 hother
      case isFalse hraw hgiven hagent =>
        rw [not_not] at hagent
        simp only [Bool.not_eq_true', Bool.not_eq_false] at hraw hgiven
        split
        case h_1 first rest hlisted =>
          have hconfigures : ∀ metrics, Configures config agentId metrics
              ↔ metrics = first :: rest := by
            intro metrics
            constructor
            · intro hconfigures
              have hmetrics := hconfigures.listed
              rw [hlisted, Json.list.injEq] at hmetrics
              exact hmetrics.symm
            · rintro rfl
              exact ⟨hnone, ⟨rawAgentId, hrawAgentId, hraw, hgiven, hagent⟩, hlisted⟩
          rw [hagent, raisesOnly_bind, raisesOnly_configuredMetrics hcase]
          constructor
          · rintro ⟨hall, -⟩ metrics metric hlists
            rw [(hconfigures metrics).mp hlists]
            apply hall metric
          · intro hall
            constructor
            · intro metric
              apply hall _ metric ((hconfigures _).mpr rfl)
            · intro snapshots _
              split <;> simp [handled_profileResolutionError]
        case h_2 hlisted =>
          simp only [raisesOnly_error, handled_profileResolutionError, true_iff]
          rintro metrics metric hconfigures ⟨before, after, rfl, -⟩
          cases before with
          | nil => exact absurd hconfigures.listed (hlisted _ _)
          | cons first before => exact absurd hconfigures.listed (hlisted _ _)

end Metrics

/-! ### The payloads of a folder -/

section Payloads

variable {e : Surroundings} {request : CreateRequest} {drawn : Drawn}

/-- The metrics of the agent of a configuration are known. -/
def Knows (config : Dict) (known : List (String × List FrozenMetric)) : Prop :=
  ∀ rawAgentId, config.get "agentId" = .str rawAgentId →
    (known.lookup (strip rawAgentId)).isSome = true

/-- An agent that is not known is not the one of the configuration. -/
theorem raisesOnly_selectMetrics (hcase : CaseMappings e.builtins) {config : Dict}
    {known : List (String × List FrozenMetric)} (h : Knows config known) {agentId source : String}
    (hstrip : strip agentId = agentId) :
  RaisesOnly (Handled payloadErrors) (selectMetrics e config known agentId source)
  := by
  rw [selectMetrics]
  split
  case h_1 => apply raisesOnly_ok
  case h_2 hunknown =>
    simp only [raisesOnly_bind, raisesOnly_ok, implies_true, and_true,
      raisesOnly_metricsForAgent hcase]
    intro metrics metric hconfigures
    obtain ⟨rawAgentId, hraw, -, -, hsame⟩ := hconfigures.agent
    have hknown := h rawAgentId hraw
    rw [hsame, hstrip, hunknown] at hknown
    cases hknown

/-- What is known stays known. -/
theorem Knows.selectMetrics {config : Dict} {known known' : List (String × List FrozenMetric)}
    (h : Knows config known) {agentId source : String} {frozen : List FrozenMetric}
    (hselected : selectMetrics e config known agentId source = .ok (frozen, known')) :
  Knows config known'
  := by
  intro rawAgentId hraw
  rw [Evalorch.selectMetrics] at hselected
  split at hselected
  case h_1 =>
    cases hselected
    apply h rawAgentId hraw
  case h_2 =>
    obtain ⟨metrics, -, hselected⟩ := bind_eq_ok.mp hselected
    cases hselected
    rw [List.lookup_append, Option.isSome_or, h rawAgentId hraw, Bool.true_or]

/-- Once the metrics of the agent are known, the loop over the payloads raises rejections only. -/
theorem raisesOnly_preparePayloads (hcase : CaseMappings e.builtins) {config : Dict} {i : ℕ}
    {known : List (String × List FrozenMetric)} (h : Knows config known)
    (files : List PayloadFile) :
  RaisesOnly IsRejection (preparePayloads e drawn config i known files)
  := by
  induction files generalizing i known with
  | nil => apply raisesOnly_ok
  | cons file files ih =>
    rw [preparePayloads, raisesOnly_bind, raisesOnly_wrapping, preparePayload, raisesOnly_bind]
    constructor
    · use raisesOnly_validatePayload handled_payloadValidationError _ _
      intro report _
      rw [raisesOnly_bind]
      use raisesOnly_extractAgentId _ _
      intro agentId hagent
      rw [raisesOnly_bind]
      use raisesOnly_selectMetrics hcase h (strip_extractAgentId hagent)
      intro selected _
      apply raisesOnly_ok
    · rintro ⟨warnings, agentId, frozen, known'⟩ hfile
      obtain ⟨report, -, hfile⟩ := bind_eq_ok.mp (wrapping_eq_ok.mp hfile)
      obtain ⟨agentId', -, hfile⟩ := bind_eq_ok.mp hfile
      obtain ⟨⟨frozen', known''⟩, hselected, hfile⟩ := bind_eq_ok.mp hfile
      cases hfile
      simp only [raisesOnly_bind, raisesOnly_ok, implies_true, and_true]
      apply ih (h.selectMetrics hselected)

/-- Before anything is known, the loop over the payloads raises what the metrics of the first one
raise. -/
theorem raisesOnly_preparePayloads_nil (hcase : CaseMappings e.builtins) {config : Dict}
    (files : List PayloadFile) :
  RaisesOnly IsRejection (preparePayloads e drawn config 0 [] files)
    ↔ ∀ file ∈ files.head?, Returns (validatePayload e.builtins (.dict file.payload) none) →
      ∀ agentId, extractAgentId file.payload file.filename = .ok agentId →
      RaisesOnly (Handled payloadErrors)
        (metricsForAgent e.builtins e.settings e.identifiers config agentId file.filename)
  := by
  cases files with
  | nil => simp [preparePayloads]
  | cons file files =>
    simp only [List.head?_cons, Option.mem_some_iff, forall_eq']
    rw [preparePayloads, raisesOnly_bind, raisesOnly_wrapping]
    constructor
    · rintro ⟨hfile, -⟩ ⟨report, hreport⟩ agentId hagent
      rw [preparePayload, hreport, ok_bind, hagent, ok_bind, raisesOnly_bind] at hfile
      apply (raisesOnly_bind.mp hfile.1).1
    · intro hmetrics
      constructor
      · rw [preparePayload, raisesOnly_bind]
        use raisesOnly_validatePayload handled_payloadValidationError _ _
        intro report hreport
        rw [raisesOnly_bind]
        use raisesOnly_extractAgentId _ _
        intro agentId hagent
        rw [raisesOnly_bind, selectMetrics, List.lookup_nil, raisesOnly_bind]
        refine ⟨⟨hmetrics ⟨report, hreport⟩ agentId hagent, ?_⟩, ?_⟩
        · intro frozen _
          apply raisesOnly_ok
        · intro selected _
          apply raisesOnly_ok
      · rintro ⟨warnings, agentId, frozen, known⟩ hfile
        obtain ⟨report, -, hfile⟩ := bind_eq_ok.mp (wrapping_eq_ok.mp hfile)
        obtain ⟨agentId', hagent, hfile⟩ := bind_eq_ok.mp hfile
        obtain ⟨⟨frozen', known'⟩, hselected, hfile⟩ := bind_eq_ok.mp hfile
        cases hfile
        obtain ⟨metrics, hmetrics, hselected⟩ := bind_eq_ok.mp hselected
        cases hselected
        simp only [raisesOnly_bind, raisesOnly_ok, implies_true, and_true]
        apply raisesOnly_preparePayloads hcase
        intro rawAgentId hraw
        obtain ⟨other, -, hother, hsame, -⟩ := metricsForAgent_ok hmetrics
        rw [hraw, Json.str.injEq] at hother
        rw [hother, hsame, strip_extractAgentId hagent]
        simp

/-- The loop over the metrics is entered for the first payload of a folder. -/
structure EntersMetrics (e : Surroundings) (folder : DatasetFolderContents)
    (source agentId : String) (metrics : List Json) : Prop where
  payload : ∃ file ∈ folder.payloads.head?, file.filename = source
    ∧ Returns (validatePayload e.builtins (.dict file.payload) none)
    ∧ extractAgentId file.payload source = .ok agentId
  configures : Configures folder.config agentId metrics

/-- What a request does before its first write raises rejections only, unless the loop over the
metrics is entered and reaches a metric that is well formed and cannot be converted. -/
theorem raisesOnly_prepareJob (hcase : CaseMappings e.builtins) :
  RaisesOnly IsRejection (prepareJob e request drawn)
    ↔ ∀ folder source agentId metrics metric,
      readDatasetFolder e.builtins e.files request.datasetId = .ok folder →
      EntersMetrics e folder source agentId metrics →
      Reaches e.builtins e.settings e.identifiers agentId source [] metrics metric →
      WellFormed e.builtins source metric → Convertible e.builtins e.settings agentId source metric
  := by
  simp only [prepareJob, raisesOnly_bind, raisesOnly_wrapping, raisesOnly_readDatasetFolder,
    true_and, wrapping_eq_ok, raisesOnly_ok, implies_true, and_true,
    raisesOnly_preparePayloads_nil hcase, raisesOnly_metricsForAgent hcase]
  constructor
  · rintro hall folder source agentId metrics metric hfolder ⟨⟨file, hfile, rfl, hvalid, hagent⟩,
      hconfigures⟩ hreaches
    rw [← strip_extractAgentId hagent] at hreaches ⊢
    apply hall folder hfolder file hfile hvalid agentId hagent metrics metric hconfigures hreaches
  · intro hall folder hfolder file hfile hvalid agentId hagent metrics metric hconfigures hreaches
    rw [strip_extractAgentId hagent] at hreaches ⊢
    apply hall folder file.filename agentId metrics metric hfolder
      ⟨⟨file, hfile, rfl, hvalid, hagent⟩, hconfigures⟩ hreaches

end Payloads

end Evalorch
