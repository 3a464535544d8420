import Evalorch.Core.Config
import Evalorch.Evaluators.Registry
import Evalorch.Transact.Program

/-!
# Metric definitions

`normalizeMetricDefinition` turns one metric of a configuration into the definition that is
frozen onto tickets, or raises with the problems it found. The path of an entry of
`input_mapping` is checked only to be text that is not blank.
-/

namespace Evalorch

/-- `RESERVED_DEFINITION_KEYS`. -/
def reservedDefinitionKeys : List String :=
  ["check_id", "id", "check_type", "evaluator", "evaluator_type", "input_mapping", "priority",
    "max_attempts", "on_missing_context", "applies_when", "description", "params"]

/-- `MetricDefinitionError(problems)`. -/
def metricDefinitionError (problems : List String) : Exn :=
  .builtin "MetricDefinitionError" ("; ".intercalate problems)

/-- `_normalize_policy`. -/
def normalizePolicy (b : Builtins) (value default : Json) : Except Exn Json :=
  if value.typeName = "NoneType" then .ok default
  else
    let text := b.lower (Python.strip (b.str value))
    if text ∈ ["not_applicable", "na", "skip"] then .ok (.str "not_applicable")
    else if text ∈ ["fail", "failed", "error"] then .ok (.str "fail")
    else
      .error (metricDefinitionError
        ["on_missing_context must be 'not_applicable' or 'fail', got " ++ b.repr value])

/-! ### Input mappings -/

/-- A field of an entry, when it has one. -/
def specField (spec : Dict) (key : String) (convert : Json → Json) : Dict :=
  match spec.lookup key with
  | some value => [(key, convert value)]
  | none => []

/-- An entry of a mapping that is an object, normalized. -/
def normalizedEntry (b : Builtins) (path : String) (spec : Dict) : Dict :=
  [("path", .str (Python.strip path))]
    ++ specField spec "required" (fun value => .bool value.truthy)
    ++ specField spec "nullable" (fun value => .bool value.truthy)
    ++ specField spec "type" (fun value => .str (b.str value))
    ++ specField spec "default" id

/-- An entry of a mapping, normalized, or the problem with it. -/
def normalizeSpec (b : Builtins) (label key : String) (spec : Json) : Except String Json :=
  if key = "" then .error (label ++ ": input_mapping keys must be non-empty strings")
  else
    match spec with
    | .str path =>
      if Python.strip path = "" then
        .error (label ++ ": input_mapping['" ++ key ++ "'] must be a non-empty path")
      else .ok (.str (Python.strip path))
    | .dict spec =>
      match Dict.get spec "path" with
      | .str path =>
        if Python.strip path = "" then
          .error (label ++ ": input_mapping['" ++ key ++ "'] object requires a string 'path'")
        else .ok (.dict (normalizedEntry b path spec))
      | _ => .error (label ++ ": input_mapping['" ++ key ++ "'] object requires a string 'path'")
    | _ => .error (label ++ ": input_mapping['" ++ key ++ "'] must be a path string or an object")

/-- `_validate_input_mapping`: the normalized mapping and the problems. -/
def validateInputMapping (b : Builtins) (mapping : Json) (label : String) : Dict × List String :=
  match mapping with
  | .null => ([], [])
  | .dict mapping =>
      (mapping.filterMap fun entry => match normalizeSpec b label entry.1 entry.2 with
        | .ok spec => some (entry.1, spec)
        | .error _ => none,
      mapping.filterMap fun entry => match normalizeSpec b label entry.1 entry.2 with
        | .ok _ => none
        | .error problem => some problem)
  | _ => ([], [label ++ ": input_mapping must be an object"])

/-! ### Definitions -/

/-- `check_id` of a definition. -/
def definitionCheckId (label : String) (raw : Dict) : Except Exn String :=
  match (raw.get "check_id").or (raw.get "id") with
  | .str checkId =>
    if Python.strip checkId = "" then
      .error (metricDefinitionError [label ++ ": check_id is required"])
    else .ok (Python.strip checkId)
  | _ => .error (metricDefinitionError [label ++ ": check_id is required"])

/-- The identifier of a definition is not empty. -/
theorem definitionCheckId_ne_empty {label : String} {raw : Dict} {checkId : String}
    (h : definitionCheckId label raw = .ok checkId) :
  checkId ≠ ""
  := by
  unfold definitionCheckId at h
  split at h
  case h_2 => cases h
  case h_1 =>
    split at h
    case isTrue => cases h
    case isFalse hne =>
      cases h
      exact hne

/-- The name of the evaluator of a definition. -/
def definitionEvaluator (b : Builtins) (label : String) (raw : Dict) : Except Exn String :=
  let evaluator := (raw.get "evaluator").or (raw.get "evaluator_type")
  let declaredType := raw.get "check_type"
  if evaluator.truthy then
    let name := resolveEvaluatorName b (b.str evaluator)
    if evaluatorExists b name then .ok name
    else .error (metricDefinitionError [label ++ ": unknown evaluator " ++ b.repr evaluator])
  else if declaredType.truthy && b.upper (b.str declaredType) = CheckType.llmJudge.value then
    .ok "llm_judge"
  else
    .error (metricDefinitionError
      [label ++ ": 'evaluator' is required for deterministic metrics "
        ++ "(e.g. required_fields, workflow_order, tool_calls, span_exists)"])

/-- The check of the declared type against the type of the evaluator. -/
def checkDeclaredType (b : Builtins) (label : String) (raw : Dict) (evaluatorName : String)
    (resolvedType : CheckType) : Except Exn Unit :=
  let declaredType := raw.get "check_type"
  if declaredType.truthy then
    match CheckType.ofValue? (b.upper (b.str declaredType)) with
    | none => .error (metricDefinitionError
        [label ++ ": check_type must be DETERMINISTIC or LLM_JUDGE, got " ++ b.repr declaredType])
    | some declared =>
      if declared = resolvedType then .ok ()
      else
        .error (metricDefinitionError
          [label ++ ": check_type " ++ declared.value ++ " conflicts with evaluator '"
            ++ evaluatorName ++ "' (" ++ resolvedType.value ++ ")"])
  else .ok ()

/-- The parameters of a definition, which may stand beside its other fields. -/
def definitionParams (label : String) (raw : Dict) : Dict × List String :=
  match raw.get "params" with
  | .null => (raw.filter fun field => !reservedDefinitionKeys.contains field.1, [])
  | .dict params => (params, [])
  | _ => ([], [label ++ ": params must be an object"])

/-- An integer field of a definition, with what stands in for it when it is none. -/
def definitionInt (b : Builtins) (label : String) (raw : Dict) (field : String)
    (default : Json) (standIn : ℤ) : Except Exn (ℤ × List String) :=
  match b.int ((raw.lookup field).getD default) with
  | .ok n => .ok (n, [])
  | .error (.builtin _ _) => .ok (standIn, [label ++ ": " ++ field ++ " must be an integer"])
  | .error e => .error e

/-- `max_attempts` of a definition is at least one. -/
def atLeastOne (label : String) (maxAttempts : ℤ) : ℤ × List String :=
  if maxAttempts < 1 then (1, [label ++ ": max_attempts must be >= 1"]) else (maxAttempts, [])

/-- `on_missing_context` of a definition. -/
def definitionPolicy (b : Builtins) (label : String) (raw : Dict) (default : Json) :
    Json × List String :=
  match normalizePolicy b (raw.get "on_missing_context") default with
  | .ok policy => (policy, [])
  | .error e => (default, [label ++ ": " ++ e.text])

/-- `applies_when` of a definition. -/
def definitionAppliesWhen (label : String) (raw : Dict) : Dict × List String :=
  match raw.get "applies_when" with
  | .null => ([], [])
  | .dict appliesWhen => (appliesWhen, [])
  | _ => ([], [label ++ ": applies_when must be an object"])

/-- A normalized definition. -/
structure MetricDefinition where
  checkId : String
  checkType : CheckType
  evaluator : String
  description : Json
  inputMapping : Dict
  params : Dict
  priority : ℤ
  maxAttempts : ℤ
  onMissingContext : Json
  /-- Empty when the definition has no guard. -/
  appliesWhen : Dict

/-- The definition as the dictionary that is stored. -/
def MetricDefinition.asDict (d : MetricDefinition) : Dict :=
  [("check_id", .str d.checkId), ("check_type", .str d.checkType.value),
    ("evaluator", .str d.evaluator), ("description", d.description),
    ("input_mapping", .dict d.inputMapping), ("params", .dict d.params),
    ("priority", .int d.priority), ("max_attempts", .int d.maxAttempts),
    ("on_missing_context", d.onMissingContext)]
    ++ if d.appliesWhen.isEmpty then [] else [("applies_when", .dict d.appliesWhen)]

/-- `normalize_metric_definition` of an object. -/
def normalizeDefinition (b : Builtins) (settings : Settings) (raw : Dict) (label : String)
    (defaults : Dict) : Except Exn MetricDefinition := do
  let checkId ← definitionCheckId label raw
  let evaluatorName ← definitionEvaluator b label raw
  let resolvedType ← evaluatorCheckType b evaluatorName
  let _ ← checkDeclaredType b label raw evaluatorName resolvedType
  let mapping := validateInputMapping b (raw.get "input_mapping") label
  let params := definitionParams label raw
  let priority ← definitionInt b label raw "priority"
    ((defaults.lookup "priority").getD (.int 0)) 0
  let maxAttempts ← definitionInt b label raw "max_attempts"
    ((defaults.lookup "max_attempts").getD (.int settings.runnerMaxAttempts))
    settings.runnerMaxAttempts
  let bounded := atLeastOne label maxAttempts.1
  let policy := definitionPolicy b label raw
    ((defaults.lookup "on_missing_context").getD (.str settings.defaultOnMissingContext.value))
  let appliesWhen := definitionAppliesWhen label raw
  let problems := mapping.2 ++ params.2 ++ priority.2 ++ maxAttempts.2 ++ bounded.2 ++ policy.2
    ++ appliesWhen.2
  if !problems.isEmpty then .error (metricDefinitionError problems)
  else
    .ok {
      checkId := checkId
      checkType := resolvedType
      evaluator := evaluatorName
      description := raw.get "description"
      inputMapping := mapping.1
      params := params.1
      priority := priority.1
      maxAttempts := bounded.1
      onMissingContext := policy.1
      appliesWhen := appliesWhen.1 }

/-- `normalize_metric_definition`; the source returns the definition as a dictionary. -/
def normalizeMetricDefinition (b : Builtins) (settings : Settings) (raw : Json)
    (label : String) (defaults : Option Dict) : Except Exn MetricDefinition :=
  match raw with
  | .dict raw => normalizeDefinition b settings raw label (defaults.getD [])
  | _ => .error (metricDefinitionError [label ++ ": definition must be an object"])

/-- A definition that is accepted has the identifier and the guard of the raw one, and its
mapping and parameters without a problem. -/
theorem normalizeDefinition_ok {b : Builtins} {settings : Settings} {raw : Dict}
    {label : String} {defaults : Dict} {d : MetricDefinition}
    (h : normalizeDefinition b settings raw label defaults = .ok d) :
  definitionCheckId label raw = .ok d.checkId
    ∧ validateInputMapping b (raw.get "input_mapping") label = (d.inputMapping, [])
    ∧ definitionParams label raw = (d.params, [])
    ∧ definitionAppliesWhen label raw = (d.appliesWhen, [])
  := by
  unfold normalizeDefinition at h
  obtain ⟨checkId, hcheckId, h⟩ := Transact.bind_eq_ok.mp h
  obtain ⟨evaluator, -, h⟩ := Transact.bind_eq_ok.mp h
  obtain ⟨resolvedType, -, h⟩ := Transact.bind_eq_ok.mp h
  obtain ⟨-, -, h⟩ := Transact.bind_eq_ok.mp h
  obtain ⟨priority, -, h⟩ := Transact.bind_eq_ok.mp h
  obtain ⟨maxAttempts, -, h⟩ := Transact.bind_eq_ok.mp h
  simp only [Bool.not_eq_true', List.isEmpty_eq_false_iff] at h
  split at h
  case isTrue => cases h
  case isFalse hproblems =>
    simp only [ne_eq, not_not, List.append_eq_nil_iff] at hproblems
    obtain ⟨⟨⟨⟨⟨⟨hmapping, hparams⟩, -⟩, -⟩, -⟩, -⟩, happlies⟩ := hproblems
    cases h
    refine ⟨hcheckId, ?_, ?_, ?_⟩
    · exact Prod.ext rfl hmapping
    · exact Prod.ext rfl hparams
    · exact Prod.ext rfl happlies

end Evalorch
