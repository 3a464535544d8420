import Evalorch.Models.Json

/-!
# The evaluator contract

An evaluator takes the resolved values, the check definition and identifiers of the
execution, and returns an output or raises. `Evaluator.run` stamps the time and the identity
of the evaluator onto the output and leaves its verdict alone.
-/

namespace Evalorch

/-- Identifiers and settings an evaluator may need. -/
structure ExecutionContext where
  jobId : Uuid
  ticketId : Uuid
  payloadId : Uuid
  checkId : String
  checkType : CheckType
  attempt : ℤ
  maxAttempts : ℤ
  workerId : Option String
  configSnapshot : Dict

/-- Normalized evaluator result. -/
structure EvaluatorOutput where
  status : ResultStatus
  passed : Option Bool
  score : Option Float64
  explanation : String
  evidence : Dict
  evaluatorType : String
  evaluatorVersion : String
  executionTimeMs : Float64
  errorCode : Option String
  errorMessage : Option String
  output : Option Dict

namespace EvaluatorOutput

/-- A text field of `as_output_json` that is left out when it is empty. -/
def textField (key : String) (text : Option String) : Dict :=
  match text.filter (· != "") with
  | some s => [(key, .str s)]
  | none => []

/-- `EvaluatorOutput.as_output_json`. -/
def asOutputJson (o : EvaluatorOutput) : Dict :=
  [("status", .str o.status.value),
    ("passed", (o.passed.map Json.bool).getD .null),
    ("score", (o.score.map Json.float).getD .null),
    ("explanation", .str o.explanation),
    ("evaluator_type", .str o.evaluatorType),
    ("evaluator_version", .str o.evaluatorVersion),
    ("execution_time_ms", .float (o.executionTimeMs.round 3))]
    ++ textField "error_code" o.errorCode
    ++ textField "error_message" o.errorMessage
    ++ ((o.output.filter (!·.isEmpty)).map fun details => [("details", .dict details)]).getD []

end EvaluatorOutput

/-- An evaluator: its name and version, and what `evaluate` returns or raises. -/
structure Evaluator where
  name : String
  version : String
  evaluate : Dict → Dict → ExecutionContext → Except Exn EvaluatorOutput

namespace Evaluator

/-- `Evaluator.run`, on an evaluation that took `elapsed` milliseconds. -/
def run (evaluator : Evaluator) (elapsed : Float64) (input config : Dict)
    (context : ExecutionContext) : Except Exn EvaluatorOutput := do
  let output ← evaluator.evaluate input config context
  .ok { output with
    executionTimeMs := elapsed
    evaluatorType :=
      if output.evaluatorType = "" then evaluator.name else output.evaluatorType
    evaluatorVersion :=
      if output.evaluatorVersion = "" then evaluator.version else output.evaluatorVersion }

/-- `Evaluator.outcome`, of an evaluator with a name and a version. -/
def outcome (name version : String) (passed : Bool) (score : Option Float64)
    (explanation : String) (evidence : Dict) (output : Option Dict) : EvaluatorOutput where
  status := if passed then .passed else .failed
  passed := some passed
  score := some (score.getD (.finite (if passed then 1 else 0)))
  explanation := explanation
  evidence := evidence
  evaluatorType := name
  evaluatorVersion := version
  executionTimeMs := .finite 0
  errorCode := none
  errorMessage := none
  output := output

/-- `Evaluator.require`. -/
def require (input : Dict) (key : String) : Except Exn Json :=
  match input.lookup key with
  | some value => .ok value
  | none => .error (.invalidEvaluatorConfig
      ("input_mapping is missing required key '" ++ key ++ "'"))

/-- `config.get("params") or {}`, which evaluators read with `get`. -/
def paramsOf (config : Dict) : Except Exn Dict :=
  match (config.get "params").or (.dict []) with
  | .dict params => .ok params
  | value => .error (.builtin "AttributeError"
      ("'" ++ value.typeName ++ "' object has no attribute 'get'"))

/-- `round(part / whole, 4)`. -/
def share (part whole : ℕ) : Float64 :=
  .round 4 (.finite (toDouble (part / whole)))

/-- `Evaluator.not_applicable`. -/
def notApplicable (evaluator : Evaluator) (explanation : String) (evidence : Dict)
    (errorCode : String) : EvaluatorOutput where
  status := .notApplicable
  passed := none
  score := none
  explanation := explanation
  evidence := evidence
  evaluatorType := evaluator.name
  evaluatorVersion := evaluator.version
  executionTimeMs := .finite 0
  errorCode := some errorCode
  errorMessage := none
  output := none

/-- The evaluation ends with the verdict that the check passed. -/
def Passes (evaluation : Except Exn EvaluatorOutput) : Prop :=
  ∃ output, evaluation = .ok output ∧ output.status = .passed

theorem passes_outcome {name version : String} {passed : Bool} {score : Option Float64}
    {explanation : String} {evidence : Dict} {output : Option Dict} :
  Passes (.ok (outcome name version passed score explanation evidence output)) ↔ passed = true
  := by cases passed <;> simp [Passes, outcome]

end Evaluator

end Evalorch
