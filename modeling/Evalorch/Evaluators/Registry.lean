import Evalorch.Models.Json

/-!
# The evaluator registry

The evaluators by name, each with the type of the checks it runs, and the aliases that
configuration may use for them.
-/

namespace Evalorch

/-- `EVALUATORS`, with the type of check of each. -/
def evaluators : List (String × CheckType) :=
  [("required_fields", .deterministic), ("workflow_order", .deterministic),
    ("span_exists", .deterministic), ("tool_calls", .deterministic), ("llm_judge", .llmJudge)]

/-- `ALIASES`. -/
def aliases : List (String × String) :=
  [("required_field", "required_fields"), ("required_output", "required_fields"),
    ("workflow", "workflow_order"), ("agent_span_exists", "span_exists"),
    ("span_existence", "span_exists"), ("tool_call", "tool_calls"),
    ("tool_call_exists", "tool_calls"), ("tool_response_exists", "tool_calls"),
    ("llm", "llm_judge"), ("judge", "llm_judge")]

/-- `resolve_evaluator_name`. -/
def resolveEvaluatorName (b : Builtins) (name : String) : String :=
  let key := b.lower (Python.strip name)
  (aliases.lookup key).getD key

/-- `evaluator_exists`. -/
def evaluatorExists (b : Builtins) (name : String) : Bool :=
  (evaluators.lookup (resolveEvaluatorName b name)).isSome

/-- `evaluator_check_type`. -/
def evaluatorCheckType (b : Builtins) (name : String) : Except Exn CheckType :=
  match evaluators.lookup (resolveEvaluatorName b name) with
  | some checkType => .ok checkType
  | none => .error (.permanentEvaluation ("unknown evaluator '" ++ name ++ "'")
      "UNKNOWN_EVALUATOR")

end Evalorch
