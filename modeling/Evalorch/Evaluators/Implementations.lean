import Evalorch.Evaluators.Deterministic.ToolCalls
import Evalorch.Evaluators.Deterministic.WorkflowOrder
import Evalorch.Evaluators.LLM.Judge
import Evalorch.Evaluators.Registry

/-!
# The registered evaluators

`getEvaluator` gives the evaluator that a check names, by its name or by an alias.
-/

namespace Evalorch

/-- The evaluators that `EVALUATORS` lists. -/
def implementations (e : Judge.Environment) : List Evaluator :=
  [⟨"required_fields", "1.0.0", RequiredFields.evaluate e.builtins⟩,
    ⟨"workflow_order", "1.0.0", WorkflowOrder.evaluate e.builtins⟩,
    ⟨"span_exists", "1.0.0", SpanExists.evaluate e.builtins⟩,
    ⟨"tool_calls", "1.0.0", ToolCalls.evaluate e.builtins⟩,
    ⟨"llm_judge", "1.0.0", Judge.evaluate e⟩]

/-- `UnknownEvaluatorError(message)` of `get_evaluator`. -/
def unknownEvaluator (b : Builtins) (name : Json) : Exn :=
  .permanentEvaluation ("unknown evaluator '" ++ b.str name ++ "'; available: "
    ++ "['llm_judge', 'required_fields', 'span_exists', 'tool_calls', 'workflow_order']")
    "UNKNOWN_EVALUATOR"

/-- `get_evaluator`. -/
def getEvaluator (e : Judge.Environment) (name : Json) : Except Exn Evaluator :=
  let resolved := resolveEvaluatorName e.builtins (e.builtins.str (name.or (.str "")))
  match (implementations e).find? (·.name = resolved) with
  | some evaluator => .ok evaluator
  | none => .error (unknownEvaluator e.builtins name)

end Evalorch
