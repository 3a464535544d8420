import Evalorch.Evaluators.Deterministic.RequiredFields

/-!
# Tool calls

`ToolCalls.evaluate` verifies that the expected tools were called, that no forbidden one was, and
that the calls have responses. With expected tools only their calls need one.
-/

namespace Evalorch

open Evaluator

namespace ToolCalls

/-- `NAME_KEYS`. -/
def nameKeys : List String := ["name", "tool", "tool_name", "function", "function_name"]

/-- `RESPONSE_KEYS`. -/
def responseKeys : List String := ["response", "result", "output", "tool_response", "return_value"]

/-- A text that is not blank. -/
def notBlank : Json → Option String
  | .str text => if Python.strip text = "" then none else some text
  | _ => none

/-- The name in the value of a key: the value, or the name of an object. -/
def nameIn : Json → Option String
  | .dict fields => notBlank (Dict.get fields "name")
  | value => notBlank value

/-- `_tool_name`. -/
def toolName (call : Dict) : Option String :=
  nameKeys.findSome? fun key => nameIn (call.get key)

/-- `_has_response`. -/
def hasResponse (call : Dict) : Bool :=
  responseKeys.any fun key => ((call.lookup key).filter (!RequiredFields.isEmpty ·)).isSome

/-- The parameters of the check. -/
structure Params where
  expected : List String
  forbidden : List String
  requireResponse : Bool
  minCalls : ℤ

/-- `[str(t) for t in (value or [])]`. -/
def readTools (b : Builtins) (value : Json) : Except Exn (List String) :=
  (iterated (value.or (.list []))).map (List.map b.str)

/-- Reads the parameters of the check. -/
def readParams (b : Builtins) (config : Dict) : Except Exn Params := do
  let params ← paramsOf config
  let expected ← readTools b (params.get "expected_tools")
  let forbidden ← readTools b (params.get "forbidden_tools")
  let requireResponse := ((params.lookup "require_response").getD (.bool true)).truthy
  let minCalls ← b.int
    ((params.lookup "min_calls").getD (.int (if expected.isEmpty then 1 else 0)))
  .ok ⟨expected, forbidden, requireResponse, minCalls⟩

/-- A call is an object. -/
def call? : Json → Option Dict
  | .dict call => some call
  | _ => none

/-- The calls of a document: those of an array, a single one, or none. -/
def callsOf : Json → Option (List Dict)
  | .null => some []
  | .dict call => some [call]
  | .list items => some (items.filterMap call?)
  | _ => none

/-- The names of the tools that were called. -/
def observedTools (calls : List Dict) : List String :=
  calls.filterMap toolName

/-- The tool that a call without a response is reported as, when it needs one. -/
def unanswered (expected : List String) (call : Dict) : Option String :=
  let name := (toolName call).getD "<unnamed>"
  if !expected.isEmpty && !expected.contains name then none
  else if hasResponse call then none
  else some name

/-- `without_response`. -/
def withoutResponse (params : Params) (calls : List Dict) : List String :=
  if params.requireResponse then calls.filterMap (unanswered params.expected) else []

/-- The expected tools that were not called. -/
def missingTools (params : Params) (calls : List Dict) : List String :=
  params.expected.filter fun tool => !(observedTools calls).contains tool

/-- The forbidden tools that were called. -/
def usedForbidden (params : Params) (calls : List Dict) : List String :=
  params.forbidden.filter fun tool => (observedTools calls).contains tool

/-- `problems`. -/
def problems (params : Params) (calls : List Dict) : List String :=
  (if calls.length < params.minCalls then
    [s!"expected at least {params.minCalls} tool call(s), found {calls.length}"] else [])
  ++ (if (missingTools params calls).isEmpty then []
    else ["missing tool call(s): " ++ ", ".intercalate (missingTools params calls)])
  ++ (if (usedForbidden params calls).isEmpty then []
    else ["forbidden tool(s) called: " ++ ", ".intercalate (usedForbidden params calls)])
  ++ (if (withoutResponse params calls).isEmpty then []
    else ["tool call(s) without a response: "
      ++ ", ".intercalate (withoutResponse params calls)])

/-- The score of a check with problems: the share of the expected tools that were called. -/
def partialScore (params : Params) (calls : List Dict) : Float64 :=
  if params.expected.isEmpty then .finite 0
  else share (params.expected.length - (missingTools params calls).length) params.expected.length

/-- The part of `ToolCallEvaluator.evaluate` after the parameters and the calls are read. -/
def check (params : Params) (calls : List Dict) : EvaluatorOutput :=
  let problems := problems params calls
  outcome "tool_calls" "1.0.0" problems.isEmpty
    (some (if problems.isEmpty then .finite 1 else partialScore params calls))
    (if problems.isEmpty then s!"{calls.length} tool call(s) verified"
      else "; ".intercalate problems)
    [("expected_tools", .list (params.expected.map .str)),
      ("observed_tools", .list ((observedTools calls).map .str)),
      ("missing_tools", .list ((missingTools params calls).map .str)),
      ("forbidden_tools_called", .list ((usedForbidden params calls).map .str)),
      ("calls_without_response", .list ((withoutResponse params calls).map .str)),
      ("call_count", .int calls.length), ("require_response", .bool params.requireResponse)] none

/-- `ToolCallEvaluator.evaluate`. -/
def evaluate (b : Builtins) (input config : Dict) (_ : ExecutionContext) :
    Except Exn EvaluatorOutput := do
  let params ← readParams b config
  let raw ← require input "tool_calls"
  match callsOf raw with
  | some calls => .ok (check params calls)
  | none => .ok (outcome "tool_calls" "1.0.0" false (some (.finite 0))
      ("mapped tool_calls is " ++ raw.typeName ++ ", expected a list")
      [("actual_type", .str raw.typeName)] none)

end ToolCalls

end Evalorch
