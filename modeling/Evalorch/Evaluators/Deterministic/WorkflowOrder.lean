import Evalorch.Evaluators.Base
import Evalorch.Sequence.Subsequence
import Evalorch.Services.ContextResolver

/-!
# Workflow order

`WorkflowOrder.evaluate` verifies that the agents of a trace ran in the expected order, and
`SpanExists.evaluate` that they ran at all. An agent is present when a span has its name as one of
four identities. The order is read from a list with one identity for each span, the first of the
four that is set, so an agent may be present and yet have no place in the order.
-/

namespace Evalorch

open Evaluator Sequence

/-! ### Spans -/

/-- `span.setdefault(key, value)`. -/
def Dict.setDefault (fields : Dict) (key : String) (value : Json) : Dict :=
  if (fields.lookup key).isSome then fields else fields.set key value

/-- The identity of a span in the order: the first one that is set. -/
def spanIdentity (b : Builtins) (span : Dict) : Option String :=
  spanIdentityKeys.findSome? fun key =>
    if (span.get key).truthy then some (b.str (span.get key)) else none

/-- `span_identities`. -/
def spanIdentities (b : Builtins) (spans : List Dict) : List String :=
  spans.filterMap (spanIdentity b)

/-- `_coerce_spans`. -/
def coerceSpans : Json → Except Exn (List Dict)
  | .list items => .ok (items.filterMap coerceSpan)
  | .dict fields => .ok (fields.filterMap fun entry =>
      (coerceSpan entry.2).map (Dict.setDefault · "agent_id" (.str entry.1)))
  | _ => .error (.invalidEvaluatorConfig
      "workflow checks expect the mapped 'spans' value to be a list or object of spans")

/-- The agent is present: a span has the name as one of its identities. -/
def isPresent (b : Builtins) (spans : List Dict) (name : String) : Bool :=
  spans.any fun span => spanHasIdentity b span name none

/-- The names that are not in a list. -/
def namesOutside (found names : List String) : List String :=
  names.filter fun name => !found.contains name

/-! ### The order of a workflow -/

namespace WorkflowOrder

/-- The modes of the check. -/
inductive Mode where
  | subsequence
  | strict
deriving DecidableEq

/-- The text of a mode. -/
def Mode.value : Mode → String
  | .subsequence => "subsequence"
  | .strict => "strict"

/-- The parameters of the check. -/
structure Params where
  expected : List Json
  mode : Mode
  ignoreMissing : Bool

/-- Reads the parameters of the check. -/
def readParams (b : Builtins) (config : Dict) (context : ExecutionContext) :
    Except Exn Params := do
  let params ← paramsOf config
  match (params.get "expected_order").or (context.configSnapshot.get "workflow_order") with
  | .list (first :: rest) =>
    let mode := b.lower (b.str ((params.lookup "mode").getD (.str "subsequence")))
    let ignoreMissing := ((params.lookup "ignore_missing").getD (.bool false)).truthy
    if mode = "subsequence" then .ok ⟨first :: rest, .subsequence, ignoreMissing⟩
    else if mode = "strict" then .ok ⟨first :: rest, .strict, ignoreMissing⟩
    else .error (.invalidEvaluatorConfig "workflow_order mode must be subsequence or strict")
  | _ => .error (.invalidEvaluatorConfig
      ("workflow_order check requires params.expected_order (or a "
        ++ "workflow_order list on the configuration)"))

/-- What the loop of the `subsequence` mode decides: every name is looked for after the place of
the name before it. -/
def runsInOrder : List String → List String → Bool
  | [], _ => true
  | name :: names, actual =>
    match actual.dropWhile (· != name) with
    | [] => false
    | _ :: rest => runsInOrder names rest

/-- `actual[cursor]`. -/
def itemAt (actual : List String) (cursor : ℕ) : Except Exn String :=
  match actual[cursor]? with
  | some identity => .ok identity
  | none => .error (.builtin "IndexError" "list index out of range")

/-- `while cursor < len(actual) and actual[cursor] != name: cursor += 1`: the cursor after it. -/
def seek (actual : List String) (name : String) (cursor : ℕ) : Except Exn ℕ :=
  if cursor < actual.length then do
    let identity ← itemAt actual cursor
    if identity ≠ name then seek actual name (cursor + 1) else .ok cursor
  else .ok cursor
termination_by actual.length - cursor

/-- The loop of the `subsequence` mode as it is written, from a cursor on: the `order_ok` it
leaves. -/
def cursorLoop (actual : List String) : List String → ℕ → Except Exn Bool
  | [], _ => .ok true
  | name :: names, cursor => do
    let cursor ← seek actual name cursor
    if cursor = actual.length then .ok false else cursorLoop actual names (cursor + 1)

/-- The names of a list of spans that the check expects. -/
def presentNames (b : Builtins) (spans : List Dict) (names : List String) : List String :=
  names.filter (isPresent b spans)

/-- `order_ok`. -/
def orderOk (mode : Mode) (comparable missing actual : List String) : Bool :=
  match mode with
  | .strict => actual.take comparable.length = comparable && missing.isEmpty
  | .subsequence => runsInOrder comparable actual

/-- `detail`. -/
def Mode.detail : Mode → String
  | .strict => "strict positional match"
  | .subsequence => "relative order match"

/-- The part of `WorkflowOrderEvaluator.evaluate` after the parameters and the spans are
read. -/
def check (b : Builtins) (params : Params) (spans : List Dict) : EvaluatorOutput :=
  let actual := spanIdentities b spans
  let expectedNames := params.expected.map b.str
  let present := presentNames b spans expectedNames
  let missing := namesOutside present expectedNames
  let comparable := if params.ignoreMissing then present else expectedNames
  let orderOk := orderOk params.mode comparable missing actual
  let passed := orderOk && (params.ignoreMissing || missing.isEmpty)
  let score := if passed then .finite 1
    else share present.length (max expectedNames.length 1)
  let explanation :=
    if !missing.isEmpty && !params.ignoreMissing then
      "missing agent span(s): " ++ ", ".intercalate missing
    else if !orderOk then "agents ran out of order (" ++ params.mode.detail ++ " failed)"
    else "workflow order satisfied (" ++ params.mode.detail ++ ")"
  outcome "workflow_order" "1.0.0" passed (some score) explanation
    [("expected_order", .list (expectedNames.map .str)),
      ("actual_order", .list (actual.map .str)),
      ("missing_agents", .list (missing.map .str)),
      ("mode", .str params.mode.value),
      ("ignore_missing", .bool params.ignoreMissing)] none

/-- `WorkflowOrderEvaluator.evaluate`. -/
def evaluate (b : Builtins) (input config : Dict) (context : ExecutionContext) :
    Except Exn EvaluatorOutput := do
  let params ← readParams b config context
  let value ← require input "spans"
  let spans ← coerceSpans value
  .ok (check b params spans)

end WorkflowOrder

/-! ### The existence of spans -/

namespace SpanExists

/-- The names of the required spans. -/
def readRequired (config : Dict) (context : ExecutionContext) : Except Exn (List Json) := do
  let params ← paramsOf config
  match ((params.get "required_spans").or (params.get "required_agents")).or
      (context.configSnapshot.get "target_agents") with
  | .list (first :: rest) => .ok (first :: rest)
  | _ => .error (.invalidEvaluatorConfig
      ("span_exists check requires params.required_spans (or target_agents "
        ++ "on the configuration)"))

/-- The part of `SpanExistsEvaluator.evaluate` after the names and the spans are read. -/
def check (b : Builtins) (required : List Json) (spans : List Dict) : EvaluatorOutput :=
  let wanted := required.map b.str
  let found := wanted.filter (isPresent b spans)
  let missing := namesOutside found wanted
  outcome "span_exists" "1.0.0" missing.isEmpty
    (some (share found.length (max wanted.length 1)))
    (if missing.isEmpty then s!"all {found.length} required span(s) present"
      else "missing span(s): " ++ ", ".intercalate missing)
    [("required_spans", .list (wanted.map .str)), ("found_spans", .list (found.map .str)),
      ("missing_spans", .list (missing.map .str)),
      ("available_spans", .list ((spanIdentities b spans).map .str))] none

/-- `SpanExistsEvaluator.evaluate`. -/
def evaluate (b : Builtins) (input config : Dict) (context : ExecutionContext) :
    Except Exn EvaluatorOutput := do
  let required ← readRequired config context
  let value ← require input "spans"
  let spans ← coerceSpans value
  .ok (check b required spans)

end SpanExists

end Evalorch
