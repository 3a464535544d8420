import Evalorch.Core.Config
import Evalorch.Evaluators.Base
import Mathlib.Data.List.Sort
import Mathlib.Data.String.Basic

/-!
# The judge

`Judge.evaluate` asks a model to judge the inputs of a check. It reads the parameters of the call
from the check, renders the prompt, asks the provider, and makes a verdict of the text that comes
back. `Judge.settle` is the part after the answer.
-/

namespace Evalorch

open Evaluator

/-! ### Comparisons of floating point numbers -/

namespace Float64

/-- `x < y`, which is false when one of them is not a number. -/
def lt : Float64 → Float64 → Bool
  | .finite p, .finite q => p < q
  | .finite _, .infinity | .negInfinity, .finite _ | .negInfinity, .infinity => true
  | _, _ => false

/-- `x >= y`, which is false when one of them is not a number. -/
def ge (x y : Float64) : Bool :=
  x != .nan && y != .nan && !x.lt y

/-- `min(x, y)`: the first, unless the second is smaller. -/
def min (x y : Float64) : Float64 :=
  if y.lt x then y else x

/-- `max(x, y)`: the first, unless the second is greater. -/
def max (x y : Float64) : Float64 :=
  if x.lt y then y else x

/-- `max(0.0, min(1.0, x))`. -/
def clamp (x : Float64) : Float64 :=
  max (.finite 0) (min (.finite 1) x)

end Float64

namespace Judge

/-- What a provider answers. -/
structure LLMResponse where
  output : String
  latencyMs : Float64
  promptTokens : ℕ
  completionTokens : ℕ
  model : String

/-- What the judge takes from outside: the interpreter, the settings, the JSON library,
`str.format`, the texts that `float` reads, and the provider. -/
structure Environment where
  builtins : Builtins
  settings : CreationSettings
  inputCostPer1m : ℚ
  outputCostPer1m : ℚ
  dumps : Option ℕ → Json → String
  loads : String → Except String Json
  format : Json → Json → String → Except Exn String
  floatOfText : String → Option Float64
  generate : String → Json → Float64 → ℤ → Except Exn LLMResponse

variable (e : Environment)

/-- `DEFAULT_PROMPT_TEMPLATE`. -/
def defaultPromptTemplate : String :=
  "You are an impartial evaluation judge.\n\n"
    ++ "Evaluation criteria:\n\x7bcriteria\x7d\n\n"
    ++ "Inputs to evaluate (JSON):\n\x7binputs\x7d\n\n"
    ++ "Respond with ONLY a JSON object in this exact shape:\n"
    ++ "\x7b\x7b\"passed\": true or false, \"score\": 0.0-1.0, "
    ++ "\"explanation\": \"one or two sentences\"\x7d\x7d"

/-- `estimate_cost_usd`. -/
def estimateCostUsd (promptTokens completionTokens : ℕ) : Float64 :=
  let cost := (promptTokens : ℚ) / 1000000 * e.inputCostPer1m
    + (completionTokens : ℚ) / 1000000 * e.outputCostPer1m
  .finite (roundHalfEven (cost * 1000000) / 1000000)

/-- `float(value)`. -/
def toFloat : Json → Except Exn Float64
  | .float x => .ok x
  | .int n =>
    if |n| < 2 ^ 1024 - 2 ^ 970 then .ok (.finite n)
    else .error (.other "OverflowError" "int too large to convert to float")
  | .bool flag => .ok (.finite (if flag then 1 else 0))
  | .str text =>
    match e.floatOfText text with
    | some x => .ok x
    | none => .error (.value
        ("could not convert string to float: " ++ e.builtins.repr (.str text)))
  | value => .error (.builtin "TypeError"
      ("float() argument must be a string or a real number, not '" ++ value.typeName ++ "'"))

/-! ### The call -/

/-- `text[:limit]`, for any limit. -/
def sliceTo (limit : ℤ) (text : String) : String :=
  if 0 ≤ limit then truncated limit.toNat text
  else truncated (text.length - limit.natAbs) text

/-- The text, cut off after a limit. -/
def cutOff (limit : ℤ) (text : String) : String :=
  sliceTo limit text ++ "...<truncated>"

/-- A value as the prompt shows it. -/
def renderValue (limit : ℤ) : Json → Except Exn Json
  | .str text => .ok (.str (if text.length ≤ limit then text else cutOff limit text))
  | value =>
    let text := e.dumps none value
    if text.length ≤ limit then
      match e.loads text with
      | .ok value => .ok value
      | .error message => .error (.builtin "JSONDecodeError" message)
    else .ok (.str (cutOff limit text))

/-- `_render_inputs`. -/
def renderInputs (input : Dict) (limit : ℤ) : Except Exn String := do
  let rendered ← input.mapM fun entry =>
    (renderValue e limit entry.2).map fun value => (entry.1, value)
  .ok (e.dumps (some 2) (.dict rendered))

/-- What the judge asks the provider, and the threshold it applies to the answer. -/
structure Call where
  criteria : Json
  provider : Json
  model : Json
  temperature : Float64
  maxTokens : ℤ
  passThreshold : Float64
  prompt : String

/-- `params.get(key, config.get(key, snapshot.get(key, default)))`. -/
def setting (params config snapshot : Dict) (key : String) (default : Json) : Json :=
  (params.lookup key).getD ((config.lookup key).getD ((snapshot.lookup key).getD default))

/-- `params.get(key) or config.get(key) or snapshot.get(key) or default`. -/
def choice (params config snapshot : Dict) (key : String) (default : Json) : Json :=
  (((params.get key).or (config.get key)).or (snapshot.get key)).or default

/-- The model section of the snapshot. -/
def modelSection (context : ExecutionContext) : Except Exn Dict :=
  match (context.configSnapshot.get "model").or (.dict []) with
  | .dict fields => .ok fields
  | value => .error (.builtin "AttributeError"
      ("'" ++ value.typeName ++ "' object has no attribute 'get'"))

/-- `template.format(criteria=criteria, inputs=inputs)`. -/
def renderPrompt (template criteria : Json) (inputs : String) : Except Exn String :=
  match e.format template criteria inputs with
  | .ok prompt => .ok prompt
  | .error exn =>
    if exn.typeName = "KeyError" || exn.typeName = "IndexError" then
      .error (.invalidEvaluatorConfig ("prompt_template must only use \x7bcriteria\x7d and "
        ++ "\x7binputs\x7d: " ++ exn.text))
    else .error exn

/-- The part of `LLMJudgeEvaluator.evaluate` before the provider is asked. -/
def prepareCall (input config : Dict) (context : ExecutionContext) : Except Exn Call := do
  let params ← paramsOf config
  let criteria := ((params.get "criteria").or (config.get "criteria")).or
    (config.get "description")
  if !criteria.truthy then
    .error (.invalidEvaluatorConfig
      "llm_judge check requires params.criteria describing what to judge")
  else if input.isEmpty then
    .error (.invalidEvaluatorConfig "llm_judge check requires a non-empty input_mapping")
  else do
    let snapshot ← modelSection context
    let temperature ← toFloat e (setting params config snapshot "temperature" (.float (.finite 0)))
    let maxTokens ← e.builtins.int (setting params config snapshot "max_tokens" (.int 300))
    let passThreshold ← toFloat e
      ((params.lookup "pass_threshold").getD (.float (.finite (7 / 10))))
    let maxInputChars ← e.builtins.int ((params.lookup "max_input_chars").getD (.int 4000))
    let inputs ← renderInputs e input maxInputChars
    let prompt ← renderPrompt e ((params.get "prompt_template").or (.str defaultPromptTemplate))
      criteria inputs
    .ok {
      criteria := criteria
      provider := choice params config snapshot "provider" (.str e.settings.defaultProvider)
      model := choice params config snapshot "model" (.str e.settings.judgeModel)
      temperature := temperature
      maxTokens := maxTokens
      passThreshold := passThreshold
      prompt := prompt }

/-- `get_llm_provider`: the name must be one of a provider. -/
def checkProvider (provider : Json) : Except Exn Unit :=
  match provider with
  | .str name =>
    if e.builtins.lower name = "openai" then .ok ()
    else .error (.invalidEvaluatorConfig
      ("unsupported LLM provider '" ++ e.builtins.lower name ++ "'; expected one of ['openai']"))
  | value => .error (.builtin "AttributeError"
      ("'" ++ value.typeName ++ "' object has no attribute 'lower'"))

/-- The statuses that are worth another attempt. -/
def retryableStatus : List ℕ := [408, 409, 425, 429, 500, 502, 503, 504]

/-- The exceptions of the provider as those of the judge. -/
def providerError : Exn → Exn
  | .httpStatus statusCode message =>
    if statusCode ∈ retryableStatus then
      .evaluation .transient s!"HTTP_{statusCode}" s!"judge provider returned {statusCode}"
    else .httpStatus statusCode message
  | .httpTimeout message | .httpConnection message =>
    .evaluation .transient "LLM_TIMEOUT" ("judge provider unreachable: " ++ message)
  | exn => exn

/-- The provider is asked. -/
def ask (call : Call) : Except Exn LLMResponse := do
  let _ ← checkProvider e call.provider
  match e.generate call.prompt call.model call.temperature call.maxTokens with
  | .ok response => .ok response
  | .error exn => .error (providerError exn)

/-! ### The verdict -/

/-- `text[text.find(open):text.rfind(close) + 1]` with the braces of an object, when there are such
braces in order. -/
def objectText (text : String) : Option String :=
  let characters := text.toList
  let start := characters.idxOf '\x7b'
  let stop := characters.length - characters.reverse.idxOf '\x7d'
  if start = characters.length || stop ≤ start then none
  else some (String.ofList ((characters.take stop).drop start))

/-- `parse_judge_response`: the verdict, or the message of the exception. -/
def parseJudgeResponse (text : String) : Except String Dict :=
  match objectText text with
  | none => .error "judge response contained no JSON object"
  | some object =>
    match e.loads object with
    | .error message => .error message
    | .ok (.dict verdict) => .ok verdict
    | .ok _ => .error "judge response JSON was not an object"

/-- The score of a verdict before it is clamped: `TypeError` and `ValueError` leave it out. -/
def rawScore (verdict : Dict) : Except Exn (Option Float64) :=
  match verdict.get "score" with
  | .null => .ok none
  | score =>
    match toFloat e score with
    | .ok x => .ok (some x)
    | .error (.builtin _ _) => .ok none
    | .error exn => .error exn

/-- Whether a verdict with a score passes. -/
def decidePassed (verdict : Dict) (score : Option Float64) (passThreshold : Float64) : Bool :=
  match verdict.lookup "passed", score with
  | some passed, _ => passed.truthy
  | none, some score => score.ge passThreshold
  | none, none => false

/-- The record of a call and its answer. -/
def evidenceOf (input : Dict) (call : Call) (response : LLMResponse) : Dict :=
  [("criteria", call.criteria), ("provider", call.provider),
    ("model", (Json.str response.model).or call.model),
    ("temperature", .float call.temperature), ("max_tokens", .int call.maxTokens),
    ("pass_threshold", .float call.passThreshold),
    ("input_keys", .list (((input.map Prod.fst).insertionSort (· ≤ ·)).map .str)),
    ("prompt", .str call.prompt), ("raw_response", .str response.output),
    ("latency_ms", .float (response.latencyMs.round 3)),
    ("prompt_tokens", .int response.promptTokens),
    ("completion_tokens", .int response.completionTokens),
    ("estimated_cost_usd",
      .float (estimateCostUsd e response.promptTokens response.completionTokens))]

/-- The output for a text without a verdict. -/
def unparseable (evidence : Dict) (message : String) : EvaluatorOutput where
  status := .error
  passed := none
  score := none
  explanation := "judge response could not be parsed: " ++ message
  evidence := evidence
  evaluatorType := "llm_judge"
  evaluatorVersion := "1.0.0"
  executionTimeMs := .finite 0
  errorCode := some "JUDGE_RESPONSE_UNPARSEABLE"
  errorMessage := some message
  output := none

/-- The part of `LLMJudgeEvaluator.evaluate` after the provider answered. -/
def settle (input : Dict) (call : Call) (response : LLMResponse) :
    Except Exn EvaluatorOutput :=
  let evidence := evidenceOf e input call response
  match parseJudgeResponse e response.output with
  | .error message => .ok (unparseable evidence message)
  | .ok verdict => do
    let raw ← rawScore e verdict
    let score := raw.map Float64.clamp
    let passed := decidePassed verdict score call.passThreshold
    .ok (outcome "llm_judge" "1.0.0" passed
      (some (score.getD (.finite (if passed then 1 else 0))))
      (truncated 2000 (e.builtins.str ((verdict.get "explanation").or (.str ""))))
      (evidence.set "judge_verdict" (.dict verdict)) (some [("verdict", .dict verdict)]))

/-- `LLMJudgeEvaluator.evaluate`. -/
def evaluate (input config : Dict) (context : ExecutionContext) : Except Exn EvaluatorOutput := do
  let call ← prepareCall e input config context
  let response ← ask e call
  settle e input call response

end Judge

end Evalorch
