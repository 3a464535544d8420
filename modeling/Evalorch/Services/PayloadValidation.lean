import Evalorch.Services.ContextResolver

/-!
# Validation of payloads

`validatePayload` checks what every payload must carry before a job is created from it: the
identity of the agent, the metadata, the correlation and a trace whose spans form trees. The
same agent, trace, session, invocation, user and application must be named everywhere.
-/

namespace Evalorch

/-- `PayloadValidationError(message)`. -/
def payloadValidationError (message : String) : Exn :=
  .builtin "PayloadValidationError" message

/-! ### Identifiers -/

/-- A hexadecimal digit. -/
def isHexDigit (c : Char) : Bool :=
  ('0' ≤ c && c ≤ '9') || ('a' ≤ c && c ≤ 'f') || ('A' ≤ c && c ≤ 'F')

/-- `is_uuid` of a text. -/
def isUuid (text : String) : Bool :=
  let groups := (Python.strip text).toList.splitOn '-'
  groups.map List.length = [8, 4, 4, 4, 12] && groups.all fun group => group.all isHexDigit

/-- A given number of hexadecimal digits. -/
def isHexText (length : ℕ) (text : String) : Bool :=
  let digits := (Python.strip text).toList
  digits.length = length && digits.all isHexDigit

/-- `is_otel_trace_id` of a text. -/
def isOtelTraceId (text : String) : Bool := isHexText 32 text

/-- `is_otel_span_id` of a text. -/
def isOtelSpanId (text : String) : Bool := isHexText 16 text

/-- The value that a row of keys leads to. -/
def valueAt : List String → Json → Option Json
  | [], current => some current
  | token :: path, .dict fields => (fields.lookup token).bind (valueAt path)
  | _ :: _, _ => none

/-- The text of a value that is text or an integer, unless it is blank. -/
def identifierText (b : Builtins) (value : Json) : Option String :=
  match value with
  | .str _ | .int _ =>
      if Python.strip (b.str value) = "" then none else some (Python.strip (b.str value))
  | _ => none

/-- `_first_str`. -/
def firstStr (b : Builtins) (payload : Dict) (paths : List (List String)) : Option String :=
  paths.findSome? fun path => (valueAt path (.dict payload)).bind (identifierText b)

/-- What `extract_identifiers` returns. -/
structure PayloadIdentifiers where
  externalPayloadId : Option String
  traceId : Option String
  sessionId : Option String
  eventId : Option String
  invocationId : Option String
  payloadVersion : Option String

/-- `extract_identifiers`. -/
def extractIdentifiers (b : Builtins) (payload : Dict) : PayloadIdentifiers where
  externalPayloadId := firstStr b payload [["payload_metadata", "payload_id"]]
  traceId := firstStr b payload
    [["correlation", "trace_id"], ["trace_context", "trace", "trace_id"]]
  sessionId := firstStr b payload
    [["correlation", "session_id"], ["trace_context", "trace", "session_id"]]
  eventId := firstStr b payload [["correlation", "event_id"]]
  invocationId := firstStr b payload
    [["correlation", "invocation_id"], ["trace_context", "trace", "invocation_id"]]
  payloadVersion := firstStr b payload [["payload_metadata", "payload_version"]]

/-! ### Required fields -/

/-- `_require_mapping`. -/
def requireMapping (payload : Dict) (key label : String) : Except Exn Dict :=
  match payload.get key with
  | .dict value => .ok value
  | _ => .error (payloadValidationError (label ++ ": " ++ key ++ " must be an object"))

/-- `_require_text`. -/
def requireText (container : Dict) (key label : String) : Except Exn String :=
  match container.get key with
  | .str value =>
    if Python.strip value = "" then
      .error (payloadValidationError
        (label ++ ": " ++ key ++ " is required and must be a non-empty string"))
    else .ok (Python.strip value)
  | _ => .error (payloadValidationError
      (label ++ ": " ++ key ++ " is required and must be a non-empty string"))

/-- `_require_text` of each of some fields. -/
def requireTexts (container : Dict) (label : String) : List String → Except Exn Unit
  | [] => .ok ()
  | key :: keys => do
    let _ ← requireText container key label
    requireTexts container label keys

/-- `_require_uuid`. -/
def requireUuid (b : Builtins) (container : Dict) (key label : String) : Except Exn String := do
  let value ← requireText container key label
  if isUuid value then .ok value
  else .error (payloadValidationError
    (label ++ ": " ++ key ++ " must be a UUID, got " ++ b.repr (.str value)))

/-- `_require_same`. -/
def requireSame (b : Builtins) (left right label field : String) : Except Exn Unit :=
  if left = right then .ok ()
  else .error (payloadValidationError (label ++ ": " ++ field
    ++ " must be the same value everywhere, got " ++ b.repr (.str left) ++ " and "
    ++ b.repr (.str right)))

/-- A check with the message of its failure. -/
def requireThat (condition : Bool) (message : String) : Except Exn Unit :=
  if condition then .ok () else .error (payloadValidationError message)

/-- A number, which a boolean is not. -/
def isNumber : Json → Bool
  | .int _ | .float _ => true
  | _ => false

/-- `None`. -/
def isNull : Json → Bool
  | .null => true
  | _ => false

/-- An array. -/
def isArray : Json → Bool
  | .list _ => true
  | _ => false

/-- An object. -/
def isObject : Json → Bool
  | .dict _ => true
  | _ => false

/-! ### The tree of spans -/

/-- What a span may name as its parent: nothing, or the identifier of a span. -/
def isParentId : Json → Bool
  | .null => true
  | .str parent => isOtelSpanId parent
  | _ => false

/-- The checks of one span: its identifier, when no span of `byId` has it. -/
def validateSpan (b : Builtins) (label traceId : String) (byId : List (String × Dict))
    (place : String) (span : Dict) : Except Exn String := do
  let spanId ← requireText span "span_id" place
  requireThat (isOtelSpanId spanId)
    (place ++ ": span_id must be a 16-character OpenTelemetry span id")
  requireThat (byId.lookup spanId).isNone
    (label ++ ": duplicate span_id " ++ b.repr (.str spanId))
  let spanTrace ← requireText span "trace_id" place
  requireThat (isOtelTraceId spanTrace)
    (place ++ ": trace_id must be a 32-character OpenTelemetry trace id")
  requireSame b spanTrace traceId place "trace_id"
  requireThat (span.lookup "parent_span_id").isSome
    (place ++ ": parent_span_id is required (use null for the root)")
  requireThat (isParentId (span.get "parent_span_id"))
    (place ++ ": parent_span_id must be null or a 16-character OpenTelemetry span id")
  let _ ← requireText span "name" place
  requireTexts span place ["kind", "started_at", "ended_at", "status"]
  requireThat (isNumber (span.get "duration_ms")) (place ++ ": duration_ms must be a number")
  requireThat (span.lookup "error_message").isSome (place ++ ": error_message is required")
  requireThat (isObject (span.get "attributes")) (place ++ ": attributes must be an object")
  requireThat (isArray (span.get "events")) (place ++ ": events must be an array")
  requireThat (isArray (span.get "links")) (place ++ ": links must be an array")
  .ok spanId

/-- The loop of `_validate_span_tree` over the spans, which it collects by their identifiers. -/
def validateSpans (b : Builtins) (label traceId : String) :
    ℕ → List (String × Dict) → List Json → Except Exn (List (String × Dict))
  | _, byId, [] => .ok byId
  | index, byId, .dict span :: spans => do
    let spanId ← validateSpan b label traceId byId
      (label ++ s!": trace_context.trace.spans[{index}]") span
    validateSpans b label traceId (index + 1) (byId ++ [(spanId, span)]) spans
  | index, _, _ :: _ => .error (payloadValidationError
      (label ++ s!": trace_context.trace.spans[{index}] must be an object"))

/-- The identifiers that are not among those seen. -/
def unseen (byId : List (String × Dict)) (seen : List String) : List (String × Dict) :=
  byId.filter fun entry => entry.1 ∉ seen

/-- A span that is found and not seen is one fewer to see. -/
theorem length_unseen_lt {byId : List (String × Dict)} {seen : List String} {parentId : String}
    {parent : Dict} (hfound : byId.lookup parentId = some parent) (hseen : parentId ∉ seen) :
  (unseen byId (parentId :: seen)).length < (unseen byId seen).length
  := by
  obtain ⟨before, after, heq, -⟩ := List.lookup_eq_some_iff.mp hfound
  have hmem : (parentId, parent) ∈ unseen byId seen := by simp [unseen, hseen, heq]
  have hfilter : unseen byId (parentId :: seen)
      = (unseen byId seen).filter fun entry => entry.1 ≠ parentId := by
    simp [unseen, List.filter_filter]
  rw [hfilter]
  apply List.length_filter_lt_length_iff_exists.mpr
  exact ⟨_, hmem, by simp⟩

/-- The walk of `_validate_span_tree` from a span to its root. -/
def walkParents (b : Builtins) (label : String) (byId : List (String × Dict)) (current : Dict)
    (seen : List String) : Except Exn Unit :=
  match current.get "parent_span_id" with
  | .null => .ok ()
  | parent =>
    let parentId := b.str parent
    if _hseen : parentId ∈ seen then
      .error (payloadValidationError (label ++ ": span " ++ b.repr (current.get "span_id")
        ++ " has a parent cycle"))
    else if (Json.str parentId).eq (current.get "span_id") then
      .error (payloadValidationError (label ++ ": span " ++ b.repr (current.get "span_id")
        ++ " has a parent cycle"))
    else
      match _hfound : byId.lookup parentId with
      | none => .error (payloadValidationError (label ++ ": span "
          ++ b.repr (current.get "span_id") ++ " parent_span_id " ++ b.repr (.str parentId)
          ++ " does not match a span in this trace"))
      | some parent => walkParents b label byId parent (parentId :: seen)
termination_by (unseen byId seen).length
decreasing_by exact length_unseen_lt ‹_› ‹_›

/-- The loop of `_validate_span_tree` over the chains of parents. -/
def validateParents (b : Builtins) (label : String) (byId : List (String × Dict)) :
    List Dict → Except Exn Unit
  | [] => .ok ()
  | span :: spans => do
    walkParents b label byId span []
    validateParents b label byId spans

/-- `_validate_span_tree`. -/
def validateSpanTree (b : Builtins) (spans : List Json) (traceId label : String) :
    Except Exn Unit := do
  let byId ← validateSpans b label traceId 0 [] spans
  requireThat (byId.isEmpty || byId.any fun entry => isNull (entry.2.get "parent_span_id"))
    (label ++ ": trace_context.trace.spans requires a root span")
  validateParents b label byId (byId.map Prod.snd)

/-! ### The contract -/

/-- `_require_same` of a text of the trace and the one it was given. -/
def requireSameText (b : Builtins) (value : String) (trace : Dict) (label field : String) :
    Except Exn Unit := do
  let other ← requireText trace field (label ++ ": trace_context.trace")
  requireSame b value other label field

/-- `_require_same` of an identifier of the trace and the one it was given. -/
def requireSameUuid (b : Builtins) (value : String) (trace : Dict) (label field : String) :
    Except Exn Unit := do
  let other ← requireUuid b trace field (label ++ ": trace_context.trace")
  requireSame b value other label field

/-- `enforce_payload_contract`. -/
def enforcePayloadContract (b : Builtins) (payload : Dict) (label : String) :
    Except Exn String := do
  let registry ← requireMapping payload "agent_registry" label
  let metadata ← requireMapping payload "payload_metadata" label
  let correlation ← requireMapping payload "correlation" label
  let traceContext ← requireMapping payload "trace_context" label
  let trace ← match traceContext.get "trace" with
    | .dict trace => .ok trace
    | _ => .error (payloadValidationError (label ++ ": trace_context.trace must be an object"))
  let agentId ← requireUuid b registry "agent_id" (label ++ ": agent_registry")
  let correlationAgent ← requireUuid b correlation "agent_id" (label ++ ": correlation")
  requireSame b agentId correlationAgent label "agent_id"
  let _ ← requireUuid b metadata "payload_id" (label ++ ": payload_metadata")
  requireTexts metadata (label ++ ": payload_metadata")
    ["payload_version", "payload_type", "created_at", "evaluation_mode"]
  let _ ← requireUuid b correlation "event_id" (label ++ ": correlation")
  let traceId ← requireText correlation "trace_id" (label ++ ": correlation")
  requireThat (isOtelTraceId traceId)
    (label ++ ": correlation.trace_id must be a 32-character OpenTelemetry trace id")
  let sessionId ← requireUuid b correlation "session_id" (label ++ ": correlation")
  let invocationId ← requireUuid b correlation "invocation_id" (label ++ ": correlation")
  let userId ← requireText correlation "user_id" (label ++ ": correlation")
  let appName ← requireText correlation "app_name" (label ++ ": correlation")
  let _ ← requireText correlation "service_name" (label ++ ": correlation")
  let traceTraceId ← requireText trace "trace_id" (label ++ ": trace_context.trace")
  requireThat (isOtelTraceId traceTraceId)
    (label ++ ": trace_context.trace.trace_id must be a 32-character OpenTelemetry trace id")
  requireSame b traceId traceTraceId label "trace_id"
  requireTexts trace (label ++ ": trace_context.trace")
    ["started_at_raw", "ended_at_raw", "service_name", "root_span_name_raw", "status"]
  requireThat (isNumber (Dict.get trace "duration_ms"))
    (label ++ ": trace_context.trace.duration_ms must be a number")
  requireThat (List.lookup "error_message" trace).isSome
    (label ++ ": trace_context.trace.error_message is required")
  requireSameUuid b sessionId trace label "session_id"
  requireSameUuid b invocationId trace label "invocation_id"
  requireSameText b userId trace label "user_id"
  requireSameText b appName trace label "app_name"
  let spans ← match Dict.get trace "spans" with
    | .list spans => .ok spans
    | _ => .error (payloadValidationError
        (label ++ ": trace_context.trace.spans must be an array"))
  validateSpanTree b spans traceId label
  .ok agentId

/-- `KNOWN_SECTIONS`. -/
def knownSections : List String :=
  ["agent_registry", "payload_metadata", "correlation", "trace_context"]

/-- What `validate_payload` reports. -/
structure PayloadReport where
  sectionsPresent : List String
  spanCount : ℕ
  spanNames : List String
  identifiers : PayloadIdentifiers
  warnings : List String

/-- The names of spans, or their identifiers. -/
def reportedNames (b : Builtins) (spans : List Dict) : List String :=
  ((spans.map fun span => (span.get "name").or (span.get "span_id")).filter Json.truthy).map b.str

/-- The report of a payload that satisfies the contract. -/
def payloadReport (b : Builtins) (payload : Dict) : PayloadReport :=
  let sectionsPresent := knownSections.filter fun name => !isNull (payload.get name)
  let spans := extractSpans payload
  let identifiers := extractIdentifiers b payload
  { sectionsPresent := sectionsPresent
    spanCount := spans.length
    spanNames := reportedNames b spans
    identifiers := identifiers
    warnings :=
      (if spans.isEmpty then
        ["no agent spans found; span-level checks will be NOT_APPLICABLE"] else [])
      ++ (if identifiers.traceId.isNone then ["no trace_id found"] else [])
      ++ if sectionsPresent.isEmpty then
        ["no known payload sections found (payload stored verbatim)"] else [] }

/-- How a payload is called in messages. -/
def payloadLabel : Option ℕ → String
  | some index => s!"payload #{index}"
  | none => "payload"

/-- `validate_payload`. -/
def validatePayload (b : Builtins) (payload : Json) (index : Option ℕ) :
    Except Exn PayloadReport :=
  match payload with
  | .dict [] => .error (payloadValidationError (payloadLabel index ++ " must not be empty"))
  | .dict payload => do
    let _ ← enforcePayloadContract b payload (payloadLabel index)
    .ok (payloadReport b payload)
  | payload => .error (payloadValidationError
      (payloadLabel index ++ " must be a JSON object, got " ++ payload.typeName))

end Evalorch
