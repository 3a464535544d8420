import Evalorch.Models.Json
import Evalorch.Python.Datetime
import Mathlib.Data.List.Sort
import Mathlib.Data.Prod.Lex
import Mathlib.Data.String.Basic

/-!
# Configuration-driven context resolution

A check declares an `input_mapping`; `resolveInputMapping` turns a payload into the values the
mapping asks for, with the trail of how each was found. A path is split into tokens by
`parsePath`, its first tokens select a section of the payload or a span of the trace, and
`traverse` walks the rest. `scopePayloadToSpans` limits the trace to the spans of a metric, and
`extractSpans` lists its spans by when they started.
-/

namespace Evalorch

/-- A failed lookup of one key of a mapping. -/
structure ResolutionError where
  key : String
  path : Option String
  code : String
  message : String

/-- `ResolutionError.as_dict`. -/
def ResolutionError.asDict (e : ResolutionError) : Json :=
  .dict [("key", .str e.key), ("path", .ofText e.path), ("code", .str e.code),
    ("message", .str e.message)]

/-- Normalized evaluator input with the trail of how it was built. -/
structure ResolvedInput where
  values : Dict
  resolutions : Dict
  errors : List ResolutionError
  missingRequired : List String

namespace ResolvedInput

/-- No required key is missing. -/
def ok (resolved : ResolvedInput) : Bool :=
  resolved.missingRequired.isEmpty

/-- The codes of the errors, each once, in order. -/
def errorCodes (resolved : ResolvedInput) : List String :=
  ((resolved.errors.map ResolutionError.code).dedup).insertionSort (· ≤ ·)

/-- The record stored on tickets and results. -/
def asSnapshot (resolved : ResolvedInput) : Dict :=
  [("values", .dict resolved.values), ("resolutions", .dict resolved.resolutions),
    ("errors", .list (resolved.errors.map ResolutionError.asDict)),
    ("missing_required", .list (resolved.missingRequired.map .str))]

end ResolvedInput

/-! ### Error codes -/

/-- `ErrorCode`. -/
inductive ErrorCode where
  | missingSpan
  | missingPath
  | nullValue
  | invalidType
  | unsupportedMapping
  | ambiguousSpan
deriving DecidableEq

/-- The text of an error code. -/
def ErrorCode.value : ErrorCode → String
  | .missingSpan => "MISSING_SPAN"
  | .missingPath => "MISSING_PATH"
  | .nullValue => "NULL_VALUE"
  | .invalidType => "INVALID_TYPE"
  | .unsupportedMapping => "UNSUPPORTED_MAPPING"
  | .ambiguousSpan => "AMBIGUOUS_SPAN"

/-- `RESERVED_SECTIONS`. -/
def reservedSections : List String :=
  ["payload", "agent_registry", "payload_metadata", "correlation", "trace_context", "spans"]

/-- `SPAN_IDENTITY_KEYS`. -/
def spanIdentityKeys : List String := ["name", "agent_id", "agent_type", "span_id"]

/-! ### Spans -/

/-- `text.strip().replace("Z", "+00:00")`. -/
def isoText (text : String) : String :=
  String.ofList
    ((Python.strip text).toList.flatMap fun c => if c = 'Z' then "+00:00".toList else [c])

/-- `_parse_time`. -/
def parseTime : Json → Option Python.DateTime
  | .str text =>
    match Python.fromIsoFormat (isoText text) with
    | some parsed => some (if parsed.offset.isSome then parsed.naive else parsed)
    | none => none
  | _ => none

/-- `_coerce_span`. -/
def coerceSpan : Json → Option Dict
  | .dict fields => some fields
  | _ => none

/-- `trace_context.trace.spans` of a payload, when it is an array. -/
def rawSpans (payload : Dict) : Option (List Json) :=
  match payload.get "trace_context" with
  | .dict traceContext =>
    match Dict.get traceContext "trace" with
    | .dict trace =>
      match Dict.get trace "spans" with
      | .list raw => some raw
      | _ => none
    | _ => none
  | _ => none

/-- What `order_spans` sorts by: a flag for a span without a time, the time, and the position. -/
abbrev SortKey : Type := ℕ ×ₗ ℤ ×ₗ ℕ

/-- `sort_key`, of a span with its position. -/
def sortKey (item : Dict × ℕ) : SortKey :=
  match parseTime (item.1.get "started_at") with
  | some start => toLex (0, toLex (start.wall, item.2))
  | none => toLex (1, toLex (Python.DateTime.min.wall, item.2))

/-- `sorted(enumerate(spans), key=sort_key)`. -/
def sortedSpans (spans : List Dict) : List (Dict × ℕ) :=
  spans.zipIdx.insertionSort fun x y => sortKey x ≤ sortKey y

/-- `order_spans`. -/
def orderSpans (spans : List Dict) : List Dict :=
  (sortedSpans spans).map Prod.fst

/-- The objects of an array that are not empty. -/
def spanEntries (raw : List Json) : List Dict :=
  (raw.filterMap coerceSpan).filter (!·.isEmpty)

/-- `extract_spans`. -/
def extractSpans (payload : Dict) : List Dict :=
  match rawSpans payload with
  | some raw => orderSpans (spanEntries raw)
  | none => []

/-- `_span_label`. -/
def spanLabel (b : Builtins) (span : Dict) : String :=
  b.str (((span.get "name").or (span.get "span_id")).or (.str ""))

/-- `split_span_selector`. -/
def splitSpanSelector (token : String) : Option String × String :=
  match spanIdentityKeys.findSome? fun key =>
      (Python.dropPrefix? (key ++ ":") token).map fun wanted => (key, wanted) with
  | some (key, wanted) => (some key, wanted)
  | none => (none, token)

/-- `span_has_identity`. -/
def spanHasIdentity (b : Builtins) (span : Dict) (wanted : String) (key : Option String) : Bool :=
  wanted != "" && ((key.map ([·])).getD spanIdentityKeys).any fun item =>
    b.str ((span.get item).or (.str "")) = wanted

/-- What `find_span` returns. -/
structure SpanMatch where
  span : Option Dict
  selector : Option String
  error : Option ErrorCode

/-- The one span with an identity in a given field, if there is one. -/
def findByField (b : Builtins) (spans : List Dict) (key wanted : String) : SpanMatch :=
  match spans.filter fun span => spanHasIdentity b span wanted (some key) with
  | [] => ⟨none, some key, none⟩
  | [span] => ⟨some span, some key, none⟩
  | _ => ⟨none, some key, some .ambiguousSpan⟩

/-- The span at a position counted from one. -/
def spanAt (spans : List Dict) (position : ℤ) : Option Dict :=
  if 1 ≤ position ∧ position ≤ spans.length then spans[(position - 1).toNat]? else none

/-- The span that a token without a selector names. -/
def findBare (b : Builtins) (spans : List Dict) (token : String) : SpanMatch :=
  match spans.filter fun span => spanHasIdentity b span token (some "name") with
  | [] =>
    match spans.filter fun span => spanHasIdentity b span token (some "span_id") with
    | [span] => ⟨some span, some "span_id", none⟩
    | _ => ⟨none, none, none⟩
  | [span] => ⟨some span, some "name", none⟩
  | _ => ⟨none, some "name", some .ambiguousSpan⟩

/-- `find_span`. -/
def findSpan (b : Builtins) (spans : List Dict) (token : String) : SpanMatch :=
  match splitSpanSelector token with
  | (some key, wanted) => findByField b spans key wanted
  | (none, _) =>
    match Python.dropPrefix? "order:" token with
    | some raw => ⟨(Python.int? raw).bind (spanAt spans), some "order", none⟩
    | none => findBare b spans token

/-- `{str(name).strip() for name in span_names if str(name).strip()}`. -/
def wantedNames (spanNames : List String) : List String :=
  (spanNames.map Python.strip).filter (· != "")

/-- The spans that `scope_payload_to_spans` keeps. -/
def keptSpans (b : Builtins) (wanted : List String) (raw : List Json) : List Json :=
  raw.filter fun
    | .dict span => wanted.any fun token => spanHasIdentity b span token none
    | _ => false

/-- The payload with another array of spans in its trace. -/
def withSpans (payload traceContext trace : Dict) (spans : List Json) : Dict :=
  payload.set "trace_context" (.dict (traceContext.set "trace" (.dict (trace.set "spans"
    (.list spans)))))

/-- `scope_payload_to_spans`. -/
def scopePayloadToSpans (b : Builtins) (payload : Dict) (spanNames : List String) : Dict :=
  let wanted := wantedNames spanNames
  if wanted.isEmpty then payload
  else
    match payload.get "trace_context" with
    | .dict traceContext =>
      match Dict.get traceContext "trace" with
      | .dict trace =>
        match Dict.get trace "spans" with
        | .list raw => withSpans payload traceContext trace (keptSpans b wanted raw)
        | _ => payload
      | _ => payload
    | _ => payload

/-! ### Paths -/

/-- The group of a match of `\[(\d+|\*)\]` at the start of a text. -/
def matchIndex : List Char → Option (List Char)
  | '[' :: '*' :: ']' :: _ => some ['*']
  | '[' :: rest =>
      let digits := rest.takeWhile Python.isDecimal
      if !digits.isEmpty && (rest.drop digits.length).head? = some ']' then some digits else none
  | _ => none

/-- A text without its indices, and the indices; `skip` characters belong to an index. -/
def scanIndices : ℕ → List Char → List Char × List String
  | _, [] => ([], [])
  | skip + 1, _ :: rest => scanIndices skip rest
  | 0, c :: rest =>
    match matchIndex (c :: rest) with
    | some index =>
        ((scanIndices (index.length + 1) rest).1,
          String.ofList index :: (scanIndices (index.length + 1) rest).2)
    | none => (c :: (scanIndices 0 rest).1, (scanIndices 0 rest).2)

/-- The tokens of one segment: what is left without the indices, then the indices. -/
def segmentTokens (segment : String) : List String :=
  let (base, indices) := scanIndices 0 segment.toList
  if base.isEmpty then indices else String.ofList base :: indices

/-- `parse_path`. -/
def parsePath (path : String) : List String :=
  (Python.split '.' path).flatMap fun segment => segmentTokens (Python.strip segment)

/-- What `_traverse` returns. -/
structure Traversal where
  value : Json
  code : Option ErrorCode
  location : String

/-- `".".join(walked) or "<root>"`. -/
def location (walked : List String) : String :=
  (orText (some (".".intercalate walked)) (some "<root>")).getD ""

/-- `item.get(token)` of an item that is an object. -/
def itemGet (token : String) : Json → Option Json
  | .dict fields => some (Dict.get fields token)
  | _ => none

/-- Whether a token is an index into the document it is applied to. -/
def isIndex (token : String) : Json → Bool
  | .list _ => Python.isDigit token
  | _ => false

/-- What a token other than `*` leads to, if it leads anywhere. -/
def stepInto (b : Builtins) (token : String) : Json → Except Exn (Option Json)
  | .list items =>
    if Python.isDigit token then do
      let listIndex ← b.intOfText token
      .ok items[listIndex.toNat]?
    else
      let mapped := items.filterMap (itemGet token)
      .ok (if mapped.isEmpty then none else some (.list mapped))
  | .dict fields => .ok (fields.lookup token)
  | _ => .ok none

/-- How a step by a token is recorded in `walked`. -/
def stepLabel (token : String) (current : Json) : String :=
  if isIndex token current then "[" ++ token ++ "]" else token

/-- Where a step by a token that leads nowhere is reported. -/
def stepPlace (token : String) (current : Json) (walked : List String) : String :=
  if isIndex token current then location walked ++ "[" ++ token ++ "]"
  else location walked ++ "." ++ token

/-- The values of the traversals without an error. -/
def resolvedValues (results : List Traversal) : List Json :=
  (results.filter (·.code.isNone)).map Traversal.value

/-- `_traverse`, with the step that a token other than `*` takes as an argument. -/
def walk (into : String → Json → Except Exn (Option Json)) :
    List String → Json → List String → Except Exn Traversal
  | [], current, walked => .ok ⟨current, none, location walked⟩
  | token :: remaining, current, walked =>
    if token = "*" then
      match current with
      | .list items =>
        if remaining.isEmpty then .ok ⟨current, none, ".".intercalate (walked ++ ["*"])⟩
        else do
          let results ← items.mapM fun item => walk into remaining item (walked ++ ["*"])
          let mapped := resolvedValues results
          if mapped.isEmpty && !items.isEmpty then
            .ok ⟨.null, some .missingPath, ".".intercalate (walked ++ ["*"])⟩
          else .ok ⟨.list mapped, none, ".".intercalate (walked ++ ["*"])⟩
      | _ => .ok ⟨.null, some .invalidType, location walked⟩
    else do
      match ← into token current with
      | some next => walk into remaining next (walked ++ [stepLabel token current])
      | none => .ok ⟨.null, some .missingPath, stepPlace token current walked⟩

/-- `_traverse`. -/
def traverse (b : Builtins) : List String → Json → List String → Except Exn Traversal :=
  walk (stepInto b)

/-- What `resolve_path` returns. -/
structure Resolution where
  value : Json
  code : Option ErrorCode
  detail : Dict

/-- A resolution that ends with a code and no value. -/
def Resolution.failed (code : ErrorCode) (detail : Dict) : Resolution :=
  ⟨.null, some code, detail⟩

/-- A traversal as a resolution. -/
def Resolution.ofTraversal (detail : Dict) (t : Traversal) : Resolution :=
  ⟨t.value, t.code, detail ++ [("resolved_from", .str t.location)]⟩

/-- The part of `resolve_path` that selects a span by `token` and walks the tokens after it. -/
def resolveInSpan (b : Builtins) (spans : List Dict) (token : String) (tail : List String)
    (start : String) (detail : Dict) : Except Exn Resolution :=
  let found := findSpan b spans token
  let detail := detail ++ [("available_spans", .list (spans.map (.str <| spanLabel b ·)))]
  if found.error = some .ambiguousSpan then
    .ok (.failed .ambiguousSpan (detail ++ [("span_selector", .ofText found.selector)]))
  else
    match found.span with
    | none => .ok (.failed .missingSpan
        (detail ++ [("span_selector", .ofText (orText found.selector (some "auto")))]))
    | some span =>
      let detail := detail ++ [("span_selector", .ofText found.selector),
        ("span_id", span.get "span_id"), ("name", span.get "name")]
      (traverse b tail (.dict span) [start]).map (.ofTraversal detail)

/-- `resolve_path`, of a path and its tokens. -/
def resolveTokens (b : Builtins) (payload : Dict) (path : String) :
    List String → Except Exn Resolution
  | [] => .ok (.failed .unsupportedMapping [("path", .str path)])
  | head :: rest =>
    let detail : Dict := [("path", .str path)]
    let spans := extractSpans payload
    if head = "payload" then
      (traverse b rest (.dict payload) ["payload"]).map
        (.ofTraversal (detail ++ [("root", .str "payload")]))
    else if head = "spans" then
      let detail := detail ++ [("root", .str "spans")]
      match rest with
      | [] => .ok ⟨.list (spans.map .dict), none,
          detail ++ [("resolved_from", .str "spans"), ("span_count", .int spans.length)]⟩
      | first :: tail =>
        if first = "*" || Python.isDigit first then
          (traverse b rest (.list (spans.map .dict)) ["spans"]).map (.ofTraversal detail)
        else resolveInSpan b spans first tail ("spans." ++ first) detail
    else if head ∈ reservedSections then
      let detail := detail ++ [("root", .str head)]
      match payload.get head with
      | .null => .ok (.failed .missingPath (detail ++ [("resolved_from", .str head)]))
      | value => (traverse b rest value [head]).map (.ofTraversal detail)
    else resolveInSpan b spans head rest head (detail ++ [("root", .str "span")])

/-- `resolve_path`. -/
def resolvePath (b : Builtins) (payload : Dict) (path : String) : Except Exn Resolution :=
  resolveTokens b payload path (parsePath path)

/-! ### Mappings -/

/-- `isinstance(value, TYPE_MAP[name])`, or nothing when the table has no such name. A boolean
does not count as a number. -/
def hasType? (name : String) : Json → Option Bool
  | value =>
    match name with
    | "string" => some (value.typeName = "str")
    | "number" => some (value.typeName = "int" || value.typeName = "float")
    | "integer" => some (value.typeName = "int")
    | "boolean" => some (value.typeName = "bool")
    | "object" => some (value.typeName = "dict")
    | "array" => some (value.typeName = "list")
    | "any" => some true
    | _ => none

/-- `_check_type`. -/
def checkType (b : Builtins) (value expected : Json) : Except Exn Bool :=
  match expected with
  | .str expected => .ok ((hasType? (b.lower expected) value).getD true)
  | _ => .error (.builtin "AttributeError"
      ("'" ++ expected.typeName ++ "' object has no attribute 'lower'"))

/-- An entry of a mapping, read. -/
structure MappingSpec where
  path : String
  required : Bool
  expectedType : Json
  nullable : Bool
  default : Option Json

/-- Reads an entry of a mapping; an unsupported one gives a message and whether it is
required. -/
def readSpec (allowNull : Bool) : Json → Except (String × Bool) MappingSpec
  | .str path => .ok ⟨path, true, .null, allowNull, none⟩
  | .dict spec =>
    let required := ((spec.lookup "required").getD (.bool true)).truthy
    match Dict.get spec "path" with
    | .str path =>
      if path = "" then
        .error ("mapping object must contain a non-empty string 'path'", required)
      else
        .ok ⟨path, required, Dict.get spec "type",
          ((spec.lookup "nullable").getD (.bool allowNull)).truthy, spec.lookup "default"⟩
    | _ => .error ("mapping object must contain a non-empty string 'path'", required)
  | spec => .error ("unsupported mapping value of type " ++ spec.typeName, true)

/-- What becomes of one entry of a mapping: the value and the trail it leaves, its error, and
whether it is missing. -/
structure EntryOutcome where
  value : Option Json
  resolution : Option Dict
  error : Option ResolutionError
  missing : Bool

/-- The code of an entry once its value is checked against what the entry asks for, and the
details of a wrong type. -/
def checkValue (b : Builtins) (spec : MappingSpec) (r : Resolution) :
    Except Exn (Option ErrorCode × Dict) :=
  match r.code with
  | some code => .ok (some code, [])
  | none =>
    if r.value.typeName = "NoneType" && !spec.nullable then .ok (some .nullValue, [])
    else if !spec.expectedType.truthy then .ok (none, [])
    else do
      if ← checkType b r.value spec.expectedType then .ok (none, [])
      else
        .ok (some .invalidType, [("expected_type", spec.expectedType),
          ("actual_type", .str r.value.typeName)])

/-- The message of an error of an entry. -/
def errorMessage (b : Builtins) (key : String) (spec : MappingSpec) (value : Json) :
    ErrorCode → String
  | .missingSpan => "no span matched '" ++ (Python.split '.' spec.path).headD "" ++ "'"
  | .ambiguousSpan =>
      "more than one span is named '" ++ (Python.split '.' spec.path).headD "" ++ "'"
  | .missingPath => "path '" ++ spec.path ++ "' not present in payload"
  | .nullValue => "path '" ++ spec.path ++ "' resolved to null"
  | .invalidType => "path '" ++ spec.path ++ "' expected " ++ b.str spec.expectedType ++ ", got "
      ++ value.typeName
  | .unsupportedMapping => "mapping for '" ++ key ++ "' is not supported"

/-- The outcome of an entry whose path was resolved. -/
def entryOutcome (b : Builtins) (key : String) (spec : MappingSpec) (r : Resolution) :
    Option ErrorCode × Dict → EntryOutcome
  | (none, _) =>
    { value := some r.value
      resolution := some
        (r.detail ++ [("required", .bool spec.required), ("status", .str "resolved")])
      error := none
      missing := false }
  | (some code, mismatch) =>
    let detail := r.detail ++ [("required", .bool spec.required)] ++ mismatch
    { value := spec.default
      resolution := some (detail ++
        if spec.default.isSome then [("status", .str "default"), ("used_default", .bool true)]
        else [("status", .str code.value)])
      error := some ⟨key, some spec.path, code.value, errorMessage b key spec r.value code⟩
      missing := spec.default.isNone && spec.required }

/-- The body of the loop of `resolve_input_mapping`. -/
def resolveEntry (b : Builtins) (payload : Dict) (allowNull : Bool) (key : String)
    (spec : Json) : Except Exn EntryOutcome :=
  match readSpec allowNull spec with
  | .error (message, required) => .ok {
      value := none
      resolution := none
      error := some ⟨key, none, ErrorCode.unsupportedMapping.value, message⟩
      missing := required }
  | .ok spec => do
    let resolution ← resolvePath b payload spec.path
    let checked ← checkValue b spec resolution
    .ok (entryOutcome b key spec resolution checked)

namespace ResolvedInput

/-- The resolution of no key. -/
def empty : ResolvedInput where
  values := []
  resolutions := []
  errors := []
  missingRequired := []

/-- The resolution with the outcome of one more entry. -/
def record (resolved : ResolvedInput) (key : String) (outcome : EntryOutcome) :
    ResolvedInput where
  values := (outcome.value.map (resolved.values.set key)).getD resolved.values
  resolutions := (outcome.resolution.map fun detail =>
    resolved.resolutions.set key (.dict detail)).getD resolved.resolutions
  errors := resolved.errors ++ outcome.error.toList
  missingRequired := resolved.missingRequired ++ if outcome.missing then [key] else []

end ResolvedInput

/-- `resolve_input_mapping`. -/
def resolveInputMapping (b : Builtins) (payload : Dict) (inputMapping : Json)
    (allowNull : Bool) : Except Exn ResolvedInput :=
  if !inputMapping.truthy then .ok .empty
  else
    match inputMapping with
    | .dict mapping => mapping.foldlM (fun resolved entry => do
        let outcome ← resolveEntry b payload allowNull entry.1 entry.2
        .ok (resolved.record entry.1 outcome)) .empty
    | _ => .ok {
        values := []
        resolutions := []
        errors := [⟨"input_mapping", none, ErrorCode.unsupportedMapping.value,
          "input_mapping must be a JSON object"⟩]
        missingRequired := ["input_mapping"] }
/-! ### A small trace -/

namespace Demo

/-- A payload with a trace of given spans. -/
def payload (spans : List Dict) : Dict :=
  [("trace_context", .dict [("trace", .dict [("spans", .list (spans.map .dict))])])]

/-- A span with a name that started at a given time. -/
def span (name startedAt : String) : Dict :=
  [("name", .str name), ("started_at", .str startedAt)]

end Demo

end Evalorch
