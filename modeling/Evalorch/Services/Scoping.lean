import Evalorch.Services.ContextResolver
import Evalorch.Services.ProfileResolution

/-!
# What a metric sees of a payload

`metricSpanNames` collects the spans that a metric names: in its list of span names, in the
paths it maps or compares, and in the parameters that list spans. The payload is limited to
these spans before the metric is resolved. `applies` decides the guard of a metric.
-/

namespace Evalorch

/-- `_span_token_from_path`. -/
def spanTokenFromPath (path : String) : Option String :=
  match parsePath path with
  | [] => none
  | head :: rest =>
    match splitSpanSelector head with
    | (some _, value) => if value = "" then none else some value
    | (none, _) =>
      match head, rest with
      | "spans", selector :: _ =>
        if selector = "*" || Python.isDigit selector then none
        else some (splitSpanSelector selector).2
      | _, _ =>
        if head ∈ reservedSections || (Python.dropPrefix? "order:" head).isSome then none
        else some head

/-- `(document.get(field) or {}).get(inner)`. -/
def getInner (document : Dict) (field inner : String) : Except Exn Json :=
  match (document.get field).or (.dict []) with
  | .dict fields => .ok (Dict.get fields inner)
  | value => .error (.builtin "AttributeError"
      ("'" ++ value.typeName ++ "' object has no attribute 'get'"))

/-- The texts of the items of a document that is an array. -/
def itemTexts (b : Builtins) : Json → List String
  | .list items => items.map b.str
  | _ => []

/-- The first of two documents that is an array with items. -/
def listedOr (first second : Json) : Json :=
  match first with
  | .list (item :: items) => .list (item :: items)
  | _ => second

/-- The path of an entry of a mapping. -/
def specPath : Json → Option String
  | .str path => some path
  | .dict spec =>
    match Dict.get spec "path" with
    | .str path => some path
    | _ => none
  | _ => none

/-- The paths of a mapping. -/
def mappedPaths : Json → List String
  | .dict mapping => mapping.filterMap fun entry => specPath entry.2
  | _ => []

/-- The keys of a document that is an object. -/
def fieldNames : Json → List String
  | .dict fields => fields.map Prod.fst
  | _ => []

/-- The names that the parameters of a metric list. -/
def paramNames (b : Builtins) : Json → List String
  | .dict params => ["expected_order", "required_spans", "required_agents"].flatMap fun key =>
      itemTexts b (Dict.get params key)
  | _ => []

/-- The spans that a metric names, as it names them. -/
def namedSpans (b : Builtins) (metric : Dict) : Except Exn (List String) := do
  let required ← getInner metric "applies_when" "required_spans"
  let equals ← getInner metric "applies_when" "equals"
  let names := listedOr (metric.get "span_names") (required.or (.list []))
  let paths := mappedPaths (metric.get "input_mapping") ++ fieldNames equals
  .ok (itemTexts b names
    ++ (paths.filterMap spanTokenFromPath).filter (· != "")
    ++ paramNames b (metric.get "params"))

/-- `_metric_span_names`. -/
def metricSpanNames (b : Builtins) (metric : Dict) : Except Exn (List String) := do
  let found ← namedSpans b metric
  .ok ((found.map Python.strip).filter (· != "")).eraseDups

/-! ### The guard -/

/-- The items that a loop over a document runs through. -/
def iterated : Json → Except Exn (List Json)
  | .list items => .ok items
  | .str text => .ok (text.toList.map fun c => .str (String.ofList [c]))
  | .dict fields => .ok (fields.map fun field => .str field.1)
  | value => .error (.builtin "TypeError"
      ("'" ++ value.typeName ++ "' object is not iterable"))

/-- `", ".join(items)`. -/
def joinTexts (items : List Json) : Except Exn String := do
  let texts ← items.zipIdx.mapM fun
    | (.str text, _) => Except.ok text
    | (item, i) => .error (.builtin "TypeError"
        (s!"sequence item {i}: expected str instance, " ++ item.typeName ++ " found"))
  .ok (", ".intercalate texts)

/-- The comparisons of a guard: the reason why the first that fails does. -/
def unequal (b : Builtins) (payload : Dict) : Dict → Except Exn (Option String)
  | [] => .ok none
  | (path, expected) :: rest => do
    let r ← resolvePath b payload path
    match r.code with
    | some code => .ok (some ("applies_when: '" ++ path ++ "' unresolved (" ++ code.value ++ ")"))
    | none =>
      if !r.value.eq expected then
        .ok (some ("applies_when: '" ++ path ++ "' is " ++ b.repr r.value ++ ", expected "
          ++ b.repr expected))
      else unequal b payload rest

/-- The identities of the spans of a payload. -/
def availableSpans (b : Builtins) (payload : Dict) : List String :=
  (extractSpans payload).flatMap fun span =>
    (spanIdentityKeys.filter fun key => (span.get key).truthy).map fun key => b.str (span.get key)

/-- The required spans of a guard: the reason, when some are missing. -/
def missingSpans (b : Builtins) (payload : Dict) (requiredSpans : Json) :
    Except Exn (Option String) :=
  if !requiredSpans.truthy then .ok none
  else do
    let names ← iterated requiredSpans
    let missing := names.filter fun name => !(availableSpans b payload).contains (b.str name)
    if missing.isEmpty then .ok none
    else
      let texts ← joinTexts missing
      .ok (some ("applies_when: missing span(s) " ++ texts))

/-- `_applies`: the guard of a metric, with the reason when it fails. -/
def applies (b : Builtins) (check payload : Dict) : Except Exn (Bool × String) :=
  if !(check.get "applies_when").truthy then .ok (true, "")
  else do
    let equals ← getInner check "applies_when" "equals"
    let requiredSpans ← getInner check "applies_when" "required_spans"
    match equals.or (.dict []) with
    | .dict comparisons => do
      match ← unequal b payload comparisons with
      | some reason => .ok (false, reason)
      | none =>
        match ← missingSpans b payload requiredSpans with
        | some reason => .ok (false, reason)
        | none => .ok (true, "")
    | value => .error (.builtin "AttributeError"
        ("'" ++ value.typeName ++ "' object has no attribute 'items'"))

end Evalorch
