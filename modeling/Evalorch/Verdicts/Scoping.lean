import Evalorch.Resolution.Transparency
import Evalorch.Verdicts.Order

/-!
# The verdicts on a scoped trace

The checks of spans look for the names that their parameters list, and scoping keeps every span
with one of these names. What it removes is found neither by the presence of a name nor in the
order of the names, so the verdicts are those on the whole trace.
-/

namespace Evalorch

open Evaluator Sequence

variable {b : Builtins}

/-! ### The input of the checks -/

/-- The output of a check on a payload: its mapping is resolved, and the evaluator reads the
values. -/
def evaluatedOn (b : Builtins)
    (evaluate : Dict → Dict → ExecutionContext → Except Exn EvaluatorOutput) (metric : Dict)
    (context : ExecutionContext) (allowNull : Bool) (payload : Dict) :
    Except Exn EvaluatorOutput := do
  let resolved ← resolveInputMapping b payload (metric.get "input_mapping") allowNull
  evaluate resolved.values metric context

/-- The verdict of a check of spans, its score, and the names it misses. -/
def spanVerdict (missing : String) (output : EvaluatorOutput) :
    Option Bool × Option Float64 × Json :=
  (output.passed, output.score, output.evidence.get missing)

/-- The path `spans` leads to the list of spans. -/
theorem resolvePath_spanList (payload : Dict) :
  ∃ detail, resolvePath b payload "spans"
    = .ok ⟨.list ((extractSpans payload).map .dict), none, detail⟩
  := by
  have hpath : parsePath "spans" = ["spans"] := by decide +kernel
  rw [resolvePath, hpath]
  simp [resolveTokens]

/-- The mapping of the checks of spans resolves to the list of spans. -/
theorem resolveInputMapping_spans (payload : Dict) (allowNull : Bool) :
  ∃ resolved,
    resolveInputMapping b payload (.dict [("spans", .str "spans")]) allowNull = .ok resolved
      ∧ resolved.values = [("spans", .list ((extractSpans payload).map .dict))]
  := by
  obtain ⟨detail, hpath⟩ := @resolvePath_spanList b payload
  simp [resolveInputMapping, resolveEntry, readSpec, hpath, checkValue, entryOutcome,
    ResolvedInput.record, ResolvedInput.empty, Json.truthy, Json.typeName, Dict.set, bind,
    Except.bind, pure, Except.pure]

/-- A check with that mapping reads the list of spans. -/
theorem evaluatedOn_spans
    {evaluate : Dict → Dict → ExecutionContext → Except Exn EvaluatorOutput} {metric : Dict}
    {context : ExecutionContext} {allowNull : Bool}
    (hmapping : metric.get "input_mapping" = .dict [("spans", .str "spans")]) (payload : Dict) :
  evaluatedOn b evaluate metric context allowNull payload
    = evaluate [("spans", .list ((extractSpans payload).map .dict))] metric context
  := by
  obtain ⟨resolved, hresolved, hvalues⟩ := @resolveInputMapping_spans b payload allowNull
  rw [evaluatedOn, hmapping, hresolved, ← hvalues]
  rfl

theorem coerceSpans_spans (spans : List Dict) :
  coerceSpans (.list (spans.map .dict)) = .ok spans
  := by
  simp only [coerceSpans, List.filterMap_map]
  congr 1
  apply List.filterMap_some

theorem paramsOf_eq {config params : Dict} (h : config.get "params" = .dict params) :
  paramsOf config = .ok params
  := by
  rw [paramsOf, h]
  cases params <;> rfl

/-! ### Wanted names -/

/-- The name is found in the same traces, before and after scoping. -/
def Wanted (names : List String) (name : String) : Prop :=
  name ≠ "" → name ∈ wantedNames names

/-- A name that the parameters list is wanted, when no white space surrounds it. -/
theorem wanted_of_param {metric params : Dict} {names : List String} {key name : String}
    (hparams : metric.get "params" = .dict params) (hnames : metricSpanNames b metric = .ok names)
    (hkey : key ∈ ["expected_order", "required_spans", "required_agents"])
    (hname : name ∈ itemTexts b (params.get key)) (hstrip : Python.strip name = name) :
  Wanted names name
  := by
  intro hne
  obtain ⟨found, hfound, -⟩ := Transact.bind_eq_ok.mp hnames
  have hmem : name ∈ found := by
    unfold namedSpans at hfound
    obtain ⟨required, -, hfound⟩ := Transact.bind_eq_ok.mp hfound
    obtain ⟨equals, -, hfound⟩ := Transact.bind_eq_ok.mp hfound
    cases hfound
    apply List.mem_append_right
    rw [hparams]
    apply List.mem_flatMap.mpr ⟨key, hkey, hname⟩
  rw [← hstrip] at hne ⊢
  apply mem_metricSpanNames hfound hnames hmem hne

/-- A wanted name is present before and after scoping. -/
theorem isPresent_limitSpans {names : List String} {name : String} (h : Wanted names name)
    (spans : List Dict) :
  isPresent b (limitSpans b names spans) name = isPresent b spans name
  := by
  unfold limitSpans
  split
  case isTrue => rfl
  case isFalse =>
    unfold isPresent
    rw [Bool.eq_iff_iff, List.any_eq_true, List.any_eq_true]
    refine exists_congr fun span => ?_
    rw [List.mem_filter, and_assoc]
    refine and_congr_right fun _ => and_iff_right_of_imp fun hidentity => ?_
    have hne : name ≠ "" := by
      rintro rfl
      cases hidentity
    apply List.any_eq_true.mpr ⟨name, h hne, hidentity⟩

/-- Wanted names are in the order of the identities before and after scoping. -/
theorem sublist_spanIdentities_limitSpans {names expected : List String}
    (h : ∀ name ∈ expected, name ≠ "" ∧ Wanted names name) (spans : List Dict) :
  expected.Sublist (spanIdentities b (limitSpans b names spans))
    ↔ expected.Sublist (spanIdentities b spans)
  := by
  unfold limitSpans
  split
  case isTrue => rfl
  case isFalse =>
    apply sublist_filterMap_filter
    intro span name hname hidentity
    obtain ⟨hne, hwanted⟩ := h name hname
    apply List.any_eq_true.mpr
      ⟨name, hwanted hne, WorkflowOrder.spanHasIdentity_of_spanIdentity hne hidentity⟩

/-- The names that a parameter lists are there, and no white space surrounds them. -/
structure ListsNames (b : Builtins) (value : Json) : Prop where
  truthy : value.truthy = true
  stripped : ∀ name ∈ itemTexts b value, Python.strip name = name

/-- What lists names comes before what would be read instead of it. -/
theorem ListsNames.or_eq {value : Json} (h : ListsNames b value) (second : Json) :
  value.or second = value
  := by rw [Json.or, if_pos h.truthy]

/-- Either of two parameters that list names is a parameter of the metric. -/
theorem mem_itemTexts_or {first second : Json} {name : String}
    (h : name ∈ itemTexts b (first.or second)) :
  name ∈ itemTexts b first ∨ name ∈ itemTexts b second
  := by
  unfold Json.or at h
  split at h
  case isTrue => exact .inl h
  case isFalse => exact .inr h

/-! ### The existence of spans -/

namespace SpanExists

/-- The evaluation on a list of spans. -/
theorem evaluate_spans (spans : List Dict) (config : Dict) (context : ExecutionContext) :
  evaluate b [("spans", .list (spans.map .dict))] config context
    = (readRequired config context).map fun required => check b required spans
  := by
  unfold evaluate
  cases readRequired config context with
  | error e => rfl
  | ok required =>
    simp only [require, List.lookup_cons_self, coerceSpans_spans, bind, Except.bind, Except.map]

/-- The names that are required are those that the parameters list. -/
theorem readRequired_ok {config params : Dict} {context : ExecutionContext} {required : List Json}
    (hparams : config.get "params" = .dict params)
    (hlists : ListsNames b ((params.get "required_spans").or (params.get "required_agents")))
    (h : readRequired config context = .ok required) :
  (params.get "required_spans").or (params.get "required_agents") = .list required
  := by
  rw [readRequired, paramsOf_eq hparams] at h
  simp only [bind, Except.bind, hlists.or_eq] at h
  split at h
  case h_1 first rest hlist =>
    cases h
    apply hlist
  case h_2 => cases h

/-- The check has the same verdict on a trace that is scoped to the names it asks for. -/
theorem check_limitSpans {names : List String} {required : List Json}
    (h : ∀ name ∈ required.map b.str, Wanted names name) (spans : List Dict) :
  spanVerdict "missing_spans" (check b required (limitSpans b names spans))
    = spanVerdict "missing_spans" (check b required spans)
  := by
  have hfound : (required.map b.str).filter (isPresent b (limitSpans b names spans))
      = (required.map b.str).filter (isPresent b spans) := by
    apply List.filter_congr
    intro name hname
    apply isPresent_limitSpans (h name hname)
  simp only [check, hfound]
  rfl

end SpanExists

/-! ### The order of a workflow -/

namespace WorkflowOrder

/-- The evaluation on a list of spans. -/
theorem evaluate_spans (spans : List Dict) (config : Dict) (context : ExecutionContext) :
  evaluate b [("spans", .list (spans.map .dict))] config context
    = (readParams b config context).map fun params => check b params spans
  := by
  unfold evaluate
  cases readParams b config context with
  | error e => rfl
  | ok params =>
    simp only [require, List.lookup_cons_self, coerceSpans_spans, bind, Except.bind, Except.map]

/-- The names that are expected are those that the parameters list. -/
theorem readParams_ok {config raw : Dict} {context : ExecutionContext} {params : Params}
    (hraw : config.get "params" = .dict raw) (hlists : ListsNames b (raw.get "expected_order"))
    (h : readParams b config context = .ok params) :
  raw.get "expected_order" = .list params.expected
    ∧ b.lower (b.str ((raw.lookup "mode").getD (.str "subsequence"))) = params.mode.value
  := by
  obtain ⟨-, horder, hmode, -⟩ := (readParams_eq_ok_iff (paramsOf_eq hraw)).mp h
  rw [hlists.or_eq] at horder
  exact ⟨horder, hmode⟩

/-- The names that a check compares. -/
def compared (b : Builtins) (params : Params) (spans : List Dict) : List String :=
  if params.ignoreMissing then presentNames b spans (params.expected.map b.str)
  else params.expected.map b.str

/-- The names that are compared are present, unless the check fails anyway. -/
theorem mem_compared {params : Params} {spans : List Dict} {name : String}
    (h : (params.ignoreMissing || (namesOutside (presentNames b spans (params.expected.map b.str))
      (params.expected.map b.str)).isEmpty) = true)
    (hname : name ∈ compared b params spans) :
  name ∈ params.expected.map b.str ∧ isPresent b spans name = true
  := by
  unfold compared at hname
  rw [Bool.or_eq_true, namesOutside_isEmpty] at h
  split at hname
  case isTrue => exact List.mem_filter.mp hname
  case isFalse hignore => exact ⟨hname, h.resolve_left hignore name hname⟩

/-- The check has the same verdict on a trace that is scoped to the names it asks for. -/
theorem check_limitSpans {names : List String} {params : Params}
    (hmode : params.mode = .subsequence)
    (h : ∀ name ∈ params.expected.map b.str, Wanted names name) (spans : List Dict) :
  spanVerdict "missing_agents" (check b params (limitSpans b names spans))
    = spanVerdict "missing_agents" (check b params spans)
  := by
  have hpresent : presentNames b (limitSpans b names spans) (params.expected.map b.str)
      = presentNames b spans (params.expected.map b.str) := by
    apply List.filter_congr
    intro name hname
    apply isPresent_limitSpans (h name hname)
  simp only [check, hpresent, hmode, orderOk]
  cases hcompared : params.ignoreMissing
      || (namesOutside (presentNames b spans (params.expected.map b.str))
        (params.expected.map b.str)).isEmpty with
  | false =>
    simp only [Bool.and_false]
    rfl
  | true =>
    have horder : runsInOrder (compared b params spans)
          (spanIdentities b (limitSpans b names spans))
        = runsInOrder (compared b params spans) (spanIdentities b spans) := by
      rw [Bool.eq_iff_iff, runsInOrder_iff, runsInOrder_iff]
      apply sublist_spanIdentities_limitSpans
      intro name hname
      obtain ⟨hexpected, hfound⟩ := mem_compared hcompared hname
      exact ⟨isPresent_ne_empty hfound, h name hexpected⟩
    unfold compared at horder
    rw [horder]
    rfl

end WorkflowOrder

/-! ### Both checks -/

/-- Scoping does not change the verdicts of the checks of spans: whether they pass, their score,
and the names they miss. -/
theorem scoping_keeps_span_verdicts {metric params : Dict} {names : List String}
    (hmapping : metric.get "input_mapping" = .dict [("spans", .str "spans")])
    (hparams : metric.get "params" = .dict params) (hnames : metricSpanNames b metric = .ok names)
    (payload : Dict) (allowNull : Bool) (context : ExecutionContext) :
  (ListsNames b ((params.get "required_spans").or (params.get "required_agents")) →
    (evaluatedOn b (SpanExists.evaluate b) metric context allowNull
        (scopePayloadToSpans b payload names)).map (spanVerdict "missing_spans")
      = (evaluatedOn b (SpanExists.evaluate b) metric context allowNull payload).map
        (spanVerdict "missing_spans"))
    ∧ (ListsNames b (params.get "expected_order") →
      b.lower (b.str ((params.lookup "mode").getD (.str "subsequence"))) = "subsequence" →
      (evaluatedOn b (WorkflowOrder.evaluate b) metric context allowNull
          (scopePayloadToSpans b payload names)).map (spanVerdict "missing_agents")
        = (evaluatedOn b (WorkflowOrder.evaluate b) metric context allowNull payload).map
          (spanVerdict "missing_agents"))
  := by
  rw [evaluatedOn_spans hmapping, evaluatedOn_spans hmapping, evaluatedOn_spans hmapping,
    evaluatedOn_spans hmapping, extractSpans_scopePayloadToSpans]
  constructor
  · intro hlists
    rw [SpanExists.evaluate_spans, SpanExists.evaluate_spans]
    cases hrequired : SpanExists.readRequired metric context with
    | error e => rfl
    | ok required =>
      simp only [Except.map]
      rw [SpanExists.check_limitSpans]
      intro name hname
      have hmem : name ∈ itemTexts b
          ((params.get "required_spans").or (params.get "required_agents")) := by
        rw [SpanExists.readRequired_ok hparams hlists hrequired]
        apply hname
      have hstrip := hlists.stripped name hmem
      rcases mem_itemTexts_or hmem with hspans | hagents
      · apply wanted_of_param hparams hnames _ hspans hstrip
        decide
      · apply wanted_of_param hparams hnames _ hagents hstrip
        decide
  · intro hlists hmode
    rw [WorkflowOrder.evaluate_spans, WorkflowOrder.evaluate_spans]
    cases hread : WorkflowOrder.readParams b metric context with
    | error e => rfl
    | ok p =>
      obtain ⟨horder, hvalue⟩ := WorkflowOrder.readParams_ok hparams hlists hread
      have hsubsequence : p.mode = .subsequence := by
        rw [hmode] at hvalue
        cases hp : p.mode with
        | subsequence => rfl
        | strict => simp [hp, WorkflowOrder.Mode.value] at hvalue
      simp only [Except.map]
      rw [WorkflowOrder.check_limitSpans hsubsequence]
      intro name hname
      have hmem : name ∈ itemTexts b (params.get "expected_order") := by
        rw [horder]
        apply hname
      apply wanted_of_param hparams hnames _ hmem (hlists.stripped name hmem)
      decide

namespace Demo

/-- The parameters of the checks of a draft. -/
def draftParams : Dict :=
  [("expected_order", .list [.str "draft"]), ("required_spans", .list [.str "draft"])]

/-- A metric with the mapping of the checks of spans. -/
def draftMetric : Dict :=
  [("input_mapping", .dict [("spans", .str "spans")]), ("params", .dict draftParams)]

/-- A trace with a span that the metric does not name. -/
def reviewedPayload : Dict :=
  payload [span "review" "2024-01-01T00:00:00", span "draft" "2024-01-02T00:00:00"]

end Demo

/-- A draft is found where the review is removed. -/
theorem scoping_keeps_span_verdicts_demo :
  (evaluatedOn Demo.builtins (SpanExists.evaluate Demo.builtins) Demo.draftMetric Demo.context false
      (scopePayloadToSpans Demo.builtins Demo.reviewedPayload ["draft"])).map
      (spanVerdict "missing_spans")
    = (evaluatedOn Demo.builtins (SpanExists.evaluate Demo.builtins) Demo.draftMetric Demo.context
      false Demo.reviewedPayload).map (spanVerdict "missing_spans")
    ∧ (evaluatedOn Demo.builtins (WorkflowOrder.evaluate Demo.builtins) Demo.draftMetric Demo.context
      false (scopePayloadToSpans Demo.builtins Demo.reviewedPayload ["draft"])).map
      (spanVerdict "missing_agents")
    = (evaluatedOn Demo.builtins (WorkflowOrder.evaluate Demo.builtins) Demo.draftMetric Demo.context
      false Demo.reviewedPayload).map (spanVerdict "missing_agents")
  := by
  have hstripped : Python.strip "draft" = "draft" := by decide +kernel
  have hlists : ListsNames Demo.builtins (.list [.str "draft"]) :=
    ⟨rfl, by simpa [itemTexts, Builtins.str] using hstripped⟩
  obtain ⟨hexists, horder⟩ := @scoping_keeps_span_verdicts Demo.builtins Demo.draftMetric
    Demo.draftParams ["draft"] rfl rfl (by rfl) Demo.reviewedPayload false Demo.context
  exact ⟨hexists hlists, horder hlists rfl⟩

end Evalorch
