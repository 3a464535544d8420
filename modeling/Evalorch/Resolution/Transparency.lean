import Evalorch.Resolution.Scoped

/-!
# Scoping a frozen metric

`spanTokenFromPath` decides which span a path keeps when the payload is scoped, `findSpan` which
span it selects. The two agree on each path that selects a span by an identity, so the metrics
that a configuration freezes get the same answers from the scoped payload as from the whole one.
-/

namespace Evalorch

/-! ### The spans of a metric -/

/-- A token that selects a span by an identity without surrounding white space. -/
structure Identity (token : String) : Prop where
  unordered : Python.dropPrefix? "order:" token = none
  stripped : Python.strip (splitSpanSelector token).2 = (splitSpanSelector token).2

/-- A path that selects a span by an identity, or that starts in a section other than the
trace. -/
def SelectsByIdentity (path : String) : Prop :=
  match parsePath path with
  | [] => False
  | head :: rest =>
    if head = "spans" then
      match rest with
      | [] => False
      | first :: _ => first ≠ "*" ∧ Python.isDigit first = false ∧ Identity first
    else head ∈ ["agent_registry", "payload_metadata", "correlation"]
      ∨ head ∉ reservedSections ∧ Identity head

/-- What is found and not blank is a name of the metric. -/
theorem mem_metricSpanNames {b : Builtins} {metric : Dict} {found names : List String}
    {name : String} (hfound : namedSpans b metric = .ok found)
    (hnames : metricSpanNames b metric = .ok names) (hmem : name ∈ found)
    (hne : Python.strip name ≠ "") :
  Python.strip name ∈ wantedNames names
  := by
  simp only [metricSpanNames, hfound, bind, Except.bind, Except.ok.injEq] at hnames
  subst hnames
  simp only [wantedNames, List.mem_filter, List.mem_map, List.mem_eraseDups, bne_iff_ne]
  exact ⟨⟨_, ⟨⟨name, hmem, rfl⟩, hne⟩, Python.strip_strip name⟩, hne⟩

/-- The identity that a mapped path asks for is found. -/
theorem mem_namedSpans {b : Builtins} {metric : Dict} {found : List String} {path token : String}
    (hfound : namedSpans b metric = .ok found)
    (hpath : path ∈ mappedPaths (metric.get "input_mapping"))
    (htoken : (spanTokenFromPath path).filter (· != "") = some token) :
  token ∈ found
  := by
  unfold namedSpans at hfound
  obtain ⟨required, -, hfound⟩ := Transact.bind_eq_ok.mp hfound
  obtain ⟨equals, -, hfound⟩ := Transact.bind_eq_ok.mp hfound
  cases hfound
  obtain ⟨htoken, hne⟩ := Option.filter_eq_some_iff.mp htoken
  apply List.mem_append_left
  apply List.mem_append_right
  rw [List.mem_filter, List.mem_filterMap]
  exact ⟨⟨path, List.mem_append_left _ hpath, htoken⟩, hne⟩

/-- A mapped path that selects by identity has its span named. -/
theorem selected_of_selectsByIdentity {b : Builtins} {metric : Dict} {names : List String}
    {path : String} (hnames : metricSpanNames b metric = .ok names)
    (hpath : path ∈ mappedPaths (metric.get "input_mapping")) (h : SelectsByIdentity path) :
  Selected names (parsePath path)
  := by
  obtain ⟨found, hfound, -⟩ := Transact.bind_eq_ok.mp hnames
  -- a token whose identity the path passes on is named
  have hnamed : ∀ token, Identity token →
      (spanTokenFromPath path).filter (· != "")
        = (some (splitSpanSelector token).2).filter (· != "") →
      Names names token := by
    intro token hidentity htoken
    refine ⟨hidentity.unordered, fun hne => ?_⟩
    rw [filter_of_ne hne] at htoken
    have hmem := mem_namedSpans hfound hpath htoken
    rw [← hidentity.stripped] at hne
    rw [← hidentity.stripped]
    apply mem_metricSpanNames hfound hnames hmem hne
  unfold SelectsByIdentity at h
  cases htokens : parsePath path with
  | nil => trivial
  | cons head rest =>
    simp only [htokens] at h
    unfold Selected
    split at h
    case isTrue hspans =>
      subst hspans
      cases rest with
      | nil => cases h
      | cons first tail =>
        obtain ⟨hwildcard, hdigit, hidentity⟩ := h
        refine ⟨hwildcard, hdigit, hnamed first hidentity ?_⟩
        rw [spanTokenFromPath_of_spans htokens hwildcard hdigit]
    case isFalse hspans =>
      rcases h with hsection | ⟨hreserved, hidentity⟩
      · have hne : ¬ (head = "payload" ∨ head = "trace_context") := by
          rintro (rfl | rfl) <;> revert hsection <;> decide
        have hreserved : head ∈ reservedSections := by
          simp only [reservedSections, List.mem_cons] at hsection ⊢
          tauto
        simp [hne, hspans, hreserved]
      · have hne : ¬ (head = "payload" ∨ head = "trace_context") := by
          rintro (rfl | rfl) <;> exact hreserved (by decide)
        simp only [if_neg hne, if_neg hspans]
        right
        apply hnamed head hidentity
        apply spanTokenFromPath_of_head htokens hreserved hidentity.unordered

/-! ### The guard -/

/-- An identity of a span that is not empty is available when the span is. -/
theorem mem_availableSpans {b : Builtins} {payload : Dict} {name : String} (hne : name ≠ "") :
  name ∈ availableSpans b payload
    ↔ ∃ span ∈ extractSpans payload, spanHasIdentity b span name none = true
  := by
  have hidentity : ∀ span : Dict, spanHasIdentity b span name none = true
      ↔ ∃ key ∈ spanIdentityKeys, (span.get key).truthy = true
          ∧ b.str (span.get key) = name := by
    intro span
    simp only [spanHasIdentity, Option.map_none, Option.getD_none, Bool.and_eq_true, bne_iff_ne,
      List.any_eq_true, hne, ne_eq, not_false_eq_true, true_and, Json.or]
    refine exists_congr fun key => and_congr_right fun _ => ?_
    by_cases htruthy : (span.get key).truthy = true
    · simp [htruthy]
    · simpa [htruthy, Builtins.str] using hne.symm
  simp only [availableSpans, List.mem_flatMap, List.mem_map, List.mem_filter, hidentity]
  refine exists_congr fun span => and_congr_right fun _ => exists_congr fun key => ?_
  exact and_assoc

/-- A wanted name is available in the scoped payload when it is in the whole one. -/
theorem mem_availableSpans_scopePayloadToSpans {b : Builtins} {payload : Dict}
    {names : List String} {name : String} (hne : name ≠ "") (h : name ∈ wantedNames names) :
  name ∈ availableSpans b (scopePayloadToSpans b payload names) ↔ name ∈ availableSpans b payload
  := by
  rw [mem_availableSpans hne, mem_availableSpans hne, extractSpans_scopePayloadToSpans]
  unfold limitSpans
  split
  case isTrue => rfl
  case isFalse =>
    refine exists_congr fun span => ?_
    rw [List.mem_filter, and_assoc]
    refine and_congr_right fun _ => and_iff_right_of_imp fun hidentity => ?_
    exact List.any_eq_true.mpr ⟨name, h, hidentity⟩

/-- The spans that a guard misses are the same in the scoped payload, when it asks for wanted
names. -/
theorem missingSpans_scopePayloadToSpans {b : Builtins} {payload : Dict}
    {names required : List String} (h : ∀ name ∈ required, name ≠ "" ∧ name ∈ wantedNames names) :
  missingSpans b (scopePayloadToSpans b payload names) (.list (required.map .str))
    = missingSpans b payload (.list (required.map .str))
  := by
  have hmissing : (required.map Json.str).filter
        (fun name => !(availableSpans b (scopePayloadToSpans b payload names)).contains
          (b.str name))
      = (required.map Json.str).filter
        fun name => !(availableSpans b payload).contains (b.str name) := by
    apply List.filter_congr
    intro item hitem
    obtain ⟨name, hname, rfl⟩ := List.mem_map.mp hitem
    obtain ⟨hne, hwanted⟩ := h name hname
    congr 1
    rw [Bool.eq_iff_iff, List.contains_iff_mem, List.contains_iff_mem]
    apply mem_availableSpans_scopePayloadToSpans hne hwanted
  unfold missingSpans iterated
  simp only [bind, Except.bind, hmissing]

/-! ### Frozen metrics -/

namespace FrozenMetric

/-- What a definition holds is not among the fields that a configuration adds. -/
theorem get_definitionPayload {b : Builtins} {metric : Dict} {m : FrozenMetric}
    (h : m.configured = configuredFields b metric) :
  m.definitionPayload.get "input_mapping" = .dict m.definition.inputMapping
    ∧ m.definitionPayload.get "span_names" = strippedSpanNames b metric
    ∧ m.definitionPayload.get "applies_when"
        = if m.definition.appliesWhen.isEmpty then .null else .dict m.definition.appliesWhen
  := by
  unfold definitionPayload MetricDefinition.asDict configuredFields Dict.get at *
  rw [h]
  cases hempty : m.definition.appliesWhen.isEmpty <;>
    simp [List.lookup_cons]

/-- The snapshot of a metric has its definition. -/
theorem metricFromSnapshot_asSnapshot {ids : Identifiers} {m : FrozenMetric}
    (h : m.definition.checkId ≠ "") :
  metricFromSnapshot (m.asSnapshot ids) = some m.definitionPayload
  := by
  have hpayload : (m.asSnapshot ids).get "definition_payload" = .dict m.definitionPayload := by
    simp [asSnapshot, Dict.get, List.lookup_cons]
  have hcheck : (m.definitionPayload.get "check_id").truthy = true := by
    simpa [definitionPayload, MetricDefinition.asDict, Dict.get, List.lookup_cons, Json.truthy]
      using h
  simp [metricFromSnapshot, hpayload, checkDefinition, hcheck]

end FrozenMetric

/-- The verdict of a guard that only asks for spans. -/
def spansVerdict : Option String → Bool × String
  | some reason => (false, reason)
  | none => (true, "")

/-- The guard of a frozen metric asks for spans that the metric names. -/
theorem applies_scopePayloadToSpans {b : Builtins} {check payload : Dict}
    {required names : List String}
    (hguard : check.get "applies_when"
      = if (requiredSpansGuard required).isEmpty then .null
        else .dict (requiredSpansGuard required))
    (h : ∀ name ∈ required, name ≠ "" ∧ name ∈ wantedNames names) :
  applies b check (scopePayloadToSpans b payload names) = applies b check payload
  := by
  cases required with
  | nil =>
    unfold applies
    rw [hguard]
    rfl
  | cons name required =>
    -- the guard only asks for spans
    have hverdict : ∀ document, applies b check document
        = (missingSpans b document (.list ((name :: required).map .str))).map spansVerdict := by
      intro document
      unfold applies getInner
      rw [hguard]
      change missingSpans b document (.list ((name :: required).map .str)) >>= _ = _
      cases missingSpans b document (.list ((name :: required).map .str)) with
      | error e => rfl
      | ok missing => cases missing <;> rfl
    rw [hverdict, hverdict, missingSpans_scopePayloadToSpans h]

/-- A metric with a guard of its span names names each of these spans. -/
theorem namedSpans_of_guard {b : Builtins} {check : Dict} {required : List String}
    (hspans : check.get "span_names" = .list (required.map .str))
    (hguard : check.get "applies_when"
      = if (requiredSpansGuard required).isEmpty then .null
        else .dict (requiredSpansGuard required)) :
  ∃ found, namedSpans b check = .ok found ∧ ∀ name ∈ required, name ∈ found
  := by
  unfold namedSpans getInner
  rw [hspans, hguard]
  cases required with
  | nil => exact ⟨_, rfl, by simp⟩
  | cons name required =>
    refine ⟨_, rfl, ?_⟩
    intro other hother
    apply List.mem_append_left
    apply List.mem_append_left
    simpa [listedOr, itemTexts, Builtins.str] using hother

/-- A metric that a configuration freezes gets the same answers from a payload and from the
payload scoped to the spans that the metric names: the same verdict of its guard, and the same
value and code of each mapped path that selects a span by an identity or starts in a section
other than the trace. -/
theorem scoping_transparent {b : Builtins} {settings : CreationSettings} {ids : Identifiers}
    {config : Dict} {agentId source : String} {frozen : List FrozenMetric} {m : FrozenMetric}
    (h : metricsForAgent b settings ids config agentId source = .ok frozen) (hm : m ∈ frozen)
    (payload : Dict) :
  ∃ metric names, metricFromSnapshot (m.asSnapshot ids) = some metric
    ∧ metricSpanNames b metric = .ok names
    ∧ applies b metric (scopePayloadToSpans b payload names) = applies b metric payload
    ∧ ∀ path ∈ mappedPaths (metric.get "input_mapping"), SelectsByIdentity path →
        (resolvePath b (scopePayloadToSpans b payload names) path).map Resolution.answer
          = (resolvePath b payload path).map Resolution.answer
  := by
  obtain ⟨rawAgentId, metrics, -, -, -, hall, -, -⟩ := metricsForAgent_ok h
  obtain ⟨raw, -, hconfigured⟩ := Python.exists_rel_of_forall₂ hall hm
  obtain ⟨spanNames, hspanNames, hne, hguard⟩ := hconfigured.guarded
  obtain ⟨-, hspans, happlies⟩ := FrozenMetric.get_definitionPayload hconfigured.configured
  rw [hguard] at happlies
  have hstripped : strippedSpanNames b raw = .list ((spanNames.map Python.strip).map .str) := by
    simp [strippedSpanNames, hspanNames, Builtins.str]
  obtain ⟨found, hfound, hlisted⟩ := namedSpans_of_guard (b := b) (hspans.trans hstripped) happlies
  obtain ⟨names, hnames⟩ : ∃ names, metricSpanNames b m.definitionPayload = .ok names := by
    simp [metricSpanNames, hfound, bind, Except.bind]
  refine ⟨m.definitionPayload, names,
    FrozenMetric.metricFromSnapshot_asSnapshot hconfigured.named, hnames, ?_, ?_⟩
  · apply applies_scopePayloadToSpans happlies
    intro name hname
    obtain ⟨spanName, hspanName, rfl⟩ := List.mem_map.mp hname
    have hmem := mem_metricSpanNames hfound hnames (hlisted _ hname)
    rw [Python.strip_strip] at hmem
    exact ⟨hne spanName hspanName, hmem (hne spanName hspanName)⟩
  · intro path hpath hselects
    apply resolvePath_scopePayloadToSpans
    apply selected_of_selectsByIdentity hnames hpath hselects

namespace Demo

/-- The metrics of a configuration that lists one. -/
def oneMetric : Except Exn (List FrozenMetric) :=
  metricsForAgent builtins .default identifiers
    (config [configMetric "first" "spans.draft.output" [" review "]]) agentId ""

end Demo

theorem scoping_transparent_oneMetric :
  ∃ frozen m, Demo.oneMetric = .ok frozen ∧ m ∈ frozen
    ∧ ∃ metric names, metricFromSnapshot (m.asSnapshot Demo.identifiers) = some metric
      ∧ metricSpanNames Demo.builtins metric = .ok names
      ∧ applies Demo.builtins metric
          (scopePayloadToSpans Demo.builtins (Demo.payload [Demo.span "draft" ""]) names)
        = applies Demo.builtins metric (Demo.payload [Demo.span "draft" ""])
      ∧ ∀ path ∈ mappedPaths (metric.get "input_mapping"), SelectsByIdentity path →
          (resolvePath Demo.builtins (scopePayloadToSpans Demo.builtins
              (Demo.payload [Demo.span "draft" ""]) names) path).map Resolution.answer
            = (resolvePath Demo.builtins (Demo.payload [Demo.span "draft" ""]) path).map
                Resolution.answer
  := by
  obtain ⟨m, frozen, h⟩ : ∃ m frozen, Demo.oneMetric = .ok (m :: frozen) := ⟨_, _, rfl⟩
  exact ⟨m :: frozen, m, h, List.mem_cons_self, scoping_transparent h List.mem_cons_self _⟩

end Evalorch
