import Evalorch.Resolution.Paths
import Evalorch.Resolution.Scoped

/-!
# Two spellings of a span

A token selects the same span at the start of a path as right after `spans`, and resolving treats
the two spellings alike. Scoping does not: right after `spans`, an `order:` selector is taken for
an identity, so the trace is limited to the spans that have the selector itself as one.
-/

namespace Evalorch

/-! ### A metric with one entry -/

/-- A metric with another mapping. -/
def withMapping (metric mapping : Dict) : Dict :=
  metric.set "input_mapping" (.dict mapping)

/-- The mapping of a metric, resolved on a payload that is scoped to the spans of the metric. -/
def resolveScoped (b : Builtins) (allowNull : Bool) (metric payload : Dict) :
    Except Exn ResolvedInput := do
  let names ← metricSpanNames b metric
  resolveInputMapping b (scopePayloadToSpans b payload names) (metric.get "input_mapping")
    allowNull

/-- The values of a resolution, the codes of its errors, and the keys that are missing. -/
def ResolvedInput.answers (resolved : ResolvedInput) : Dict × List String × List String :=
  (resolved.values, resolved.errors.map ResolutionError.code, resolved.missingRequired)

/-- Two paths as the only entry of a metric get the same values and codes. -/
def SameAnswers (b : Builtins) (allowNull : Bool) (metric payload : Dict)
    (key path path' : String) : Prop :=
  (resolveScoped b allowNull (withMapping metric [(key, .str path)]) payload).map
      ResolvedInput.answers
    = (resolveScoped b allowNull (withMapping metric [(key, .str path')]) payload).map
      ResolvedInput.answers

/-- When a token is an `order:` selector, the spans that the metric names otherwise have the same
span at its position as those that are left when the selector is named besides. -/
def PositionKept (b : Builtins) (metric payload : Dict) (token : String) : Prop :=
  ∀ names, (Python.dropPrefix? "order:" token).isSome →
    metricSpanNames b (withMapping metric []) = .ok names →
    (findSpan b (extractSpans (scopePayloadToSpans b payload names)) token).span
      = (findSpan b (extractSpans (scopePayloadToSpans b payload (token :: names))) token).span

/-- The values, the codes and the missing keys of an entry that is resolved. -/
def entryAnswers (allowNull : Bool) (key : String) :
    Json × Option ErrorCode → Dict × List String × List String
  | (_, some code) => ([], [code.value], [key])
  | (value, none) =>
    if value.typeName = "NoneType" && !allowNull then
      ([], [ErrorCode.nullValue.value], [key])
    else ([(key, value)], [], [])

/-- A mapping of one path gets what the path resolves to. -/
theorem resolveInputMapping_single (b : Builtins) (allowNull : Bool) (payload : Dict)
    (key path : String) :
  (resolveInputMapping b payload (.dict [(key, .str path)]) allowNull).map ResolvedInput.answers
    = ((resolvePath b payload path).map Resolution.answer).map (entryAnswers allowNull key)
  := by
  have hentry : resolveInputMapping b payload (.dict [(key, .str path)]) allowNull
      = resolveEntry b payload allowNull key (.str path) >>= fun outcome =>
          .ok (ResolvedInput.empty.record key outcome) := by
    simp [resolveInputMapping, Json.truthy]
  rw [hentry]
  simp only [resolveEntry, readSpec]
  cases resolvePath b payload path with
  | error e => rfl
  | ok r =>
    obtain ⟨value, code, detail⟩ := r
    cases code with
    | some code => rfl
    | none =>
      cases hnull : (value.typeName = "NoneType" && !allowNull : Bool) <;>
        simp [checkValue, Resolution.answer, entryAnswers, hnull, bind, Except.bind, Except.map,
          entryOutcome, ResolvedInput.record, ResolvedInput.empty, ResolvedInput.answers,
          Json.truthy, Dict.set]

/-! ### The two spellings of a path -/

theorem parsePath_spans (path : String) :
  parsePath ("spans." ++ path) = "spans" :: parsePath path
  := by
  have hsplit := @Python.split_append '.' "spans".toList (by decide) path
  unfold parsePath
  rw [show "spans." = String.ofList ("spans".toList ++ ['.']) by decide, hsplit,
    List.flatMap_cons]
  rfl

/-- A token that selects a span does so right after `spans`. -/
theorem resolvePath_spans {b : Builtins} {path token : String} {tail : List String}
    (hpath : parsePath path = token :: tail) (hreserved : token ∉ reservedSections)
    (hwildcard : token ≠ "*") (hdigit : Python.isDigit token = false) (payload : Dict) :
  (resolvePath b payload ("spans." ++ path)).map Resolution.answer
    = (resolvePath b payload path).map Resolution.answer
  := by
  have hpayload : token ≠ "payload" := by
    rintro rfl
    exact hreserved (by decide)
  have hspans : token ≠ "spans" := by
    rintro rfl
    exact hreserved (by decide)
  unfold resolvePath
  rw [parsePath_spans, hpath, resolveTokens_answer, resolveTokens_answer]
  simp [walkStart, unwalked, hpayload, hspans, hwildcard, hdigit, hreserved]

/-! ### The names of a metric with one entry -/

/-- The names that the paths of a mapping add between those before and after them. -/
def namesAround (before after : List String) (mapping : Dict) : List String :=
  (((before ++ ((mappedPaths (.dict mapping)).filterMap spanTokenFromPath).filter (· != "")
    ++ after).map Python.strip).filter (· != "")).eraseDups

/-- Of the spans that a metric names, the mapping decides nothing but those of its own paths. -/
theorem metricSpanNames_withMapping (b : Builtins) (metric : Dict) :
  (∃ e, ∀ mapping, metricSpanNames b (withMapping metric mapping) = .error e)
    ∨ ∃ before after, ∀ mapping, metricSpanNames b (withMapping metric mapping)
        = .ok (namesAround before after mapping)
  := by
  have hother : ∀ mapping field, field ≠ "input_mapping" →
      (withMapping metric mapping).get field = metric.get field :=
    fun mapping field h => Dict.get_set_of_ne metric _ h
  have hmapping : ∀ mapping, (withMapping metric mapping).get "input_mapping" = .dict mapping :=
    fun mapping => Dict.get_set_self metric _ _
  have hinner : ∀ mapping inner, getInner (withMapping metric mapping) "applies_when" inner
      = getInner metric "applies_when" inner := by
    intro mapping inner
    unfold getInner
    rw [hother mapping "applies_when" (by decide)]
  simp only [metricSpanNames, namedSpans, hinner, hmapping, hother _ "span_names" (by decide),
    hother _ "params" (by decide)]
  cases getInner metric "applies_when" "required_spans" with
  | error e => exact .inl ⟨e, fun _ => rfl⟩
  | ok required =>
    cases getInner metric "applies_when" "equals" with
    | error e => exact .inl ⟨e, fun _ => rfl⟩
    | ok equals =>
      refine .inr ⟨itemTexts b (listedOr (metric.get "span_names") (required.or (.list []))),
        ((fieldNames equals).filterMap spanTokenFromPath).filter (· != "")
          ++ paramNames b (metric.get "params"), fun mapping => ?_⟩
      simp only [namesAround, bind, Except.bind, List.filterMap_append, List.filter_append,
        List.append_assoc]

/-- Names that are not blank, once each. -/
theorem mem_stripped {found : List String} {name : String} :
  name ∈ ((found.map Python.strip).filter (· != "")).eraseDups
    ↔ name ≠ "" ∧ ∃ item ∈ found, Python.strip item = name
  := by
  rw [List.mem_eraseDups, List.mem_filter, List.mem_map, bne_iff_ne, and_comm]

/-- A path as the only entry adds the span of its token to the names. -/
theorem mem_namesAround {before after : List String} {key path name : String} :
  name ∈ namesAround before after [(key, .str path)]
    ↔ name ∈ namesAround before after []
      ∨ name ≠ "" ∧ ∃ token, spanTokenFromPath path = some token ∧ Python.strip token = name
  := by
  have hmapped : ∀ item, item ∈ ((mappedPaths (.dict [(key, .str path)])).filterMap
        spanTokenFromPath).filter (· != "")
      ↔ spanTokenFromPath path = some item ∧ item ≠ "" := by
    intro item
    rw [List.mem_filter, bne_iff_ne, List.mem_filterMap]
    simp [mappedPaths, specPath]
  unfold namesAround
  rw [mem_stripped, mem_stripped, ← and_or_left]
  refine and_congr_right fun hne => ?_
  have hempty : ∀ item, Python.strip item = name → item ≠ "" := by
    rintro item hitem rfl
    exact hne hitem.symm
  constructor
  · rintro ⟨item, hitem, hname⟩
    rcases List.mem_append.mp hitem with hitem | hitem
    · rcases List.mem_append.mp hitem with hitem | hitem
      · exact .inl ⟨item, by simp [hitem], hname⟩
      · exact .inr ⟨item, ((hmapped item).mp hitem).1, hname⟩
    · exact .inl ⟨item, by simp [hitem], hname⟩
  · rintro (⟨item, hitem, hname⟩ | ⟨item, hitem, hname⟩)
    · refine ⟨item, ?_, hname⟩
      simp only [mappedPaths, List.filterMap_nil, List.filter_nil, List.append_nil,
        List.mem_append] at hitem
      rcases hitem with hitem | hitem <;> simp [hitem]
    · refine ⟨item, ?_, hname⟩
      exact List.mem_append_left _ (List.mem_append_right _
        ((hmapped item).mpr ⟨hitem, hempty item hname⟩))

/-- Limiting the trace depends on which names are wanted, not on how they are listed. -/
theorem limitSpans_congr {names names' : List String}
    (h : ∀ name, name ∈ wantedNames names ↔ name ∈ wantedNames names') (b : Builtins)
    (spans : List Dict) :
  limitSpans b names spans = limitSpans b names' spans
  := by
  have hempty : (wantedNames names).isEmpty = (wantedNames names').isEmpty := by
    rw [Bool.eq_iff_iff, List.isEmpty_iff, List.isEmpty_iff, List.eq_nil_iff_forall_not_mem,
      List.eq_nil_iff_forall_not_mem]
    simp only [h]
  have hany : hasWanted b (wantedNames names) = hasWanted b (wantedNames names') := by
    funext span
    rw [Bool.eq_iff_iff]
    simp only [hasWanted, List.any_eq_true, h]
  unfold limitSpans
  rw [hempty, hany]

/-! ### Selectors by position -/

/-- An `order:` selector is no selector of an identity. -/
theorem splitSpanSelector_order {token raw : String}
    (h : Python.dropPrefix? "order:" token = some raw) :
  splitSpanSelector token = (none, token)
  := by
  have htoken := Python.dropPrefix?_eq_some.mp h
  simp [splitSpanSelector, spanIdentityKeys, Python.dropPrefix?, htoken]

/-- A text without an index and without a dot is one token. -/
theorem parsePath_of_not_mem {token : String} (hdot : '.' ∉ token.toList)
    (hbracket : '[' ∉ token.toList) (hstrip : Python.strip token = token) (hne : token ≠ "") :
  parsePath token = [token]
  := by
  have hscan : scanIndices 0 token.toList = (token.toList, []) := by
    simpa [scanIndices] using scanIndices_append hbracket []
  simp [parsePath, Python.split_of_not_mem hdot, hstrip, segmentTokens, hscan, hne]

/-- The selector of a position is one token. -/
theorem parsePath_order {token raw : String} {position : ℤ}
    (h : Python.dropPrefix? "order:" token = some raw)
    (hposition : Python.int? raw = some position) (hstrip : Python.strip token = token) :
  parsePath token = [token]
  := by
  have htoken := Python.dropPrefix?_eq_some.mp h
  have hne : token ≠ "" := by
    rintro rfl
    simp at htoken
  have hdot := Python.not_mem_of_int?_eq_some hposition (c := '.') (by decide) (by decide)
    (by decide)
  have hbracket := Python.not_mem_of_int?_eq_some hposition (c := '[') (by decide) (by decide)
    (by decide)
  apply parsePath_of_not_mem _ _ hstrip hne
  · simpa [htoken] using hdot
  · simpa [htoken] using hbracket

/-! ### The condition -/

/-- Two paths that name the same span add the same names. -/
theorem namesAround_congr {path path' : String}
    (h : (spanTokenFromPath path).filter (· != "") = (spanTokenFromPath path').filter (· != ""))
    (before after : List String) (key : String) :
  namesAround before after [(key, .str path)] = namesAround before after [(key, .str path')]
  := by
  have hmapped : ∀ path, ((mappedPaths (.dict [(key, .str path)])).filterMap
        spanTokenFromPath).filter (· != "") = ((spanTokenFromPath path).filter (· != "")).toList := by
    intro path
    simp only [mappedPaths, specPath, List.filterMap_cons, List.filterMap_nil]
    cases spanTokenFromPath path with
    | none => rfl
    | some token => by_cases hempty : token = "" <;> simp [hempty, Option.filter]
  unfold namesAround
  rw [hmapped, hmapped, h]

/-- The mapping of a metric with one path gets what the path resolves to on the payload that is
scoped to the names. -/
theorem resolveScoped_withMapping {b : Builtins} {metric : Dict} {key path : String}
    {names : List String}
    (hnames : metricSpanNames b (withMapping metric [(key, .str path)]) = .ok names)
    (allowNull : Bool) (payload : Dict) :
  (resolveScoped b allowNull (withMapping metric [(key, .str path)]) payload).map
      ResolvedInput.answers
    = ((resolvePath b (scopePayloadToSpans b payload names) path).map Resolution.answer).map
      (entryAnswers allowNull key)
  := by
  unfold resolveScoped
  rw [hnames, show (withMapping metric [(key, .str path)]).get "input_mapping"
    = .dict [(key, .str path)] from Dict.get_set_self metric _ _]
  apply resolveInputMapping_single

/-- A selector by position, as the first token of a path, names no span. -/
theorem spanTokenFromPath_of_order {path token raw : String} {tail : List String}
    (hpath : parsePath path = token :: tail)
    (horder : Python.dropPrefix? "order:" token = some raw) :
  spanTokenFromPath path = none
  := by
  have hspans : token ≠ "spans" := by
    rintro rfl
    cases horder
  simp only [spanTokenFromPath, hpath, splitSpanSelector_order horder]
  split
  case h_1 => exact absurd rfl hspans
  case h_2 => simp [horder]

/-- What the tokens after a selector by position answer, of the span that it finds. -/
def spanAnswer (b : Builtins) (tail : List String) :
    Option Dict → Except Exn (Json × Option ErrorCode)
  | some span => (traverse b tail (.dict span) []).map Traversal.answer
  | none => .ok (.null, some .missingSpan)

/-- A path of a selector by position answers of the span at the position. -/
theorem resolvePath_order {b : Builtins} {path token raw : String} {tail : List String}
    (hpath : parsePath path = token :: tail) (hreserved : token ∉ reservedSections)
    (horder : Python.dropPrefix? "order:" token = some raw) (payload : Dict) :
  (resolvePath b payload path).map Resolution.answer
    = spanAnswer b tail (findSpan b (extractSpans payload) token).span
  := by
  have hpayload : token ≠ "payload" := by
    rintro rfl
    exact hreserved (by decide)
  have hspans : token ≠ "spans" := by
    rintro rfl
    exact hreserved (by decide)
  have herror : (findSpan b (extractSpans payload) token).error = none := by
    simp [findSpan, splitSpanSelector_order horder, horder]
  unfold resolvePath
  rw [hpath, resolveTokens_answer]
  cases hfound : (findSpan b (extractSpans payload) token).span <;>
    simp [walkStart, unwalked, spanAnswer, hpayload, hspans, hreserved, hfound, herror]

/-- A selector whose position is no number finds no span. -/
theorem findSpan_order_of_none {token raw : String}
    (horder : Python.dropPrefix? "order:" token = some raw) (hposition : Python.int? raw = none)
    (b : Builtins) (spans : List Dict) :
  (findSpan b spans token).span = none
  := by simp [findSpan, splitSpanSelector_order horder, horder, hposition]

/-- Names are wanted when they are not blank. -/
theorem mem_wantedNames {names : List String} {name : String} :
  name ∈ wantedNames names ↔ name ≠ "" ∧ ∃ item ∈ names, Python.strip item = name
  := by
  unfold wantedNames
  rw [List.mem_filter, List.mem_map, bne_iff_ne, and_comm]

/-- As the first token, a selector by position leaves the spans that are named otherwise. -/
theorem extractSpans_order {path token raw : String} {tail : List String}
    (hpath : parsePath path = token :: tail)
    (horder : Python.dropPrefix? "order:" token = some raw) (b : Builtins) (payload : Dict)
    (before after : List String) (key : String) :
  extractSpans (scopePayloadToSpans b payload (namesAround before after [(key, .str path)]))
    = extractSpans (scopePayloadToSpans b payload (namesAround before after []))
  := by
  rw [extractSpans_scopePayloadToSpans, extractSpans_scopePayloadToSpans]
  apply limitSpans_congr
  intro name
  simp [mem_wantedNames, mem_namesAround, spanTokenFromPath_of_order hpath horder]

/-- After `spans`, a selector by position leaves the spans that are named otherwise and those
that are named like the selector. -/
theorem extractSpans_spans_order {path token raw : String} {tail : List String}
    (hpath : parsePath path = token :: tail) (hwildcard : token ≠ "*")
    (hdigit : Python.isDigit token = false) (hstrip : Python.strip token = token)
    (horder : Python.dropPrefix? "order:" token = some raw) (b : Builtins) (payload : Dict)
    (before after : List String) (key : String) :
  extractSpans (scopePayloadToSpans b payload
      (namesAround before after [(key, .str ("spans." ++ path))]))
    = extractSpans (scopePayloadToSpans b payload (token :: namesAround before after []))
  := by
  have hparse := parsePath_spans path
  rw [hpath] at hparse
  have htoken : spanTokenFromPath ("spans." ++ path) = some token := by
    rw [spanTokenFromPath_of_spans hparse hwildcard hdigit, splitSpanSelector_order horder]
  rw [extractSpans_scopePayloadToSpans, extractSpans_scopePayloadToSpans]
  apply limitSpans_congr
  intro name
  simp only [mem_wantedNames, mem_namesAround, htoken, Option.some.injEq, exists_eq_left',
    List.mem_cons, hstrip]
  refine and_congr_right fun hne => ?_
  constructor
  · rintro ⟨item, hitem | ⟨-, rfl⟩, hname⟩
    · exact ⟨item, .inr hitem, hname⟩
    · exact ⟨token, .inl rfl, hname⟩
  · rintro ⟨item, rfl | hitem, hname⟩
    · refine ⟨item, .inr ⟨?_, rfl⟩, hname⟩
      rintro rfl
      cases horder
    · exact ⟨item, .inl hitem, hname⟩

/-- What is answered when no tokens follow tells which span is found. -/
theorem spanAnswer_injective {allowNull : Bool} {key : String} {b : Builtins}
    {found found' : Option Dict}
    (h : (spanAnswer b [] found).map (entryAnswers allowNull key)
      = (spanAnswer b [] found').map (entryAnswers allowNull key)) :
  found = found'
  := by
  cases found <;> cases found' <;>
    simp_all [spanAnswer, traverse, walk, Except.map, Traversal.answer, entryAnswers,
      Json.typeName]

/-- The two spellings of a selector by position get the same answers exactly when it keeps its
span. -/
theorem sameAnswers_order_iff {b : Builtins} {allowNull : Bool} {metric payload : Dict}
    {key token raw : String} (hreserved : token ∉ reservedSections) (hwildcard : token ≠ "*")
    (hdigit : Python.isDigit token = false) (hstrip : Python.strip token = token)
    (horder : Python.dropPrefix? "order:" token = some raw) :
  (∀ path tail, parsePath path = token :: tail →
      SameAnswers b allowNull metric payload key path ("spans." ++ path))
    ↔ PositionKept b metric payload token
  := by
  rcases metricSpanNames_withMapping b metric with ⟨e, herror⟩ | ⟨before, after, hnames⟩
  · constructor
    · intro _ names _ hnames
      rw [herror] at hnames
      cases hnames
    · intro _ path tail _
      simp only [SameAnswers, resolveScoped, herror]
      rfl
  · -- what the two spellings answer, by the spans they find
    have hsame : ∀ path tail, parsePath path = token :: tail →
        (SameAnswers b allowNull metric payload key path ("spans." ++ path)
          ↔ (spanAnswer b tail (findSpan b (extractSpans (scopePayloadToSpans b payload
                (namesAround before after []))) token).span).map (entryAnswers allowNull key)
            = (spanAnswer b tail (findSpan b (extractSpans (scopePayloadToSpans b payload
                (token :: namesAround before after []))) token).span).map
                (entryAnswers allowNull key)) := by
      intro path tail hpath
      unfold SameAnswers
      rw [resolveScoped_withMapping (hnames _), resolveScoped_withMapping (hnames _),
        resolvePath_spans hpath hreserved hwildcard hdigit,
        resolvePath_order hpath hreserved horder, resolvePath_order hpath hreserved horder,
        extractSpans_order hpath horder,
        extractSpans_spans_order hpath hwildcard hdigit hstrip horder]
    constructor
    · intro h names _ hok
      rw [hnames, Except.ok.injEq] at hok
      subst hok
      cases hposition : Python.int? raw with
      | none =>
        rw [findSpan_order_of_none horder hposition, findSpan_order_of_none horder hposition]
      | some position =>
        have hpath := parsePath_order horder hposition hstrip
        exact spanAnswer_injective ((hsame token [] hpath).mp (h token [] hpath))
    · intro h path tail hpath
      rw [hsame path tail hpath, h _ (by simp [horder]) (hnames [])]

/-- The two spellings of a span get the same answers whatever follows, exactly when a selector
by position keeps its span. -/
theorem spellings_agree_iff (b : Builtins) (allowNull : Bool) (metric payload : Dict)
    (key : String) {token : String} (hreserved : token ∉ reservedSections)
    (hwildcard : token ≠ "*") (hdigit : Python.isDigit token = false)
    (hstrip : Python.strip token = token) :
  (∀ path tail, parsePath path = token :: tail →
      SameAnswers b allowNull metric payload key path ("spans." ++ path))
    ↔ PositionKept b metric payload token
  := by
  cases horder : Python.dropPrefix? "order:" token with
  | some raw => apply sameAnswers_order_iff hreserved hwildcard hdigit hstrip horder
  | none =>
    constructor
    · intro _ names hsome
      rw [horder] at hsome
      cases hsome
    · intro _ path tail hpath
      have hparse := parsePath_spans path
      rw [hpath] at hparse
      have htoken : (spanTokenFromPath path).filter (· != "")
          = (spanTokenFromPath ("spans." ++ path)).filter (· != "") := by
        rw [spanTokenFromPath_of_head hpath hreserved horder,
          spanTokenFromPath_of_spans hparse hwildcard hdigit]
      rcases metricSpanNames_withMapping b metric with ⟨e, herror⟩ | ⟨before, after, hnames⟩
      · simp only [SameAnswers, resolveScoped, herror]
        rfl
      · unfold SameAnswers
        rw [resolveScoped_withMapping (hnames _), resolveScoped_withMapping (hnames _),
          namesAround_congr htoken, resolvePath_spans hpath hreserved hwildcard hdigit]

theorem spellings_agree_iff_draft :
  (∀ path tail, parsePath path = "draft" :: tail →
      SameAnswers Demo.builtins false [] (Demo.payload [Demo.span "draft" ""]) "value" path
        ("spans." ++ path))
    ↔ PositionKept Demo.builtins [] (Demo.payload [Demo.span "draft" ""]) "draft"
  := spellings_agree_iff Demo.builtins false [] _ "value" (by decide) (by decide) (by decide)
    (by decide)

/-- The first span of a trace has a name at the start of a path, but is missing after `spans`. -/
theorem firstSpan_not_sameAnswers :
  parsePath "order:1.name" = ["order:1", "name"]
    ∧ "order:1" ∉ reservedSections ∧ "order:1" ≠ "*" ∧ Python.isDigit "order:1" = false
    ∧ Python.strip "order:1" = "order:1"
    ∧ ¬ SameAnswers Demo.builtins false [("evaluator", .str "required_fields")]
        (Demo.payload [Demo.span "draft" ""]) "value" "order:1.name" ("spans." ++ "order:1.name")
  := by
  refine ⟨by decide, by decide, by decide, by decide, by decide, ?_⟩
  intro h
  cases h

end Evalorch
