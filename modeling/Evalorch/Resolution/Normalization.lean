import Evalorch.Resolution.Traversal
import Evalorch.Services.ProfileResolution

/-!
# Normal definitions

A definition that `normalizeMetricDefinition` returns is normal: its texts are trimmed, its names
are resolved, and each entry of its mapping is as `normalizeSpec` leaves it. Normalizing a
normal definition returns it, and a mapping means the same to the resolver before and after it
is normalized.
-/

namespace Evalorch

open Python Transact

variable {b : Builtins}

/-! ### Letter case -/

/-- A letter from a to z, or an underscore. -/
def isLowerName (c : Char) : Bool :=
  ('a' ≤ c && c ≤ 'z') || c = '_'

/-- A letter from A to Z, or an underscore. -/
def isUpperName (c : Char) : Bool :=
  ('A' ≤ c && c ≤ 'Z') || c = '_'

/-- What is documented of `str.lower` and `str.upper`: a text in lower case is in lower case,
no blank is made, and names in ASCII letters of one case are left alone. -/
structure CaseMappings (b : Builtins) : Prop where
  lower_lower : ∀ text, b.lower (b.lower text) = b.lower text
  strip_lower : ∀ text, strip (b.lower (strip text)) = b.lower (strip text)
  lower_name : ∀ text, text.toList.all isLowerName = true → b.lower text = text
  upper_name : ∀ text, text.toList.all isUpperName = true → b.upper text = text

/-- A name that the registry resolved is resolved to itself. -/
theorem resolveEvaluatorName_idem (hcase : CaseMappings b) (name : String) :
  resolveEvaluatorName b (resolveEvaluatorName b name) = resolveEvaluatorName b name
  := by
  simp only [resolveEvaluatorName]
  cases halias : aliases.lookup (b.lower (strip name)) with
  | none =>
    simp only [Option.getD_none]
    rw [hcase.strip_lower, hcase.lower_lower, halias, Option.getD_none]
  | some canonical =>
    have hnames : ∀ entry ∈ aliases, entry.2.toList.all isLowerName = true
        ∧ strip entry.2 = entry.2 ∧ aliases.lookup entry.2 = none := by decide +kernel
    obtain ⟨before, after, heq, -⟩ := List.lookup_eq_some_iff.mp halias
    obtain ⟨hlower, hstrip, hnone⟩ := hnames (b.lower (strip name), canonical) (by simp [heq])
    simp only [Option.getD_some] at hlower hstrip hnone ⊢
    rw [hstrip, hcase.lower_name canonical hlower, hnone, Option.getD_none]

/-- The judge is resolved to itself. -/
theorem resolveEvaluatorName_llmJudge (hcase : CaseMappings b) :
  resolveEvaluatorName b "llm_judge" = "llm_judge"
  := by
  have hlower : b.lower "llm_judge" = "llm_judge" := hcase.lower_name _ (by decide +kernel)
  have hstrip : strip "llm_judge" = "llm_judge" := by decide +kernel
  have hnone : aliases.lookup "llm_judge" = none := by decide +kernel
  simp only [resolveEvaluatorName, hstrip, hlower, hnone, Option.getD_none]

/-! ### Normal forms -/

/-- What normalization leaves alone. -/
structure NormalDefinition (b : Builtins) (d : MetricDefinition) : Prop where
  checkId_ne : d.checkId ≠ ""
  checkId_strip : strip d.checkId = d.checkId
  evaluator_name : resolveEvaluatorName b d.evaluator = d.evaluator
  evaluator_type : evaluators.lookup d.evaluator = some d.checkType
  mapping : ∀ label, ∀ entry ∈ d.inputMapping, normalizeSpec b label entry.1 entry.2 = .ok entry.2
  maxAttempts_pos : 1 ≤ d.maxAttempts
  policy : ∃ policy : OnMissingContext, d.onMissingContext = .str policy.value

/-- The defaults that `freeze_metric` passes. -/
def freezeDefaults (settings : Settings) : Dict :=
  [("priority", .int 0), ("max_attempts", .int settings.runnerMaxAttempts),
    ("on_missing_context", .str settings.defaultOnMissingContext.value)]

/-- The name of the evaluator of a definition is resolved. -/
theorem definitionEvaluator_resolved (hcase : CaseMappings b) {label : String} {raw : Dict}
    {name : String} (h : definitionEvaluator b label raw = .ok name) :
  resolveEvaluatorName b name = name
  := by
  rw [definitionEvaluator] at h
  simp only at h
  split at h
  · split at h
    · obtain rfl := Except.ok.inj h
      apply resolveEvaluatorName_idem hcase
    · cases h
  · split at h
    · obtain rfl := Except.ok.inj h
      apply resolveEvaluatorName_llmJudge hcase
    · cases h

/-- A policy that is accepted is one of the two. -/
theorem normalizePolicy_ok {value policy : Json} {default : OnMissingContext}
    (h : normalizePolicy b value (.str default.value) = .ok policy) :
  ∃ p : OnMissingContext, policy = .str p.value
  := by
  rw [normalizePolicy] at h
  simp only at h
  split at h
  · exact ⟨default, (Except.ok.inj h).symm⟩
  · split at h
    · exact ⟨.notApplicable, (Except.ok.inj h).symm⟩
    · split at h
      · exact ⟨.fail, (Except.ok.inj h).symm⟩
      · cases h

/-- The policies are policies in normal form. -/
theorem normalizePolicy_value (hcase : CaseMappings b) (p : OnMissingContext) (default : Json) :
  normalizePolicy b (.str p.value) default = .ok (.str p.value)
  := by
  have hlower : b.lower (strip p.value) = p.value := by
    cases p
    · rw [show strip OnMissingContext.notApplicable.value = OnMissingContext.notApplicable.value
        by decide +kernel]
      apply hcase.lower_name _ (by decide +kernel)
    · rw [show strip OnMissingContext.fail.value = OnMissingContext.fail.value by decide +kernel]
      apply hcase.lower_name _ (by decide +kernel)
  rw [normalizePolicy]
  simp only [Builtins.str, hlower]
  cases p <;> simp [Json.typeName, OnMissingContext.value]

/-- An entry of a mapping that is accepted is left alone. -/
theorem normalizeSpec_idem {label label' key : String} {raw spec : Json}
    (h : normalizeSpec b label key raw = .ok spec) :
  normalizeSpec b label' key spec = .ok spec
  := by
  rw [normalizeSpec.eq_def] at h
  split at h
  case isTrue => cases h
  case isFalse hkey =>
    split at h
    case h_1 path =>
      split at h
      case isTrue => cases h
      case isFalse hblank =>
        obtain rfl := Except.ok.inj h
        simp [normalizeSpec, hkey, hblank]
    case h_2 fields =>
      split at h
      case h_1 path hpath =>
        split at h
        case isTrue => cases h
        case isFalse hblank =>
          obtain rfl := Except.ok.inj h
          have hentry : normalizedEntry b (strip path) (normalizedEntry b path fields)
              = normalizedEntry b path fields := by
            unfold normalizedEntry specField
            cases fields.lookup "required" <;> cases fields.lookup "nullable" <;>
              cases fields.lookup "type" <;> cases fields.lookup "default" <;>
              simp [List.lookup_cons, Json.truthy, Builtins.str]
          have hget : Dict.get (normalizedEntry b path fields) "path" = .str (strip path) := by
            simp [normalizedEntry, Dict.get]
          simp [normalizeSpec, hkey, hget, hblank, hentry]
      case h_2 => cases h
    case h_3 => cases h

/-- The entries of a mapping that is accepted, each beside its normal form. -/
theorem validateInputMapping_dict {label : String} {given mapping : Dict}
    (h : validateInputMapping b (.dict given) label = (mapping, [])) :
  List.Forall₂ (fun raw entry => entry.1 = raw.1
    ∧ normalizeSpec b label raw.1 raw.2 = .ok entry.2) given mapping
  := by
  obtain ⟨hentries, hproblems⟩ := Prod.mk.inj h
  rw [← hentries]
  clear h hentries
  induction given with
  | nil => exact .nil
  | cons raw given ih =>
    cases hspec : normalizeSpec b label raw.1 raw.2 with
    | error problem => simp [hspec] at hproblems
    | ok spec =>
      simp only [List.filterMap_cons, hspec] at hproblems ⊢
      exact .cons ⟨rfl, hspec⟩ (ih hproblems)

/-- The mapping of a definition that is accepted has normal entries. -/
theorem normalizeSpec_of_mapping {label : String} {given : Json} {mapping : Dict}
    (h : validateInputMapping b given label = (mapping, [])) (label' : String) :
  ∀ entry ∈ mapping, normalizeSpec b label' entry.1 entry.2 = .ok entry.2
  := by
  cases given with
  | null =>
    obtain ⟨rfl, -⟩ := Prod.mk.inj h
    simp
  | dict given =>
    have hall := validateInputMapping_dict h
    clear h
    induction hall with
    | nil => simp
    | cons hentry _ ih =>
      obtain ⟨hkey, hspec⟩ := hentry
      rw [List.forall_mem_cons]
      constructor
      · rw [hkey]
        apply normalizeSpec_idem hspec
      · exact ih
  | _ => simp [validateInputMapping] at h

/-- An identifier that is accepted is trimmed. -/
theorem definitionCheckId_strip {label : String} {raw : Dict} {checkId : String}
    (h : definitionCheckId label raw = .ok checkId) :
  strip checkId = checkId
  := by
  rw [definitionCheckId] at h
  split at h
  case h_1 =>
    split at h
    case isTrue => cases h
    case isFalse =>
      obtain rfl := Except.ok.inj h
      apply strip_strip
  case h_2 => cases h

/-- A number of attempts is bounded below by one. -/
theorem one_le_atLeastOne (label : String) (maxAttempts : ℤ) :
  1 ≤ (atLeastOne label maxAttempts).1
  := by
  rw [atLeastOne]
  split
  · simp
  · simpa using ‹¬ maxAttempts < 1›

/-- The policy of a definition is one of the two. -/
theorem definitionPolicy_value (b : Builtins) (label : String) (raw : Dict)
    (default : OnMissingContext) :
  ∃ p : OnMissingContext, (definitionPolicy b label raw (.str default.value)).1 = .str p.value
  := by
  rw [definitionPolicy]
  cases hpolicy : normalizePolicy b (raw.get "on_missing_context") (.str default.value) with
  | ok policy => apply normalizePolicy_ok hpolicy
  | error e => exact ⟨default, rfl⟩

/-- The type of a check is that of its evaluator. -/
theorem evaluatorCheckType_ok {name : String} {checkType : CheckType}
    (hname : resolveEvaluatorName b name = name)
    (h : evaluatorCheckType b name = .ok checkType) :
  evaluators.lookup name = some checkType
  := by
  rw [evaluatorCheckType, hname] at h
  cases hlookup : evaluators.lookup name with
  | none => simp [hlookup] at h
  | some found =>
    simp only [hlookup, Except.ok.injEq] at h
    rw [h]

/-- A definition that is accepted with the defaults of `freeze_metric` is normal. -/
theorem normalDefinition_of_ok (hcase : CaseMappings b) {settings : Settings} {raw : Dict}
    {label : String} {d : MetricDefinition}
    (h : normalizeDefinition b settings raw label (freezeDefaults settings) = .ok d) :
  NormalDefinition b d
  := by
  obtain ⟨hcheckId, hmapping, -, -⟩ := normalizeDefinition_ok h
  rw [normalizeDefinition] at h
  obtain ⟨_, -, h⟩ := bind_eq_ok.mp h
  obtain ⟨evaluator, hevaluator, h⟩ := bind_eq_ok.mp h
  obtain ⟨resolvedType, htype, h⟩ := bind_eq_ok.mp h
  obtain ⟨-, -, h⟩ := bind_eq_ok.mp h
  obtain ⟨priority, -, h⟩ := bind_eq_ok.mp h
  obtain ⟨maxAttempts, -, h⟩ := bind_eq_ok.mp h
  simp only at h
  split at h
  case isTrue => cases h
  case isFalse =>
    have hname := definitionEvaluator_resolved hcase hevaluator
    cases h
    constructor
    case checkId_ne => apply definitionCheckId_ne_empty hcheckId
    case checkId_strip => apply definitionCheckId_strip hcheckId
    case evaluator_name => exact hname
    case evaluator_type => apply evaluatorCheckType_ok hname htype
    case mapping => apply normalizeSpec_of_mapping hmapping
    case maxAttempts_pos => apply one_le_atLeastOne
    case policy => apply definitionPolicy_value

/-! ### Normal definitions are left alone -/

section Normal

variable {d : MetricDefinition}

/-- A mapping of normal entries is accepted as it is. -/
theorem validateInputMapping_normal {label : String} {mapping : Dict}
    (h : ∀ entry ∈ mapping, normalizeSpec b label entry.1 entry.2 = .ok entry.2) :
  validateInputMapping b (.dict mapping) label = (mapping, [])
  := by
  induction mapping with
  | nil => rfl
  | cons entry mapping ih =>
    obtain ⟨hentry, hrest⟩ := List.forall_mem_cons.mp h
    obtain ⟨hmapping, hproblems⟩ := Prod.mk.inj (ih hrest)
    simp only [validateInputMapping, List.filterMap_cons, hentry]
    rw [hmapping, hproblems]

/-- The evaluator of a normal definition is found under its name, and its type is the declared
one. -/
theorem normal_evaluator (hcase : CaseMappings b) (h : NormalDefinition b d) (label : String) :
  definitionEvaluator b label d.asDict = .ok d.evaluator
    ∧ evaluatorCheckType b d.evaluator = .ok d.checkType
    ∧ checkDeclaredType b label d.asDict d.evaluator d.checkType = .ok ()
  := by
  have hevaluator : d.asDict.get "evaluator" = .str d.evaluator := by
    simp [MetricDefinition.asDict, Dict.get, List.lookup_cons]
  have htype : d.asDict.get "check_type" = .str d.checkType.value := by
    simp [MetricDefinition.asDict, Dict.get, List.lookup_cons]
  have hne : d.evaluator ≠ "" := by
    intro hempty
    have hlookup := h.evaluator_type
    rw [hempty] at hlookup
    revert hlookup
    cases d.checkType <;> decide +kernel
  have hupper : b.upper d.checkType.value = d.checkType.value := by
    cases d.checkType <;> exact hcase.upper_name _ (by decide +kernel)
  refine ⟨?_, ?_, ?_⟩
  · simp [definitionEvaluator, hevaluator, Json.or, Json.truthy, hne, Builtins.str,
      evaluatorExists, h.evaluator_name, h.evaluator_type]
  · simp [evaluatorCheckType, h.evaluator_name, h.evaluator_type]
  · simp [checkDeclaredType, htype, Builtins.str, hupper, CheckType.ofValue?_value]

/-- A normal definition is accepted as it is. -/
theorem normalizeDefinition_normal (hcase : CaseMappings b) (h : NormalDefinition b d)
    (settings : Settings) (label : String) (defaults : Dict) :
  normalizeDefinition b settings d.asDict label defaults = .ok d
  := by
  obtain ⟨hevaluator, htype, hdeclared⟩ := normal_evaluator hcase h label
  obtain ⟨p, hpolicy⟩ := h.policy
  have hcheckId : definitionCheckId label d.asDict = .ok d.checkId := by
    simp [definitionCheckId, MetricDefinition.asDict, Dict.get, Json.or, Json.truthy,
      h.checkId_ne, h.checkId_strip]
  have hmapping : validateInputMapping b (d.asDict.get "input_mapping") label
      = (d.inputMapping, []) := by
    rw [show d.asDict.get "input_mapping" = .dict d.inputMapping by
      simp [MetricDefinition.asDict, Dict.get, List.lookup_cons]]
    apply validateInputMapping_normal (h.mapping label)
  have hparams : definitionParams label d.asDict = (d.params, []) := by
    simp [definitionParams, MetricDefinition.asDict, Dict.get, List.lookup_cons]
  have hpriority : ∀ default, definitionInt b label d.asDict "priority" default 0
      = .ok (d.priority, []) := by
    simp [definitionInt, MetricDefinition.asDict, List.lookup_cons, Builtins.int]
  have hmaxAttempts : ∀ default standIn,
      definitionInt b label d.asDict "max_attempts" default standIn
        = .ok (d.maxAttempts, []) := by
    simp [definitionInt, MetricDefinition.asDict, List.lookup_cons, Builtins.int]
  have hbounded : atLeastOne label d.maxAttempts = (d.maxAttempts, []) := by
    simp [atLeastOne, Int.not_lt.mpr h.maxAttempts_pos]
  have hmissing : ∀ default, definitionPolicy b label d.asDict default
      = (d.onMissingContext, []) := by
    intro default
    rw [definitionPolicy, show d.asDict.get "on_missing_context" = .str p.value by
      simp [MetricDefinition.asDict, Dict.get, List.lookup_cons, hpolicy],
      normalizePolicy_value hcase, hpolicy]
  have happlies : definitionAppliesWhen label d.asDict = (d.appliesWhen, []) := by
    cases hguard : d.appliesWhen with
    | nil =>
      simp [definitionAppliesWhen, MetricDefinition.asDict, Dict.get, List.lookup_cons, hguard]
    | cons =>
      simp [definitionAppliesWhen, MetricDefinition.asDict, Dict.get, List.lookup_cons, hguard]
  have hdescription : d.asDict.get "description" = d.description := by
    simp [MetricDefinition.asDict, Dict.get, List.lookup_cons]
  simp [normalizeDefinition, hcheckId, hevaluator, htype, hdeclared, hmapping, hparams, hpriority,
    hmaxAttempts, hbounded, hmissing, happlies, hdescription, bind, Except.bind]

end Normal

/-! ### Normal mappings mean the same -/

/-- What an entry leaves in the resolution, but for its trail and its message. -/
def EntryOutcome.answer (outcome : EntryOutcome) :
    Option Json × Option (String × String) × Bool :=
  (outcome.value, outcome.error.map fun e => (e.key, e.code), outcome.missing)

/-- The values of a resolution, the keys it misses, and the keys and codes of its errors. -/
def ResolvedInput.answer (resolved : ResolvedInput) :
    Dict × List String × List (String × String) :=
  (resolved.values, resolved.missingRequired, resolved.errors.map fun e => (e.key, e.code))

/-- The types that the entries of a mapping ask for are texts. -/
def TypesAreTexts (mapping : Json) : Prop :=
  ∀ entries key spec expected, mapping = .dict entries → (key, .dict spec) ∈ entries →
    spec.lookup "type" = some expected → ∃ name, expected = .str name

/-- The tokens of a path are those of the trimmed path. -/
theorem parsePath_strip (path : String) :
  parsePath (strip path) = parsePath path
  := by
  have hsegments : ∀ text, parsePath text = ((split '.' text).map strip).flatMap segmentTokens := by
    intro text
    rw [parsePath, List.flatMap_map]
  rw [hsegments, hsegments, map_strip_split_strip (by decide)]

/-- A trimmed path resolves to what the path does. -/
theorem resolvePath_strip (b : Builtins) (payload : Dict) (path : String) :
  (resolvePath b payload (strip path)).map Resolution.answer
    = (resolvePath b payload path).map Resolution.answer
  := by
  rw [resolvePath, resolvePath, resolveTokens_answer, resolveTokens_answer, parsePath_strip]

/-- Two readings of an entry that differ in the spelling of the path. -/
structure SameReading (b : Builtins) (payload : Dict) (spec spec' : MappingSpec) : Prop where
  path : (resolvePath b payload spec.path).map Resolution.answer
    = (resolvePath b payload spec'.path).map Resolution.answer
  required : spec.required = spec'.required
  expectedType : spec.expectedType = spec'.expectedType
  nullable : spec.nullable = spec'.nullable
  default : spec.default = spec'.default

/-- What an entry leaves depends on the answer of its path only. -/
theorem entryOutcome_answer {key : String} {spec spec' : MappingSpec} {r r' : Resolution}
    (hrequired : spec.required = spec'.required) (hdefault : spec.default = spec'.default)
    (hanswer : r.answer = r'.answer) (checked : Option ErrorCode × Dict) :
  (entryOutcome b key spec r checked).answer = (entryOutcome b key spec' r' checked).answer
  := by
  obtain ⟨hvalue, -⟩ := Prod.mk.inj hanswer
  obtain ⟨code, mismatch⟩ := checked
  cases code <;> simp [entryOutcome, EntryOutcome.answer, hvalue, hrequired, hdefault]

/-- Readings that differ in the spelling of the path have the same outcome. -/
theorem outcome_of_sameReading {payload : Dict} {key : String} {spec spec' : MappingSpec}
    (h : SameReading b payload spec spec') :
  (resolvePath b payload spec.path >>= fun r => checkValue b spec r >>= fun checked =>
      .ok (entryOutcome b key spec r checked)).map EntryOutcome.answer
    = (resolvePath b payload spec'.path >>= fun r => checkValue b spec' r >>= fun checked =>
      .ok (entryOutcome b key spec' r checked)).map EntryOutcome.answer
  := by
  have hpath := h.path
  cases hr : resolvePath b payload spec.path with
  | error e =>
    cases hr' : resolvePath b payload spec'.path with
    | error e' =>
      rw [hr, hr'] at hpath
      exact congrArg Except.error (Except.error.inj hpath)
    | ok r' => simp [hr, hr', Except.map] at hpath
  | ok r =>
    cases hr' : resolvePath b payload spec'.path with
    | error e' => simp [hr, hr', Except.map] at hpath
    | ok r' =>
      have hanswer : r.answer = r'.answer := by
        rw [hr, hr'] at hpath
        exact Except.ok.inj hpath
      obtain ⟨hvalue, hcode⟩ := Prod.mk.inj hanswer
      have hchecked : checkValue b spec r = checkValue b spec' r' := by
        simp [checkValue, hvalue, hcode, h.nullable, h.expectedType]
      simp only [bind, Except.bind, hchecked]
      cases checkValue b spec' r' with
      | error e => rfl
      | ok checked =>
        simp only [Except.map]
        rw [entryOutcome_answer h.required h.default hanswer]

/-- The fields of a normalized entry. -/
theorem lookup_normalizedEntry (b : Builtins) (path : String) (spec : Dict) :
  (normalizedEntry b path spec).lookup "required"
      = (spec.lookup "required").map (fun value => .bool value.truthy)
    ∧ (normalizedEntry b path spec).lookup "nullable"
      = (spec.lookup "nullable").map (fun value => .bool value.truthy)
    ∧ (normalizedEntry b path spec).lookup "type"
      = (spec.lookup "type").map (fun value => .str (b.str value))
    ∧ (normalizedEntry b path spec).lookup "default" = spec.lookup "default"
  := by
  unfold normalizedEntry specField
  cases spec.lookup "required" <;> cases spec.lookup "nullable" <;>
    cases spec.lookup "type" <;> cases spec.lookup "default" <;> simp [List.lookup_cons]

/-- How an entry that is an object is read. -/
theorem readSpec_dict {fields : Dict} {path : String} (allowNull : Bool)
    (hpath : Dict.get fields "path" = .str path) (hne : path ≠ "") :
  readSpec allowNull (.dict fields) = .ok {
    path := path
    required := ((fields.lookup "required").getD (.bool true)).truthy
    expectedType := Dict.get fields "type"
    nullable := ((fields.lookup "nullable").getD (.bool allowNull)).truthy
    default := fields.lookup "default" }
  := by simp only [readSpec, hpath, hne, if_false]

/-- An entry of a mapping that is an object is read as before, but for the spelling of its
path. -/
theorem readSpec_normalizedEntry {path : String} {fields : Dict} (payload : Dict)
    (allowNull : Bool) (hpath : Dict.get fields "path" = .str path) (hblank : strip path ≠ "")
    (htype : ∀ expected, fields.lookup "type" = some expected → ∃ name, expected = .str name) :
  ∃ read read', readSpec allowNull (.dict (normalizedEntry b path fields)) = .ok read
    ∧ readSpec allowNull (.dict fields) = .ok read' ∧ SameReading b payload read read'
  := by
  have hne : path ≠ "" := by
    rintro rfl
    exact hblank (by decide +kernel)
  have hget : Dict.get (normalizedEntry b path fields) "path" = .str (strip path) := by
    simp [normalizedEntry, Dict.get]
  obtain ⟨hrequired, hnullable, hexpected, hdefault⟩ := lookup_normalizedEntry b path fields
  refine ⟨_, _, readSpec_dict allowNull hget hblank, readSpec_dict allowNull hpath hne, ?_⟩
  constructor
  case path => apply resolvePath_strip
  case required =>
    rw [hrequired]
    cases fields.lookup "required" <;> rfl
  case expectedType =>
    rw [Dict.get, Dict.get, hexpected]
    cases hlookup : fields.lookup "type" with
    | none => rfl
    | some expected =>
      obtain ⟨name, rfl⟩ := htype expected hlookup
      rfl
  case nullable =>
    rw [hnullable]
    cases fields.lookup "nullable" <;> rfl
  case default => exact hdefault

/-- An entry of a mapping that is accepted is read as before, but for the spelling of its
path. -/
theorem readSpec_normal {label key : String} {raw spec : Json} (payload : Dict)
    (allowNull : Bool) (h : normalizeSpec b label key raw = .ok spec)
    (htype : ∀ fields expected, raw = .dict fields → fields.lookup "type" = some expected →
      ∃ name, expected = .str name) :
  ∃ read read', readSpec allowNull spec = .ok read ∧ readSpec allowNull raw = .ok read'
    ∧ SameReading b payload read read'
  := by
  rw [normalizeSpec.eq_def] at h
  split at h
  case isTrue => cases h
  case isFalse =>
    split at h
    case h_1 path =>
      split at h
      case isTrue => cases h
      case isFalse =>
        obtain rfl := Except.ok.inj h
        exact ⟨_, _, rfl, rfl, resolvePath_strip b payload path, rfl, rfl, rfl, rfl⟩
    case h_2 fields =>
      split at h
      case h_1 path hpath =>
        split at h
        case isTrue => cases h
        case isFalse hblank =>
          obtain rfl := Except.ok.inj h
          apply readSpec_normalizedEntry payload allowNull hpath hblank
          intro expected
          apply htype fields expected rfl
      case h_2 => cases h
    case h_3 => cases h

/-- An entry of a mapping that is accepted has the outcome it had before. -/
theorem resolveEntry_normal {label key : String} {raw spec : Json} (payload : Dict)
    (allowNull : Bool) (h : normalizeSpec b label key raw = .ok spec)
    (htype : ∀ fields expected, raw = .dict fields → fields.lookup "type" = some expected →
      ∃ name, expected = .str name) :
  (resolveEntry b payload allowNull key spec).map EntryOutcome.answer
    = (resolveEntry b payload allowNull key raw).map EntryOutcome.answer
  := by
  obtain ⟨read, read', hread, hread', hsame⟩ := readSpec_normal payload allowNull h htype
  rw [resolveEntry, resolveEntry, hread, hread']
  apply outcome_of_sameReading hsame

/-- The answer after one more entry depends on the answers. -/
theorem record_answer {resolved resolved' : ResolvedInput} {outcome outcome' : EntryOutcome}
    (h : resolved.answer = resolved'.answer) (houtcome : outcome.answer = outcome'.answer)
    (key : String) :
  (resolved.record key outcome).answer = (resolved'.record key outcome').answer
  := by
  simp only [ResolvedInput.answer, EntryOutcome.answer, Prod.mk.injEq] at h houtcome
  obtain ⟨hvalues, hmissing, herrors⟩ := h
  obtain ⟨hvalue, herror, hmiss⟩ := houtcome
  have htoList : outcome.error.toList.map (fun e => (e.key, e.code))
      = outcome'.error.toList.map fun e => (e.key, e.code) := by
    rw [← Option.toList_map, ← Option.toList_map, herror]
  simp [ResolvedInput.answer, ResolvedInput.record, hvalues, hmissing, herrors, hvalue, hmiss,
    htoList]

/-- Mappings whose entries have the same outcomes give the same answer. -/
theorem foldlM_record_answer {payload : Dict} {allowNull : Bool} {entries entries' : Dict}
    (h : List.Forall₂ (fun entry entry' => entry.1 = entry'.1
      ∧ (resolveEntry b payload allowNull entry.1 entry.2).map EntryOutcome.answer
        = (resolveEntry b payload allowNull entry'.1 entry'.2).map EntryOutcome.answer)
      entries entries')
    {resolved resolved' : ResolvedInput} (hresolved : resolved.answer = resolved'.answer) :
  (entries.foldlM (fun resolved entry =>
      resolveEntry b payload allowNull entry.1 entry.2 >>= fun outcome =>
        .ok (resolved.record entry.1 outcome)) resolved).map ResolvedInput.answer
    = (entries'.foldlM (fun resolved entry =>
      resolveEntry b payload allowNull entry.1 entry.2 >>= fun outcome =>
        .ok (resolved.record entry.1 outcome)) resolved').map ResolvedInput.answer
  := by
  induction h generalizing resolved resolved' with
  | nil => exact congrArg Except.ok hresolved
  | @cons entry entry' _ _ hentry _ ih =>
    obtain ⟨hkey, houtcome⟩ := hentry
    rw [List.foldlM_cons, List.foldlM_cons]
    cases hresult : resolveEntry b payload allowNull entry.1 entry.2 with
    | error e =>
      cases hresult' : resolveEntry b payload allowNull entry'.1 entry'.2 with
      | error e' =>
        rw [hresult, hresult'] at houtcome
        exact congrArg Except.error (Except.error.inj houtcome)
      | ok outcome' => simp [hresult, hresult', Except.map] at houtcome
    | ok outcome =>
      cases hresult' : resolveEntry b payload allowNull entry'.1 entry'.2 with
      | error e' => simp [hresult, hresult', Except.map] at houtcome
      | ok outcome' =>
        rw [hresult, hresult'] at houtcome
        simp only [bind, Except.bind]
        apply ih
        rw [hkey]
        apply record_answer hresolved (Except.ok.inj houtcome)

/-- The entries of a mapping that is accepted have the outcomes they had before. -/
theorem outcomes_normal {label : String} {given mapping : Dict}
    (h : List.Forall₂ (fun raw entry => entry.1 = raw.1
      ∧ normalizeSpec b label raw.1 raw.2 = .ok entry.2) given mapping)
    (htypes : TypesAreTexts (.dict given)) (payload : Dict) (allowNull : Bool) :
  List.Forall₂ (fun entry entry' => entry.1 = entry'.1
    ∧ (resolveEntry b payload allowNull entry.1 entry.2).map EntryOutcome.answer
      = (resolveEntry b payload allowNull entry'.1 entry'.2).map EntryOutcome.answer)
    mapping given
  := by
  induction h with
  | nil => exact .nil
  | @cons raw entry given _ hentry _ ih =>
    obtain ⟨hkey, hspec⟩ := hentry
    constructor
    · use hkey
      rw [hkey]
      apply resolveEntry_normal payload allowNull hspec
      intro fields expected hraw hlookup
      apply htypes _ raw.1 fields expected rfl _ hlookup
      rw [← hraw]
      apply List.mem_cons_self
    · apply ih
      intro entries key fields expected heq hmem
      cases heq
      apply htypes _ key fields expected rfl (List.mem_cons_of_mem _ hmem)

/-- A mapping that is accepted gives the answer it gave before it was normalized. -/
theorem resolveInputMapping_normal {label : String} {given : Json} {mapping : Dict}
    (h : validateInputMapping b given label = (mapping, [])) (htypes : TypesAreTexts given)
    (payload : Dict) (allowNull : Bool) :
  (resolveInputMapping b payload (.dict mapping) allowNull).map ResolvedInput.answer
    = (resolveInputMapping b payload given allowNull).map ResolvedInput.answer
  := by
  cases given with
  | null =>
    obtain ⟨rfl, -⟩ := Prod.mk.inj h
    rfl
  | dict given =>
    have hall := validateInputMapping_dict h
    have htruthy : (Json.dict mapping).truthy = (Json.dict given).truthy := by
      cases hall <;> rfl
    rw [resolveInputMapping, resolveInputMapping, htruthy]
    by_cases hempty : (!(Json.dict given).truthy) = true
    · rw [if_pos hempty, if_pos hempty]
    · rw [if_neg hempty, if_neg hempty]
      apply foldlM_record_answer (outcomes_normal hall htypes payload allowNull) rfl
  | _ => simp [validateInputMapping] at h

/-- Normalization is idempotent, and it keeps what a mapping means. -/
theorem normalization_idempotent (hcase : CaseMappings b) {settings : Settings} {raw : Dict}
    {label : String} {d : MetricDefinition}
    (h : normalizeMetricDefinition b settings (.dict raw) label (some (freezeDefaults settings))
      = .ok d)
    (htypes : TypesAreTexts (raw.get "input_mapping")) :
  (∀ label', normalizeMetricDefinition b settings (.dict d.asDict) label'
      (some (freezeDefaults settings)) = .ok d)
    ∧ ∀ payload allowNull,
      (resolveInputMapping b payload (.dict d.inputMapping) allowNull).map ResolvedInput.answer
        = (resolveInputMapping b payload (raw.get "input_mapping") allowNull).map
          ResolvedInput.answer
  := by
  obtain ⟨-, hmapping, -, -⟩ := normalizeDefinition_ok h
  constructor
  · intro label'
    apply normalizeDefinition_normal hcase (normalDefinition_of_ok hcase h)
  · apply resolveInputMapping_normal hmapping htypes

namespace Demo

/-- A raw metric with an alias, inlined parameters and untrimmed texts. -/
def looseMetric : Dict :=
  [("id", .str " fields "), ("evaluator", .str "required_field"), ("allow_empty", .bool true),
    ("input_mapping", .dict [("agent", .dict [("path", .str " agent_registry.agent_id "),
      ("required", .int 0), ("type", .str "string")])])]

/-- The built-ins keep names in one case. -/
theorem caseMappings : CaseMappings builtins where
  lower_lower _ := rfl
  strip_lower _ := strip_strip _
  lower_name _ _ := rfl
  upper_name _ _ := rfl

end Demo

theorem normalization_idempotent_demo :
  ∃ d, normalizeMetricDefinition Demo.builtins .default (.dict Demo.looseMetric) "metric"
      (some (freezeDefaults .default)) = .ok d
    ∧ normalizeMetricDefinition Demo.builtins .default (.dict d.asDict) "metric"
      (some (freezeDefaults .default)) = .ok d
    ∧ (resolveInputMapping Demo.builtins [] (.dict d.inputMapping) false).map ResolvedInput.answer
      = (resolveInputMapping Demo.builtins [] (Demo.looseMetric.get "input_mapping") false).map
        ResolvedInput.answer
  := by
  have htypes : TypesAreTexts (Demo.looseMetric.get "input_mapping") := by
    intro entries key spec expected hmapping hmem hlookup
    cases hmapping
    simp only [List.mem_cons, Prod.mk.injEq, Json.dict.injEq, List.not_mem_nil, or_false] at hmem
    obtain ⟨-, rfl⟩ := hmem
    simp only [List.lookup_cons] at hlookup
    exact ⟨_, (Option.some.inj hlookup).symm⟩
  obtain ⟨hagain, hsame⟩ := @normalization_idempotent Demo.builtins Demo.caseMappings .default
    Demo.looseMetric "metric" _ rfl htypes
  exact ⟨_, rfl, hagain "metric", hsame [] false⟩

end Evalorch
