import Evalorch.Resolution.Faithfulness
import Evalorch.Services.Scoping

/-!
# Interpreting accepted mappings

A mapping that `normalizeMetricDefinition` accepts has, at each key, text that is not blank. What
the resolver makes of it is another matter: text of dots has no token, and a token may look like
an index and be none. `Interpretable` excludes both, and a normalized mapping resolves without
an exception and without an unsupported path exactly when each of its paths is interpretable.
-/

namespace Evalorch

open Python Transact

/-- A path with a token, whose walk of the payload applies no bad index. -/
def Interpretable (b : Builtins) (payload : Dict) (path : String) : Prop :=
  parsePath path ≠ [] ∧ NoBadIndex b payload (parsePath path)

/-- A mapping resolves in a payload, and none of its keys is reported as unsupported. -/
def Interprets (b : Builtins) (payload : Dict) (mapping : Json) (allowNull : Bool) : Prop :=
  ∃ resolved, resolveInputMapping b payload mapping allowNull = .ok resolved
    ∧ ∀ e ∈ resolved.errors, e.code ≠ ErrorCode.unsupportedMapping.value

/-! ### Normalized mappings -/

/-- An entry as `_validate_input_mapping` leaves it. -/
inductive NormalSpec : Json → String → Prop where
  | text {path : String} (nonempty : path ≠ "") : NormalSpec (.str path) path
  | object {spec : Dict} {path : String} (path_eq : spec.get "path" = .str path)
      (nonempty : path ≠ "") (type : spec.get "type" = .null ∨ ∃ name, spec.get "type" = .str name) :
      NormalSpec (.dict spec) path

/-- The type of a normalized entry is a text. -/
theorem normalizedEntry_type (b : Builtins) (path : String) (spec : Dict) :
  (normalizedEntry b path spec).get "type" = .null
    ∨ ∃ name, (normalizedEntry b path spec).get "type" = .str name
  := by
  unfold normalizedEntry specField Dict.get
  cases spec.lookup "required" <;> cases spec.lookup "nullable" <;>
    cases spec.lookup "type" <;> cases spec.lookup "default" <;> simp [List.lookup_cons]

theorem normalizedEntry_path (b : Builtins) (path : String) (spec : Dict) :
  (normalizedEntry b path spec).get "path" = .str (Python.strip path)
  := by simp [normalizedEntry, Dict.get]

/-- An entry that is accepted is normalized. -/
theorem normalSpec_of_ok {b : Builtins} {label key : String} {raw spec : Json}
    (h : normalizeSpec b label key raw = .ok spec) :
  ∃ path, NormalSpec spec path
  := by
  unfold normalizeSpec at h
  split at h
  case isTrue => cases h
  split at h
  case h_1 path =>
    split at h
    case isTrue => cases h
    case isFalse hne =>
      cases h
      exact ⟨_, .text hne⟩
  case h_2 fields =>
    split at h
    case h_1 path hpath =>
      split at h
      case isTrue => cases h
      case isFalse hne =>
        cases h
        exact ⟨_, .object (normalizedEntry_path b path fields) hne
          (normalizedEntry_type b path fields)⟩
    case h_2 => cases h
  case h_3 => cases h

/-- The mapping of a definition that is accepted has normalized entries. -/
theorem normalSpec_of_definition {b : Builtins} {settings : Settings} {raw : Json}
    {label : String} {defaults : Option Dict} {d : MetricDefinition}
    (h : normalizeMetricDefinition b settings raw label defaults = .ok d) :
  ∀ entry ∈ d.inputMapping, ∃ path, NormalSpec entry.2 path
  := by
  unfold normalizeMetricDefinition at h
  split at h
  case h_2 => cases h
  case h_1 raw =>
    obtain ⟨-, hmapping, -⟩ := normalizeDefinition_ok h
    have hentries := congrArg Prod.fst hmapping
    simp only at hentries
    rw [← hentries]
    unfold validateInputMapping
    split
    case h_1 => simp
    case h_2 mapping _ =>
      intro entry hentry
      obtain ⟨⟨key, given⟩, -, hspec⟩ := List.mem_filterMap.mp hentry
      cases hnormal : normalizeSpec b label key given with
      | error problem => simp [hnormal] at hspec
      | ok spec =>
        simp only [hnormal, Option.some.injEq] at hspec
        subst hspec
        exact normalSpec_of_ok hnormal
    case h_3 => simp

/-! ### One entry -/

theorem ErrorCode.value_injective {c c' : ErrorCode} :
  c.value = c'.value ↔ c = c'
  := by cases c <;> cases c' <;> decide

/-- A walk never ends with an unsupported mapping. -/
theorem reach_ne_unsupported (into : String → Json → Except Exn (Option Json))
    (tokens : List String) (current : Json) :
  (reach into tokens current).2 ≠ some .unsupportedMapping
  := by
  induction tokens generalizing current with
  | nil => simp [reach]
  | cons token remaining ih =>
    rw [reach.eq_def]
    simp only
    split
    case isTrue =>
      split
      case h_1 =>
        split
        case isTrue => simp
        case isFalse =>
          unfold collect
          simp only
          split <;> simp
      case h_2 => simp
    case isFalse =>
      split
      case h_1 => apply ih
      case h_2 => simp

/-- A path with a token that walks nothing ends with another code than an unsupported mapping. -/
theorem unwalked_ne_unsupported (b : Builtins) (payload : Dict) {tokens : List String}
    (h : tokens ≠ []) :
  (unwalked b payload tokens).2 ≠ some .unsupportedMapping
  := by
  have herror : ∀ token,
      some ((findSpan b (extractSpans payload) token).error.getD .missingSpan)
        ≠ some ErrorCode.unsupportedMapping := by
    intro token
    rcases findSpan_error b (extractSpans payload) token with hnone | ⟨hambiguous, -⟩
    · simp [hnone]
    · simp [hambiguous]
  obtain ⟨head, rest, rfl⟩ := List.exists_cons_of_ne_nil h
  unfold unwalked
  simp only
  split
  case isTrue => split <;> simp [herror]
  case isFalse => split <;> simp [herror]

/-- A path resolves, and not to an unsupported mapping, exactly when it is interpretable. -/
theorem resolvePath_interpretable_iff (b : Builtins) (payload : Dict) (path : String) :
  (∃ r, resolvePath b payload path = .ok r ∧ r.code ≠ some .unsupportedMapping)
    ↔ Interpretable b payload path
  := by
  unfold resolvePath Interpretable
  constructor
  · rintro ⟨r, hr, hcode⟩
    refine ⟨?_, noBadIndex_of_resolveTokens ⟨r, hr⟩⟩
    intro hnil
    rw [hnil] at hr
    cases hr
    exact hcode rfl
  · rintro ⟨hne, hindex⟩
    have hanswer := resolveTokens_eq_reach hindex path
    cases hr : resolveTokens b payload path (parsePath path) with
    | error e => simp [hr, Except.map] at hanswer
    | ok r =>
      refine ⟨r, rfl, ?_⟩
      simp only [hr, Except.map, Except.ok.injEq] at hanswer
      have hcode : r.code = _ := congrArg Prod.snd hanswer
      rw [hcode]
      split
      case h_1 => apply reach_ne_unsupported
      case h_2 => apply unwalked_ne_unsupported b payload hne

/-- A normalized entry is read as asking for its path, with a type that is a text if it is
given. -/
theorem readSpec_of_normalSpec {spec : Json} {path : String} (h : NormalSpec spec path)
    (allowNull : Bool) :
  ∃ read, readSpec allowNull spec = .ok read ∧ read.path = path
    ∧ (read.expectedType = .null ∨ ∃ name, read.expectedType = .str name)
  := by
  cases h with
  | text => exact ⟨_, rfl, rfl, .inl rfl⟩
  | object hpath hne htype =>
    simp only [readSpec, hpath, hne, if_false]
    exact ⟨_, rfl, rfl, htype⟩

/-- The check of a value against a type that is a text does not raise, and does not report an
unsupported mapping of its own. -/
theorem checkValue_returns {spec : MappingSpec} (b : Builtins) (r : Resolution)
    (h : spec.expectedType = .null ∨ ∃ name, spec.expectedType = .str name) :
  ∃ checked, checkValue b spec r = .ok checked
    ∧ (checked.1 = some .unsupportedMapping ↔ r.code = some .unsupportedMapping)
  := by
  unfold checkValue
  cases hcode : r.code with
  | some code => exact ⟨_, rfl, Iff.rfl⟩
  | none =>
    simp only
    split
    case isTrue => exact ⟨_, rfl, by simp⟩
    split
    case isTrue => exact ⟨_, rfl, by simp⟩
    case isFalse htruthy =>
      obtain ⟨name, hname⟩ : ∃ name, spec.expectedType = .str name := by
        apply h.resolve_left
        intro hnull
        simp [hnull, Json.truthy] at htruthy
      rw [hname]
      simp only [checkType, bind, Except.bind]
      split <;> exact ⟨_, rfl, by simp⟩

/-- A normalized entry resolves without an unsupported mapping exactly when its path is
interpretable. -/
theorem resolveEntry_iff {spec : Json} {path : String} (h : NormalSpec spec path)
    (b : Builtins) (payload : Dict) (allowNull : Bool) (key : String) :
  (∃ outcome, resolveEntry b payload allowNull key spec = .ok outcome
      ∧ ∀ e ∈ outcome.error, e.code ≠ ErrorCode.unsupportedMapping.value)
    ↔ Interpretable b payload path
  := by
  obtain ⟨read, hread, rfl, htype⟩ := readSpec_of_normalSpec h allowNull
  have hcode : ∀ (r : Resolution) (checked : Option ErrorCode × Dict),
      (∀ e ∈ (entryOutcome b key read r checked).error,
          e.code ≠ ErrorCode.unsupportedMapping.value)
        ↔ checked.1 ≠ some .unsupportedMapping := by
    rintro r ⟨code, mismatch⟩
    cases code <;> simp [entryOutcome, ErrorCode.value_injective]
  rw [← resolvePath_interpretable_iff]
  unfold resolveEntry
  simp only [hread]
  constructor
  · rintro ⟨outcome, houtcome, herror⟩
    obtain ⟨r, hr, houtcome⟩ := Transact.bind_eq_ok.mp houtcome
    obtain ⟨checked, hchecked, hiff⟩ := checkValue_returns b r htype
    rw [hchecked] at houtcome
    cases houtcome
    refine ⟨r, hr, ?_⟩
    rw [ne_eq, ← hiff]
    apply (hcode r checked).mp herror
  · rintro ⟨r, hr, hne⟩
    obtain ⟨checked, hchecked, hiff⟩ := checkValue_returns b r htype
    refine ⟨entryOutcome b key read r checked, ?_, ?_⟩
    · rw [hr]
      change (checkValue b read r >>= fun checked => _) = _
      rw [hchecked]
      rfl
    · rw [hcode, ne_eq, hiff]
      apply hne

/-! ### Whole mappings -/

/-- The loop over a mapping returns, with errors that all satisfy `P`, when those it starts from
do and each entry resolves with such an error at most. -/
theorem foldlM_record_iff (P : ResolutionError → Prop)
    (resolve : String × Json → Except Exn EntryOutcome) (entries : Dict)
    (resolved : ResolvedInput) :
  (∃ result, entries.foldlM (fun resolved entry => do
        let outcome ← resolve entry
        .ok (resolved.record entry.1 outcome)) resolved = .ok result
      ∧ ∀ e ∈ result.errors, P e)
    ↔ (∀ e ∈ resolved.errors, P e)
      ∧ ∀ entry ∈ entries, ∃ outcome, resolve entry = .ok outcome ∧ ∀ e ∈ outcome.error, P e
  := by
  induction entries generalizing resolved with
  | nil => simp [pure, Except.pure]
  | cons entry entries ih =>
    rw [List.forall_mem_cons, List.foldlM_cons]
    cases resolve entry with
    | error e => simp [bind, Except.bind]
    | ok outcome =>
      have herrors : (∀ e ∈ (resolved.record entry.1 outcome).errors, P e)
          ↔ (∀ e ∈ resolved.errors, P e) ∧ ∀ e ∈ outcome.error, P e := by
        simp [ResolvedInput.record, or_imp, forall_and]
      have hrest := ih (resolved.record entry.1 outcome)
      rw [herrors, and_assoc] at hrest
      simpa [bind, Except.bind] using hrest

/-- The path of a normalized entry. -/
theorem specPath_of_normalSpec {spec : Json} {path : String} (h : NormalSpec spec path) :
  specPath spec = some path
  := by
  cases h with
  | text => rfl
  | object hpath => simp [specPath, hpath]

/-- A normalized mapping resolves in a payload, without an unsupported path, exactly when each
of its paths has a token and applies no bad index. -/
theorem mapping_interprets_iff {b : Builtins} {settings : Settings} {raw : Json} {label : String}
    {defaults : Option Dict} {d : MetricDefinition}
    (h : normalizeMetricDefinition b settings raw label defaults = .ok d) (payload : Dict)
    (allowNull : Bool) :
  Interprets b payload (.dict d.inputMapping) allowNull
    ↔ ∀ path ∈ mappedPaths (.dict d.inputMapping), Interpretable b payload path
  := by
  have hnormal := normalSpec_of_definition h
  have hpaths : (∀ path ∈ mappedPaths (.dict d.inputMapping), Interpretable b payload path)
      ↔ ∀ entry ∈ d.inputMapping, ∃ outcome,
          resolveEntry b payload allowNull entry.1 entry.2 = .ok outcome
            ∧ ∀ e ∈ outcome.error, e.code ≠ ErrorCode.unsupportedMapping.value := by
    simp only [mappedPaths, List.mem_filterMap, forall_exists_index, and_imp]
    constructor
    · intro hall entry hentry
      obtain ⟨path, hpath⟩ := hnormal entry hentry
      rw [resolveEntry_iff hpath]
      apply hall path entry hentry (specPath_of_normalSpec hpath)
    · intro hall path entry hentry hspec
      obtain ⟨path', hpath⟩ := hnormal entry hentry
      rw [specPath_of_normalSpec hpath] at hspec
      cases hspec
      exact (resolveEntry_iff hpath b payload allowNull entry.1).mp (hall entry hentry)
  rw [hpaths]
  unfold Interprets resolveInputMapping
  split
  case isTrue hempty =>
    have hnil : d.inputMapping = [] := by simpa [Json.truthy] using hempty
    rw [hnil]
    exact ⟨fun _ => by simp, fun _ => ⟨_, rfl, by simp [ResolvedInput.empty]⟩⟩
  case isFalse =>
    rw [foldlM_record_iff (fun e => e.code ≠ ErrorCode.unsupportedMapping.value)
      (fun entry => resolveEntry b payload allowNull entry.1 entry.2)]
    simp [ResolvedInput.empty]

namespace Demo

/-- A raw metric that maps one value. -/
def metric (path : String) : Json :=
  .dict [("check_id", .str "check"), ("evaluator", .str "required_fields"),
    ("input_mapping", .dict [("value", .str path)])]

/-- The definition of that metric. -/
def definition (path : String) : Except Exn MetricDefinition :=
  normalizeMetricDefinition builtins .default (metric path) "" none

/-- A payload with an empty list. -/
def listing : Dict :=
  [("correlation", .dict [("items", .list [])])]

/-- A payload with a list of two items. -/
def twoItems : Dict :=
  [("correlation", .dict [("items", .list [.dict [("id", .int 1)], .dict [("id", .int 2)]])])]

end Demo

theorem mapping_interprets_iff_index :
  ∃ d, Demo.definition "correlation.items.1.id" = .ok d
    ∧ mappedPaths (.dict d.inputMapping) = ["correlation.items.1.id"]
    ∧ Interprets Demo.builtins Demo.twoItems (.dict d.inputMapping) false
  := by
  obtain ⟨d, h, hpaths⟩ : ∃ d, Demo.definition "correlation.items.1.id" = .ok d
      ∧ mappedPaths (.dict d.inputMapping) = ["correlation.items.1.id"] := ⟨_, rfl, rfl⟩
  refine ⟨d, h, hpaths, (mapping_interprets_iff h Demo.twoItems false).mpr ?_⟩
  intro path hpath
  obtain rfl := List.mem_singleton.mp (hpaths ▸ hpath)
  constructor
  · decide +kernel
  · have hindices : ∀ a ∈ pathApplications Demo.builtins Demo.twoItems
        (parsePath "correlation.items.1.id"),
        Python.isDigit a.1 = true → Python.int? a.1 ≠ none := by decide +kernel
    intro a ha hbad
    unfold badIndex at hbad
    split at hbad
    · exact hindices a ha hbad.1 hbad.2
    · exact hbad

/-- A path of one dot is accepted and unsupported; a path with a superscript digit is accepted
and raises. -/
theorem accepted_not_interpreted :
  (∃ d, Demo.definition "." = .ok d
      ∧ ¬ Interprets Demo.builtins Demo.listing (.dict d.inputMapping) false)
    ∧ ∃ d, Demo.definition "correlation.items.²" = .ok d
        ∧ ¬ Interprets Demo.builtins Demo.listing (.dict d.inputMapping) false
  := by
  constructor
  · refine ⟨_, rfl, ?_⟩
    rintro ⟨resolved, hresolved, hcodes⟩
    cases hresolved
    exact hcodes _ List.mem_cons_self rfl
  · refine ⟨_, rfl, ?_⟩
    rintro ⟨resolved, hresolved, -⟩
    cases hresolved

end Evalorch
