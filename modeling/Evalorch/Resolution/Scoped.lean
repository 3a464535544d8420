import Evalorch.Resolution.Ordering
import Evalorch.Resolution.Traversal
import Evalorch.Services.Scoping

/-!
# Scoped payloads

A payload that is scoped to some names has the spans with one of these names as an identity, in
the order they have in the whole trace. A token selects the same span of it as of the payload
when the identity it asks for is one of the names, so a path that starts with such a token walks
the same document.
-/

namespace Evalorch

/-! ### The spans that are left -/

/-- A span with one of the wanted names as an identity. -/
def hasWanted (b : Builtins) (wanted : List String) (span : Dict) : Bool :=
  wanted.any fun name => spanHasIdentity b span name none

/-- The spans with one of some names as an identity; every span when no name is wanted. -/
def limitSpans (b : Builtins) (names : List String) (spans : List Dict) : List Dict :=
  if (wantedNames names).isEmpty then spans else spans.filter (hasWanted b (wantedNames names))

/-- Scoping touches nothing but the trace. -/
theorem get_scopePayloadToSpans (b : Builtins) (payload : Dict) (names : List String)
    {key : String} (h : key ≠ "trace_context") :
  (scopePayloadToSpans b payload names).get key = payload.get key
  := by
  unfold scopePayloadToSpans
  simp only
  split
  case isTrue => rfl
  case isFalse =>
    split
    case h_2 => rfl
    case h_1 =>
      split
      case h_2 => rfl
      case h_1 =>
        split
        case h_2 => rfl
        case h_1 =>
          unfold withSpans
          apply Dict.get_set_of_ne _ _ h

theorem rawSpans_withSpans (payload traceContext trace : Dict) (spans : List Json) :
  rawSpans (withSpans payload traceContext trace spans) = some spans
  := by simp [rawSpans, withSpans]

/-- The entries that are kept are those with a wanted name. -/
theorem spanEntries_keptSpans (b : Builtins) (wanted : List String) (raw : List Json) :
  spanEntries (keptSpans b wanted raw) = (spanEntries raw).filter (hasWanted b wanted)
  := by
  have hkept : (keptSpans b wanted raw).filterMap coerceSpan
      = (raw.filterMap coerceSpan).filter (hasWanted b wanted) := by
    unfold keptSpans
    rw [List.filterMap_filter, List.filter_filterMap]
    apply List.filterMap_congr
    intro entry _
    cases entry with
    | dict span => simp [coerceSpan, hasWanted, Option.filter]
    | _ => rfl
  unfold spanEntries
  rw [hkept, List.filter_comm]

/-- Scoping limits the array of spans of a payload that has one. -/
theorem rawSpans_scopePayloadToSpans (b : Builtins) (payload : Dict) (names : List String) :
  rawSpans (scopePayloadToSpans b payload names)
    = (rawSpans payload).map fun raw =>
        if (wantedNames names).isEmpty then raw else keptSpans b (wantedNames names) raw
  := by
  unfold scopePayloadToSpans
  simp only
  split
  case isTrue hempty => simp
  case isFalse hne =>
    have hraw : ∀ {document : Dict}, rawSpans payload = none →
        document = payload → rawSpans document = (rawSpans payload).map fun raw =>
          keptSpans b (wantedNames names) raw := by
      rintro document hnone rfl
      rw [hnone]
      rfl
    split
    case h_2 hcontext => exact hraw (by simp only [rawSpans]) rfl
    case h_1 traceContext hcontext =>
      split
      case h_2 htrace => exact hraw (by simp only [rawSpans, hcontext]) rfl
      case h_1 trace htrace =>
        split
        case h_2 hspans => exact hraw (by simp only [rawSpans, hcontext, htrace]) rfl
        case h_1 raw hspans =>
          rw [rawSpans_withSpans]
          simp only [rawSpans, hcontext, htrace, hspans]
          rfl

/-- The spans of a scoped payload are those of the payload that are wanted, in the same
order. -/
theorem extractSpans_scopePayloadToSpans (b : Builtins) (payload : Dict)
    (names : List String) :
  extractSpans (scopePayloadToSpans b payload names) = limitSpans b names (extractSpans payload)
  := by
  rw [extractSpans_eq, extractSpans_eq]
  unfold payloadSpans limitSpans
  rw [rawSpans_scopePayloadToSpans]
  cases rawSpans payload with
  | none =>
    cases (wantedNames names).isEmpty <;> rfl
  | some raw =>
    simp only [Option.map_some, Option.getD_some]
    split
    case isTrue => rfl
    case isFalse => rw [spanEntries_keptSpans, orderSpans_filter]

/-! ### Selecting a span -/

/-- An identity in a field is an identity. -/
theorem spanHasIdentity_of_key {b : Builtins} {span : Dict} {wanted key : String}
    (hkey : key ∈ spanIdentityKeys) (h : spanHasIdentity b span wanted (some key) = true) :
  spanHasIdentity b span wanted none = true
  := by
  simp only [spanHasIdentity, Option.map_some, Option.getD_some, List.any_cons, List.any_nil,
    Bool.or_false, Bool.and_eq_true] at h
  simp only [spanHasIdentity, Option.map_none, Option.getD_none, Bool.and_eq_true,
    List.any_eq_true]
  exact ⟨h.1, key, hkey, h.2⟩

/-- Names that a token cannot lose its span to: the identity that the token asks for is one of
them, and the token does not count positions. -/
structure Names (names : List String) (token : String) : Prop where
  unordered : Python.dropPrefix? "order:" token = none
  wanted : (splitSpanSelector token).2 ≠ "" → (splitSpanSelector token).2 ∈ wantedNames names

/-- The spans with an identity that is wanted are all left. -/
theorem filter_limitSpans {b : Builtins} {names : List String} {wanted key : String}
    (hkey : key ∈ spanIdentityKeys) (h : wanted ≠ "" → wanted ∈ wantedNames names)
    (spans : List Dict) :
  (limitSpans b names spans).filter (fun span => spanHasIdentity b span wanted (some key))
    = spans.filter fun span => spanHasIdentity b span wanted (some key)
  := by
  unfold limitSpans
  split
  case isTrue => rfl
  case isFalse =>
    rw [List.filter_filter]
    apply List.filter_congr
    intro span _
    cases hidentity : spanHasIdentity b span wanted (some key) with
    | false => rfl
    | true =>
      have hne : wanted ≠ "" := by
        rintro rfl
        cases hidentity
      simp only [Bool.true_and, hasWanted, List.any_eq_true]
      exact ⟨wanted, h hne, spanHasIdentity_of_key hkey hidentity⟩

/-- A selector is a prefix with an identity field. -/
theorem splitSpanSelector_key {token key wanted : String}
    (h : splitSpanSelector token = (some key, wanted)) :
  key ∈ spanIdentityKeys
  := by
  unfold splitSpanSelector at h
  split at h
  case h_2 => cases h
  case h_1 key' wanted' hfound =>
    cases h
    obtain ⟨key', hkey', hmap⟩ := List.exists_of_findSome?_eq_some hfound
    obtain ⟨wanted', -, heq⟩ := Option.map_eq_some_iff.mp hmap
    cases heq
    exact hkey'

/-- A token without a selector asks for itself. -/
theorem splitSpanSelector_none {token wanted : String}
    (h : splitSpanSelector token = (none, wanted)) :
  wanted = token
  := by
  unfold splitSpanSelector at h
  split at h <;> cases h
  rfl

/-- A token selects the same span of a limited trace, or fails in the same way. -/
theorem findSpan_limitSpans {b : Builtins} {names : List String} {token : String}
    (h : Names names token) (spans : List Dict) :
  findSpan b (limitSpans b names spans) token = findSpan b spans token
  := by
  obtain ⟨hunordered, hwanted⟩ := h
  unfold findSpan
  split
  case h_1 key wanted hsplit =>
    rw [hsplit] at hwanted
    unfold findByField
    rw [filter_limitSpans (splitSpanSelector_key hsplit) hwanted]
  case h_2 wanted hsplit =>
    rw [hsplit, splitSpanSelector_none hsplit] at hwanted
    rw [hunordered]
    unfold findBare
    rw [filter_limitSpans (by decide) hwanted, filter_limitSpans (by decide) hwanted]

/-! ### Naming a span -/

/-- A path that starts with a span other than by its position names the identity of the span. -/
theorem spanTokenFromPath_of_head {path head : String} {rest : List String}
    (hpath : parsePath path = head :: rest) (hreserved : head ∉ reservedSections)
    (horder : Python.dropPrefix? "order:" head = none) :
  (spanTokenFromPath path).filter (· != "")
    = (some (splitSpanSelector head).2).filter (· != "")
  := by
  simp only [spanTokenFromPath, hpath]
  split
  case h_1 key wanted hsplit =>
    rw [hsplit]
    by_cases hempty : wanted = "" <;> simp [hempty, Option.filter]
  case h_2 wanted hsplit =>
    have hspans : head ≠ "spans" := by
      rintro rfl
      exact hreserved (by decide)
    rw [hsplit, splitSpanSelector_none hsplit]
    split
    case h_1 => exact absurd rfl hspans
    case h_2 => simp [hreserved, horder]

/-- A path that names a span after `spans` names what it takes for the identity of the span. -/
theorem spanTokenFromPath_of_spans {path first : String} {tail : List String}
    (hpath : parsePath path = "spans" :: first :: tail) (hwildcard : first ≠ "*")
    (hdigit : Python.isDigit first = false) :
  spanTokenFromPath path = some (splitSpanSelector first).2
  := by
  have hspans : splitSpanSelector "spans" = (none, "spans") := by decide
  simp [spanTokenFromPath, hpath, hspans, hwildcard, hdigit]

/-! ### Paths -/

/-- Tokens that start with a section other than the trace, or with a span that is named. -/
def Selected (names : List String) : List String → Prop
  | [] => True
  | head :: rest =>
    if head = "payload" ∨ head = "trace_context" then False
    else if head = "spans" then
      match rest with
      | [] => False
      | first :: _ => first ≠ "*" ∧ Python.isDigit first = false ∧ Names names first
    else head ∈ reservedSections ∨ Names names head

/-- Such tokens walk the same document of a scoped payload. -/
theorem walkStart_scopePayloadToSpans {b : Builtins} {names tokens : List String}
    (h : Selected names tokens) (payload : Dict) :
  walkStart b (scopePayloadToSpans b payload names) tokens = walkStart b payload tokens
  := by
  cases tokens with
  | nil => rfl
  | cons head rest =>
    simp only [Selected] at h
    split at h
    case isTrue => cases h
    case isFalse hsection =>
      obtain ⟨hpayload, hcontext⟩ := not_or.mp hsection
      simp only [walkStart, hpayload, if_false, get_scopePayloadToSpans b payload names hcontext,
        extractSpans_scopePayloadToSpans]
      split at h
      case isTrue hspans =>
        cases rest with
        | nil => cases h
        | cons first tail =>
          obtain ⟨hwildcard, hdigit, hnames⟩ := h
          simp [hspans, hwildcard, hdigit, findSpan_limitSpans hnames]
      case isFalse hspans =>
        by_cases hreserved : head ∈ reservedSections
        · simp [hspans, hreserved]
        · simp [hspans, hreserved, findSpan_limitSpans (h.resolve_left hreserved)]

/-- Such tokens fail in the same way on a scoped payload. -/
theorem unwalked_scopePayloadToSpans {b : Builtins} {names tokens : List String}
    (h : Selected names tokens) (payload : Dict) :
  unwalked b (scopePayloadToSpans b payload names) tokens = unwalked b payload tokens
  := by
  cases tokens with
  | nil => rfl
  | cons head rest =>
    simp only [Selected] at h
    split at h
    case isTrue => cases h
    case isFalse =>
      simp only [unwalked, extractSpans_scopePayloadToSpans]
      split at h
      case isTrue hspans =>
        cases rest with
        | nil => cases h
        | cons first tail => simp [hspans, findSpan_limitSpans h.2.2]
      case isFalse hspans =>
        by_cases hreserved : head ∈ reservedSections
        · simp [hspans, hreserved]
        · simp [hspans, hreserved, findSpan_limitSpans (h.resolve_left hreserved)]

/-- Such a path resolves to the same value and code on a scoped payload. -/
theorem resolvePath_scopePayloadToSpans {b : Builtins} {names : List String} {path : String}
    (h : Selected names (parsePath path)) (payload : Dict) :
  (resolvePath b (scopePayloadToSpans b payload names) path).map Resolution.answer
    = (resolvePath b payload path).map Resolution.answer
  := by
  unfold resolvePath
  rw [resolveTokens_answer, resolveTokens_answer, walkStart_scopePayloadToSpans h,
    unwalked_scopePayloadToSpans h]

end Evalorch
