import Evalorch.Resolution.Ordering
import Evalorch.Resolution.Scoped

/-!
# Selection by identity

A token that selects a span by an identity looks for the spans that match in a field, and takes one
only when no other matches. So it does not matter in which order the spans come, neither in the
trace nor among those that started together.
-/

namespace Evalorch

section Perm

variable {α : Type} {xs ys : List α}

/-- Two arrangements of the same elements have none, the same one, or more than one. -/
theorem perm_cases (h : xs.Perm ys) :
  (xs = [] ∧ ys = []) ∨ (∃ x, xs = [x] ∧ ys = [x])
    ∨ ∃ x x' xs' y y' ys', xs = x :: x' :: xs' ∧ ys = y :: y' :: ys'
  := by
  match xs, ys with
  | [], ys => exact .inl ⟨rfl, h.nil_eq.symm⟩
  | [x], ys => exact .inr (.inl ⟨x, rfl, (List.singleton_perm.mp h).symm⟩)
  | x :: x' :: xs', [] => cases h.eq_nil
  | x :: x' :: xs', [y] => cases List.perm_singleton.mp h
  | x :: x' :: xs', y :: y' :: ys' => exact .inr (.inr ⟨x, x', xs', y, y', ys', rfl, rfl⟩)

end Perm

variable {b : Builtins} {spans spans' : List Dict} {token : String}

/-! ### The order of the spans -/

/-- The spans that match in a field, whatever their order. -/
theorem findByField_perm (h : spans'.Perm spans) (key wanted : String) :
  findByField b spans' key wanted = findByField b spans key wanted
  := by
  unfold findByField
  rcases perm_cases (h.filter fun span => spanHasIdentity b span wanted (some key)) with
    ⟨hs', hs⟩ | ⟨span, hs', hs⟩ | ⟨_, _, _, _, _, _, hs', hs⟩
  all_goals rw [hs', hs]

/-- The span that a bare token names, whatever their order. -/
theorem findBare_perm (h : spans'.Perm spans) (token : String) :
  findBare b spans' token = findBare b spans token
  := by
  unfold findBare
  rcases perm_cases (h.filter fun span => spanHasIdentity b span token (some "name")) with
    ⟨hs', hs⟩ | ⟨span, hs', hs⟩ | ⟨_, _, _, _, _, _, hs', hs⟩
  · rw [hs', hs]
    rcases perm_cases (h.filter fun span => spanHasIdentity b span token (some "span_id")) with
      ⟨hi', hi⟩ | ⟨span, hi', hi⟩ | ⟨_, _, _, _, _, _, hi', hi⟩
    all_goals rw [hi', hi]
  · rw [hs', hs]
  · rw [hs', hs]

/-- A token selects by a field, or it is bare. -/
theorem findSpan_eq (b : Builtins) (spans : List Dict)
    (htoken : Python.dropPrefix? "order:" token = none) :
  findSpan b spans token
    = match splitSpanSelector token with
      | (some key, wanted) => findByField b spans key wanted
      | (none, _) => findBare b spans token
  := by
  unfold findSpan
  split <;> simp_all

/-- A token that does not count positions selects the same span whatever the order of the
spans. -/
theorem findSpan_perm (h : spans'.Perm spans) (htoken : Python.dropPrefix? "order:" token = none) :
  findSpan b spans' token = findSpan b spans token
  := by
  rw [findSpan_eq b spans' htoken, findSpan_eq b spans htoken]
  split
  · apply findByField_perm h
  · apply findBare_perm h

/-! ### One match -/

/-- The identity that a token asks for first: that of its selector, or the name. -/
def firstKey (token : String) : String :=
  (splitSpanSelector token).1.getD "name"

/-- The spans of a list that match a token through a selector. -/
def matchingSpans (b : Builtins) (spans : List Dict) (token selector : String) : List Dict :=
  spans.filter fun span => spanHasIdentity b span (splitSpanSelector token).2 (some selector)

/-- A span that is found in a field is the only one that matches there. -/
theorem filter_of_findByField {span : Dict} {key wanted : String}
    (h : (findByField b spans key wanted).span = some span) :
  (findByField b spans key wanted).selector = some key
    ∧ spans.filter (fun span => spanHasIdentity b span wanted (some key)) = [span]
  := by
  unfold findByField at h ⊢
  cases hmatching : spans.filter fun span => spanHasIdentity b span wanted (some key) with
  | nil => simp [hmatching] at h
  | cons found others =>
    cases others with
    | nil =>
      simp only [hmatching, Option.some.injEq] at h
      simp [h]
    | cons other others => simp [hmatching] at h

/-- A span that a bare token finds is the only one with that name, or with that identifier. -/
theorem filter_of_findBare {span : Dict} (h : (findBare b spans token).span = some span) :
  ∃ key, (findBare b spans token).selector = some key
    ∧ spans.filter (fun span => spanHasIdentity b span token (some key)) = [span]
  := by
  unfold findBare at h ⊢
  cases hnames : spans.filter fun span => spanHasIdentity b span token (some "name") with
  | nil =>
    simp only [hnames] at h ⊢
    split at h
    case h_1 found hids =>
      cases h
      exact ⟨"span_id", by simp, hids⟩
    case h_2 => cases h
  | cons found others =>
    cases others with
    | nil =>
      simp only [hnames, Option.some.injEq] at h ⊢
      subst h
      exact ⟨"name", rfl, hnames⟩
    | cons other others => simp [hnames] at h

/-- A span that is found is the only one that matches through the selector that is reported. -/
theorem matching_of_findSpan {span : Dict} (htoken : Python.dropPrefix? "order:" token = none)
    (h : (findSpan b spans token).span = some span) :
  ∃ selector, (findSpan b spans token).selector = some selector
    ∧ matchingSpans b spans token selector = [span]
  := by
  unfold matchingSpans
  rw [findSpan_eq b spans htoken] at h ⊢
  split at h
  case h_1 key wanted hsplit =>
    obtain ⟨hselector, hmatching⟩ := filter_of_findByField h
    simp only [hsplit, hselector]
    exact ⟨key, rfl, hmatching⟩
  case h_2 wanted hsplit =>
    obtain ⟨key, hselector, hmatching⟩ := filter_of_findBare h
    simp only [hsplit, hselector, splitSpanSelector_none hsplit]
    exact ⟨key, rfl, hmatching⟩

/-- A selector or a name that matches several spans yields none of them. -/
theorem findSpan_of_several (htoken : Python.dropPrefix? "order:" token = none)
    (h : 1 < (matchingSpans b spans token (firstKey token)).length) :
  (findSpan b spans token).span = none
  := by
  unfold matchingSpans firstKey at h
  rw [findSpan_eq b spans htoken]
  split
  case h_1 key wanted hsplit =>
    rw [hsplit] at h
    cases hspan : (findByField b spans key wanted).span with
    | none => rfl
    | some span =>
      obtain ⟨-, hmatching⟩ := filter_of_findByField hspan
      simp [hmatching] at h
  case h_2 wanted hsplit =>
    rw [hsplit, splitSpanSelector_none hsplit] at h
    unfold findBare
    cases hnames : spans.filter fun span => spanHasIdentity b span token (some "name") with
    | nil => simp [hnames] at h
    | cons found others =>
      cases others with
      | nil => simp [hnames] at h
      | cons other others => rfl

/-! ### Paths -/

/-- Tokens that start with a span that is selected by an identity. -/
def SelectsSpan : List String → Prop
  | [] => False
  | head :: rest =>
    if head = "spans" then
      match rest with
      | [] => False
      | first :: _ => first ≠ "*" ∧ Python.isDigit first = false
          ∧ Python.dropPrefix? "order:" first = none
    else head ∉ reservedSections ∧ Python.dropPrefix? "order:" head = none

section Paths

variable {payload payload' : Dict} {tokens : List String}

/-- Such tokens walk the same span whatever the order of the spans. -/
theorem walkStart_perm (h : (extractSpans payload').Perm (extractSpans payload))
    (htokens : SelectsSpan tokens) :
  walkStart b payload' tokens = walkStart b payload tokens
  := by
  cases tokens with
  | nil => rfl
  | cons head rest =>
    by_cases hspans : head = "spans"
    · subst hspans
      cases rest with
      | nil => simp [SelectsSpan] at htokens
      | cons first tail =>
        simp only [SelectsSpan, if_true] at htokens
        obtain ⟨hwildcard, hdigit, hordered⟩ := htokens
        simp [walkStart, hwildcard, hdigit, findSpan_perm h hordered]
    · simp only [SelectsSpan, if_neg hspans] at htokens
      obtain ⟨hreserved, hordered⟩ := htokens
      have hpayload : head ≠ "payload" := by
        rintro rfl
        apply hreserved (by decide)
      simp [walkStart, hpayload, hspans, hreserved, findSpan_perm h hordered]

/-- Such tokens fail in the same way whatever the order of the spans. -/
theorem unwalked_perm (h : (extractSpans payload').Perm (extractSpans payload))
    (htokens : SelectsSpan tokens) :
  unwalked b payload' tokens = unwalked b payload tokens
  := by
  cases tokens with
  | nil => rfl
  | cons head rest =>
    by_cases hspans : head = "spans"
    · subst hspans
      cases rest with
      | nil => simp [SelectsSpan] at htokens
      | cons first tail =>
        simp only [SelectsSpan, if_true] at htokens
        simp [unwalked, findSpan_perm h htokens.2.2]
    · simp only [SelectsSpan, if_neg hspans] at htokens
      obtain ⟨hreserved, hordered⟩ := htokens
      simp [unwalked, hspans, hreserved, findSpan_perm h hordered]

/-- The spans of a payload whose array of spans is rearranged. -/
theorem extractSpans_withSpans_perm {traceContext trace : Dict} {raw raw' : List Json}
    (hraw : rawSpans payload = some raw) (hperm : raw'.Perm raw) :
  (extractSpans (withSpans payload traceContext trace raw')).Perm (extractSpans payload)
  := by
  have hentries : (spanEntries raw').Perm (spanEntries raw) :=
    (hperm.filterMap coerceSpan).filter _
  rw [extractSpans, extractSpans, rawSpans_withSpans, hraw]
  exact (orderSpans_perm _).trans (hentries.trans (orderSpans_perm _).symm)

/-- Selection by an identity does not depend on the order of the array of spans: a path resolves to
the same value and code. A span that is found is the only one that matches through the selector
that is reported, and what matches several spans through its selector, or by name, yields none. -/
theorem selection_by_identity {traceContext trace : Dict} {raw raw' : List Json}
    (hcontext : payload.get "trace_context" = .dict traceContext)
    (htrace : Dict.get traceContext "trace" = .dict trace)
    (hspans : Dict.get trace "spans" = .list raw) (hperm : raw'.Perm raw) :
  (∀ path, SelectsSpan (parsePath path) →
    (resolvePath b (withSpans payload traceContext trace raw') path).map Resolution.answer
      = (resolvePath b payload path).map Resolution.answer)
    ∧ ∀ spans token, Python.dropPrefix? "order:" token = none →
      (∀ span, (findSpan b spans token).span = some span →
        ∃ selector, (findSpan b spans token).selector = some selector
          ∧ matchingSpans b spans token selector = [span])
      ∧ (1 < (matchingSpans b spans token (firstKey token)).length →
        (findSpan b spans token).span = none)
  := by
  have hraw : rawSpans payload = some raw := by simp only [rawSpans, hcontext, htrace, hspans]
  have hsame : (extractSpans (withSpans payload traceContext trace raw')).Perm
      (extractSpans payload) := extractSpans_withSpans_perm hraw hperm
  constructor
  · intro path hpath
    unfold resolvePath
    rw [resolveTokens_answer, resolveTokens_answer, walkStart_perm hsame hpath,
      unwalked_perm hsame hpath]
  · intro spans token htoken
    exact ⟨fun span => matching_of_findSpan htoken, findSpan_of_several htoken⟩

end Paths

namespace Demo

/-- Two spans, of which the one that is named started last. -/
def namedSpans : List Json :=
  [.dict (span "review" "2024-01-01T00:00:00"), .dict (span "draft" "2024-01-02T00:00:00")]

/-- A trace with these spans. -/
def namedTrace : Dict :=
  [("spans", .list namedSpans)]

end Demo

/-- A draft is found by its name in both orders, it is the only one, and neither of two is. -/
theorem selection_by_identity_demo :
  (resolvePath Demo.builtins
      (withSpans [("trace_context", .dict [("trace", .dict Demo.namedTrace)])]
        [("trace", .dict Demo.namedTrace)] Demo.namedTrace Demo.namedSpans.reverse)
      "name:draft.started_at").map Resolution.answer
    = (resolvePath Demo.builtins [("trace_context", .dict [("trace", .dict Demo.namedTrace)])]
      "name:draft.started_at").map Resolution.answer
    ∧ (∃ selector,
      (findSpan Demo.builtins [Demo.span "draft" ""] "draft").selector = some selector
        ∧ matchingSpans Demo.builtins [Demo.span "draft" ""] "draft" selector
          = [Demo.span "draft" ""])
    ∧ (findSpan Demo.builtins [Demo.span "draft" "", Demo.span "draft" ""] "draft").span = none
  := by
  have hselects : SelectsSpan (parsePath "name:draft.started_at") := by
    have htokens : parsePath "name:draft.started_at" = ["name:draft", "started_at"] := by
      decide +kernel
    rw [htokens]
    simp only [SelectsSpan]
    decide
  obtain ⟨hpaths, htokens⟩ := @selection_by_identity Demo.builtins
    [("trace_context", .dict [("trace", .dict Demo.namedTrace)])] [("trace", .dict Demo.namedTrace)]
    Demo.namedTrace Demo.namedSpans _ rfl rfl rfl (List.reverse_perm _)
  have hfound : (findSpan Demo.builtins [Demo.span "draft" ""] "draft").span
      = some (Demo.span "draft" "") := rfl
  have hbare : Python.dropPrefix? "order:" "draft" = none := by decide
  refine ⟨?_, ?_, ?_⟩
  · apply hpaths "name:draft.started_at" hselects
  · apply (htokens _ _ hbare).1 _ hfound
  · apply (htokens _ _ hbare).2
    decide

end Evalorch
