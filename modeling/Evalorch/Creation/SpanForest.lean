import Evalorch.Graph.Ancestry
import Evalorch.Services.PayloadValidation
import Evalorch.Transact.Program

/-!
# Forests of spans

The spans of a trace name their parents by identifier, as written, and identifiers are compared
after trimming. When each span passes the checks of its own fields, the check of the tree
accepts exactly the lists in which the chain of parents of every span reaches a root.
-/

namespace Evalorch

open Ancestry Transact

variable {b : Builtins} {label place traceId : String} {spans : List Dict}

/-! ### Links -/

/-- The identifier of a span, trimmed. -/
def spanIdOf (span : Dict) : String :=
  match span.get "span_id" with
  | .str spanId => Python.strip spanId
  | _ => ""

/-- The parent that a span names, as written. -/
def parentIdOf (span : Dict) : Option String :=
  match span.get "parent_span_id" with
  | .str parentId => some parentId
  | _ => none

/-- Spans by their trimmed identifiers. -/
def spansById (spans : List Dict) : List (String × Dict) :=
  spans.map fun span => (spanIdOf span, span)

/-- The span that an identifier finds. -/
def spanWithId (spans : List Dict) (spanId : String) : Option Dict :=
  (spansById spans).lookup spanId

/-- The chain of parents of every span reaches a span without a parent. -/
def SpanForest (spans : List Dict) : Prop :=
  ∀ span ∈ spans, ReachesRoot parentIdOf (spanWithId spans) span

/-- A span that passes the checks of its own fields in a trace, wherever it stands. -/
def PassesFieldChecks (b : Builtins) (traceId : String) (span : Dict) : Prop :=
  ∃ label place spanId, validateSpan b label traceId [] place span = .ok spanId

/-! ### The fields of a span -/

/-- A required text is the trimmed text of its field. -/
theorem requireText_eq_ok {container : Dict} {key value : String} :
  requireText container key place = .ok value
    ↔ ∃ text, container.get key = .str text ∧ Python.strip text ≠ "" ∧ Python.strip text = value
  := by
  rw [requireText]
  cases container.get key with
  | str text => by_cases hblank : Python.strip text = "" <;> simp [hblank]
  | _ => simp

/-- A required text does not depend on how it is called. -/
theorem requireTexts_eq_ok {container : Dict} {keys : List String} {u : Unit} :
  requireTexts container place keys = .ok u
    ↔ ∀ key ∈ keys, ∃ text, container.get key = .str text ∧ Python.strip text ≠ ""
  := by
  induction keys with
  | nil => simp [requireTexts]
  | cons key keys ih => simp [requireTexts, bind_eq_ok, requireText_eq_ok, ih]

/-- A check passes exactly when its condition holds. -/
theorem requireThat_eq_ok {condition : Bool} {message : String} {u : Unit} :
  requireThat condition message = .ok u ↔ condition = true
  := by cases condition <;> simp [requireThat]

/-- Two texts pass the check exactly when they are the same. -/
theorem requireSame_eq_ok {left right field : String} {u : Unit} :
  requireSame b left right label field = .ok u ↔ left = right
  := by
  rw [requireSame]
  split <;> simp_all

/-- A span that passes its field checks passes them among any spans of which none has its
identifier. -/
theorem PassesFieldChecks.validateSpan {span : Dict} (h : PassesFieldChecks b traceId span)
    {byId : List (String × Dict)} (hnew : byId.lookup (spanIdOf span) = none) :
  validateSpan b label traceId byId place span = .ok (spanIdOf span)
  := by
  obtain ⟨label', place', spanId, h⟩ := h
  simp only [Evalorch.validateSpan, bind_eq_ok, requireText_eq_ok, requireTexts_eq_ok,
    requireThat_eq_ok, requireSame_eq_ok] at h ⊢
  obtain ⟨_, ⟨text, htext, hblank, rfl⟩, hrest⟩ := h
  have hid : spanIdOf span = Python.strip text := by rw [spanIdOf, htext]
  rw [hid] at hnew ⊢
  simp only [exists_const, List.lookup_nil, Option.isNone_none, true_and, Except.ok.injEq]
    at hrest ⊢
  obtain ⟨hspan, trace, htrace, htraceId, hsame, hfields⟩ := hrest
  refine ⟨_, ⟨text, htext, hblank, rfl⟩, hspan, by rw [hnew]; rfl, trace, htrace, htraceId,
    hsame, ?_⟩
  obtain ⟨hhas, hparent, name, hname, htexts, hnumber, herror, hattributes, hevents, hlinks, -⟩ :=
    hfields
  exact ⟨hhas, hparent, name, hname, htexts, hnumber, herror, hattributes, hevents, hlinks, rfl⟩

/-- A span that passes its field checks names no parent, or one by a text. -/
theorem PassesFieldChecks.parent {span : Dict} (h : PassesFieldChecks b traceId span) :
  span.get "parent_span_id" = .null ∧ parentIdOf span = none
    ∨ ∃ parentId, span.get "parent_span_id" = .str parentId ∧ parentIdOf span = some parentId
  := by
  obtain ⟨label, place, spanId, h⟩ := h
  simp only [Evalorch.validateSpan, bind_eq_ok, requireThat_eq_ok, exists_const] at h
  obtain ⟨-, -, -, -, -, -, -, -, -, -, hparent, -⟩ := h
  rw [parentIdOf]
  cases hget : span.get "parent_span_id" <;> simp_all [isParentId]

/-- A span that passes its field checks has a text for its identifier. -/
theorem PassesFieldChecks.spanId {span : Dict} (h : PassesFieldChecks b traceId span) :
  ∃ text, span.get "span_id" = .str text ∧ spanIdOf span = Python.strip text
  := by
  obtain ⟨label, place, spanId, h⟩ := h
  simp only [Evalorch.validateSpan, bind_eq_ok, requireText_eq_ok] at h
  obtain ⟨_, ⟨text, htext, -⟩, -⟩ := h
  exact ⟨text, htext, by rw [spanIdOf, htext]⟩

/-! ### The spans by their identifiers -/

/-- An identifier finds one of the spans, whose identifier it is. -/
theorem mem_of_spanWithId {spanId : String} {span : Dict}
    (h : spanWithId spans spanId = some span) :
  span ∈ spans ∧ spanIdOf span = spanId
  := by
  obtain ⟨before, after, heq, -⟩ := List.lookup_eq_some_iff.mp h
  have hmem : (spanId, span) ∈ spansById spans := by simp [heq]
  obtain ⟨_, hspan, hpair⟩ := List.mem_map.mp hmem
  obtain ⟨rfl, rfl⟩ := Prod.mk.inj hpair
  exact ⟨hspan, rfl⟩

/-- When the identifiers are distinct, that of a span finds it. -/
theorem spanWithId_self (hids : (spans.map spanIdOf).Nodup) {span : Dict} (h : span ∈ spans) :
  spanWithId spans (spanIdOf span) = some span
  := by
  induction spans with
  | nil => simp at h
  | cons first rest ih =>
    obtain ⟨hfirst, hrest⟩ := List.nodup_cons.mp hids
    rcases List.mem_cons.mp h with rfl | hmem
    · simp [spanWithId, spansById]
    · have hne : spanIdOf span ≠ spanIdOf first := fun heq =>
        hfirst (heq ▸ List.mem_map_of_mem hmem)
      have hbeq : (spanIdOf span == spanIdOf first) = false := by simpa using hne
      simpa [spanWithId, spansById, List.lookup_cons, hbeq] using ih hrest hmem

/-- The loop over the spans collects all of them by their identifiers. -/
theorem validateSpans_eq (hfields : ∀ span ∈ spans, PassesFieldChecks b traceId span)
    (hids : (spans.map spanIdOf).Nodup) (index : ℕ) (byId : List (String × Dict))
    (hnew : ∀ span ∈ spans, byId.lookup (spanIdOf span) = none) :
  validateSpans b label traceId index byId (spans.map .dict) = .ok (byId ++ spansById spans)
  := by
  induction spans generalizing index byId with
  | nil => simp [validateSpans, spansById]
  | cons span rest ih =>
    obtain ⟨hspan, hrest⟩ := List.nodup_cons.mp hids
    rw [List.map_cons, validateSpans,
      (hfields span List.mem_cons_self).validateSpan (hnew span List.mem_cons_self)]
    simp only [bind, Except.bind]
    rw [ih (fun other hmem => hfields other (List.mem_cons_of_mem _ hmem)) hrest]
    · simp [spansById]
    · intro other hmem
      have hne : spanIdOf other ≠ spanIdOf span := fun heq =>
        hspan (heq ▸ List.mem_map_of_mem hmem)
      have hbeq : (spanIdOf other == spanIdOf span) = false := by simpa using hne
      rw [List.lookup_append, hnew other (List.mem_cons_of_mem _ hmem)]
      simp [List.lookup_cons, hbeq]

/-! ### The walk to the root -/

/-- A walk that does not return raises an error of the validation. -/
theorem walkParents_error (byId : List (String × Dict)) (current : Dict) (seen : List String)
    {raised : Exn} (h : walkParents b label byId current seen = .error raised) :
  ∃ message, raised = payloadValidationError message
  := by
  fun_induction walkParents b label byId current seen with
  | case1 => simp at h
  | case2 => exact ⟨_, (Except.error.inj h).symm⟩
  | case3 => exact ⟨_, (Except.error.inj h).symm⟩
  | case4 => exact ⟨_, (Except.error.inj h).symm⟩
  | case5 _ _ _ _ _ _ _ _ ih => apply ih h

/-- The step of a walk from a span that names a parent. -/
theorem walkParents_step {byId : List (String × Dict)} {current : Dict} {seen : List String}
    {parentId : String} (hparent : current.get "parent_span_id" = .str parentId) :
  walkParents b label byId current seen = .ok ()
    ↔ parentId ∉ seen ∧ (Json.str parentId).eq (current.get "span_id") = false
      ∧ ∃ parent, byId.lookup parentId = some parent
        ∧ walkParents b label byId parent (parentId :: seen) = .ok ()
  := by
  have hname : b.str (current.get "parent_span_id") = parentId := by rw [hparent, Builtins.str]
  fun_cases walkParents b label byId current seen with
  | case1 hnull => simp [hparent] at hnull
  | case2 _ name hseen =>
    obtain rfl : name = parentId := hname
    simp [hseen]
  | case3 _ name _ hself =>
    obtain rfl : name = parentId := hname
    simp [hself]
  | case4 _ name _ _ hnone =>
    obtain rfl : name = parentId := hname
    simp [hnone]
  | case5 parent _ name hseen hself hfound =>
    obtain rfl : name = parentId := hname
    simp [hseen, hself, hfound]

/-- A walk from a span without a parent returns. -/
theorem walkParents_root {byId : List (String × Dict)} {current : Dict} {seen : List String}
    (hroot : current.get "parent_span_id" = .null) :
  walkParents b label byId current seen = .ok ()
  := by rw [walkParents.eq_def, hroot]

/-- A span whose parent is found is not its own parent, when its chain reaches a root. -/
theorem not_own_parent (hfields : ∀ span ∈ spans, PassesFieldChecks b traceId span)
    (hids : (spans.map spanIdOf).Nodup) {span parent : Dict} (hspan : span ∈ spans)
    {parentId : String} (hfind : spanWithId spans parentId = some parent) {n : ℕ}
    (h : Climbs parentIdOf (spanWithId spans) (n + 1) span)
    (hparent : Climbs parentIdOf (spanWithId spans) n parent) :
  (Json.str parentId).eq (span.get "span_id") = false
  := by
  obtain ⟨text, htext, hid⟩ := (hfields span hspan).spanId
  obtain ⟨hmem, hparentId⟩ := mem_of_spanWithId hfind
  obtain ⟨_, _, hstrip⟩ := (hfields parent hmem).spanId
  have hne : parentId ≠ text := by
    rintro rfl
    have hown : spanIdOf span = parentId := by
      rw [hid, ← hparentId, hstrip, Python.strip_strip]
    have hself := spanWithId_self hids hspan
    rw [hown, hfind] at hself
    obtain rfl : parent = span := Option.some.inj hself
    have hdepth := h.unique hparent
    omega
  rw [htext, Json.eq]
  simpa using hne

/-- The walk from a span whose chain reaches a root returns: it passes no key twice. -/
theorem walkParents_of_climbs (hfields : ∀ span ∈ spans, PassesFieldChecks b traceId span)
    (hids : (spans.map spanIdOf).Nodup) {n : ℕ} {span : Dict} (hspan : span ∈ spans)
    {seen : List String} (hseen : Passed parentIdOf (spanWithId spans) n seen)
    (h : Climbs parentIdOf (spanWithId spans) n span) :
  walkParents b label (spansById spans) span seen = .ok ()
  := by
  induction n generalizing span seen with
  | zero =>
    rcases (hfields span hspan).parent with ⟨hroot, -⟩ | ⟨parentId, -, hlink⟩
    · apply walkParents_root hroot
    · obtain ⟨parent, hfind⟩ := h.finds hlink
      obtain ⟨m, hm, -⟩ := h.parent hlink hfind
      omega
  | succ n ih =>
    rcases (hfields span hspan).parent with ⟨hroot, -⟩ | ⟨parentId, hname, hlink⟩
    · apply walkParents_root hroot
    · obtain ⟨parent, hfind⟩ := h.finds hlink
      obtain ⟨m, hm, hparent⟩ := h.parent hlink hfind
      obtain rfl : n = m := Nat.succ.inj hm
      apply (walkParents_step hname).mpr
      exact ⟨hseen.not_mem hfind hparent, not_own_parent hfields hids hspan hfind h hparent,
        parent, hfind, ih (mem_of_spanWithId hfind).1 (hseen.cons hfind hparent) hparent⟩

/-- A walk that returns reaches a root. -/
theorem reachesRoot_of_walkParents (hfields : ∀ span ∈ spans, PassesFieldChecks b traceId span)
    {span : Dict} (hspan : span ∈ spans) {seen : List String}
    (h : walkParents b label (spansById spans) span seen = .ok ()) :
  ReachesRoot parentIdOf (spanWithId spans) span
  := by
  fun_induction walkParents b label (spansById spans) span seen with
  | case1 current _ hroot =>
    exact ⟨0, .root (by rw [parentIdOf, hroot])⟩
  | case2 => simp at h
  | case3 => simp at h
  | case4 => simp at h
  | case5 current seen parent hnull parentId _ _ hfind ih =>
    rcases (hfields current hspan).parent with ⟨hroot, -⟩ | ⟨name, hname, hlink⟩
    · exact absurd hroot hnull
    · obtain rfl : parentId = name := by simp only [parentId, hname, Builtins.str]
      obtain ⟨n, hclimbs⟩ := ih (mem_of_spanWithId hfind).1 h
      exact ⟨n + 1, .step hlink hfind hclimbs⟩

/-! ### The check of the tree -/

/-- The walks from some spans return exactly when each does, and otherwise one of them raises
an error of the validation. -/
theorem validateParents_eq_ok {byId : List (String × Dict)} {starts : List Dict} :
  validateParents b label byId starts = .ok ()
    ↔ ∀ span ∈ starts, walkParents b label byId span [] = .ok ()
  := by
  induction starts with
  | nil => simp [validateParents]
  | cons span starts ih =>
    rw [validateParents, bind_eq_ok, List.forall_mem_cons, ← ih]
    constructor
    · rintro ⟨⟨⟩, hspan, hrest⟩
      exact ⟨hspan, hrest⟩
    · rintro ⟨hspan, hrest⟩
      exact ⟨(), hspan, hrest⟩

/-- Walks that do not all return raise an error of the validation. -/
theorem validateParents_error {byId : List (String × Dict)} {starts : List Dict} {raised : Exn}
    (h : validateParents b label byId starts = .error raised) :
  ∃ message, raised = payloadValidationError message
  := by
  induction starts with
  | nil => simp [validateParents] at h
  | cons span starts ih =>
    rcases bind_eq_error.mp h with hspan | ⟨_, -, hrest⟩
    · apply walkParents_error _ _ _ hspan
    · apply ih hrest

/-- An accepted list of spans that is not empty has a root. -/
theorem SpanForest.exists_root (h : SpanForest spans)
    (hfields : ∀ span ∈ spans, PassesFieldChecks b traceId span) (hne : spans ≠ []) :
  ∃ span ∈ spans, span.get "parent_span_id" = .null
  := by
  obtain ⟨span, hspan⟩ := List.exists_mem_of_ne_nil spans hne
  obtain ⟨n, hclimbs⟩ := h span hspan
  obtain ⟨top, hnone, htop⟩ := hclimbs.exists_root
  have hmem : top ∈ spans := by
    rcases htop with rfl | ⟨key, hfind⟩
    · exact hspan
    · exact (mem_of_spanWithId hfind).1
  rcases (hfields top hmem).parent with ⟨hroot, -⟩ | ⟨parentId, -, hlink⟩
  · exact ⟨top, hmem, hroot⟩
  · simp [hnone] at hlink

/-- The check of a tree whose spans pass their field checks and have distinct identifiers. -/
theorem validateSpanTree_eq (hfields : ∀ span ∈ spans, PassesFieldChecks b traceId span)
    (hids : (spans.map spanIdOf).Nodup) :
  validateSpanTree b (spans.map .dict) traceId label
    = (requireThat (spans.isEmpty || spans.any fun span => isNull (span.get "parent_span_id"))
        (label ++ ": trace_context.trace.spans requires a root span")
      >>= fun _ => validateParents b label (spansById spans) spans)
  := by
  rw [validateSpanTree, validateSpans_eq hfields hids 0 [] (by simp)]
  simp [bind, Except.bind, spansById, List.any_map, Function.comp_def]

/-- The check of the tree of spans always ends, and it accepts exactly the lists in which the
chain of parents of every span reaches a span without a parent. It rejects every other list by
an error of the validation, and a list that it accepts has a root unless it is empty. -/
theorem validateSpanTree_forest (hfields : ∀ span ∈ spans, PassesFieldChecks b traceId span)
    (hids : (spans.map spanIdOf).Nodup) :
  (validateSpanTree b (spans.map .dict) traceId label = .ok () ↔ SpanForest spans)
    ∧ (¬ SpanForest spans → ∃ message,
      validateSpanTree b (spans.map .dict) traceId label
        = .error (payloadValidationError message))
    ∧ (validateSpanTree b (spans.map .dict) traceId label = .ok () → spans ≠ [] →
      ∃ span ∈ spans, span.get "parent_span_id" = .null)
  := by
  have hiff : validateSpanTree b (spans.map .dict) traceId label = .ok () ↔ SpanForest spans := by
    rw [validateSpanTree_eq hfields hids]
    simp only [bind_eq_ok, requireThat_eq_ok, exists_const, validateParents_eq_ok]
    constructor
    · intro ⟨_, hwalks⟩ span hspan
      apply reachesRoot_of_walkParents hfields hspan (hwalks span hspan)
    · intro hforest
      constructor
      · rcases eq_or_ne spans [] with rfl | hne
        · rfl
        · obtain ⟨span, hspan, hroot⟩ := hforest.exists_root hfields hne
          have hany : (spans.any fun span => isNull (span.get "parent_span_id")) = true :=
            List.any_eq_true.mpr ⟨span, hspan, by rw [hroot]; rfl⟩
          simp [hany]
      · intro span hspan
        obtain ⟨n, hclimbs⟩ := hforest span hspan
        apply walkParents_of_climbs hfields hids hspan (Passed.nil n) hclimbs
  refine ⟨hiff, fun hnot => ?_, fun hok hne => (hiff.mp hok).exists_root hfields hne⟩
  cases hresult : validateSpanTree b (spans.map .dict) traceId label with
  | ok u => exact absurd (hiff.mp hresult) hnot
  | error raised =>
    rw [validateSpanTree_eq hfields hids] at hresult
    rcases bind_eq_error.mp hresult with hroot | ⟨_, -, hparents⟩
    · rw [requireThat] at hroot
      split at hroot
      · simp at hroot
      · exact ⟨_, hroot.symm⟩
    · obtain ⟨message, rfl⟩ := validateParents_error hparents
      exact ⟨message, rfl⟩

namespace Demo

/-- A trace identifier. -/
def forestTrace : String := "0123456789abcdef0123456789abcdef"

/-- A span of the trace. -/
def forestSpan (spanId : String) (parentId : Json) : Dict :=
  [("span_id", .str spanId), ("trace_id", .str forestTrace), ("parent_span_id", parentId),
    ("name", .str "step"), ("kind", .str "INTERNAL"), ("started_at", .str "t0"),
    ("ended_at", .str "t1"), ("status", .str "OK"), ("duration_ms", .int 1),
    ("error_message", .null), ("attributes", .dict []), ("events", .list []),
    ("links", .list [])]

/-- A root and its child, whose identifier is written with a blank before it. -/
def forestSpans : List Dict :=
  [forestSpan " 00000000000000bb" (.str "00000000000000aa"), forestSpan "00000000000000aa" .null]

/-- The spans pass their field checks. -/
theorem forestSpans_fields : ∀ span ∈ forestSpans, PassesFieldChecks builtins forestTrace span
  := by
  intro span hspan
  simp only [forestSpans, List.mem_cons, List.not_mem_nil, or_false] at hspan
  rcases hspan with rfl | rfl
  · exact ⟨"", "", "00000000000000bb", rfl⟩
  · exact ⟨"", "", "00000000000000aa", rfl⟩

/-- The chain of each of the spans reaches the root. -/
theorem forestSpans_forest : SpanForest forestSpans
  := by
  intro span hspan
  simp only [forestSpans, List.mem_cons, List.not_mem_nil, or_false] at hspan
  rcases hspan with rfl | rfl
  · exact ⟨1, .step rfl rfl (.root rfl)⟩
  · exact ⟨0, .root rfl⟩

end Demo

theorem validateSpanTree_forest_demo :
  validateSpanTree Demo.builtins (Demo.forestSpans.map .dict) Demo.forestTrace "payload" = .ok ()
    ∧ ∃ span ∈ Demo.forestSpans, span.get "parent_span_id" = .null
  := by
  obtain ⟨hiff, -, hroot⟩ := @validateSpanTree_forest Demo.builtins "payload" Demo.forestTrace
    Demo.forestSpans Demo.forestSpans_fields (by decide +kernel)
  have hok := hiff.mpr Demo.forestSpans_forest
  exact ⟨hok, hroot hok (List.cons_ne_nil _ _)⟩

end Evalorch
