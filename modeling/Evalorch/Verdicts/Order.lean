import Evalorch.Evaluators.Deterministic.WorkflowOrder

/-!
# The order a workflow check sees

A workflow check passes when the names are found in order at spans whose first identity they
are. Presence is decided by all four identities, so the verdict differs from the order of the
identities where spans carry more than one. With `ignore_missing` the names that are not present
are left out of the comparison, except that the strict mode fails on them all the same.
-/

namespace Evalorch

open Evaluator Sequence

namespace WorkflowOrder

variable {b : Builtins}

/-! ### The loop -/

/-- The loop takes the first place of a name. -/
theorem runsInOrder_cons (name identity : String) (names actual : List String) :
  runsInOrder (name :: names) (identity :: actual)
    = if identity = name then runsInOrder names actual else runsInOrder (name :: names) actual
  := by
  by_cases h : identity = name
  · simp [runsInOrder, h]
  · simp [runsInOrder, h]

/-- The loop finds the names in order whenever they are there in order. -/
theorem runsInOrder_iff {names actual : List String} :
  runsInOrder names actual = true ↔ names.Sublist actual
  := by
  induction names generalizing actual with
  | nil => simp [runsInOrder]
  | cons name names ih =>
    induction actual with
    | nil => simp [runsInOrder]
    | cons identity actual ihActual =>
      rw [runsInOrder_cons, List.cons_sublist_cons', ← ihActual, ← ih]
      by_cases hidentity : identity = name
      · rw [if_pos hidentity]
        constructor
        · intro hnext
          exact .inr ⟨hidentity.symm, hnext⟩
        · rintro (hlater | ⟨-, hnext⟩)
          · exact ih.mpr ((List.sublist_cons_self name names).trans (ihActual.mp hlater))
          · exact hnext
      · rw [if_neg hidentity]
        simp [Ne.symm hidentity]

/-- A place before the end is read. -/
theorem itemAt_eq {actual : List String} {cursor : ℕ} (h : cursor < actual.length) :
  itemAt actual cursor = .ok actual[cursor]
  := by rw [itemAt, List.getElem?_eq_getElem h]

/-- The cursor moves on over what is not the name, and does not pass the end. -/
theorem seek_eq {actual : List String} (name : String) {cursor : ℕ}
    (h : cursor ≤ actual.length) :
  seek actual name cursor
    = .ok (cursor + ((actual.drop cursor).takeWhile (· != name)).length)
  := by
  induction hleft : actual.length - cursor generalizing cursor with
  | zero =>
    have hend : ¬ cursor < actual.length := by omega
    have hnil : actual.drop cursor = [] := List.drop_eq_nil_iff.mpr (by omega)
    rw [seek, if_neg hend, hnil]
    rfl
  | succ left ih =>
    have hlt : cursor < actual.length := by omega
    have hnext := ih hlt (by omega)
    rw [seek, if_pos hlt, itemAt_eq hlt, List.drop_eq_getElem_cons hlt, List.takeWhile_cons]
    by_cases hname : actual[cursor] = name
    · simp [hname, bind, Except.bind]
    · simp [hname, hnext, bind, Except.bind]
      omega

/-- The loop with a cursor decides what is left of the identities at the cursor. -/
theorem cursorLoop_eq {actual : List String} (names : List String) {cursor : ℕ}
    (h : cursor ≤ actual.length) :
  cursorLoop actual names cursor = .ok (runsInOrder names (actual.drop cursor))
  := by
  induction names generalizing cursor with
  | nil => rfl
  | cons name names ih =>
    set skipped := (actual.drop cursor).takeWhile (· != name) with hskipped
    set left := (actual.drop cursor).dropWhile (· != name) with hleft
    have hsplit : skipped ++ left = actual.drop cursor := List.takeWhile_append_dropWhile
    have hlength := congrArg List.length hsplit
    rw [List.length_append, List.length_drop] at hlength
    have hdrop : actual.drop (cursor + skipped.length) = left := by
      rw [← List.drop_drop, ← hsplit, List.drop_left]
    rw [cursorLoop, seek_eq name h, runsInOrder, ← hskipped, ← hleft]
    simp only [bind, Except.bind]
    cases hcase : left with
    | nil =>
      rw [hcase, List.length_nil] at hlength
      rw [if_pos (by omega)]
    | cons identity rest =>
      rw [hcase, List.length_cons] at hlength
      rw [if_neg (by omega), ih (by omega), ← List.drop_drop, hdrop, hcase]
      rfl

/-- The greedy cursor decides subsequence: the loop ends, reads no place past the end, and finds
the names in order exactly when they are at strictly increasing places. -/
theorem cursorLoop_decides (actual names : List String) :
  ∃ orderOk, cursorLoop actual names 0 = .ok orderOk
    ∧ (orderOk = true ↔ InOrder Eq names actual)
  := by
  use runsInOrder names actual
  constructor
  · rw [cursorLoop_eq names actual.length.zero_le, List.drop_zero]
  · rw [runsInOrder_iff, inOrder_eq_iff]

/-! ### The verdict -/

/-- The names that are missing are those that no span has. -/
theorem mem_namesOutside {spans : List Dict} {names : List String} {name : String} :
  name ∈ namesOutside (presentNames b spans names) names
    ↔ name ∈ names ∧ isPresent b spans name = false
  := by
  simp only [namesOutside, presentNames, List.mem_filter, Bool.not_eq_true', List.contains_eq_mem,
    decide_eq_false_iff_not, not_and, Bool.not_eq_true]
  constructor
  · rintro ⟨hname, hnot⟩
    exact ⟨hname, hnot hname⟩
  · rintro ⟨hname, hnot⟩
    exact ⟨hname, fun _ => hnot⟩

/-- No name is missing when every one of them is present. -/
theorem namesOutside_isEmpty {spans : List Dict} {names : List String} :
  (namesOutside (presentNames b spans names) names).isEmpty = true
    ↔ ∀ name ∈ names, isPresent b spans name = true
  := by
  rw [List.isEmpty_iff, List.eq_nil_iff_forall_not_mem]
  simp only [mem_namesOutside, not_and, Bool.not_eq_false]

/-- The verdict, from the order and the names that are present. -/
theorem passes_check {params : Params} {spans : List Dict} :
  Passes (.ok (check b params spans))
    ↔ orderOk params.mode
        (if params.ignoreMissing then presentNames b spans (params.expected.map b.str)
          else params.expected.map b.str)
        (namesOutside (presentNames b spans (params.expected.map b.str))
          (params.expected.map b.str))
        (spanIdentities b spans) = true
      ∧ (params.ignoreMissing = true
        ∨ ∀ name ∈ params.expected.map b.str, isPresent b spans name = true)
  := by
  rw [check, passes_outcome, Bool.and_eq_true, Bool.or_eq_true, namesOutside_isEmpty]

/-- The evaluation, once its parameters and its spans are read. -/
theorem evaluate_eq {input config : Dict} {context : ExecutionContext} {params : Params}
    {value : Json} {spans : List Dict} (hparams : readParams b config context = .ok params)
    (hinput : input.lookup "spans" = some value) (hspans : coerceSpans value = .ok spans) :
  evaluate b input config context = .ok (check b params spans)
  := by
  rw [evaluate, hparams]
  simp [require, hinput, hspans, bind, Except.bind]

/-! ### Identities in order -/

/-- The span has the name as one of its identities. -/
def Identifies (b : Builtins) (name : String) (item : Json) : Prop :=
  ∃ span, item = .dict span ∧ spanHasIdentity b span name none = true

/-- The name is the first identity that is set in the span. -/
def LeadsWith (b : Builtins) (name : String) (item : Json) : Prop :=
  ∃ span, item = .dict span ∧ name ≠ "" ∧ spanIdentity b span = some name

/-- The first identity that is set is one of the identities. -/
theorem spanHasIdentity_of_spanIdentity {span : Dict} {name : String} (hname : name ≠ "")
    (h : spanIdentity b span = some name) :
  spanHasIdentity b span name none = true
  := by
  obtain ⟨key, hkey, hvalue⟩ := List.exists_of_findSome?_eq_some h
  split at hvalue
  case isFalse => cases hvalue
  case isTrue htruthy =>
    rw [spanHasIdentity, Bool.and_eq_true, bne_iff_ne]
    use hname
    apply List.any_eq_true.mpr
    use key, hkey
    rw [Json.or, if_pos htruthy]
    simpa using hvalue

theorem LeadsWith.identifies {name : String} {item : Json} (h : LeadsWith b name item) :
  Identifies b name item
  := by
  obtain ⟨span, hspan, hname, hidentity⟩ := h
  exact ⟨span, hspan, spanHasIdentity_of_spanIdentity hname hidentity⟩

/-- A name that a span of an array has is present. -/
theorem isPresent_of_identifies {items : List Json} {item : Json} {name : String}
    (hitem : item ∈ items) (h : Identifies b name item) :
  isPresent b (items.filterMap coerceSpan) name = true
  := by
  obtain ⟨span, rfl, hidentity⟩ := h
  apply List.any_eq_true.mpr
  exact ⟨span, List.mem_filterMap.mpr ⟨_, hitem, rfl⟩, hidentity⟩

/-- An empty name is not present. -/
theorem isPresent_ne_empty {spans : List Dict} {name : String}
    (h : isPresent b spans name = true) :
  name ≠ ""
  := by
  obtain ⟨span, -, hidentity⟩ := List.any_eq_true.mp h
  rw [spanHasIdentity, Bool.and_eq_true, bne_iff_ne] at hidentity
  exact hidentity.1

/-- The names are found in the order of the identities. -/
theorem sublist_spanIdentities {names : List String} {items : List Json}
    (hnames : ∀ name ∈ names, name ≠ "") :
  names.Sublist (spanIdentities b (items.filterMap coerceSpan)) ↔ InOrder (LeadsWith b) names items
  := by
  rw [← inOrder_eq_iff, spanIdentities, inOrder_filterMap, inOrder_filterMap]
  constructor
  · apply InOrder.imp
    rintro name hname item ⟨span, hspan, _, hidentity, rfl⟩
    cases item with
    | dict fields =>
      cases hspan
      exact ⟨_, rfl, hnames name hname, hidentity⟩
    | _ => cases hspan
  · apply InOrder.imp
    rintro name - item ⟨span, rfl, -, hidentity⟩
    exact ⟨span, rfl, name, hidentity, rfl⟩

/-- In the mode `subsequence` a check passes when the names lead spans in order. -/
theorem passes_subsequence {input config : Dict} {context : ExecutionContext} {params : Params}
    {items : List Json} (hparams : readParams b config context = .ok params)
    (hmode : params.mode = .subsequence) (hignore : params.ignoreMissing = false)
    (hinput : input.lookup "spans" = some (.list items)) :
  Passes (evaluate b input config context)
    ↔ InOrder (LeadsWith b) (params.expected.map b.str) items
  := by
  rw [evaluate_eq hparams hinput rfl, passes_check, hmode, hignore, orderOk, runsInOrder_iff]
  simp only [Bool.false_eq_true, if_false, false_or]
  constructor
  · rintro ⟨horder, hpresent⟩
    exact (sublist_spanIdentities fun name hname => isPresent_ne_empty (hpresent name hname)).mp
      horder
  · intro horder
    have hpresent : ∀ name ∈ params.expected.map b.str,
        isPresent b (items.filterMap coerceSpan) name = true := by
      intro name hname
      obtain ⟨item, hitem, hleads⟩ := horder.exists_related hname
      exact isPresent_of_identifies hitem hleads.identifies
    exact ⟨(sublist_spanIdentities fun name hname => isPresent_ne_empty (hpresent name hname)).mpr
      horder, hpresent⟩

/-- The verdict honours every identity of the spans exactly when the names, if they are found in
order at all, are also found in order at spans whose first identity they are. -/
theorem order_honours_identities_iff {input config : Dict} {context : ExecutionContext}
    {params : Params} {items : List Json} (hparams : readParams b config context = .ok params)
    (hmode : params.mode = .subsequence) (hignore : params.ignoreMissing = false)
    (hinput : input.lookup "spans" = some (.list items)) :
  (Passes (evaluate b input config context)
      ↔ InOrder (Identifies b) (params.expected.map b.str) items)
    ↔ (InOrder (Identifies b) (params.expected.map b.str) items →
      InOrder (LeadsWith b) (params.expected.map b.str) items)
  := by
  rw [passes_subsequence hparams hmode hignore hinput]
  constructor
  · intro h hidentities
    exact h.mpr hidentities
  · intro h
    constructor
    · apply InOrder.imp
      intro name _ item
      exact LeadsWith.identifies
    · exact h

end WorkflowOrder

namespace Demo

open WorkflowOrder

/-- The context of an execution without a snapshot. -/
def context : ExecutionContext where
  jobId := 0
  ticketId := 0
  payloadId := 0
  checkId := "check"
  checkType := .deterministic
  attempt := 1
  maxAttempts := 1
  workerId := none
  configSnapshot := []

/-- A check of an order. -/
def orderConfig (expected : List String) (mode : String) (ignoreMissing : Bool) : Dict :=
  [("params", .dict [("expected_order", .list (expected.map .str)), ("mode", .str mode),
    ("ignore_missing", .bool ignoreMissing)])]

/-- A span with a name and an agent. -/
def agentSpan (name agentId : String) : Json :=
  .dict [("name", .str name), ("agent_id", .str agentId)]

/-- The spans of a check. -/
def orderInput (items : List Json) : Dict :=
  [("spans", .list items)]

end Demo

namespace WorkflowOrder

/-- Two names that lead spans, with a span of another name between them, are found in order. -/
theorem order_honours_identities_demo :
  (Passes (evaluate Demo.builtins (Demo.orderInput [Demo.agentSpan "draft" "writer",
        Demo.agentSpan "search" "librarian", Demo.agentSpan "review" "editor"])
      (Demo.orderConfig ["draft", "review"] "subsequence" false) Demo.context)
    ↔ InOrder (Identifies Demo.builtins) ["draft", "review"] [Demo.agentSpan "draft" "writer",
        Demo.agentSpan "search" "librarian", Demo.agentSpan "review" "editor"])
    ∧ InOrder (LeadsWith Demo.builtins) ["draft", "review"] [Demo.agentSpan "draft" "writer",
        Demo.agentSpan "search" "librarian", Demo.agentSpan "review" "editor"]
  := by
  set items := [Demo.agentSpan "draft" "writer", Demo.agentSpan "search" "librarian",
    Demo.agentSpan "review" "editor"]
  have hleads : InOrder (LeadsWith Demo.builtins) ["draft", "review"] items :=
    ⟨[0, 2], by simp, .cons ⟨_, rfl, _, rfl, by decide, rfl⟩
      (.cons ⟨_, rfl, _, rfl, by decide, rfl⟩ .nil)⟩
  have hhonours := @order_honours_identities_iff Demo.builtins (Demo.orderInput items)
    (Demo.orderConfig ["draft", "review"] "subsequence" false) Demo.context
    ⟨[.str "draft", .str "review"], .subsequence, false⟩ items rfl rfl rfl rfl
  exact ⟨hhonours.mpr fun _ => hleads, hleads⟩

/-- A span with a name and an agent has no place in the order as its agent. -/
theorem order_honours_identities_counterexample :
  InOrder (Identifies Demo.builtins) ["writer"] [Demo.agentSpan "draft" "writer"]
    ∧ ¬ Passes (evaluate Demo.builtins (Demo.orderInput [Demo.agentSpan "draft" "writer"])
      (Demo.orderConfig ["writer"] "subsequence" false) Demo.context)
  := by
  constructor
  · exact ⟨[0], List.pairwise_singleton _ _, .cons ⟨_, rfl, _, rfl, by decide⟩ .nil⟩
  · rintro ⟨output, houtput, hstatus⟩
    cases houtput
    revert hstatus
    decide

/-! ### Missing names -/

/-- The verdict of an evaluation. -/
def verdict (evaluation : Except Exn EvaluatorOutput) : Except Exn (Option Bool) :=
  evaluation.map EvaluatorOutput.passed

/-- The check of the names that are present, with `ignore_missing` false. -/
def presentOnly (b : Builtins) (spans : List Dict) (expected : List Json) (config params : Dict) :
    Dict :=
  config.set "params" (.dict ((params.set "expected_order"
    (.list (expected.filter fun name => isPresent b spans (b.str name)))).set
      "ignore_missing" (.bool false)))

theorem paramsOf_set (config params : Dict) :
  paramsOf (config.set "params" (.dict params)) = .ok params
  := by
  rw [paramsOf, Dict.get_set_self]
  cases params <;> rfl

/-- What the parameters of a check are read from. -/
theorem readParams_eq_ok_iff {config raw : Dict} {context : ExecutionContext} {params : Params}
    (hraw : paramsOf config = .ok raw) :
  readParams b config context = .ok params
    ↔ params.expected ≠ []
      ∧ (raw.get "expected_order").or (context.configSnapshot.get "workflow_order")
        = .list params.expected
      ∧ b.lower (b.str ((raw.lookup "mode").getD (.str "subsequence"))) = params.mode.value
      ∧ ((raw.lookup "ignore_missing").getD (.bool false)).truthy = params.ignoreMissing
  := by
  obtain ⟨expected, mode, ignoreMissing⟩ := params
  rw [readParams, hraw]
  simp only [bind, Except.bind]
  split
  case h_1 first rest horder =>
    rw [horder]
    generalize b.lower (b.str ((raw.lookup "mode").getD (.str "subsequence"))) = text
    by_cases hsubsequence : text = "subsequence"
    · cases mode <;> simp [hsubsequence, Mode.value]
      grind
    · by_cases hstrict : text = "strict"
      · cases mode <;> simp [hstrict, Mode.value]
        grind
      · cases mode <;> simp [hsubsequence, hstrict, Mode.value]
  case h_2 hnot =>
    simp only [reduceCtorEq, false_iff, not_and]
    intro hexpected horder
    obtain ⟨first, rest, rfl⟩ := List.exists_cons_of_ne_nil hexpected
    exact absurd horder (hnot first rest)

/-- The parameters of the check of the names that are present. -/
theorem readParams_presentOnly {config raw : Dict} {context : ExecutionContext} {params : Params}
    {spans : List Dict} (hraw : paramsOf config = .ok raw)
    (hparams : readParams b config context = .ok params)
    (hpresent : ∃ name ∈ params.expected, isPresent b spans (b.str name) = true) :
  readParams b (presentOnly b spans params.expected config raw) context
    = .ok ⟨params.expected.filter fun name => isPresent b spans (b.str name), params.mode, false⟩
  := by
  obtain ⟨-, -, hmode, -⟩ := (readParams_eq_ok_iff hraw).mp hparams
  have hne : params.expected.filter (fun name => isPresent b spans (b.str name)) ≠ [] := by
    obtain ⟨name, hname, hpresent⟩ := hpresent
    exact List.ne_nil_of_mem (List.mem_filter.mpr ⟨hname, hpresent⟩)
  apply (readParams_eq_ok_iff (paramsOf_set config _)).mpr
  refine ⟨hne, ?_, ?_, ?_⟩
  · rw [Dict.get_set_of_ne _ _ (by decide), Dict.get_set_self, Json.or, if_pos]
    rw [Json.truthy, List.isEmpty_eq_false_iff.mpr hne]
    rfl
  · rw [Dict.lookup_set_of_ne _ _ (by decide), Dict.lookup_set_of_ne _ _ (by decide)]
    exact hmode
  · rw [Dict.lookup_set_self]
    rfl

/-- The names that are present are all present. -/
theorem presentNames_self (spans : List Dict) (names : List String) :
  presentNames b spans (presentNames b spans names) = presentNames b spans names
  := by
  apply List.filter_eq_self.mpr
  intro name hname
  exact (List.mem_filter.mp hname).2

/-- No name that is present is missing. -/
theorem namesOutside_self (names : List String) :
  namesOutside names names = []
  := by simp [namesOutside]

/-- With `ignore_missing` a check has the verdict of the check of the names that are present,
except in the mode `strict` with a missing name, where it fails although the identities of the
spans begin with the names that are present. -/
theorem ignore_missing_agrees_iff {input config raw : Dict} {context : ExecutionContext}
    {params : Params} {value : Json} {spans : List Dict} (hraw : paramsOf config = .ok raw)
    (hparams : readParams b config context = .ok params) (hignore : params.ignoreMissing = true)
    (hinput : input.lookup "spans" = some value) (hspans : coerceSpans value = .ok spans)
    (hpresent : ∃ name ∈ params.expected, isPresent b spans (b.str name) = true) :
  verdict (evaluate b input config context)
      = verdict (evaluate b input (presentOnly b spans params.expected config raw) context)
    ↔ ¬ (params.mode = .strict
      ∧ (∃ name ∈ params.expected, isPresent b spans (b.str name) = false)
      ∧ presentNames b spans (params.expected.map b.str) <+: spanIdentities b spans)
  := by
  have hnames : (params.expected.filter fun name => isPresent b spans (b.str name)).map b.str
      = presentNames b spans (params.expected.map b.str) := by
    rw [presentNames, List.filter_map]
    rfl
  have hmissing : (namesOutside (presentNames b spans (params.expected.map b.str))
      (params.expected.map b.str)).isEmpty = false
      ↔ ∃ name ∈ params.expected, isPresent b spans (b.str name) = false := by
    rw [← Bool.not_eq_true, namesOutside_isEmpty]
    simp
  rw [evaluate_eq hparams hinput hspans,
    evaluate_eq (readParams_presentOnly hraw hparams hpresent) hinput hspans, ← hmissing,
    List.prefix_iff_eq_take]
  simp only [verdict, Except.map, check, outcome, hignore, hnames, presentNames_self,
    namesOutside_self]
  cases params.mode with
  | strict =>
    simp only [orderOk]
    grind
  | subsequence => simp [orderOk]

/-- The loop ignores a missing name. -/
theorem ignore_missing_agrees_demo :
  verdict (evaluate Demo.builtins (Demo.orderInput [Demo.agentSpan "draft" ""])
      (Demo.orderConfig ["draft", "review"] "subsequence" true) Demo.context)
    = verdict (evaluate Demo.builtins (Demo.orderInput [Demo.agentSpan "draft" ""])
      (presentOnly Demo.builtins [[("name", .str "draft"), ("agent_id", .str "")]]
        [.str "draft", .str "review"] (Demo.orderConfig ["draft", "review"] "subsequence" true)
        [("expected_order", .list [.str "draft", .str "review"]), ("mode", .str "subsequence"),
          ("ignore_missing", .bool true)]) Demo.context)
  := by
  apply (@ignore_missing_agrees_iff Demo.builtins (Demo.orderInput _)
    (Demo.orderConfig ["draft", "review"] "subsequence" true) _ Demo.context
    ⟨[.str "draft", .str "review"], .subsequence, true⟩ _
    [[("name", .str "draft"), ("agent_id", .str "")]] rfl rfl rfl rfl rfl
    ⟨.str "draft", List.mem_cons_self, by decide⟩).mpr
  rintro ⟨hmode, -⟩
  cases hmode

/-- The mode `strict` fails on a missing name that it is told to ignore. -/
theorem ignore_missing_agrees_counterexample :
  verdict (evaluate Demo.builtins (Demo.orderInput [Demo.agentSpan "draft" ""])
      (Demo.orderConfig ["draft", "review"] "strict" true) Demo.context) = .ok (some false)
    ∧ verdict (evaluate Demo.builtins (Demo.orderInput [Demo.agentSpan "draft" ""])
      (Demo.orderConfig ["draft"] "strict" false) Demo.context) = .ok (some true)
  := ⟨rfl, rfl⟩

end WorkflowOrder

end Evalorch
