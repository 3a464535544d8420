import Evalorch.Evaluators.Deterministic.ToolCalls

/-!
# The verdict on a set of calls

The conditions of a check of tool calls ask which tools were called, how many calls there are, and
whether some call is unanswered, so the order of the calls does not matter. A call that is added
can only break a condition when it is forbidden or unanswered.
-/

namespace Evalorch

open Evaluator

namespace ToolCalls

/-! ### The conditions -/

/-- The calls break no condition of the check. -/
structure Clean (params : Params) (calls : List Dict) : Prop where
  enough : params.minCalls ≤ calls.length
  expected : ∀ tool ∈ params.expected, tool ∈ observedTools calls
  forbidden : ∀ tool ∈ params.forbidden, tool ∉ observedTools calls
  answered : params.requireResponse = true → ∀ call ∈ calls, unanswered params.expected call = none

variable {params : Params} {calls calls' : List Dict} {call : Dict} {name : String}

/-- There is no problem when no condition is broken. -/
theorem problems_isEmpty :
  (problems params calls).isEmpty = true ↔ Clean params calls
  := by
  have hmissing : (missingTools params calls).isEmpty = true
      ↔ ∀ tool ∈ params.expected, tool ∈ observedTools calls := by
    simp [missingTools]
  have hforbidden : (usedForbidden params calls).isEmpty = true
      ↔ ∀ tool ∈ params.forbidden, tool ∉ observedTools calls := by
    simp [usedForbidden]
  have hanswered : (withoutResponse params calls).isEmpty = true
      ↔ (params.requireResponse = true →
        ∀ call ∈ calls, unanswered params.expected call = none) := by
    unfold withoutResponse
    cases params.requireResponse <;> simp
  have henough : (if calls.length < params.minCalls then
        [s!"expected at least {params.minCalls} tool call(s), found {calls.length}"] else []) = []
      ↔ params.minCalls ≤ calls.length := by
    rw [← not_lt]
    split <;> simp [*]
  have hreport : ∀ (tools : List String) (problem : String),
      (if tools.isEmpty then [] else [problem]) = [] ↔ tools.isEmpty = true := by
    intro tools problem
    cases tools <;> simp
  rw [List.isEmpty_iff, problems, List.append_eq_nil_iff, List.append_eq_nil_iff,
    List.append_eq_nil_iff, henough, hreport, hreport, hreport, hmissing, hforbidden, hanswered]
  constructor
  · rintro ⟨⟨⟨henough, hexpected⟩, hforbidden⟩, hanswered⟩
    exact ⟨henough, hexpected, hforbidden, hanswered⟩
  · intro h
    exact ⟨⟨⟨h.enough, h.expected⟩, h.forbidden⟩, h.answered⟩

/-- The check passes when no condition is broken. -/
theorem passed_check :
  (check params calls).passed = some true ↔ Clean params calls
  := by rw [← problems_isEmpty, check, outcome, Option.some.injEq]

/-- A check that does not pass fails. -/
theorem failed_check :
  (check params calls).passed = some false ↔ ¬ Clean params calls
  := by rw [← problems_isEmpty, check, outcome, Option.some.injEq, Bool.not_eq_true]

/-! ### The order of the calls -/

/-- The same tools are called whatever the order. -/
theorem observedTools_perm (h : calls'.Perm calls) :
  (observedTools calls').Perm (observedTools calls)
  := h.filterMap toolName

/-- The conditions do not depend on the order. -/
theorem Clean.perm (h : calls'.Perm calls) (hclean : Clean params calls) :
  Clean params calls'
  where
    enough := by
      rw [h.length_eq]
      apply hclean.enough
    expected := by
      intro tool htool
      rw [(observedTools_perm h).mem_iff]
      apply hclean.expected tool htool
    forbidden := by
      intro tool htool
      rw [(observedTools_perm h).mem_iff]
      apply hclean.forbidden tool htool
    answered := by
      intro hrequire call hcall
      apply hclean.answered hrequire call (h.mem_iff.mp hcall)

/-- The same expected tools are missing whatever the order. -/
theorem missingTools_perm (h : calls'.Perm calls) :
  missingTools params calls' = missingTools params calls
  := by
  apply List.filter_congr
  intro tool _
  congr 1
  rw [Bool.eq_iff_iff, List.contains_iff_mem, List.contains_iff_mem,
    (observedTools_perm h).mem_iff]

/-- The verdict and the score do not depend on the order. -/
theorem check_perm (h : calls'.Perm calls) :
  (check params calls').passed = (check params calls).passed
    ∧ (check params calls').score = (check params calls).score
  := by
  have hproblems : (problems params calls').isEmpty = (problems params calls).isEmpty := by
    rw [Bool.eq_iff_iff, problems_isEmpty, problems_isEmpty]
    exact ⟨Clean.perm h.symm, Clean.perm h⟩
  simp only [check, outcome, hproblems, partialScore, missingTools_perm h]
  trivial

/-! ### One more call -/

theorem observedTools_append :
  observedTools (calls ++ [call]) = observedTools calls ++ (toolName call).toList
  := by
  rw [observedTools, List.filterMap_append, observedTools]
  cases hname : toolName call <;> simp [hname]

/-- A call with a response is not reported. -/
theorem unanswered_of_hasResponse (expected : List String) (h : hasResponse call = true) :
  unanswered expected call = none
  := by simp [unanswered, h]

/-- A call to an expected tool without a response is. -/
theorem unanswered_of_expected {expected : List String} (hname : toolName call = some name)
    (hexpected : name ∈ expected) (h : hasResponse call = false) :
  unanswered expected call = some name
  := by simp [unanswered, hname, hexpected, h]

/-- A call with a response to a tool that is not forbidden breaks no condition. -/
theorem Clean.append (hclean : Clean params calls) (hresponse : hasResponse call = true)
    (hallowed : ∀ name ∈ toolName call, name ∉ params.forbidden) :
  Clean params (calls ++ [call])
  where
    enough := by
      have := hclean.enough
      rw [List.length_append]
      push_cast
      omega
    expected := by
      intro tool htool
      rw [observedTools_append]
      apply List.mem_append_left _ (hclean.expected tool htool)
    forbidden := by
      intro tool htool hmem
      rw [observedTools_append] at hmem
      rcases List.mem_append.mp hmem with hmem | hmem
      · apply hclean.forbidden tool htool hmem
      · apply hallowed tool (Option.mem_toList.mp hmem) htool
    answered := by
      intro hrequire other hother
      rcases List.mem_append.mp hother with hmem | hmem
      · apply hclean.answered hrequire other hmem
      · rw [List.mem_singleton.mp hmem]
        apply unanswered_of_hasResponse _ hresponse

/-- A call to a forbidden tool breaks a condition. -/
theorem not_clean_of_forbidden (hname : toolName call = some name)
    (hforbidden : name ∈ params.forbidden) :
  ¬ Clean params (calls ++ [call])
  := by
  intro hclean
  apply hclean.forbidden name hforbidden
  rw [observedTools_append, hname]
  apply List.mem_append_right _ List.mem_cons_self

/-- So does a call to an expected tool without a response that is required. -/
theorem not_clean_of_unanswered (hrequire : params.requireResponse = true)
    (hname : toolName call = some name) (hexpected : name ∈ params.expected)
    (hresponse : hasResponse call = false) :
  ¬ Clean params (calls ++ [call])
  := by
  intro hclean
  have hnone := hclean.answered hrequire call (List.mem_append_right _ List.mem_cons_self)
  rw [unanswered_of_expected hname hexpected hresponse] at hnone
  cases hnone

/-! ### The verdict -/

/-- The output of the check on a list of calls. -/
def evaluateOn (b : Builtins) (input config : Dict) (context : ExecutionContext)
    (calls : List Json) : Except Exn EvaluatorOutput :=
  evaluate b (input.set "tool_calls" (.list calls)) config context

/-- The verdicts are about the set of calls. -/
structure AboutSet (params : Params) (verdict : List Json → EvaluatorOutput) : Prop where
  /-- The order of the calls does not matter. -/
  reordered : ∀ calls calls', calls'.Perm calls →
    (verdict calls').passed = (verdict calls).passed
      ∧ (verdict calls').score = (verdict calls).score
  /-- A call with a response to a tool that is not forbidden does no harm. -/
  harmless : ∀ calls call, hasResponse call = true →
    (∀ name ∈ toolName call, name ∉ params.forbidden) → (verdict calls).passed = some true →
    (verdict (calls ++ [.dict call])).passed = some true
  /-- A call to a forbidden tool fails the check. -/
  forbidden : ∀ calls call, ∀ name ∈ toolName call, name ∈ params.forbidden →
    (verdict (calls ++ [.dict call])).passed = some false
  /-- A call to an expected tool without a response that is required fails the check. -/
  unanswered : params.requireResponse = true → ∀ calls call, ∀ name ∈ toolName call,
    name ∈ params.expected → hasResponse call = false →
    (verdict (calls ++ [.dict call])).passed = some false

/-- Parameters that cannot be read fail every list of calls alike; with any others the verdicts are
about the set of calls. -/
theorem verdict_about_set (b : Builtins) (input config : Dict) (context : ExecutionContext) :
  match readParams b config with
  | .error e => ∀ calls, evaluateOn b input config context calls = .error e
  | .ok params => ∃ verdict : List Json → EvaluatorOutput,
      (∀ calls, evaluateOn b input config context calls = .ok (verdict calls))
        ∧ AboutSet params verdict
  := by
  cases hparams : readParams b config with
  | error e =>
    intro calls
    rw [evaluateOn, evaluate, hparams]
    rfl
  | ok params =>
    use fun calls => check params (calls.filterMap call?)
    constructor
    · intro calls
      simp [evaluateOn, evaluate, hparams, require, callsOf, bind, Except.bind]
    · have hadded : ∀ (calls : List Json) (call : Dict),
          (calls ++ [Json.dict call]).filterMap call? = calls.filterMap call? ++ [call] := by
        intro calls call
        rw [List.filterMap_append]
        rfl
      constructor
      · intro calls calls' h
        apply check_perm (h.filterMap call?)
      · intro calls call hresponse hallowed hpassed
        rw [hadded, passed_check]
        exact (passed_check.mp hpassed).append hresponse hallowed
      · intro calls call name hname hforbidden
        rw [hadded, failed_check]
        apply not_clean_of_forbidden hname hforbidden
      · intro hrequire calls call name hname hexpected hresponse
        rw [hadded, failed_check]
        apply not_clean_of_unanswered hrequire hname hexpected hresponse

end ToolCalls

end Evalorch
