import Evalorch.Evaluators.Implementations
import Evalorch.Evaluators.Shares
import Evalorch.Services.EvaluationService
import Evalorch.Verdicts.Judge

/-!
# Coherent verdicts

An output is coherent when its flag is the one that its status stands for, and it has a score,
between zero and one, exactly when its status decides the check. Every registered evaluator returns
coherent outputs only, whatever its input, its parameters and the answer of its model
(`coherent_getEvaluator`); so do the verdicts that `execute_ticket` makes of them.
-/

namespace Evalorch

open Evaluator Transact

/-! ### Flags and scores -/

/-- The flag that a status stands for: a check that was not decided has none. -/
def ResultStatus.flag : ResultStatus → Option Bool
  | .passed => some true
  | .failed => some false
  | .notApplicable | .error => none

/-- A flag and a score fit a status. -/
structure Coherent (status : ResultStatus) (passed : Option Bool) (score : Option Float64) :
    Prop where
  flag : passed = status.flag
  scored : score.isSome = status.flag.isSome
  bounded : ∀ x ∈ score, x.IsShare

/-- The flag and the score of an output fit its status. -/
def EvaluatorOutput.coherent (o : EvaluatorOutput) : Prop :=
  Coherent o.status o.passed o.score

theorem coherent_outcome {name version : String} {passed : Bool} {score : Option Float64}
    {explanation : String} {evidence : Dict} {output : Option Dict}
    (h : ∀ x ∈ score, x.IsShare) :
  (outcome name version passed score explanation evidence output).coherent
  := by
  constructor
  · cases passed <;> rfl
  · cases passed <;> rfl
  · intro x hx
    cases hx
    cases score with
    | some x => exact h x rfl
    | none =>
      cases passed
      · exact ⟨0, rfl, le_refl 0, zero_le_one⟩
      · exact ⟨1, rfl, zero_le_one, le_refl 1⟩

theorem coherent_outcome_some {name version : String} {passed : Bool} {score : Float64}
    {explanation : String} {evidence : Dict} {output : Option Dict} (h : score.IsShare) :
  (outcome name version passed (some score) explanation evidence output).coherent
  := by
  apply coherent_outcome
  intro x hx
  cases hx
  exact h

/-- An output without a flag and a score, of a check that was not decided. -/
theorem coherent_undecided {o : EvaluatorOutput} (h : o.status.flag = none)
    (hpassed : o.passed = none) (hscore : o.score = none) :
  o.coherent
  := by
  constructor
  · rw [hpassed, h]
  · rw [hscore, h]
    rfl
  · simp [hscore]

/-! ### Registered evaluators -/

/-- Whatever the evaluator returns is coherent. -/
def Evaluator.ReturnsCoherent (evaluator : Evaluator) : Prop :=
  ∀ input config context output,
    evaluator.evaluate input config context = .ok output → output.coherent

theorem RequiredFields.coherent_evaluate (b : Builtins) (input config : Dict)
    (context : ExecutionContext) (output : EvaluatorOutput)
    (h : evaluate b input config context = .ok output) :
  output.coherent
  := by
  obtain ⟨params, -, h⟩ := bind_eq_ok.mp h
  obtain ⟨fields, -, h⟩ := bind_eq_ok.mp h
  obtain ⟨checked, hchecked, h⟩ := bind_eq_ok.mp h
  cases h
  apply coherent_outcome_some
  apply isShare_share
  rw [List.length_map, (Python.forall₂_of_mapM hchecked).length_eq]
  exact (List.length_filter_le _ _).trans (le_max_left _ _)

theorem WorkflowOrder.coherent_evaluate (b : Builtins) (input config : Dict)
    (context : ExecutionContext) (output : EvaluatorOutput)
    (h : evaluate b input config context = .ok output) :
  output.coherent
  := by
  obtain ⟨params, -, h⟩ := bind_eq_ok.mp h
  obtain ⟨value, -, h⟩ := bind_eq_ok.mp h
  obtain ⟨spans, -, h⟩ := bind_eq_ok.mp h
  cases h
  apply coherent_outcome_some
  apply isShare_ite isShare_one
  apply isShare_share
  exact (List.length_filter_le _ _).trans (le_max_left _ _)

theorem SpanExists.coherent_evaluate (b : Builtins) (input config : Dict)
    (context : ExecutionContext) (output : EvaluatorOutput)
    (h : evaluate b input config context = .ok output) :
  output.coherent
  := by
  obtain ⟨required, -, h⟩ := bind_eq_ok.mp h
  obtain ⟨value, -, h⟩ := bind_eq_ok.mp h
  obtain ⟨spans, -, h⟩ := bind_eq_ok.mp h
  cases h
  apply coherent_outcome_some
  apply isShare_share
  exact (List.length_filter_le _ _).trans (le_max_left _ _)

theorem ToolCalls.coherent_check (params : Params) (calls : List Dict) :
  (check params calls).coherent
  := by
  apply coherent_outcome_some
  split
  · exact isShare_one
  · unfold partialScore
    split
    · exact isShare_zero
    · apply isShare_share
      exact Nat.sub_le _ _

theorem ToolCalls.coherent_evaluate (b : Builtins) (input config : Dict)
    (context : ExecutionContext) (output : EvaluatorOutput)
    (h : evaluate b input config context = .ok output) :
  output.coherent
  := by
  obtain ⟨params, -, h⟩ := bind_eq_ok.mp h
  obtain ⟨raw, -, h⟩ := bind_eq_ok.mp h
  split at h
  case h_1 calls _ =>
    cases h
    apply coherent_check
  case h_2 =>
    cases h
    exact coherent_outcome_some isShare_zero

/-- Whatever a model answers is made a coherent output, or raises. -/
theorem Judge.coherent_settle {e : Environment} {input : Dict} {call : Call}
    {response : LLMResponse} {output : EvaluatorOutput}
    (h : settle e input call response = .ok output) :
  output.coherent
  := by
  unfold settle at h
  simp only at h
  split at h
  case h_1 =>
    cases h
    exact coherent_undecided rfl rfl rfl
  case h_2 verdict _ =>
    obtain ⟨raw, -, h⟩ := bind_eq_ok.mp h
    cases h
    apply coherent_outcome_some
    cases raw with
    | some x => exact exists_clamp x
    | none =>
      simp only [Option.map_none, Option.getD_none]
      split
      · exact isShare_one
      · exact isShare_zero

theorem Judge.coherent_evaluate (e : Environment) (input config : Dict)
    (context : ExecutionContext) (output : EvaluatorOutput)
    (h : evaluate e input config context = .ok output) :
  output.coherent
  := by
  obtain ⟨call, -, h⟩ := bind_eq_ok.mp h
  obtain ⟨response, -, h⟩ := bind_eq_ok.mp h
  exact coherent_settle h

/-- Every evaluator that a check can name returns coherent outputs only. -/
theorem coherent_getEvaluator {e : Judge.Environment} {name : Json} {evaluator : Evaluator}
    (h : getEvaluator e name = .ok evaluator) :
  evaluator.ReturnsCoherent
  := by
  unfold getEvaluator at h
  simp only at h
  split at h
  case h_2 => cases h
  case h_1 found hfound =>
    cases h
    have hmem := List.mem_of_find?_eq_some hfound
    simp only [implementations, List.mem_cons, List.not_mem_nil, or_false] at hmem
    rcases hmem with rfl | rfl | rfl | rfl | rfl
    · exact RequiredFields.coherent_evaluate e.builtins
    · exact WorkflowOrder.coherent_evaluate e.builtins
    · exact SpanExists.coherent_evaluate e.builtins
    · exact ToolCalls.coherent_evaluate e.builtins
    · exact Judge.coherent_evaluate e

/-- A run stamps its output, and leaves flag and score alone. -/
theorem Evaluator.ReturnsCoherent.run {evaluator : Evaluator} (h : evaluator.ReturnsCoherent)
    {elapsed : Float64} {input config : Dict} {context : ExecutionContext}
    {output : EvaluatorOutput} (hrun : evaluator.run elapsed input config context = .ok output) :
  output.coherent
  := by
  obtain ⟨raw, hraw, hrun⟩ := bind_eq_ok.mp hrun
  cases hrun
  have hcoherent := h _ _ _ _ hraw
  exact ⟨hcoherent.flag, hcoherent.scored, hcoherent.bounded⟩

/-! ### Verdicts -/

/-- The evaluators that an execution finds are the registered ones. -/
def Collaborators.Registered (c : Collaborators) : Prop :=
  ∃ e : Judge.Environment, c.getEvaluator = Evalorch.getEvaluator e

theorem registered_with (e : Judge.Environment) (c : Collaborators) :
  ({ c with getEvaluator := getEvaluator e } : Collaborators).Registered
  := ⟨e, rfl⟩

theorem coherent_notApplicable (evaluator : Evaluator) (explanation : String) (evidence : Dict)
    (errorCode : String) :
  (evaluator.notApplicable explanation evidence errorCode).coherent
  := coherent_undecided rfl rfl rfl

theorem verdictOf_output (settings : Settings) (c : Collaborators) (ticket : EvaluationTicket)
    (output : EvaluatorOutput) :
  (verdictOf settings c ticket output).output = output
  := by
  unfold verdictOf
  split <;> rfl

theorem coherent_settleNotApplicable {c : Collaborators} {r : ResolvedMetric}
    {explanation errorCode : String} {v : Verdict}
    (h : settleNotApplicable c r explanation errorCode = .ok v) :
  v.output.coherent
  := by
  obtain ⟨_, -, h⟩ := bind_eq_ok.mp h
  obtain ⟨evaluator, -, h⟩ := bind_eq_ok.mp h
  cases h
  apply coherent_notApplicable

/-- The verdict of an execution that finds registered evaluators is coherent. -/
theorem coherent_judgeMetric {settings : Settings} {c : Collaborators} (hc : c.Registered)
    {ticket : EvaluationTicket} {owner : Option String} {snapshot : Dict} {r : ResolvedMetric}
    {v : Verdict} (h : judgeMetric settings c ticket owner snapshot r = .ok v) :
  v.output.coherent
  := by
  obtain ⟨e, he⟩ := hc
  obtain ⟨⟨applicable, reason⟩, -, h⟩ := bind_eq_ok.mp h
  simp only at h
  split at h
  case isTrue => exact coherent_settleNotApplicable h
  case isFalse =>
    split at h
    case isTrue =>
      split at h
      case h_1 => exact coherent_settleNotApplicable h
      case h_2 => cases h
    case isFalse =>
      obtain ⟨name, -, h⟩ := bind_eq_ok.mp h
      obtain ⟨evaluator, hevaluator, h⟩ := bind_eq_ok.mp h
      obtain ⟨output, hrun, h⟩ := bind_eq_ok.mp h
      cases h
      rw [verdictOf_output]
      rw [he] at hevaluator
      exact (coherent_getEvaluator hevaluator).run hrun

/-- So is what a failure is recorded with. -/
theorem coherent_failureVerdict (ticket : EvaluationTicket) (resolved : Option ResolvedInput)
    (exc : Exn) :
  (failureVerdict ticket resolved exc).output.coherent
  := by
  unfold failureVerdict
  simp only
  split
  · refine ⟨rfl, rfl, ?_⟩
    intro x hx
    cases hx
    exact isShare_zero
  · exact coherent_undecided rfl rfl rfl

end Evalorch
