import Evalorch.Evaluators.LLM.Judge
import Evalorch.Transact.Program
import Evalorch.Verdicts.Order

/-!
# The verdict of the judge

The text of a model is untrusted. A text without an object is an error, and a score is always one
between zero and one. But a verdict passes by the truth value of its `passed`, which every text
that is not empty has, and by a score that `float` reads from a text, or that is not a number and
is clamped to one.
-/

namespace Evalorch

open Evaluator

namespace Judge

variable {e : Environment}

/-! ### What a text deserves -/

/-- The document is a number. -/
def IsNumber : Json → Prop
  | .int _ => True
  | .float x => x ≠ .nan
  | _ => False

/-- The text has an object that says it passed, or says nothing and has a number as its score,
which reaches the threshold. -/
def DeservesPass (e : Environment) (text : String) (threshold : Float64) : Prop :=
  ∃ verdict, parseJudgeResponse e text = .ok verdict
    ∧ (verdict.lookup "passed" = some (.bool true)
      ∨ (verdict.lookup "passed" = none ∧ IsNumber (verdict.get "score")
        ∧ ∃ score, toFloat e (verdict.get "score") = .ok score
          ∧ score.clamp.ge threshold = true))

/-- What an output may say of a text. -/
structure Sound (e : Environment) (text : String) (threshold : Float64)
    (output : EvaluatorOutput) : Prop where
  passed : output.status = .passed → DeservesPass e text threshold
  bounded : output.status = .passed ∨ output.status = .failed →
    ∃ score, output.score = some (.finite score) ∧ 0 ≤ score ∧ score ≤ 1
  unparsed : (∀ verdict, parseJudgeResponse e text ≠ .ok verdict) →
    output.status = .error ∧ output.score = none

/-- What an evaluation may make of a text: its outputs are sound, and a text without an object ends
in an error without a score. -/
structure SoundOn (e : Environment) (text : String) (threshold : Float64)
    (evaluation : Except Exn EvaluatorOutput) : Prop where
  sound : ∀ output, evaluation = .ok output → Sound e text threshold output
  unparsed : (∀ verdict, parseJudgeResponse e text ≠ .ok verdict) →
    ∃ output, evaluation = .ok output ∧ output.status = .error ∧ output.score = none

/-- The object of the text passes by a conversion: its `passed` counts as true without being true,
or it has none and a score that is not a number, from which `float` makes one that reaches the
threshold. -/
def PassesByConversion (e : Environment) (text : String) (threshold : Float64) : Prop :=
  ∃ verdict score, parseJudgeResponse e text = .ok verdict ∧ rawScore e verdict = .ok score
    ∧ ((∃ passed, verdict.lookup "passed" = some passed ∧ passed.truthy = true
        ∧ passed ≠ .bool true)
      ∨ (verdict.lookup "passed" = none ∧ ¬ IsNumber (verdict.get "score")
        ∧ ∃ x, score = some x ∧ x.clamp.ge threshold = true))

/-! ### Scores -/

/-- A clamped score is between zero and one, whatever it was. -/
theorem exists_clamp (x : Float64) :
  ∃ score, x.clamp = .finite score ∧ 0 ≤ score ∧ score ≤ 1
  := by
  cases x with
  | finite q =>
    rcases lt_or_ge q 1 with hone | hone
    · rcases lt_or_ge 0 q with hzero | hzero
      · refine ⟨q, ?_, hzero.le, hone.le⟩
        simp [Float64.clamp, Float64.min, Float64.max, Float64.lt, hone, hzero]
      · refine ⟨0, ?_, le_refl 0, zero_le_one⟩
        simp [Float64.clamp, Float64.min, Float64.max, Float64.lt, hone, hzero.not_gt]
    · refine ⟨1, ?_, zero_le_one, le_refl 1⟩
      simp [Float64.clamp, Float64.min, Float64.max, Float64.lt, hone.not_gt]
  | infinity => exact ⟨1, rfl, zero_le_one, le_refl 1⟩
  | negInfinity => exact ⟨0, rfl, le_refl 0, zero_le_one⟩
  | nan => exact ⟨1, rfl, zero_le_one, le_refl 1⟩

/-- A raw score is what `float` makes of the score. -/
theorem toFloat_of_rawScore {verdict : Dict} {x : Float64}
    (h : rawScore e verdict = .ok (some x)) :
  toFloat e (verdict.get "score") = .ok x
  := by
  unfold rawScore at h
  split at h
  · cases h
  · split at h <;> cases h
    assumption

/-! ### The verdict -/

/-- A verdict deserves its pass exactly when it does not pass by a conversion. -/
theorem deservesPass_iff {text : String} {threshold : Float64} {verdict : Dict}
    {score : Option Float64} (hverdict : parseJudgeResponse e text = .ok verdict)
    (hscore : rawScore e verdict = .ok score) :
  (decidePassed verdict (score.map Float64.clamp) threshold = true →
      DeservesPass e text threshold)
    ↔ ¬ PassesByConversion e text threshold
  := by
  constructor
  · rintro h ⟨_, _, hverdict', hscore', hconversion⟩
    cases hverdict.symm.trans hverdict'
    cases hscore.symm.trans hscore'
    rcases hconversion with ⟨passed, hpassed, htruthy, hne⟩ | ⟨hnone, hnumber, x, rfl, hreached⟩
    · obtain ⟨_, hverdict', hdeserved⟩ := h (by simp [decidePassed, hpassed, htruthy])
      cases hverdict.symm.trans hverdict'
      rcases hdeserved with htrue | ⟨hnone, -⟩
      · exact hne (Option.some.inj (hpassed.symm.trans htrue))
      · cases hpassed.symm.trans hnone
    · obtain ⟨_, hverdict', hdeserved⟩ := h (by simp [decidePassed, hnone, hreached])
      cases hverdict.symm.trans hverdict'
      rcases hdeserved with htrue | ⟨-, hnumber', -⟩
      · cases hnone.symm.trans htrue
      · exact hnumber hnumber'
  · intro hnot hpasses
    use verdict, hverdict
    cases hpassed : verdict.lookup "passed" with
    | some passed =>
      left
      have htruthy : passed.truthy = true := by simpa [decidePassed, hpassed] using hpasses
      by_contra hne
      apply hnot
      exact ⟨verdict, score, hverdict, hscore, .inl ⟨passed, hpassed, htruthy,
        fun htrue => hne (by rw [htrue])⟩⟩
    | none =>
      right
      cases score with
      | none => simp [decidePassed, hpassed] at hpasses
      | some x =>
        have hreached : x.clamp.ge threshold = true := by
          simpa [decidePassed, hpassed] using hpasses
        have hnumber : IsNumber (verdict.get "score") := by
          by_contra hnumber
          apply hnot
          exact ⟨verdict, some x, hverdict, hscore, .inr ⟨hpassed, hnumber, x, rfl, hreached⟩⟩
        exact ⟨rfl, hnumber, x, toFloat_of_rawScore hscore, hreached⟩

/-- The output for a verdict. -/
theorem settle_verdict {input : Dict} {call : Call} {response : LLMResponse} {verdict : Dict}
    {score : Option Float64} (hverdict : parseJudgeResponse e response.output = .ok verdict)
    (hscore : rawScore e verdict = .ok score) :
  ∃ output, settle e input call response = .ok output
    ∧ (output.status = .passed
      ↔ decidePassed verdict (score.map Float64.clamp) call.passThreshold = true)
    ∧ ∃ bounded, output.score = some (.finite bounded) ∧ 0 ≤ bounded ∧ bounded ≤ 1
  := by
  have hsettle := settle.eq_def e input call response
  simp only [hverdict, hscore, bind, Except.bind] at hsettle
  refine ⟨_, hsettle, ?_, ?_⟩
  · cases decidePassed verdict (score.map Float64.clamp) call.passThreshold <;> simp [outcome]
  · cases score with
    | some x =>
      obtain ⟨bounded, hclamp, hbounds⟩ := exists_clamp x
      exact ⟨bounded, by simp [outcome, hclamp], hbounds⟩
    | none =>
      cases hpassed : decidePassed verdict none call.passThreshold
      · exact ⟨0, by simp [outcome, hpassed], le_refl 0, zero_le_one⟩
      · exact ⟨1, by simp [outcome, hpassed], zero_le_one, le_refl 1⟩

/-- What an evaluation makes of the text of a model is sound exactly when the object of the text
does not pass by a conversion. -/
theorem judge_sound_iff {input config : Dict} {context : ExecutionContext} {call : Call}
    {response : LLMResponse} (hcall : prepareCall e input config context = .ok call)
    (hresponse : ask e call = .ok response) :
  SoundOn e response.output call.passThreshold (evaluate e input config context)
    ↔ ¬ PassesByConversion e response.output call.passThreshold
  := by
  have hevaluate : evaluate e input config context = settle e input call response := by
    rw [evaluate, hcall]
    simp only [bind, Except.bind, hresponse]
  rw [hevaluate]
  cases hverdict : parseJudgeResponse e response.output with
  | error message =>
    have hnot : ¬ PassesByConversion e response.output call.passThreshold := by
      rintro ⟨verdict, score, h, -⟩
      rw [hverdict] at h
      cases h
    have hsettle : settle e input call response
        = .ok (unparseable (evidenceOf e input call response) message) := by
      rw [settle, hverdict]
    rw [hsettle]
    refine ⟨fun _ => hnot, fun _ => ⟨?_, fun _ => ⟨_, rfl, rfl, rfl⟩⟩⟩
    intro output houtput
    cases houtput
    constructor
    · intro h
      cases h
    · intro h
      rcases h with h | h <;> cases h
    · exact fun _ => ⟨rfl, rfl⟩
  | ok verdict =>
    cases hscore : rawScore e verdict with
    | error exn =>
      have hsettle : settle e input call response = .error exn := by
        rw [settle, hverdict]
        simp only [hscore, bind, Except.bind]
      rw [hsettle]
      constructor
      · rintro - ⟨_, _, hverdict', hscore', -⟩
        cases hverdict.symm.trans hverdict'
        cases hscore.symm.trans hscore'
      · intro _
        constructor
        · intro output houtput
          cases houtput
        · exact fun hunparsed => absurd hverdict (hunparsed verdict)
    | ok score =>
      rw [← deservesPass_iff hverdict hscore]
      obtain ⟨output, hsettle, hstatus, hbounded⟩ := settle_verdict hverdict hscore
      rw [hsettle]
      constructor
      · intro h hpasses
        exact (h.sound output rfl).passed (hstatus.mpr hpasses)
      · intro h
        constructor
        · intro output houtput
          cases houtput
          refine ⟨fun hpassed => h (hstatus.mp hpassed), fun _ => hbounded, ?_⟩
          exact fun hunparsed => absurd hverdict (hunparsed verdict)
        · exact fun hunparsed => absurd hverdict (hunparsed verdict)

end Judge

namespace Demo

open Judge

/-- The input of a check, as `json.dumps` renders it. -/
def renderedInput : String :=
  "\x7b\n  \"answer\": \"yes\"\n\x7d"

/-- A model that answers every prompt by a text, which decodes to a given document. -/
def judging (text : String) (document : Json) : Environment where
  builtins := builtins
  settings := .default
  inputCostPer1m := 15 / 100
  outputCostPer1m := 60 / 100
  dumps _ _ := renderedInput
  loads object := if object = text then .ok document else .error "Expecting value"
  format _ criteria _ := .ok (builtins.str criteria)
  floatOfText _ := none
  generate _ _ _ _ := .ok ⟨text, .finite 1, 1, 1, "gpt-4o-mini"⟩

/-- A check with a prompt that shows the criteria only. -/
def judgeConfig : Dict :=
  [("params", .dict [("criteria", .str "clear"), ("prompt_template", .str "\x7bcriteria\x7d")])]

/-- The input of the check. -/
def judgeInput : Dict := [("answer", .str "yes")]

/-- A text whose object says that the check failed. -/
def failedText : String := "\x7b\"passed\": false\x7d"

/-- A text whose object says so in a text. -/
def quotedText : String := "\x7b\"passed\": \"false\"\x7d"

end Demo

namespace Judge

/-- A verdict that says it failed is sound. -/
theorem judge_sound_demo :
  ∃ output, evaluate (Demo.judging Demo.failedText (.dict [("passed", .bool false)]))
      Demo.judgeInput Demo.judgeConfig Demo.context = .ok output
    ∧ Sound (Demo.judging Demo.failedText (.dict [("passed", .bool false)])) Demo.failedText
      (.finite (7 / 10)) output
  := by
  have hnot : ¬ PassesByConversion (Demo.judging Demo.failedText (.dict [("passed", .bool false)]))
      Demo.failedText (.finite (7 / 10)) := by
    rintro ⟨verdict, score, hverdict, -, hconversion⟩
    cases hverdict
    rcases hconversion with ⟨passed, hpassed, htruthy, -⟩ | ⟨hnone, -⟩
    · cases hpassed
      cases htruthy
    · cases hnone
  have hsound := (@judge_sound_iff
    (Demo.judging Demo.failedText (.dict [("passed", .bool false)]))
    Demo.judgeInput Demo.judgeConfig Demo.context
    ⟨.str "clear", .str "openai", .str "gpt-4o-mini", .finite 0, 300, .finite (7 / 10), "clear"⟩
    ⟨Demo.failedText, .finite 1, 1, 1, "gpt-4o-mini"⟩ rfl rfl).mpr hnot
  exact ⟨_, rfl, hsound.sound _ rfl⟩

/-- A verdict that says in a text that it failed passes. -/
theorem judge_sound_counterexample :
  ∃ output, evaluate (Demo.judging Demo.quotedText (.dict [("passed", .str "false")]))
      Demo.judgeInput Demo.judgeConfig Demo.context = .ok output
    ∧ output.status = .passed
    ∧ ¬ DeservesPass (Demo.judging Demo.quotedText (.dict [("passed", .str "false")]))
      Demo.quotedText (.finite (7 / 10))
  := by
  refine ⟨_, rfl, rfl, ?_⟩
  rintro ⟨verdict, hverdict, hdeserved⟩
  cases hverdict
  rcases hdeserved with htrue | ⟨hnone, -⟩
  · cases htrue
  · cases hnone

end Judge

end Evalorch
