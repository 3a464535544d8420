import Evalorch.Models.Entities

/-!
# Settings

The settings that ticket handling reads, with what their validators enforce.
-/

namespace Evalorch

/-- The validated settings. -/
structure Settings where
  runnerClaimBatchSize : ℕ
  runnerLeaseSeconds : ℤ
  runnerMaxAttempts : ℤ
  retryBackoffSeconds : List ℚ
  runnerRecoveryBatchLimit : ℕ
  persistDeadlockMaxRetries : ℕ
  /-- `not_applicable` or `fail`. -/
  defaultOnMissingContext : OnMissingContext
  claimBatchSize_pos : 1 ≤ runnerClaimBatchSize
  leaseSeconds_pos : 1 ≤ runnerLeaseSeconds
  maxAttempts_pos : 1 ≤ runnerMaxAttempts
  backoff_ne_nil : retryBackoffSeconds ≠ []
  backoff_nonneg : ∀ delay ∈ retryBackoffSeconds, 0 ≤ delay
  recoveryBatchLimit_pos : 1 ≤ runnerRecoveryBatchLimit
  persistRetries_pos : 1 ≤ persistDeadlockMaxRetries

namespace Settings

/-- The settings of an environment that sets nothing. -/
def default : Settings where
  runnerClaimBatchSize := 5
  runnerLeaseSeconds := 300
  runnerMaxAttempts := 3
  retryBackoffSeconds := [30, 60, 120]
  runnerRecoveryBatchLimit := 100
  persistDeadlockMaxRetries := 5
  defaultOnMissingContext := .notApplicable
  claimBatchSize_pos := by decide
  leaseSeconds_pos := by decide
  maxAttempts_pos := by decide
  backoff_ne_nil := by decide
  backoff_nonneg := by decide
  recoveryBatchLimit_pos := by decide
  persistRetries_pos := by decide

/-- `Settings.backoff_for_attempt`; `uniform a b` is what `random.uniform` draws. -/
def backoffForAttempt (settings : Settings) (uniform : ℚ → ℚ → ℚ) (attemptCount : ℤ) : ℚ :=
  let delays := settings.retryBackoffSeconds
  let index := min (max (attemptCount - 1) 0) (delays.length - 1)
  let base := delays.getD index.toNat 0
  if base ≤ 0 then 0 else base + uniform 0 (min (base * (1 / 5)) 1)

end Settings

/-- The settings that the creation of a job reads besides. -/
structure CreationSettings extends Settings where
  defaultProvider : String
  judgeModel : String
  idempotencyKeyMaxLength : ℕ
  keyMaxLength_pos : 1 ≤ idempotencyKeyMaxLength

/-- The settings of an environment that sets nothing. -/
def CreationSettings.default : CreationSettings where
  toSettings := .default
  defaultProvider := "openai"
  judgeModel := "gpt-4o-mini"
  idempotencyKeyMaxLength := 200
  keyMaxLength_pos := by decide

/-- `default_on_missing_context`. -/
def OnMissingContext.value : OnMissingContext → String
  | .notApplicable => "not_applicable"
  | .fail => "fail"

end Evalorch
