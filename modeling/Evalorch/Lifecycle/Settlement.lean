import Evalorch.Lifecycle.StateMachine

/-!
# What an execution settles

`executeTicket` is played against a schedule of database states: the first is the one it loads
from, the next ones are those its settlements meet. Between loading and settling it evaluates
the metric, which is a function of what it loaded (`evaluation`). On a ticket that its worker
keeps, in a job that is not cancelled, it settles once, and what it settles to depends on what
the evaluation found (`Finding`).
-/

namespace Evalorch

open Transact TicketRepository JobRepository

/-! ### Playing the settlements -/

/-- A settlement whose `StaleWorkerError` is turned into the stale outcome. -/
def absorbed (ticket : EvaluationTicket) : Except Exn TicketOutcome → Except Exn TicketOutcome
  | .error (.staleWorker _) => .ok (staleOutcome ticket)
  | outcome => outcome

theorem play_orStale (sched : ℕ → Db) (ticket : EvaluationTicket) (tag : Tag)
    (body : Db → Except Exn (TicketOutcome × Db)) :
  (orStale ticket (Program.atomically tag body)).play sched
    = ([(sched 0, committed (body (sched 0)) (sched 0))],
      absorbed ticket ((body (sched 0)).map Prod.fst))
  := by
  unfold orStale
  rw [Program.play_attempt, Program.play_atomically]
  generalize (body (sched 0)).map Prod.fst = outcome
  rcases outcome with e | outcome
  · cases e <;> rfl
  · rfl

/-- Without a deadlock `_persist` attempts to persist once. -/
theorem play_persist (sched : ℕ → Db) (settings : Settings) (c : Collaborators) (drawn : ℕ)
    (ticket : EvaluationTicket) (v : Verdict) (resolved : Option ResolvedInput)
    (workerId : Option String)
    (hdeadlock : ∀ e, persistOnce (c.uuid4 drawn) ticket v (resolved.map ResolvedInput.asSnapshot)
      workerId (sched 0) = .error e → isPostgresDeadlock e = false) :
  (persist settings c drawn ticket v resolved workerId).play sched
    = ([(sched 0, committed (persistOnce (c.uuid4 drawn) ticket v
        (resolved.map ResolvedInput.asSnapshot) workerId (sched 0)) (sched 0))],
      absorbed ticket ((persistOnce (c.uuid4 drawn) ticket v
        (resolved.map ResolvedInput.asSnapshot) workerId (sched 0)).map Prod.fst))
  := by
  obtain ⟨n, hn⟩ := Nat.exists_eq_add_of_le' settings.persistRetries_pos
  unfold persist
  rw [hn, persistLoop, Program.play_attempt, Program.play_atomically]
  simp only [Nat.add_zero]
  cases h : persistOnce (c.uuid4 drawn) ticket v (resolved.map ResolvedInput.asSnapshot) workerId
      (sched 0) with
  | ok r => rfl
  | error e =>
    have hnot := hdeadlock e h
    cases e <;> simp_all [Except.map, absorbed]

/-! ### Evaluating -/

/-- The snapshot that an execution loads: the stored one, or that of its copy. -/
def loadedSnapshot (ticket : EvaluationTicket) (db : Db) : Dict :=
  (((db.ticket ticket.id).map EvaluationTicket.metricSnapshotJson).filter
    (!·.isEmpty)).getD ticket.metricSnapshotJson

theorem loadState_ok {ticket : EvaluationTicket} {db : Db} {job : EvaluationJob}
    (hjob : db.job ticket.jobId = some job)
    (hopen : job.cancellationRequestedAt = none ∧ job.status ≠ .cancelled) :
  loadState ticket db = .ok ((job, loadedSnapshot ticket db), db)
  := by
  unfold loadState
  rw [hjob]
  simp [hopen, loadedSnapshot]

/-- What `execute_ticket` evaluates after loading: the verdict or the exception, and what had
been resolved by then. -/
def evaluation (settings : Settings) (c : Collaborators) (ticket : EvaluationTicket)
    (owner : Option String) (job : EvaluationJob) (snapshot : Dict) :
    Except Exn Verdict × Option ResolvedInput :=
  match resolveMetric settings c ticket job snapshot with
  | .error e => (.error e, none)
  | .ok r => (judgeMetric settings c ticket owner snapshot r, some r.resolved)

/-- After loading, `execute_ticket` handles the exception of its evaluation. -/
theorem evaluateAndPersist_of_error {settings : Settings} {c : Collaborators}
    {ticket : EvaluationTicket} {owner : Option String} {job : EvaluationJob} {snapshot : Dict}
    {e : Exn} (h : (evaluation settings c ticket owner job snapshot).1 = .error e) :
  evaluateAndPersist settings c ticket owner job snapshot
    = exceptHandlers settings c 0 ticket (evaluation settings c ticket owner job snapshot).2
        owner e
  := by
  cases hresolved : resolveMetric settings c ticket job snapshot with
  | error e' =>
    simp only [evaluation, hresolved] at h
    cases h
    simp only [evaluateAndPersist, evaluation, hresolved]
  | ok r =>
    simp only [evaluation, hresolved] at h
    simp only [evaluateAndPersist, evaluation, hresolved, h]

/-- After loading, `execute_ticket` persists the verdict of its evaluation and handles what that
raises. -/
theorem evaluateAndPersist_of_ok {settings : Settings} {c : Collaborators}
    {ticket : EvaluationTicket} {owner : Option String} {job : EvaluationJob} {snapshot : Dict}
    {v : Verdict} (h : (evaluation settings c ticket owner job snapshot).1 = .ok v) :
  evaluateAndPersist settings c ticket owner job snapshot
    = (persist settings c 0 ticket v (evaluation settings c ticket owner job snapshot).2
        owner).handle (exceptHandlers settings c settings.persistDeadlockMaxRetries ticket
          (evaluation settings c ticket owner job snapshot).2 owner)
  := by
  cases hresolved : resolveMetric settings c ticket job snapshot with
  | error e' =>
    simp only [evaluation, hresolved] at h
    cases h
  | ok r =>
    simp only [evaluation, hresolved] at h
    simp only [evaluateAndPersist, evaluation, hresolved, h]

/-- The verdict of an evaluation is sound. -/
theorem sound_evaluation {settings : Settings} {c : Collaborators} {ticket : EvaluationTicket}
    {owner : Option String} {job : EvaluationJob} {snapshot : Dict} {v : Verdict}
    (h : (evaluation settings c ticket owner job snapshot).1 = .ok v) :
  v.sound ticket
  := by
  unfold evaluation at h
  split at h
  case h_1 => cases h
  case h_2 => apply sound_judgeMetric h

/-! ### Findings -/

/-- What an evaluation comes to: an exception, a metric that does not apply, required context
that is missing under either policy, or an output. -/
inductive Finding where
  | raised (e : Exn)
  | inapplicable
  | contextMissing
  | contextRequired
  | returned (output : EvaluatorOutput)

section Findings

variable (settings : Settings) (c : Collaborators) (ticket : EvaluationTicket)
  (owner : Option String) (job : EvaluationJob) (snapshot : Dict)

/-- The evaluation of a ticket has come to a finding. -/
inductive Finds : Finding → Prop where
  | unresolved {e} (raised : resolveMetric settings c ticket job snapshot = .error e) :
      Finds (.raised e)
  | unjudged {r e} (resolved : resolveMetric settings c ticket job snapshot = .ok r)
      (raised : judgeMetric settings c ticket owner snapshot r = .error e) : Finds (.raised e)
  | inapplicable {r reason name evaluator}
      (resolved : resolveMetric settings c ticket job snapshot = .ok r)
      (applies : c.applies r.metric r.resolved r.payload = .ok (false, reason))
      (named : r.metric.item "evaluator" = .ok name) (found : c.getEvaluator name = .ok evaluator) :
      Finds .inapplicable
  | contextMissing {r reason name evaluator}
      (resolved : resolveMetric settings c ticket job snapshot = .ok r)
      (applies : c.applies r.metric r.resolved r.payload = .ok (true, reason))
      (missing : r.resolved.ok = false) (policy : r.policy = .notApplicable)
      (named : r.metric.item "evaluator" = .ok name) (found : c.getEvaluator name = .ok evaluator) :
      Finds .contextMissing
  | contextRequired {r reason}
      (resolved : resolveMetric settings c ticket job snapshot = .ok r)
      (applies : c.applies r.metric r.resolved r.payload = .ok (true, reason))
      (missing : r.resolved.ok = false) (policy : r.policy = .fail) :
      Finds .contextRequired
  | returned {r reason name evaluator output}
      (resolved : resolveMetric settings c ticket job snapshot = .ok r)
      (applies : c.applies r.metric r.resolved r.payload = .ok (true, reason))
      (complete : r.resolved.ok = true) (named : r.metric.item "evaluator" = .ok name)
      (found : c.getEvaluator name = .ok evaluator)
      (ran : evaluator.run c.elapsedMs r.resolved.values r.metric {
        jobId := ticket.jobId
        ticketId := ticket.id
        payloadId := ticket.payloadId
        checkId := ticket.checkId
        checkType := ticket.checkType
        attempt := ticket.attemptCount
        maxAttempts := ticket.maxAttempts
        workerId := owner
        configSnapshot := snapshot } = .ok output) :
      Finds (.returned output)

end Findings

/-- The status a finding settles its ticket to, with attempts left or not. -/
def Finding.target (left : Bool) : Finding → TicketStatus
  | .inapplicable | .contextMissing => .notApplicable
  | .contextRequired => .failed
  | .returned output =>
      match output.status with
      | .passed | .failed => .done
      | .notApplicable => .notApplicable
      | .error => if left then .retry else .failed
  | .raised e =>
      match classifyError e with
      | .transient => if left then .retry else .failed
      | .permanent | .missingContext => .failed

/-- The status of the result that a finding is recorded with, when its ticket is settled and not
retried. -/
def Finding.resultStatus : Finding → ResultStatus
  | .inapplicable | .contextMissing => .notApplicable
  | .contextRequired => .failed
  | .returned output => output.status
  | .raised e => if classifyError e = .missingContext then .failed else .error

/-- Every evaluation comes to a finding. -/
theorem exists_finds (settings : Settings) (c : Collaborators) (ticket : EvaluationTicket)
    (owner : Option String) (job : EvaluationJob) (snapshot : Dict) :
  ∃ finding, Finds settings c ticket owner job snapshot finding
  := by
  cases hresolved : resolveMetric settings c ticket job snapshot with
  | error e => exact ⟨_, .unresolved hresolved⟩
  | ok r =>
    cases hjudged : judgeMetric settings c ticket owner snapshot r with
    | error e => exact ⟨_, .unjudged hresolved hjudged⟩
    | ok v =>
      obtain ⟨⟨applicable, reason⟩, happlies, h⟩ := bind_eq_ok.mp hjudged
      have hevaluator : ∀ {α : Type} {f : Evaluator → Except Exn α} {a : α},
          (do let evaluator ← c.getEvaluator (← r.metric.item "evaluator"); f evaluator) = .ok a →
          ∃ name evaluator, r.metric.item "evaluator" = .ok name
            ∧ c.getEvaluator name = .ok evaluator ∧ f evaluator = .ok a := by
        intro α f a h
        obtain ⟨name, hname, h⟩ := bind_eq_ok.mp h
        obtain ⟨evaluator, hfound, h⟩ := bind_eq_ok.mp h
        exact ⟨name, evaluator, hname, hfound, h⟩
      cases applicable with
      | false =>
        obtain ⟨name, evaluator, hname, hfound, -⟩ := hevaluator h
        exact ⟨_, .inapplicable hresolved happlies hname hfound⟩
      | true =>
        cases hok : r.resolved.ok with
        | true =>
          simp only [hok, Bool.not_true, Bool.false_eq_true, if_false] at h
          obtain ⟨name, evaluator, hname, hfound, h⟩ := hevaluator h
          obtain ⟨output, hran, -⟩ := bind_eq_ok.mp h
          exact ⟨_, .returned hresolved happlies hok hname hfound hran⟩
        | false =>
          simp only [hok, Bool.not_true, Bool.not_false, Bool.false_eq_true, if_false,
            if_true] at h
          cases hpolicy : r.policy with
          | fail => exact ⟨_, .contextRequired hresolved happlies hok hpolicy⟩
          | notApplicable =>
            rw [hpolicy] at h
            obtain ⟨name, evaluator, hname, hfound, -⟩ := hevaluator h
            exact ⟨_, .contextMissing hresolved happlies hok hpolicy hname hfound⟩

/-- The exception as which a finding reaches the exception handlers. -/
def Finding.handledAs (e : Exn) : Finding → Prop
  | .raised e' => e' = e
  | .contextRequired => ∃ message, e = .missingContext message
  | _ => False

/-- An exception and the finding it stands for are settled alike. -/
theorem Finding.handledAs.settled_alike {e : Exn} {finding : Finding} (h : finding.handledAs e) :
  (∀ left, finding.target left = (Finding.raised e).target left)
    ∧ finding.resultStatus = (Finding.raised e).resultStatus
    ∧ ∀ output, finding ≠ .returned output
  := by
  cases finding with
  | raised e' =>
    cases h
    exact ⟨fun _ => rfl, rfl, fun _ h => by cases h⟩
  | contextRequired =>
    obtain ⟨message, rfl⟩ := h
    exact ⟨fun _ => rfl, rfl, fun _ h => by cases h⟩
  | inapplicable | contextMissing | returned _ => cases h

/-- How a finding reaches the settlement: as a verdict with the status of the finding, or as an
exception for the handlers. -/
theorem evaluation_of_finds {settings : Settings} {c : Collaborators} {ticket : EvaluationTicket}
    {owner : Option String} {job : EvaluationJob} {snapshot : Dict} {finding : Finding}
    (h : Finds settings c ticket owner job snapshot finding) :
  (∃ v, (evaluation settings c ticket owner job snapshot).1 = .ok v
      ∧ (∀ e, ¬ finding.handledAs e)
      ∧ v.target = finding.target (ticket.attemptCount < ticket.maxAttempts)
      ∧ v.output.status = finding.resultStatus
      ∧ ∀ output, finding = .returned output → v.output = output)
    ∨ ∃ e, (evaluation settings c ticket owner job snapshot).1 = .error e ∧ finding.handledAs e
  := by
  cases h with
  | @unresolved e raised =>
    right
    use e
    simp [evaluation, raised, Finding.handledAs]
  | @unjudged r e resolved raised =>
    right
    use e
    simp [evaluation, resolved, raised, Finding.handledAs]
  | inapplicable resolved applies named found =>
    left
    simp only [evaluation, resolved, judgeMetric, applies, settleNotApplicable, named, found,
      bind, Except.bind, Bool.not_false, if_true]
    exact ⟨_, rfl, fun _ h => h, rfl, rfl, by simp⟩
  | contextMissing resolved applies missing policy named found =>
    left
    simp only [evaluation, resolved, judgeMetric, applies, missing, policy, settleNotApplicable,
      named, found, bind, Except.bind, Bool.not_true, Bool.not_false, Bool.false_eq_true, if_false,
      if_true]
    exact ⟨_, rfl, fun _ h => h, rfl, rfl, by simp⟩
  | @contextRequired r reason resolved applies missing policy =>
    right
    use .missingContext (contextUnavailable r.resolved)
    simp [evaluation, resolved, judgeMetric, applies, missing, policy, bind, Except.bind,
      Finding.handledAs]
  | @returned r reason name evaluator output resolved applies complete named found ran =>
    left
    simp only [evaluation, resolved, judgeMetric, applies, complete, named, found, ran, bind,
      Except.bind, Bool.not_true, Bool.false_eq_true, if_false]
    refine ⟨_, rfl, fun _ h => h, ?_, ?_, ?_⟩
    · cases hstatus : output.status <;> simp [verdictOf, Finding.target, hstatus]
    · unfold verdictOf Finding.resultStatus
      split <;> rfl
    · rintro output' hsame
      cases hsame
      unfold verdictOf
      split <;> rfl

/-! ### Settling a ticket that is kept -/

/-- A transaction settles a ticket to `target`, and touches no other ticket and no result of
another. When there is an output it is the ticket's result from then on. The outcome agrees
with what is stored. -/
structure Settles (ticket : EvaluationTicket) (target : TicketStatus)
    (output : Option EvaluatorOutput) (outcome : TicketOutcome) (db db' : Db) : Prop where
  row : ∃ t', db'.ticket ticket.id = some t' ∧ t'.status = target ∧ outcome.status = t'.status
    ∧ outcome.resultId = t'.resultId
  otherTickets : ∀ ticketId, ticketId ≠ ticket.id → db'.ticket ticketId = db.ticket ticketId
  otherResults : ∀ ticketId, ticketId ≠ ticket.id → db'.resultOf ticketId = db.resultOf ticketId
  unrecorded : output = none → db'.results = db.results ∧ outcome.resultId = none
  recorded : ∀ o, output = some o → ∃ r, db'.resultOf ticket.id = some r
    ∧ outcome.resultId = some r.id ∧ r.status = o.status ∧ r.passed = o.passed
    ∧ r.score = o.score ∧ r.explanation = o.explanation ∧ r.outputJson = o.asOutputJson

section Kept

variable {ticket t : EvaluationTicket} {worker : Worker} {db : Db}

/-- A settlement leaves the other tickets alone. -/
theorem ticket_of_settleTicket_ne {target : TicketStatus} {s : Settlement}
    {r : EvaluationTicket × Option JobProgress} {db' : Db}
    (h : settleTicket ticket.id target s (some ticket.jobId) (some worker.id) db = .ok (r, db'))
    {ticketId : Uuid} (hne : ticketId ≠ ticket.id) :
  db'.ticket ticketId = db.ticket ticketId
  := by
  obtain ⟨current, -, -, -, rfl⟩ := settleTicket_ok h
  rw [recomputeProgress_db, Db.ticket_updateJobs, settledBy, Db.ticket_updateTickets]
  cases ht : db.ticket ticketId with
  | none => rfl
  | some t =>
    rw [Option.map_some, patch_of_neg]
    simp [(Db.ticket_eq_some.mp ht).2, hne]

/-- The retry of a transient failure settles a ticket that its worker has. -/
theorem settleOnly_kept (hwell : t.wellFormed) (ht : db.ticket ticket.id = some t)
    (howns : owned worker.id t = true) (s : Settlement) {outcome : TicketOutcome}
    (houtcome : outcome.status = .retry ∧ outcome.resultId = none) :
  ∃ db', settleOnly ticket .retry s (some worker.id) outcome db = .ok (outcome, db')
    ∧ Settles ticket .retry none outcome db db'
  := by
  have hallowed : TicketStatus.retry ∈ allowedTicketTransitions .running := by decide
  obtain ⟨r, hr⟩ := settleTicket_owned ticket.jobId s worker.nonempty ht howns hallowed
  set db' := (recomputeProgress ticket.jobId (settledBy ticket.id worker.id .retry s db)).2
  have hnone := (hwell.running (owned_iff.mp howns).1).2.2.2.1
  use db'
  constructor
  · simp only [settleOnly, ht, hr, bind, Except.bind]
  constructor
  · exact ⟨_, ticket_of_settleTicket hr ht, rfl, houtcome.1, houtcome.2.trans hnone.symm⟩
  · exact fun ticketId hne => ticket_of_settleTicket_ne hr hne
  · intro ticketId _
    unfold Db.resultOf
    rw [results_of_settleTicket hr]
  · exact fun _ => ⟨results_of_settleTicket hr, houtcome.2⟩
  · intro o ho
    cases ho

/-- The arguments with which `_persist_once` settles the ticket. -/
def verdictSettlement (v : Verdict) (snapshot : Option Dict) (resultId : Option Uuid) :
    Settlement where
  resultId := resultId
  errorCode := v.errorCode
  errorMessage := v.errorMessage
  delaySeconds := v.delaySeconds
  inputSnapshot := snapshot

/-- `_persist_once` in a job that is not cancelled records and settles. -/
theorem persistOnce_of_open {id : Uuid} {v : Verdict} {snapshot : Option Dict}
    (ht : db.ticket ticket.id = some t) (hflag : ¬ db.cancelRequested ticket.jobId)
    {resultId : Option Uuid} {db₁ db₂ : Db} {r : EvaluationTicket × Option JobProgress}
    (hrecord : recordResult id ticket v snapshot db = .ok (resultId, db₁))
    (hsettle : settleTicket ticket.id v.target (verdictSettlement v snapshot resultId)
      (some ticket.jobId) (some worker.id) db₁ = .ok (r, db₂)) :
  ∃ outcome, persistOnce id ticket v snapshot (some worker.id) db = .ok (outcome, db₂)
    ∧ outcome.status = v.target ∧ outcome.resultId = resultId
  := by
  have hopen : ((getCancellationState ticket.jobId db).any Prod.snd) = false := by
    rw [← Bool.not_eq_true, cancelRequested_of_state]
    apply hflag
  unfold verdictSettlement at hsettle
  simp only [persistOnce, ht, hopen, Bool.false_and, Bool.false_eq_true, if_false, hrecord, hsettle,
    bind, Except.bind]
  exact ⟨_, rfl, rfl, rfl⟩

/-- `_persist_once` settles a ticket that its worker has, in a job that is not cancelled, to the
target of the verdict, with the verdict's output as result unless it is retried. -/
theorem persistOnce_kept (hwell : t.wellFormed) (ht : db.ticket ticket.id = some t)
    (howns : owned worker.id t = true) (hjobId : t.jobId = ticket.jobId)
    (hflag : ¬ db.cancelRequested ticket.jobId) {id : Uuid}
    (hfresh : ∀ r ∈ db.results.rows, r.id ≠ id) {v : Verdict} (hsound : v.sound ticket)
    (snapshot : Option Dict) :
  ∃ outcome db', persistOnce id ticket v snapshot (some worker.id) db = .ok (outcome, db')
    ∧ Settles ticket v.target (if v.target = .retry then none else some v.output) outcome db db'
  := by
  rcases hsound with ⟨hrecords, -⟩ | ⟨hretry, -⟩
  · have hallowed : v.target ∈ allowedTicketTransitions .running := by
      cases htarget : v.target <;> simp [htarget, recordsResult] at hrecords <;> decide
    have hnotRetry : v.target ≠ .retry := by
      intro htarget
      rw [htarget] at hrecords
      cases hrecords
    obtain ⟨j, hj⟩ := Db.exists_job (Db.ticket_eq_some.mp ht).1
    rw [hjobId] at hj
    obtain ⟨row, db₁, hupsert⟩ :=
      ResultRepository.exists_upsert (resultRow id ticket v snapshot db.now) ht hj hfresh
    have hup := ResultRepository.upsert_ok hupsert
    have hrecord : recordResult id ticket v snapshot db = .ok (some row.id, db₁) := by
      simp only [recordResult, hrecords, if_true, hupsert, bind, Except.bind]
    have htickets : ∀ ticketId, db₁.ticket ticketId = db.ticket ticketId := by
      intro ticketId
      unfold Db.ticket
      rw [hup.tickets]
    have ht₁ : db₁.ticket ticket.id = some t := (htickets _).trans ht
    obtain ⟨r, hr⟩ := settleTicket_owned ticket.jobId
      (verdictSettlement v snapshot (some row.id)) worker.nonempty ht₁ howns hallowed
    obtain ⟨outcome, hpersist, hstatus, hresultId⟩ := persistOnce_of_open ht hflag hrecord hr
    refine ⟨outcome, _, hpersist, ?_⟩
    have hresultOf : ∀ ticketId, Db.resultOf (recomputeProgress ticket.jobId (settledBy ticket.id
        worker.id v.target (verdictSettlement v snapshot (some row.id)) db₁)).2 ticketId
        = if ticketId = ticket.id then some row else db.resultOf ticketId := by
      intro ticketId
      rw [Db.resultOf, results_of_settleTicket hr]
      apply hup.resultOf ticketId
    rw [if_neg hnotRetry]
    constructor
    · obtain ⟨hsettled, hlink⟩ := transitionRow_records db₁.now
        (verdictSettlement v snapshot (some row.id)) t hrecords rfl
      exact ⟨_, ticket_of_settleTicket hr ht₁, hsettled, hstatus.trans hsettled.symm,
        hresultId.trans hlink.symm⟩
    · exact fun ticketId hne => (ticket_of_settleTicket_ne hr hne).trans (htickets ticketId)
    · intro ticketId hne
      rw [hresultOf, if_neg hne]
    · intro hnoOutput
      cases hnoOutput
    · rintro o ho
      cases ho
      refine ⟨row, ?_, hresultId, ?_⟩
      · rw [hresultOf, if_pos rfl]
      · obtain ⟨old, -, rfl⟩ | ⟨-, rfl⟩ := hup.written <;> exact ⟨rfl, rfl, rfl, rfl, rfl⟩
  · have hallowed : v.target ∈ allowedTicketTransitions .running := by
      rw [hretry]
      decide
    have hrecord : recordResult id ticket v snapshot db = .ok (none, db) := by
      simp [recordResult, hretry, recordsResult]
    obtain ⟨r, hr⟩ := settleTicket_owned ticket.jobId (verdictSettlement v snapshot none)
      worker.nonempty ht howns hallowed
    obtain ⟨outcome, hpersist, hstatus, hresultId⟩ := persistOnce_of_open ht hflag hrecord hr
    refine ⟨outcome, _, hpersist, ?_⟩
    have hnone := (hwell.running (owned_iff.mp howns).1).2.2.2.1
    rw [if_pos hretry]
    constructor
    · refine ⟨_, ticket_of_settleTicket hr ht, ?_, ?_, ?_⟩
      · rw [hretry]
        rfl
      · rw [hstatus, hretry]
        rfl
      · rw [hresultId, hretry]
        apply hnone.symm
    · exact fun ticketId hne => ticket_of_settleTicket_ne hr hne
    · intro ticketId _
      unfold Db.resultOf
      rw [results_of_settleTicket hr]
    · exact fun _ => ⟨results_of_settleTicket hr, hresultId⟩
    · intro o ho
      cases ho

end Kept

/-! ### The whole execution -/

/-- After loading, the rest of an execution is played on the later states. -/
theorem play_executeTicket (settings : Settings) (c : Collaborators) (ticket : EvaluationTicket)
    (worker : Worker) (sched : ℕ → Db) :
  (executeTicket settings c ticket (some worker.id)).play sched
    = ((sched 0, sched 0) :: ((match loadState ticket (sched 0) with
          | .ok ((job, snapshot), _) =>
              evaluateAndPersist settings c ticket (some worker.id) job snapshot
          | .error e => exceptHandlers settings c 0 ticket none (some worker.id) e).play
            fun k => sched (k + 1)).1,
      ((match loadState ticket (sched 0) with
          | .ok ((job, snapshot), _) =>
              evaluateAndPersist settings c ticket (some worker.id) job snapshot
          | .error e => exceptHandlers settings c 0 ticket none (some worker.id) e).play
            fun k => sched (k + 1)).2)
  := by
  unfold executeTicket
  rw [orText_of_ne worker.nonempty, Program.play_attempt, Program.play_atomically,
    committed_loadState]
  cases loadState ticket (sched 0) with
  | error e => rfl
  | ok r => rfl

/-- An exception that is no signal of the service goes to the failure handler. -/
theorem exceptHandlers_of_not_signal {settings : Settings} {c : Collaborators} {drawn : ℕ}
    {ticket : EvaluationTicket} {resolved : Option ResolvedInput} {owner : Option String} {e : Exn}
    (h : e.isSignal = false) :
  exceptHandlers settings c drawn ticket resolved owner e
    = handleFailure settings c drawn ticket e resolved owner
  := by cases e <;> first | rfl | cases h

section Kept

variable {c : Collaborators} {ticket t : EvaluationTicket} {worker : Worker}

/-- The retry transaction, played on a ticket that its worker has. -/
theorem play_settleOnly_kept {sched : ℕ → Db} (hwell : t.wellFormed)
    (ht : (sched 0).ticket ticket.id = some t) (howns : owned worker.id t = true) (tag : Tag)
    (s : Settlement) {outcome : TicketOutcome}
    (houtcome : outcome.status = .retry ∧ outcome.resultId = none) :
  ∃ db', (orStale ticket (Program.atomically tag
      (settleOnly ticket .retry s (some worker.id) outcome))).play sched
      = ([(sched 0, db')], .ok outcome)
    ∧ Settles ticket .retry none outcome (sched 0) db'
  := by
  obtain ⟨db', hsettle, hsettles⟩ := settleOnly_kept hwell ht howns s houtcome
  refine ⟨db', ?_, hsettles⟩
  rw [play_orStale, hsettle]
  rfl

/-- The failure handler settles a ticket that its worker has, as the finding of an exception. -/
theorem play_handleFailure_kept (settings : Settings) (sched : ℕ → Db) (hwell : t.wellFormed)
    (ht : (sched 0).ticket ticket.id = some t) (howns : owned worker.id t = true)
    (hjobId : t.jobId = ticket.jobId) (hflag : ¬ (sched 0).cancelRequested ticket.jobId)
    {drawn : ℕ} (hfresh : ∀ r ∈ (sched 0).results.rows, r.id ≠ c.uuid4 drawn) (e : Exn)
    (resolved : Option ResolvedInput) :
  ∃ output outcome db',
    (handleFailure settings c drawn ticket e resolved (some worker.id)).play sched
      = ([(sched 0, db')], .ok outcome)
    ∧ output.status = (Finding.raised e).resultStatus
    ∧ Settles ticket ((Finding.raised e).target (ticket.attemptCount < ticket.maxAttempts))
      (if (Finding.raised e).target (ticket.attemptCount < ticket.maxAttempts) = .retry then none
        else some output) outcome (sched 0) db'
  := by
  have hstatus : (failureVerdict ticket resolved e).output.status
      = (Finding.raised e).resultStatus := by
    by_cases hclass : classifyError e = .missingContext <;>
      simp [failureVerdict, Finding.resultStatus, failureOutput, hclass]
  use (failureVerdict ticket resolved e).output
  unfold handleFailure
  split
  case isTrue hretry =>
    have htarget : (Finding.raised e).target (ticket.attemptCount < ticket.maxAttempts)
        = .retry := by simp [Finding.target, hretry]
    simp only [htarget, if_true, hstatus, true_and]
    exact ⟨_, play_settleOnly_kept hwell ht howns .retryTransient _ ⟨rfl, rfl⟩⟩
  case isFalse hnot =>
    have htarget : (Finding.raised e).target (ticket.attemptCount < ticket.maxAttempts)
        = .failed := by
      cases hclass : classifyError e with
      | transient =>
        have hnone : ¬ ticket.attemptCount < ticket.maxAttempts := fun hleft => hnot ⟨hclass, hleft⟩
        simp [Finding.target, hclass, hnone]
      | permanent => simp [Finding.target, hclass]
      | missingContext => simp [Finding.target, hclass]
    obtain ⟨outcome, db', hpersist, hsettles⟩ := persistOnce_kept hwell ht howns hjobId hflag hfresh
      (sound_failureVerdict ticket resolved e) (resolved.map ResolvedInput.asSnapshot)
    refine ⟨outcome, db', ?_, hstatus, ?_⟩
    · rw [play_persist, hpersist]
      · rfl
      · intro e' he'
        rw [hpersist] at he'
        cases he'
    · rw [htarget]
      apply hsettles

/-- An execution settles its ticket once. On a ticket that its worker has and keeps, in a job
that is not cancelled, it commits one transaction that changes anything: it settles the ticket
to the status of what the evaluation found, and stores the result with it unless the ticket is
retried. The outcome has the status and the result that are stored. -/
theorem execute_settles_once (settings : Settings) (c : Collaborators)
    (ticket t : EvaluationTicket) (worker : Worker) (job : EvaluationJob) (sched : ℕ → Db)
    (hjob : (sched 0).job ticket.jobId = some job)
    (hopen : job.cancellationRequestedAt = none ∧ job.status ≠ .cancelled)
    (ht : (sched 1).ticket ticket.id = some t) (howns : owned worker.id t = true)
    (hjobId : t.jobId = ticket.jobId) (hwell : t.wellFormed)
    (hflag : ¬ (sched 1).cancelRequested ticket.jobId)
    (hfresh : ∀ r ∈ (sched 1).results.rows, r.id ≠ c.uuid4 0)
    (hsignal : ∀ e, Finds settings c ticket (some worker.id) job (loadedSnapshot ticket (sched 0))
      (.raised e) → e.isSignal = false) :
  (∃ finding,
      Finds settings c ticket (some worker.id) job (loadedSnapshot ticket (sched 0)) finding)
    ∧ ∀ finding,
      Finds settings c ticket (some worker.id) job (loadedSnapshot ticket (sched 0)) finding →
      ∃ output outcome db',
        (executeTicket settings c ticket (some worker.id)).play sched
          = ([(sched 0, sched 0), (sched 1, db')], .ok outcome)
        ∧ output.status = finding.resultStatus
        ∧ (∀ o, finding = .returned o → output = o)
        ∧ Settles ticket (finding.target (ticket.attemptCount < ticket.maxAttempts))
          (if finding.target (ticket.attemptCount < ticket.maxAttempts) = .retry then none
            else some output) outcome (sched 1) db'
  := by
  refine ⟨exists_finds settings c ticket (some worker.id) job _, ?_⟩
  intro finding hfinds
  rw [play_executeTicket, loadState_ok hjob hopen]
  simp only
  rcases evaluation_of_finds hfinds with ⟨v, hv, -, htarget, hstatus, houtput⟩ | ⟨e, he, hhandled⟩
  · obtain ⟨outcome, db', hpersist, hsettles⟩ := persistOnce_kept hwell ht howns hjobId hflag hfresh
      (sound_evaluation hv)
      ((evaluation settings c ticket (some worker.id) job (loadedSnapshot ticket (sched 0))).2.map
        ResolvedInput.asSnapshot)
    refine ⟨v.output, outcome, db', ?_, hstatus, houtput, ?_⟩
    · have hplay : (persist settings c 0 ticket v (evaluation settings c ticket (some worker.id) job
            (loadedSnapshot ticket (sched 0))).2 (some worker.id)).play (fun k => sched (k + 1))
          = ([(sched 1, db')], .ok outcome) := by
        rw [play_persist, hpersist]
        · rfl
        · intro e he
          rw [hpersist] at he
          cases he
      rw [evaluateAndPersist_of_ok hv, Program.play_handle_of_ok (congrArg Prod.snd hplay), hplay]
    · rw [← htarget]
      apply hsettles
  · obtain ⟨htarget, hstatus, hnotReturned⟩ := hhandled.settled_alike
    have hnotSignal : e.isSignal = false := by
      cases finding with
      | raised e' =>
        cases hhandled
        apply hsignal e hfinds
      | contextRequired =>
        obtain ⟨message, rfl⟩ := hhandled
        rfl
      | inapplicable | contextMissing | returned _ => cases hhandled
    obtain ⟨output, outcome, db', hplay, houtput, hsettles⟩ :=
      play_handleFailure_kept settings (fun k => sched (k + 1)) hwell ht howns hjobId hflag hfresh e
        (evaluation settings c ticket (some worker.id) job (loadedSnapshot ticket (sched 0))).2
    refine ⟨output, outcome, db', ?_, houtput.trans hstatus.symm, ?_, ?_⟩
    · rw [evaluateAndPersist_of_error he, exceptHandlers_of_not_signal hnotSignal, hplay]
    · intro o ho
      exact absurd ho (hnotReturned o)
    · rw [htarget]
      apply hsettles

end Kept

namespace Demo

/-- A worker has claimed the ticket of the demo job. -/
def claimedOnce : System :=
  System.after .default [.createJob job, claim worker (.ok (output .passed))]

/-- The claimed demo ticket is executed and settled once. -/
theorem execute_settles_once_claimed :
  ∃ t outcome db', claimedOnce.db.ticket 10 = some t
    ∧ (executeTicket .default (collaborators (.ok (output .passed))) t (some worker.id)).play
        (fun _ => claimedOnce.db)
      = ([(claimedOnce.db, claimedOnce.db), (claimedOnce.db, db')], .ok outcome)
  := by
  have hrun : (claimedOnce.db.ticket 10).any (fun t => owned worker.id t && t.jobId = 1
      && (claimedOnce.db.job 1).any fun j => j.cancellationRequestedAt.isNone
        && j.status ≠ .cancelled
        && (evaluation .default (collaborators (.ok (output .passed))) t (some worker.id) j
          (loadedSnapshot t claimedOnce.db)).1.isOk) = true := by decide +kernel
  obtain ⟨t, ht, hrow⟩ := (Option.any_eq_true _ _).mp hrun
  simp only [Bool.and_eq_true, decide_eq_true_eq] at hrow
  obtain ⟨⟨howns, hjobId⟩, hjob⟩ := hrow
  obtain ⟨j, hj, hloaded⟩ := (Option.any_eq_true _ _).mp hjob
  simp only [Bool.and_eq_true, decide_eq_true_eq, Option.isNone_iff_eq_none] at hloaded
  obtain ⟨⟨hnone, hstatus⟩, hevaluates⟩ := hloaded
  obtain ⟨hmem, hid⟩ := Db.ticket_eq_some.mp ht
  obtain ⟨⟨finding, hfinds⟩, hsettles⟩ := execute_settles_once .default
    (collaborators (.ok (output .passed))) t t worker j (fun _ => claimedOnce.db)
    (hjobId ▸ hj) ⟨hnone, hstatus⟩ (hid ▸ ht) howns rfl
    (wellFormed_after .default _ t hmem)
    (by
      rintro ⟨j', hj', hset⟩
      rw [hjobId, hj] at hj'
      cases hj'
      rw [hnone] at hset
      cases hset)
    (by
      have hempty : claimedOnce.db.results.rows.length = 0 := by decide +kernel
      rw [List.length_eq_zero_iff.mp hempty]
      simp)
    (by
      intro e hraised
      cases hraised with
      | unresolved raised =>
        simp only [evaluation, raised] at hevaluates
        cases hevaluates
      | unjudged resolved raised =>
        simp only [evaluation, resolved, raised] at hevaluates
        cases hevaluates)
  obtain ⟨-, outcome, db', hplay, -⟩ := hsettles finding hfinds
  exact ⟨t, outcome, db', ht, hplay⟩

end Demo

end Evalorch
