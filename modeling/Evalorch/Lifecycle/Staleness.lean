import Evalorch.Lifecycle.Settlement

/-!
# How a lost ticket is reported

A settlement of a ticket that its worker has lost raises. `transition` raises
`StaleWorkerError`, which becomes the stale outcome, when the row names another worker or the
attempted transition is allowed from the status of the row; otherwise it raises
`IllegalTicketTransition`, which `execute_ticket` takes for a transient failure. Here it is
determined when an execution on a lost ticket ends in the stale outcome.
-/

namespace Evalorch

open Transact TicketRepository JobRepository

/-! ### Lost tickets -/

/-- The ticket is there, but the worker has lost it. -/
def Db.lost (db : Db) (worker : Worker) (ticket : EvaluationTicket) : Prop :=
  ∃ t, db.ticket ticket.id = some t ∧ t.jobId = ticket.jobId ∧ owned worker.id t = false
    ∧ (t.status = .running → t.workerId.isSome = true)

/-- A settlement to `target` finds that the worker has lost the ticket: another worker is on the
row, or the row waits for a claim and may be settled to `target` all the same. -/
def Db.showsLoss (db : Db) (worker : Worker) (ticket : EvaluationTicket) (target : TicketStatus) :
    Prop :=
  ∃ t, db.ticket ticket.id = some t
    ∧ ((∃ workerId, t.workerId = some workerId ∧ workerId ≠ worker.id)
      ∨ t.status = .retry ∧ (target = .failed ∨ target = .cancelled)
      ∨ t.status = .ready ∧ target = .cancelled)

/-- The status `_persist_once` settles to: the target, unless the job is cancelled. -/
def persistTarget (ticket : EvaluationTicket) (target : TicketStatus) (db : Db) : TicketStatus :=
  if (getCancellationState ticket.jobId db).any Prod.snd then .cancelled else target

/-- The status `_handle_failure` settles to. -/
def failureTarget (ticket : EvaluationTicket) (e : Exn) (db : Db) : TicketStatus :=
  if classifyError e = .transient ∧ ticket.attemptCount < ticket.maxAttempts then .retry
  else persistTarget ticket .failed db

/-- A status that an execution settles a ticket to. -/
def TicketStatus.settles (target : TicketStatus) : Prop :=
  target ≠ .ready ∧ target ≠ .running

section Lost

variable {ticket t : EvaluationTicket} {worker : Worker} {db : Db} {target : TicketStatus}

/-- What a settlement of a lost ticket raises depends on whether it finds the loss. -/
theorem notOwned_lost (ht : db.ticket ticket.id = some t) (howns : owned worker.id t = false)
    (hrunning : t.status = .running → t.workerId.isSome = true) (hsettles : target.settles) :
  db.showsLoss worker ticket target
      ∧ notOwned ticket.id worker.id target t = .staleWorker ticket.id
    ∨ ¬ db.showsLoss worker ticket target
      ∧ notOwned ticket.id worker.id target t = .illegalTransition t.status target
  := by
  have hshows : db.showsLoss worker ticket target
      ↔ (∃ workerId, t.workerId = some workerId ∧ workerId ≠ worker.id)
        ∨ t.status = .retry ∧ (target = .failed ∨ target = .cancelled)
        ∨ t.status = .ready ∧ target = .cancelled := by
    simp [Db.showsLoss, ht]
  obtain ⟨hnotReady, hnotRunning⟩ := hsettles
  rw [hshows]
  by_cases hother : ∃ workerId, t.workerId = some workerId ∧ workerId ≠ worker.id
  · left
    use .inl hother
    obtain ⟨workerId, hworker, hne⟩ := hother
    simp [notOwned, hworker, hne]
  · have hsame : t.workerId.any (· != worker.id) = false := by
      rw [← Bool.not_eq_true]
      intro hany
      obtain ⟨workerId, hworker, hne⟩ := (Option.any_eq_true _ _).mp hany
      apply hother ⟨workerId, hworker, by simpa using hne⟩
    have hstopped : t.status ≠ .running := by
      intro hstatus
      obtain ⟨workerId, hworker⟩ := Option.isSome_iff_exists.mp (hrunning hstatus)
      have hid : workerId = worker.id := by
        by_contra hne
        apply hother ⟨workerId, hworker, hne⟩
      simp [owned, hstatus, hworker, hid] at howns
    simp only [notOwned, hsame, hother, Bool.false_or, false_or, decide_eq_true_eq]
    cases hstatus : t.status <;> cases target <;>
      simp_all [allowedTicketTransitions]

/-- A settlement without a result raises for a lost ticket. -/
theorem settleOnly_lost (ht : db.ticket ticket.id = some t) (howns : owned worker.id t = false)
    (s : Settlement) (outcome : TicketOutcome) :
  settleOnly ticket target s (some worker.id) outcome db
    = .error (notOwned ticket.id worker.id target t)
  := by
  simp only [settleOnly, ht, settleTicket_not_owned worker.nonempty ht howns, bind, Except.bind]

/-- `_persist_once` raises for a lost ticket, after the upsert when there is one. -/
theorem persistOnce_lost (ht : db.ticket ticket.id = some t) (howns : owned worker.id t = false)
    (hjobId : t.jobId = ticket.jobId) {id : Uuid} (hfresh : ∀ r ∈ db.results.rows, r.id ≠ id)
    {v : Verdict} (hcancelled : v.target ≠ .cancelled) (snapshot : Option Dict) :
  persistOnce id ticket v snapshot (some worker.id) db
    = .error (notOwned ticket.id worker.id (persistTarget ticket v.target db) t)
  := by
  unfold persistOnce persistTarget
  simp only [ht]
  cases hflag : (getCancellationState ticket.jobId db).any Prod.snd with
  | true =>
    simp only [Bool.true_and, ne_eq, hcancelled, not_false_eq_true, decide_true, if_true,
      settleTicket_not_owned worker.nonempty ht howns, bind, Except.bind]
  | false =>
    obtain ⟨resultId, db₁, hrecord, htickets⟩ : ∃ resultId db₁,
        recordResult id ticket v snapshot db = .ok (resultId, db₁) ∧ db₁.tickets = db.tickets := by
      unfold recordResult
      split
      case isTrue =>
        obtain ⟨j, hj⟩ := Db.exists_job (Db.ticket_eq_some.mp ht).1
        rw [hjobId] at hj
        obtain ⟨row, db₁, hupsert⟩ := ResultRepository.exists_upsert
          (resultRow id ticket v snapshot db.now) ht hj hfresh
        refine ⟨some row.id, db₁, ?_, (ResultRepository.upsert_ok hupsert).tickets⟩
        simp only [hupsert, bind, Except.bind]
      case isFalse => exact ⟨none, db, rfl, rfl⟩
    have ht₁ : db₁.ticket ticket.id = some t := by
      rw [← ht]
      unfold Db.ticket
      rw [htickets]
    simp only [Bool.false_and, Bool.false_eq_true, if_false, hrecord,
      settleTicket_not_owned worker.nonempty ht₁ howns, bind, Except.bind]

end Lost

/-! ### What the settlements of a lost ticket end in -/

/-- The loss of the ticket is reported when it is found, and an illegal transition is raised
otherwise. -/
def Reports (ticket : EvaluationTicket) (shown : Prop) (outcome : Except Exn TicketOutcome) :
    Prop :=
  shown ∧ outcome = .ok (staleOutcome ticket)
    ∨ ¬ shown ∧ ∃ current target, outcome = .error (.illegalTransition current target)

theorem Reports.iff {ticket : EvaluationTicket} {shown : Prop} {outcome : Except Exn TicketOutcome}
    (h : Reports ticket shown outcome) :
  outcome = .ok (staleOutcome ticket) ↔ shown
  := by
  rcases h with ⟨hshown, rfl⟩ | ⟨hnot, current, target, rfl⟩
  · simp [hshown]
  · simp [hnot]

section Plays

variable {settings : Settings} {c : Collaborators} {ticket : EvaluationTicket} {worker : Worker}
  {sched : ℕ → Db}

theorem reports_settleOnly (hlost : (sched 0).lost worker ticket) {target : TicketStatus}
    (hsettles : target.settles) (tag : Tag) (s : Settlement) (outcome : TicketOutcome) :
  Reports ticket ((sched 0).showsLoss worker ticket target)
    ((orStale ticket (Program.atomically tag
      (settleOnly ticket target s (some worker.id) outcome))).play sched).2
  := by
  obtain ⟨t, ht, -, howns, hrunning⟩ := hlost
  rw [play_orStale, settleOnly_lost ht howns]
  rcases notOwned_lost ht howns hrunning hsettles with ⟨hshown, heq⟩ | ⟨hnot, heq⟩
  · rw [heq]
    exact .inl ⟨hshown, rfl⟩
  · rw [heq]
    exact .inr ⟨hnot, _, _, rfl⟩

theorem reports_persist (hlost : (sched 0).lost worker ticket) {drawn : ℕ}
    (hfresh : ∀ r ∈ (sched 0).results.rows, r.id ≠ c.uuid4 drawn) {v : Verdict}
    (hsound : v.sound ticket) (resolved : Option ResolvedInput) :
  ((persist settings c drawn ticket v resolved (some worker.id)).play sched).1.length = 1
    ∧ Reports ticket ((sched 0).showsLoss worker ticket (persistTarget ticket v.target (sched 0)))
      ((persist settings c drawn ticket v resolved (some worker.id)).play sched).2
  := by
  obtain ⟨t, ht, hjobId, howns, hrunning⟩ := hlost
  have hother : v.target ≠ .cancelled ∧ v.target.settles := by
    unfold TicketStatus.settles
    rcases hsound with ⟨hrecords, -⟩ | ⟨hretry, -⟩
    · cases htarget : v.target <;> simp [htarget, recordsResult] at hrecords <;> decide
    · rw [hretry]
      decide
  have hsettles : (persistTarget ticket v.target (sched 0)).settles := by
    unfold persistTarget
    split
    · unfold TicketStatus.settles
      decide
    · apply hother.2
  have honce := persistOnce_lost ht howns hjobId hfresh hother.1
    (resolved.map ResolvedInput.asSnapshot)
  rcases notOwned_lost ht howns hrunning hsettles with ⟨hshown, heq⟩ | ⟨hnot, heq⟩
  · rw [play_persist, honce, heq]
    · exact ⟨rfl, .inl ⟨hshown, rfl⟩⟩
    · intro e he
      rw [honce, heq] at he
      cases he
      rfl
  · rw [play_persist, honce, heq]
    · exact ⟨rfl, .inr ⟨hnot, _, _, rfl⟩⟩
    · intro e he
      rw [honce, heq] at he
      cases he
      rfl

/-- The failure handler, for a lost ticket. -/
theorem reports_handleFailure (hlost : (sched 0).lost worker ticket) {drawn : ℕ}
    (hfresh : ∀ r ∈ (sched 0).results.rows, r.id ≠ c.uuid4 drawn) (e : Exn)
    (resolved : Option ResolvedInput) :
  Reports ticket ((sched 0).showsLoss worker ticket (failureTarget ticket e (sched 0)))
    ((handleFailure settings c drawn ticket e resolved (some worker.id)).play sched).2
  := by
  unfold handleFailure failureTarget
  split
  case isTrue =>
    apply reports_settleOnly hlost
    unfold TicketStatus.settles
    decide
  case isFalse => apply (reports_persist hlost hfresh (sound_failureVerdict ticket resolved e)
      resolved).2

/-- The handler of a cancelled job, for a lost ticket. -/
theorem reports_settleJobCancelled (hlost : (sched 0).lost worker ticket) :
  Reports ticket ((sched 0).showsLoss worker ticket .cancelled)
    ((settleJobCancelled ticket (some worker.id)).play sched).2
  := by
  apply reports_settleOnly hlost
  unfold TicketStatus.settles
  decide

end Plays

/-! ### What an execution on a lost ticket ends in -/

/-- What `execute_ticket` finds when it loads from `db`: the exception of loading, or what the
evaluation comes to. -/
inductive Meets (settings : Settings) (c : Collaborators) (ticket : EvaluationTicket)
    (owner : Option String) (db : Db) : Finding → Prop where
  | unloaded {e} (raised : loadState ticket db = .error e) :
      Meets settings c ticket owner db (.raised e)
  | loaded {job snapshot db' finding} (loaded : loadState ticket db = .ok ((job, snapshot), db'))
      (finds : Finds settings c ticket owner job snapshot finding) :
      Meets settings c ticket owner db finding

theorem exists_meets (settings : Settings) (c : Collaborators) (ticket : EvaluationTicket)
    (owner : Option String) (db : Db) :
  ∃ finding, Meets settings c ticket owner db finding
  := by
  cases hload : loadState ticket db with
  | error e => exact ⟨_, .unloaded hload⟩
  | ok r =>
    obtain ⟨⟨job, snapshot⟩, db'⟩ := r
    obtain ⟨finding, hfinds⟩ := exists_finds settings c ticket owner job snapshot
    exact ⟨finding, .loaded hload hfinds⟩

/-- The status that the failure handler settles to after a verdict was refused: a retry while
there are attempts left. -/
def refusedTarget (ticket : EvaluationTicket) (db : Db) : TicketStatus :=
  if ticket.attemptCount < ticket.maxAttempts then .retry else persistTarget ticket .failed db

/-- The execution notices that the ticket is lost: an exception does when it is the stale
worker's, or when the one settlement it leads to finds the loss, and any other finding when the
settlement of its verdict finds the loss, or else that of the failure handler afterwards. -/
def Finding.noticesLoss (ticket : EvaluationTicket) (worker : Worker) (first second : Db) :
    Finding → Prop
  | .raised (.staleWorker _) => True
  | .raised .jobCancelled => first.showsLoss worker ticket .cancelled
  | .raised e => first.showsLoss worker ticket (failureTarget ticket e first)
  | .contextRequired => first.showsLoss worker ticket (persistTarget ticket .failed first)
  | finding =>
      first.showsLoss worker ticket
          (persistTarget ticket (finding.target (ticket.attemptCount < ticket.maxAttempts)) first)
        ∨ second.showsLoss worker ticket (refusedTarget ticket second)

/-- An exception and the finding it stands for notice the loss alike. -/
theorem Finding.handledAs.noticesLoss_iff {e : Exn} {finding : Finding}
    (h : finding.handledAs e) (ticket : EvaluationTicket) (worker : Worker) (first second : Db) :
  finding.noticesLoss ticket worker first second
    ↔ (Finding.raised e).noticesLoss ticket worker first second
  := by
  cases finding with
  | raised e' => rw [show e' = e from h]
  | contextRequired =>
    obtain ⟨message, rfl⟩ := h
    simp [Finding.noticesLoss, Exn.missingContext, failureTarget, classifyError]
  | inapplicable | contextMissing | returned _ => cases h

/-- A finding that reaches its settlement as a verdict is settled twice when it has to be. -/
theorem Finding.noticesLoss_iff {finding : Finding} (h : ∀ e, ¬ finding.handledAs e)
    (ticket : EvaluationTicket) (worker : Worker) (first second : Db) :
  finding.noticesLoss ticket worker first second
    ↔ first.showsLoss worker ticket
        (persistTarget ticket (finding.target (ticket.attemptCount < ticket.maxAttempts)) first)
      ∨ second.showsLoss worker ticket (refusedTarget ticket second)
  := by
  cases finding with
  | raised e => exact absurd rfl (h e)
  | contextRequired => exact absurd ⟨"", rfl⟩ (h (.missingContext ""))
  | inapplicable | contextMissing | returned _ => rfl

section Executions

variable {settings : Settings} {c : Collaborators} {ticket : EvaluationTicket} {worker : Worker}
  {sched : ℕ → Db}

/-- The exception handlers, for a lost ticket. -/
theorem exceptHandlers_lost (hlost : (sched 0).lost worker ticket) {drawn : ℕ}
    (hfresh : ∀ r ∈ (sched 0).results.rows, r.id ≠ c.uuid4 drawn) (e : Exn) (second : Db)
    (resolved : Option ResolvedInput) :
  ((exceptHandlers settings c drawn ticket resolved (some worker.id) e).play sched).2
      = .ok (staleOutcome ticket)
    ↔ (Finding.raised e).noticesLoss ticket worker (sched 0) second
  := by
  cases e with
  | staleWorker _ => simp [exceptHandlers, Finding.noticesLoss]
  | jobCancelled => apply (reports_settleJobCancelled hlost).iff
  | _ => apply (reports_handleFailure hlost hfresh _ resolved).iff

/-- An illegal transition that persisting a verdict ends in goes to the failure handler. -/
theorem play_refused (hlost : (sched 0).lost worker ticket)
    (hfresh : ∀ r ∈ (sched 0).results.rows, r.id ≠ c.uuid4 0) {v : Verdict}
    (hsound : v.sound ticket) (hlater : (sched 1).lost worker ticket)
    (hfresher : ∀ r ∈ (sched 1).results.rows, r.id ≠ c.uuid4 settings.persistDeadlockMaxRetries)
    (resolved : Option ResolvedInput) :
  (((persist settings c 0 ticket v resolved (some worker.id)).handle
      (exceptHandlers settings c settings.persistDeadlockMaxRetries ticket resolved
        (some worker.id))).play sched).2 = .ok (staleOutcome ticket)
    ↔ (sched 0).showsLoss worker ticket (persistTarget ticket v.target (sched 0))
      ∨ (sched 1).showsLoss worker ticket (refusedTarget ticket (sched 1))
  := by
  obtain ⟨hlength, ⟨hshown, heq⟩ | ⟨hnot, current, target, heq⟩⟩ :=
    @reports_persist settings c ticket worker sched hlost 0 hfresh v hsound resolved
  · rw [Program.play_handle_of_ok heq, heq]
    simp [hshown]
  · rw [Program.play_handle_of_error heq, hlength]
    have hrefused : failureTarget ticket (.illegalTransition current target) (sched 1)
        = refusedTarget ticket (sched 1) := by
      simp [failureTarget, refusedTarget, classifyError]
    rw [or_iff_right hnot, ← hrefused]
    apply exceptHandlers_lost hlater hfresher (.illegalTransition current target) (sched 1) resolved

/-- An execution on a lost ticket ends in the stale outcome exactly if it notices the loss. Every
execution meets some finding. -/
theorem stale_outcome_iff (settings : Settings) (c : Collaborators) (ticket : EvaluationTicket)
    (worker : Worker) (sched : ℕ → Db)
    (hfirst : (sched 1).lost worker ticket) (hsecond : (sched 2).lost worker ticket)
    (hfresh : ∀ k n, ∀ r ∈ (sched k).results.rows, r.id ≠ c.uuid4 n) :
  (∃ finding, Meets settings c ticket (some worker.id) (sched 0) finding)
    ∧ ∀ finding, Meets settings c ticket (some worker.id) (sched 0) finding →
      (((executeTicket settings c ticket (some worker.id)).play sched).2
          = .ok (staleOutcome ticket)
        ↔ finding.noticesLoss ticket worker (sched 1) (sched 2))
  := by
  refine ⟨exists_meets settings c ticket (some worker.id) (sched 0), ?_⟩
  intro finding hmeets
  rw [play_executeTicket]
  cases hmeets with
  | unloaded raised =>
    rw [raised]
    apply exceptHandlers_lost hfirst (hfresh 1 0) _ (sched 2) none
  | @loaded job snapshot db' finding loaded finds =>
    rw [loaded]
    simp only
    rcases evaluation_of_finds finds with ⟨v, hv, hnot, htarget, -, -⟩ | ⟨e, he, hhandled⟩
    · rw [evaluateAndPersist_of_ok hv, Finding.noticesLoss_iff hnot, ← htarget]
      apply play_refused hfirst (hfresh 1 0) (sound_evaluation hv) hsecond (hfresh 2 _) _
    · rw [evaluateAndPersist_of_error he, hhandled.noticesLoss_iff]
      apply exceptHandlers_lost hfirst (hfresh 1 0) e (sched 2) _

/-- Every finding notices the loss of a ticket that another worker has claimed or settled. -/
theorem Finding.noticesLoss_of_other {first : Db} {t : EvaluationTicket} {workerId : String}
    (ht : first.ticket ticket.id = some t) (hworker : t.workerId = some workerId)
    (hother : workerId ≠ worker.id) (second : Db) (finding : Finding) :
  finding.noticesLoss ticket worker first second
  := by
  have hshows : ∀ target, first.showsLoss worker ticket target :=
    fun _ => ⟨t, ht, .inl ⟨workerId, hworker, hother⟩⟩
  cases finding with
  | raised e => cases e <;> first | trivial | apply hshows _
  | contextRequired => apply hshows _
  | inapplicable | contextMissing | returned _ => exact .inl (hshows _)

end Executions

namespace Demo

/-- The lease of a claimed ticket passes and the ticket is recovered, after its execution has
loaded it. -/
def recoveredMeanwhile : List Label :=
  [.createJob job, claim worker (.ok (output .passed)), .execute 0 none, .tick 301000000, recover]

/-- Another worker claims the recovered ticket. -/
def claimedByOther : List Label :=
  recoveredMeanwhile ++ [.tick 400000000, claim otherWorker (.ok (output .passed))]

/-- The states that an execution meets when another worker has claimed its ticket after it has
loaded it. -/
def overtaken : ℕ → Db
  | 0 => claimedOnce.db
  | _ + 1 => (System.after .default claimedByOther).db

/-- The execution of a ticket that another worker has claimed is stale. -/
theorem stale_outcome_iff_overtaken :
  ∃ t, (overtaken 0).ticket 10 = some t
    ∧ ((executeTicket .default (collaborators (.ok (output .passed))) t (some worker.id)).play
        overtaken).2 = .ok (staleOutcome t)
  := by
  have hcopy : ((overtaken 0).ticket 10).any (fun t => t.id = 10 && t.jobId = 1) = true := by
    decide +kernel
  have hrow : ((overtaken 1).ticket 10).any (fun t => t.jobId = 1 && !owned worker.id t
      && t.workerId = some otherWorker.id) = true := by decide +kernel
  have hbefore : (overtaken 0).results.rows.length = 0 := by decide +kernel
  have hafter : (overtaken 1).results.rows.length = 0 := by decide +kernel
  have hempty : ∀ k, (overtaken k).results.rows = []
    | 0 => List.length_eq_zero_iff.mp hbefore
    | _ + 1 => List.length_eq_zero_iff.mp hafter
  obtain ⟨t, ht, hids⟩ := (Option.any_eq_true _ _).mp hcopy
  obtain ⟨t', ht', howner⟩ := (Option.any_eq_true _ _).mp hrow
  simp only [Bool.and_eq_true, decide_eq_true_eq, Bool.not_eq_true'] at hids howner
  obtain ⟨hid, hjobId⟩ := hids
  obtain ⟨⟨hjobId', howns⟩, hother⟩ := howner
  have hlost : (overtaken 1).lost worker t :=
    ⟨t', hid ▸ ht', hjobId'.trans hjobId.symm, howns, fun _ => by rw [hother]; rfl⟩
  obtain ⟨⟨finding, hmeets⟩, hiff⟩ := stale_outcome_iff .default
    (collaborators (.ok (output .passed))) t worker overtaken hlost hlost (by simp [hempty])
  refine ⟨t, ht, (hiff finding hmeets).mpr ?_⟩
  apply Finding.noticesLoss_of_other (hid ▸ ht') hother (by decide) _ finding

/-- The execution that is under way when its ticket is recovered raises: neither its verdict nor
the retry that its failure handler then tries is a transition that a waiting ticket may take. -/
theorem raises_after_recovery :
  ∃ r, (System.after .default (recoveredMeanwhile ++ [.execute 0 none, .execute 0 none])).runs[0]?
      = some r
    ∧ (System.after .default recoveredMeanwhile).db.lost worker r.ticket
    ∧ r.program.result ≠ some (.ok (staleOutcome r.ticket))
    ∧ ∃ e, r.program.result = some (.error e)
  := by
  have hrun : ((System.after .default (recoveredMeanwhile
      ++ [.execute 0 none, .execute 0 none])).runs[0]?.any fun r =>
        r.ticket.id = 10 && r.ticket.jobId = 1 && r.program.result.any (!·.isOk)) = true := by
    decide +kernel
  have hrow : ((System.after .default recoveredMeanwhile).db.ticket 10).any (fun t =>
      t.jobId = 1 && !owned worker.id t && t.status = .retry) = true := by decide +kernel
  obtain ⟨r, hr, hended⟩ := (Option.any_eq_true _ _).mp hrun
  obtain ⟨t, ht, hrecovered⟩ := (Option.any_eq_true _ _).mp hrow
  simp only [Bool.and_eq_true, decide_eq_true_eq, Bool.not_eq_true'] at hended hrecovered
  obtain ⟨⟨hid, hjobId⟩, hraised⟩ := hended
  obtain ⟨⟨hjobId', howns⟩, hretry⟩ := hrecovered
  refine ⟨r, hr, ⟨t, hid ▸ ht, hjobId'.trans hjobId.symm, howns, fun h => ?_⟩, ?_⟩
  · rw [hretry] at h
    cases h
  · obtain ⟨outcome, hresult, hnotOk⟩ := (Option.any_eq_true _ _).mp hraised
    rw [hresult]
    cases outcome with
    | ok outcome => cases hnotOk
    | error e => exact ⟨by simp, e, rfl⟩

end Demo

end Evalorch
