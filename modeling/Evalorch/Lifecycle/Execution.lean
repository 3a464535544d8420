import Evalorch.Lifecycle.Operations

/-!
# Executions as changes

`executeTicket` may settle its ticket in several transactions of its text. `Transacts` lists
them; along the text of the program they are shown to be all (`always_executeTicket`), so this
holds wherever an execution stands. Each commits nothing or a `Change` by `.execute`, named
after its tag (`Transacts.change`).
-/

namespace Evalorch

open Transact TicketRepository JobRepository

/-! ### Verdicts -/

/-- A verdict settles with a result that fits its target, or to `RETRY` while the ticket has
attempts left. -/
def Verdict.sound (ticket : EvaluationTicket) (v : Verdict) : Prop :=
  recordsResult v.target = true ∧ pairs v.target v.output.status
    ∨ v.target = .retry ∧ ticket.attemptCount < ticket.maxAttempts

theorem sound_verdictOf (settings : Settings) (c : Collaborators) (ticket : EvaluationTicket)
    (output : EvaluatorOutput) :
  (verdictOf settings c ticket output).sound ticket
  := by
  unfold verdictOf Verdict.sound
  cases hstatus : output.status with
  | error =>
    by_cases hleft : ticket.attemptCount < ticket.maxAttempts
    · right
      simp [hleft]
    · left
      simp [hleft, recordsResult, pairs, hstatus]
  | notApplicable => simp [recordsResult, pairs, hstatus]
  | passed => simp [recordsResult, pairs, hstatus]
  | failed => simp [recordsResult, pairs, hstatus]

theorem sound_settleNotApplicable {c : Collaborators} {r : ResolvedMetric}
    {explanation errorCode : String} {v : Verdict} (ticket : EvaluationTicket)
    (h : settleNotApplicable c r explanation errorCode = .ok v) :
  v.sound ticket
  := by
  obtain ⟨_, -, h⟩ := bind_eq_ok.mp h
  obtain ⟨evaluator, -, h⟩ := bind_eq_ok.mp h
  cases h
  left
  exact ⟨rfl, rfl⟩

theorem sound_judgeMetric {settings : Settings} {c : Collaborators} {ticket : EvaluationTicket}
    {owner : Option String} {snapshot : Dict} {r : ResolvedMetric} {v : Verdict}
    (h : judgeMetric settings c ticket owner snapshot r = .ok v) :
  v.sound ticket
  := by
  obtain ⟨⟨applicable, reason⟩, -, h⟩ := bind_eq_ok.mp h
  simp only at h
  split at h
  case isTrue => apply sound_settleNotApplicable ticket h
  case isFalse =>
    split at h
    case isTrue =>
      split at h
      case h_1 => apply sound_settleNotApplicable ticket h
      case h_2 => cases h
    case isFalse =>
      obtain ⟨_, -, h⟩ := bind_eq_ok.mp h
      obtain ⟨evaluator, -, h⟩ := bind_eq_ok.mp h
      obtain ⟨output, -, h⟩ := bind_eq_ok.mp h
      cases h
      apply sound_verdictOf

theorem sound_failureVerdict (ticket : EvaluationTicket) (resolved : Option ResolvedInput)
    (exc : Exn) :
  (failureVerdict ticket resolved exc).sound ticket
  := by
  left
  use rfl
  by_cases hclass : classifyError exc = .missingContext
  · right
    simp [failureVerdict, hclass, failureOutput]
  · left
    simp [failureVerdict, hclass, failureOutput]

/-! ### Settlements -/

section Settle

variable {ticket : EvaluationTicket} {worker : Worker} {tag : Tag} {target : TicketStatus}
  {s : Settlement} {db db₀ db' : Db} {r : EvaluationTicket × Option JobProgress}

/-- The execution's copy of the ticket agrees with its row in what never changes. -/
def copies (db : Db) (ticket : EvaluationTicket) : Prop :=
  ∀ t, db.ticket ticket.id = some t →
    t.jobId = ticket.jobId ∧ t.maxAttempts = ticket.maxAttempts

/-- A settlement writes the row of the ticket. -/
theorem ticket_settledBy {ticketId : Uuid} {workerId : String} {t : EvaluationTicket}
    (ht : db.ticket ticketId = some t) (howns : owned workerId t = true) :
  (settledBy ticketId workerId target s db).ticket ticketId
    = some (transitionRow db.now target s t)
  := by
  unfold settledBy
  rw [Db.ticket_updateTickets, ht, Option.map_some, patch_of_pos]
  simp [(Db.ticket_eq_some.mp ht).2, howns]

/-- A settlement after an upsert, or without one, is a change when it is a move of the
ticket. -/
theorem change_of_settleTicket
    (hsame : db₀.now = db.now ∧ db₀.jobs = db.jobs ∧ db₀.tickets = db.tickets)
    (h : settleTicket ticket.id target s (some ticket.jobId) (some worker.id) db₀ = .ok (r, db'))
    (hcopies : copies db ticket)
    (hmove : ∀ t, db.ticket ticket.id = some t → owned worker.id t = true →
      Move db db' (.execute ticket worker tag) t (transitionRow db.now target s t))
    (hresults : ResultMove db db' (.execute ticket worker tag)) :
  Change (.execute ticket worker tag) db db'
  := by
  obtain ⟨hnow, hjobs, htickets⟩ := hsame
  obtain ⟨current, hcur, howns, -, rfl⟩ := settleTicket_ok h
  have hticket : db.ticket ticket.id = some current := by
    rw [← hcur]
    unfold Db.ticket
    rw [htickets]
  change Change _ db (recomputeJobs [ticket.jobId] (settledBy ticket.id worker.id target s db₀))
  apply change_of_recomputeJobs (patch (fun t => t.id = ticket.id && owned worker.id t)
    (transitionRow db.now target s)) (List.nodup_singleton ticket.jobId)
  · exact ⟨current, hticket, howns⟩
  · rw [settledBy, Db.tickets_updateTickets, Table.rows_update, htickets, hnow]
  · intro t ht
    unfold patch
    split
    case isTrue hsel =>
      simp only [Bool.and_eq_true, decide_eq_true_eq] at hsel
      apply hmove t (Db.ticket_eq_some.mpr ⟨ht, hsel.1⟩) hsel.2
    case isFalse => exact .stay
  · apply hjobs
  · apply hnow
  · intro t ht hother
    rw [patch_of_neg]
    by_contra hsel
    simp only [Bool.not_eq_false, Bool.and_eq_true, decide_eq_true_eq] at hsel
    apply hother
    rw [List.mem_singleton]
    apply (hcopies t (Db.ticket_eq_some.mpr ⟨ht, hsel.1⟩)).1
  · apply hresults

/-- The settled ticket, in the state a settlement leads to. -/
theorem ticket_of_settleTicket
    (h : settleTicket ticket.id target s (some ticket.jobId) (some worker.id) db = .ok (r, db'))
    {t : EvaluationTicket} (ht : db.ticket ticket.id = some t) :
  db'.ticket ticket.id = some (transitionRow db.now target s t)
  := by
  obtain ⟨current, hcur, howns, -, rfl⟩ := settleTicket_ok h
  rw [ht] at hcur
  cases hcur
  rw [recomputeProgress_db, Db.ticket_updateJobs, ticket_settledBy ht howns]

/-- A settlement leaves the results alone. -/
theorem results_of_settleTicket
    (h : settleTicket ticket.id target s (some ticket.jobId) (some worker.id) db = .ok (r, db')) :
  db'.results = db.results
  := by
  obtain ⟨current, -, -, -, rfl⟩ := settleTicket_ok h
  rw [recomputeProgress_db]
  rfl

end Settle

/-! ### The transactions of an execution -/

theorem cancelRequested_of_state {db : Db} {jobId : Uuid} :
  (getCancellationState jobId db).any Prod.snd = true ↔ db.cancelRequested jobId
  := by
  unfold getCancellationState Db.cancelRequested
  cases db.job jobId <;> simp

/-- A row settled to a target that records a result has that status and result. -/
theorem transitionRow_records (now : Instant) {target : TicketStatus} (s : Settlement)
    (t : EvaluationTicket) {resultId : Uuid} (hrecords : recordsResult target = true)
    (hresult : s.resultId = some resultId) :
  (transitionRow now target s t).status = target
    ∧ (transitionRow now target s t).resultId = some resultId
  := by
  cases target with
  | done => exact ⟨rfl, hresult⟩
  | failed => exact ⟨rfl, by simp [transitionRow, hresult]⟩
  | notApplicable => exact ⟨rfl, by simp [transitionRow, hresult]⟩
  | _ => simp [recordsResult] at hrecords

/-- What `_persist_once` commits for a sound verdict. -/
theorem change_persistOnce {id : Uuid} {ticket : EvaluationTicket} {v : Verdict}
    {snapshot : Option Dict} {worker : Worker} {db db' : Db} {outcome : TicketOutcome}
    (hsound : v.sound ticket) (hcopies : copies db ticket)
    (h : persistOnce id ticket v snapshot (some worker.id) db = .ok (outcome, db')) :
  db' = db ∨ Change (.execute ticket worker (.persist v.target)) db db'
  := by
  unfold persistOnce at h
  cases ht : db.ticket ticket.id with
  | none =>
    rw [ht] at h
    cases h
    exact .inl rfl
  | some t =>
    right
    have htid : t.id = ticket.id := (Db.ticket_eq_some.mp ht).2
    obtain ⟨htjob, hmax⟩ := hcopies t ht
    simp only [ht] at h
    split at h
    case isTrue hcancelled =>
      obtain ⟨⟨r, db₁⟩, hsettle, h⟩ := bind_eq_ok.mp h
      cases h
      apply change_of_settleTicket ⟨rfl, rfl, rfl⟩ hsettle hcopies
      · intro t' ht' howns
        exact .cancelled _ (Db.ticket_eq_some.mp ht').2 howns
      · exact .kept (results_of_settleTicket hsettle)
    case isFalse hnot =>
      obtain ⟨⟨resultId, db₁⟩, hrecord, h⟩ := bind_eq_ok.mp h
      obtain ⟨⟨r, db₂⟩, hsettle, h⟩ := bind_eq_ok.mp h
      cases h
      have hflag : ¬ db.cancelRequested t.jobId := by
        intro hreq
        rw [htjob] at hreq
        apply hnot
        rw [Bool.and_eq_true]
        use cancelRequested_of_state.mpr hreq
        rcases hsound with ⟨hrecords, -⟩ | ⟨hretry, -⟩
        · cases htarget : v.target <;> simp_all [recordsResult]
        · simp [hretry]
      rcases hsound with ⟨hrecords, hpairs⟩ | ⟨hretry, hleft⟩
      · rw [recordResult, if_pos hrecords] at hrecord
        obtain ⟨⟨row, db₁'⟩, hupsert, hresult⟩ := bind_eq_ok.mp hrecord
        cases hresult
        have hup := ResultRepository.upsert_ok hupsert
        have ht₁ : db₁.ticket ticket.id = some t := by
          rw [← ht]
          unfold Db.ticket
          rw [hup.tickets]
        have hresultOf : ∀ ticketId,
            db₂.resultOf ticketId
              = if ticketId = ticket.id then some row else db.resultOf ticketId := by
          intro ticketId
          have hupserted := hup.resultOf ticketId
          unfold Db.resultOf at hupserted ⊢
          rw [results_of_settleTicket hsettle]
          apply hupserted
        apply change_of_settleTicket ⟨hup.now, hup.jobs, hup.tickets⟩ hsettle hcopies
        · intro t' ht' howns
          rw [ht] at ht'
          cases ht'
          refine .recorded _ htid howns hrecords ⟨row, ?_, rfl, ?_⟩ hflag
          · rw [hresultOf, if_pos htid]
          · rw [hup.ticketId_status.2]
            apply hpairs
        · exact .recorded (resultRow id ticket v snapshot db.now) row t rfl ht htjob.symm
            hup.written hresultOf hpairs hflag
            ⟨_, ticket_of_settleTicket hsettle ht₁, transitionRow_records db₁.now _ t hrecords rfl⟩
      · rw [recordResult, hretry] at hrecord
        cases hrecord
        rw [hretry] at hsettle ⊢
        apply change_of_settleTicket ⟨rfl, rfl, rfl⟩ hsettle hcopies
        · intro t' ht' howns
          rw [ht] at ht'
          cases ht'
          exact .retried _ htid howns (hmax ▸ hleft) (.inr ⟨rfl, hflag⟩)
        · exact .kept (results_of_settleTicket hsettle)

/-- What a settlement without a result commits, when it is a move of the ticket. -/
theorem change_settleOnly {ticket : EvaluationTicket} {worker : Worker} {tag : Tag}
    {target : TicketStatus} {s : Settlement} {db db' : Db} {o outcome : TicketOutcome}
    (hcopies : copies db ticket)
    (hmove : ∀ t, db.ticket ticket.id = some t → owned worker.id t = true →
      Move db db' (.execute ticket worker tag) t (transitionRow db.now target s t))
    (h : settleOnly ticket target s (some worker.id) o db = .ok (outcome, db')) :
  db' = db ∨ Change (.execute ticket worker tag) db db'
  := by
  unfold settleOnly at h
  split at h
  case h_1 =>
    cases h
    exact .inl rfl
  case h_2 =>
    right
    obtain ⟨⟨r, db₁⟩, hsettle, h⟩ := bind_eq_ok.mp h
    cases h
    apply change_of_settleTicket ⟨rfl, rfl, rfl⟩ hsettle hcopies hmove
      (.kept (results_of_settleTicket hsettle))

/-! ### The program -/

/-- The transactions of an execution: the name of each, and what it commits. -/
inductive Transacts (ticket : EvaluationTicket) (worker : Worker) : Tag → (Db → Db) → Prop where
  | load : Transacts ticket worker .load fun db => committed (loadState ticket db) db
  | persist (id : Uuid) (v : Verdict) (snapshot : Option Dict) (sound : v.sound ticket) :
      Transacts ticket worker (.persist v.target) fun db =>
        committed (persistOnce id ticket v snapshot (some worker.id) db) db
  | settleCancelled (s : Settlement) (outcome : TicketOutcome) :
      Transacts ticket worker .settleCancelled fun db =>
        committed (settleOnly ticket .cancelled s (some worker.id) outcome db) db
  | retryTransient (s : Settlement) (outcome : TicketOutcome)
      (left : ticket.attemptCount < ticket.maxAttempts) :
      Transacts ticket worker .retryTransient fun db =>
        committed (settleOnly ticket .retry s (some worker.id) outcome db) db

/-- Loading commits nothing. -/
theorem committed_loadState (ticket : EvaluationTicket) (db : Db) :
  committed (loadState ticket db) db = db
  := by
  unfold loadState
  split
  case h_1 => rfl
  case h_2 => split <;> rfl

/-- A transaction of an execution commits nothing or a change of its ticket, as long as the
copy agrees with the row. -/
theorem Transacts.change {ticket : EvaluationTicket} {worker : Worker} {tag : Tag}
    {commit : Db → Db} (h : Transacts ticket worker tag commit) {db : Db}
    (hcopies : copies db ticket) :
  commit db = db ∨ Change (.execute ticket worker tag) db (commit db)
  := by
  cases h with
  | load => exact .inl (committed_loadState ticket db)
  | persist id v snapshot sound =>
    apply committed_of (fun db' => db' = db ∨ Change _ db db') (.inl rfl)
    intro outcome db' hbody
    apply change_persistOnce sound hcopies hbody
  | settleCancelled s outcome =>
    apply committed_of (fun db' => db' = db ∨ Change _ db db') (.inl rfl)
    intro outcome' db' hbody
    apply change_settleOnly hcopies _ hbody
    intro t ht howns
    exact .cancelled _ (Db.ticket_eq_some.mp ht).2 howns
  | retryTransient s outcome left =>
    apply committed_of (fun db' => db' = db ∨ Change _ db db') (.inl rfl)
    intro outcome' db' hbody
    apply change_settleOnly hcopies _ hbody
    intro t ht howns
    exact .retried _ (Db.ticket_eq_some.mp ht).2 howns ((hcopies t ht).2 ▸ left) (.inl rfl)

section Always

variable {settings : Settings} {c : Collaborators} {ticket : EvaluationTicket} {worker : Worker}

theorem always_orStale {p : Execution TicketOutcome} (h : p.Always (Transacts ticket worker)) :
  (orStale ticket p).Always (Transacts ticket worker)
  := by
  apply Program.always_attempt h
  intro r
  split <;> trivial

theorem always_persistLoop {once : ℕ → Execution TicketOutcome} {stale : TicketOutcome}
    (h : ∀ attempt, (once attempt).Always (Transacts ticket worker)) (n attempt : ℕ)
    (last : Exn) :
  (persistLoop once stale n attempt last).Always (Transacts ticket worker)
  := by
  induction n generalizing attempt last with
  | zero => trivial
  | succ n ih =>
    apply Program.always_attempt (h attempt)
    intro r
    split
    case h_1 => trivial
    case h_2 => trivial
    case h_3 =>
      split
      case isTrue => apply ih
      case isFalse => trivial

theorem always_persist {drawn : ℕ} {v : Verdict} {resolved : Option ResolvedInput}
    (hsound : v.sound ticket) :
  (persist settings c drawn ticket v resolved (some worker.id)).Always (Transacts ticket worker)
  := by
  apply always_persistLoop
  intro attempt
  apply Program.always_atomically
  exact .persist _ v _ hsound

theorem always_settleJobCancelled :
  (settleJobCancelled ticket (some worker.id)).Always (Transacts ticket worker)
  := by
  apply always_orStale
  apply Program.always_atomically
  exact .settleCancelled _ _

theorem always_handleFailure {drawn : ℕ} {exc : Exn} {resolved : Option ResolvedInput} :
  (handleFailure settings c drawn ticket exc resolved (some worker.id)).Always
    (Transacts ticket worker)
  := by
  unfold handleFailure
  split
  case isTrue hretry =>
    apply always_orStale
    apply Program.always_atomically
    exact .retryTransient _ _ hretry.2
  case isFalse =>
    apply always_persist
    apply sound_failureVerdict

theorem always_exceptHandlers {drawn : ℕ} {resolved : Option ResolvedInput} (exc : Exn) :
  (exceptHandlers settings c drawn ticket resolved (some worker.id) exc).Always
    (Transacts ticket worker)
  := by
  unfold exceptHandlers
  split
  case h_1 => apply always_settleJobCancelled
  case h_2 => trivial
  case h_3 => apply always_handleFailure

theorem always_evaluateAndPersist {job : EvaluationJob} {snapshot : Dict} :
  (evaluateAndPersist settings c ticket (some worker.id) job snapshot).Always
    (Transacts ticket worker)
  := by
  unfold evaluateAndPersist
  split
  case h_1 => apply always_exceptHandlers
  case h_2 =>
    split
    case h_1 => apply always_exceptHandlers
    case h_2 hv =>
      apply Program.always_handle (always_persist (sound_judgeMetric hv))
      apply always_exceptHandlers

/-- `execute_ticket` runs no other transactions. -/
theorem always_executeTicket :
  (executeTicket settings c ticket (some worker.id)).Always (Transacts ticket worker)
  := by
  unfold executeTicket
  rw [orText_of_ne worker.nonempty]
  apply Program.always_attempt
  · apply Program.always_atomically
    exact .load
  · intro r
    split
    case h_1 => apply always_evaluateAndPersist
    case h_2 => apply always_exceptHandlers

end Always

end Evalorch
