import Evalorch.Lifecycle.Agreement
import Evalorch.Lifecycle.StateMachine

/-!
# Cancelled jobs

Where no two transactions overlap, once the cancellation of a job has been requested a ticket of
the job keeps its status, is cancelled, or is given back to `RETRY` (`Move.of_cancelRequested`). No
claim, settlement with a result, reset or recovery to `FAILED` gets past the flag, so what the job
has counted and recorded is frozen (`Barrier`). The move to `RETRY` is the exception: only the retry
of a transient failure makes it, which does not look at the flag.
-/

namespace Evalorch

open Transact TicketRepository JobRepository

/-! ### The flag -/

/-- The flag of a job stays set. -/
theorem JobMove.flag {db db' : Db} {f : EvaluationTicket → EvaluationTicket} {a : Action}
    {j j' : EvaluationJob} (h : JobMove db db' f a j j')
    (hflag : j.cancellationRequestedAt.isSome = true) :
  j'.cancellationRequestedAt.isSome = true
  := by
  cases h with
  | kept => apply hflag
  | started claimable =>
    simp only [claimableJob, Bool.and_eq_true, Option.isNone_iff_eq_none] at claimable
    rw [claimable.1] at hflag
    cases hflag
  | recomputed => apply hflag
  | cancelled => rfl

/-- The flag of a job is set by a cancellation only, which the job's status allows and which
leaves no ticket unclaimed. -/
theorem JobMove.flag_before {db db' : Db} {f : EvaluationTicket → EvaluationTicket} {a : Action}
    {j j' : EvaluationJob} (h : JobMove db db' f a j j')
    (hflag : j'.cancellationRequestedAt.isSome = true) :
  j.cancellationRequestedAt.isSome = true
    ∨ a = .cancelJob j.id
      ∧ (j.status ≠ .completed ∧ j.status ≠ .failed ∧ j.status ≠ .partialFailed)
      ∧ ∀ t ∈ db.tickets.rows, t.jobId = j.id → ¬ (f t).status.pending
  := by
  cases h with
  | kept => exact .inl hflag
  | started =>
    left
    split at hflag <;> apply hflag
  | recomputed => exact .inl hflag
  | cancelled open_ unclaimed => exact .inr ⟨rfl, open_, unclaimed⟩

/-- A request to cancel a job is never taken back. -/
theorem ChangeBy.cancelRequested {a : Action} {db db' : Db}
    {f : EvaluationTicket → EvaluationTicket}
    {g : EvaluationJob → EvaluationJob} (h : ChangeBy a db db' f g) {jobId : Uuid}
    (hflag : db.cancelRequested jobId) :
  db'.cancelRequested jobId
  := by
  obtain ⟨j, hj, hset⟩ := hflag
  use g j
  constructor
  · rw [h.job, hj, Option.map_some]
  · apply (h.jobMoves j (Db.job_eq_some.mp hj).1).flag hset

theorem Created.cancelRequested {p : PreparedJob} {db db' : Db} (h : Created p db db')
    {jobId : Uuid} :
  db'.cancelRequested jobId ↔ db.cancelRequested jobId
  := by
  constructor
  · rintro ⟨j, hj, hflag⟩
    obtain ⟨hmem, hid⟩ := Db.job_eq_some.mp hj
    rw [h.jobs] at hmem
    rcases List.mem_append.mp hmem with hmem | hmem
    · exact ⟨j, Db.job_eq_some.mpr ⟨hmem, hid⟩, hflag⟩
    · rw [List.mem_singleton] at hmem
      simp [hmem, PreparedJob.readyRow, PreparedJob.job] at hflag
  · rintro ⟨j, hj, hflag⟩
    exact ⟨j, h.job hj, hflag⟩

/-- After a cancellation that returned, cancellation is requested. -/
theorem cancelRequested_of_cancelJob {jobId : Uuid} {db db' : Db} {r : CancellationResult}
    (h : cancelJob jobId db = .ok (r, db')) :
  db'.cancelRequested jobId
  := by
  obtain ⟨⟨j, hj, -⟩, rfl⟩ := cancelJob_ok h
  rw [recomputeProgress_db]
  set db₂ := (cancelUnclaimed jobId (requestCancellation jobId db)).2 with hdb₂
  refine ⟨progressRow db₂.now (ticketCounts jobId db₂) (flaggedRow db.now j), ?_, rfl⟩
  have hflagged : db₂.job jobId = some (flaggedRow db.now j) := by
    rw [hdb₂]
    change (requestCancellation jobId db).job jobId = _
    unfold requestCancellation
    rw [Db.job_updateJobs, hj, Option.map_some, patch_of_pos]
    · rfl
    · simpa using (Db.job_eq_some.mp hj).2
  rw [Db.job_updateJobs, hflagged, Option.map_some, patch_of_pos]
  simpa using (Db.job_eq_some.mp hflagged).2

/-- A job that can be claimed from is not cancelled. -/
theorem not_cancelRequested_of_claimable {db : Db} {jobId : Uuid}
    (h : ∃ j, db.job jobId = some j ∧ claimableJob j = true) :
  ¬ db.cancelRequested jobId
  := by
  obtain ⟨j, hj, hclaimable⟩ := h
  rintro ⟨j', hj', hset⟩
  rw [hj] at hj'
  cases hj'
  simp only [claimableJob, Bool.and_eq_true, Option.isNone_iff_eq_none] at hclaimable
  rw [hclaimable.1] at hset
  cases hset

/-! ### Tickets of a cancelled job -/

/-- What may happen to a ticket of a cancelled job. -/
theorem Move.of_cancelRequested {db db' : Db} {a : Action} {t t' : EvaluationTicket}
    (h : Move db db' a t t') (hflag : db.cancelRequested t.jobId) :
  t'.status = t.status
    ∨ recordsResult t.status = false
      ∧ (t'.status = .cancelled
        ∨ t'.status = .retry ∧ ∃ ticket worker, a = .execute ticket worker .retryTransient
          ∧ t.id = ticket.id ∧ owned worker.id t = true)
  := by
  have hrecords : ∀ status : TicketStatus, status.pending ∨ status = .running →
      recordsResult status = false := by
    rintro status ((rfl | rfl) | rfl) <;> rfl
  cases h with
  | stay => exact .inl rfl
  | extended => exact .inl rfl
  | claimed _ _ _ job => exact absurd hflag (not_cancelRequested_of_claimable job)
  | cancelled _ _ owns => exact .inr ⟨hrecords _ (.inr (owned_iff.mp owns).1), .inl rfl⟩
  | @retried ticket worker tag t s id owns left tag_eq =>
    rcases tag_eq with rfl | ⟨-, hnot⟩
    · exact .inr ⟨hrecords _ (.inr (owned_iff.mp owns).1),
        .inr ⟨rfl, ticket, worker, rfl, id, owns⟩⟩
    · exact absurd hflag hnot
  | recorded _ _ _ _ _ job => exact absurd hflag job
  | cancelledUnclaimed _ pending => exact .inr ⟨hrecords _ (.inl pending), .inl rfl⟩
  | reset _ job => exact absurd hflag job
  | recovered _ passed =>
    obtain ⟨j, hj, hset⟩ := hflag
    have hcancelled : jobCancelled db t = true := by
      unfold jobCancelled
      rw [hj]
      apply hset
    refine .inr ⟨hrecords _ (.inr (expired_iff.mp passed).1), .inl ?_⟩
    rw [hcancelled]
    rfl
  | swept _ passed => exact .inr ⟨hrecords _ (.inr (expired_iff.mp passed).1), .inl rfl⟩

/-- A ticket of a cancelled job is settled with a result only if it was before. -/
theorem Move.recordsResult_iff {db db' : Db} {a : Action} {t t' : EvaluationTicket}
    (h : Move db db' a t t') (hflag : db.cancelRequested t.jobId) {status : TicketStatus}
    (hrecords : recordsResult status = true) :
  t'.status = status ↔ t.status = status
  := by
  rcases h.of_cancelRequested hflag with hsame | ⟨hopen, hcancelled | ⟨hretry, -⟩⟩
  · rw [hsame]
  · constructor
    · rintro rfl
      rw [hcancelled] at hrecords
      cases hrecords
    · rintro rfl
      rw [hopen] at hrecords
      cases hrecords
  · constructor
    · rintro rfl
      rw [hretry] at hrecords
      cases hrecords
    · rintro rfl
      rw [hopen] at hrecords
      cases hrecords

/-! ### The barrier -/

/-- Results belong to the job of their ticket. -/
def Db.resultsOfJobs (db : Db) : Prop :=
  ∀ r ∈ db.results.rows, ∀ t, db.ticket r.ticketId = some t → t.jobId = r.jobId

theorem resultsOfJobs_of_created {p : PreparedJob} {db db' : Db} (h : db.resultsOfJobs)
    (hcreated : Created p db db') :
  db'.resultsOfJobs
  := by
  intro r hr t' ht'
  rw [hcreated.results] at hr
  obtain ⟨t, hmem, hid⟩ := db.resultTicket r hr
  have ht := Db.ticket_eq_some.mpr ⟨hmem, hid⟩
  rw [hcreated.ticket ht] at ht'
  cases ht'
  apply h r hr _ ht

/-- A change leaves the results of a job alone or writes one for a ticket of another job. -/
theorem ResultMove.mem_iff {a : Action} {db db' : Db} (h : ResultMove db db' a)
    (hresults : db.resultsOfJobs) {jobId : Uuid} (hflag : db.cancelRequested jobId)
    {r : EvaluationResult} (hjob : r.jobId = jobId) :
  r ∈ db'.results.rows ↔ r ∈ db.results.rows
  := by
  have hrow : ∀ db : Db, r ∈ db.results.rows ↔ db.resultOf r.ticketId = some r :=
    fun _ => ⟨fun hr => Db.resultOf_eq_some.mpr ⟨hr, rfl⟩, fun h => (Db.resultOf_eq_some.mp h).1⟩
  cases h with
  | kept results => rw [results]
  | @recorded ticket worker target result row t ticketId before jobId_eq written resultOf paired
      job =>
    have hrowJob : row.jobId = t.jobId := by
      obtain ⟨old, hold, rfl⟩ | ⟨-, rfl⟩ := written
      · obtain ⟨hmem, hticket⟩ := Db.resultOf_eq_some.mp hold
        apply (hresults old hmem t (hticket ▸ before)).symm
      · apply jobId_eq
    have hother : ¬ t.jobId = jobId := by
      rintro rfl
      apply job hflag
    rw [hrow db', hrow db, resultOf]
    split
    case isTrue hid =>
      constructor
      · intro hsame
        cases hsame
        exact absurd (hrowJob.symm.trans hjob) hother
      · intro hold
        obtain ⟨hmem, -⟩ := Db.resultOf_eq_some.mp hold
        exact absurd ((hresults r hmem t (hid ▸ before)).trans hjob) hother
    case isFalse => apply Iff.rfl

theorem resultsOfJobs_of_change {a : Action} {db db' : Db} (h : db.resultsOfJobs)
    (hchange : Change a db db') :
  db'.resultsOfJobs
  := by
  obtain ⟨f, g, hby⟩ := hchange
  intro r hr t' ht'
  rw [hby.ticket] at ht'
  obtain ⟨t, ht, rfl⟩ := Option.map_eq_some_iff.mp ht'
  rw [(hby.moves t (Db.ticket_eq_some.mp ht).1).id_jobId.2.1]
  cases hby.results with
  | kept results =>
    rw [results] at hr
    apply h r hr t ht
  | @recorded ticket worker target result row t₀ ticketId before jobId written resultOf =>
    have hafter := Db.resultOf_eq_some.mpr ⟨hr, rfl⟩
    rw [resultOf] at hafter
    split at hafter
    case isTrue hid =>
      cases hafter
      rw [hid, before] at ht
      cases ht
      obtain ⟨old, hold, rfl⟩ | ⟨-, rfl⟩ := written
      · obtain ⟨hmem, hticket⟩ := Db.resultOf_eq_some.mp hold
        apply h old hmem _ (hticket ▸ before)
      · apply jobId.symm
    case isFalse => apply h r (Db.resultOf_eq_some.mp hafter).1 t ht

/-- What a cancelled job keeps from one database to another: its flag, its results, and the
numbers of tickets that were settled with a result. -/
structure Barrier (jobId : Uuid) (db db' : Db) : Prop where
  flag : db'.cancelRequested jobId
  results : ∀ r : EvaluationResult, r.jobId = jobId → (r ∈ db'.results.rows ↔ r ∈ db.results.rows)
  counts : ∀ status, recordsResult status = true →
    ticketCounts jobId db' status = ticketCounts jobId db status

theorem Barrier.refl {jobId : Uuid} {db : Db} (hflag : db.cancelRequested jobId) :
  Barrier jobId db db
  := ⟨hflag, fun _ _ => Iff.rfl, fun _ _ => rfl⟩

theorem Barrier.trans {jobId : Uuid} {db db' db'' : Db} (h : Barrier jobId db db')
    (h' : Barrier jobId db' db'') :
  Barrier jobId db db''
  := by
  constructor
  · apply h'.flag
  · exact fun r hr => (h'.results r hr).trans (h.results r hr)
  · exact fun status hstatus => (h'.counts status hstatus).trans (h.counts status hstatus)

/-- A change does not get past the flag of a job. -/
theorem barrier_of_change {a : Action} {db db' : Db} (hresults : db.resultsOfJobs)
    (h : Change a db db') {jobId : Uuid} (hflag : db.cancelRequested jobId) :
  Barrier jobId db db'
  := by
  obtain ⟨f, g, hby⟩ := h
  constructor
  · apply hby.cancelRequested hflag
  · exact fun r hr => hby.results.mem_iff hresults hflag hr
  · intro status hrecords
    apply hby.ticketCounts_of_iff
    rintro t ht rfl
    apply (hby.moves t ht).recordsResult_iff hflag hrecords

/-- Another job does not get past it either. -/
theorem barrier_of_created {p : PreparedJob} {db db' : Db} (h : Created p db db') {jobId : Uuid}
    (hflag : db.cancelRequested jobId) :
  Barrier jobId db db'
  := by
  constructor
  · apply h.cancelRequested.mpr hflag
  · intro r _
    rw [h.results]
  · intro status _
    have hother : p.id ≠ jobId := by
      obtain ⟨j, hj, -⟩ := hflag
      obtain ⟨hmem, rfl⟩ := Db.job_eq_some.mp hj
      apply (h.fresh j hmem).symm
    rw [h.ticketCounts_eq hother]

/-- Nothing gets past the flag of a job throughout a run. -/
theorem barrier_run {settings : Settings} {s : System} (hs : s.sound)
    (hresults : s.db.resultsOfJobs) {jobId : Uuid} (hflag : s.db.cancelRequested jobId)
    (labels : List Label) :
  Barrier jobId s.db (run (System.step settings) s labels).db
  := by
  suffices h : s.db.cancelRequested jobId →
      Barrier jobId s.db (run (System.step settings) s labels).db from h hflag
  apply run_across Db.resultsOfJobs
    (fun db db' => db.cancelRequested jobId → Barrier jobId db db') _ _ _ _ hs hresults
  · intro p db db' hresults hcreated
    exact ⟨resultsOfJobs_of_created hresults hcreated, barrier_of_created hcreated⟩
  · intro a db db' hresults hchange
    exact ⟨resultsOfJobs_of_change hresults hchange, barrier_of_change hresults hchange⟩
  · exact fun db => .refl
  · exact fun db db' db'' h h' hflag => (h hflag).trans (h' (h hflag).flag)

/-! ### The status of a cancelled job -/

/-- A cancelled job has a ticket that is open or cancelled. -/
def Db.openOrCancelled (db : Db) : Prop :=
  ∀ jobId, db.cancelRequested jobId →
    ∃ t ∈ db.tickets.rows, t.jobId = jobId ∧ recordsResult t.status = false

/-- A job with tickets that are all settled with a result is finished, and not `CANCELLED`. -/
theorem progressStatus_of_recorded {jobId : Uuid} {db : Db}
    (hpos : 0 < (ticketCounts jobId db).total)
    (hall : ∀ t ∈ db.tickets.rows, t.jobId = jobId → recordsResult t.status = true)
    (current : JobStatus) (requested : Bool) :
  let status := progressStatus current requested (ticketCounts jobId db)
  status = .completed ∨ status = .failed ∨ status = .partialFailed
  := by
  have hcancelled : ticketCounts jobId db .cancelled = 0 := by
    by_contra hpos
    obtain ⟨t, ht, htj, hstatus⟩ := ticketCounts_pos_iff.mp (Nat.pos_of_ne_zero hpos)
    have hrecords := hall t ht htj
    rw [hstatus] at hrecords
    cases hrecords
  have hterminal : (ticketCounts jobId db).terminal = (ticketCounts jobId db).total := by
    rw [terminal_eq_total_iff]
    intro t ht htj
    have hrecords := hall t ht htj
    revert hrecords
    cases t.status <;> decide
  intro status
  have hstatus : status = progressStatus current requested (ticketCounts jobId db) := rfl
  rw [progressStatus, if_neg hpos.ne', if_neg hterminal.not_lt,
    if_neg (by simp [hcancelled])] at hstatus
  split at hstatus
  · exact .inl hstatus
  · split at hstatus
    · exact .inr (.inr hstatus)
    · exact .inr (.inl hstatus)

/-- A cancelled job with a ticket that was open or cancelled is `CANCELLED` when all its tickets
are terminal. -/
theorem progressStatus_of_cancelled {jobId : Uuid} {db : Db}
    (hopen : ∃ t ∈ db.tickets.rows, t.jobId = jobId ∧ recordsResult t.status = false)
    (hall : ∀ t ∈ db.tickets.rows, t.jobId = jobId → t.status.isTerminal = true)
    (current : JobStatus) :
  progressStatus current true (ticketCounts jobId db) = .cancelled
  := by
  have hpos : 0 < (ticketCounts jobId db).total := by
    obtain ⟨t, ht, htj, -⟩ := hopen
    rw [total_ticketCounts]
    exact List.countP_pos_iff.mpr ⟨t, ht, by simpa using htj⟩
  have hcancelled : 0 < ticketCounts jobId db .cancelled := by
    obtain ⟨t, ht, htj, hrecords⟩ := hopen
    apply ticketCounts_pos_iff.mpr
    refine ⟨t, ht, htj, ?_⟩
    have hterminal := hall t ht htj
    revert hrecords hterminal
    cases t.status <;> decide
  rw [progressStatus, if_neg hpos.ne', if_neg (terminal_eq_total_iff.mpr hall).not_lt,
    if_pos ⟨hcancelled, .inl rfl⟩]

/-- A job that may be cancelled has a ticket that is open or cancelled. -/
theorem exists_open_of_agrees {jobId : Uuid} {db : Db} {j : EvaluationJob}
    (h : Agrees (ticketCounts jobId db) j)
    (hopen : j.status ≠ .completed ∧ j.status ≠ .failed ∧ j.status ≠ .partialFailed) :
  ∃ t ∈ db.tickets.rows, t.jobId = jobId ∧ recordsResult t.status = false
  := by
  by_contra hnone
  push Not at hnone
  simp only [ne_eq, Bool.not_eq_false] at hnone
  have hstatus := progressStatus_of_recorded h.total_pos hnone .created
    j.cancellationRequestedAt.isSome
  rw [← h.status] at hstatus
  rcases hstatus with hstatus | hstatus | hstatus
  · exact hopen.1 hstatus
  · exact hopen.2.1 hstatus
  · exact hopen.2.2 hstatus

/-- A cancelled job whose tickets are all terminal is `CANCELLED`. -/
theorem status_of_cancelled {jobId : Uuid} {db : Db} {j : EvaluationJob}
    (h : Agrees (ticketCounts jobId db) j) (hflag : j.cancellationRequestedAt.isSome = true)
    (hopen : ∃ t ∈ db.tickets.rows, t.jobId = jobId ∧ recordsResult t.status = false)
    (hall : ∀ t ∈ db.tickets.rows, t.jobId = jobId → t.status.isTerminal = true) :
  j.status = .cancelled
  := by
  rw [h.status .created, hflag]
  exact progressStatus_of_cancelled hopen hall .created

theorem openOrCancelled_of_created {p : PreparedJob} {db db' : Db} (h : db.openOrCancelled)
    (hcreated : Created p db db') :
  db'.openOrCancelled
  := by
  intro jobId hflag
  obtain ⟨t, ht, hrest⟩ := h jobId (hcreated.cancelRequested.mp hflag)
  refine ⟨t, ?_, hrest⟩
  rw [hcreated.tickets]
  apply List.mem_append_left _ ht

theorem openOrCancelled_of_change {a : Action} {db db' : Db} (hagrees : db.agrees)
    (h : db.openOrCancelled) (hchange : Change a db db') :
  db'.openOrCancelled
  := by
  obtain ⟨f, g, hby⟩ := hchange
  rintro jobId ⟨j', hj', hflag'⟩
  rw [hby.job] at hj'
  obtain ⟨j, hj, rfl⟩ := Option.map_eq_some_iff.mp hj'
  obtain ⟨hmem, rfl⟩ := Db.job_eq_some.mp hj
  have hkeeps : ∀ t ∈ db.tickets.rows, t.jobId = j.id → recordsResult (f t).status = false →
      ∃ t' ∈ db'.tickets.rows, t'.jobId = j.id ∧ recordsResult t'.status = false := by
    intro t ht htj hrecords
    refine ⟨f t, hby.mem_tickets.mpr ⟨t, ht, rfl⟩, ?_, hrecords⟩
    rw [(hby.moves t ht).id_jobId.2.1, htj]
  rcases (hby.jobMoves j hmem).flag_before hflag' with hflag | ⟨ha, hopen, -⟩
  · obtain ⟨t, ht, htj, hrecords⟩ := h j.id ⟨j, hj, hflag⟩
    apply hkeeps t ht htj
    rcases (hby.moves t ht).of_cancelRequested ⟨j, htj ▸ hj, hflag⟩ with
      hsame | ⟨-, hcancelled | ⟨hretry, -⟩⟩
    · rw [hsame]
      apply hrecords
    · rw [hcancelled]
      rfl
    · rw [hretry]
      rfl
  · obtain ⟨t, ht, htj, hrecords⟩ := exists_open_of_agrees (hagrees j hmem) hopen
    apply hkeeps t ht htj
    have hmove := hby.moves t ht
    generalize f t = t' at hmove ⊢
    cases hmove with
    | stay => apply hrecords
    | cancelledUnclaimed => rfl
    | _ => cases ha

theorem openOrCancelled_after (settings : Settings) (labels : List Label) :
  (System.after settings labels).db.openOrCancelled
  := by
  refine (after_keeps (fun db => db.agrees ∧ db.openOrCancelled) ?_ ?_ ?_ settings labels).2
  · constructor
    · simp [Db.agrees, Db.empty, Table.empty]
    · simp [Db.openOrCancelled, Db.cancelRequested, Db.job, Db.empty, Table.find, Table.empty]
  · rintro p db db' ⟨hagrees, h⟩ hcreated
    exact ⟨agrees_of_created hagrees hcreated, openOrCancelled_of_created h hcreated⟩
  · rintro a db db' ⟨hagrees, h⟩ hchange
    exact ⟨agrees_of_change hagrees hchange, openOrCancelled_of_change hagrees h hchange⟩

theorem resultsOfJobs_after (settings : Settings) (labels : List Label) :
  (System.after settings labels).db.resultsOfJobs
  := by
  apply after_keeps Db.resultsOfJobs
  · simp [Db.resultsOfJobs, Db.empty, Table.empty]
  · exact fun p db db' h hcreated => resultsOfJobs_of_created h hcreated
  · exact fun a db db' h hchange => resultsOfJobs_of_change h hchange

/-- Cancellation is a barrier when no two transactions overlap: after it has committed, whatever
executions were under way and whatever is requested later, no ticket of the job enters `RUNNING`,
`DONE`, `FAILED` or `NOT_APPLICABLE`, its results stay as they are, the counters of settled tickets
do not change, and the job is `CANCELLED` whenever all its tickets are terminal. -/
theorem cancellation_is_a_barrier (settings : Settings) (before labels : List Label)
    (jobId : Uuid) (r : CancellationResult) (db : Db)
    (hcancel : cancelJob jobId (System.after settings before).db = .ok (r, db)) :
  let s := System.after settings (before ++ .cancelJob jobId :: labels)
  (∀ l, ∀ t' ∈ (s.step settings l).db.tickets.rows, t'.jobId = jobId →
      (t'.status = .running ∨ t'.status = .done ∨ t'.status = .failed
        ∨ t'.status = .notApplicable) →
      ∃ t, s.db.ticket t'.id = some t ∧ t.status = t'.status)
    ∧ (∀ row : EvaluationResult, row.jobId = jobId →
        (row ∈ s.db.results.rows ↔ row ∈ db.results.rows))
    ∧ ∃ j j', db.job jobId = some j ∧ s.db.job jobId = some j'
      ∧ j'.completedTickets = j.completedTickets ∧ j'.failedTickets = j.failedTickets
      ∧ j'.notApplicableTickets = j.notApplicableTickets
      ∧ ((∀ t ∈ s.db.tickets.rows, t.jobId = jobId → t.status.isTerminal = true) →
          j'.status = .cancelled)
  := by
  intro s
  have hdb : (System.after settings (before ++ [.cancelJob jobId])).db = db := by
    rw [System.after_concat]
    simp only [System.step, hcancel, committed_ok]
  have hs : s = run (System.step settings) (System.after settings (before ++ [.cancelJob jobId]))
      labels := by
    rw [← System.after_append, List.append_assoc]
    rfl
  have hflag : db.cancelRequested jobId := cancelRequested_of_cancelJob hcancel
  have hsound := sound_after settings (before ++ [.cancelJob jobId])
  have hbarrier : Barrier jobId db s.db := by
    rw [hs, ← hdb]
    apply barrier_run hsound (resultsOfJobs_after settings _)
    rw [hdb]
    apply hflag
  have hagrees : db.agrees := hdb ▸ agrees_after settings _
  have hagrees' : s.db.agrees := agrees_after settings _
  refine ⟨?_, hbarrier.results, ?_⟩
  · rintro l t' ht' rfl hentered
    have hstep := step_cases settings (sound_after settings _ : s.sound) l
    have hrow := Db.ticket_eq_some.mpr ⟨ht', rfl⟩
    obtain hsame | ⟨p, hcreated⟩ | ⟨a, -, hchange⟩ := hstep
    · rw [hsame] at hrow
      exact ⟨t', hrow, rfl⟩
    · refine ⟨t', Db.ticket_eq_some.mpr ⟨?_, rfl⟩, rfl⟩
      rw [hcreated.tickets] at ht'
      rcases List.mem_append.mp ht' with hold | hnew
      · apply hold
      · obtain ⟨q, -, hq⟩ := List.mem_map.mp hnew
        obtain ⟨j, hj, -⟩ := hbarrier.flag
        obtain ⟨hmem, hid⟩ := Db.job_eq_some.mp hj
        rw [← hq] at hid
        exact absurd hid (hcreated.fresh j hmem)
    · obtain ⟨t, ht, hmove⟩ := hchange.exists_ticket_before hrow
      refine ⟨t, ht, ?_⟩
      have hflag' : s.db.cancelRequested t.jobId := hmove.id_jobId.2.1 ▸ hbarrier.flag
      rcases hmove.of_cancelRequested hflag' with hsame | ⟨-, hcancelled | ⟨hretry, -⟩⟩
      · apply hsame.symm
      · simp [hcancelled] at hentered
      · simp [hretry] at hentered
  · obtain ⟨j, hj, -⟩ := hflag
    obtain ⟨j', hj', hflag'⟩ := hbarrier.flag
    obtain ⟨hmem, rfl⟩ := Db.job_eq_some.mp hj
    obtain ⟨hmem', hid⟩ := Db.job_eq_some.mp hj'
    have h := hagrees j hmem
    have h' := hagrees' j' hmem'
    rw [hid] at h'
    refine ⟨j, j', hj, hj', ?_, ?_, ?_, ?_⟩
    · rw [h'.completed, h.completed, hbarrier.counts .done rfl]
    · rw [h'.failed, h.failed, hbarrier.counts .failed rfl]
    · rw [h'.notApplicable, h.notApplicable, hbarrier.counts .notApplicable rfl]
    · apply status_of_cancelled h' hflag' (openOrCancelled_after settings _ _ hbarrier.flag)

namespace Demo

/-- A worker has evaluated the ticket of the demo job, but not settled it. -/
def evaluating : List Label :=
  [.createJob job, claim worker (.ok (output .passed)), .execute 0 none]

/-- The demo job is cancelled during the evaluation, and no result of it is recorded after
that. -/
theorem cancellation_is_a_barrier_evaluating :
  ∃ r db, cancelJob 1 (System.after .default evaluating).db = .ok (r, db)
    ∧ ∀ row : EvaluationResult, row.jobId = 1 →
        (row ∈ (System.after .default
            (evaluating ++ [.cancelJob 1, .execute 0 none])).db.results.rows
          ↔ row ∈ db.results.rows)
  := by
  have hreturns : (cancelJob 1 (System.after .default evaluating).db).isOk = true := by
    decide +kernel
  cases hcancel : cancelJob 1 (System.after .default evaluating).db with
  | error e =>
    rw [hcancel] at hreturns
    cases hreturns
  | ok returned =>
    exact ⟨returned.1, returned.2, rfl,
      (cancellation_is_a_barrier .default evaluating [.execute 0 none] 1 returned.1 returned.2
        hcancel).2.1⟩

end Demo

end Evalorch
