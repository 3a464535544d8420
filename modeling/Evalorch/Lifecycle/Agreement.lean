import Evalorch.Lifecycle.Reachable

/-!
# Jobs agree with their tickets

`Agrees counts j` says that the row of a job is what `recompute_progress` writes for the
counts of its tickets. Every change keeps it: a job is recomputed with the new counts, or its
tickets keep their statuses, or a claim moved tickets to `RUNNING` and marked the job.
-/

namespace Evalorch

open Transact TicketRepository JobRepository

/-! ### Counts -/

/-- The total is the number of tickets of the job. -/
theorem total_ticketCounts (jobId : Uuid) (db : Db) :
  (ticketCounts jobId db).total = db.tickets.count (fun t => t.jobId = jobId)
  := by
  simp only [TicketCounts.total, ticketCounts, countsByStatus, Table.count]
  induction db.tickets.rows with
  | nil => rfl
  | cons t rows ih =>
    simp only [List.countP_cons]
    by_cases hjob : t.jobId = jobId <;> cases hstatus : t.status <;> simp [hjob] <;> omega

/-- The tickets that are not terminal. -/
theorem open_ticketCounts (jobId : Uuid) (db : Db) :
  (ticketCounts jobId db).total
    = (ticketCounts jobId db).terminal
      + db.tickets.count (fun t => t.jobId = jobId && !t.status.isTerminal)
  := by
  simp only [TicketCounts.total, TicketCounts.terminal, ticketCounts, countsByStatus,
    Table.count]
  induction db.tickets.rows with
  | nil => rfl
  | cons t rows ih =>
    simp only [List.countP_cons]
    by_cases hjob : t.jobId = jobId <;> cases hstatus : t.status <;> simp +decide [hjob] <;>
      omega

/-- All tickets of a job are terminal when the terminal ones are as many as all. -/
theorem terminal_eq_total_iff {jobId : Uuid} {db : Db} :
  (ticketCounts jobId db).terminal = (ticketCounts jobId db).total
    ↔ ∀ t ∈ db.tickets.rows, t.jobId = jobId → t.status.isTerminal = true
  := by
  have hopen := open_ticketCounts jobId db
  have hzero : db.tickets.count (fun t => t.jobId = jobId && !t.status.isTerminal) = 0
      ↔ ∀ t ∈ db.tickets.rows, t.jobId = jobId → t.status.isTerminal = true := by
    simp [Table.count, List.countP_eq_zero]
  rw [← hzero]
  omega

/-- There is a ticket of the job in a status when it is counted. -/
theorem ticketCounts_pos_iff {jobId : Uuid} {db : Db} {status : TicketStatus} :
  0 < ticketCounts jobId db status
    ↔ ∃ t ∈ db.tickets.rows, t.jobId = jobId ∧ t.status = status
  := by simp [ticketCounts, countsByStatus, Table.count, List.countP_pos_iff]

/-! ### What `recompute_progress` writes -/

/-- With tickets, the decision does not depend on the status the job had. -/
theorem progressStatus_of_total_ne_zero {counts : TicketCounts} (h : counts.total ≠ 0)
    (current current' : JobStatus) (cancellationRequested : Bool) :
  progressStatus current cancellationRequested counts
    = progressStatus current' cancellationRequested counts
  := by simp [progressStatus, h]

/-- While tickets are open the job is `RUNNING` or `READY`. -/
theorem progressStatus_of_open {counts : TicketCounts} (h : counts.terminal < counts.total)
    (current : JobStatus) (cancellationRequested : Bool) :
  progressStatus current cancellationRequested counts
    = if counts .running ≠ 0 ∨ counts.terminal ≠ 0 then .running else .ready
  := by
  have htotal : counts.total ≠ 0 := by omega
  simp [progressStatus, htotal, h]

/-- The row of a job is what its tickets' counts give. -/
structure Agrees (counts : TicketCounts) (j : EvaluationJob) : Prop where
  total_pos : 0 < counts.total
  total : j.totalTickets = counts.total
  completed : j.completedTickets = counts .done
  failed : j.failedTickets = counts .failed
  cancelled : j.cancelledTickets = counts .cancelled
  notApplicable : j.notApplicableTickets = counts .notApplicable
  finished : j.completedAt.isSome = true ↔ counts.terminal = counts.total
  status : ∀ current,
    j.status = progressStatus current j.cancellationRequestedAt.isSome counts
  started : j.status ≠ .ready → j.status ≠ .created → j.startedAt.isSome = true

/-- What `recompute_progress` writes agrees with the counts it was given. -/
theorem agrees_progressRow {counts : TicketCounts} {j : EvaluationJob} (now : Instant)
    (hpos : 0 < counts.total) (htotal : j.totalTickets ≤ counts.total) :
  Agrees counts (progressRow now counts j)
  := by
  have hle := counts.terminal_le_total
  have hne : counts.total ≠ 0 := by omega
  constructor
  · apply hpos
  · apply max_eq_right htotal
  · rfl
  · rfl
  · rfl
  · rfl
  · simp only [progressRow]
    split
    case isTrue h =>
      simp only [Option.isSome_some, true_iff]
      omega
    case isFalse h =>
      simp only [Option.isSome_none, Bool.false_eq_true, false_iff]
      omega
  · exact fun current => progressStatus_of_total_ne_zero hne _ _ _
  · intro hready hcreated
    simp only [progressRow]
    rw [if_pos ⟨hready, hcreated⟩]
    rfl

/-- Recomputing a row that agrees with the counts changes nothing. -/
theorem progressRow_of_agrees {counts : TicketCounts} {j : EvaluationJob} (now : Instant)
    (h : Agrees counts j) :
  progressRow now counts j = j
  := by
  have hstatus := h.status j.status
  have hstarted : (if j.status ≠ .ready ∧ j.status ≠ .created
      then some (j.startedAt.getD now) else j.startedAt) = j.startedAt := by
    split
    case isTrue hne =>
      obtain ⟨started, hsome⟩ := Option.isSome_iff_exists.mp (h.started hne.1 hne.2)
      rw [hsome, Option.getD_some]
    case isFalse => rfl
  have hfinished : (if counts.total > 0 ∧ counts.terminal ≥ counts.total
      then some (j.completedAt.getD now) else none) = j.completedAt := by
    split
    case isTrue hall =>
      have hle := counts.terminal_le_total
      obtain ⟨completed, hsome⟩ := Option.isSome_iff_exists.mp (h.finished.mpr (by omega))
      rw [hsome, Option.getD_some]
    case isFalse hnot =>
      cases hcompleted : j.completedAt with
      | none => rfl
      | some completed =>
        have := h.finished.mp (by simp [hcompleted])
        have := h.total_pos
        omega
  unfold progressRow
  simp only [hfinished, ← hstatus, hstarted, ← h.completed, ← h.failed, ← h.cancelled,
    ← h.notApplicable]
  rw [← h.total, max_self]

/-! ### Preservation -/

/-- Every job agrees with its tickets. -/
def Db.agrees (db : Db) : Prop :=
  ∀ j ∈ db.jobs.rows, Agrees (ticketCounts j.id db) j

/-- Recomputing a job that agrees with its tickets changes nothing. -/
theorem recomputeProgress_of_agrees {db : Db} (h : db.agrees) (jobId : Uuid) :
  (recomputeProgress jobId db).2 = db
  := by
  rw [recomputeProgress_db]
  apply Db.ext
  · rfl
  · apply Table.ext
    calc db.jobs.rows.map (patch (·.id = jobId) (progressRow db.now (ticketCounts jobId db)))
        = db.jobs.rows.map id := by
          apply List.map_congr_left
          intro j hj
          unfold patch
          split
          case isTrue hid =>
            rw [decide_eq_true_eq] at hid
            subst hid
            apply progressRow_of_agrees db.now (h j hj)
          case isFalse => rfl
      _ = db.jobs.rows := List.map_id _
  · rfl
  · rfl

section Counts

variable {a : Action} {db db' : Db} {f : EvaluationTicket → EvaluationTicket}
  {g : EvaluationJob → EvaluationJob}

/-- The counts after a change, in terms of the tickets before it. -/
theorem ChangeBy.ticketCounts (h : ChangeBy a db db' f g) (jobId : Uuid)
    (status : TicketStatus) :
  ticketCounts jobId db' status
    = db.tickets.count fun t => t.jobId = jobId && (f t).status = status
  := by
  simp only [JobRepository.ticketCounts, countsByStatus, Table.count, h.tickets, List.countP_map]
  apply List.countP_congr
  intro t ht
  simp [(h.moves t ht).id_jobId.2.1]

/-- A change keeps the number of tickets of a job. -/
theorem ChangeBy.total (h : ChangeBy a db db' f g) (jobId : Uuid) :
  (JobRepository.ticketCounts jobId db').total = (JobRepository.ticketCounts jobId db).total
  := by
  rw [total_ticketCounts, total_ticketCounts, Table.count, h.tickets, List.countP_map]
  apply List.countP_congr
  intro t ht
  simp [(h.moves t ht).id_jobId.2.1]

/-- A status that a ticket has after a change exactly when it had it before is counted as
often. -/
theorem ChangeBy.ticketCounts_of_iff (h : ChangeBy a db db' f g) {jobId : Uuid}
    {status : TicketStatus}
    (hiff : ∀ t ∈ db.tickets.rows, t.jobId = jobId → ((f t).status = status ↔ t.status = status)) :
  JobRepository.ticketCounts jobId db' status = JobRepository.ticketCounts jobId db status
  := by
  rw [h.ticketCounts]
  apply List.countP_congr
  intro t ht
  by_cases hjob : t.jobId = jobId
  · simp [hjob, hiff t ht hjob]
  · simp [hjob]

end Counts

/-- A job that was marked as running when tickets of its were claimed agrees with the new
counts. -/
theorem agrees_started {counts counts' : TicketCounts} {j : EvaluationJob}
    (h : Agrees counts j) (hclaimable : claimableJob j = true)
    (htotal : counts'.total = counts.total) (hterminal : counts'.terminal = counts.terminal)
    (hsame : ∀ status : TicketStatus, status.isTerminal = true → counts' status = counts status)
    (hrunning : 0 < counts' .running) (now : Instant) :
  Agrees counts' (if j.status = .created ∨ j.status = .ready then markedRow now j else j)
  := by
  set j' := if j.status = .created ∨ j.status = .ready then markedRow now j else j with hj'
  have hfields : j'.totalTickets = j.totalTickets ∧ j'.completedTickets = j.completedTickets
      ∧ j'.failedTickets = j.failedTickets ∧ j'.cancelledTickets = j.cancelledTickets
      ∧ j'.notApplicableTickets = j.notApplicableTickets ∧ j'.completedAt = j.completedAt := by
    rw [hj']
    split <;> exact ⟨rfl, rfl, rfl, rfl, rfl, rfl⟩
  obtain ⟨htotalTickets, hcompleted, hfailed, hcancelled, hnotApplicable, hcompletedAt⟩ := hfields
  have hstatus : j'.status = .running := by
    simp only [claimableJob, Bool.and_eq_true, Bool.or_eq_true, decide_eq_true_eq] at hclaimable
    rw [hj']
    split
    case isTrue => rfl
    case isFalse hnot =>
      rcases hclaimable.2 with hpending | hrun
      · exact absurd hpending hnot
      · apply hrun
  have hopen : counts'.terminal < counts'.total := by
    simp only [TicketCounts.terminal, TicketCounts.total]
    omega
  constructor
  · exact htotal ▸ h.total_pos
  · rw [htotalTickets, htotal, h.total]
  · rw [hcompleted, hsame .done rfl, h.completed]
  · rw [hfailed, hsame .failed rfl, h.failed]
  · rw [hcancelled, hsame .cancelled rfl, h.cancelled]
  · rw [hnotApplicable, hsame .notApplicable rfl, h.notApplicable]
  · rw [hcompletedAt, hterminal, htotal, h.finished]
  · intro current
    rw [hstatus, progressStatus_of_open hopen, if_pos (.inl hrunning.ne')]
  · intro _ _
    rw [hj']
    split
    case isTrue => rfl
    case isFalse hnot =>
      push Not at hnot
      apply h.started hnot.2 hnot.1

/-- Every change keeps the jobs in agreement with their tickets. -/
theorem agrees_of_change {a : Action} {db db' : Db} (h : db.agrees) (hchange : Change a db db') :
  db'.agrees
  := by
  obtain ⟨f, g, hchange⟩ := hchange
  intro j' hj'
  obtain ⟨j, hj, rfl⟩ := hchange.mem_jobs.mp hj'
  have hagrees := h j hj
  have hmove := hchange.jobMoves j hj
  have htotal := hchange.total j.id
  have hpos : 0 < (ticketCounts j.id db').total := htotal ▸ hagrees.total_pos
  have hle : j.totalTickets ≤ (ticketCounts j.id db').total := (hagrees.total.trans htotal.symm).le
  rw [hmove.id_eq]
  generalize g j = j' at hmove ⊢
  cases hmove with
  | kept same =>
    have hcounts : ticketCounts j.id db' = ticketCounts j.id db := by
      funext status
      apply hchange.ticketCounts_of_iff
      intro t ht htj
      rw [same t ht htj]
    rw [hcounts]
    apply hagrees
  | recomputed => apply agrees_progressRow db.now hpos hle
  | cancelled open_ unclaimed => exact agrees_progressRow db.now hpos hle
  | started claimable moved some =>
    have hrunning : 0 < ticketCounts j.id db' .running := by
      rw [hchange.ticketCounts]
      obtain ⟨t, ht, htj, hstatus⟩ := some
      apply List.countP_pos_iff.mpr
      exact ⟨t, ht, by simp [htj, hstatus]⟩
    have hsame : ∀ status : TicketStatus, status.isTerminal = true →
        ticketCounts j.id db' status = ticketCounts j.id db status := by
      intro status hterminal
      apply hchange.ticketCounts_of_iff
      intro t ht htj
      rcases moved t ht htj with hkept | ⟨hpending | hpending, hrun⟩
      · rw [hkept]
      · rw [hrun, hpending]
        cases status <;> simp_all [TicketStatus.isTerminal]
      · rw [hrun, hpending]
        cases status <;> simp_all [TicketStatus.isTerminal]
    have hterminal : (ticketCounts j.id db').terminal = (ticketCounts j.id db).terminal := by
      simp only [TicketCounts.terminal, hsame .done rfl, hsame .failed rfl, hsame .cancelled rfl,
        hsame .notApplicable rfl]
    apply agrees_started hagrees claimable htotal hterminal hsame hrunning db.now

/-- The tickets of a job in each status, with those of a new job. -/
theorem Created.ticketCounts_add {p : PreparedJob} {db db' : Db} (h : Created p db db')
    (jobId : Uuid) (status : TicketStatus) :
  ticketCounts jobId db' status = ticketCounts jobId db status
    + (p.ticketRows db.now).countP (fun t => t.jobId = jobId && t.status = status)
  := by simp only [ticketCounts, countsByStatus, Table.count, h.tickets, List.countP_append]

/-- A new job leaves the tickets of another. -/
theorem Created.ticketCounts_eq {p : PreparedJob} {db db' : Db} (h : Created p db db')
    {jobId : Uuid} (hne : p.id ≠ jobId) :
  ticketCounts jobId db' = ticketCounts jobId db
  := by
  funext status
  rw [h.ticketCounts_add, List.countP_eq_zero.mpr, add_zero]
  intro t ht
  obtain ⟨q, -, rfl⟩ := List.mem_map.mp ht
  simp [PreparedTicket.ticket, hne]

/-- A new job agrees with its tickets, and the others keep theirs. -/
theorem agrees_of_created {p : PreparedJob} {db db' : Db} (h : db.agrees)
    (hcreated : Created p db db') :
  db'.agrees
  := by
  have hother : ∀ t ∈ db.tickets.rows, t.jobId ≠ p.id := by
    intro t ht htp
    obtain ⟨j, hj⟩ := Db.exists_job ht
    obtain ⟨hmem, hid⟩ := Db.job_eq_some.mp hj
    apply hcreated.fresh j hmem (hid.trans htp)
  intro j hj
  rw [hcreated.jobs] at hj
  rcases List.mem_append.mp hj with hj | hj
  · rw [hcreated.ticketCounts_eq fun hid => hcreated.fresh j hj hid.symm]
    apply h j hj
  · rw [List.mem_singleton] at hj
    subst hj
    have hcounts : ∀ status, ticketCounts p.id db' status
        = if status = .ready then p.tickets.length else 0 := by
      intro status
      have hnone : ticketCounts p.id db status = 0 := by
        apply List.countP_eq_zero.mpr
        intro t ht
        simp [hother t ht]
      rw [hcreated.ticketCounts_add, hnone, zero_add, PreparedJob.ticketRows, List.countP_map]
      split
      case isTrue hready =>
        rw [List.countP_eq_length]
        simp [PreparedTicket.ticket, hready]
      case isFalse hnot =>
        rw [List.countP_eq_zero]
        simp [PreparedTicket.ticket, Ne.symm hnot]
    have hlength : 0 < p.tickets.length := List.length_pos_of_ne_nil hcreated.tickets_ne
    have htotal : (ticketCounts p.id db').total = p.tickets.length := by
      simp [TicketCounts.total, hcounts]
    have hterminal : (ticketCounts p.id db').terminal = 0 := by
      simp [TicketCounts.terminal, hcounts]
    change Agrees (ticketCounts p.id db') _
    constructor
    · omega
    · apply htotal.symm
    · apply (hcounts .done).symm
    · apply (hcounts .failed).symm
    · apply (hcounts .cancelled).symm
    · apply (hcounts .notApplicable).symm
    · rw [hterminal, htotal]
      simp only [PreparedJob.readyRow, PreparedJob.job, Option.isSome_none, Bool.false_eq_true,
        false_iff]
      omega
    · intro current
      rw [progressStatus_of_open (by omega), hterminal, hcounts]
      simp [PreparedJob.readyRow]
    · simp [PreparedJob.readyRow]

/-- Every reachable job agrees with its tickets. -/
theorem agrees_after (settings : Settings) (labels : List Label) :
  (System.after settings labels).db.agrees
  := by
  apply after_keeps Db.agrees
  · simp [Db.agrees, Db.empty, Table.empty]
  · intro p db db' h hcreated
    apply agrees_of_created h hcreated
  · intro a db db' h hchange
    apply agrees_of_change h hchange

/-- The status of a job with a waiting ticket passes the job filter of `claim`, when the job
is not cancelled. -/
theorem claimableJob_of_pending {db : Db} {j : EvaluationJob} {t : EvaluationTicket}
    (h : Agrees (ticketCounts j.id db) j) (hflag : j.cancellationRequestedAt = none)
    (ht : t ∈ db.tickets.rows) (htj : t.jobId = j.id) (hpending : t.status.pending) :
  claimableJob j = true
  := by
  have hopen : (ticketCounts j.id db).terminal < (ticketCounts j.id db).total := by
    apply lt_of_le_of_ne (TicketCounts.terminal_le_total _)
    intro hall
    have hterminal := terminal_eq_total_iff.mp hall t ht htj
    rcases hpending with hstatus | hstatus <;> simp [hstatus, TicketStatus.isTerminal] at hterminal
  have hstatus := h.status .created
  rw [progressStatus_of_open hopen] at hstatus
  unfold claimableJob
  rw [hflag, hstatus]
  split <;> rfl

/-- Job rows agree with their tickets in every reachable state: the counters count tickets,
`completed_at` is set when all are terminal, the status is the decision on the counts,
recomputing changes nothing, and an uncancelled job with a waiting ticket can be claimed
from. -/
theorem job_is_recomputed (settings : Settings) (labels : List Label) (j : EvaluationJob)
    (jobId : Uuid) :
  (System.after settings labels).db.job jobId = some j →
    let db := (System.after settings labels).db
    let number (status : TicketStatus) : ℕ :=
      db.tickets.count fun t => t.jobId = jobId && t.status = status
    j.completedTickets = number .done ∧ j.failedTickets = number .failed
      ∧ j.cancelledTickets = number .cancelled
      ∧ j.notApplicableTickets = number .notApplicable
      ∧ j.totalTickets = db.tickets.count (fun t => t.jobId = jobId)
      ∧ (j.completedAt.isSome = true
          ↔ ∀ t ∈ db.tickets.rows, t.jobId = jobId → t.status.isTerminal = true)
      ∧ (∀ current, j.status
          = progressStatus current j.cancellationRequestedAt.isSome (ticketCounts jobId db))
      ∧ (recomputeProgress jobId db).2 = db
      ∧ (j.cancellationRequestedAt = none →
          (∃ t ∈ db.tickets.rows, t.jobId = jobId ∧ (t.status = .ready ∨ t.status = .retry)) →
          j.status = .created ∨ j.status = .ready ∨ j.status = .running)
  := by
  intro hjob db number
  have hall : db.agrees := agrees_after settings labels
  obtain ⟨hmem, rfl⟩ := Db.job_eq_some.mp hjob
  have h := hall j hmem
  refine ⟨h.completed, h.failed, h.cancelled, h.notApplicable, ?_, ?_, h.status, ?_, ?_⟩
  · rw [h.total, total_ticketCounts]
  · rw [h.finished, terminal_eq_total_iff]
  · apply recomputeProgress_of_agrees hall j.id
  · rintro hflag ⟨t, ht, htj, hpending⟩
    have hclaimable := claimableJob_of_pending h hflag ht htj hpending
    simp only [claimableJob, Bool.and_eq_true, Bool.or_eq_true, decide_eq_true_eq,
      or_assoc] at hclaimable
    apply hclaimable.2

namespace Demo

/-- The demo job while a worker has its ticket. -/
theorem job_is_recomputed_claimed :
  ∃ j, (System.after .default [.createJob job, claim worker (.ok (output .passed))]).db.job 1
      = some j
    ∧ j.totalTickets
      = (System.after .default [.createJob job,
          claim worker (.ok (output .passed))]).db.tickets.count (fun t => t.jobId = 1)
  := by
  have hsome : ((System.after .default [.createJob job,
      claim worker (.ok (output .passed))]).db.job 1).isSome = true := by decide +kernel
  obtain ⟨j, hj⟩ := Option.isSome_iff_exists.mp hsome
  obtain ⟨-, -, -, -, htotal, -⟩ := job_is_recomputed .default
    [.createJob job, claim worker (.ok (output .passed))] j 1 hj
  exact ⟨j, hj, htotal⟩

end Demo

end Evalorch
