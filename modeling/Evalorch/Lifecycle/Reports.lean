import Evalorch.Evaluators.Shares
import Evalorch.Lifecycle.Finality
import Evalorch.Lifecycle.Results
import Evalorch.Services.JobReport

/-!
# Reports of reachable jobs

The counters of a job, the summary of its results and its status payload are computed from
different rows. In every reachable state they fit together (`reports_agree`): a result that passed
belongs to a `DONE` ticket of its job, and every such ticket has a result of its own.
-/

namespace Evalorch

open Transact TicketRepository JobRepository ResultRepository Evaluator

/-! ### Results and their tickets -/

/-- The ticket of a result, as far as the result tells. -/
def Db.settledFor (db : Db) : Prop :=
  ∀ r ∈ db.results.rows, ∃ t, db.ticket r.ticketId = some t ∧ t.jobId = r.jobId
    ∧ (r.status = .passed → t.status = .done)
    ∧ (r.status = .notApplicable → t.status = .notApplicable)

/-- A change that leaves a result alone leaves its ticket settled. -/
theorem settledFor_of_move {db db' : Db} {a : Action} {t t' : EvaluationTicket}
    {r : EvaluationResult} (h : Move db db' a t t')
    (hpassed : r.status = .passed → t.status = .done)
    (hskipped : r.status = .notApplicable → t.status = .notApplicable) :
  (r.status = .passed → t'.status = .done)
    ∧ (r.status = .notApplicable → t'.status = .notApplicable)
  := by
  constructor
  · intro hr
    rw [h.eq_of_final (.inl (hpassed hr)), hpassed hr]
  · intro hr
    rw [h.eq_of_final (.inr (.inl (hskipped hr))), hskipped hr]

theorem settledFor_of_change {a : Action} {db db' : Db} (h : db.settledFor)
    (hchange : Change a db db') :
  db'.settledFor
  := by
  intro r hr
  have hfound := Db.resultOf_eq_some.mpr ⟨hr, rfl⟩
  have hold : db.resultOf r.ticketId = some r → ∃ t', db'.ticket r.ticketId = some t'
      ∧ t'.jobId = r.jobId ∧ (r.status = .passed → t'.status = .done)
      ∧ (r.status = .notApplicable → t'.status = .notApplicable) := by
    intro hbefore
    obtain ⟨t, ht, hjob, hpassed, hskipped⟩ := h r (Db.resultOf_eq_some.mp hbefore).1
    obtain ⟨t', ht', hmove⟩ := hchange.exists_ticket ht
    exact ⟨t', ht', hmove.id_jobId.2.1.trans hjob, settledFor_of_move hmove hpassed hskipped⟩
  obtain ⟨f, g, hby⟩ := id hchange
  cases hby.results with
  | kept results =>
    apply hold
    rw [Db.resultOf, ← results, ← Db.resultOf, hfound]
  | @recorded ticket worker target result row t htarget before hjob written resultOf paired hflag
      settled =>
    rw [resultOf] at hfound
    split at hfound
    case isFalse => exact hold hfound
    case isTrue hid =>
      cases hfound
      -- The ticket is settled with the result that is written.
      obtain ⟨t', ht', hstatus, -⟩ := settled
      obtain ⟨t'', ht'', hmove⟩ := hchange.exists_ticket before
      cases ht'.symm.trans ht''
      have hrow : r.status = result.status ∧ r.jobId = t.jobId := by
        obtain ⟨old, hprevious, rfl⟩ | ⟨-, rfl⟩ := written
        · obtain ⟨hmem, hticket⟩ := Db.resultOf_eq_some.mp hprevious
          obtain ⟨t₀, ht₀, hjob₀, -⟩ := h old hmem
          rw [hticket, before] at ht₀
          cases ht₀
          exact ⟨rfl, hjob₀.symm⟩
        · exact ⟨rfl, hjob⟩
      refine ⟨t', hid ▸ ht', hmove.id_jobId.2.1.trans hrow.2.symm, ?_, ?_⟩
      · intro hpassed
        rw [hrow.1] at hpassed
        rw [hstatus]
        cases target <;> simp [pairs, hpassed] at paired ⊢
      · intro hskipped
        rw [hrow.1] at hskipped
        rw [hstatus]
        cases target <;> simp [pairs, hskipped] at paired ⊢

theorem settledFor_of_created {p : PreparedJob} {db db' : Db} (h : db.settledFor)
    (hcreated : Created p db db') :
  db'.settledFor
  := by
  intro r hr
  rw [hcreated.results] at hr
  obtain ⟨t, ht, hrest⟩ := h r hr
  exact ⟨t, hcreated.ticket ht, hrest⟩

theorem settledFor_after (settings : Settings) (labels : List Label) :
  (System.after settings labels).db.settledFor
  := by
  apply after_keeps Db.settledFor
  · simp [Db.settledFor, Db.empty, Table.empty]
  · exact fun _ _ _ h hcreated => settledFor_of_created h hcreated
  · exact fun _ _ _ h hchange => settledFor_of_change h hchange

/-! ### Counting -/

section Counts

variable {db : Db} {jobId : Uuid}

/-- Every passed result belongs to a `DONE` ticket. -/
theorem passed_le_done (h : db.settledFor) (jobId : Uuid) :
  (summaryByJob jobId db).passed ≤ ticketCounts jobId db .done
  := by
  apply Table.count_le_count
  intro r hr hp
  simp only [Bool.and_eq_true, decide_eq_true_eq] at hp
  obtain ⟨t, ht, hjob, hdone, -⟩ := h r hr
  obtain ⟨hmem, hid⟩ := Db.ticket_eq_some.mp ht
  exact ⟨t, hmem, by simp [hjob, hp.1, hdone hp.2], hid⟩

/-- A result of a `DONE` ticket passed or failed. -/
theorem exists_result_of_done (hlinked : db.linked) (h : db.settledFor) {t : EvaluationTicket}
    (ht : t ∈ db.tickets.rows) (hstatus : t.status = .done ∨ t.status = .notApplicable) :
  ∃ r ∈ db.results.rows, r.ticketId = t.id ∧ r.jobId = t.jobId ∧ pairs t.status r.status
  := by
  have hlink := hlinked t ht
  cases hresult : t.resultId with
  | none =>
    obtain ⟨hdone, hskipped⟩ := hlink.finished hresult
    exact absurd hstatus (by simp [hdone, hskipped])
  | some id =>
    obtain ⟨r, hr, -, hpairs⟩ := hlink.row id hresult
    obtain ⟨hmem, hticket⟩ := Db.resultOf_eq_some.mp hr
    obtain ⟨t', ht', hjob, -⟩ := h r hmem
    rw [hticket, Db.ticket_eq_some.mpr ⟨ht, rfl⟩] at ht'
    cases ht'
    exact ⟨r, hmem, hticket, hjob.symm, hpairs⟩

/-- Every `DONE` ticket has a result that passed or failed. -/
theorem done_le_scored (hlinked : db.linked) (h : db.settledFor) (jobId : Uuid) :
  ticketCounts jobId db .done ≤ (summaryByJob jobId db).passed + (summaryByJob jobId db).failed
  := by
  have hscored : (summaryByJob jobId db).passed + (summaryByJob jobId db).failed
      = db.results.count fun r =>
        r.jobId = jobId && (r.status = .passed || r.status = .failed) := by
    simp only [summaryByJob, Table.count]
    induction db.results.rows with
    | nil => rfl
    | cons r rows ih =>
      simp only [List.countP_cons]
      cases hstatus : r.status <;> by_cases hjob : r.jobId = jobId <;> simp [hjob] <;> omega
  rw [hscored]
  apply Table.count_le_count
  intro t ht hp
  simp only [Bool.and_eq_true, decide_eq_true_eq] at hp
  obtain ⟨r, hr, hticket, hjob, hpairs⟩ := exists_result_of_done hlinked h ht (.inl hp.2)
  rw [hp.2] at hpairs
  refine ⟨r, hr, ?_, hticket⟩
  rcases hpairs with hpassed | hfailed
  · simp [hjob, hp.1, hpassed]
  · simp [hjob, hp.1, hfailed]

/-- The results that were not applicable are those of the `NOT_APPLICABLE` tickets. -/
theorem notApplicable_eq (hlinked : db.linked) (h : db.settledFor) (jobId : Uuid) :
  (summaryByJob jobId db).notApplicable = ticketCounts jobId db .notApplicable
  := by
  apply le_antisymm
  · apply Table.count_le_count
    intro r hr hp
    simp only [Bool.and_eq_true, decide_eq_true_eq] at hp
    obtain ⟨t, ht, hjob, -, hskipped⟩ := h r hr
    obtain ⟨hmem, hid⟩ := Db.ticket_eq_some.mp ht
    exact ⟨t, hmem, by simp [hjob, hp.1, hskipped hp.2], hid⟩
  · apply Table.count_le_count
    intro t ht hp
    simp only [Bool.and_eq_true, decide_eq_true_eq] at hp
    obtain ⟨r, hr, hticket, hjob, hpairs⟩ := exists_result_of_done hlinked h ht (.inr hp.2)
    rw [hp.2] at hpairs
    exact ⟨r, hr, by simp [hjob, hp.1, show r.status = .notApplicable from hpairs], hticket⟩

/-- A job has at most one result for each ticket. -/
theorem results_le_tickets (h : db.settledFor) (jobId : Uuid) :
  (summaryByJob jobId db).totalResults ≤ (ticketCounts jobId db).total
  := by
  rw [total_ticketCounts]
  apply Table.count_le_count
  intro r hr hp
  obtain ⟨t, ht, hjob, -⟩ := h r hr
  obtain ⟨hmem, hid⟩ := Db.ticket_eq_some.mp ht
  exact ⟨t, hmem, by simpa [hjob] using hp, hid⟩

/-- The results are counted by their statuses. -/
theorem totalResults_eq (jobId : Uuid) (db : Db) :
  (summaryByJob jobId db).totalResults = (summaryByJob jobId db).passed
    + (summaryByJob jobId db).failed + (summaryByJob jobId db).notApplicable
    + (summaryByJob jobId db).errored
  := by
  simp only [summaryByJob, countByJob, Table.count]
  induction db.results.rows with
  | nil => rfl
  | cons r rows ih =>
    simp only [List.countP_cons]
    cases hstatus : r.status <;> by_cases hjob : r.jobId = jobId <;> simp [hjob] <;> omega

/-- When every ticket was evaluated, no result of the job is an error. -/
theorem errored_eq_zero (hlinked : db.linked) (h : db.settledFor) {jobId : Uuid}
    (hall : ∀ t ∈ db.tickets.rows, t.jobId = jobId →
      t.status = .done ∨ t.status = .notApplicable) :
  (summaryByJob jobId db).errored = 0
  := by
  apply List.countP_eq_zero.mpr
  intro r hr hp
  simp only [Bool.and_eq_true, decide_eq_true_eq] at hp
  obtain ⟨t, ht, hjob, -⟩ := h r hr
  obtain ⟨hmem, hid⟩ := Db.ticket_eq_some.mp ht
  have hstatus := hall t hmem (hjob.trans hp.1)
  obtain ⟨r', hr', hticket, -, hpairs⟩ := exists_result_of_done hlinked h hmem hstatus
  have hsame : r' = r := Table.eq_of_key hr' hr (hticket.trans hid)
  rw [hsame, hp.2] at hpairs
  rcases hstatus with hdone | hskipped
  · simp [hdone, pairs] at hpairs
  · simp [hskipped, pairs] at hpairs

end Counts

/-! ### Reports -/

/-- The checks of a summary add up to its counts, and each has one entry. -/
structure ChecksAddUp (checks : List CheckSummary) (s : Summary) : Prop where
  distinct : (checks.map fun c => (c.checkId, c.checkType)).Nodup
  occur : ∀ c ∈ checks, 0 < c.total
  total : (checks.map (·.total)).sum = s.totalResults
  passed : (checks.map (·.passed)).sum = s.passed
  failed : (checks.map (·.failed)).sum = s.failed
  notApplicable : (checks.map (·.notApplicable)).sum = s.notApplicable
  errored : (checks.map (·.errored)).sum = s.errored

/-- The summary of the results of a job fits its row. -/
structure SummaryAgrees (j : EvaluationJob) (s : Summary) : Prop where
  results : s.totalResults = s.passed + s.failed + s.notApplicable + s.errored
  tickets : s.totalResults ≤ j.totalTickets
  passed : s.passed ≤ j.completedTickets
  completed : j.completedTickets ≤ s.passed + s.failed
  notApplicable : s.notApplicable = j.notApplicableTickets
  evaluated : j.completedTickets + j.notApplicableTickets = j.totalTickets →
    s.passed + s.failed = j.completedTickets ∧ s.errored = 0
  rate : ∀ rate, s.passRate = some rate → ∃ q : ℚ, rate = .finite q ∧ 0 ≤ q ∧ q ≤ 1

/-- The status payload of a job fits its row. -/
structure PayloadAgrees (j : EvaluationJob) (payload : JobStatusPayload) : Prop where
  counts : payload.ticketCounts.total = j.totalTickets
  terminal : payload.terminalTickets
    = j.completedTickets + j.failedTickets + j.cancelledTickets + j.notApplicableTickets
  progress : ∃ q : ℚ, payload.progressRatio = .finite q ∧ 0 ≤ q ∧ q ≤ 1
  finished : j.completedAt.isSome = true → payload.progressRatio = .finite 1
  unfinished : payload.progressRatio = .finite 1 → j.totalTickets < 2 ^ 32 →
    (j.totalTickets - payload.terminalTickets) * 20000 ≤ j.totalTickets

/-- What is counted by check adds up. -/
theorem checksAddUp (jobId : Uuid) (db : Db) :
  ChecksAddUp (checksByJob jobId db) (summaryByJob jobId db)
  := by
  set results := db.results.rows.filter fun r => r.jobId = jobId with hresults
  have hsum : ∀ status : ResultStatus,
      ((Query.groups (fun r => (r.checkId, r.checkType)) results).map
        fun group => group.2.countP (·.status = status)).sum
          = db.results.count fun r => r.jobId = jobId && r.status = status := by
    intro status
    rw [Query.sum_countP_groups, hresults, List.countP_filter, Table.count]
    simp [Bool.and_comm]
  constructor
  · rw [checksByJob, List.map_map]
    exact Query.nodup_groups (fun r => (r.checkId, r.checkType)) results
  · intro c hc
    obtain ⟨group, hgroup, rfl⟩ := List.mem_map.mp hc
    exact List.length_pos_iff.mpr (Query.of_mem_groups hgroup).2
  · have htotal := Query.sum_countP_groups (fun r => (r.checkId, r.checkType)) results
      fun _ => true
    simp only [List.countP_true] at htotal
    rw [checksByJob, List.map_map]
    exact htotal.trans List.countP_eq_length_filter.symm
  · rw [checksByJob, List.map_map]
    exact hsum .passed
  · rw [checksByJob, List.map_map]
    exact hsum .failed
  · rw [checksByJob, List.map_map]
    exact hsum .notApplicable
  · rw [checksByJob, List.map_map]
    exact hsum .error

/-- When the evaluated tickets are all tickets of a job, every ticket was evaluated. -/
theorem evaluated_of_counts {db : Db} {jobId : Uuid}
    (h : ticketCounts jobId db .done + ticketCounts jobId db .notApplicable
      = (ticketCounts jobId db).total) {t : EvaluationTicket} (ht : t ∈ db.tickets.rows)
    (hjob : t.jobId = jobId) :
  t.status = .done ∨ t.status = .notApplicable
  := by
  have hpos : 0 < ticketCounts jobId db t.status := ticketCounts_pos_iff.mpr ⟨t, ht, hjob, rfl⟩
  rw [TicketCounts.total] at h
  revert hpos
  cases t.status <;> simp <;> omega

theorem summaryAgrees {db : Db} {j : EvaluationJob} (hagrees : Agrees (ticketCounts j.id db) j)
    (hlinked : db.linked) (h : db.settledFor) :
  SummaryAgrees j (summaryByJob j.id db)
  := by
  have hresults := totalResults_eq j.id db
  have hpassed := passed_le_done h j.id
  have hscored := done_le_scored hlinked h j.id
  have hskipped := notApplicable_eq hlinked h j.id
  have htickets := results_le_tickets h j.id
  constructor
  · exact hresults
  · rw [hagrees.total]
    exact htickets
  · rw [hagrees.completed]
    exact hpassed
  · rw [hagrees.completed]
    exact hscored
  · rw [hagrees.notApplicable]
    exact hskipped
  · rw [hagrees.completed, hagrees.notApplicable, hagrees.total]
    intro hall
    have herrored : (summaryByJob j.id db).errored = 0 :=
      errored_eq_zero hlinked h fun t ht hjob => evaluated_of_counts hall ht hjob
    omega
  · intro rate hrate
    simp only [Summary.passRate] at hrate
    split at hrate
    case isFalse => cases hrate
    case isTrue =>
      cases hrate
      exact share_bounds (Nat.le_add_right _ _)

theorem payloadAgrees {db : Db} {j : EvaluationJob} (hagrees : Agrees (ticketCounts j.id db) j) :
  PayloadAgrees j (jobStatusPayload j db)
  := by
  have hpos := hagrees.total_pos
  have hle := (ticketCounts j.id db).terminal_le_total
  have hratio : (jobStatusPayload j db).progressRatio
      = share (ticketCounts j.id db).terminal (ticketCounts j.id db).total := by
    have hne : j.totalTickets ≠ 0 := by
      rw [hagrees.total]
      exact hpos.ne'
    simp only [jobStatusPayload, if_pos hne]
    rw [hagrees.total]
    rfl
  constructor
  · exact hagrees.total.symm
  · rw [hagrees.completed, hagrees.failed, hagrees.cancelled, hagrees.notApplicable]
    rfl
  · rw [hratio]
    exact share_bounds hle
  · intro hcompleted
    rw [hratio, hagrees.finished.mp hcompleted]
    exact share_self hpos
  · rw [hratio, hagrees.total]
    exact fun hone hsmall => le_of_share_eq_one hpos hle hsmall hone

/-- What is reported on a job in a reachable state agrees with its row, when the row and the counts
are read in one look: the summary of its results and the entries of its checks, and its status
payload. -/
theorem reports_agree (settings : Settings) (labels : List Label) :
  let db := (System.after settings labels).db
  ∀ j ∈ db.jobs.rows, PayloadAgrees j (jobStatusPayload j db)
    ∧ SummaryAgrees j (summaryByJob j.id db)
    ∧ ChecksAddUp (checksByJob j.id db) (summaryByJob j.id db)
  := by
  intro db j hj
  have hagrees := agrees_after settings labels j hj
  exact ⟨payloadAgrees hagrees,
    summaryAgrees hagrees (linked_after settings labels) (settledFor_after settings labels),
    checksAddUp j.id db⟩

namespace Demo

theorem reports_agree_completed :
  let db := (System.after .default completed).db
  ∃ j, db.job 1 = some j ∧ PayloadAgrees j (jobStatusPayload j db)
    ∧ SummaryAgrees j (summaryByJob j.id db)
    ∧ ChecksAddUp (checksByJob j.id db) (summaryByJob j.id db)
  := by
  intro db
  obtain ⟨j, hj⟩ : ∃ j, db.job 1 = some j := ⟨_, rfl⟩
  use j, hj
  exact reports_agree .default completed j (Db.job_eq_some.mp hj).1

end Demo

end Evalorch
