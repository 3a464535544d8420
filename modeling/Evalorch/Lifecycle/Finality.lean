import Evalorch.Lifecycle.Agreement

/-!
# What is final

The columns that describe a ticket are those it was inserted with, in every later state
(`ticket_is_kept`). A ticket that is `DONE`, `NOT_APPLICABLE` or `CANCELLED` never changes again,
nor does its result, and a job that is `COMPLETED` never changes again, nor do its tickets and
their results (`completed_is_final`).
-/

namespace Evalorch

open Transact TicketRepository JobRepository

/-! ### Tickets -/

/-- The row of a ticket as it was inserted. -/
def EvaluationTicket.inserted (t : EvaluationTicket) : EvaluationTicket :=
  { insertedRow t.createdAt t with
    status := .ready
    attemptCount := 0 }

theorem transitionRow_inserted (now : Instant) (target : TicketStatus) (s : Settlement)
    (t : EvaluationTicket) :
  (transitionRow now target s t).inserted = t.inserted
  := by cases target <;> rfl

/-- A move keeps the columns that a ticket was inserted with. -/
theorem Move.inserted {db db' : Db} {a : Action} {t t' : EvaluationTicket}
    (h : Move db db' a t t') :
  t'.inserted = t.inserted
  := by
  cases h with
  | recorded => apply transitionRow_inserted
  | _ => rfl

/-- The status is one that no transition leaves. -/
def TicketStatus.final (status : TicketStatus) : Prop :=
  status = .done ∨ status = .notApplicable ∨ status = .cancelled

instance (status : TicketStatus) : Decidable status.final :=
  inferInstanceAs (Decidable (status = .done ∨ status = .notApplicable ∨ status = .cancelled))

theorem TicketStatus.final_iff {status : TicketStatus} :
  status.final ↔ ¬ status.pending ∧ status ≠ .running ∧ status ≠ .failed
  := by cases status <;> decide

/-- A ticket that is final stays as it is. -/
theorem Move.eq_of_final {db db' : Db} {a : Action} {t t' : EvaluationTicket}
    (h : Move db db' a t t') (hfinal : t.status.final) :
  t' = t
  := by
  obtain ⟨hpending, hrunning, hfailed⟩ := TicketStatus.final_iff.mp hfinal
  cases h with
  | stay => rfl
  | claimed _ pending => exact absurd pending hpending
  | extended _ owns => exact absurd (owned_iff.mp owns).1 hrunning
  | cancelled _ _ owns => exact absurd (owned_iff.mp owns).1 hrunning
  | retried _ _ owns => exact absurd (owned_iff.mp owns).1 hrunning
  | recorded _ _ owns => exact absurd (owned_iff.mp owns).1 hrunning
  | cancelledUnclaimed _ pending => exact absurd pending hpending
  | reset failed => exact absurd failed hfailed
  | recovered _ passed => exact absurd (expired_iff.mp passed).1 hrunning
  | swept _ passed => exact absurd (expired_iff.mp passed).1 hrunning

/-- A result is written only for a ticket that runs. -/
theorem Change.resultOf_of_not_running {a : Action} {db db' : Db} (h : Change a db db')
    {ticketId : Uuid} (hnot : ∀ t, db.ticket ticketId = some t → t.status ≠ .running) :
  db'.resultOf ticketId = db.resultOf ticketId
  := by
  obtain ⟨f, g, hby⟩ := h
  cases hby.results with
  | kept results => rw [Db.resultOf, results, Db.resultOf]
  | @recorded ticket worker target result row t htarget before hjob written resultOf =>
    rw [resultOf]
    split
    case isTrue hid =>
      obtain ⟨t', ht', howned⟩ := hby.enabled
      exact absurd (owned_iff.mp howned).1 (hnot t' (hid ▸ ht'))
    case isFalse => rfl

/-- What stays of a ticket and its result. -/
structure TicketKept (db db' : Db) (t : EvaluationTicket) : Prop where
  inserted : ∃ t', db'.ticket t.id = some t' ∧ t'.inserted = t.inserted
  final : t.status.final → db'.ticket t.id = some t ∧ db'.resultOf t.id = db.resultOf t.id

/-- In every run from a state, a ticket keeps the columns it was inserted with; and when it is
final, it and its result do not change. -/
theorem ticket_is_kept {settings : Settings} {s : System} (hs : s.sound) {t : EvaluationTicket}
    (ht : s.db.ticket t.id = some t) (labels : List Label) :
  TicketKept s.db (run (System.step settings) s labels).db t
  := by
  suffices h : ∀ t, s.db.ticket t.id = some t →
      TicketKept s.db (run (System.step settings) s labels).db t from h t ht
  apply run_across (fun _ => True)
    (fun db db' => ∀ t, db.ticket t.id = some t → TicketKept db db' t) _ _ _ _ hs trivial
  · intro p db db' _ hcreated
    refine ⟨trivial, fun t ht => ⟨⟨t, hcreated.ticket ht, rfl⟩, fun _ => ⟨hcreated.ticket ht, ?_⟩⟩⟩
    rw [Db.resultOf, hcreated.results, Db.resultOf]
  · intro a db db' _ hchange
    use trivial
    intro t ht
    obtain ⟨t', ht', hmove⟩ := hchange.exists_ticket ht
    refine ⟨⟨t', ht', hmove.inserted⟩, fun hfinal => ⟨?_, ?_⟩⟩
    · rw [ht', hmove.eq_of_final hfinal]
    · apply hchange.resultOf_of_not_running
      intro t₀ ht₀
      cases ht.symm.trans ht₀
      exact (TicketStatus.final_iff.mp hfinal).2.1
  · exact fun db t ht => ⟨⟨t, ht, rfl⟩, fun _ => ⟨ht, rfl⟩⟩
  · intro db db' db'' h h' t ht
    obtain ⟨t', ht', hinserted⟩ := (h t ht).inserted
    have hid : t'.id = t.id := (Db.ticket_eq_some.mp ht').2
    constructor
    · obtain ⟨t'', ht'', hinserted'⟩ := (h' t' (hid.symm ▸ ht')).inserted
      exact ⟨t'', hid ▸ ht'', hinserted'.trans hinserted⟩
    · intro hfinal
      obtain ⟨hsame, hresult⟩ := (h t ht).final hfinal
      obtain ⟨hsame', hresult'⟩ := (h' t hsame).final hfinal
      exact ⟨hsame', hresult'.trans hresult⟩

/-! ### Jobs -/

/-- A job, its tickets and their results are the same. -/
structure JobKept (jobId : Uuid) (db db' : Db) : Prop where
  job : db'.job jobId = db.job jobId
  tickets : (db'.tickets.rows.filter fun t => t.jobId = jobId)
    = db.tickets.rows.filter fun t => t.jobId = jobId
  results : ∀ t ∈ db.tickets.rows, t.jobId = jobId → db'.resultOf t.id = db.resultOf t.id

theorem JobKept.refl (jobId : Uuid) (db : Db) :
  JobKept jobId db db
  := ⟨rfl, rfl, fun _ _ _ => rfl⟩

theorem JobKept.trans {jobId : Uuid} {db db' db'' : Db} (h : JobKept jobId db db')
    (h' : JobKept jobId db' db'') :
  JobKept jobId db db''
  := by
  refine ⟨h'.job.trans h.job, h'.tickets.trans h.tickets, fun t ht hjob => ?_⟩
  have hmem : t ∈ db.tickets.rows.filter fun t => t.jobId = jobId :=
    List.mem_filter.mpr ⟨ht, by simpa using hjob⟩
  rw [← h.tickets] at hmem
  exact (h'.results t (List.mem_filter.mp hmem).1 hjob).trans (h.results t ht hjob)

/-- `recompute_progress` decides on `COMPLETED` when all tickets are terminal and none failed. -/
theorem counts_of_completed {current : JobStatus} {cancellationRequested : Bool}
    {counts : TicketCounts} (htotal : counts.total ≠ 0)
    (h : progressStatus current cancellationRequested counts = .completed) :
  counts.terminal = counts.total ∧ counts .failed = 0
  := by
  have hle := counts.terminal_le_total
  rw [progressStatus, if_neg htotal] at h
  split at h
  case isTrue =>
    split at h <;> cases h
  case isFalse hall =>
    split at h
    case isTrue => cases h
    case isFalse =>
      split at h
      case isTrue hfailed => exact ⟨by omega, hfailed⟩
      case isFalse =>
        split at h <;> cases h

/-- The tickets of a completed job are final. -/
theorem final_of_completed {db : Db} (h : db.agrees) {j : EvaluationJob} (hj : j ∈ db.jobs.rows)
    (hcompleted : j.status = .completed) {t : EvaluationTicket} (ht : t ∈ db.tickets.rows)
    (hjob : t.jobId = j.id) :
  t.status.final
  := by
  have hagrees := h j hj
  obtain ⟨hterminal, hnone⟩ := counts_of_completed hagrees.total_pos.ne'
    ((hagrees.status .created).symm.trans hcompleted)
  have hend := terminal_eq_total_iff.mp hterminal t ht hjob
  have hfailed : t.status ≠ .failed := by
    intro hfailed
    have := ticketCounts_pos_iff.mpr ⟨t, ht, hjob, hfailed⟩
    omega
  revert hend hfailed
  cases t.status <;> decide

/-- A change leaves a completed job as it is. -/
theorem jobKept_of_change {a : Action} {db db' : Db} (hagrees : db.agrees)
    (h : Change a db db') {j : EvaluationJob} (hj : j ∈ db.jobs.rows)
    (hcompleted : j.status = .completed) :
  JobKept j.id db db'
  := by
  obtain ⟨f, g, hby⟩ := h
  have hfixed : ∀ t ∈ db.tickets.rows, t.jobId = j.id → f t = t := fun t ht hjob =>
    (hby.moves t ht).eq_of_final (final_of_completed hagrees hj hcompleted ht hjob)
  constructor
  · rw [hby.job, Db.job_eq_some.mpr ⟨hj, rfl⟩, Option.map_some, Option.some_inj]
    have hcounts : ticketCounts j.id db' = ticketCounts j.id db := by
      funext status
      apply hby.ticketCounts_of_iff
      intro t ht hjob
      rw [hfixed t ht hjob]
    have hmove := hby.jobMoves j hj
    generalize g j = j' at hmove
    cases hmove with
    | kept => rfl
    | started claimable =>
      simp [claimableJob, hcompleted] at claimable
    | recomputed =>
      rw [hcounts]
      apply progressRow_of_agrees _ (hagrees j hj)
    | cancelled open_ => exact absurd hcompleted open_.1
  · rw [hby.tickets, List.filter_map]
    have hfilter : (db.tickets.rows.filter ((fun t => decide (t.jobId = j.id)) ∘ f))
        = db.tickets.rows.filter fun t => t.jobId = j.id := by
      apply List.filter_congr
      intro t ht
      rw [Function.comp_apply, (hby.moves t ht).id_jobId.2.1]
    rw [hfilter]
    calc (db.tickets.rows.filter fun t => t.jobId = j.id).map f
        = (db.tickets.rows.filter fun t => t.jobId = j.id).map id := by
          apply List.map_congr_left
          intro t ht
          obtain ⟨hmem, hjob⟩ := List.mem_filter.mp ht
          exact hfixed t hmem (by simpa using hjob)
      _ = _ := List.map_id _
  · intro t ht hjob
    apply Change.resultOf_of_not_running ⟨f, g, hby⟩
    intro t' ht'
    cases (Db.ticket_eq_some.mpr ⟨ht, rfl⟩).symm.trans ht'
    exact (TicketStatus.final_iff.mp (final_of_completed hagrees hj hcompleted ht hjob)).2.1

/-- So does the creation of another job. -/
theorem jobKept_of_created {p : PreparedJob} {db db' : Db} (h : Created p db db')
    {j : EvaluationJob} (hj : j ∈ db.jobs.rows) :
  JobKept j.id db db'
  := by
  have hjob : db.job j.id = some j := Db.job_eq_some.mpr ⟨hj, rfl⟩
  constructor
  · rw [h.job hjob, hjob]
  · rw [h.tickets, List.filter_append]
    have hnew : ((p.ticketRows db.now).filter fun t => t.jobId = j.id) = [] := by
      rw [List.filter_eq_nil_iff]
      intro t ht
      obtain ⟨q, -, rfl⟩ := List.mem_map.mp ht
      simp [PreparedTicket.ticket, (h.fresh j hj).symm]
    rw [hnew, List.append_nil]
  · intro t _ _
    rw [Db.resultOf, h.results, Db.resultOf]

/-- A completed job is final: from a reachable state in which a job is `COMPLETED` on, no step of
any run changes the job, its tickets or their results. -/
theorem completed_is_final (settings : Settings) (before labels : List Label)
    {j : EvaluationJob} (hj : j ∈ (System.after settings before).db.jobs.rows)
    (hcompleted : j.status = .completed) :
  JobKept j.id (System.after settings before).db (System.after settings (before ++ labels)).db
  := by
  rw [System.after_append]
  suffices h : ∀ j ∈ (System.after settings before).db.jobs.rows, j.status = .completed →
      JobKept j.id (System.after settings before).db
        (run (System.step settings) (System.after settings before) labels).db from
    h j hj hcompleted
  apply run_across Db.agrees
    (fun db db' => ∀ j ∈ db.jobs.rows, j.status = .completed → JobKept j.id db db') _ _ _ _
    (sound_after settings before) (agrees_after settings before)
  · intro p db db' hagrees hcreated
    exact ⟨agrees_of_created hagrees hcreated, fun j hj _ => jobKept_of_created hcreated hj⟩
  · intro a db db' hagrees hchange
    exact ⟨agrees_of_change hagrees hchange, fun j hj => jobKept_of_change hagrees hchange hj⟩
  · exact fun db j _ _ => .refl j.id db
  · intro db db' db'' h h' j hj hcompleted
    have hfirst := h j hj hcompleted
    have hjob := hfirst.job
    rw [Db.job_eq_some.mpr ⟨hj, rfl⟩] at hjob
    exact hfirst.trans (h' j (Db.job_eq_some.mp hjob).1 hcompleted)

namespace Demo

/-- The ticket of the job is claimed, evaluated and settled. -/
def completed : List Label :=
  [.createJob job, claim worker (.ok (output .passed)), .execute 0 none, .execute 0 none]

/-- Requests and sweeps that come later. -/
def afterwards : List Label :=
  [.retryFailedTickets 1, .cancelJob 1, .tick 400000000, recover]

theorem ticket_is_kept_afterwards :
  ∃ t, t.status = .done ∧ TicketKept (System.after .default completed).db
    (run (System.step .default) (System.after .default completed) afterwards).db t
  := by
  obtain ⟨t, ht, hdone⟩ : ∃ t, (System.after .default completed).db.ticket 10 = some t
      ∧ t.status = .done := ⟨_, rfl, rfl⟩
  obtain ⟨-, hid⟩ := Db.ticket_eq_some.mp ht
  use t, hdone
  exact ticket_is_kept (sound_after .default _) (hid.symm ▸ ht) afterwards

theorem completed_is_final_afterwards :
  JobKept 1 (System.after .default completed).db
    (System.after .default (completed ++ afterwards)).db
  := by
  obtain ⟨j, hj, hid, hcompleted⟩ : ∃ j, j ∈ (System.after .default completed).db.jobs.rows
      ∧ j.id = 1 ∧ j.status = .completed :=
    ⟨_, List.mem_cons_self, rfl, rfl⟩
  exact hid ▸ completed_is_final .default completed afterwards hj hcompleted

end Demo

end Evalorch
