import Evalorch.Interleaving.Deadlock
import Evalorch.Interleaving.Alone
import Evalorch.Lifecycle.Cancellation

/-!
# A sweep that misses a cancellation

The statement that recovers expired leases decides by the flags of the jobs as they were when it
looked, while the rows it locks may have been cancelled since. So a cancellation that is committed
in between leaves behind a ticket that waits to be claimed again. Nobody claims it, because its job
is cancelled, and no sweep takes it, because it is not running: it stays until the job is cancelled
once more (`sweep_misses_cancellation`).
-/

namespace Evalorch

open Transact TicketRepository JobRepository

variable {db : Db} {now : Instant}

/-! ### What the statements keep -/

/-- The tickets are the same, and jobs that were cancelled still are. -/
structure Recomputed (db db' : Db) : Prop where
  tickets : db'.tickets = db.tickets
  cancelRequested : ∀ jobId, db.cancelRequested jobId → db'.cancelRequested jobId

theorem Recomputed.refl (db : Db) :
  Recomputed db db
  := ⟨rfl, fun _ h => h⟩

theorem Recomputed.trans {db db' db'' : Db} (h : Recomputed db db') (h' : Recomputed db' db'') :
  Recomputed db db''
  := ⟨h'.tickets.trans h.tickets, fun _ hflag => h'.cancelRequested _ (h.cancelRequested _ hflag)⟩

/-- An update of jobs that keeps their flags. -/
theorem recomputed_updateJobs {selects : EvaluationJob → Bool}
    {set : EvaluationJob → EvaluationJob} {keeps : ∀ j, (set j).id = j.id}
    (hflag : ∀ j, j.cancellationRequestedAt.isSome → (set j).cancellationRequestedAt.isSome)
    (db : Db) :
  Recomputed db (db.updateJobs selects set keeps)
  := by
  use rfl
  rintro jobId ⟨j, hj, hset⟩
  use patch selects set j
  rw [Db.job_updateJobs, hj]
  use rfl
  unfold patch
  split
  · exact hflag j hset
  · exact hset

theorem recomputed_recompute (now : Instant) (jobId : Uuid) (db : Db) :
  ∃ db', Recomputed db db'
    ∧ ∀ next, (recompute now jobId next).alone db = next.alone db'
  := by
  cases hjob : db.job jobId with
  | none =>
    use db, .refl db
    intro next
    rw [recompute, alone_lockJob, hjob]
    rfl
  | some j =>
    use (progressPatch now (ticketCounts jobId db)).effect jobId db
    constructor
    · apply recomputed_updateJobs
      exact fun _ hflag => hflag
    · intro next
      rw [recompute, alone_lockJob, hjob]
      rfl

theorem recomputed_recomputeEach (now : Instant) (jobIds : List Uuid) (db : Db) :
  ∃ db', Recomputed db db'
    ∧ ∀ next, (recomputeEach now jobIds next).alone db = next.alone db'
  := by
  induction jobIds generalizing db with
  | nil => exact ⟨db, .refl db, fun next => rfl⟩
  | cons jobId jobIds ih =>
    obtain ⟨db₁, hfirst, hrun⟩ := recomputed_recompute now jobId db
    obtain ⟨db₂, hrest, hrun'⟩ := ih db₁
    use db₂, hfirst.trans hrest
    intro next
    exact (hrun _).trans (hrun' next)

/-! ### The two transactions -/

/-- A cancellation alone flags the job, and leaves running tickets as they are. -/
theorem alone_cancel_running (now : Instant) {jobId : Uuid} {j : EvaluationJob}
    (hj : db.job jobId = some j)
    (hopen : ¬ (j.status = .completed ∨ j.status = .failed ∨ j.status = .partialFailed))
    (scan : Scan EvaluationTicket) :
  ∃ db', (cancelText now jobId scan).alone db = some db' ∧ db'.cancelRequested jobId
    ∧ ∀ t ∈ db.tickets.rows, t.status = .running → t ∈ db'.tickets.rows
  := by
  let db₁ := (flagPatch now).effect jobId db
  have hflag : db₁.cancelRequested jobId := by
    use (flagPatch now).set j
    rw [JobPatch.job_effect, if_pos rfl, hj]
    exact ⟨rfl, rfl⟩
  obtain ⟨updated, -, halone⟩ := alone_updateWhere db₁ scan (unclaimedOf jobId)
    (cancelledPatch now "job cancellation requested")
  set db₂ := db₁.updateTickets (unclaimedOf jobId)
    (cancelledPatch now "job cancellation requested").set
    (cancelledPatch now "job cancellation requested").keepsId
    (cancelledPatch now "job cancellation requested").keepsJob
  obtain ⟨db₃, hkeep, hrun⟩ := recomputed_recompute now jobId db₂
  refine ⟨db₃, ?_, hkeep.cancelRequested jobId hflag, ?_⟩
  · rw [cancelText, alone_lockJob, hj]
    simp only [if_neg hopen]
    rw [writeJob, Script.alone, halone, hrun]
    rfl
  · intro t ht hrunning
    rw [hkeep.tickets, Db.tickets_updateTickets, Table.mem_update]
    use t, ht
    apply patch_of_neg
    simp [unclaimedOf, hrunning]

/-- The statement that recovers expired leases, after its look at a database that was replaced
since. -/
def recoverSince (now : Instant) (r : SweepRequest) (db : Db) : Text :=
  lockAbandoned (fun _ t => expired now t)
    (fun recovered =>
      writeEach (fun t => recoveredPatch now (jobCancelled db t) (r.jitter t.id)) recovered <|
      sweepCancelled now r recovered)
    r.limit (abandoned r.scan (expired now) db) []

theorem recover_text (now : Instant) (r : SweepRequest) :
  (Operation.recover now r).text = .read (recoverSince now r)
  := rfl

/-- A ticket that was recovered is not running, so the second statement leaves it. -/
theorem alone_sweepCancelled (now : Instant) (r : SweepRequest) (recovered : List EvaluationTicket)
    {t : EvaluationTicket} (ht : db.ticket t.id = some t) (hnot : t.status ≠ .running) :
  ∃ db', (sweepCancelled now r recovered).alone db = some db' ∧ db'.ticket t.id = some t
    ∧ ∀ jobId, db.cancelRequested jobId → db'.cancelRequested jobId
  := by
  obtain ⟨hstatement, -⟩ := alone_statement
    (fun db₀ t => expired now t && jobCancelled db₀ t) r.scan' r.limit
    (fun _ => cancelledPatch now "job cancelled while ticket was running") db
  set found := abandoned r.scan' (fun t => expired now t && jobCancelled db t) db
  set ids := selectForUpdate db (fun t => expired now t && jobCancelled db t) leaseOrder
    (beyond r.limit found) r.limit with hids
  obtain ⟨db', hkeep, hrun⟩ := recomputed_recomputeEach now
    (r.jobScan.order ((recovered ++ (found.take r.limit).reverse).map EvaluationTicket.jobId).dedup)
    (db.updateTickets (fun t => ids.contains t.id)
      (cancelledPatch now "job cancelled while ticket was running").set
      (cancelledPatch now "job cancelled while ticket was running").keepsId
      (cancelledPatch now "job cancelled while ticket was running").keepsJob)
  refine ⟨db', ?_, ?_, fun jobId hflag => hkeep.cancelRequested jobId hflag⟩
  · rw [sweepCancelled, Script.alone, hstatement]
    exact hrun .commit
  · have hleft : ids.contains t.id = false := by
      rw [Bool.eq_false_iff]
      intro hmem
      have hselects := selects_of_mem (Db.ticket_eq_some.mp ht).1
        (hids ▸ List.contains_iff_mem.mp hmem)
      simp only [Bool.and_eq_true, expired_iff] at hselects
      exact hnot hselects.1.1
    rw [Db.ticket, hkeep.tickets]
    change (db.updateTickets _ _ _ _).ticket t.id = some t
    rw [Db.ticket_updateTickets, ht, Option.map_some]
    exact congrArg some (patch_of_neg hleft)

/-- A sweep that looked before the job of a ticket was cancelled moves the ticket to `RETRY`. -/
theorem alone_recoverSince {db' : Db} {r : SweepRequest} {t : EvaluationTicket}
    (ht : t ∈ (abandoned r.scan (expired now) db).take r.limit)
    (hleft : t.attemptCount < t.maxAttempts) (hnot : jobCancelled db t = false)
    (hkeep : ∀ t ∈ db.tickets.rows, t.status = .running → t ∈ db'.tickets.rows) :
  ∃ db'' t', (recoverSince now r db).alone db' = some db'' ∧ db''.ticket t.id = some t'
    ∧ t'.jobId = t.jobId ∧ t'.status = .retry
    ∧ ∀ jobId, db'.cancelRequested jobId → db''.cancelRequested jobId
  := by
  set found := abandoned r.scan (expired now) db with hfound
  have hperm : found.Perm (db.tickets.rows.filter (expired now)) :=
    perm_sorted db r.scan (expired now) leaseOrder
  obtain ⟨hrows, hexpired⟩ := rows_of_perm hperm
  have hrows' : Rows db' found := by
    use hrows.nodup
    intro t ht
    exact hkeep t (hrows.mem t ht) (expired_iff.mp (hexpired t ht)).1
  have htaken := hrows'.taken r.limit
  have hmem : t ∈ (found.take r.limit).reverse := List.mem_reverse.mpr ht
  let patched (t : EvaluationTicket) := recoveredPatch now (jobCancelled db t) (r.jitter t.id)
  set db₁ := rewriteEach patched (found.take r.limit).reverse db' with hdb₁
  rw [rewriteEach_eq htaken patched] at hdb₁
  have hticket : db₁.ticket ((patched t).set t).id = some ((patched t).set t) := by
    rw [(patched t).keepsId, hdb₁, Db.ticket_updateTickets, htaken.ticket hmem, Option.map_some,
      patch_of_pos]
    exact List.contains_iff_mem.mpr (List.mem_map_of_mem hmem)
  have hretry : ((patched t).set t).status = .retry := by
    simp [patched, recoveredPatch, recoveredRow, hnot, hleft.not_ge]
  have hrunning : ((patched t).set t).status ≠ .running := by
    rw [hretry]
    decide
  obtain ⟨db'', halone, hticket', hflags⟩ := alone_sweepCancelled now r
    (found.take r.limit).reverse hticket hrunning
  refine ⟨db'', (patched t).set t, ?_, hticket', rfl, hretry, ?_⟩
  · rw [recoverSince, alone_lockAbandoned hrows' hexpired, List.append_nil, alone_writeEach]
    exact halone
  · intro jobId hflag
    apply hflags
    rw [hdb₁]
    exact hflag

/-! ### What is left behind -/

/-- A ticket of a cancelled job that waits to be claimed stays as it is, unless the job is cancelled
again. -/
theorem Move.eq_of_waiting {db db' : Db} {a : Action} {t t' : EvaluationTicket}
    (h : Move db db' a t t') (hpending : t.status.pending) (hflag : db.cancelRequested t.jobId)
    (hnot : a ≠ .cancelJob t.jobId) :
  t' = t
  := by
  have hrunning : t.status ≠ .running := by
    rcases hpending with hready | hretry
    · simp [hready]
    · simp [hretry]
  have hfailed : t.status ≠ .failed := by
    rcases hpending with hready | hretry
    · simp [hready]
    · simp [hretry]
  cases h with
  | stay => rfl
  | claimed _ _ _ job => exact absurd hflag (not_cancelRequested_of_claimable job)
  | extended _ owns => exact absurd (owned_iff.mp owns).1 hrunning
  | cancelled _ _ owns => exact absurd (owned_iff.mp owns).1 hrunning
  | retried _ _ owns => exact absurd (owned_iff.mp owns).1 hrunning
  | recorded _ _ owns => exact absurd (owned_iff.mp owns).1 hrunning
  | cancelledUnclaimed => exact absurd rfl hnot
  | reset failed => exact absurd failed hfailed
  | recovered _ passed => exact absurd (expired_iff.mp passed).1 hrunning
  | swept _ passed => exact absurd (expired_iff.mp passed).1 hrunning

theorem waiting_stays {settings : Settings} {s : System} (hs : s.sound) {t : EvaluationTicket}
    (ht : s.db.ticket t.id = some t) (hpending : t.status.pending)
    (hflag : s.db.cancelRequested t.jobId) {labels : List Label}
    (hlabels : .cancelJob t.jobId ∉ labels) :
  (Transact.run (System.step settings) s labels).db.ticket t.id = some t
  := by
  refine (run_keeps (fun db => db.ticket t.id = some t ∧ db.cancelRequested t.jobId)
    (fun a _ => a ≠ .cancelJob t.jobId) ?_ ?_ hs ⟨ht, hflag⟩ ?_).1
  · exact fun p db db' h hcreated => ⟨hcreated.ticket h.1, hcreated.cancelRequested.mpr h.2⟩
  · rintro a db db' ⟨ht, hflag⟩ hnot hchange
    constructor
    · obtain ⟨t', ht', hmove⟩ := hchange.exists_ticket ht
      rw [ht', hmove.eq_of_waiting hpending hflag hnot]
    · obtain ⟨f, g, hby⟩ := hchange
      exact hby.cancelRequested hflag
  · apply along_of_mem
    rintro l hl s a hperforms rfl
    cases l with
    | cancelJob jobId =>
      cases hperforms
      exact hlabels hl
    | execute index failure =>
      obtain ⟨-, r, tag, -, -, h⟩ := hperforms
      cases h
    | _ => cases hperforms

/-- On every database with an expired ticket that has attempts left, in a job that can be cancelled:
a sweep that takes the ticket looks, the job is cancelled, and the sweep goes on. The ticket then
waits in the cancelled job, and does so in every later state of the system unless the job is
cancelled once more. -/
theorem sweep_misses_cancellation {db : Db} {t : EvaluationTicket} {j : EvaluationJob}
    {now : Instant} {r : SweepRequest}
    (ht : t ∈ (abandoned r.scan (expired now) db).take r.limit)
    (hleft : t.attemptCount < t.maxAttempts) (hj : db.job t.jobId = some j)
    (hnot : j.cancellationRequestedAt = none)
    (hopen : ¬ (j.status = .completed ∨ j.status = .failed ∨ j.status = .partialFailed))
    (now' : Instant) (scan : Scan EvaluationTicket) :
  ∃ turns, (∀ op, .start op ∈ turns → op = .recover now r ∨ op = .cancelJob now' t.jobId scan)
    ∧ (interleaved db turns).committed.cancelRequested t.jobId
    ∧ ∃ t', (interleaved db turns).committed.ticket t.id = some t' ∧ t'.status = .retry
      ∧ ∀ (settings : Settings) (s : System) (labels : List Label), s.sound →
        s.db = (interleaved db turns).committed → .cancelJob t.jobId ∉ labels →
        (Transact.run (System.step settings) s labels).db.ticket t.id = some t'
  := by
  have hflag : jobCancelled db t = false := by
    simp [jobCancelled, hj, hnot]
  obtain ⟨db', hcancel, hrequested, hkeep⟩ := alone_cancel_running now' hj hopen scan
  obtain ⟨db'', t', hrecover, ht', hjob, hretry, hflags⟩ := alone_recoverSince ht hleft hflag hkeep
  obtain ⟨n, n', hrun⟩ := Concurrent.run_overtaken rowLocks Operation.text db
    (.cancelJob now' t.jobId scan) (recover_text now r)
  have hcommitted : (interleaved db ([.start (.recover now r), .act 0,
      .start (.cancelJob now' t.jobId scan)] ++ (List.replicate n (.act 1)
        ++ List.replicate n' (.act 0)))).committed = db'' := by
    rw [interleaved, hrun]
    change ((recoverSince now r db).alone (((cancelText now' t.jobId scan).alone db).getD db)).getD
      _ = _
    rw [hcancel, Option.getD_some, hrecover, Option.getD_some]
  refine ⟨_, ?_, hcommitted ▸ hflags _ hrequested, t', hcommitted ▸ ht', hretry, ?_⟩
  · intro op hop
    simpa [List.mem_replicate] using hop
  · intro settings s labels hs hdb hlabels
    rw [hcommitted] at hdb
    have hid := (Db.ticket_eq_some.mp ht').2
    rw [← hid] at ht' ⊢
    apply waiting_stays hs (hdb ▸ ht') (.inr hretry) _ (hjob.symm ▸ hlabels)
    rw [hdb, hjob]
    exact hflags _ hrequested

namespace Demo

/-- The ticket of the job was claimed. -/
def claimedDb : Db :=
  (System.after .default [.createJob job, claim worker (.ok (output .passed))]).db

theorem sweep_misses_cancellation_claimedDb :
  ∃ turns t', (interleaved claimedDb turns).committed.cancelRequested 1
    ∧ (interleaved claimedDb turns).committed.ticket 10 = some t' ∧ t'.status = .retry
  := by
  obtain ⟨t, ht, hid, hjobId, hleft⟩ : ∃ t,
      t ∈ (Evalorch.abandoned sweep.scan (expired 400000000) claimedDb).take sweep.limit
        ∧ t.id = 10 ∧ t.jobId = 1 ∧ t.attemptCount < t.maxAttempts :=
    ⟨_, List.mem_cons_self, rfl, rfl, by decide⟩
  obtain ⟨j, hj, hnot, hopen⟩ : ∃ j, claimedDb.job 1 = some j ∧ j.cancellationRequestedAt = none
      ∧ ¬ (j.status = .completed ∨ j.status = .failed ∨ j.status = .partialFailed) :=
    ⟨_, rfl, rfl, by decide⟩
  obtain ⟨turns, -, hflag, t', ht', hretry, -⟩ :=
    sweep_misses_cancellation ht hleft (hjobId ▸ hj) hnot hopen 400000001 .stored
  exact ⟨turns, t', hjobId ▸ hflag, hid ▸ ht', hretry⟩

end Demo

end Evalorch
