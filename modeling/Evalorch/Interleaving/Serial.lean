import Evalorch.Interleaving.Alone
import Evalorch.Runner

/-!
# The transactions one after another

A transaction that runs alone, statement by statement, commits what its operation commits where
that is one step (`serial_refines`). So the system in which every transaction is one step is the
interleaved one, run serially.
-/

namespace Evalorch

open Transact TicketRepository JobRepository

variable {db : Db} {now : Instant}

/-! ### Claiming -/

/-- The rows that a claim passes over: those found after it has taken as many as it may. -/
def passedByClaim (r : ClaimRequest) (db : Db) : Uuid → Bool :=
  beyond r.limit (claimables db.now r db)

theorem alone_claim (hnow : db.now = now) {r : ClaimRequest} {settings : Settings}
    {limit : Option ℕ} {leaseSeconds : Option ℤ}
    (hbatch : (limit.filter (· != 0)).getD settings.runnerClaimBatchSize = r.limit)
    (hlease : (leaseSeconds.filter (· != 0)).getD settings.runnerLeaseSeconds = r.leaseSeconds) :
  ((claimText now r).alone db).getD db
    = committed (claimTickets settings (passedByClaim r db) r.worker limit leaseSeconds r.jobId db)
      db
  := by
  subst hnow
  set found := claimables db.now r db with hfound
  have hperm : found.Perm (db.tickets.rows.filter (claimable db r.jobId)) :=
    perm_sorted db r.scan (claimable db r.jobId) claimOrder
  obtain ⟨hrows, hselects⟩ := rows_of_perm hperm
  change ∀ t ∈ found, claimable (db.tick db.now) r.jobId t = true at hselects
  set taken := (found.take r.limit).reverse with htaken
  have htakenRows : Rows db taken := hrows.taken r.limit
  set ids := selectForUpdate db (claimable db r.jobId) claimOrder (passedByClaim r db) r.limit
    with hids
  have hmem : ∀ id, id ∈ ids ↔ id ∈ taken.map EvaluationTicket.id := by
    intro id
    rw [hids, passedByClaim, ← hfound, mem_selectForUpdate_beyond hperm, htaken, List.map_reverse,
      List.mem_reverse]
  have halone : (claimText db.now r).alone db = (takeTickets db.now r taken).alone db := by
    rw [claimText, Script.alone, ← hfound, alone_lockClaimable hrows hselects, List.append_nil]
  rw [halone]
  unfold claimTickets claim takeTickets
  simp only [hbatch, hlease, ← hids]
  by_cases hempty : taken = []
  · have hnil : ids = [] := List.eq_nil_iff_forall_not_mem.mpr fun id hid => by
      simpa [hempty] using (hmem id).mp hid
    simp [hempty, hnil, Script.alone, bind, Except.bind]
  · obtain ⟨t₀, ht₀⟩ := List.exists_mem_of_ne_nil taken hempty
    have hne : ids.isEmpty = false := by
      rw [List.isEmpty_eq_false_iff]
      exact List.ne_nil_of_mem ((hmem t₀.id).mpr (List.mem_map_of_mem ht₀))
    set p := claimedPatch db.now r.worker r.leaseSeconds
    have hjobs : ∀ jobId, jobId ∈ (taken.map EvaluationTicket.jobId).dedup
        ↔ jobId ∈ ((updatedRows ids p db).map EvaluationTicket.jobId).dedup := by
      intro jobId
      rw [List.mem_dedup, List.mem_dedup, mem_jobs_of_updated htakenRows hmem]
    have hsome : (updatedRows ids p db).isEmpty = false := by
      rw [List.isEmpty_eq_false_iff]
      intro hnil
      have hjob := (hjobs t₀.jobId).mp (List.mem_dedup.mpr (List.mem_map_of_mem ht₀))
      simp [hnil] at hjob
    have htakenBy : rewriteEach (fun _ => p) taken db
        = takenBy ids r.worker.id r.leaseSeconds db :=
      rewriteEach_eq_of_mem htakenRows hmem fun _ => p
    have hchecks := all_updatedRows htakenRows hmem p Db.ticketChecks
    have hupdated : ((takenBy ids r.worker.id r.leaseSeconds db).tickets.rows.filter fun t =>
        ids.contains t.id) = updatedRows ids p db := rfl
    simp only [hne, hupdated, hchecks, Bool.false_eq_true, if_false, List.isEmpty_iff, hempty,
      Script.alone]
    have hchecksSet : (fun t => Db.ticketChecks (p.set t))
        = fun t => Db.ticketChecks (claimedRow db.now r.worker.id r.leaseSeconds t) := rfl
    rw [hchecksSet]
    split
    case isFalse => rfl
    case isTrue =>
      have hnow : (takenBy ids r.worker.id r.leaseSeconds db).now = db.now := rfl
      rw [alone_writeEach, htakenBy, alone_markRunning hnow _ (List.nodup_dedup _),
        markRunningIfPending_congr hjobs]
      simp [bind, Except.bind, List.isEmpty_eq_false_iff.mp hsome, Script.alone]

/-! ### Settling -/

theorem alone_heartbeat (hnow : db.now = now) (ticketId : Uuid) (worker : Worker)
    (leaseSeconds : ℤ) :
  ((heartbeatText now ticketId worker leaseSeconds).alone db).getD db
    = committed (heartbeatTicket ticketId worker.id leaseSeconds db) db
  := by
  subst hnow
  simp only [heartbeatText, Script.alone, heartbeatTicket, extendLease, if_neg worker.nonempty,
    committed_ok]
  by_cases howned : (db.ticket ticketId).any (owned worker.id) = true
  · rw [if_pos howned, Script.alone, Script.alone, if_pos howned, writeTicket, Script.alone,
      Script.alone, Option.getD_some, effect_of_owned howned]
    rfl
  · rw [if_neg howned, Script.alone, Option.getD_some, Db.updateTickets_of_forall_neg]
    intro t ht
    by_cases hid : t.id = ticketId
    · subst hid
      rw [Db.ticket_eq_some.mpr ⟨ht, rfl⟩, Option.any_some] at howned
      simpa using howned
    · simp [hid]

/-- What a transaction alone leaves is what its body commits. -/
theorem getD_toOption {α : Type} (result : Except Exn (α × Db)) (db : Db) :
  (result.toOption.map Prod.snd).getD db = committed result db
  := by cases result <;> rfl

/-- What a body returns does not matter to what it commits. -/
theorem committed_return {α β : Type} (result : Except Exn (α × Db)) (value : β) (db : Db) :
  committed (result >>= fun returned => .ok (value, returned.2)) db = committed result db
  := by cases result <;> rfl

/-- `settle_ticket` for the job it is given. -/
theorem alone_settle (hnow : db.now = now) (ticketId jobId : Uuid) (target : TicketStatus)
    (s : Settlement) (workerId : String) :
  (settleText now ticketId jobId target s workerId).alone db
    = (settleTicket ticketId target s (some jobId) (some workerId) db).toOption.map Prod.snd
  := by
  subst hnow
  unfold settleText
  by_cases hworker : workerId = ""
  · subst hworker
    rw [if_pos rfl]
    rfl
  · rw [if_neg hworker, alone_lockJob, Script.alone, settleTicket, filter_of_ne hworker]
    cases hticket : db.ticket ticketId with
    | none =>
      simp [resolveJobId, transition, hticket, bind, Except.bind, Script.alone, Except.toOption]
    | some current =>
      have htick : db.tick db.now = db := rfl
      simp only [Script.alone, resolveJobId, bind, Except.bind, htick]
      cases htransition : transition ticketId target s (some workerId) db with
      | error e => rfl
      | ok r =>
        obtain ⟨current', hcurrent, howned, -, -, hdb⟩ := transition_ok hworker htransition
        obtain ⟨t, db'⟩ := r
        simp only at hdb
        subst hdb
        have heffect : (transitionPatch db.now target s).effect ticketId db
            = settledBy ticketId workerId target s db :=
          effect_of_owned (by rw [hcurrent]; exact howned) _
        have hnow : (settledBy ticketId workerId target s db).now = db.now := rfl
        simp only
        rw [writeTicket, Script.alone, heffect, recomputeUnlocked, Script.alone,
          alone_recomputeRead hnow]
        rfl

theorem alone_settleOnly (hnow : db.now = now) (r : SettleRequest) (outcome : TicketOutcome) :
  ((settleOnlyText now r).alone db).getD db
    = committed (settleOnly r.ticket r.target r.settlement (some r.workerId) outcome db) db
  := by
  unfold settleOnlyText settleOnly
  rw [Script.alone]
  cases hticket : db.ticket r.ticket.id with
  | none => rfl
  | some t =>
    simp only [alone_settle hnow]
    cases settleTicket r.ticket.id r.target r.settlement (some r.ticket.jobId) (some r.workerId)
      db <;> rfl

theorem alone_lockResult (ticketId jobId : Uuid) (next : Text) :
  (lockResult ticketId jobId next).alone db = next.alone db
  := by
  rw [lockResult, Script.alone, Script.alone]
  cases db.resultOf ticketId <;> rfl

/-- `ResultRepository.upsert`. -/
theorem alone_upsert (hnow : db.now = now) (jobId : Uuid) (result : EvaluationResult)
    (next : Uuid → Text) :
  (upsertText now jobId result next).alone db
    = match ResultRepository.upsert result db with
      | .error _ => none
      | .ok (row, db') => (next row.id).alone db'
  := by
  subst hnow
  have htick : db.tick db.now = db := rfl
  rw [upsertText, alone_lockResult, Script.alone, htick]
  cases hupsert : ResultRepository.upsert result db with
  | error e => rfl
  | ok upserted =>
    obtain ⟨row, db'⟩ := upserted
    have hsame : resultEffect db.now result db = db' := by
      rw [resultEffect, htick, hupsert, ← (ResultRepository.upsert_ok hupsert).now]
      rfl
    simp only
    rw [writeResult, Script.alone, hsame]

/-- `_persist_once`. -/
theorem alone_persist (hnow : db.now = now) (r : PersistRequest) :
  ((persistText now r).alone db).getD db
    = committed (persistOnce r.id r.ticket r.verdict r.snapshot (some r.workerId) db) db
  := by
  unfold persistText persistOnce
  simp only [Script.alone]
  cases hticket : db.ticket r.ticket.id with
  | none => rfl
  | some t =>
    simp only [alone_lockJob, Script.alone]
    split
    case isTrue =>
      rw [alone_settle hnow, getD_toOption]
      exact (committed_return _ _ db).symm
    case isFalse =>
      unfold recordResult
      split
      case isTrue =>
        rw [alone_upsert hnow, PersistRequest.result, hnow]
        cases hupsert : ResultRepository.upsert
          (resultRow r.id r.ticket r.verdict r.snapshot now) db with
        | error e => rfl
        | ok upserted =>
          simp only
          rw [alone_settle ((ResultRepository.upsert_ok hupsert).now.trans hnow), getD_toOption]
          exact (committed_return _ _ db).symm
      case isFalse =>
        rw [alone_settle hnow, getD_toOption]
        exact (committed_return _ _ db).symm

/-! ### Cancelling and retrying jobs -/

theorem alone_cancel (hnow : db.now = now) (jobId : Uuid) (scan : Scan EvaluationTicket) :
  ((cancelText now jobId scan).alone db).getD db = committed (cancelJob jobId db) db
  := by
  unfold cancelText cancelJob
  rw [alone_lockJob]
  cases hjob : db.job jobId with
  | none => rfl
  | some job =>
    by_cases hended : job.status = .completed ∨ job.status = .failed ∨ job.status = .partialFailed
    · simp only [if_pos hended]
      rfl
    · simp only [if_neg hended]
      obtain ⟨updated, -, halone⟩ := alone_updateWhere (requestCancellation jobId db) scan
        (unclaimedOf jobId) (cancelledPatch now "job cancellation requested")
      have hflag : (flagPatch now).effect jobId db = requestCancellation jobId db := by
        subst hnow
        rfl
      rw [writeJob, Script.alone, hflag, halone, alone_recompute]
      · subst hnow
        have hexists : ∃ j, (recomputeProgress jobId (cancelUnclaimed jobId
            (requestCancellation jobId db)).2).2.job jobId = some j := by
          rw [recomputeProgress_db]
          simp [Db.job_updateJobs, cancelUnclaimed, requestCancellation, hjob]
        obtain ⟨j, hj⟩ := hexists
        simp only [hj]
        rfl
      · exact hnow

theorem alone_retry (hnow : db.now = now) (jobId : Uuid) (scan : Scan EvaluationTicket) :
  ((retryText now jobId scan).alone db).getD db = committed (retryFailedTickets jobId db) db
  := by
  subst hnow
  unfold retryText retryFailedTickets
  rw [alone_lockJob]
  cases hjob : db.job jobId with
  | none => rfl
  | some job =>
    by_cases hflag : job.cancellationRequestedAt.isSome = true
    · simp only [if_pos hflag]
      rfl
    · simp only [if_neg hflag]
      obtain ⟨updated, hperm, halone⟩ := alone_updateWhere db scan (failedOf jobId)
        (resetPatch db.now)
      rw [halone]
      cases hupdated : updated with
      | nil =>
        rw [hupdated] at hperm
        rw [resetFailed, ← hperm.nil_eq]
        rfl
      | cons id ids =>
        have hne : (resetFailed jobId db).1.isEmpty = false := by
          rw [hupdated] at hperm
          rw [List.isEmpty_eq_false_iff]
          intro hnil
          exact List.cons_ne_nil id ids (List.perm_nil.mp (hnil ▸ hperm))
        simp only [hne, Bool.false_eq_true, if_false]
        have hnow : (resetFailed jobId db).2.now = db.now := rfl
        have hrecompute := alone_recompute hnow jobId .commit
        change ((recompute db.now jobId .commit).alone (resetFailed jobId db).2).getD db = _
        rw [hrecompute]
        have hexists : ∃ j, (recomputeProgress jobId (resetFailed jobId db).2).2.job jobId
            = some j := by
          rw [recomputeProgress_db]
          simp [Db.job_updateJobs, resetFailed, hjob]
        obtain ⟨j, hj⟩ := hexists
        simp only [hj]
        rfl

/-! ### Recovering -/

/-- The rows that the first statement of a sweep passes over. -/
def passedByRecovery (r : SweepRequest) (db : Db) : Uuid → Bool :=
  beyond r.limit (abandoned r.scan (expired db.now) db)

/-- The rows that its second statement passes over, after the first one. -/
def passedByCancelling (r : SweepRequest) (db : Db) : Uuid → Bool :=
  beyond r.limit (abandoned r.scan' (fun t => expired db.now t && jobCancelled db t) db)

/-- The database between the two statements of a sweep. -/
def recoveredDb (r : SweepRequest) (db : Db) : Db :=
  (recoverExpiredLeases (passedByRecovery r db) r.jitter r.limit db).2

theorem alone_recover (hnow : db.now = now) {r : SweepRequest} {settings : Settings}
    {limit : Option ℕ} (hlimit : limit.getD settings.runnerRecoveryBatchLimit = r.limit) :
  (recoverText now r).alone db
    = some (recoverAbandonedTickets settings (passedByRecovery r db)
      (passedByCancelling r (recoveredDb r db)) r.jitter limit db).2
  := by
  subst hnow
  obtain ⟨hfirst, hjobs⟩ := alone_statement (fun _ t => expired db.now t)
    r.scan r.limit (fun t => recoveredPatch db.now (jobCancelled db t) (r.jitter t.id)) db
  obtain ⟨hsecond, hjobs'⟩ := alone_statement
    (fun db₀ t => expired db.now t && jobCancelled db₀ t) r.scan' r.limit
    (fun _ => cancelledPatch db.now "job cancelled while ticket was running") (recoveredDb r db)
  set recovered := ((abandoned r.scan (expired db.now) db).take r.limit).reverse
  set swept := ((abandoned r.scan' (fun t => expired db.now t && jobCancelled (recoveredDb r db) t)
    (recoveredDb r db)).take r.limit).reverse
  rw [recoverText, Script.alone]
  refine (hfirst _).trans ?_
  change (sweepCancelled db.now r recovered).alone (recoveredDb r db) = _
  rw [sweepCancelled, Script.alone]
  refine (hsecond _).trans ?_
  rw [alone_recomputeEach (by rfl), Script.alone, recoverAbandonedTickets, hlimit, Option.some_inj]
  have horder := r.jobScan.perm ((recovered ++ swept).map EvaluationTicket.jobId).dedup
  apply recomputeJobs_congr (horder.nodup_iff.mpr (List.nodup_dedup _)) (List.nodup_dedup _)
  intro jobId
  rw [horder.mem_iff, List.mem_dedup, List.mem_dedup, List.map_append, List.map_append,
    List.mem_append, List.mem_append, ← hjobs, ← hjobs']
  rfl

theorem alone_startup (hnow : db.now = now) (scan : Scan Uuid) {r : SweepRequest}
    {settings : Settings} {limit : Option ℕ}
    (hlimit : limit.getD settings.runnerRecoveryBatchLimit = r.limit) :
  let db₀ := (reconcileActiveJobs db).2
  (startupText now scan r).alone db
    = some (recoverAbandonedTickets settings (passedByRecovery r db₀)
      (passedByCancelling r (recoveredDb r db₀)) r.jitter limit db₀).2
  := by
  intro db₀
  have horder := scan.perm (jobsWithActiveTickets db)
  have hjobs : recomputeJobs (scan.order (jobsWithActiveTickets db)) db = db₀ :=
    recomputeJobs_congr (horder.nodup_iff.mpr (List.nodup_dedup _)) (List.nodup_dedup _)
      (fun jobId => horder.mem_iff) db
  have hnow' : db₀.now = now := by
    rw [← hjobs, recomputeJobs_eq (horder.nodup_iff.mpr (List.nodup_dedup _)), Db.now_updateJobs,
      hnow]
  rw [startupText, Script.alone, alone_recomputeEach hnow, hjobs, alone_recover hnow' hlimit]

/-! ### Every transaction -/

/-- The step of a sweep on a database: it passes over the rows that are found after its limit. -/
def recoverLabel (r : SweepRequest) (limit : Option ℕ) (db : Db) : Label :=
  .recover (passedByRecovery r db) (passedByCancelling r (recoveredDb r db)) r.jitter limit

/-- The steps that do the work of a transaction in the system where each is one step. -/
inductive Serves (settings : Settings) (s : System) : Operation → List Label → Prop
  | cancelJob (jobId : Uuid) (scan : Scan EvaluationTicket) :
      Serves settings s (.cancelJob s.db.now jobId scan) [.cancelJob jobId]
  | retryFailed (jobId : Uuid) (scan : Scan EvaluationTicket) :
      Serves settings s (.retryFailed s.db.now jobId scan) [.retryFailedTickets jobId]
  | heartbeat (ticketId : Uuid) (worker : Worker) (leaseSeconds : ℤ) :
      Serves settings s (.heartbeat s.db.now ticketId worker leaseSeconds)
        [.heartbeat ticketId worker leaseSeconds]
  | claim (r : ClaimRequest) (limit : Option ℕ) (leaseSeconds : Option ℤ)
      (hlimit : (limit.filter (· != 0)).getD settings.runnerClaimBatchSize = r.limit)
      (hlease : (leaseSeconds.filter (· != 0)).getD settings.runnerLeaseSeconds = r.leaseSeconds)
      (collaborators : Uuid → Collaborators) :
      Serves settings s (.claim s.db.now r)
        [.claim r.worker limit leaseSeconds r.jobId (passedByClaim r s.db) collaborators]
  | recover (r : SweepRequest) (limit : Option ℕ)
      (hlimit : limit.getD settings.runnerRecoveryBatchLimit = r.limit) :
      Serves settings s (.recover s.db.now r) [recoverLabel r limit s.db]
  | startup (scan : Scan Uuid) (r : SweepRequest) (limit : Option ℕ)
      (hlimit : limit.getD settings.runnerRecoveryBatchLimit = r.limit) :
      Serves settings s (.startup s.db.now scan r)
        [.reconcile, recoverLabel r limit (reconcileActiveJobs s.db).2]
  /-- The next transaction of an execution settles its ticket without a result. -/
  | settle (r : SettleRequest) (index : ℕ) (run : Run) (tag : Tag) (outcome : TicketOutcome)
      (next : Db → Execution TicketOutcome) (fault : Exn → Execution TicketOutcome)
      (hrun : s.runs[index]? = some run)
      (hnext : run.program = .transaction tag
        (fun db => committed
          (settleOnly r.ticket r.target r.settlement (some r.workerId) outcome db) db) next fault) :
      Serves settings s (.settle s.db.now r) [.execute index none]
  /-- The next transaction of an execution is `_persist_once`. -/
  | persist (r : PersistRequest) (index : ℕ) (run : Run) (tag : Tag)
      (next : Db → Execution TicketOutcome) (fault : Exn → Execution TicketOutcome)
      (hrun : s.runs[index]? = some run)
      (hnext : run.program = .transaction tag
        (fun db => committed
          (persistOnce r.id r.ticket r.verdict r.snapshot (some r.workerId) db) db) next fault) :
      Serves settings s (.persist s.db.now r) [.execute index none]

theorem System.step_claim (settings : Settings) (s : System) (worker : Worker)
    (limit : Option ℕ) (leaseSeconds : Option ℤ) (jobId : Option Uuid) (locked : Uuid → Bool)
    (collaborators : Uuid → Collaborators) :
  (s.step settings (.claim worker limit leaseSeconds jobId locked collaborators)).db
    = committed (claimTickets settings locked worker limit leaseSeconds jobId s.db) s.db
  := by
  simp only [System.step, System.claimed]
  cases claimTickets settings locked worker limit leaseSeconds jobId s.db <;> rfl

theorem System.step_execute (settings : Settings) {s : System} {index : ℕ} {run : Run} {tag : Tag}
    {commit : Db → Db} {next : Db → Execution TicketOutcome}
    {fault : Exn → Execution TicketOutcome} (hrun : s.runs[index]? = some run)
    (hnext : run.program = .transaction tag commit next fault) :
  (s.step settings (.execute index none)).db = commit s.db
  := by
  simp only [System.step, System.executed, hrun, hnext]
  rfl

/-- What a transaction commits alone is what its steps lead to. -/
theorem alone_serves {settings : Settings} {s : System} {op : Operation} {labels : List Label}
    (h : Serves settings s op labels) :
  (op.text.alone s.db).getD s.db = (Transact.run (System.step settings) s labels).db
  := by
  have hnow : s.db.now = s.db.now := rfl
  cases h with
  | cancelJob jobId scan => exact alone_cancel hnow jobId scan
  | retryFailed jobId scan => exact alone_retry hnow jobId scan
  | heartbeat ticketId worker leaseSeconds =>
    exact alone_heartbeat hnow ticketId worker leaseSeconds
  | claim r limit leaseSeconds hlimit hlease collaborators =>
    rw [run_cons, run_nil, System.step_claim]
    exact alone_claim hnow hlimit hlease
  | recover r limit hlimit =>
    rw [Operation.text, alone_recover hnow hlimit]
    rfl
  | startup scan r limit hlimit =>
    rw [Operation.text, alone_startup hnow scan hlimit]
    rfl
  | settle r index run tag outcome next fault hrun hnext =>
    rw [run_cons, run_nil, System.step_execute settings hrun hnext]
    exact alone_settleOnly hnow r outcome
  | persist r index run tag next fault hrun hnext =>
    rw [run_cons, run_nil, System.step_execute settings hrun hnext]
    exact alone_persist hnow r

/-- A transaction that runs alone, statement by statement, with whatever order the database
chooses for its rows, comes to its end, holds no locks there, and has committed exactly the
database that its steps lead to in the system in which a transaction is one step, where a query
passes over the rows that are found after its limit. -/
theorem serial_refines {settings : Settings} {s : System} {op : Operation} {labels : List Label}
    (h : Serves settings s op labels) :
  ∃ n, ∀ m, n ≤ m →
    interleaved s.db (.start op :: List.replicate m (.act 0))
      = { committed := (Transact.run (System.step settings) s labels).db
          txns := [.begin op .rollback] }
  := by
  obtain ⟨n, hn⟩ := Concurrent.run_start rowLocks Operation.text s.db op
  use n
  intro m hm
  rw [interleaved, hn m hm, alone_serves h]

namespace Demo

/-- A job is there, and its ticket waits. -/
def waiting : System :=
  System.after .default [.createJob job]

/-- A claim with the defaults of the settings. -/
def claimDefault : ClaimRequest where
  worker := worker
  limit := 5
  leaseSeconds := 300
  jobId := none
  scan := .stored
  jobScan := .stored

/-- A claim that has come to its end has the ticket. -/
theorem serial_refines_claimDefault :
  ∃ n, ∀ m, n ≤ m →
    ((interleaved waiting.db (.start (.claim waiting.db.now claimDefault)
      :: List.replicate m (.act 0))).committed.ticket 10).map (·.status) = some .running
  := by
  obtain ⟨n, hn⟩ := serial_refines (.claim claimDefault none none rfl rfl
    (fun _ => collaborators (.ok (output .passed))) : Serves .default waiting _ _)
  use n
  intro m hm
  rw [hn m hm]
  decide +kernel

end Demo

end Evalorch
