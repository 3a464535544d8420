import Evalorch.Lifecycle.Change

/-!
# The operations as changes

Each operation that returns has made a `Change`, or has created a job. What an operation
recomputes is covered once, by `change_of_recomputeJobs`: when every ticket whose status
changed belongs to a recomputed job, the jobs move as they should.
-/

namespace Evalorch

open Transact TicketRepository JobRepository

/-! ### Recomputing jobs -/

/-- The row `recomputeJobs` writes. -/
def recomputedRow (db : Db) (j : EvaluationJob) : EvaluationJob :=
  progressRow db.now (ticketCounts j.id db) j

/-- Recomputing several jobs rewrites the row of each, and nothing else. -/
theorem recomputeJobs_eq {jobIds : List Uuid} (hnodup : jobIds.Nodup) (db : Db) :
  recomputeJobs jobIds db = db.updateJobs (fun j => jobIds.contains j.id) (recomputedRow db)
  := by
  induction jobIds generalizing db with
  | nil =>
    symm
    apply Db.updateJobs_of_forall_neg
    simp
  | cons jobId jobIds ih =>
    obtain ⟨hnot, hnodup⟩ := List.nodup_cons.mp hnodup
    change recomputeJobs jobIds (recomputeProgress jobId db).2 = _
    rw [recomputeProgress_db, ih hnodup]
    apply Db.ext
    · rfl
    · apply Table.ext
      simp only [Db.jobs_updateJobs, Table.rows_update, List.map_map]
      apply List.map_congr_left
      intro j hj
      by_cases hid : j.id = jobId
      · subst hid
        simp [patch, recomputedRow, progressRow, hnot]
      · simp [patch, hid, recomputedRow]
    · rfl
    · rfl

theorem results_recomputeJobs (jobIds : List Uuid) (db : Db) :
  (recomputeJobs jobIds db).results = db.results
  := by
  induction jobIds generalizing db with
  | nil => rfl
  | cons jobId jobIds ih =>
    change (recomputeJobs jobIds (recomputeProgress jobId db).2).results = _
    rw [ih, recomputeProgress_db]
    rfl

/-- A rewriting of tickets followed by a recomputation of every job with a changed status. -/
theorem change_of_recomputeJobs {a : Action} {db db₁ : Db} {jobIds : List Uuid}
    (f : EvaluationTicket → EvaluationTicket) (hnodup : jobIds.Nodup)
    (henabled : a.enabled db) (htickets : db₁.tickets.rows = db.tickets.rows.map f)
    (hmoves : ∀ t ∈ db.tickets.rows, Move db (recomputeJobs jobIds db₁) a t (f t))
    (hjobs : db₁.jobs = db.jobs)
    (hnow : db₁.now = db.now)
    (hothers : ∀ t ∈ db.tickets.rows, t.jobId ∉ jobIds → (f t).status = t.status)
    (hresults : ResultMove db (recomputeJobs jobIds db₁) a) :
  Change a db (recomputeJobs jobIds db₁)
  := by
  rw [recomputeJobs_eq hnodup] at hmoves hresults ⊢
  use f, patch (fun j => jobIds.contains j.id) (recomputedRow db₁)
  refine ⟨henabled, htickets, hmoves, ?_, ?_, hresults⟩
  · rw [Db.jobs_updateJobs, Table.rows_update, hjobs]
  · intro j hj
    by_cases hid : j.id ∈ jobIds
    · rw [patch_of_pos (by simpa using hid)]
      unfold recomputedRow
      rw [hnow]
      exact .recomputed
    · rw [patch_of_neg (by simpa using hid)]
      apply JobMove.kept
      intro t ht htj
      apply hothers t ht
      rwa [htj]

/-! ### Time passing and heartbeats -/

theorem change_tick (db : Db) (now : Instant) :
  Change .tick db (db.tick now)
  := by
  use id, id
  refine ⟨trivial, (List.map_id _).symm, ?_, (List.map_id _).symm, ?_, .kept rfl⟩
  · exact fun _ _ => .stay
  · exact fun _ _ => .kept fun _ _ _ => rfl

/-- A heartbeat extends the lease of the ticket, or changes nothing. -/
theorem change_heartbeat {ticketId : Uuid} {worker : Worker} {leaseSeconds : ℤ} {db db' : Db}
    {r : Option EvaluationTicket}
    (h : heartbeatTicket ticketId worker.id leaseSeconds db = .ok (r, db')) :
  db' = db ∨ Change (.heartbeat ticketId worker) db db'
  := by
  unfold heartbeatTicket extendLease at h
  rw [if_neg worker.nonempty] at h
  cases h
  by_cases hholds : db.holds worker ticketId
  · right
    use patch (fun t => t.id = ticketId && owned worker.id t) (extendedRow db.now leaseSeconds),
      id
    refine ⟨hholds, rfl, ?_, (List.map_id _).symm, ?_, .kept rfl⟩
    · intro t ht
      unfold patch
      split
      case isTrue hsel =>
        simp only [Bool.and_eq_true, decide_eq_true_eq] at hsel
        obtain ⟨rfl, howns⟩ := hsel
        exact .extended leaseSeconds howns
      case isFalse => exact .stay
    · intro j hj
      apply JobMove.kept
      intro t ht htj
      apply patch_field EvaluationTicket.status
      exact fun _ => rfl
  · left
    apply Db.updateTickets_of_forall_neg
    intro t ht
    by_contra hsel
    simp only [Bool.not_eq_false, Bool.and_eq_true, decide_eq_true_eq] at hsel
    apply hholds ⟨t, Db.ticket_eq_some.mpr ⟨ht, hsel.1⟩, hsel.2⟩

/-! ### Claims -/

theorem claimable_iff {db : Db} {jobId : Option Uuid} {t : EvaluationTicket}
    (h : claimable db jobId t = true) :
  t.status.pending ∧ t.availableAt ≤ db.now
    ∧ ∃ j, db.job t.jobId = some j ∧ claimableJob j = true
  := by
  simp only [claimable, Bool.and_eq_true, Bool.or_eq_true, decide_eq_true_eq] at h
  obtain ⟨⟨⟨hpending, havailable⟩, hjob⟩, -⟩ := h
  use hpending, havailable
  cases hj : db.job t.jobId with
  | none => simp [hj] at hjob
  | some j => exact ⟨j, rfl, by simpa [hj] using hjob⟩

/-- The tickets of a claim, with the rows it wrote. -/
theorem mem_taken {ids : List Uuid} {workerId : String} {lease : ℤ} {db : Db}
    {t' : EvaluationTicket} :
  t' ∈ (takenBy ids workerId lease db).tickets.rows.filter (fun t => ids.contains t.id)
    ↔ ∃ t ∈ db.tickets.rows, t.id ∈ ids ∧ claimedRow db.now workerId lease t = t'
  := by
  rw [List.mem_filter, takenBy, Db.tickets_updateTickets, Table.mem_update]
  constructor
  · rintro ⟨⟨t, ht, rfl⟩, hid⟩
    have hkey : (patch (fun t => ids.contains t.id) (claimedRow db.now workerId lease) t).id
        = t.id := by
      apply patch_field EvaluationTicket.id
      exact fun _ => rfl
    rw [hkey] at hid
    use t, ht, List.contains_iff_mem.mp hid
    symm
    apply patch_of_pos
    apply hid
  · rintro ⟨t, ht, hid, rfl⟩
    have hcontains := List.contains_iff_mem.mpr hid
    refine ⟨⟨t, ht, ?_⟩, hcontains⟩
    apply patch_of_pos
    apply hcontains

/-- A claim moves the tickets it takes, and starts their jobs. -/
theorem change_claim {settings : Settings} {locked : Uuid → Bool} {worker : Worker}
    {limit : Option ℕ} {leaseSeconds : Option ℤ} {jobId : Option Uuid} {db db' : Db}
    {tickets : List EvaluationTicket}
    (h : claimTickets settings locked worker limit leaseSeconds jobId db = .ok (tickets, db')) :
  Change (.claim worker) db db'
  := by
  obtain ⟨ids, lease, hids, hclaimed, hchecks, rfl⟩ := claimTickets_ok h
  have hpatch : ∀ t ∈ db.tickets.rows, t.id ∈ ids →
      patch (fun t => ids.contains t.id) (claimedRow db.now worker.id lease) t
        = claimedRow db.now worker.id lease t := by
    intro t _ hid
    apply patch_of_pos
    simpa using hid
  have hstay : ∀ t ∈ db.tickets.rows, t.id ∉ ids →
      patch (fun t => ids.contains t.id) (claimedRow db.now worker.id lease) t = t := by
    intro t _ hid
    apply patch_of_neg
    simpa using hid
  have hjobIds : ∀ jobId, jobId ∈ (tickets.map (·.jobId)).dedup
      ↔ ∃ t ∈ db.tickets.rows, t.id ∈ ids ∧ t.jobId = jobId := by
    intro jobId
    rw [List.mem_dedup, List.mem_map, hclaimed]
    constructor
    · rintro ⟨t', ht', rfl⟩
      obtain ⟨t, ht, hid, rfl⟩ := mem_taken.mp ht'
      exact ⟨t, ht, hid, rfl⟩
    · rintro ⟨t, ht, hid, rfl⟩
      exact ⟨_, mem_taken.mpr ⟨t, ht, hid, rfl⟩, rfl⟩
  use patch (fun t => ids.contains t.id) (claimedRow db.now worker.id lease),
    patch (fun j => (tickets.map (·.jobId)).dedup.contains j.id
      && (j.status = .created || j.status = .ready)) (markedRow db.now)
  refine ⟨trivial, rfl, ?_, rfl, ?_, .kept rfl⟩
  · intro t ht
    by_cases hid : t.id ∈ ids
    · rw [hpatch t ht hid]
      obtain ⟨hpending, havailable, hjob⟩ := claimable_iff (hids t ht hid)
      apply Move.claimed lease hpending havailable hjob
      apply List.all_eq_true.mp hchecks
      rw [hclaimed]
      apply mem_taken.mpr ⟨t, ht, hid, rfl⟩
    · rw [hstay t ht hid]
      exact .stay
  · intro j hj
    by_cases hjob : j.id ∈ (tickets.map (·.jobId)).dedup
    · obtain ⟨t, ht, hid, htj⟩ := (hjobIds j.id).mp hjob
      obtain ⟨-, -, j', hj', hclaimable⟩ := claimable_iff (hids t ht hid)
      have hj : j' = j := by
        obtain ⟨hmem, hkey⟩ := Db.job_eq_some.mp hj'
        apply Table.eq_of_key hmem hj (hkey.trans htj)
      subst hj
      have hrow : patch (fun j => (tickets.map (·.jobId)).dedup.contains j.id
            && (j.status = .created || j.status = .ready)) (markedRow db.now) j'
          = if j'.status = .created ∨ j'.status = .ready then markedRow db.now j' else j' := by
        simp only [patch, List.contains_eq_mem, hjob, decide_true, Bool.true_and,
          Bool.or_eq_true, decide_eq_true_eq]
      rw [hrow]
      apply JobMove.started hclaimable
      · intro t ht htj
        by_cases hid : t.id ∈ ids
        · right
          rw [hpatch t ht hid]
          exact ⟨(claimable_iff (hids t ht hid)).1, rfl⟩
        · left
          rw [hstay t ht hid]
      · use t, ht, htj
        rw [hpatch t ht hid]
        rfl
    · rw [patch_of_neg (by simp only [List.contains_eq_mem, hjob, decide_false, Bool.false_and])]
      apply JobMove.kept
      intro t ht htj
      rw [hstay t ht]
      intro hid
      apply hjob
      apply (hjobIds j.id).mpr ⟨t, ht, hid, htj⟩

/-- The tickets a claim returns are the rows the database now has, running under the
worker. -/
theorem claimed_rows {settings : Settings} {locked : Uuid → Bool} {worker : Worker}
    {limit : Option ℕ} {leaseSeconds : Option ℤ} {jobId : Option Uuid} {db db' : Db}
    {tickets : List EvaluationTicket}
    (h : claimTickets settings locked worker limit leaseSeconds jobId db = .ok (tickets, db')) :
  ∀ t ∈ tickets, db'.ticket t.id = some t ∧ owned worker.id t = true
  := by
  obtain ⟨ids, lease, -, rfl, -, rfl⟩ := claimTickets_ok h
  intro t' ht'
  constructor
  · apply Table.find_key (List.mem_filter.mp ht').1
  · obtain ⟨t, -, -, rfl⟩ := mem_taken.mp ht'
    simp [owned, claimedRow]

/-! ### Creating a job -/

/-- A stored job is created with its tickets. -/
theorem created_of_storeJob {p : PreparedJob} {db db' : Db} {job : EvaluationJob}
    (h : storeJob p db = .ok (job, db')) :
  Created p db db'
  := by
  unfold storeJob at h
  split at h
  case isTrue => cases h
  case isFalse hne =>
    obtain ⟨⟨j, db₁⟩, hinsert, h⟩ := bind_eq_ok.mp h
    obtain ⟨db₁', hjob, hrow⟩ := bind_eq_ok.mp hinsert
    cases hrow
    obtain ⟨hfresh, hnow₁, hjobs₁, htickets₁, hresults₁⟩ := Db.insertJob_ok hjob
    obtain ⟨⟨created, db₂⟩, hbulk, h⟩ := bind_eq_ok.mp h
    unfold bulkInsert at hbulk
    rw [if_neg (by simpa using hne)] at hbulk
    obtain ⟨db₂', hinserted, hcount⟩ := bind_eq_ok.mp hbulk
    cases hcount
    obtain ⟨hchecks, hnow₂, hjobs₂, htickets₂, hresults₂⟩ := Db.insertTickets_ok hinserted
    have hrows : List.map (insertedRow db₁.now)
        (p.tickets.map (·.ticket p.id p.datasetId db.now)) = p.ticketRows db.now := by
      rw [hnow₁, List.map_map]
      rfl
    simp only at h
    split at h
    case h_1 => cases h
    case h_2 =>
      cases h
      refine ⟨by simpa using hne, hfresh, ?_, ?_, ?_, ?_⟩
      · rw [← hrows]
        apply hchecks
      · change db₂.tickets.rows = _
        rw [htickets₂, htickets₁, ← hrows]
        rfl
      · change db₂.jobs.rows.map _ = _
        rw [hjobs₂, hjobs₁, List.map_append]
        congr 1
        · calc db.jobs.rows.map _ = db.jobs.rows.map id := by
                apply List.map_congr_left
                intro j hj
                apply patch_of_neg
                simpa using hfresh j hj
            _ = db.jobs.rows := List.map_id _
        · simp [patch, PreparedJob.readyRow, PreparedJob.job]
      · apply hresults₂.trans hresults₁

/-! ### Cancelling and retrying a job -/

theorem unclaimedOf_iff {jobId : Uuid} {t : EvaluationTicket} :
  unclaimedOf jobId t = true ↔ t.jobId = jobId ∧ t.status.pending
  := by simp [unclaimedOf, TicketStatus.pending]

theorem failedOf_iff {jobId : Uuid} {t : EvaluationTicket} :
  failedOf jobId t = true ↔ t.jobId = jobId ∧ t.status = .failed
  := by simp [failedOf]

/-- The job's row with cancellation requested. -/
def flaggedRow (now : Instant) (j : EvaluationJob) : EvaluationJob :=
  { j with cancellationRequestedAt := some (j.cancellationRequestedAt.getD now) }

/-- A cancellation flags the job, cancels its unclaimed tickets and recomputes it. -/
theorem cancelJob_ok {jobId : Uuid} {db db' : Db} {r : CancellationResult}
    (h : cancelJob jobId db = .ok (r, db')) :
  (∃ j, db.job jobId = some j
      ∧ j.status ≠ .completed ∧ j.status ≠ .failed ∧ j.status ≠ .partialFailed)
    ∧ db' = (recomputeProgress jobId
        (cancelUnclaimed jobId (requestCancellation jobId db)).2).2
  := by
  unfold cancelJob at h
  cases hjob : db.job jobId with
  | none =>
    rw [hjob] at h
    cases h
  | some j =>
    simp only [hjob] at h
    split at h
    case isTrue => cases h
    case isFalse hopen =>
      split at h
      case h_1 => cases h
      case h_2 =>
        cases h
        refine ⟨⟨j, rfl, ?_⟩, rfl⟩
        push Not at hopen
        apply hopen

theorem change_cancelJob {jobId : Uuid} {db db' : Db} {r : CancellationResult}
    (h : cancelJob jobId db = .ok (r, db')) :
  Change (.cancelJob jobId) db db'
  := by
  obtain ⟨⟨j₀, hj₀, hopen⟩, rfl⟩ := cancelJob_ok h
  rw [recomputeProgress_db]
  set message := "job cancellation requested"
  set db₂ := (cancelUnclaimed jobId (requestCancellation jobId db)).2 with hdb₂
  use patch (unclaimedOf jobId) (cancelledRow db.now message),
    patch (·.id = jobId) (progressRow db.now (ticketCounts jobId db₂))
      ∘ patch (·.id = jobId) (flaggedRow db.now)
  refine ⟨trivial, rfl, ?_, List.map_map, ?_, .kept rfl⟩
  · intro t ht
    unfold patch
    split
    case isTrue hsel =>
      obtain ⟨rfl, hpending⟩ := unclaimedOf_iff.mp hsel
      exact .cancelledUnclaimed message hpending
    case isFalse => exact .stay
  · intro j hj
    by_cases hid : j.id = jobId
    · subst hid
      have hj₀ : j₀ = j := by
        obtain ⟨hmem, hkey⟩ := Db.job_eq_some.mp hj₀
        apply Table.eq_of_key hmem hj hkey
      subst hj₀
      rw [Function.comp_apply, patch_of_pos (r := j₀) (by simp)]
      rw [patch_of_pos (by simp [flaggedRow])]
      apply JobMove.cancelled hopen
      intro t ht htj
      unfold patch
      split
      case isTrue => simp [cancelledRow, TicketStatus.pending]
      case isFalse hsel =>
        intro hpending
        apply hsel (unclaimedOf_iff.mpr ⟨htj, hpending⟩)
    · rw [Function.comp_apply, patch_of_neg (r := j) (by simpa using hid),
        patch_of_neg (by simpa using hid)]
      apply JobMove.kept
      intro t ht htj
      rw [patch_of_neg]
      by_contra hsel
      rw [Bool.not_eq_false] at hsel
      apply hid (htj.symm.trans (unclaimedOf_iff.mp hsel).1)

/-- A retry request on a job that is not cancelled resets its failed tickets. -/
theorem change_retryFailedTickets {jobId : Uuid} {db db' : Db} {r : EvaluationJob × ℕ}
    (h : retryFailedTickets jobId db = .ok (r, db')) :
  Change (.retryFailedTickets jobId) db db'
  := by
  unfold retryFailedTickets at h
  cases hjob : db.job jobId with
  | none =>
    rw [hjob] at h
    cases h
  | some j =>
    simp only [hjob] at h
    split at h
    case isTrue => cases h
    case isFalse hflag =>
      split at h
      case isTrue => cases h
      case isFalse =>
        split at h
        case h_1 => cases h
        case h_2 =>
          cases h
          have hnot : ¬ db.cancelRequested jobId := by
            rintro ⟨j', hj', hreq⟩
            rw [hjob] at hj'
            cases hj'
            apply hflag hreq
          have hrecompute : (recomputeProgress jobId (resetFailed jobId db).2).2
            = recomputeJobs [jobId] (resetFailed jobId db).2 := rfl
          rw [hrecompute]
          apply change_of_recomputeJobs (patch (failedOf jobId) (resetRow db.now))
            (List.nodup_singleton jobId)
          · exact trivial
          · rfl
          · intro t ht
            unfold patch
            split
            case isTrue hsel =>
              obtain ⟨rfl, hfailed⟩ := failedOf_iff.mp hsel
              exact .reset hfailed hnot
            case isFalse => exact .stay
          · rfl
          · rfl
          · intro t ht hother
            rw [patch_of_neg]
            by_contra hsel
            rw [Bool.not_eq_false] at hsel
            apply hother (List.mem_singleton.mpr (failedOf_iff.mp hsel).1)
          · exact .kept (results_recomputeJobs _ _)

/-! ### Recovery -/

theorem expired_iff {now : Instant} {t : EvaluationTicket} :
  expired now t = true ↔ t.status = .running ∧ ∃ lease, t.leaseExpiresAt = some lease ∧ lease < now
  := by
  cases hlease : t.leaseExpiresAt <;> simp [expired, hlease]

theorem recoveredRow_not_running (now : Instant) (cancelled : Bool) (delay : Duration)
    (t : EvaluationTicket) :
  (recoveredRow now cancelled delay t).status ≠ .running
  := by
  unfold recoveredRow
  cases cancelled <;> simp only [Bool.false_eq_true, if_true, if_false, ne_eq]
  · split <;> simp
  · simp

/-- An update of selected rows: a row stays, or meets the condition of the query and is among
the rows the update returns. -/
theorem update_selected {db : Db} {selects : EvaluationTicket → Bool}
    {order : EvaluationTicket → EvaluationTicket → Bool} {locked : Uuid → Bool} {limit : ℕ}
    {ids : List Uuid} (hids : ids = selectForUpdate db selects order locked limit)
    (set : EvaluationTicket → EvaluationTicket) (keepsId : ∀ t, (set t).id = t.id)
    (keepsJob : ∀ t, (set t).jobId = t.jobId) {t : EvaluationTicket}
    (ht : t ∈ db.tickets.rows) :
  patch (fun t => ids.contains t.id) set t = t
    ∨ patch (fun t => ids.contains t.id) set t = set t ∧ selects t = true
      ∧ set t ∈ (db.updateTickets (fun t => ids.contains t.id) set keepsId
        keepsJob).tickets.rows.filter (fun t => ids.contains t.id)
  := by
  by_cases hid : t.id ∈ ids
  · right
    have hcontains := List.contains_iff_mem.mpr hid
    have hpatch : patch (fun t => ids.contains t.id) set t = set t := patch_of_pos hcontains
    refine ⟨hpatch, selects_of_mem ht (hids ▸ hid), ?_⟩
    rw [List.mem_filter, Db.tickets_updateTickets, Table.mem_update]
    constructor
    · use t, ht
    · rw [keepsId]
      apply hcontains
  · left
    apply patch_of_neg
    simpa using hid

/-- The first statement of a recovery. -/
theorem recoverExpiredLeases_rows {locked : Uuid → Bool} {jitter : Uuid → Duration} {limit : ℕ}
    {db db₁ : Db} {recovered : List EvaluationTicket}
    (h : recoverExpiredLeases locked jitter limit db = (recovered, db₁)) :
  db₁.now = db.now ∧ db₁.jobs = db.jobs ∧ db₁.results = db.results
    ∧ ∃ f, db₁.tickets.rows = db.tickets.rows.map f ∧ ∀ t ∈ db.tickets.rows,
      f t = t
        ∨ f t = recoveredRow db.now (jobCancelled db t) (jitter t.id) t
          ∧ expired db.now t = true ∧ f t ∈ recovered
  := by
  have hids : selectForUpdate db (expired db.now) leaseOrder locked limit
    = selectForUpdate db (expired db.now) leaseOrder locked limit := rfl
  cases h
  refine ⟨rfl, rfl, rfl, _, rfl, ?_⟩
  intro t ht
  rcases update_selected hids
    (fun t => recoveredRow db.now (jobCancelled db t) (jitter t.id) t) (fun _ => rfl)
    (fun _ => rfl) ht with hstay | ⟨hset, hsel, hmem⟩
  · exact .inl hstay
  · refine .inr ⟨hset, hsel, ?_⟩
    rw [hset]
    apply hmem

/-- The second statement of a recovery. -/
theorem cancelRunningForCancelledJobs_rows {locked : Uuid → Bool} {limit : ℕ} {db db₁ : Db}
    {cancelled : List EvaluationTicket}
    (h : cancelRunningForCancelledJobs locked limit db = (cancelled, db₁)) :
  db₁.now = db.now ∧ db₁.jobs = db.jobs ∧ db₁.results = db.results
    ∧ ∃ f, db₁.tickets.rows = db.tickets.rows.map f ∧ ∀ t ∈ db.tickets.rows,
      f t = t
        ∨ f t = cancelledRow db.now "job cancelled while ticket was running" t
          ∧ (expired db.now t = true ∧ jobCancelled db t = true) ∧ f t ∈ cancelled
  := by
  have hids : selectForUpdate db (fun t => expired db.now t && jobCancelled db t) leaseOrder locked
      limit
    = selectForUpdate db (fun t => expired db.now t && jobCancelled db t) leaseOrder locked
      limit := rfl
  cases h
  refine ⟨rfl, rfl, rfl, _, rfl, ?_⟩
  intro t ht
  rcases update_selected hids (cancelledRow db.now "job cancelled while ticket was running")
    (fun _ => rfl) (fun _ => rfl) ht with hstay | ⟨hset, hsel, hmem⟩
  · exact .inl hstay
  · rw [Bool.and_eq_true] at hsel
    refine .inr ⟨hset, hsel, ?_⟩
    rw [hset]
    apply hmem

theorem jobCancelled_congr {db db' : Db} (h : db'.jobs = db.jobs) (t : EvaluationTicket) :
  jobCancelled db' t = jobCancelled db t
  := by
  unfold jobCancelled Db.job
  rw [h]

/-- A recovery moves the tickets whose leases have passed, and recomputes their jobs. -/
theorem change_recover (settings : Settings) (locked locked' : Uuid → Bool)
    (jitter : Uuid → Duration) (limit : Option ℕ) (db : Db) :
  Change .recover db (recoverAbandonedTickets settings locked locked' jitter limit db).2
  := by
  unfold recoverAbandonedTickets
  set batch := limit.getD settings.runnerRecoveryBatchLimit
  rcases hfirst : recoverExpiredLeases locked jitter batch db with ⟨recovered, db₁⟩
  rcases hsecond : cancelRunningForCancelledJobs locked' batch db₁ with ⟨cancelled, db₂⟩
  simp only [hfirst, hsecond]
  obtain ⟨hnow₁, hjobs₁, hresults₁, f, hrows₁, hf⟩ := recoverExpiredLeases_rows hfirst
  obtain ⟨hnow₂, hjobs₂, hresults₂, f', hrows₂, hf'⟩ := cancelRunningForCancelledJobs_rows hsecond
  have hmem : ∀ t ∈ db.tickets.rows, f t ∈ db₁.tickets.rows := by
    intro t ht
    rw [hrows₁]
    apply List.mem_map_of_mem ht
  -- A ticket that the first statement recovers is not running when the second one looks.
  have hcases : ∀ t ∈ db.tickets.rows,
      f' (f t) = t
        ∨ f' (f t) = recoveredRow db.now (jobCancelled db t) (jitter t.id) t
          ∧ expired db.now t = true ∧ f' (f t) ∈ recovered
        ∨ f' (f t) = cancelledRow db.now "job cancelled while ticket was running" t
          ∧ (expired db.now t = true ∧ jobCancelled db t = true) ∧ f' (f t) ∈ cancelled := by
    intro t ht
    rcases hf t ht with hstay | ⟨hrow, hexpired, hin⟩
    · rcases hf' (f t) (hmem t ht) with hstay' | ⟨hrow', hexpired', hin'⟩
      · exact .inl (hstay'.trans hstay)
      · rw [hstay, hnow₁, jobCancelled_congr hjobs₁] at hexpired'
        rw [hstay] at hrow' hin' ⊢
        rw [hnow₁] at hrow'
        exact .inr (.inr ⟨hrow', hexpired', hin'⟩)
    · rcases hf' (f t) (hmem t ht) with hstay' | ⟨-, hexpired', -⟩
      · rw [hstay']
        exact .inr (.inl ⟨hrow, hexpired, hin⟩)
      · have hrunning := (expired_iff.mp hexpired'.1).1
        rw [hrow] at hrunning
        exact absurd hrunning (recoveredRow_not_running _ _ _ _)
  apply change_of_recomputeJobs (f' ∘ f) (List.nodup_dedup _)
  · exact trivial
  · rw [hrows₂, hrows₁, List.map_map]
  · intro t ht
    rcases hcases t ht with hstay | ⟨hrow, hexpired, -⟩ | ⟨hrow, ⟨hexpired, hflag⟩, -⟩
    · rw [Function.comp_apply, hstay]
      exact .stay
    · rw [Function.comp_apply, hrow]
      exact .recovered _ hexpired
    · rw [Function.comp_apply, hrow]
      exact .swept _ hexpired hflag
  · rw [hjobs₂, hjobs₁]
  · rw [hnow₂, hnow₁]
  · intro t ht hother
    rw [List.mem_dedup, List.mem_map] at hother
    rcases hcases t ht with hstay | ⟨hrow, -, hin⟩ | ⟨hrow, -, hin⟩
    · rw [Function.comp_apply, hstay]
    · exact absurd ⟨_, List.mem_append_left _ hin, by rw [hrow]; rfl⟩ hother
    · exact absurd ⟨_, List.mem_append_right _ hin, by rw [hrow]; rfl⟩ hother
  · apply ResultMove.kept
    rw [results_recomputeJobs, hresults₂, hresults₁]

/-- A reconciliation recomputes jobs. -/
theorem change_reconcile (db : Db) :
  Change .reconcile db (reconcileActiveJobs db).2
  := by
  apply change_of_recomputeJobs id (List.nodup_dedup _)
  · exact trivial
  · apply (List.map_id _).symm
  · exact fun _ _ => .stay
  · rfl
  · rfl
  · exact fun _ _ _ => rfl
  · exact .kept (results_recomputeJobs _ _)

end Evalorch
