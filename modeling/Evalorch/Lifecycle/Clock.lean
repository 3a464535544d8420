import Evalorch.Lifecycle.Agreement
import Evalorch.Lifecycle.DrainMode
import Evalorch.Lifecycle.Draining
import Evalorch.Lifecycle.Finality

/-!
# The times of rows

When the clock of the database does not go back and each transaction takes effect at one time, the
times of every row are in order: a ticket is created, started and completed in this order, and so
is a job, and none of these is in the future (`times_in_order`). Transactions that overlap may
break this order, since `now()` is the time at which a transaction began. A ticket that waits is
not claimed before the time it is available at (`backoff_is_respected`).
-/

namespace Evalorch

open Transact TicketRepository JobRepository

/-- An event of a row that was created at some time has not happened, or has happened since. -/
def happened (created now : Instant) (event : Option Instant) : Prop :=
  ∀ time ∈ event, created ≤ time ∧ time ≤ now

/-- An event has not happened before another. -/
def precedes (event event' : Option Instant) : Prop :=
  ∀ time ∈ event, ∀ time' ∈ event', time ≤ time'

/-- The times of a ticket are in order. -/
structure EvaluationTicket.Timed (now : Instant) (t : EvaluationTicket) : Prop where
  created : t.createdAt ≤ now
  claimed : t.claimedAt = t.startedAt
  started : happened t.createdAt now t.startedAt
  completed : happened t.createdAt now t.completedAt
  order : precedes t.startedAt t.completedAt

/-- The times of a job are in order. -/
structure EvaluationJob.Timed (now : Instant) (j : EvaluationJob) : Prop where
  created : j.createdAt ≤ now
  started : happened j.createdAt now j.startedAt
  completed : happened j.createdAt now j.completedAt
  cancelled : happened j.createdAt now j.cancellationRequestedAt
  order : precedes j.startedAt j.completedAt

/-- The times of a result are in order. -/
def EvaluationResult.Timed (now : Instant) (r : EvaluationResult) : Prop :=
  r.createdAt ≤ now ∧ r.completedAt.isSome = true ∧ happened r.createdAt now r.completedAt

/-- The times of all rows are in order. -/
structure Db.Timed (now : Instant) (db : Db) : Prop where
  tickets : ∀ t ∈ db.tickets.rows, t.Timed now
  jobs : ∀ j ∈ db.jobs.rows, j.Timed now
  results : ∀ r ∈ db.results.rows, r.Timed now

section Events

variable {created now now' : Instant} {event event' : Option Instant}

@[simp]
theorem happened_none :
  happened created now none
  := by simp [happened]

@[simp]
theorem happened_now :
  happened created now (some now) ↔ created ≤ now
  := by simp [happened]

theorem happened.later (h : happened created now event) (hle : now ≤ now') :
  happened created now' event
  := fun time htime => ⟨(h time htime).1, (h time htime).2.trans hle⟩

/-- `COALESCE(event, now())`. -/
theorem happened.getD (h : happened created now event) (hcreated : created ≤ now) :
  happened created now (some (event.getD now))
  := by
  cases event with
  | none => simpa using hcreated
  | some time => exact h

@[simp]
theorem precedes_none :
  precedes event none
  := by simp [precedes]

/-- What has happened precedes what happens now. -/
theorem happened.precedes_now (h : happened created now event) :
  precedes event (some now)
  := by
  intro time htime time' htime'
  cases htime'
  exact (h time htime).2

end Events

/-! ### Tickets -/

theorem EvaluationTicket.Timed.later {now now' : Instant} {t : EvaluationTicket}
    (h : t.Timed now) (hle : now ≤ now') :
  t.Timed now'
  := ⟨h.created.trans hle, h.claimed, h.started.later hle, h.completed.later hle, h.order⟩

/-- The times of a ticket that is completed now. -/
theorem EvaluationTicket.Timed.complete {now : Instant} {t t' : EvaluationTicket}
    (h : t.Timed now) (hcreated : t'.createdAt = t.createdAt)
    (hclaimed : t'.claimedAt = t.claimedAt) (hstarted : t'.startedAt = t.startedAt)
    (hcompleted : t'.completedAt = some now ∨ t'.completedAt = t.completedAt) :
  t'.Timed now
  := by
  constructor
  · exact hcreated ▸ h.created
  · rw [hclaimed, hstarted, h.claimed]
  · rw [hcreated, hstarted]
    exact h.started
  · rw [hcreated]
    rcases hcompleted with hnow | hsame
    · rw [hnow]
      exact happened_now.mpr h.created
    · rw [hsame]
      exact h.completed
  · rw [hstarted]
    rcases hcompleted with hnow | hsame
    · rw [hnow]
      exact h.started.precedes_now
    · rw [hsame]
      exact h.order

theorem transitionRow_timed {now : Instant} {t : EvaluationTicket} (h : t.Timed now)
    {target : TicketStatus} (htarget : target ≠ .ready) (s : Settlement) :
  (transitionRow now target s t).Timed now
  := by
  cases target with
  | ready => exact absurd rfl htarget
  | running => exact h
  | retry => exact h.complete rfl rfl rfl (.inr rfl)
  | _ => exact h.complete rfl rfl rfl (.inl rfl)

/-- A move keeps the times of a ticket in order. -/
theorem Move.timed {db db' : Db} {a : Action} {t t' : EvaluationTicket} (h : Move db db' a t t')
    (hwell : t.wellFormed) (htimed : t.Timed db.now) :
  t'.Timed db.now
  := by
  cases h with
  | stay => exact htimed
  | claimed _ pending =>
    -- What is claimed is not completed.
    obtain ⟨-, -, hcompleted, -⟩ := hwell.pending pending
    constructor
    · exact htimed.created
    · rfl
    · exact happened_now.mpr htimed.created
    · exact htimed.completed
    · simp [claimedRow, hcompleted]
  | extended => exact htimed.complete rfl rfl rfl (.inr rfl)
  | cancelled => exact transitionRow_timed htimed (by decide) _
  | retried => exact transitionRow_timed htimed (by decide) _
  | recorded _ _ _ records =>
    apply transitionRow_timed htimed
    rintro rfl
    cases records
  | cancelledUnclaimed => exact htimed.complete rfl rfl rfl (.inl rfl)
  | reset =>
    exact ⟨htimed.created, rfl, happened_none, happened_none, precedes_none⟩
  | recovered =>
    refine htimed.complete rfl rfl rfl ?_
    simp only [recoveredRow]
    split
    · exact .inl rfl
    · exact .inr rfl
  | swept => exact htimed.complete rfl rfl rfl (.inl rfl)

/-! ### Jobs -/

theorem EvaluationJob.Timed.later {now now' : Instant} {j : EvaluationJob} (h : j.Timed now)
    (hle : now ≤ now') :
  j.Timed now'
  := ⟨h.created.trans hle, h.started.later hle, h.completed.later hle, h.cancelled.later hle,
    h.order⟩

/-- A job that is completed is not waiting to run. -/
theorem ended_of_completed {counts : TicketCounts} {j : EvaluationJob} (h : Agrees counts j)
    (hcompleted : j.completedAt.isSome = true) :
  j.status ≠ .ready ∧ j.status ≠ .created
  := by
  have hterminal := h.finished.mp hcompleted
  rw [h.status .created, progressStatus, if_neg h.total_pos.ne', if_neg (by omega)]
  split
  · decide
  · split
    · decide
    · split <;> decide

/-- A job that is completed was started. -/
theorem started_of_completed {counts : TicketCounts} {j : EvaluationJob} (h : Agrees counts j)
    (hcompleted : j.completedAt.isSome = true) :
  j.startedAt.isSome = true
  := by
  obtain ⟨hready, hcreated⟩ := ended_of_completed h hcompleted
  exact h.started hready hcreated

/-- Recomputing keeps the times of a job in order. -/
theorem progressRow_timed {now : Instant} {j : EvaluationJob} (h : j.Timed now)
    (hstarted : j.completedAt.isSome = true → j.startedAt.isSome = true) (counts : TicketCounts) :
  (progressRow now counts j).Timed now
  := by
  have hstart : happened j.createdAt now (progressRow now counts j).startedAt := by
    simp only [progressRow]
    split
    · exact h.started.getD h.created
    · exact h.started
  constructor
  · exact h.created
  · exact hstart
  · simp only [progressRow]
    split
    · exact h.completed.getD h.created
    · exact happened_none
  · exact h.cancelled
  · cases hcompleted : j.completedAt with
    | none =>
      have hnow : (progressRow now counts j).completedAt = some now
          ∨ (progressRow now counts j).completedAt = none := by
        simp only [progressRow, hcompleted]
        split
        · exact .inl rfl
        · exact .inr rfl
      rcases hnow with hnow | hnone
      · rw [hnow]
        exact hstart.precedes_now
      · rw [hnone]
        exact precedes_none
    | some time =>
      -- The job was started, so its start stays.
      obtain ⟨start, hsome⟩ := Option.isSome_iff_exists.mp (hstarted (by simp [hcompleted]))
      have hsame : (progressRow now counts j).startedAt = j.startedAt := by
        simp [progressRow, hsome]
      have hend : (progressRow now counts j).completedAt = j.completedAt
          ∨ (progressRow now counts j).completedAt = none := by
        simp only [progressRow, hcompleted]
        split
        · exact .inl rfl
        · exact .inr rfl
      rw [hsame]
      rcases hend with hkept | hnone
      · rw [hkept]
        exact h.order
      · rw [hnone]
        exact precedes_none

/-- A change keeps the times of a job in order. -/
theorem JobMove.timed {db db' : Db} {f : EvaluationTicket → EvaluationTicket} {a : Action}
    {j j' : EvaluationJob} (h : JobMove db db' f a j j') (hagrees : Agrees (ticketCounts j.id db) j)
    (htimed : j.Timed db.now) :
  j'.Timed db.now
  := by
  have hstarted := started_of_completed hagrees
  cases h with
  | kept => exact htimed
  | started claimable =>
    split
    case isFalse => exact htimed
    case isTrue hopen =>
      -- A job that is not started is not completed.
      have hnone : j.completedAt = none := by
        by_contra hcompleted
        obtain ⟨hready, hcreated⟩ :=
          ended_of_completed hagrees (Option.isSome_iff_ne_none.mpr hcompleted)
        exact hopen.elim hcreated hready
      constructor
      · exact htimed.created
      · exact htimed.started.getD htimed.created
      · exact htimed.completed
      · exact htimed.cancelled
      · simp [markedRow, hnone]
  | recomputed => exact progressRow_timed htimed hstarted _
  | cancelled =>
    -- A request for cancellation is recorded once.
    have hflagged : EvaluationJob.Timed db.now (flaggedRow db.now j) :=
      ⟨htimed.created, htimed.started, htimed.completed,
        htimed.cancelled.getD htimed.created, htimed.order⟩
    exact progressRow_timed hflagged hstarted _

/-! ### Changes -/

theorem Db.Timed.later {now now' : Instant} {db : Db} (h : db.Timed now) (hle : now ≤ now') :
  db.Timed now'
  := by
  refine ⟨fun t ht => (h.tickets t ht).later hle, fun j hj => (h.jobs j hj).later hle, ?_⟩
  intro r hr
  obtain ⟨hcreated, hsome, hcompleted⟩ := h.results r hr
  exact ⟨hcreated.trans hle, hsome, hcompleted.later hle⟩

theorem timed_of_created {p : PreparedJob} {db db' : Db} (h : db.Timed db.now)
    (hcreated : Created p db db') :
  db'.Timed db.now
  := by
  constructor
  · intro t ht
    rw [hcreated.tickets] at ht
    rcases List.mem_append.mp ht with hold | hnew
    · exact h.tickets t hold
    · obtain ⟨q, -, rfl⟩ := List.mem_map.mp hnew
      exact ⟨le_refl _, rfl, happened_none, happened_none, precedes_none⟩
  · intro j hj
    rw [hcreated.jobs] at hj
    rcases List.mem_append.mp hj with hold | hnew
    · exact h.jobs j hold
    · rw [List.mem_singleton.mp hnew]
      exact ⟨le_refl _, happened_none, happened_none, happened_none, precedes_none⟩
  · intro r hr
    rw [hcreated.results] at hr
    exact h.results r hr

/-- A change keeps the times of all rows in order. -/
theorem timed_of_change {a : Action} {db db' : Db} (hagrees : db.agrees) (hwell : db.wellFormed)
    (h : db.Timed db.now) (hchange : Change a db db') :
  db'.Timed db.now
  := by
  obtain ⟨f, g, hby⟩ := hchange
  constructor
  · intro t' ht'
    obtain ⟨t, ht, rfl⟩ := hby.mem_tickets.mp ht'
    exact (hby.moves t ht).timed (hwell t ht) (h.tickets t ht)
  · intro j' hj'
    obtain ⟨j, hj, rfl⟩ := hby.mem_jobs.mp hj'
    exact (hby.jobMoves j hj).timed (hagrees j hj) (h.jobs j hj)
  · intro r hr
    cases hby.results with
    | kept results => exact h.results r (results ▸ hr)
    | recorded result row t htarget before hjob written resultOf =>
      have hfound := Db.resultOf_eq_some.mpr ⟨hr, rfl⟩
      rw [resultOf] at hfound
      split at hfound
      case isFalse => exact h.results r (Db.resultOf_eq_some.mp hfound).1
      case isTrue =>
        cases hfound
        obtain ⟨old, hold, rfl⟩ | ⟨-, rfl⟩ := written
        · have hcreated := (h.results old (Db.resultOf_eq_some.mp hold).1).1
          exact ⟨hcreated, rfl, happened_now.mpr hcreated⟩
        · exact ⟨le_refl _, rfl, happened_now.mpr (le_refl _)⟩

/-! ### The clock -/

theorem now_claimTickets {settings : Settings} {locked : Uuid → Bool} {worker : Worker}
    {limit : Option ℕ} {leaseSeconds : Option ℤ} {jobId : Option Uuid} {db db' : Db}
    {tickets : List EvaluationTicket}
    (h : claimTickets settings locked worker limit leaseSeconds jobId db = .ok (tickets, db')) :
  db'.now = db.now
  := by
  obtain ⟨ids, lease, -, -, -, rfl⟩ := claimTickets_ok h
  rfl

theorem now_heartbeatTicket {ticketId : Uuid} {workerId : String} {leaseSeconds : ℤ} {db db' : Db}
    {r : Option EvaluationTicket}
    (h : heartbeatTicket ticketId workerId leaseSeconds db = .ok (r, db')) :
  db'.now = db.now
  := by
  unfold heartbeatTicket extendLease at h
  split at h
  · cases h
  · cases h
    rfl

theorem now_cancelJob {jobId : Uuid} {db db' : Db} {r : CancellationResult}
    (h : cancelJob jobId db = .ok (r, db')) :
  db'.now = db.now
  := by
  obtain ⟨-, rfl⟩ := cancelJob_ok h
  rw [recomputeProgress_db]
  rfl

theorem now_retryFailedTickets {jobId : Uuid} {db db' : Db} {r : EvaluationJob × ℕ}
    (h : retryFailedTickets jobId db = .ok (r, db')) :
  db'.now = db.now
  := by
  unfold retryFailedTickets at h
  cases hjob : db.job jobId with
  | none =>
    rw [hjob] at h
    cases h
  | some j =>
    simp only [hjob, recomputeProgress_db] at h
    split at h
    case isTrue => cases h
    case isFalse =>
      split at h
      case isTrue => cases h
      case isFalse =>
        split at h
        case h_1 => cases h
        case h_2 =>
          cases h
          rfl

/-- Only the passing of time moves the clock. -/
theorem now_step (settings : Settings) {s : System} (hs : s.sound) {l : Label}
    (hl : ∀ now, l ≠ .tick now) :
  (s.step settings l).db.now = s.db.now
  := by
  cases l with
  | createJob job =>
    exact committed_of (fun db : Db => db.now = s.db.now) rfl fun _ _ => now_storeJob
  | claim worker limit leaseSeconds jobId locked collaborators =>
    cases h : claimTickets settings locked worker limit leaseSeconds jobId s.db with
    | error e => simp [System.step, System.claimed, h]
    | ok r =>
      simp only [System.step, System.claimed, h]
      exact now_claimTickets h
  | execute index failure =>
    cases hr : s.runs[index]? with
    | none => simp [System.step, System.executed, hr]
    | some r =>
      have hsound := hs r (List.mem_of_getElem? hr)
      simp only [System.step, System.executed, hr]
      rcases Program.step_always hsound.transacts failure s.db with
        ⟨hsame, -⟩ | ⟨tag, commit, -, -, htransacts, hcommit⟩
      · rw [hsame]
      · rw [hcommit]
        exact htransacts.now s.db
  | heartbeat ticketId worker leaseSeconds =>
    exact committed_of (fun db : Db => db.now = s.db.now) rfl fun _ _ => now_heartbeatTicket
  | cancelJob jobId =>
    exact committed_of (fun db : Db => db.now = s.db.now) rfl fun _ _ => now_cancelJob
  | retryFailedTickets jobId =>
    exact committed_of (fun db : Db => db.now = s.db.now) rfl fun _ _ => now_retryFailedTickets
  | recover locked locked' jitter limit =>
    exact now_recover settings locked locked' jitter limit s.db
  | reconcile =>
    change (recomputeJobs (jobsWithActiveTickets s.db) s.db).now = s.db.now
    rw [jobsWithActiveTickets, recomputeJobs_eq (List.nodup_dedup _)]
    rfl
  | tick now => exact absurd rfl (hl now)

/-! ### Runs -/

/-- The clock does not go back. -/
def System.forward (s : System) : Label → Prop
  | .tick now => s.db.now ≤ now
  | _ => True

/-- What a run keeps whose clock does not go back. -/
structure System.Timed (s : System) : Prop where
  sound : s.sound
  agrees : s.db.agrees
  wellFormed : s.db.wellFormed
  timed : s.db.Timed s.db.now

/-- A step that leaves the clock alone keeps the times of rows in order. -/
theorem timed_step_of_now {settings : Settings} {s : System} (h : s.Timed) (l : Label)
    (hnow : (s.step settings l).db.now = s.db.now) :
  (s.step settings l).Timed
  := by
  have hsound : (s.step settings l).sound := sound_step h.sound l
  obtain hsame | ⟨p, hcreated⟩ | ⟨a, -, hchange⟩ := step_cases settings h.sound l
  · refine ⟨hsound, ?_, ?_, ?_⟩
    · exact hsame ▸ h.agrees
    · exact hsame ▸ h.wellFormed
    · exact hsame ▸ h.timed
  · refine ⟨hsound, agrees_of_created h.agrees hcreated,
      wellFormed_of_created h.wellFormed hcreated, ?_⟩
    rw [hnow]
    exact timed_of_created h.timed hcreated
  · refine ⟨hsound, agrees_of_change h.agrees hchange,
      h.wellFormed.of_advancesTo (advancesTo_of_change hchange), ?_⟩
    rw [hnow]
    exact timed_of_change h.agrees h.wellFormed h.timed hchange

/-- So does a step of the clock that does not go back. -/
theorem timed_tick (settings : Settings) {s : System} {now : Instant} (h : s.Timed)
    (hle : s.db.now ≤ now) :
  (s.step settings (.tick now)).Timed
  := by
  have hchange := change_tick s.db now
  obtain ⟨tickets, jobs, results⟩ := h.timed.later hle
  exact ⟨sound_step h.sound _, agrees_of_change h.agrees hchange,
    h.wellFormed.of_advancesTo (advancesTo_of_change hchange), ⟨tickets, jobs, results⟩⟩

theorem timed_step (settings : Settings) {s : System} {l : Label} (h : s.Timed)
    (hforward : s.forward l) :
  (s.step settings l).Timed
  := by
  by_cases htick : ∃ now, l = .tick now
  · obtain ⟨now, rfl⟩ := htick
    exact timed_tick settings h hforward
  · apply timed_step_of_now h
    apply now_step settings h.sound
    rintro now rfl
    exact htick ⟨now, rfl⟩

theorem timed_initial :
  System.initial.Timed
  := by
  refine ⟨sound_initial, agrees_after .default [], wellFormed_after .default [], ?_⟩
  constructor <;> simp [System.initial, Db.empty, Table.empty]

theorem timed_after (settings : Settings) {labels : List Label}
    (hforward : Along (System.step settings) System.forward System.initial labels) :
  (System.after settings labels).Timed
  := run_invariant System.Timed System.forward (fun _ _ h hl => timed_step settings h hl)
    timed_initial hforward

/-- In every run of transactions that do not overlap, under a clock that does not go back, the
times of all rows stay in order: no ticket is claimed before it is created or completed before it
is claimed, no job is started before it is created or completed before it is started, and nothing
is in the future. -/
theorem times_in_order (settings : Settings) (labels : List Label)
    (hforward : Along (System.step settings) System.forward System.initial labels) :
  (System.after settings labels).db.Timed (System.after settings labels).db.now
  := (timed_after settings hforward).timed

/-! ### Waiting tickets -/

/-- The ticket is as it was, or cancelled. -/
def Waits (t : EvaluationTicket) (db : Db) : Prop :=
  db.ticket t.id = some t ∨ ∃ t', db.ticket t.id = some t' ∧ t'.status = .cancelled

/-- What waits is only cancelled before its time. -/
theorem Move.waits {db db' : Db} {a : Action} {t t' : EvaluationTicket} (h : Move db db' a t t')
    (hpending : t.status.pending) (hearly : db.now < t.availableAt) :
  t' = t ∨ t'.status = .cancelled
  := by
  have hrunning : t.status ≠ .running := by
    rcases hpending with hready | hretry
    · simp [hready]
    · simp [hretry]
  have hfailed : t.status ≠ .failed := by
    rcases hpending with hready | hretry
    · simp [hready]
    · simp [hretry]
  cases h with
  | stay => exact .inl rfl
  | claimed _ _ available => exact absurd available (not_le.mpr hearly)
  | extended _ owns => exact absurd (owned_iff.mp owns).1 hrunning
  | cancelled => exact .inr rfl
  | retried _ _ owns => exact absurd (owned_iff.mp owns).1 hrunning
  | recorded _ _ owns => exact absurd (owned_iff.mp owns).1 hrunning
  | cancelledUnclaimed => exact .inr rfl
  | reset failed => exact absurd failed hfailed
  | recovered _ passed => exact absurd (expired_iff.mp passed).1 hrunning
  | swept => exact .inr rfl

theorem waits_of_change {a : Action} {db db' : Db} {t : EvaluationTicket} (h : Waits t db)
    (hpending : t.status.pending) (hearly : db.now < t.availableAt) (hchange : Change a db db') :
  Waits t db'
  := by
  rcases h with hsame | ⟨t', ht', hcancelled⟩
  · obtain ⟨t'', ht'', hmove⟩ := hchange.exists_ticket hsame
    rcases hmove.waits hpending hearly with rfl | hcancelled
    · exact .inl ht''
    · exact .inr ⟨t'', ht'', hcancelled⟩
  · obtain ⟨t'', ht'', hmove⟩ := hchange.exists_ticket ht'
    rw [hmove.eq_of_final (.inr (.inr hcancelled))] at ht''
    exact .inr ⟨t', ht'', hcancelled⟩

theorem waits_of_created {p : PreparedJob} {db db' : Db} {t : EvaluationTicket} (h : Waits t db)
    (hcreated : Created p db db') :
  Waits t db'
  := by
  rcases h with hsame | ⟨t', ht', hcancelled⟩
  · exact .inl (hcreated.ticket hsame)
  · exact .inr ⟨t', hcreated.ticket ht', hcancelled⟩

theorem now_le_step (settings : Settings) {s : System} {l : Label} (hs : s.sound)
    (hforward : s.forward l) :
  s.db.now ≤ (s.step settings l).db.now
  := by
  by_cases htick : ∃ now, l = .tick now
  · obtain ⟨now, rfl⟩ := htick
    exact hforward
  · rw [now_step settings hs fun now hl => htick ⟨now, hl⟩]

/-- A ticket that waits for its first or another attempt is not claimed before the time it is
available at, by any worker in any run whose clock does not go back: until then it stays as it is,
unless it is cancelled. -/
theorem backoff_is_respected (settings : Settings) (before labels : List Label)
    {t : EvaluationTicket} (ht : (System.after settings before).db.ticket t.id = some t)
    (hpending : t.status.pending)
    (hforward : Along (System.step settings) System.forward (System.after settings before) labels)
    (hearly : (System.after settings (before ++ labels)).db.now < t.availableAt) :
  Waits t (System.after settings (before ++ labels)).db
  := by
  rw [System.after_append] at hearly ⊢
  refine (run_invariant
    (fun s : System => s.sound ∧ (s.db.now < t.availableAt → Waits t s.db)) System.forward ?_
    ⟨sound_after settings before, fun _ => .inl ht⟩ hforward).2 hearly
  rintro s l ⟨hs, hwaits⟩ hl
  use sound_step hs l
  intro hnow
  have hbefore := lt_of_le_of_lt (now_le_step settings hs hl) hnow
  obtain hsame | ⟨p, hcreated⟩ | ⟨a, -, hchange⟩ := step_cases settings hs l
  · rw [hsame]
    exact hwaits hbefore
  · exact waits_of_created (hwaits hbefore) hcreated
  · exact waits_of_change (hwaits hbefore) hpending hbefore hchange

namespace Demo

/-- A ticket is claimed and settled as time passes. -/
def passing : List Label :=
  [.createJob job, .tick 10, claim worker (.ok (output .passed)), .tick 20, .execute 0 none,
    .execute 0 none, .tick 20]

theorem times_in_order_passing :
  (System.after .default passing).db.Timed (System.after .default passing).db.now
  := by
  apply times_in_order
  refine ⟨trivial, ?_, trivial, ?_, trivial, trivial, ?_, trivial⟩
  · change (0 : ℤ) ≤ 10
    decide
  · change (10 : ℤ) ≤ 20
    decide
  · change (20 : ℤ) ≤ 20
    decide

/-- An evaluation times out, and its ticket is to be attempted again after 30 seconds. -/
def timedOut : List Label :=
  [.createJob job, claim worker (.error (.other "TimeoutError" "")), .execute 0 none,
    .execute 0 none]

/-- Another worker asks for tickets before that. -/
def tooEarly : List Label :=
  [.tick 1000, claim otherWorker (.ok (output .passed))]

theorem backoff_is_respected_tooEarly :
  ∃ t, t.status = .retry ∧ Waits t (System.after .default (timedOut ++ tooEarly)).db
  := by
  obtain ⟨t, ht, hretry, havailable⟩ : ∃ t,
      (System.after .default timedOut).db.ticket 10 = some t ∧ t.status = .retry
        ∧ t.availableAt = 30000000 := ⟨_, rfl, rfl, by decide +kernel⟩
  obtain ⟨-, hid⟩ := Db.ticket_eq_some.mp ht
  use t, hretry
  apply backoff_is_respected .default timedOut tooEarly (hid.symm ▸ ht) (.inr hretry)
  · refine ⟨?_, trivial, trivial⟩
    change (0 : ℤ) ≤ 1000
    decide
  · rw [havailable]
    decide +kernel

end Demo

end Evalorch
