import Evalorch.Interleaving.Statements
import Evalorch.Lifecycle.Cancellation

/-!
# What a transaction does to tickets and jobs

`TicketStep` lists the ways in which an operation rewrites a ticket, with what the transaction has
to hold, to have written and to have found in the committed rows for it. A job stands where its
tickets are when its counters are theirs and it is finished just when they are (`Db.stands`). What
leaves the tickets of a job as open as they were, and the job where it stood (`Untouched`), keeps
that.
-/

namespace Evalorch

open Transact TicketRepository JobRepository

/-! ### Tickets -/

/-- The settlement that an operation is there for. -/
def Operation.settlement : Operation → Option (Instant × SettleRequest)
  | .persist now r => some (now, r.settle none)
  | .settle now r => some (now, r)
  | _ => none

/-- The operation settles its ticket to `target`, without a result and without a look at the job. -/
def Operation.settlesTo : Operation → TicketStatus → Prop
  | .settle _ r, target => r.target = target
  | _, _ => False

/-- The operation cancels the job. -/
def Operation.cancels : Operation → Uuid → Prop
  | .cancelJob _ jobId _, jobId' => jobId' = jobId
  | _, _ => False

/-- The recovery sweep of an operation. -/
def Operation.sweep : Operation → Option (Instant × SweepRequest)
  | .recover now r => some (now, r)
  | .startup now _ r => some (now, r)
  | _ => none

/-- The locks hold the job of a ticket. -/
def Locks.hold (held : Locks) (jobId : Uuid) : Prop :=
  (.job jobId, .forUpdate) ∈ held

/-- A settlement of a ticket of the job has heeded a cancellation: it does not look at the job, or
cancels the ticket, or the job is not cancelled. -/
def Operation.heeds (op : Operation) (target : TicketStatus) (db : Db) (jobId : Uuid) : Prop :=
  op.settlesTo target ∨ target = .cancelled ∨ ¬ db.cancelRequested jobId

/-- The ways an operation rewrites a ticket of the committed database `db`, holding some locks and
having made some writes. -/
inductive TicketStep (db : Db) (held : Locks) (writes : Writes) :
    Operation → EvaluationTicket → EvaluationTicket → Prop where
  | kept {op t} : TicketStep db held writes op t t
  | claimed {now r t} (pending : t.status.pending) (available : t.availableAt ≤ now)
      (checks : Db.ticketChecks (claimedRow now r.worker.id r.leaseSeconds t) = true)
      (wrote : (.ticket t.id, (claimedPatch now r.worker r.leaseSeconds).effect t.id) ∈ writes) :
      TicketStep db held writes (.claim now r) t (claimedRow now r.worker.id r.leaseSeconds t)
  | extended {now worker leaseSeconds t} (owns : owned worker.id t = true) :
      TicketStep db held writes (.heartbeat now t.id worker leaseSeconds) t
        (extendedRow now leaseSeconds t)
  | settled {op now r t} (settlement : op.settlement = some (now, r)) (target : TicketStatus)
      (s : Settlement) (id : t.id = r.ticket.id) (owns : owned r.workerId t = true)
      (allowed : target ∈ allowedTicketTransitions .running) (job : held.hold t.jobId)
      (heeds : op.heeds target db t.jobId) :
      TicketStep db held writes op t (transitionRow now target s t)
  | cancelled {now scan t} (message : String) (pending : t.status.pending)
      (job : held.hold t.jobId) :
      TicketStep db held writes (.cancelJob now t.jobId scan) t (cancelledRow now message t)
  | reset {now scan t} (failed : t.status = .failed) (job : held.hold t.jobId)
      (uncancelled : ¬ db.cancelRequested t.jobId) :
      TicketStep db held writes (.retryFailed now t.jobId scan) t (resetRow now t)
  | recovered {op now r t} (sweep : op.sweep = some (now, r)) (cancelled : Bool)
      (delay : Duration) (passed : expired now t = true) (job : held.hold t.jobId)
      (wrote : (.ticket t.id, (recoveredPatch now cancelled delay).effect t.id) ∈ writes) :
      TicketStep db held writes op t (recoveredRow now cancelled delay t)
  | swept {op now r t} (sweep : op.sweep = some (now, r)) (message : String)
      (passed : expired now t = true) (job : held.hold t.jobId) :
      TicketStep db held writes op t (cancelledRow now message t)

/-- The ticket stays in its status, or was open and is running. -/
def sameEnd (t t' : EvaluationTicket) : Prop :=
  t'.status = t.status ∨ t.status.isTerminal = false ∧ t'.status = .running

theorem sameEnd.trans {t t' t'' : EvaluationTicket} (h : sameEnd t t') (h' : sameEnd t' t'') :
  sameEnd t t''
  := by
  unfold sameEnd at *
  rcases h with h | h <;> rcases h' with h' | h' <;> simp_all

/-- A terminal status is had before exactly when it is had after. -/
theorem sameEnd.status_iff {t t' : EvaluationTicket} (h : sameEnd t t') {status : TicketStatus}
    (hterminal : status.isTerminal = true) :
  t'.status = status ↔ t.status = status
  := by
  rcases h with h | ⟨h, h'⟩
  · rw [h]
  · rw [h']
    constructor
    · rintro rfl
      cases hterminal
    · rintro rfl
      rw [h] at hterminal
      cases hterminal

/-- A ticket that waits to be claimed was waiting before. -/
theorem sameEnd.pending {t t' : EvaluationTicket} (h : sameEnd t t')
    (hpending : t'.status.pending) :
  t.status.pending
  := by
  rcases h with h | ⟨-, h⟩
  · rwa [h] at hpending
  · rw [h] at hpending
    rcases hpending with hpending | hpending <;> cases hpending

namespace TicketStep

variable {db : Db} {op : Operation} {held held' : Locks} {writes writes' : Writes}
  {t t' : EvaluationTicket}

theorem advance (h : TicketStep db held writes op t t') :
  Advance t t'
  := by
  cases h with
  | kept => exact .refl t
  | claimed pending => exact .claimedRow pending
  | extended owns => exact .extendedRow (owned_iff.mp owns).1
  | settled _ target s _ owns allowed => exact .transitionRow (owned_iff.mp owns).1 allowed
  | cancelled message pending => exact .cancelledRow (.inl pending)
  | reset failed => exact .resetRow failed
  | recovered _ cancelled delay passed => exact .recoveredRow (expired_iff.mp passed).1
  | swept _ message passed => exact .cancelledRow (.inr (expired_iff.mp passed).1)

theorem keys (h : TicketStep db held writes op t t') :
  t'.id = t.id ∧ t'.jobId = t.jobId
  := by
  cases h with
  | settled => exact ⟨transitionRow_id _ _ _ _, transitionRow_jobId _ _ _ _⟩
  | _ => exact ⟨rfl, rfl⟩

/-- With more locks and more writes as much may have been done. -/
theorem mono (h : TicketStep db held writes op t t') (hheld : held ⊆ held')
    (hwrites : writes ⊆ writes') :
  TicketStep db held' writes' op t t'
  := by
  cases h with
  | kept => exact .kept
  | claimed pending available checks wrote =>
    exact .claimed pending available checks (hwrites wrote)
  | extended owns => exact .extended owns
  | settled settlement target s id owns allowed job heeds =>
    exact .settled settlement target s id owns allowed (hheld job) heeds
  | cancelled message pending job => exact .cancelled message pending (hheld job)
  | reset failed job uncancelled => exact .reset failed (hheld job) uncancelled
  | recovered sweep cancelled delay passed job wrote =>
    exact .recovered sweep cancelled delay passed (hheld job) (hwrites wrote)
  | swept sweep message passed job => exact .swept sweep message passed (hheld job)

/-- What may be done stays so as long as the flags of locked jobs do. -/
theorem of_flags {db' : Db} (h : TicketStep db held writes op t t')
    (hflags : ∀ jobId, held.hold jobId → db'.cancelRequested jobId → db.cancelRequested jobId) :
  TicketStep db' held writes op t t'
  := by
  cases h with
  | kept => exact .kept
  | claimed pending available checks wrote => exact .claimed pending available checks wrote
  | extended owns => exact .extended owns
  | settled settlement target s id owns allowed job heeds =>
    exact .settled settlement target s id owns allowed job
      (heeds.imp_right fun h => h.imp_right fun hnot hflag => hnot (hflags _ job hflag))
  | cancelled message pending job => exact .cancelled message pending job
  | reset failed job uncancelled =>
    exact .reset failed job fun hflag => uncancelled (hflags _ job hflag)
  | recovered sweep cancelled delay passed job wrote =>
    exact .recovered sweep cancelled delay passed job wrote
  | swept sweep message passed job => exact .swept sweep message passed job

/-- Only a claim or a heartbeat leaves a ticket running that it has rewritten. -/
theorem eq_of_running (h : TicketStep db held writes op t t') (running : t'.status = .running)
    (claim : ∀ now r, op ≠ .claim now r)
    (heartbeat : ∀ now id worker leaseSeconds, op ≠ .heartbeat now id worker leaseSeconds) :
  t' = t
  := by
  cases h with
  | kept => rfl
  | claimed => exact absurd rfl (claim _ _)
  | extended => exact absurd rfl (heartbeat _ _ _ _)
  | settled settlement target s id owns allowed job =>
    cases target <;> first | cases running | simp [allowedTicketTransitions] at allowed
  | cancelled => cases running
  | reset => cases running
  | recovered sweep cancelled delay passed job =>
    simp only [recoveredRow] at running
    split at running
    · cases running
    · split at running <;> cases running
  | swept => cases running

end TicketStep

/-! ### Where a job stands -/

/-- The counters of a job. -/
def EvaluationJob.counters (j : EvaluationJob) : ℕ × ℕ × ℕ × ℕ :=
  (j.completedTickets, j.failedTickets, j.cancelledTickets, j.notApplicableTickets)

/-- The tickets in each terminal status. -/
def TicketCounts.ends (counts : TicketCounts) : ℕ × ℕ × ℕ × ℕ :=
  (counts .done, counts .failed, counts .cancelled, counts .notApplicable)

/-- The counters of the job are the numbers of its tickets in the terminal statuses. -/
def Db.countersAgree (db : Db) (jobId : Uuid) : Prop :=
  ∀ j, db.job jobId = some j → j.counters = (ticketCounts jobId db).ends

/-- The status of a job that is finished. -/
def JobStatus.closed : JobStatus → Option JobStatus
  | .created | .ready | .running => none
  | status => some status

theorem JobStatus.of_closed {status status' : JobStatus} (h : status.closed = some status') :
  status = status'
  := by cases status <;> cases h <;> rfl

/-- What a job says of how far it has come: its counters, its flag, and how it has finished. -/
def EvaluationJob.standing (j : EvaluationJob) : (ℕ × ℕ × ℕ × ℕ) × Bool × Option JobStatus :=
  (j.counters, j.cancellationRequestedAt.isSome, j.status.closed)

/-- The counters of the job are those of its tickets, and it is finished when they are, as
`recompute_progress` decides. -/
def Db.stands (db : Db) (jobId : Uuid) : Prop :=
  ∀ j, db.job jobId = some j →
    j.counters = (ticketCounts jobId db).ends
      ∧ j.status.closed = (progressStatus j.status j.cancellationRequestedAt.isSome
          (ticketCounts jobId db)).closed

theorem Db.stands.countersAgree {db : Db} {jobId : Uuid} (h : db.stands jobId) :
  db.countersAgree jobId
  := fun j hj => (h j hj).1

/-- Whether and how `recompute_progress` finishes a job depends on the numbers of tickets that have
ended, and of all tickets. -/
theorem closed_progressStatus_congr {current current' : JobStatus} {requested : Bool}
    {counts counts' : TicketCounts} (hcurrent : current.closed = current'.closed)
    (htotal : counts.total = counts'.total) (hends : counts.ends = counts'.ends) :
  (progressStatus current requested counts).closed
    = (progressStatus current' requested counts').closed
  := by
  simp only [TicketCounts.ends, Prod.mk.injEq] at hends
  obtain ⟨hdone, hfailed, hcancelled, hnotApplicable⟩ := hends
  have hterminal : counts.terminal = counts'.terminal := by
    simp only [TicketCounts.terminal, hdone, hfailed, hcancelled, hnotApplicable]
  have hopen : ∀ p : Prop, [Decidable p] →
      (if p then JobStatus.running else .ready).closed = none := by
    intro p _
    split <;> rfl
  simp only [progressStatus, htotal, hterminal, hdone, hfailed, hcancelled, hnotApplicable]
  by_cases hnone : counts'.total = 0
  · simp only [hnone, if_true, hcurrent]
  · by_cases hlt : counts'.terminal < counts'.total
    · simp only [hnone, hlt, if_false, if_true, hopen]
    · simp only [hnone, hlt, if_false]

/-- A job whose row was recomputed stands where its tickets are. -/
theorem stands_progressRow (now : Instant) (counts : TicketCounts) (j : EvaluationJob) :
  (progressRow now counts j).counters = counts.ends
    ∧ (progressRow now counts j).status.closed
      = (progressStatus (progressRow now counts j).status
          (progressRow now counts j).cancellationRequestedAt.isSome counts).closed
  := by
  use rfl
  by_cases hnone : counts.total = 0
  · simp [progressRow, progressStatus, hnone]
  · exact congrArg JobStatus.closed (progressStatus_of_total_ne_zero hnone _ _ _)

/-- The keys of a ticket: its own and that of its job. -/
def EvaluationTicket.keys (t : EvaluationTicket) : Uuid × Uuid :=
  (t.id, t.jobId)

/-- Two databases have the same tickets and jobs, up to what else the rows hold. -/
structure SameKeys (db db' : Db) : Prop where
  tickets : db'.tickets.rows.map EvaluationTicket.keys = db.tickets.rows.map EvaluationTicket.keys
  jobs : db'.jobs.rows.map EvaluationJob.id = db.jobs.rows.map EvaluationJob.id

/-- A job stands where it stood, none of its tickets has ended in another way, and none is given
back. -/
structure Untouched (db db' : Db) (jobId : Uuid) : Prop where
  tickets : ∀ id t t', db.ticket id = some t → db'.ticket id = some t' → t.jobId = jobId →
    sameEnd t t'
  standing : (db'.job jobId).map EvaluationJob.standing = (db.job jobId).map EvaluationJob.standing

namespace SameKeys

variable {db db' db'' : Db}

protected theorem refl (db : Db) :
  SameKeys db db
  := ⟨rfl, rfl⟩

theorem symm (h : SameKeys db db') :
  SameKeys db' db
  := ⟨h.tickets.symm, h.jobs.symm⟩

theorem trans (h : SameKeys db db') (h' : SameKeys db' db'') :
  SameKeys db db''
  := ⟨h'.tickets.trans h.tickets, h'.jobs.trans h.jobs⟩

theorem exists_ticket (h : SameKeys db db') {id : Uuid} {t : EvaluationTicket}
    (ht : db.ticket id = some t) :
  ∃ t', db'.ticket id = some t'
  := by
  obtain ⟨hmem, rfl⟩ := Db.ticket_eq_some.mp ht
  have hkeys : t.keys ∈ db'.tickets.rows.map EvaluationTicket.keys := by
    rw [h.tickets]
    exact List.mem_map_of_mem hmem
  obtain ⟨t', ht', hkeys⟩ := List.mem_map.mp hkeys
  exact ⟨t', Db.ticket_eq_some.mpr ⟨ht', congrArg Prod.fst hkeys⟩⟩

/-- A ticket stays with its job. -/
theorem jobId_eq (h : SameKeys db db') {id : Uuid} {t t' : EvaluationTicket}
    (ht : db.ticket id = some t) (ht' : db'.ticket id = some t') :
  t'.jobId = t.jobId
  := by
  obtain ⟨hmem, rfl⟩ := Db.ticket_eq_some.mp ht
  obtain ⟨hmem', hid⟩ := Db.ticket_eq_some.mp ht'
  have hkeys : t.keys ∈ db'.tickets.rows.map EvaluationTicket.keys := by
    rw [h.tickets]
    exact List.mem_map_of_mem hmem
  obtain ⟨t'', ht'', hkeys⟩ := List.mem_map.mp hkeys
  have hsame : t'' = t' := Table.eq_of_key ht'' hmem' ((congrArg Prod.fst hkeys).trans hid.symm)
  rw [← hsame]
  exact congrArg Prod.snd hkeys

theorem exists_job (h : SameKeys db db') {id : Uuid} {j : EvaluationJob}
    (hj : db.job id = some j) :
  ∃ j', db'.job id = some j'
  := by
  obtain ⟨hmem, rfl⟩ := Db.job_eq_some.mp hj
  have hid : j.id ∈ db'.jobs.rows.map EvaluationJob.id := by
    rw [h.jobs]
    exact List.mem_map_of_mem hmem
  obtain ⟨j', hj', hid⟩ := List.mem_map.mp hid
  exact ⟨j', Db.job_eq_some.mpr ⟨hj', hid⟩⟩

/-- A job has as many tickets. -/
theorem total_eq (h : SameKeys db db') (jobId : Uuid) :
  (ticketCounts jobId db').total = (ticketCounts jobId db).total
  := by
  have hcount : ∀ db : Db, (ticketCounts jobId db).total
      = (db.tickets.rows.map EvaluationTicket.keys).countP (fun keys => keys.2 = jobId) := by
    intro db
    rw [total_ticketCounts, Table.count, List.countP_map]
    rfl
  rw [hcount, hcount, h.tickets]

/-- As many tickets of a job are in a status when the same ones are. -/
theorem ticketCounts_eq (h : SameKeys db db') {jobId : Uuid} {status : TicketStatus}
    (hiff : ∀ id t t', db.ticket id = some t → db'.ticket id = some t' → t.jobId = jobId →
      (t'.status = status ↔ t.status = status)) :
  ticketCounts jobId db' status = ticketCounts jobId db status
  := by
  apply Table.count_congr
  · simpa [EvaluationTicket.keys, Function.comp_def] using congrArg (List.map Prod.fst) h.tickets
  · intro id t t' ht ht'
    have hjob := h.jobId_eq ht ht'
    by_cases hof : t.jobId = jobId
    · simp [hjob, hof, hiff id t t' ht ht' hof]
    · simp [hjob, hof]

/-- A job that is not there is not there later. -/
theorem job_eq_none (h : SameKeys db db') {id : Uuid} (hj : db.job id = none) :
  db'.job id = none
  := by
  cases hj' : db'.job id with
  | none => rfl
  | some j' =>
    obtain ⟨j, hsome⟩ := h.symm.exists_job hj'
    rw [hj] at hsome
    cases hsome

end SameKeys

theorem TicketPatch.sameKeys (p : TicketPatch) (ticketId : Uuid) (db : Db) :
  SameKeys db (p.effect ticketId db)
  := by
  constructor
  · unfold effect
    rw [Db.tickets_updateTickets, Table.rows_update, List.map_map]
    apply List.map_congr_left
    intro t _
    apply patch_field EvaluationTicket.keys
    intro t
    simp [EvaluationTicket.keys, p.keepsId, p.keepsJob]
  · rfl

theorem JobPatch.sameKeys (p : JobPatch) (jobId : Uuid) (db : Db) :
  SameKeys db (p.effect jobId db)
  := by
  constructor
  · rfl
  · unfold effect
    rw [Db.jobs_updateJobs, Table.rows_update, List.map_map]
    apply List.map_congr_left
    intro j _
    apply patch_field EvaluationJob.id p.keepsId

namespace Untouched

variable {db db' db'' : Db} {jobId : Uuid}

protected theorem refl (db : Db) (jobId : Uuid) :
  Untouched db db jobId
  := by
  constructor
  · intro id t t' ht ht' _
    rw [ht] at ht'
    cases ht'
    exact .inl rfl
  · rfl

theorem trans (hkeys : SameKeys db db') (h : Untouched db db' jobId)
    (h' : Untouched db' db'' jobId) :
  Untouched db db'' jobId
  := by
  constructor
  · intro id t t'' ht ht'' hjob
    obtain ⟨t', ht'⟩ := hkeys.exists_ticket ht
    apply (h.tickets id t t' ht ht' hjob).trans
    apply h'.tickets id t' t'' ht' ht''
    rw [hkeys.jobId_eq ht ht', hjob]
  · exact h'.standing.trans h.standing

/-- A job that is there stands as it did. -/
theorem standing_eq (hkeys : SameKeys db db') (h : Untouched db db' jobId) {j' : EvaluationJob}
    (hj' : db'.job jobId = some j') :
  ∃ j, db.job jobId = some j ∧ j'.standing = j.standing
  := by
  obtain ⟨j, hj⟩ := hkeys.symm.exists_job hj'
  use j, hj
  have hstanding := h.standing
  rwa [hj, hj', Option.map_some, Option.map_some, Option.some.injEq] at hstanding

/-- As many tickets of the job are in each terminal status. -/
theorem ends_eq (hkeys : SameKeys db db') (h : Untouched db db' jobId) :
  (ticketCounts jobId db').ends = (ticketCounts jobId db).ends
  := by
  have hcount : ∀ status : TicketStatus, status.isTerminal = true →
      ticketCounts jobId db' status = ticketCounts jobId db status :=
    fun status hterminal => hkeys.ticketCounts_eq fun id t t' ht ht' hof =>
      (h.tickets id t t' ht ht' hof).status_iff hterminal
  simp only [TicketCounts.ends, hcount _ (rfl : TicketStatus.done.isTerminal = true),
    hcount _ (rfl : TicketStatus.failed.isTerminal = true),
    hcount _ (rfl : TicketStatus.cancelled.isTerminal = true),
    hcount _ (rfl : TicketStatus.notApplicable.isTerminal = true)]

/-- Counters that agree still do. -/
theorem countersAgree (hkeys : SameKeys db db') (h : Untouched db db' jobId)
    (hagree : db.countersAgree jobId) :
  db'.countersAgree jobId
  := by
  intro j' hj'
  obtain ⟨j, hj, hstanding⟩ := h.standing_eq hkeys hj'
  have hcounters : j'.counters = j.counters := congrArg Prod.fst hstanding
  rw [hcounters, h.ends_eq hkeys]
  exact hagree j hj

/-- A job that stands where its tickets are still does. -/
theorem stands (hkeys : SameKeys db db') (h : Untouched db db' jobId) (hstands : db.stands jobId) :
  db'.stands jobId
  := by
  intro j' hj'
  obtain ⟨j, hj, hstanding⟩ := h.standing_eq hkeys hj'
  simp only [EvaluationJob.standing, Prod.mk.injEq] at hstanding
  obtain ⟨hcounters, hflag, hclosed⟩ := hstanding
  obtain ⟨hagree, hstatus⟩ := hstands j hj
  constructor
  · rw [hcounters, h.ends_eq hkeys, hagree]
  · rw [hclosed, hstatus, hflag]
    exact closed_progressStatus_congr hclosed.symm (hkeys.total_eq jobId).symm
      (h.ends_eq hkeys).symm

end Untouched

end Evalorch
