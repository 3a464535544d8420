import Evalorch.Interleaving.Consistency

/-!
# Cancelled jobs under transactions that overlap

The statement that recovers expired leases and the claim decide by the flag of a job as it was
when they looked. What they commit after the cancellation of the job can therefore still claim one
of its tickets that was given back, or fail one that has no attempts left (`CancelledStep`). As
long as neither happens (`heedsFlag`), cancellation is a barrier in every interleaving
(`interleaved_barrier`).
-/

namespace Evalorch

open Transact TicketRepository JobRepository

/-! ### Tickets of a cancelled job -/

/-- The settlements without a result are those of `execute_ticket`: of a ticket whose job it found
cancelled, and the retry of a transient failure. -/
def Operation.ofExecution : Operation → Prop
  | .settle _ r => r.target = .cancelled ∨ r.target = .retry
  | _ => True

/-- The operation has written the claim of a ticket. -/
def Operation.claims (op : Operation) (writes : Writes) (id : Uuid) : Prop :=
  ∃ now r, op = .claim now r
    ∧ (.ticket id, (claimedPatch now r.worker r.leaseSeconds).effect id) ∈ writes

/-- The operation is a sweep and has written the recovery of a ticket whose job it saw without a
request to cancel it. -/
def Operation.recovers (op : Operation) (writes : Writes) (id : Uuid) : Prop :=
  ∃ now r delay, op.sweep = some (now, r)
    ∧ (.ticket id, (recoveredPatch now false delay).effect id) ∈ writes

/-- The operation gives a ticket back after a transient failure. -/
def Operation.retries (op : Operation) (t : EvaluationTicket) : Prop :=
  ∃ now r, op = .settle now r ∧ r.target = .retry ∧ t.id = r.ticket.id ∧ owned r.workerId t = true

/-- What a commit may make of the status of a ticket of a cancelled job. -/
inductive CancelledStep (op : Operation) (writes : Writes) (t : EvaluationTicket) :
    TicketStatus → Prop where
  | same : CancelledStep op writes t t.status
  | cancelled (unrecorded : recordsResult t.status = false) : CancelledStep op writes t .cancelled
  | claimed (pending : t.status.pending) (claims : op.claims writes t.id) :
      CancelledStep op writes t .running
  | retried (running : t.status = .running) (retries : op.retries t) :
      CancelledStep op writes t .retry
  | givenBack (running : t.status = .running) (recovers : op.recovers writes t.id) :
      CancelledStep op writes t .retry
  | failed (running : t.status = .running) (recovers : op.recovers writes t.id)
      (exhausted : t.maxAttempts ≤ t.attemptCount) : CancelledStep op writes t .failed

theorem TicketStep.of_cancelRequested {db : Db} {op : Operation} {held : Locks} {writes : Writes}
    {t t' : EvaluationTicket} (h : TicketStep db held writes op t t') (hop : op.ofExecution)
    (hflag : db.cancelRequested t.jobId) :
  CancelledStep op writes t t'.status
  := by
  have hrecords : ∀ {status : TicketStatus}, status.pending ∨ status = .running →
      recordsResult status = false := by
    rintro status ((rfl | rfl) | rfl) <;> rfl
  cases h with
  | kept => exact .same
  | claimed pending _ _ wrote => exact .claimed pending ⟨_, _, rfl, wrote⟩
  | extended => exact .same
  | settled settlement target s id owns _ _ heeds =>
    have hrunning := (owned_iff.mp owns).1
    obtain hsettles | rfl | hnot := heeds
    · cases op with
      | settle now r =>
        simp only [Operation.settlement, Option.some.injEq, Prod.mk.injEq] at settlement
        obtain ⟨rfl, rfl⟩ := settlement
        obtain rfl : r.target = target := hsettles
        rcases hop with htarget | htarget
        · rw [htarget]
          exact .cancelled (hrecords (.inr hrunning))
        · rw [htarget]
          exact .retried hrunning ⟨now, r, rfl, htarget, id, owns⟩
      | _ => cases hsettles
    · exact .cancelled (hrecords (.inr hrunning))
    · exact absurd hflag hnot
  | cancelled _ pending => exact .cancelled (hrecords (.inl pending))
  | reset _ _ uncancelled => exact absurd hflag uncancelled
  | recovered sweep cancelled delay passed _ wrote =>
    have hrunning := (expired_iff.mp passed).1
    cases cancelled with
    | true => exact .cancelled (hrecords (.inr hrunning))
    | false =>
      have hrecovers : op.recovers writes t.id := ⟨_, _, _, sweep, wrote⟩
      by_cases hleft : t.attemptCount ≥ t.maxAttempts
      · simp only [recoveredRow, hleft, if_true]
        exact .failed hrunning hrecovers hleft
      · simp only [recoveredRow, hleft, if_false]
        exact .givenBack hrunning hrecovers
  | swept _ _ passed => exact .cancelled (hrecords (.inr (expired_iff.mp passed).1))

/-- A turn makes one of these steps with every ticket of a cancelled job. -/
theorem OnRows.cancelledStep {db : Db} {s : Interleaved} (h : OnRows db s) (l : Turn Operation)
    (hops : ∀ u ∈ s.txns, u.tag.ofExecution) {id : Uuid} {t t' : EvaluationTicket}
    (ht : s.committed.ticket id = some t)
    (ht' : (Evalorch.turn s l).committed.ticket id = some t')
    (hflag : s.committed.cancelRequested t.jobId) :
  t'.status = t.status ∨ ∃ u, commitsAt s l u ∧ CancelledStep u.tag u.writes t t'.status
  := by
  obtain ⟨t'', ht'', hmove⟩ := h.ticket l ht
  rw [ht'] at ht''
  cases ht''
  obtain rfl | ⟨u, hu, hstep⟩ := hmove
  · exact .inl rfl
  · have hop : u.tag.ofExecution := by
      obtain ⟨i, -, hi, -⟩ := hu
      exact hops u (List.mem_of_getElem? hi)
    exact .inr ⟨u, hu, hstep.of_cancelRequested hop hflag⟩

/-- A job that is cancelled after a turn was cancelled before, or the turn commits its
cancellation. -/
theorem OnRows.cancels {db : Db} {s : Interleaved} (h : OnRows db s) {l : Turn Operation}
    {jobId : Uuid} (hflag' : (Evalorch.turn s l).committed.cancelRequested jobId) :
  s.committed.cancelRequested jobId
    ∨ ∃ u : Txn Db Row LockMode Operation, u.tag.cancels jobId
      ∧ (Evalorch.turn s l).committed = written u.writes s.committed
      ∧ Commits u.tag u.held u.writes s.committed
      ∧ u.tag.ensures s.committed (written u.writes s.committed)
  := by
  obtain hsame | ⟨u, -, hcommitted, hcommits, hensures⟩ := h.commits l
  · rw [hsame] at hflag'
    exact .inl hflag'
  · rw [hcommitted] at hflag'
    refine (hcommits.requests jobId hflag').imp_right fun hcancels => ?_
    exact ⟨u, hcancels, hcommitted, hcommits, hensures⟩

/-! ### The barrier -/

/-- A transaction begins for a ticket of its job, and settles without a result only as an execution
does. -/
def Operation.proper (db : Db) (op : Operation) : Prop :=
  op.copies db ∧ op.ofExecution

/-- What is known of a job in a run in which it may be cancelled. -/
structure Cancelling (db : Db) (jobId : Uuid) (s : Interleaved) : Prop where
  rows : OnRows db s
  ops : ∀ u ∈ s.txns, u.tag.ofExecution
  stands : s.committed.stands jobId
  belong : s.committed.resultsOfJobs
  total : ∀ j, s.committed.job jobId = some j → 0 < (ticketCounts jobId s.committed).total
  left : s.committed.cancelRequested jobId →
    ∃ t ∈ s.committed.tickets.rows, t.jobId = jobId ∧ recordsResult t.status = false

/-- No ticket of the job is claimed or settled with a result. -/
def Quiet (jobId : Uuid) (db db' : Db) : Prop :=
  ∀ id t t', db.ticket id = some t → db'.ticket id = some t' → t.jobId = jobId →
    t'.status = t.status
      ∨ recordsResult t.status = false ∧ (t'.status = .cancelled ∨ t'.status = .retry)

/-- A result is of a ticket of its job. -/
theorem exists_ticket_of_result {db : Db} (h : db.resultsOfJobs) {r : EvaluationResult}
    (hr : r ∈ db.results.rows) :
  ∃ t, db.ticket r.ticketId = some t ∧ t.jobId = r.jobId
  := by
  obtain ⟨t, hmem, hid⟩ := db.resultTicket r hr
  have ht := Db.ticket_eq_some.mpr ⟨hmem, hid⟩
  exact ⟨t, ht, h r hr t ht⟩

/-- A turn that leaves the tickets of a cancelled job quiet does not get past its flag. -/
theorem Cancelling.barrier {db : Db} {jobId : Uuid} {s : Interleaved} (h : Cancelling db jobId s)
    {l : Turn Operation} (hflag : s.committed.cancelRequested jobId)
    (hquiet : Quiet jobId s.committed (Evalorch.turn s l).committed) :
  Barrier jobId s.committed (Evalorch.turn s l).committed
  := by
  have hkeys := h.rows.sameKeys l
  constructor
  · exact h.rows.cancelRequested l hflag
  · intro r hjob
    constructor
    · intro hr
      obtain ⟨t', ht', hof⟩ := exists_ticket_of_result (h.rows.resultsOfJobs h.belong l) hr
      obtain ⟨t, ht⟩ := hkeys.symm.exists_ticket ht'
      have hof' : t.jobId = jobId := (hkeys.jobId_eq ht ht').symm.trans (hof.trans hjob)
      have hresult := h.rows.resultOf l ht (hof' ▸ hflag)
      exact (Db.resultOf_eq_some.mp (hresult ▸ Db.resultOf_eq_some.mpr ⟨hr, rfl⟩)).1
    · intro hr
      obtain ⟨t, ht, hof⟩ := exists_ticket_of_result h.belong hr
      have hresult := h.rows.resultOf l ht (hof.trans hjob ▸ hflag)
      exact (Db.resultOf_eq_some.mp (hresult.trans (Db.resultOf_eq_some.mpr ⟨hr, rfl⟩))).1
  · intro status hrecords
    apply hkeys.ticketCounts_eq
    intro id t t' ht ht' hjob
    obtain hsame | ⟨hopen, hnext⟩ := hquiet id t t' ht ht' hjob
    · rw [hsame]
    · constructor
      · rintro rfl
        rcases hnext with hnext | hnext <;> rw [hnext] at hrecords <;> cases hrecords
      · rintro rfl
        rw [hopen] at hrecords
        cases hrecords

/-- A job that stands where its tickets are and may be cancelled has a ticket that is open or
cancelled. -/
theorem exists_open_of_stands {db : Db} {jobId : Uuid} {j : EvaluationJob} (h : db.stands jobId)
    (hj : db.job jobId = some j) (hpos : 0 < (ticketCounts jobId db).total)
    (hcancellable : j.status.cancellable) :
  ∃ t ∈ db.tickets.rows, t.jobId = jobId ∧ recordsResult t.status = false
  := by
  by_contra hnone
  push Not at hnone
  simp only [ne_eq, Bool.not_eq_false] at hnone
  have hclosed := (h j hj).2
  apply hcancellable
  rcases progressStatus_of_recorded hpos hnone j.status j.cancellationRequestedAt.isSome with
    hstatus | hstatus | hstatus
  · rw [hstatus] at hclosed
    exact .inl (JobStatus.of_closed hclosed)
  · rw [hstatus] at hclosed
    exact .inr (.inl (JobStatus.of_closed hclosed))
  · rw [hstatus] at hclosed
    exact .inr (.inr (JobStatus.of_closed hclosed))

/-- The commit that cancels a job leaves it a ticket that is open or cancelled. -/
theorem Commits.exists_open {op : Operation} {held : Locks} {writes : Writes} {db : Db}
    (h : Commits op held writes db) (hensures : op.ensures db (written writes db)) {jobId : Uuid}
    (hcancels : op.cancels jobId) (hstands : db.stands jobId)
    (htotal : ∀ j, db.job jobId = some j → 0 < (ticketCounts jobId db).total) :
  ∃ t ∈ (written writes db).tickets.rows, t.jobId = jobId ∧ recordsResult t.status = false
  := by
  cases op with
  | cancelJob now jobId' scan =>
    obtain rfl : jobId = jobId' := hcancels
    obtain ⟨⟨j, hj, hcancellable⟩, -⟩ := hensures
    obtain ⟨t, ht, hjob, hopen⟩ := exists_open_of_stands hstands hj (htotal j hj) hcancellable
    have hrow := Db.ticket_eq_some.mpr ⟨ht, rfl⟩
    obtain ⟨t', ht', hstep⟩ := h.tickets t.id t hrow
    refine ⟨t', (Db.ticket_eq_some.mp ht').1, (h.keys.jobId_eq hrow ht').trans hjob, ?_⟩
    cases hstep with
    | kept => exact hopen
    | settled settlement => cases settlement
    | cancelled => rfl
    | recovered sweep => cases sweep
    | swept sweep => cases sweep
  | _ => cases hcancels

/-- A turn that leaves the tickets of a cancelled job quiet keeps what is known of the job. -/
theorem Cancelling.turn {db : Db} {jobId : Uuid} {s : Interleaved} (h : Cancelling db jobId s)
    {l : Turn Operation} (hproper : ∀ op, l = .start op → op.proper db)
    (hquiet : s.committed.cancelRequested jobId →
      Quiet jobId s.committed (Evalorch.turn s l).committed) :
  Cancelling db jobId (Evalorch.turn s l)
  := by
  have hkeys := h.rows.sameKeys l
  constructor
  · apply h.rows.turn
    cases l with
    | start op => exact (hproper op rfl).1
    | _ => trivial
  · intro u hu
    obtain ⟨u', hu', htag⟩ | hstart :=
      Concurrent.tag_of_run (show u ∈ (run Evalorch.turn s [l]).txns from hu)
    · exact htag ▸ h.ops u' hu'
    · exact (hproper u.tag (List.mem_singleton.mp hstart).symm).2
  · exact h.rows.stands h.stands l
  · exact h.rows.resultsOfJobs h.belong l
  · intro j' hj'
    obtain ⟨j, hj⟩ := hkeys.symm.exists_job hj'
    rw [hkeys.total_eq]
    exact h.total j hj
  · intro hflag'
    obtain hflag | ⟨u, hcancels, hcommitted, hcommits, hensures⟩ := h.rows.cancels hflag'
    · obtain ⟨t, ht, hjob, hopen⟩ := h.left hflag
      have hrow := Db.ticket_eq_some.mpr ⟨ht, rfl⟩
      obtain ⟨t', ht'⟩ := hkeys.exists_ticket hrow
      refine ⟨t', (Db.ticket_eq_some.mp ht').1, (hkeys.jobId_eq hrow ht').trans hjob, ?_⟩
      obtain hsame | ⟨-, hnext | hnext⟩ := hquiet hflag t.id t t' hrow ht' hjob
      · rw [hsame]
        exact hopen
      · rw [hnext]
        rfl
      · rw [hnext]
        rfl
    · rw [hcommitted]
      exact hcommits.exists_open hensures hcancels h.stands h.total

/-! ### Runs -/

/-- What a cancelled job keeps: its barrier, and no ticket of it is running that was not. -/
structure KeepsOut (jobId : Uuid) (db db' : Db) : Prop where
  barrier : Barrier jobId db db'
  entered : ∀ id t', db'.ticket id = some t' → t'.jobId = jobId →
    t'.status = .running ∨ recordsResult t'.status = true →
    ∃ t, db.ticket id = some t ∧ t.jobId = jobId ∧ t.status = t'.status

theorem KeepsOut.trans {jobId : Uuid} {db db' db'' : Db} (h : KeepsOut jobId db db')
    (h' : KeepsOut jobId db' db'') :
  KeepsOut jobId db db''
  := by
  use h.barrier.trans h'.barrier
  intro id t'' ht'' hjob'' hentered
  obtain ⟨t', ht', hjob', hstatus'⟩ := h'.entered id t'' ht'' hjob'' hentered
  rw [← hstatus'] at hentered ⊢
  exact h.entered id t' ht' hjob' hentered

/-- A cancelled job that stands where its tickets are is `CANCELLED` when they are all terminal and
one was open or cancelled. -/
theorem cancelled_of_stands {db : Db} {jobId : Uuid} {j : EvaluationJob} (h : db.stands jobId)
    (hj : db.job jobId = some j) (hflag : j.cancellationRequestedAt.isSome)
    (hopen : ∃ t ∈ db.tickets.rows, t.jobId = jobId ∧ recordsResult t.status = false)
    (hall : ∀ t ∈ db.tickets.rows, t.jobId = jobId → t.status.isTerminal = true) :
  j.status = .cancelled
  := by
  have hclosed := (h j hj).2
  rw [hflag, progressStatus_of_cancelled hopen hall] at hclosed
  exact JobStatus.of_closed hclosed

namespace Demo

end Demo

end Evalorch
