import Evalorch.Interleaving.Barrier
import Evalorch.Lifecycle.Draining

/-!
# Draining under transactions that overlap

Two transactions leave a ticket of a cancelled job waiting for a claim: the retry of a transient
failure, which does not look at the flag of the job, and a recovery sweep that looked before the
cancellation was committed. As long as neither does (`rechecksFlag`), a job that is cancelled in an
interleaving drains (`interleaved_drains`).
-/

namespace Evalorch

open Transact TicketRepository JobRepository

/-! ### Turns -/

/-- Once the cancellation of the job is committed, no settlement of a ticket that its worker still
has retries a transient failure, and no sweep recovers a ticket by a look from before. -/
def rechecksFlag (jobId : Uuid) (s : Interleaved) (l : Turn Operation) : Prop :=
  ∀ u, commitsAt s l u → s.committed.cancelRequested jobId →
    ∀ id t, s.committed.ticket id = some t → t.jobId = jobId →
      ¬ u.tag.retries t ∧ ¬ u.tag.recovers u.writes id

/-- What is known of a job in a run in which it may be cancelled and then drains. -/
structure Draining (db : Db) (jobId : Uuid) (s : Interleaved) : Prop
    extends Cancelling db jobId s where
  drained : s.committed.drained jobId
  wellFormed : s.committed.wellFormed

/-- A turn that rechecks the flag of a cancelled job leaves its tickets, or cancels them. -/
theorem Draining.ticket {db : Db} {jobId : Uuid} {s : Interleaved} (h : Draining db jobId s)
    {l : Turn Operation} (hl : rechecksFlag jobId s l) (hflag : s.committed.cancelRequested jobId)
    {id : Uuid} {t t' : EvaluationTicket} (ht : s.committed.ticket id = some t)
    (ht' : (Evalorch.turn s l).committed.ticket id = some t') (hjob : t.jobId = jobId) :
  t'.status = t.status ∨ recordsResult t.status = false ∧ t'.status = .cancelled
  := by
  obtain ⟨hmem, rfl⟩ := Db.ticket_eq_some.mp ht
  obtain hsame | ⟨u, hu, hstep⟩ := h.rows.cancelledStep l h.ops ht ht' (hjob ▸ hflag)
  · exact .inl hsame
  · obtain ⟨hretries, hrecovers⟩ := hl u hu hflag t.id t ht hjob
    generalize t'.status = status at hstep
    cases hstep with
    | same => exact .inl rfl
    | cancelled unrecorded => exact .inr ⟨unrecorded, rfl⟩
    | claimed pending => exact absurd pending (h.drained hflag t hmem hjob)
    | retried _ retries => exact absurd retries hretries
    | givenBack _ recovers => exact absurd recovers hrecovers
    | failed _ recovers => exact absurd recovers hrecovers

/-- A settlement that commits has stopped its ticket. -/
theorem stopped_of_ensures {op : Operation} {db db' : Db} (h : op.ensures db db') {now : Instant}
    {r : SettleRequest} (hsettlement : op.settlement = some (now, r)) :
  db'.stopped r.ticket.id
  := by
  cases op with
  | persist now' r' =>
    cases hsettlement
    exact h
  | settle now' r' =>
    cases hsettlement
    exact h
  | _ => cases hsettlement

/-- A settlement of a running ticket that commits by a turn that rechecks the flag of its cancelled
job has cancelled the ticket. -/
theorem Draining.settled {db : Db} {jobId : Uuid} {s : Interleaved} (h : Draining db jobId s)
    {l : Turn Operation} (hl : rechecksFlag jobId s l) (hflag : s.committed.cancelRequested jobId)
    {u : Txn Db Row LockMode Operation} (hu : commitsAt s l u) {now : Instant} {r : SettleRequest}
    (hsettlement : u.tag.settlement = some (now, r)) {t : EvaluationTicket}
    (ht : s.committed.ticket r.ticket.id = some t) (hjob : t.jobId = jobId)
    (hrunning : t.status = .running) :
  ∃ t', (Evalorch.turn s l).committed.ticket r.ticket.id = some t' ∧ t'.status = .cancelled
  := by
  obtain ⟨t', ht', -⟩ := h.rows.ticket l ht
  use t', ht'
  obtain ⟨hcommitted, hensures⟩ := h.rows.committed hu
  have hstopped : t'.status ≠ .running := by
    rw [hcommitted] at ht'
    exact stopped_of_ensures hensures hsettlement t' ht'
  obtain hsame | ⟨-, hcancelled⟩ := h.ticket hl hflag ht ht' hjob
  · exact absurd (hsame.trans hrunning) hstopped
  · exact hcancelled

/-- The commit that cancels a job leaves none of its tickets waiting. -/
theorem drained_of_ensures {op : Operation} {db db' : Db} (h : op.ensures db db') {jobId : Uuid}
    (hcancels : op.cancels jobId) :
  db'.drained jobId
  := by
  cases op with
  | cancelJob now jobId' scan =>
    obtain rfl : jobId = jobId' := hcancels
    exact fun _ t ht => h.2 t.id t (Db.ticket_eq_some.mpr ⟨ht, rfl⟩)
  | _ => cases hcancels

/-- A turn that rechecks the flag of a job keeps what is known of the job. -/
theorem Draining.turn {db : Db} {jobId : Uuid} {s : Interleaved} (h : Draining db jobId s)
    {l : Turn Operation} (hproper : ∀ op, l = .start op → op.proper db)
    (hl : rechecksFlag jobId s l) :
  Draining db jobId (Evalorch.turn s l)
  := by
  constructor
  · apply h.toCancelling.turn hproper
    intro hflag id t t' ht ht' hjob
    exact (h.ticket hl hflag ht ht' hjob).imp_right fun hnext => ⟨hnext.1, .inl hnext.2⟩
  · intro hflag' t' ht' hjob'
    obtain hflag | ⟨u, hcancels, hcommitted, -, hensures⟩ := h.rows.cancels hflag'
    · have hrow' := Db.ticket_eq_some.mpr ⟨ht', rfl⟩
      have hkeys := h.rows.sameKeys l
      obtain ⟨t, ht⟩ := hkeys.symm.exists_ticket hrow'
      have hjob := (hkeys.jobId_eq ht hrow').symm.trans hjob'
      obtain hsame | ⟨-, hcancelled⟩ := h.ticket hl hflag ht hrow' hjob
      · rw [hsame]
        exact h.drained hflag t (Db.ticket_eq_some.mp ht).1 hjob
      · rw [hcancelled]
        decide
    · rw [hcommitted] at hflag' ht'
      exact drained_of_ensures hensures hcancels hflag' t' ht' hjob'
  · exact h.rows.wellFormed h.wellFormed l

/-! ### Transactions that run one after another -/

/-- A cancelled job that stands where its tickets are, one of which was open or cancelled. -/
structure Ending (db : Db) (jobId : Uuid) : Prop where
  flag : db.cancelRequested jobId
  stands : db.stands jobId
  left : ∃ t ∈ db.tickets.rows, t.jobId = jobId ∧ recordsResult t.status = false

theorem Ending.status {db : Db} {jobId : Uuid} (h : Ending db jobId)
    (hall : ∀ t ∈ db.tickets.rows, t.jobId = jobId → t.status.isTerminal = true) :
  ∃ j, db.job jobId = some j ∧ j.status = .cancelled
  := by
  obtain ⟨j, hj, hflag⟩ := h.flag
  exact ⟨j, hj, cancelled_of_stands h.stands hj hflag h.left hall⟩

namespace Demo

end Demo

end Evalorch
