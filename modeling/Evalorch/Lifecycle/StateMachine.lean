import Evalorch.Lifecycle.Reachable

/-!
# The ticket state machine

`allowedTicketTransitions` declares the state machine of tickets, but only `transition`
consults it: the other statements encode it in what they select and what they write. Here
each row they write is shown to be an `Advance` of the row it replaces: the status stays or
moves along an allowed transition, and a row that is well formed for its status stays so.
-/

namespace Evalorch

open Transact TicketRepository

/-! ### The declared machine -/

/-- A status is reached from another by allowed transitions. -/
def TicketStatus.leadsTo : TicketStatus → TicketStatus → Prop :=
  Relation.ReflTransGen fun current target => target ∈ allowedTicketTransitions current

/-- A status without allowed transitions leads nowhere else. -/
theorem TicketStatus.eq_of_leadsTo {current target : TicketStatus}
    (hfinal : allowedTicketTransitions current = []) (h : current.leadsTo target) :
  target = current
  := by
  induction h with
  | refl => rfl
  | tail _ hedge ih =>
    rw [ih, hfinal] at hedge
    simp at hedge

/-- `DONE`, `CANCELLED` and `NOT_APPLICABLE` have no allowed transitions. -/
theorem allowedTicketTransitions_eq_nil {status : TicketStatus} :
  allowedTicketTransitions status = []
    ↔ status = .done ∨ status = .cancelled ∨ status = .notApplicable
  := by cases status <;> simp [allowedTicketTransitions]

/-! ### Well-formed rows -/

/-- The row of a ticket fits its status. -/
structure EvaluationTicket.wellFormed (t : EvaluationTicket) : Prop where
  attempts : 0 ≤ t.attemptCount
  ready : t.status = .ready → t.attemptCount = 0
  pending : t.status.pending →
    t.workerId = none ∧ t.leaseExpiresAt = none ∧ t.completedAt = none ∧ t.resultId = none
  running : t.status = .running →
    (∃ workerId, t.workerId = some workerId ∧ workerId ≠ "") ∧ t.leaseExpiresAt.isSome = true
      ∧ t.completedAt = none ∧ t.resultId = none ∧ t.errorCode = none ∧ t.errorMessage = none
      ∧ 1 ≤ t.attemptCount
  terminal : t.status.isTerminal = true →
    t.completedAt.isSome = true ∧ t.leaseExpiresAt = none

/-- Every ticket row fits its status. -/
def Db.wellFormed (db : Db) : Prop :=
  ∀ t ∈ db.tickets.rows, t.wellFormed

/-- A row is rewritten along the state machine. -/
structure Advance (t t' : EvaluationTicket) : Prop where
  edge : t'.status = t.status ∨ t'.status ∈ allowedTicketTransitions t.status
  wellFormed : t.wellFormed → t'.wellFormed

namespace Advance

variable {t : EvaluationTicket} {now : Instant}

protected theorem refl (t : EvaluationTicket) :
  Advance t t
  := ⟨.inl rfl, id⟩

theorem leadsTo {t' : EvaluationTicket} (h : Advance t t') :
  t.status.leadsTo t'.status
  := by
  rcases h.edge with hsame | hedge
  · rw [hsame]
    exact .refl
  · exact .single hedge

theorem claimedRow {worker : Worker} {leaseSeconds : ℤ} (hpending : t.status.pending) :
  Advance t (claimedRow now worker.id leaseSeconds t)
  := by
  constructor
  · right
    rcases hpending with h | h <;> rw [h] <;> simp [TicketRepository.claimedRow,
      allowedTicketTransitions]
  · intro h
    obtain ⟨-, -, hcompleted, hresult⟩ := h.pending hpending
    have hattempts := h.attempts
    constructor
    · change 0 ≤ t.attemptCount + 1
      omega
    · simp [TicketRepository.claimedRow]
    · simp [TicketRepository.claimedRow, TicketStatus.pending]
    · intro _
      refine ⟨⟨worker.id, rfl, worker.nonempty⟩, rfl, hcompleted, hresult, rfl, rfl, ?_⟩
      change 1 ≤ t.attemptCount + 1
      omega
    · simp [TicketRepository.claimedRow, TicketStatus.isTerminal]

theorem extendedRow {leaseSeconds : ℤ} (hrunning : t.status = .running) :
  Advance t (extendedRow now leaseSeconds t)
  := by
  constructor
  · exact .inl rfl
  · intro h
    have hrow := h.running hrunning
    constructor
    · apply h.attempts
    · apply h.ready
    · simp [TicketRepository.extendedRow, hrunning, TicketStatus.pending]
    · simp [TicketRepository.extendedRow, hrow]
    · simp [TicketRepository.extendedRow, hrunning, TicketStatus.isTerminal]

/-- A row moved to a terminal status, with a completion time and no lease. -/
theorem of_terminal {t' : EvaluationTicket} (hattempts : t'.attemptCount = t.attemptCount)
    (hterminal : t'.status.isTerminal = true)
    (hedge : t'.status ∈ allowedTicketTransitions t.status)
    (hcompleted : t'.completedAt.isSome = true) (hlease : t'.leaseExpiresAt = none) :
  Advance t t'
  := by
  constructor
  · exact .inr hedge
  · intro h
    constructor
    · rw [hattempts]
      apply h.attempts
    · intro hready
      simp [hready, TicketStatus.isTerminal] at hterminal
    · rintro (hpending | hpending) <;> simp [hpending, TicketStatus.isTerminal] at hterminal
    · intro hrunning
      simp [hrunning, TicketStatus.isTerminal] at hterminal
    · exact fun _ => ⟨hcompleted, hlease⟩

/-- A running row given back to `RETRY`. -/
theorem of_retry {t' : EvaluationTicket} (hrunning : t.status = .running)
    (hattempts : t'.attemptCount = t.attemptCount) (hretry : t'.status = .retry)
    (hworker : t'.workerId = none) (hlease : t'.leaseExpiresAt = none)
    (hcompleted : t'.completedAt = t.completedAt) (hresult : t'.resultId = t.resultId) :
  Advance t t'
  := by
  constructor
  · right
    rw [hretry, hrunning]
    simp [allowedTicketTransitions]
  · intro h
    obtain ⟨-, -, hnotCompleted, hnoResult, -⟩ := h.running hrunning
    constructor
    · rw [hattempts]
      apply h.attempts
    · simp [hretry]
    · intro _
      rw [hcompleted, hresult]
      exact ⟨hworker, hlease, hnotCompleted, hnoResult⟩
    · simp [hretry]
    · simp [hretry, TicketStatus.isTerminal]

theorem transitionRow {target : TicketStatus} {s : Settlement} (hrunning : t.status = .running)
    (hallowed : target ∈ allowedTicketTransitions .running) :
  Advance t (transitionRow now target s t)
  := by
  have hedge : target ∈ allowedTicketTransitions t.status := by
    rw [hrunning]
    apply hallowed
  cases target with
  | retry => exact of_retry hrunning rfl rfl rfl rfl rfl rfl
  | done => exact of_terminal rfl rfl hedge rfl rfl
  | failed => exact of_terminal rfl rfl hedge rfl rfl
  | notApplicable => exact of_terminal rfl rfl hedge rfl rfl
  | cancelled => exact of_terminal rfl rfl hedge rfl rfl
  | ready => simp [allowedTicketTransitions] at hallowed
  | running => simp [allowedTicketTransitions] at hallowed

theorem cancelledRow {message : String} (hopen : t.status.pending ∨ t.status = .running) :
  Advance t (cancelledRow now message t)
  := by
  apply of_terminal
  · rfl
  · rfl
  · rcases hopen with (h | h) | h <;> rw [h] <;> simp [TicketRepository.cancelledRow,
      allowedTicketTransitions]
  · rfl
  · rfl

theorem resetRow (hfailed : t.status = .failed) :
  Advance t (resetRow now t)
  := by
  constructor
  · right
    rw [hfailed]
    simp [TicketRepository.resetRow, allowedTicketTransitions]
  · intro _
    constructor <;> simp [TicketRepository.resetRow, TicketStatus.isTerminal]

theorem recoveredRow {cancelled : Bool} {delay : Duration} (hrunning : t.status = .running) :
  Advance t (recoveredRow now cancelled delay t)
  := by
  by_cases hretry : cancelled = false ∧ t.attemptCount < t.maxAttempts
  · obtain ⟨rfl, hleft⟩ := hretry
    have hnot : ¬ t.attemptCount ≥ t.maxAttempts := by omega
    apply of_retry hrunning <;> simp [TicketRepository.recoveredRow, hnot]
  · apply of_terminal
    · rfl
    · cases cancelled with
      | true => rfl
      | false =>
        have hover : t.attemptCount ≥ t.maxAttempts := by
          simp only [true_and] at hretry
          omega
        simp [TicketRepository.recoveredRow, hover, TicketStatus.isTerminal]
    · rw [hrunning]
      unfold TicketRepository.recoveredRow
      simp only
      split
      · simp [allowedTicketTransitions]
      · split <;> simp [allowedTicketTransitions]
    · cases cancelled with
      | true => rfl
      | false =>
        have hover : t.attemptCount ≥ t.maxAttempts := by
          simp only [true_and] at hretry
          omega
        simp [TicketRepository.recoveredRow, hover]
    · rfl

end Advance

/-- Every move of a ticket advances it. -/
theorem Move.advance {db db' : Db} {a : Action} {t t' : EvaluationTicket}
    (h : Move db db' a t t') :
  Advance t t'
  := by
  cases h with
  | stay => exact .refl t
  | claimed leaseSeconds pending => exact .claimedRow pending
  | extended leaseSeconds owns => exact .extendedRow (owned_iff.mp owns).1
  | cancelled s id owns =>
    exact .transitionRow (owned_iff.mp owns).1 (by simp [allowedTicketTransitions])
  | retried s id owns =>
    exact .transitionRow (owned_iff.mp owns).1 (by simp [allowedTicketTransitions])
  | recorded s id owns records =>
    apply Advance.transitionRow (owned_iff.mp owns).1
    cases ‹TicketStatus› <;> simp_all [recordsResult, allowedTicketTransitions]
  | cancelledUnclaimed message pending => exact .cancelledRow (.inl pending)
  | reset failed => exact .resetRow failed
  | recovered delay passed => exact .recoveredRow (expired_iff.mp passed).1
  | swept message passed => exact .cancelledRow (.inr (expired_iff.mp passed).1)

/-! ### Databases -/

/-- Every ticket of a database comes from a ticket of another that it advances. -/
def Db.advancesTo (db db' : Db) : Prop :=
  ∀ ticketId t', db'.ticket ticketId = some t' →
    ∃ t, db.ticket ticketId = some t ∧ Advance t t'

theorem Db.wellFormed.of_advancesTo {db db' : Db} (h : db.wellFormed) (hadv : db.advancesTo db') :
  db'.wellFormed
  := by
  intro t' ht'
  obtain ⟨t, ht, hstep⟩ := hadv t'.id t' (Db.ticket_eq_some.mpr ⟨ht', rfl⟩)
  apply hstep.wellFormed (h t (Db.ticket_eq_some.mp ht).1)

theorem advancesTo_of_change {a : Action} {db db' : Db} (h : Change a db db') :
  db.advancesTo db'
  := by
  intro ticketId t' ht'
  obtain ⟨t, ht, hmove⟩ := h.exists_ticket_before ht'
  exact ⟨t, ht, hmove.advance⟩

/-- An update whose rows advance the selected ones. -/
theorem advancesTo_updateTickets {db : Db} {selects : EvaluationTicket → Bool}
    {set : EvaluationTicket → EvaluationTicket} (keepsId : ∀ t, (set t).id = t.id)
    (keepsJob : ∀ t, (set t).jobId = t.jobId)
    (h : ∀ t ∈ db.tickets.rows, selects t = true → Advance t (set t)) :
  db.advancesTo (db.updateTickets selects set keepsId keepsJob)
  := by
  intro ticketId t' ht'
  rw [Db.ticket_updateTickets] at ht'
  obtain ⟨t, ht, rfl⟩ := Option.map_eq_some_iff.mp ht'
  use t, ht
  unfold patch
  split
  case isTrue hsel => apply h t (Db.ticket_eq_some.mp ht).1 hsel
  case isFalse => exact .refl t

/-- The statements that rewrite tickets, as functions of the repository and, for `transition`,
of the service that calls it. -/
inductive Mutates : Db → Db → Prop where
  | claim {locked limit} {worker : Worker} {leaseSeconds jobId db tickets db'}
      (h : claim locked limit worker.id leaseSeconds jobId db = .ok (tickets, db')) :
      Mutates db db'
  | transition {ticketId target s jobId workerId db r db'}
      (h : settleTicket ticketId target s jobId workerId db = .ok (r, db')) : Mutates db db'
  | cancelUnclaimed (jobId : Uuid) (db : Db) : Mutates db (cancelUnclaimed jobId db).2
  | resetFailed (jobId : Uuid) (db : Db) : Mutates db (resetFailed jobId db).2
  | recoverExpiredLeases (locked : Uuid → Bool) (jitter : Uuid → Duration) (limit : ℕ) (db : Db) :
      Mutates db (recoverExpiredLeases locked jitter limit db).2
  | cancelRunningForCancelledJobs (locked : Uuid → Bool) (limit : ℕ) (db : Db) :
      Mutates db (cancelRunningForCancelledJobs locked limit db).2

/-- A row selected for an update by its identifier was selected by the query. -/
theorem selects_of_contains {db : Db} {selects : EvaluationTicket → Bool}
    {order : EvaluationTicket → EvaluationTicket → Bool} {locked : Uuid → Bool} {limit : ℕ}
    {t : EvaluationTicket} (ht : t ∈ db.tickets.rows)
    (h : (selectForUpdate db selects order locked limit).contains t.id = true) :
  selects t = true
  := selects_of_mem ht (List.contains_iff_mem.mp h)

/-- Each of the statements advances the tickets it rewrites. -/
theorem Mutates.advancesTo {db db' : Db} (h : Mutates db db') :
  db.advancesTo db'
  := by
  cases h with
  | claim h =>
    obtain ⟨ids, hids, rfl, -, -⟩ := claim_ok h
    refine advancesTo_updateTickets _ _ ?_
    intro t ht hsel
    exact .claimedRow (claimable_iff (hids t ht (List.contains_iff_mem.mp hsel))).1
  | transition h =>
    obtain ⟨worker, jobId, current, -, -, -, -, hallowed, rfl⟩ := settleTicket_returns h
    rw [JobRepository.recomputeProgress_db]
    refine advancesTo_updateTickets (transitionRow_id _ _ _) (transitionRow_jobId _ _ _) ?_
    intro t ht hsel
    rw [Bool.and_eq_true] at hsel
    exact .transitionRow (owned_iff.mp hsel.2).1 hallowed
  | cancelUnclaimed jobId =>
    apply advancesTo_updateTickets
    case h =>
      intro t ht hsel
      exact .cancelledRow (.inl (unclaimedOf_iff.mp hsel).2)
    case keepsJob => exact fun _ => rfl
  | resetFailed jobId =>
    apply advancesTo_updateTickets
    case h =>
      intro t ht hsel
      exact .resetRow (failedOf_iff.mp hsel).2
    case keepsJob => exact fun _ => rfl
  | recoverExpiredLeases locked jitter limit =>
    apply advancesTo_updateTickets
    case h =>
      intro t ht hsel
      exact .recoveredRow (expired_iff.mp (selects_of_contains ht hsel)).1
    case keepsJob => exact fun _ => rfl
  | cancelRunningForCancelledJobs locked limit =>
    apply advancesTo_updateTickets
    case h =>
      intro t ht hsel
      have hexpired := selects_of_contains ht hsel
      rw [Bool.and_eq_true] at hexpired
      exact .cancelledRow (.inr (expired_iff.mp hexpired.1).1)
    case keepsJob => exact fun _ => rfl

/-- The tickets of a new job are well formed. -/
theorem wellFormed_of_created {p : PreparedJob} {db db' : Db} (h : db.wellFormed)
    (hcreated : Created p db db') :
  db'.wellFormed
  := by
  intro t ht
  rw [hcreated.tickets] at ht
  rcases List.mem_append.mp ht with ht | ht
  · apply h t ht
  · obtain ⟨q, -, rfl⟩ := List.mem_map.mp ht
    constructor <;> simp [PreparedTicket.ticket, TicketStatus.isTerminal]

/-- Every reachable ticket row is well formed. -/
theorem wellFormed_after (settings : Settings) (labels : List Label) :
  (System.after settings labels).db.wellFormed
  := by
  apply after_keeps Db.wellFormed
  · simp [Db.wellFormed, Db.empty, Table.empty]
  · intro p db db' h hcreated
    apply wellFormed_of_created h hcreated
  · intro a db db' h hchange
    apply h.of_advancesTo (advancesTo_of_change hchange)

/-- The status of a ticket at the end of a run is one its status at the start leads to. -/
theorem leadsTo_run {settings : Settings} {s : System} (hs : s.sound) (labels : List Label)
    {ticketId : Uuid} {t : EvaluationTicket} (ht : s.db.ticket ticketId = some t) :
  ∃ t', (run (System.step settings) s labels).db.ticket ticketId = some t'
    ∧ t.status.leadsTo t'.status
  := by
  let leads (db db' : Db) : Prop := ∀ ticketId t, db.ticket ticketId = some t →
    ∃ t', db'.ticket ticketId = some t' ∧ t.status.leadsTo t'.status
  suffices h : leads s.db (run (System.step settings) s labels).db from h ticketId t ht
  apply run_across (fun _ => True) leads _ _ _ _ hs trivial
  · intro p db db' _ hcreated
    use trivial
    intro ticketId t ht
    exact ⟨t, hcreated.ticket ht, .refl⟩
  · intro a db db' _ hchange
    use trivial
    intro ticketId t ht
    obtain ⟨t', ht', hmove⟩ := hchange.exists_ticket ht
    exact ⟨t', ht', hmove.advance.leadsTo⟩
  · intro db ticketId t ht
    exact ⟨t, ht, .refl⟩
  · intro db db' db'' h h' ticketId t ht
    obtain ⟨t', ht', hleads⟩ := h ticketId t ht
    obtain ⟨t'', ht'', hleads'⟩ := h' ticketId t' ht'
    exact ⟨t'', ht'', hleads.trans hleads'⟩

/-- The statements refine the declared state machine: in every reachable state rows are well
formed, each statement and each step moves tickets along allowed transitions and keeps rows
well formed, and a ticket in a final status keeps it. -/
theorem refines_allowedTicketTransitions (settings : Settings) (labels : List Label) :
  (System.after settings labels).db.wellFormed
    ∧ (∀ db', Mutates (System.after settings labels).db db' →
        db'.wellFormed ∧ ∀ ticketId t', db'.ticket ticketId = some t' →
          ∃ t, (System.after settings labels).db.ticket ticketId = some t
            ∧ (t'.status = t.status ∨ t'.status ∈ allowedTicketTransitions t.status))
    ∧ (∀ l ticketId t, (System.after settings labels).db.ticket ticketId = some t →
        ∃ t', ((System.after settings labels).step settings l).db.ticket ticketId = some t'
          ∧ (t'.status = t.status ∨ t'.status ∈ allowedTicketTransitions t.status))
    ∧ ∀ more ticketId t, (System.after settings labels).db.ticket ticketId = some t →
        (t.status = .done ∨ t.status = .cancelled ∨ t.status = .notApplicable) →
        ∃ t', (System.after settings (labels ++ more)).db.ticket ticketId = some t'
          ∧ t'.status = t.status
  := by
  have hsound := sound_after settings labels
  refine ⟨wellFormed_after settings labels, ?_, ?_, ?_⟩
  · intro db' hmutates
    use (wellFormed_after settings labels).of_advancesTo hmutates.advancesTo
    intro ticketId t' ht'
    obtain ⟨t, ht, hadvance⟩ := hmutates.advancesTo ticketId t' ht'
    exact ⟨t, ht, hadvance.edge⟩
  · intro l ticketId t ht
    obtain hsame | ⟨p, hcreated⟩ | ⟨a, -, hchange⟩ := step_cases settings hsound l
    · rw [hsame]
      exact ⟨t, ht, .inl rfl⟩
    · exact ⟨t, hcreated.ticket ht, .inl rfl⟩
    · obtain ⟨t', ht', hmove⟩ := hchange.exists_ticket ht
      exact ⟨t', ht', hmove.advance.edge⟩
  · intro more ticketId t ht hfinal
    obtain ⟨t', ht', hleads⟩ := leadsTo_run hsound more ht
    use t'
    constructor
    · rw [System.after_append]
      apply ht'
    · apply TicketStatus.eq_of_leadsTo (allowedTicketTransitions_eq_nil.mpr hfinal) hleads

end Evalorch
