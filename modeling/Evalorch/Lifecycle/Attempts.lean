import Evalorch.Lifecycle.Cancellation

/-!
# Attempts

A claim counts an attempt without a look at `max_attempts`: what bounds the attempts is that
a ticket is not given back to `RETRY` once it has none left. Recovery decides that on the row,
but an execution decides it on the copy of the ticket that its claim returned. While the copy
is older than the row the two may disagree; `Action.retriesInTime` excludes a retry that the
row does not allow.
-/

namespace Evalorch

open Transact TicketRepository JobRepository

/-- A ticket is retried with an up-to-date copy, or while its row has attempts left, or when its
job is cancelled, so that it is not claimed again. -/
def Action.retriesInTime : Action → Db → Prop
  | .execute ticket worker tag, db =>
      tag = .retryTransient ∨ tag = .persist .retry →
        ∀ t, db.ticket ticket.id = some t → owned worker.id t = true →
          ticket.attemptCount = t.attemptCount ∨ t.attemptCount < t.maxAttempts
            ∨ db.cancelRequested t.jobId
  | _, _ => True

/-! ### The ceiling -/

/-- A ticket has used no more attempts than it may, and one that waits for a claim has one
left, unless its job is cancelled. -/
structure EvaluationTicket.withinAttempts (db : Db) (t : EvaluationTicket) : Prop where
  nonneg : 0 ≤ t.attemptCount
  le : t.attemptCount ≤ t.maxAttempts
  one_le : 1 ≤ t.maxAttempts
  left : t.status.pending → ¬ db.cancelRequested t.jobId → t.attemptCount < t.maxAttempts

/-- Every ticket is within its attempts. -/
def Db.withinAttempts (db : Db) : Prop :=
  ∀ t ∈ db.tickets.rows, t.withinAttempts db

/-- A settlement keeps the attempts, and one with a result ends them. -/
theorem transitionRow_records_attempts (now : Instant) {target : TicketStatus} (s : Settlement)
    (t : EvaluationTicket) (hrecords : recordsResult target = true) :
  (transitionRow now target s t).attemptCount = t.attemptCount
    ∧ ¬ (transitionRow now target s t).status.pending
  := by
  cases target <;> simp [recordsResult] at hrecords <;>
    exact ⟨rfl, by simp [transitionRow, TicketStatus.pending]⟩

/-- A claim counts an attempt, a reset starts over, and every other move keeps the attempts. -/
theorem Move.attempts {db db' : Db} {a : Action} {t t' : EvaluationTicket}
    (h : Move db db' a t t') :
  t'.attemptCount = t.attemptCount
    ∨ (∃ worker, a = .claim worker ∧ t'.attemptCount = t.attemptCount + 1 ∧ t.status.pending
        ∧ t'.status = .running ∧ ¬ db.cancelRequested t.jobId)
    ∨ t.status = .failed ∧ t'.status = .ready ∧ t'.attemptCount = 0
  := by
  cases h with
  | claimed _ pending _ job =>
    exact .inr (.inl ⟨_, rfl, rfl, pending, rfl, not_cancelRequested_of_claimable job⟩)
  | reset failed => exact .inr (.inr ⟨failed, rfl, rfl⟩)
  | recorded s _ _ records => exact .inl (transitionRow_records_attempts db.now s t records).1
  | _ => exact .inl rfl

/-- A ticket that waits after a move waited before, was reset, was retried by an execution, or
was recovered with attempts left. -/
theorem Move.pending {db db' : Db} {a : Action} {t t' : EvaluationTicket}
    (h : Move db db' a t t') (hpending : t'.status.pending) :
  t' = t
    ∨ (t.status = .failed ∧ t'.status = .ready ∧ t'.attemptCount = 0)
    ∨ (∃ ticket worker tag, a = .execute ticket worker tag
        ∧ (tag = .retryTransient ∨ tag = .persist .retry) ∧ t.id = ticket.id
        ∧ owned worker.id t = true ∧ ticket.attemptCount < t.maxAttempts)
    ∨ t.attemptCount < t.maxAttempts
  := by
  cases h with
  | stay => exact .inl rfl
  | reset failed => exact .inr (.inl ⟨failed, rfl, rfl⟩)
  | retried s id owns left tag_eq =>
    exact .inr (.inr (.inl ⟨_, _, _, rfl, tag_eq.imp_right And.left, id, owns, left⟩))
  | recovered delay passed =>
    right
    right
    right
    by_contra hnone
    have hover : t.attemptCount ≥ t.maxAttempts := not_lt.mp hnone
    revert hpending
    cases jobCancelled db t <;> simp [recoveredRow, hover, TicketStatus.pending]
  | recorded s _ _ records =>
    exact absurd hpending (transitionRow_records_attempts db.now s t records).2
  | extended _ owns =>
    have hrunning := (owned_iff.mp owns).1
    simp [extendedRow, hrunning, TicketStatus.pending] at hpending
  | claimed => simp [claimedRow, TicketStatus.pending] at hpending
  | cancelled => simp [transitionRow, TicketStatus.pending] at hpending
  | cancelledUnclaimed => simp [cancelledRow, TicketStatus.pending] at hpending
  | swept => simp [cancelledRow, TicketStatus.pending] at hpending

/-- A move in time stays within the attempts. -/
theorem Move.withinAttempts {db db' : Db} {a : Action} {t t' : EvaluationTicket}
    (h : Move db db' a t t') (ht : db.ticket t.id = some t) (hin : t.withinAttempts db)
    (htime : a.retriesInTime db)
    (hflag : db.cancelRequested t.jobId → db'.cancelRequested t.jobId) :
  t'.withinAttempts db'
  := by
  obtain ⟨-, hjob, hmax⟩ := h.id_jobId
  obtain ⟨hnonneg, hle, hone, hleft⟩ := hin
  rcases h.attempts with hsame | ⟨worker, -, hnext, hpending, hrunning, hnot⟩ | ⟨-, -, hzero⟩
  · refine ⟨hsame ▸ hnonneg, hsame ▸ hmax ▸ hle, hmax ▸ hone, ?_⟩
    intro hpending hnot
    rw [hjob] at hnot
    rw [hsame, hmax]
    rcases h.pending hpending with rfl | ⟨-, -, hzero⟩
        | ⟨ticket, worker, tag, rfl, hretries, hid, howns, hcopy⟩ | hlt
    · apply hleft hpending fun hset => hnot (hflag hset)
    · omega
    · rcases htime hretries t (hid ▸ ht) howns with hcurrent | hlt | hset
      · rw [← hcurrent]
        apply hcopy
      · apply hlt
      · exact absurd (hflag hset) hnot
    · apply hlt
  · have hlt := hleft hpending hnot
    constructor
    · omega
    · omega
    · omega
    · rintro (hready | hretry)
      · simp [hrunning] at hready
      · simp [hrunning] at hretry
  · constructor
    · omega
    · omega
    · omega
    · intro _ _
      omega

theorem withinAttempts_of_change {a : Action} {db db' : Db} (h : db.withinAttempts)
    (htime : a.retriesInTime db) (hchange : Change a db db') :
  db'.withinAttempts
  := by
  obtain ⟨f, g, hby⟩ := hchange
  intro t' ht'
  obtain ⟨t, ht, rfl⟩ := hby.mem_tickets.mp ht'
  apply (hby.moves t ht).withinAttempts (Db.ticket_eq_some.mpr ⟨ht, rfl⟩) (h t ht) htime
    hby.cancelRequested

theorem withinAttempts_of_created {p : PreparedJob} {db db' : Db} (h : db.withinAttempts)
    (hcreated : Created p db db') :
  db'.withinAttempts
  := by
  intro t ht
  rw [hcreated.tickets] at ht
  rcases List.mem_append.mp ht with hold | hnew
  · obtain ⟨hnonneg, hle, hone, hleft⟩ := h t hold
    refine ⟨hnonneg, hle, hone, ?_⟩
    rw [hcreated.cancelRequested]
    apply hleft
  · have hchecks := hcreated.checks t hnew
    obtain ⟨q, -, rfl⟩ := List.mem_map.mp hnew
    simp only [Db.ticketChecks, Bool.and_eq_true, decide_eq_true_eq] at hchecks
    have hone := hchecks.1.1
    refine ⟨hchecks.1.2, ?_, hone, ?_⟩
    · change 0 ≤ _
      omega
    · intro _ _
      change 0 < _
      omega

/-- Tickets are within their attempts after every run that retries in time. -/
theorem withinAttempts_after {settings : Settings} {labels : List Label}
    (htime : System.initial.respects settings Action.retriesInTime labels) :
  (System.after settings labels).db.withinAttempts
  := by
  apply run_keeps Db.withinAttempts Action.retriesInTime _ _ sound_initial _ htime
  · exact fun _ _ _ h hcreated => withinAttempts_of_created h hcreated
  · exact fun _ _ _ h htime hchange => withinAttempts_of_change h htime hchange
  · simp [Db.withinAttempts, System.initial, Db.empty, Table.empty]

/-! ### Claims never violate the attempts constraint -/

/-- While tickets are within their attempts, every claim returns. -/
theorem exists_claimTickets {db : Db} (h : db.withinAttempts) (settings : Settings)
    (locked : Uuid → Bool) (worker : Worker) (limit : Option ℕ) (leaseSeconds : Option ℤ)
    (jobId : Option Uuid) :
  ∃ r, claimTickets settings locked worker limit leaseSeconds jobId db = .ok r
  := by
  have hclaim : ∀ batch lease, ∃ r, claim locked batch worker.id lease jobId db = .ok r := by
    intro batch lease
    unfold claim
    set ids := selectForUpdate db (claimable db jobId) claimOrder locked batch with hids
    simp only
    split
    case isTrue => exact ⟨_, rfl⟩
    case isFalse =>
      rw [if_pos]
      · exact ⟨_, rfl⟩
      · rw [List.all_eq_true]
        intro t' ht'
        obtain ⟨t, ht, hid, rfl⟩ := mem_taken.mp ht'
        obtain ⟨hpending, -, hjob⟩ := claimable_iff (selects_of_mem ht hid)
        have hlt := (h t ht).left hpending (not_cancelRequested_of_claimable hjob)
        have hnonneg := (h t ht).nonneg
        have hone := (h t ht).one_le
        simp only [Db.ticketChecks, Bool.and_eq_true, decide_eq_true_eq]
        change (1 ≤ t.maxAttempts ∧ 0 ≤ t.attemptCount + 1)
          ∧ t.attemptCount + 1 ≤ t.maxAttempts + 1
        omega
  unfold claimTickets
  obtain ⟨⟨tickets, db'⟩, hr⟩ := hclaim ((limit.filter (· != 0)).getD settings.runnerClaimBatchSize)
    ((leaseSeconds.filter (· != 0)).getD settings.runnerLeaseSeconds)
  simp only [hr, bind, Except.bind]
  split
  case isTrue => exact ⟨_, rfl⟩
  case isFalse => exact ⟨_, rfl⟩

/-! ### Counting claims -/

/-- The step claims the ticket. -/
def System.claimsTicket (settings : Settings) (ticketId : Uuid) (s : System) : Label → Bool
  | .claim worker limit leaseSeconds jobId locked _ =>
      match claimTickets settings locked worker limit leaseSeconds jobId s.db with
      | .error _ => false
      | .ok (tickets, _) => tickets.any (·.id = ticketId)
  | _ => false

/-- The step resets the ticket: a retry request moves it from `FAILED` to `READY`. -/
def System.resetsTicket (settings : Settings) (ticketId : Uuid) (s : System) (l : Label) : Prop :=
  (s.db.ticket ticketId).map EvaluationTicket.status = some .failed
    ∧ ((s.step settings l).db.ticket ticketId).map EvaluationTicket.status = some .ready

/-- The attempts of a ticket, none while it does not exist. -/
def Db.attempts (db : Db) (ticketId : Uuid) : ℤ :=
  ((db.ticket ticketId).map EvaluationTicket.attemptCount).getD 0

/-- A claim counts an attempt of each ticket that it returns. -/
theorem attempts_claim {settings : Settings} {locked : Uuid → Bool} {worker : Worker}
    {limit : Option ℕ} {leaseSeconds : Option ℤ} {jobId : Option Uuid} {db db' : Db}
    {tickets : List EvaluationTicket}
    (h : claimTickets settings locked worker limit leaseSeconds jobId db = .ok (tickets, db'))
    (ticketId : Uuid) :
  db'.attempts ticketId
    = db.attempts ticketId + if tickets.any (·.id = ticketId) then 1 else 0
  := by
  obtain ⟨ids, lease, -, rfl, -, rfl⟩ := claimTickets_ok h
  set taken := takenBy ids worker.id lease db with htaken
  have hrow : (markRunningIfPending
      ((taken.tickets.rows.filter fun t => ids.contains t.id).map (·.jobId)).dedup
      taken).2.ticket ticketId
      = (db.ticket ticketId).map
        (patch (fun t => ids.contains t.id) (claimedRow db.now worker.id lease)) := by
    change taken.ticket ticketId = _
    rw [htaken, takenBy, Db.ticket_updateTickets]
  have hreturned : ((taken.tickets.rows.filter fun t => ids.contains t.id).any
      (·.id = ticketId)) = true ↔ ∃ t ∈ db.tickets.rows, t.id ∈ ids ∧ t.id = ticketId := by
    rw [List.any_eq_true]
    constructor
    · rintro ⟨t', ht', hid⟩
      obtain ⟨t, ht, hin, rfl⟩ := mem_taken.mp ht'
      exact ⟨t, ht, hin, of_decide_eq_true hid⟩
    · rintro ⟨t, ht, hin, hid⟩
      exact ⟨_, mem_taken.mpr ⟨t, ht, hin, rfl⟩, decide_eq_true hid⟩
  unfold Db.attempts
  rw [hrow]
  cases ht : db.ticket ticketId with
  | none =>
    rw [if_neg]
    · rfl
    · rw [hreturned]
      rintro ⟨t, hmem, -, hid⟩
      rw [Db.ticket_eq_some.mpr ⟨hmem, hid⟩] at ht
      cases ht
  | some t =>
    obtain ⟨hmem, rfl⟩ := Db.ticket_eq_some.mp ht
    by_cases hin : t.id ∈ ids
    · have hcontains : ids.contains t.id = true := List.contains_iff_mem.mpr hin
      rw [if_pos (hreturned.mpr ⟨t, hmem, hin, rfl⟩), Option.map_some, patch, if_pos hcontains]
      rfl
    · rw [if_neg, Option.map_some, patch_of_neg (by simpa using hin)]
      · apply (add_zero _).symm
      · rw [hreturned]
        rintro ⟨t', -, hin', hid⟩
        apply hin (hid ▸ hin')

/-- A step that does not reset the ticket counts an attempt of it when it claims it. -/
theorem attempts_step {settings : Settings} {s : System} (hs : s.sound) {l : Label}
    {ticketId : Uuid} (hnot : ¬ s.resetsTicket settings ticketId l) :
  (s.step settings l).db.attempts ticketId
    = s.db.attempts ticketId + if s.claimsTicket settings ticketId l then 1 else 0
  := by
  by_cases hclaim : ∃ worker limit leaseSeconds jobId locked collaborators,
      l = .claim worker limit leaseSeconds jobId locked collaborators
  · obtain ⟨worker, limit, leaseSeconds, jobId, locked, collaborators, rfl⟩ := hclaim
    cases h : claimTickets settings locked worker limit leaseSeconds jobId s.db with
    | error e => simp [System.step, System.claimed, System.claimsTicket, h]
    | ok r =>
      simp only [System.step, System.claimed, System.claimsTicket, h]
      apply attempts_claim h ticketId
  · have hnone : s.claimsTicket settings ticketId l = false := by
      cases l with
      | claim worker limit leaseSeconds jobId locked collaborators =>
        exact absurd ⟨_, _, _, _, _, _, rfl⟩ hclaim
      | _ => rfl
    rw [hnone, if_neg Bool.false_ne_true, add_zero]
    unfold Db.attempts
    obtain hsame | ⟨p, hcreated⟩ | ⟨a, hperforms, hchange⟩ := step_cases settings hs l
    · rw [hsame]
    · cases ht : s.db.ticket ticketId with
      | some t => rw [hcreated.ticket ht]
      | none =>
        cases ht' : (s.step settings l).db.ticket ticketId with
        | none => rfl
        | some t' =>
          obtain ⟨hmem, hid⟩ := Db.ticket_eq_some.mp ht'
          rw [hcreated.tickets] at hmem
          rcases List.mem_append.mp hmem with hold | hnew
          · rw [Db.ticket_eq_some.mpr ⟨hold, hid⟩] at ht
            cases ht
          · obtain ⟨q, -, rfl⟩ := List.mem_map.mp hnew
            rfl
    · cases ht' : (s.step settings l).db.ticket ticketId with
      | none =>
        cases ht : s.db.ticket ticketId with
        | none => rfl
        | some t =>
          obtain ⟨t', hsome, -⟩ := hchange.exists_ticket ht
          rw [hsome] at ht'
          cases ht'
      | some t' =>
        obtain ⟨t, ht, hmove⟩ := hchange.exists_ticket_before ht'
        rw [ht]
        rcases hmove.attempts with hsame | ⟨worker, rfl, -⟩ | ⟨hfailed, hready, -⟩
        · simp [hsame]
        · cases l <;> simp [System.performs] at hperforms
          exact absurd ⟨_, _, _, _, _, _, rfl⟩ hclaim
        · refine absurd ⟨?_, ?_⟩ hnot
          · rw [ht, Option.map_some, hfailed]
          · rw [ht', Option.map_some, hready]

/-- A run that does not reset the ticket counts its claims of it. -/
theorem attempts_run {settings : Settings} {s : System} (hs : s.sound) {labels : List Label}
    {ticketId : Uuid}
    (h : Along (System.step settings) (fun s l => ¬ s.resetsTicket settings ticketId l) s labels) :
  (run (System.step settings) s labels).db.attempts ticketId
    = s.db.attempts ticketId
      + steps (System.step settings) (System.claimsTicket settings ticketId) s labels
  := run_counts System.sound (fun s l => ¬ s.resetsTicket settings ticketId l)
    (System.claimsTicket settings ticketId) (fun s => s.db.attempts ticketId)
    (fun _ l hs => sound_step hs l) (fun _ _ hs hnot => attempts_step hs hnot) hs h

/-- The attempt ceiling holds as long as executions retry in time: a ticket has used between
none and all of its attempts, between two resets it is claimed that often at most, and no claim
violates the constraint on attempts. -/
theorem attempt_ceiling (settings : Settings) (labels : List Label)
    (htime : System.initial.respects settings Action.retriesInTime labels) :
  let db := (System.after settings labels).db
  (∀ t ∈ db.tickets.rows, 0 ≤ t.attemptCount ∧ t.attemptCount ≤ t.maxAttempts)
    ∧ (∀ t ∈ db.tickets.rows, ∀ before between, labels = before ++ between →
        Along (System.step settings) (fun s l => ¬ s.resetsTicket settings t.id l)
          (System.after settings before) between →
        steps (System.step settings) (System.claimsTicket settings t.id)
          (System.after settings before) between ≤ t.maxAttempts)
    ∧ ∀ locked worker limit leaseSeconds jobId,
        ∃ r, claimTickets settings locked worker limit leaseSeconds jobId db = .ok r
  := by
  intro db
  have hin : db.withinAttempts := withinAttempts_after htime
  refine ⟨?_, ?_, ?_⟩
  · exact fun t ht => ⟨(hin t ht).nonneg, (hin t ht).le⟩
  · rintro t ht before between rfl hnoReset
    have hcount := attempts_run (sound_after settings before) hnoReset
    rw [← System.after_append] at hcount
    have hend : (System.after settings (before ++ between)).db.attempts t.id = t.attemptCount := by
      unfold Db.attempts
      rw [Db.ticket_eq_some.mpr ⟨ht, rfl⟩]
      rfl
    have hstart : 0 ≤ (System.after settings before).db.attempts t.id := by
      unfold Db.attempts
      cases hticket : (System.after settings before).db.ticket t.id with
      | none => apply le_refl 0
      | some t₀ =>
        have hmem := (Db.ticket_eq_some.mp hticket).1
        apply (wellFormed_after settings before t₀ hmem).attempts
    have hle := (hin t ht).le
    rw [hend] at hcount
    omega
  · exact fun locked worker limit leaseSeconds jobId =>
      exists_claimTickets hin settings locked worker limit leaseSeconds jobId

namespace Demo

/-- A job with a ticket that may be attempted three times. -/
def patientJob : PreparedJob :=
  { job with tickets := [{ ticket with maxAttempts := 3 }] }

/-- An evaluation that ends in a timeout. -/
def timesOut : Except Exn EvaluatorOutput :=
  .error (.timeout "timed out")

/-- An execution with an up-to-date copy of its ticket retries in time. -/
theorem retriesInTime_of_current {s : System} {index : ℕ} {failure : Option Exn}
    (hcurrent : (s.runs[index]?.all fun r => (s.db.ticket r.ticket.id).all fun t =>
      r.ticket.attemptCount = t.attemptCount) = true) :
  ∀ a, s.performs (.execute index failure) a → a.retriesInTime s.db
  := by
  rintro a ⟨-, r, tag, hr, -, rfl⟩
  intro _ t ht _
  left
  simpa [hr, ht] using hcurrent

/-- An evaluation times out, and its worker gives the ticket back and claims it again. -/
def claimedTwice : List Label :=
  [.createJob patientJob, claim worker timesOut, .execute 0 none, .execute 0 none,
    .tick 400000000, claim worker timesOut]

/-- The demo ticket is retried by its first execution, and is at the second of its three
attempts. -/
theorem attempt_ceiling_claimedTwice :
  ∃ t, (System.after .default claimedTwice).db.ticket 10 = some t
    ∧ t.status = .running ∧ t.attemptCount = 2 ∧ t.attemptCount ≤ t.maxAttempts
  := by
  have hrow : ((System.after .default claimedTwice).db.ticket 10).any
      (fun t => t.status = .running && t.attemptCount = 2) = true := by decide +kernel
  obtain ⟨t, ht, hrow⟩ := (Option.any_eq_true _ _).mp hrow
  obtain ⟨hrunning, htwo⟩ := Bool.and_eq_true_iff.mp hrow
  have htime : System.initial.respects .default Action.retriesInTime claimedTwice := by
    refine ⟨?_, ?_, retriesInTime_of_current ?_, retriesInTime_of_current ?_, ?_, ?_, trivial⟩
    case refine_3 => decide +kernel
    case refine_4 => decide +kernel
    all_goals
      intro a ha
      cases ha <;> trivial
  obtain ⟨hbounds, -, -⟩ := attempt_ceiling .default claimedTwice htime
  exact ⟨t, ht, of_decide_eq_true hrunning, of_decide_eq_true htwo,
    (hbounds t (Db.ticket_eq_some.mp ht).1).2⟩

/-- The worker loses the ticket twice, and its first two executions fail only after it has
claimed the ticket for the third and the fourth time. -/
def retriedFromOldCopies : List Label :=
  [.createJob patientJob,
    claim worker timesOut, .execute 0 none, .tick 400000000, recover,
    claim worker timesOut, .execute 1 none, .tick 800000000, recover,
    claim worker timesOut, .execute 0 none, .tick 1200000000,
    claim worker timesOut, .execute 1 none, .tick 1600000000]

/-- The ticket has been claimed four times and waits for a fifth claim, which the constraint on
attempts aborts. -/
theorem ceiling_broken_by_old_copies :
  ¬ (∀ t ∈ (System.after .default retriedFromOldCopies).db.tickets.rows,
      t.attemptCount ≤ t.maxAttempts)
    ∧ (claimTickets .default (fun _ => false) worker none none none
        (System.after .default retriedFromOldCopies).db).isOk = false
  := by
  refine ⟨?_, by decide +kernel⟩
  intro h
  have hover : ((System.after .default retriedFromOldCopies).db.tickets.rows.all fun t =>
      t.attemptCount ≤ t.maxAttempts) = false := by decide +kernel
  rw [List.all_eq_false] at hover
  obtain ⟨t, ht, hnot⟩ := hover
  apply hnot (decide_eq_true (h t ht))

end Demo

end Evalorch
