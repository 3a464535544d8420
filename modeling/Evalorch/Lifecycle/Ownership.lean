import Evalorch.Lifecycle.Reachable

/-!
# Ownership of tickets

A worker has a ticket while the row is `RUNNING` under it. Only a claim gives it the ticket,
and nothing it executes or sends for a ticket it does not have changes the database, however
the ticket was lost and whoever has it since.
-/

namespace Evalorch

open Transact TicketRepository

/-! ### Getting and losing a ticket -/

/-- A step in which a worker claims a ticket that it does not have. -/
def System.takes (settings : Settings) (worker : Worker) (ticketId : Uuid) (s : System)
    (l : Label) : Prop :=
  s.performs l (.claim worker) ∧ ¬ s.db.holds worker ticketId
    ∧ (s.step settings l).db.holds worker ticketId

/-- A worker that has a ticket after a move had it before, or claimed it. -/
theorem owned_of_move {db db' : Db} {a : Action} {t t' : EvaluationTicket} {worker : Worker}
    (hmove : Move db db' a t t') (h : owned worker.id t' = true) :
  owned worker.id t = true ∨ a = .claim worker
  := by
  rw [owned_iff] at h ⊢
  obtain ⟨hrunning, hworker⟩ := h
  cases hmove with
  | stay => exact .inl ⟨hrunning, hworker⟩
  | extended => exact .inl ⟨hrunning, hworker⟩
  | @claimed worker' =>
    right
    have hid : worker' = worker := by
      cases worker'
      cases worker
      simpa [claimedRow] using hworker
    rw [hid]
  | recovered => exact absurd hrunning (recoveredRow_not_running _ _ _ _)
  | @recorded ticket worker' target t s _ _ records =>
    cases target <;> simp [recordsResult, transitionRow] at records hrunning
  | cancelled => simp [transitionRow] at hrunning
  | retried => simp [transitionRow] at hrunning
  | cancelledUnclaimed => simp [cancelledRow] at hrunning
  | reset => simp [resetRow] at hrunning
  | swept => simp [cancelledRow] at hrunning

/-- A worker gets a ticket by claiming it, and in no other way. -/
theorem not_holds_step {settings : Settings} {s : System} (hs : s.sound) {l : Label}
    {worker : Worker} {ticketId : Uuid} (hnot : ¬ s.db.holds worker ticketId)
    (htakes : ¬ s.takes settings worker ticketId l) :
  ¬ (s.step settings l).db.holds worker ticketId
  := by
  intro hholds
  obtain hsame | ⟨p, hcreated⟩ | ⟨a, hperforms, hchange⟩ := step_cases settings hs l
  · rw [hsame] at hholds
    apply hnot hholds
  · obtain ⟨t, ht, howned⟩ := hholds
    obtain ⟨hmem, hid⟩ := Db.ticket_eq_some.mp ht
    rw [hcreated.tickets] at hmem
    rcases List.mem_append.mp hmem with hmem | hmem
    · apply hnot ⟨t, Db.ticket_eq_some.mpr ⟨hmem, hid⟩, howned⟩
    · obtain ⟨q, -, rfl⟩ := List.mem_map.mp hmem
      simp [PreparedTicket.ticket, owned] at howned
  · obtain ⟨t', ht', howned⟩ := id hholds
    obtain ⟨t, ht, hmove⟩ := hchange.exists_ticket_before ht'
    rcases owned_of_move hmove howned with howned | rfl
    · apply hnot ⟨t, ht, howned⟩
    · apply htakes ⟨hperforms, hnot, hholds⟩

/-- A worker without a ticket is without it throughout a run in which it does not claim it. -/
theorem not_holds_run {settings : Settings} {s : System} (hs : s.sound) {labels : List Label}
    {worker : Worker} {ticketId : Uuid} (hnot : ¬ s.db.holds worker ticketId)
    (h : Along (System.step settings) (fun s l => ¬ s.takes settings worker ticketId l) s labels) :
  ¬ (run (System.step settings) s labels).db.holds worker ticketId
  := by
  refine (run_invariant (fun s => s.sound ∧ ¬ s.db.holds worker ticketId) _ ?_ ⟨hs, hnot⟩ h).2
  rintro s l ⟨hs, hnot⟩ htakes
  exact ⟨sound_step hs l, not_holds_step hs hnot htakes⟩

/-! ### Without the ticket -/

/-- An execution whose worker does not have the ticket leaves the database alone. -/
theorem execute_of_not_holds {settings : Settings} {s : System} (hs : s.sound) {index : ℕ}
    {failure : Option Exn} {r : Run} (hr : s.runs[index]? = some r)
    (hnot : ¬ s.db.holds r.worker r.ticket.id) :
  (s.step settings (.execute index failure)).db = s.db
  := by
  have hsound := hs r (List.mem_of_getElem? hr)
  simp only [System.step, System.executed, hr]
  rcases Program.step_always hsound.transacts failure s.db with
    ⟨hsame, -⟩ | ⟨tag, commit, -, -, htransacts, hcommit⟩
  · apply hsame
  · rw [hcommit]
    rcases htransacts.change hsound.copies with hsame | ⟨f, g, hby⟩
    · apply hsame
    · exact absurd hby.enabled hnot

/-- A heartbeat from a worker that does not have the ticket leaves the database alone. -/
theorem heartbeat_of_not_holds {settings : Settings} {s : System} {worker : Worker}
    {ticketId : Uuid} (hnot : ¬ s.db.holds worker ticketId) (leaseSeconds : ℤ) :
  (s.step settings (.heartbeat ticketId worker leaseSeconds)).db = s.db
  := by
  cases h : heartbeatTicket ticketId worker.id leaseSeconds s.db with
  | error e => simp [System.step, h]
  | ok r =>
    simp only [System.step, h]
    rcases change_heartbeat h with hsame | ⟨f, g, hby⟩
    · apply hsame
    · exact absurd hby.enabled hnot

/-- A settlement by a worker that does not have the ticket raises. -/
theorem settleTicket_of_not_holds {db : Db} {worker : Worker} {ticketId : Uuid}
    (hnot : ¬ db.holds worker ticketId) (target : TicketStatus) (s : Settlement)
    (jobId : Option Uuid) :
  ∃ e, settleTicket ticketId target s jobId (some worker.id) db = .error e
  := by
  cases h : settleTicket ticketId target s jobId (some worker.id) db with
  | error e => exact ⟨e, rfl⟩
  | ok r =>
    obtain ⟨w, _, current, hw, -, hcur, howned, -, -⟩ := settleTicket_returns h
    cases hw
    exact absurd ⟨current, hcur, howned⟩ hnot

/-- `_persist_once` for a ticket that its worker does not have raises after the upsert, if
there was one. -/
theorem persistOnce_of_not_holds {db : Db} {worker : Worker} {ticket t : EvaluationTicket}
    (ht : db.ticket ticket.id = some t) (hnot : ¬ db.holds worker ticket.id) (id : Uuid)
    (v : Verdict) (snapshot : Option Dict) :
  ∃ e, persistOnce id ticket v snapshot (some worker.id) db = .error e
  := by
  unfold persistOnce
  simp only [ht]
  split
  · obtain ⟨e, he⟩ := settleTicket_of_not_holds hnot .cancelled
      (withError "CANCELLED" "job cancelled while ticket was running") (some ticket.jobId)
    use e
    rw [he]
    rfl
  · cases hrecord : recordResult id ticket v snapshot db with
    | error e => exact ⟨e, rfl⟩
    | ok recorded =>
      have htickets : recorded.2.tickets = db.tickets := by
        unfold recordResult at hrecord
        split at hrecord
        · obtain ⟨⟨row, db₁⟩, hupsert, h⟩ := bind_eq_ok.mp hrecord
          cases h
          apply (ResultRepository.upsert_ok hupsert).tickets
        · cases hrecord
          rfl
      have hnot' : ¬ recorded.2.holds worker ticket.id := by
        rintro ⟨t', ht', howned⟩
        apply hnot
        refine ⟨t', ?_, howned⟩
        rw [← ht']
        unfold Db.ticket
        rw [htickets]
      obtain ⟨e, he⟩ := settleTicket_of_not_holds hnot' v.target {
        resultId := recorded.1
        errorCode := v.errorCode
        errorMessage := v.errorMessage
        delaySeconds := v.delaySeconds
        inputSnapshot := snapshot } (some ticket.jobId)
      use e
      change (settleTicket ticket.id v.target _ (some ticket.jobId) (some worker.id) recorded.2
        >>= _) = _
      rw [he]
      rfl

/-- A worker whose ticket a recovery took away does not touch it. Whatever happens
afterwards, short of another claim of the ticket by the same worker, no transaction the
worker still runs for it and no heartbeat changes the database, and every settlement in its
name raises. -/
theorem lost_ticket_is_untouched (settings : Settings) (before labels : List Label)
    (locked locked' : Uuid → Bool) (jitter : Uuid → Duration) (limit : Option ℕ)
    (worker : Worker) (ticketId : Uuid)
    (hhad : (System.after settings before).db.holds worker ticketId)
    (hlost : ¬ (System.after settings
      (before ++ [.recover locked locked' jitter limit])).db.holds worker ticketId)
    (hnoClaim : Along (System.step settings)
      (fun s l => ¬ s.takes settings worker ticketId l)
      (System.after settings (before ++ [.recover locked locked' jitter limit])) labels) :
  let s := System.after settings (before ++ [.recover locked locked' jitter limit] ++ labels)
  (∀ index failure r, s.runs[index]? = some r → r.worker = worker → r.ticket.id = ticketId →
      (s.step settings (.execute index failure)).db = s.db)
    ∧ (∀ leaseSeconds,
        (s.step settings (.heartbeat ticketId worker leaseSeconds)).db = s.db)
    ∧ (∀ target settlement jobId,
        ∃ e, settleTicket ticketId target settlement jobId (some worker.id) s.db = .error e)
    ∧ ∀ id ticket v snapshot, ticket.id = ticketId →
        ∃ e, persistOnce id ticket v snapshot (some worker.id) s.db = .error e
  := by
  intro s
  have hs : s.sound := sound_after settings _
  have hnot : ¬ s.db.holds worker ticketId := by
    change ¬ (System.after settings _).db.holds worker ticketId
    rw [System.after_append]
    apply not_holds_run (sound_after settings _) hlost hnoClaim
  have hrow : ∃ t, s.db.ticket ticketId = some t := by
    obtain ⟨t, ht, -⟩ := hhad
    obtain ⟨t', ht', -⟩ := run_keepsTickets settings (sound_after settings before)
      (.recover locked locked' jitter limit :: labels) ticketId t ht
    use t'
    rw [← ht']
    change (System.after settings _).db.ticket ticketId = _
    rw [List.append_assoc, System.after_append]
    rfl
  refine ⟨?_, ?_, ?_, ?_⟩
  · rintro index failure r hr rfl rfl
    apply execute_of_not_holds hs hr hnot
  · apply heartbeat_of_not_holds hnot
  · apply settleTicket_of_not_holds hnot
  · rintro id ticket v snapshot rfl
    obtain ⟨t, ht⟩ := hrow
    apply persistOnce_of_not_holds ht hnot id v snapshot

namespace Demo

/-- A worker claims the ticket and loads it, and its lease passes while it evaluates. -/
def abandoned : List Label :=
  [.createJob job, claim worker (.ok (output .passed)), .execute 0 none, .tick 301000000]

/-- The ticket is available again, and another worker claims and settles it. -/
def takenOver : List Label :=
  [.tick 400000000, claim otherWorker (.ok (output .failed)), .execute 1 none, .execute 1 none]

/-- The first worker of the demo job comes to its settlement after the second has settled the
ticket. -/
theorem lost_ticket_is_untouched_takenOver :
  ∃ r, (System.after .default (abandoned ++ [recover] ++ takenOver)).runs[0]? = some r
    ∧ r.program.pending = some (.persist .done)
    ∧ ((System.after .default (abandoned ++ [recover] ++ takenOver)).step .default
        (.execute 0 none)).db
      = (System.after .default (abandoned ++ [recover] ++ takenOver)).db
  := by
  have huntouched := lost_ticket_is_untouched .default abandoned takenOver (fun _ => false)
    (fun _ => false) (fun _ => 0) none worker 10 (by decide +kernel) (by decide +kernel)
    ⟨by simp [System.takes, System.performs],
      by simp [System.takes, System.performs, claim, worker, otherWorker],
      by simp [System.takes, System.performs],
      by simp [System.takes, System.performs], trivial⟩
  have hrun : ((System.after .default (abandoned ++ [recover] ++ takenOver)).runs[0]?.any
      fun r => r.worker = worker && r.ticket.id = 10
        && r.program.pending = some (.persist .done)) = true := by decide +kernel
  obtain ⟨r, hr, hof⟩ := (Option.any_eq_true _ _).mp hrun
  simp only [Bool.and_eq_true, decide_eq_true_eq] at hof
  obtain ⟨⟨hworker, hid⟩, hpending⟩ := hof
  exact ⟨r, hr, hpending, huntouched.1 0 none r hr hworker hid⟩

end Demo

end Evalorch
