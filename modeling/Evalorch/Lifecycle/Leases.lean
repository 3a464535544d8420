import Evalorch.Lifecycle.Draining

/-!
# Leases

A worker keeps the ticket it has claimed as long as its lease does not pass before a sweep looks:
whatever the others do, the row stays `RUNNING` under the worker, and only the lease is extended
(`lease_is_safe`). When the leases have passed, as many sweeps as there are running tickets give all
of them back (`abandoned_work_is_recovered`).
-/

namespace Evalorch

open Transact TicketRepository JobRepository

/-! ### A lease that has not passed -/

/-- No sweep finds the lease of the ticket passed, and the worker does not take a step of an
execution of the ticket. -/
def System.respectsLease (worker : Worker) (ticketId : Uuid) (s : System) : Label → Prop
  | .recover .. => ∀ t, s.db.ticket ticketId = some t → expired s.db.now t = false
  | .execute index _ => ∀ r, s.runs[index]? = some r →
      ¬ (r.ticket.id = ticketId ∧ r.worker.id = worker.id)
  | _ => True

/-- A running ticket is left by a move, or its lease is extended, unless its worker settles it or a
sweep finds its lease passed. -/
theorem Move.of_owned {db db' : Db} {a : Action} {t t' : EvaluationTicket} {worker : Worker}
    (h : Move db db' a t t') (howned : owned worker.id t = true) :
  (∃ lease, t' = { t with leaseExpiresAt := lease })
    ∨ (∃ ticket owner tag, a = .execute ticket owner tag ∧ ticket.id = t.id
      ∧ owner.id = worker.id)
    ∨ a = .recover ∧ expired db.now t = true
  := by
  obtain ⟨hrunning, hworker⟩ := owned_iff.mp howned
  have hsame : ∀ owner : Worker, owned owner.id t = true → owner.id = worker.id := by
    intro owner howns
    have howner := (owned_iff.mp howns).2
    rw [hworker, Option.some_inj] at howner
    exact howner.symm
  have hnot : ¬ t.status.pending := by simp [TicketStatus.pending, hrunning]
  cases h with
  | stay => exact .inl ⟨t.leaseExpiresAt, rfl⟩
  | claimed _ pending => exact absurd pending hnot
  | extended => exact .inl ⟨_, rfl⟩
  | cancelled _ id owns => exact .inr (.inl ⟨_, _, _, rfl, id.symm, hsame _ owns⟩)
  | retried _ id owns => exact .inr (.inl ⟨_, _, _, rfl, id.symm, hsame _ owns⟩)
  | recorded _ id owns => exact .inr (.inl ⟨_, _, _, rfl, id.symm, hsame _ owns⟩)
  | cancelledUnclaimed _ pending => exact absurd pending hnot
  | reset failed =>
    rw [hrunning] at failed
    cases failed
  | recovered _ passed => exact .inr (.inr ⟨rfl, passed⟩)
  | swept _ passed => exact .inr (.inr ⟨rfl, passed⟩)

/-- A worker that holds a ticket holds it, with the same row up to the lease, after every run in
which no sweep finds the lease passed and the worker does not execute the ticket. -/
theorem lease_is_safe {settings : Settings} {s : System} (hs : s.sound) {worker : Worker}
    {t : EvaluationTicket} (ht : s.db.ticket t.id = some t) (howned : owned worker.id t = true)
    {labels : List Label}
    (h : Along (System.step settings) (System.respectsLease worker t.id) s labels) :
  ∃ lease, (run (System.step settings) s labels).db.ticket t.id
    = some { t with leaseExpiresAt := lease }
  := by
  refine (run_invariant (fun s => s.sound
    ∧ ∃ lease, s.db.ticket t.id = some { t with leaseExpiresAt := lease }) _ ?_
    ⟨hs, t.leaseExpiresAt, ht⟩ h).2
  rintro s l ⟨hs, lease, ht⟩ hrespects
  use sound_step hs l
  obtain hsame | ⟨p, hcreated⟩ | ⟨a, hperforms, hchange⟩ := step_cases settings hs l
  · exact ⟨lease, hsame ▸ ht⟩
  · exact ⟨lease, hcreated.ticket ht⟩
  · obtain ⟨t', ht', hmove⟩ := hchange.exists_ticket ht
    have howned' : owned worker.id { t with leaseExpiresAt := lease } = true := howned
    rcases hmove.of_owned howned' with ⟨lease', rfl⟩ | ⟨ticket, owner, tag, rfl, hid, howner⟩
      | ⟨rfl, hpassed⟩
    · exact ⟨lease', ht'⟩
    · cases l with
      | execute index failure =>
        obtain ⟨-, r, tag', hr, -, haction⟩ := hperforms
        cases haction
        exact absurd ⟨hid, howner⟩ (hrespects r hr)
      | _ => cases hperforms
    · cases l with
      | recover =>
        have hnot := hrespects _ ht
        rw [hpassed] at hnot
        cases hnot
      | execute =>
        obtain ⟨-, r, tag', -, -, haction⟩ := hperforms
        cases haction
      | _ => cases hperforms

/-! ### Leases that have passed -/

/-- The status of a ticket that its worker has abandoned, once it is recovered. -/
def abandonedStatus (cancelled : Bool) (t : EvaluationTicket) : TicketStatus :=
  if cancelled then .cancelled
  else if t.attemptCount ≥ t.maxAttempts then .failed
  else .retry

/-- A running ticket that was recovered, with the attempts it had. -/
structure Recovered (cancelled : Bool) (t t' : EvaluationTicket) : Prop where
  running : t.status = .running
  status : t'.status = abandonedStatus cancelled t
  attempts : t'.attemptCount = t.attemptCount

theorem abandonedStatus_ne_running (cancelled : Bool) (t : EvaluationTicket) :
  abandonedStatus cancelled t ≠ .running
  := by
  unfold abandonedStatus
  split
  · simp
  · split <;> simp

/-- What a sweep does to a ticket. -/
theorem Move.of_recover {db db' : Db} {t t' : EvaluationTicket} (h : Move db db' .recover t t') :
  t' = t ∨ Recovered (jobCancelled db t) t t'
  := by
  cases h with
  | stay => exact .inl rfl
  | recovered _ passed => exact .inr ⟨(expired_iff.mp passed).1, rfl, rfl⟩
  | swept _ passed cancelled =>
    refine .inr ⟨(expired_iff.mp passed).1, ?_, rfl⟩
    rw [cancelled]
    rfl

/-- The tickets of a database after some sweeps. -/
structure Swept (db db' : Db) : Prop where
  now : db'.now = db.now
  flags : ∀ t, jobCancelled db' t = jobCancelled db t
  tickets : ∀ t ∈ db.tickets.rows, ∃ t', db'.ticket t.id = some t'
    ∧ (t' = t ∨ Recovered (jobCancelled db t) t t')

theorem Swept.refl (db : Db) :
  Swept db db
  := ⟨rfl, fun _ => rfl, fun t ht => ⟨t, Db.ticket_eq_some.mpr ⟨ht, rfl⟩, .inl rfl⟩⟩

/-- A sweep keeps the flags of the jobs. -/
theorem jobCancelled_recover (settings : Settings) (locked locked' : Uuid → Bool)
    (jitter : Uuid → Duration) (limit : Option ℕ) (db : Db) (t : EvaluationTicket) :
  jobCancelled (recoverAbandonedTickets settings locked locked' jitter limit db).2 t
    = jobCancelled db t
  := by
  obtain ⟨f, g, hby⟩ := change_recover settings locked locked' jitter limit db
  unfold jobCancelled
  rw [hby.job]
  cases hj : db.job t.jobId with
  | none => rfl
  | some j =>
    rw [Option.map_some, Option.any_some, Option.any_some]
    have hmove := hby.jobMoves j (Db.job_eq_some.mp hj).1
    generalize g j = j' at hmove
    cases hmove with
    | kept => rfl
    | recomputed => rfl

theorem Swept.step {settings : Settings} {db : Db} {s : System} (h : Swept db s.db) {l : Label}
    (hl : l.sweeps) :
  Swept db (s.step settings l).db
  := by
  obtain ⟨jitter, rfl⟩ := hl
  have hchange :=
    change_recover settings (fun _ => false) (fun _ => false) jitter none s.db
  constructor
  · exact (now_recover settings _ _ jitter none s.db).trans h.now
  · intro t
    exact (jobCancelled_recover settings _ _ jitter none s.db t).trans (h.flags t)
  · intro t ht
    obtain ⟨t', ht', hswept⟩ := h.tickets t ht
    obtain ⟨t'', ht'', hmove⟩ := hchange.exists_ticket ht'
    use t'', ht''
    rcases hswept with rfl | hrecovered
    · rcases hmove.of_recover with rfl | hrecovered
      · exact .inl rfl
      · exact .inr (h.flags t' ▸ hrecovered)
    · rcases hmove.of_recover with rfl | hagain
      · exact .inr hrecovered
      · exact absurd (hrecovered.status.symm.trans hagain.running) (abandonedStatus_ne_running _ _)

/-- When all leases of running tickets have passed, as many sweeps as there are running tickets
recover each of them, by the flag of its job and the attempts it has left, and leave all other
tickets as they are. -/
theorem abandoned_work_is_recovered (settings : Settings) {s : System} {now : Instant}
    (hpast : ∀ t ∈ s.db.tickets.rows, t.status = .running → expired now t = true)
    {sweeps : List Label} (hsweeps : ∀ l ∈ sweeps, l.sweeps)
    (hlength : s.db.tickets.count (·.status = .running) ≤ sweeps.length) :
  ∀ t ∈ s.db.tickets.rows,
    ∃ t', (run (System.step settings) s (.tick now :: sweeps)).db.ticket t.id = some t'
      ∧ if t.status = .running then Recovered (jobCancelled s.db t) t t' else t' = t
  := by
  set db := s.db.tick now with hdb
  have hstart : Swept db (s.step settings (.tick now)).db := .refl db
  have hcount : db.tickets.count (expired db.now) ≤ sweeps.length := by
    refine le_trans (List.countP_mono_left ?_) hlength
    intro t _ hexpired
    simpa using (expired_iff.mp hexpired).1
  obtain ⟨hswept, hzero⟩ := run_descends (fun s : System => Swept db s.db) Label.sweeps
    (fun s : System => s.db.tickets.count (expired s.db.now))
    (fun s l h hl => h.step hl) (fun s l _ hl => count_expired_sweep settings hl) hstart hsweeps
    hcount
  intro t ht
  obtain ⟨t', ht', hcases⟩ := hswept.tickets t ht
  rw [run_cons]
  use t', ht'
  split
  case isFalse hnot =>
    rcases hcases with hsame | hrecovered
    · exact hsame
    · exact absurd hrecovered.running hnot
  case isTrue hrunning =>
    rcases hcases with rfl | hrecovered
    · -- A ticket that is still running has a lease that has passed, but none is left.
      have hmem := (Db.ticket_eq_some.mp ht').1
      have hexpired := List.countP_eq_zero.mp hzero t' hmem
      rw [hswept.now] at hexpired
      exact absurd (hpast t' ht hrunning) hexpired
    · exact hrecovered

namespace Demo

/-- The worker of the ticket is lost. -/
def claimedOnly : List Label :=
  [.createJob job, claim worker (.ok (output .passed))]

/-- Two sweeps, with a heartbeat before the first lease passes. -/
def beating : List Label :=
  [.tick 1000, recover, .heartbeat 10 worker 600, .tick 400000000, recover]

theorem respectsLease_of_all {ticketId : Uuid} {s : System}
    (h : (s.db.ticket ticketId).all (fun t => !expired s.db.now t) = true) :
  s.respectsLease worker ticketId recover
  := by
  intro t ht
  rw [ht, Option.all_some] at h
  simpa using h

theorem lease_is_safe_beating :
  ∃ (t : EvaluationTicket) (lease : Option Instant), t.status = .running
    ∧ (run (System.step .default) (System.after .default claimedOnly) beating).db.ticket 10
      = some { t with leaseExpiresAt := lease }
  := by
  obtain ⟨t, ht, hrunning, howned⟩ : ∃ t, (System.after .default claimedOnly).db.ticket 10 = some t
      ∧ t.status = .running ∧ owned worker.id t = true := ⟨_, rfl, rfl, by decide⟩
  have hrespects : Along (System.step .default) (System.respectsLease worker 10)
      (System.after .default claimedOnly) beating :=
    ⟨trivial, respectsLease_of_all (by decide +kernel), trivial, trivial,
      respectsLease_of_all (by decide +kernel), trivial⟩
  obtain ⟨-, hid⟩ := Db.ticket_eq_some.mp ht
  rw [← hid] at ht hrespects ⊢
  obtain ⟨lease, hlease⟩ := lease_is_safe (sound_after .default claimedOnly) ht howned hrespects
  exact ⟨t, lease, hrunning, hlease⟩

theorem abandoned_work_is_recovered_claimedOnly :
  ∃ t t', (System.after .default claimedOnly).db.ticket 10 = some t ∧ t.status = .running
    ∧ (run (System.step .default) (System.after .default claimedOnly)
        [.tick 400000000, recover]).db.ticket t.id = some t'
    ∧ Recovered (jobCancelled (System.after .default claimedOnly).db t) t t'
  := by
  obtain ⟨t, ht, hrunning⟩ : ∃ t, (System.after .default claimedOnly).db.ticket 10 = some t
      ∧ t.status = .running := ⟨_, rfl, rfl⟩
  have hrecovered : ∀ t ∈ (System.after .default claimedOnly).db.tickets.rows,
      ∃ t', (run (System.step .default) (System.after .default claimedOnly)
          [.tick 400000000, recover]).db.ticket t.id = some t'
        ∧ if t.status = .running then
          Recovered (jobCancelled (System.after .default claimedOnly).db t) t t' else t' = t := by
    apply abandoned_work_is_recovered
    · decide +kernel
    · rintro l hl
      rw [List.mem_singleton.mp hl]
      exact ⟨_, rfl⟩
    · decide +kernel
  obtain ⟨t', ht', hcases⟩ := hrecovered t (Db.ticket_eq_some.mp ht).1
  rw [if_pos hrunning] at hcases
  exact ⟨t, t', ht, hrunning, ht', hcases⟩

end Demo

end Evalorch
