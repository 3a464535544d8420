import Evalorch.Lifecycle.Attempts
import Evalorch.Lifecycle.Settlement
import Evalorch.Python.Raising
import Evalorch.Services.Deadlock

/-!
# Persisting after deadlocks

`_persist` calls `_persist_once` again after a deadlock, a bounded number of times. Whatever the
calls end in, all but the last one end in deadlocks and are rolled back, and none of them counts an
attempt of the ticket.
-/

namespace Evalorch

open Transact Python TicketRepository JobRepository

/-! ### What a call raises -/

/-- An exception that `_persist` does not try again after. -/
def Exn.notDeadlock (e : Exn) : Prop :=
  isPostgresDeadlock e = false

/-- A settlement raises no deadlock by itself. -/
theorem settleTicket_raises (ticketId : Uuid) (target : TicketStatus) (s : Settlement)
    (jobId : Option Uuid) (workerId : Option String) (db : Db) :
  RaisesOnly Exn.notDeadlock (settleTicket ticketId target s jobId workerId db)
  := by
  unfold settleTicket
  split
  case h_1 => simp [Exn.notDeadlock, isPostgresDeadlock, Exn.value]
  case h_2 worker hworker =>
    rw [raisesOnly_bind]
    constructor
    · unfold resolveJobId
      split
      · apply raisesOnly_ok
      · split <;> simp [Exn.notDeadlock, isPostgresDeadlock, Exn.lookup]
    · intro resolvedJobId _
      rw [raisesOnly_bind]
      refine ⟨?_, fun _ _ => raisesOnly_ok _ _⟩
      unfold TicketRepository.transition
      split
      · simp [Exn.notDeadlock, isPostgresDeadlock, Exn.lookup]
      · split
        · simp [Exn.notDeadlock, isPostgresDeadlock, Exn.value]
        · split
          · rw [raisesOnly_bind]
            constructor
            · unfold assertTicketTransition
              split <;> simp [Exn.notDeadlock, isPostgresDeadlock]
            · intro _ _
              split <;> simp [Exn.notDeadlock, isPostgresDeadlock, Exn.value]
          · unfold TicketRepository.notOwned
            rw [raisesOnly_error]
            split <;> rfl

/-- Neither does writing a result. -/
theorem recordResult_raises (id : Uuid) (ticket : EvaluationTicket) (v : Verdict)
    (snapshot : Option Dict) (db : Db) :
  RaisesOnly Exn.notDeadlock (recordResult id ticket v snapshot db)
  := by
  unfold recordResult
  split
  case isTrue =>
    rw [raisesOnly_bind]
    refine ⟨?_, fun _ _ => raisesOnly_ok _ _⟩
    unfold ResultRepository.upsert
    split
    · apply raisesOnly_ok
    · rw [raisesOnly_bind]
      refine ⟨?_, fun _ _ => raisesOnly_ok _ _⟩
      unfold Db.insertResult
      repeat' split
      all_goals simp [Exn.notDeadlock, isPostgresDeadlock]
  case isFalse => apply raisesOnly_ok

/-- Every deadlock of `_persist_once` comes from outside. -/
theorem persistOnce_raises (id : Uuid) (ticket : EvaluationTicket) (v : Verdict)
    (snapshot : Option Dict) (workerId : Option String) (db : Db) :
  RaisesOnly Exn.notDeadlock (persistOnce id ticket v snapshot workerId db)
  := by
  unfold persistOnce
  split
  · apply raisesOnly_ok
  · dsimp only
    split
    · rw [raisesOnly_bind]
      exact ⟨settleTicket_raises _ _ _ _ _ _, fun _ _ => raisesOnly_ok _ _⟩
    · rw [raisesOnly_bind]
      refine ⟨recordResult_raises _ _ _ _ _, fun _ _ => ?_⟩
      rw [raisesOnly_bind]
      exact ⟨settleTicket_raises _ _ _ _ _ _, fun _ _ => raisesOnly_ok _ _⟩

/-! ### Attempts of the ticket -/

/-- A row that is settled keeps its attempts. -/
theorem transitionRow_attemptCount (now : Instant) {target : TicketStatus} (s : Settlement)
    (t : EvaluationTicket) (hallowed : target ∈ allowedTicketTransitions .running) :
  (transitionRow now target s t).attemptCount = t.attemptCount
  := by
  cases target with
  | ready => simp [allowedTicketTransitions] at hallowed
  | _ => rfl

/-- A settlement keeps the attempts of its ticket. -/
theorem attempts_settleTicket {ticketId : Uuid} {target : TicketStatus} {s : Settlement}
    {jobId : Option Uuid} {workerId : Option String} {db db' : Db}
    {r : EvaluationTicket × Option JobProgress}
    (h : settleTicket ticketId target s jobId workerId db = .ok (r, db')) :
  db'.attempts ticketId = db.attempts ticketId
  := by
  obtain ⟨worker, resolvedJobId, current, -, -, hcur, howned, hallowed, rfl⟩ :=
    settleTicket_returns h
  unfold Db.attempts
  rw [recomputeProgress_db, Db.ticket_updateJobs, ticket_settledBy hcur howned, hcur]
  simp only [Option.map_some, transitionRow_attemptCount _ _ _ hallowed]

/-- Writing a result leaves the tickets alone. -/
theorem attempts_recordResult {id : Uuid} {ticket : EvaluationTicket} {v : Verdict}
    {snapshot : Option Dict} {db db' : Db} {resultId : Option Uuid} (ticketId : Uuid)
    (h : recordResult id ticket v snapshot db = .ok (resultId, db')) :
  db'.attempts ticketId = db.attempts ticketId
  := by
  unfold recordResult at h
  split at h
  case isTrue =>
    obtain ⟨⟨row, db₁⟩, hupsert, h⟩ := bind_eq_ok.mp h
    cases h
    unfold Db.attempts Db.ticket
    rw [(ResultRepository.upsert_ok hupsert).tickets]
  case isFalse =>
    cases h
    rfl

/-- `_persist_once` keeps the attempts of its ticket. -/
theorem attempts_persistOnce {id : Uuid} {ticket : EvaluationTicket} {v : Verdict}
    {snapshot : Option Dict} {workerId : Option String} {db db' : Db} {outcome : TicketOutcome}
    (h : persistOnce id ticket v snapshot workerId db = .ok (outcome, db')) :
  db'.attempts ticket.id = db.attempts ticket.id
  := by
  unfold persistOnce at h
  split at h
  case h_1 =>
    cases h
    rfl
  case h_2 =>
    simp only at h
    split at h
    case isTrue =>
      obtain ⟨⟨r, db₁⟩, hsettle, h⟩ := bind_eq_ok.mp h
      cases h
      apply attempts_settleTicket hsettle
    case isFalse =>
      obtain ⟨⟨resultId, db₁⟩, hrecord, h⟩ := bind_eq_ok.mp h
      obtain ⟨⟨r, db₂⟩, hsettle, h⟩ := bind_eq_ok.mp h
      cases h
      rw [attempts_settleTicket hsettle, attempts_recordResult ticket.id hrecord]

/-! ### The calls of `_persist` -/

/-- What the calls of `_persist` that are left do: how many are made, what was committed by each,
and what the last one leads to. -/
structure Persisted (ticket : EvaluationTicket) (sched : ℕ → Db)
    (results : ℕ → Except Exn (TicketOutcome × Db)) (n last : ℕ)
    (run : List (Db × Db) × Except Exn TicketOutcome) : Prop where
  bounded : last < n
  calls : run.1 = (List.range (last + 1)).map fun k => (sched k, committed (results k) (sched k))
  deadlocks : ∀ k < last, ∃ e, results k = .error e ∧ isPostgresDeadlock e = true
  outcome : run.2 = absorbed ticket ((results last).map Prod.fst)
  exhausted : ∀ e, results last = .error e → isPostgresDeadlock e = true → last + 1 = n

/-- A call is the last one when none is left, or when it does not end in a deadlock. -/
theorem Persisted.of_stop {ticket : EvaluationTicket} {sched : ℕ → Db}
    {results : ℕ → Except Exn (TicketOutcome × Db)} {n : ℕ}
    (h : n = 0 ∨ ∀ e, results 0 = .error e → isPostgresDeadlock e = false) :
  Persisted ticket sched results (n + 1) 0
    ([(sched 0, committed (results 0) (sched 0))], absorbed ticket ((results 0).map Prod.fst))
  where
    bounded := Nat.succ_pos n
    calls := rfl
    deadlocks := by
      intro k hk
      cases hk
    outcome := rfl
    exhausted := by
      intro e he hdeadlock
      rcases h with rfl | hnot
      · rfl
      · rw [hnot e he] at hdeadlock
        cases hdeadlock

/-- After a deadlock the calls that are left follow. -/
theorem Persisted.of_deadlock {ticket : EvaluationTicket} {sched : ℕ → Db}
    {results : ℕ → Except Exn (TicketOutcome × Db)} {n last : ℕ} {e : Exn}
    {run : List (Db × Db) × Except Exn TicketOutcome} (he : results 0 = .error e)
    (hdeadlock : isPostgresDeadlock e = true)
    (h : Persisted ticket (fun k => sched (k + 1)) (fun k => results (k + 1)) n last run) :
  Persisted ticket sched results (n + 1) (last + 1)
    ((sched 0, committed (results 0) (sched 0)) :: run.1, run.2)
  where
    bounded := Nat.succ_lt_succ h.bounded
    calls := by
      rw [h.calls, @List.range_succ_eq_map (last + 1), List.map_cons, List.map_map]
      rfl
    deadlocks := by
      intro k hk
      cases k with
      | zero => exact ⟨e, he, hdeadlock⟩
      | succ k => exact h.deadlocks k (Nat.lt_of_succ_lt_succ hk)
    outcome := h.outcome
    exhausted := by
      intro e' he' hdeadlock'
      rw [h.exhausted e' he' hdeadlock']

section Loop

variable {ticket : EvaluationTicket} {tag : Tag} (body : ℕ → Db → Except Exn (TicketOutcome × Db))

/-- The loop ends with its first call when none is left, or when the call does not end in a
deadlock. -/
theorem playWith_persistLoop_stop {sched : ℕ → Db} {failures : ℕ → Option Exn} {n attempt : ℕ}
    (last : Exn)
    (h : n = 0 ∨ ∀ e, ended (failures 0) (body attempt) (sched 0) = .error e →
      isPostgresDeadlock e = false) :
  (persistLoop (fun k => Program.atomically tag (body k)) (staleOutcome ticket) (n + 1) attempt
      last).playWith sched failures
    = ([(sched 0, committed (ended (failures 0) (body attempt) (sched 0)) (sched 0))],
      absorbed ticket ((ended (failures 0) (body attempt) (sched 0)).map Prod.fst))
  := by
  rw [persistLoop, Program.playWith_atomically_attempt]
  cases hresult : ended (failures 0) (body attempt) (sched 0) with
  | ok r => rfl
  | error e =>
    rcases h with rfl | hnot
    · cases e <;> simp [Except.map, absorbed, persistLoop]
    · have := hnot e hresult
      cases e <;> simp_all [Except.map, absorbed]

/-- The loop goes on after a deadlock when a call is left. -/
theorem playWith_persistLoop_deadlock {sched : ℕ → Db} {failures : ℕ → Option Exn} {n attempt : ℕ}
    (last : Exn) {e : Exn} (he : ended (failures 0) (body attempt) (sched 0) = .error e)
    (hdeadlock : isPostgresDeadlock e = true) :
  (persistLoop (fun k => Program.atomically tag (body k)) (staleOutcome ticket) (n + 1) attempt
      last).playWith sched failures
    = ((sched 0, committed (ended (failures 0) (body attempt) (sched 0)) (sched 0))
        :: ((persistLoop (fun k => Program.atomically tag (body k)) (staleOutcome ticket) n
            (attempt + 1) e).playWith (fun k => sched (k + 1)) fun k => failures (k + 1)).1,
      ((persistLoop (fun k => Program.atomically tag (body k)) (staleOutcome ticket) n
        (attempt + 1) e).playWith (fun k => sched (k + 1)) fun k => failures (k + 1)).2)
  := by
  rw [persistLoop, Program.playWith_atomically_attempt, he]
  cases e <;> simp_all [Except.map, isPostgresDeadlock]

/-- The calls of the loop, by induction on how many are left. -/
theorem playWith_persistLoop {sched : ℕ → Db} {failures : ℕ → Option Exn}
    {results : ℕ → Except Exn (TicketOutcome × Db)} (n attempt : ℕ) (last : Exn)
    (hresults : ∀ k, results k = ended (failures k) (body (attempt + k)) (sched k)) :
  ∃ k, Persisted ticket sched results (n + 1) k
    ((persistLoop (fun k => Program.atomically tag (body k)) (staleOutcome ticket) (n + 1) attempt
      last).playWith sched failures)
  := by
  have hfirst : ended (failures 0) (body attempt) (sched 0) = results 0 := (hresults 0).symm
  induction n generalizing attempt last sched failures results with
  | zero =>
    use 0
    rw [playWith_persistLoop_stop body last (.inl rfl), hfirst]
    apply Persisted.of_stop (.inl rfl)
  | succ n ih =>
    by_cases hnot : ∀ e, results 0 = .error e → isPostgresDeadlock e = false
    · use 0
      rw [playWith_persistLoop_stop body last (.inr (hfirst ▸ hnot)), hfirst]
      apply Persisted.of_stop (.inr hnot)
    · push Not at hnot
      obtain ⟨e, he, hdeadlock⟩ := hnot
      rw [ne_eq, Bool.not_eq_false] at hdeadlock
      have hrest : ∀ k, results (k + 1)
          = ended (failures (k + 1)) (body (attempt + 1 + k)) (sched (k + 1)) := by
        intro k
        rw [hresults, Nat.add_right_comm, Nat.add_assoc]
      obtain ⟨k, hk⟩ := ih (attempt + 1) e hrest (hrest 0).symm
      use k + 1
      rw [playWith_persistLoop_deadlock body last (hfirst.trans he) hdeadlock, hfirst]
      apply Persisted.of_deadlock he hdeadlock hk

end Loop

section Persist

variable (settings : Settings) (c : Collaborators) (drawn : ℕ) (ticket : EvaluationTicket)
  (v : Verdict) (resolved : Option ResolvedInput) (workerId : Option String) (sched : ℕ → Db)
  (raised : ℕ → Option Raised)

/-- What a call of `_persist_once` ends in: the exception that it fails with from outside, or what
it returns or raises on the state that it sees. -/
def persistResult (k : ℕ) : Except Exn (TicketOutcome × Db) :=
  ended ((raised k).map Raised.exn)
    (persistOnce (c.uuid4 (drawn + k)) ticket v (resolved.map ResolvedInput.asSnapshot) workerId)
    (sched k)

/-- A call ends in a deadlock exactly when one comes from outside. -/
theorem persistResult_deadlock (k : ℕ) :
  (∃ e, persistResult c drawn ticket v resolved workerId sched raised k = .error e
      ∧ isPostgresDeadlock e = true)
    ↔ ∃ r ∈ raised k, r.IsDeadlock
  := by
  unfold persistResult
  cases hraised : raised k with
  | none =>
    simp only [Option.map_none, Option.not_mem_none, false_and, exists_false, iff_false]
    rintro ⟨e, he, hdeadlock⟩
    have hnot : isPostgresDeadlock e = false := persistOnce_raises _ _ _ _ _ _ e he
    rw [hnot] at hdeadlock
    cases hdeadlock
  | some r => simp [Raised.isPostgresDeadlock_exn]

/-- No call counts an attempt of the ticket. -/
theorem attempts_persistResult (k : ℕ) :
  (committed (persistResult c drawn ticket v resolved workerId sched raised k) (sched k)).attempts
      ticket.id
    = (sched k).attempts ticket.id
  := by
  apply committed_of (fun db : Db => db.attempts ticket.id = (sched k).attempts ticket.id)
  · rfl
  · intro outcome db' h
    unfold persistResult at h
    cases hraised : raised k with
    | none =>
      rw [hraised] at h
      apply attempts_persistOnce h
    | some r =>
      rw [hraised] at h
      cases h

/-- `_persist` calls `_persist_once` up to the first call that does not end in a deadlock, and at
most as often as the limit allows. It returns what that call returns, turns a stale error into the
stale outcome, and raises every other error again. The calls before the last one commit nothing,
and no call counts an attempt of the ticket. -/
theorem persist_retries_deadlocks :
  ∃ last < settings.persistDeadlockMaxRetries,
    (persist settings c drawn ticket v resolved workerId).playWith sched
        (fun k => (raised k).map Raised.exn)
      = ((List.range (last + 1)).map fun k =>
          (sched k, committed (persistResult c drawn ticket v resolved workerId sched raised k)
            (sched k)),
        absorbed ticket
          ((persistResult c drawn ticket v resolved workerId sched raised last).map Prod.fst))
    ∧ (∀ k < last, ∃ r ∈ raised k, r.IsDeadlock)
    ∧ ((∃ r ∈ raised last, r.IsDeadlock) → last + 1 = settings.persistDeadlockMaxRetries)
    ∧ (∀ k < last,
        committed (persistResult c drawn ticket v resolved workerId sched raised k) (sched k)
          = sched k)
    ∧ ∀ k, (committed (persistResult c drawn ticket v resolved workerId sched raised k)
        (sched k)).attempts ticket.id = (sched k).attempts ticket.id
  := by
  obtain ⟨n, hn⟩ := Nat.exists_eq_add_of_le' settings.persistRetries_pos
  have hplay : ∃ last, Persisted ticket sched
      (persistResult c drawn ticket v resolved workerId sched raised) (n + 1) last
      ((persist settings c drawn ticket v resolved workerId).playWith sched
        fun k => (raised k).map Raised.exn) := by
    unfold persist
    rw [hn]
    apply playWith_persistLoop
    intro k
    rw [Nat.zero_add]
    rfl
  obtain ⟨last, h⟩ := hplay
  use last
  rw [hn]
  refine ⟨h.bounded, Prod.ext h.calls h.outcome, ?_, ?_, ?_, ?_⟩
  · intro k hk
    rw [← persistResult_deadlock c drawn ticket v resolved workerId sched raised]
    apply h.deadlocks k hk
  · intro hdeadlock
    rw [← persistResult_deadlock c drawn ticket v resolved workerId sched raised] at hdeadlock
    obtain ⟨e, he, hdeadlock⟩ := hdeadlock
    apply h.exhausted e he hdeadlock
  · intro k hk
    obtain ⟨e, he, -⟩ := h.deadlocks k hk
    rw [he, committed_error]
  · apply attempts_persistResult

end Persist

end Evalorch
