import Evalorch.EvaluationRunner
import Evalorch.Lifecycle.Agreement
import Evalorch.Lifecycle.Cancellation

/-!
# Draining the queue

A runner in drain mode leaves its loop when its last claim query returned nothing and, looking
later, it finds no execution in flight. In between an execution may end and give its ticket back,
a ticket may come due, and the query may have returned nothing because it failed. The loop is left
with no claimable ticket exactly when none of this happened since the last query.
-/

namespace Evalorch

open Transact TicketRepository JobRepository

/-! ### Claimable tickets -/

/-- The ticket is claimable. -/
def Db.offers (db : Db) (ticketId : Uuid) : Prop :=
  ∃ t, db.ticket ticketId = some t ∧ claimable db none t = true

theorem Db.not_offers_iff {db : Db} :
  (∀ ticketId, ¬ db.offers ticketId) ↔ ∀ t ∈ db.tickets.rows, claimable db none t = false
  := by
  constructor
  · intro h t ht
    by_contra hclaimable
    apply h t.id
    exact ⟨t, Table.find_key ht, by simpa using hclaimable⟩
  · rintro h ticketId ⟨t, ht, hclaimable⟩
    rw [h t (Db.ticket_eq_some.mp ht).1] at hclaimable
    cases hclaimable

/-- A job with a ticket that is not terminal lets its tickets be claimed unless it is
cancelled. -/
theorem claimableJob_of_open {db : Db} (h : db.agrees) {t : EvaluationTicket}
    (ht : t ∈ db.tickets.rows) (hopen : t.status.isTerminal = false) :
  (db.job t.jobId).any claimableJob = true ↔ ¬ db.cancelRequested t.jobId
  := by
  obtain ⟨j, hj⟩ := Db.exists_job ht
  obtain ⟨hmem, hid⟩ := Db.job_eq_some.mp hj
  have hlt : (ticketCounts j.id db).terminal < (ticketCounts j.id db).total := by
    apply lt_of_le_of_ne (ticketCounts j.id db).terminal_le_total
    intro hall
    have hterminal := terminal_eq_total_iff.mp hall t ht hid.symm
    rw [hopen] at hterminal
    cases hterminal
  have hstatus := (h j hmem).status j.status
  rw [progressStatus_of_open hlt] at hstatus
  have hlive : j.status = .ready ∨ j.status = .running := by
    rw [hstatus]
    split
    · exact .inr rfl
    · exact .inl rfl
  rcases hlive with hlive | hlive <;>
    simp [hj, claimableJob, hlive, Db.cancelRequested, Option.isSome_iff_ne_none]

/-- A ticket is claimable when it waits and is due, unless its job is cancelled. -/
theorem offers_iff {db : Db} (h : db.agrees) {ticketId : Uuid} :
  db.offers ticketId
    ↔ ∃ t, db.ticket ticketId = some t ∧ t.status.pending ∧ t.availableAt ≤ db.now
        ∧ ¬ db.cancelRequested t.jobId
  := by
  constructor
  · rintro ⟨t, ht, hclaimable⟩
    obtain ⟨hpending, havailable, hjob⟩ := claimable_iff hclaimable
    exact ⟨t, ht, hpending, havailable, not_cancelRequested_of_claimable hjob⟩
  · rintro ⟨t, ht, hpending, havailable, hflag⟩
    have hopen : t.status.isTerminal = false := by
      rcases hpending with hready | hretry
      · rw [hready]
        rfl
      · rw [hretry]
        rfl
    have hjob := (claimableJob_of_open h (Db.ticket_eq_some.mp ht).1 hopen).mpr hflag
    use t, ht
    rcases hpending with hstatus | hstatus <;> simp [claimable, hstatus, havailable, hjob]

/-! ### Executions and heartbeats -/

/-- The action is one of an execution or of its heartbeat. -/
def Action.background : Action → Prop
  | .execute .. | .heartbeat .. => True
  | _ => False

/-- An execution rewrites running tickets only, and its own is the only one it gives back. -/
theorem Move.of_background {db db' : Db} {a : Action} {t t' : EvaluationTicket}
    (h : Move db db' a t t') (ha : a.background) :
  t' = t
    ∨ t.status = .running
      ∧ (t'.status.pending → t'.status = .retry ∧ ∃ ticket worker tag,
          a = .execute ticket worker tag ∧ t.id = ticket.id ∧ owned worker.id t = true)
  := by
  have hterminal : ∀ target, recordsResult target = true → ¬ TicketStatus.pending target := by
    rintro _ hrecords (rfl | rfl) <;> cases hrecords
  cases h with
  | stay => exact .inl rfl
  | extended lease owns =>
    right
    use (owned_iff.mp owns).1
    intro hpending
    change TicketStatus.pending t.status at hpending
    rw [(owned_iff.mp owns).1] at hpending
    cases hpending <;> contradiction
  | cancelled s id owns =>
    right
    use (owned_iff.mp owns).1
    rintro (hready | hretry)
    · cases hready
    · cases hretry
  | retried s id owns left tag_eq =>
    right
    exact ⟨(owned_iff.mp owns).1, fun _ => ⟨rfl, _, _, _, rfl, id, owns⟩⟩
  | @recorded _ _ target _ s id owns records result job =>
    right
    use (owned_iff.mp owns).1
    intro hpending
    have hstatus : (transitionRow db.now target s t).status = target := by
      cases target <;> first | rfl | cases records
    rw [hstatus] at hpending
    exact absurd hpending (hterminal target records)
  | _ => cases ha

/-- Executions and heartbeats leave the flags of jobs alone. -/
theorem cancelRequested_of_background {db db' : Db} {a : Action} (h : Change a db db')
    (ha : a.background) (jobId : Uuid) :
  db'.cancelRequested jobId ↔ db.cancelRequested jobId
  := by
  obtain ⟨f, g, h⟩ := h
  constructor
  · rintro ⟨j', hj', hset⟩
    rw [h.job] at hj'
    obtain ⟨j, hj, rfl⟩ := Option.map_eq_some_iff.mp hj'
    obtain hbefore | ⟨rfl, -⟩ :=
      (h.jobMoves j (Db.job_eq_some.mp hj).1).flag_before hset
    · exact ⟨j, hj, hbefore⟩
    · cases ha
  · apply h.cancelRequested

/-- What is claimable after an execution's transaction or a heartbeat was so before, unless it is
the ticket of the execution, given back. -/
theorem offers_of_background {db db' : Db} {a : Action} (hagrees : db.agrees)
    (h : Change a db db') (ha : a.background) (hnow : db'.now = db.now) {ticketId : Uuid} :
  db'.offers ticketId
    ↔ db.offers ticketId
      ∨ ∃ ticket worker tag t, a = .execute ticket worker tag ∧ ticketId = ticket.id
        ∧ db.holds worker ticket.id ∧ db'.ticket ticket.id = some t ∧ t.status = .retry
        ∧ t.availableAt ≤ db.now ∧ ¬ db.cancelRequested t.jobId
  := by
  rw [offers_iff hagrees, offers_iff (agrees_of_change hagrees h)]
  simp only [cancelRequested_of_background h ha, hnow]
  constructor
  · rintro ⟨t', ht', hpending, havailable, hflag⟩
    obtain ⟨t, ht, hmove⟩ := h.exists_ticket_before ht'
    obtain rfl | ⟨-, hback⟩ := hmove.of_background ha
    · exact .inl ⟨t', ht, hpending, havailable, hflag⟩
    · obtain ⟨hretry, ticket, worker, tag, rfl, hid, howns⟩ := hback hpending
      obtain rfl : ticketId = ticket.id := (Db.ticket_eq_some.mp ht).2.symm.trans hid
      exact .inr ⟨ticket, worker, tag, t', rfl, rfl, ⟨t, ht, howns⟩, ht', hretry, havailable, hflag⟩
  · rintro (⟨t, ht, hpending, havailable, hflag⟩
      | ⟨ticket, worker, tag, t, -, rfl, -, ht, hretry, havailable, hflag⟩)
    · obtain ⟨t', ht', hmove⟩ := h.exists_ticket ht
      obtain rfl | ⟨hrunning, -⟩ := hmove.of_background ha
      · exact ⟨t', ht', hpending, havailable, hflag⟩
      · rw [hrunning] at hpending
        cases hpending <;> contradiction
    · exact ⟨t, ht, .inr hretry, havailable, hflag⟩

/-! ### The clock of an execution -/

theorem now_settleTicket {ticketId : Uuid} {target : TicketStatus} {s : Settlement}
    {jobId : Option Uuid} {workerId : Option String} {db db' : Db}
    {r : EvaluationTicket × Option JobProgress}
    (h : settleTicket ticketId target s jobId workerId db = .ok (r, db')) :
  db'.now = db.now
  := by
  obtain ⟨_, _, _, -, -, -, -, -, rfl⟩ := settleTicket_returns h
  rw [recomputeProgress_db]
  rfl

theorem now_settleOnly {ticket : EvaluationTicket} {target : TicketStatus} {s : Settlement}
    {workerId : Option String} {o outcome : TicketOutcome} {db db' : Db}
    (h : settleOnly ticket target s workerId o db = .ok (outcome, db')) :
  db'.now = db.now
  := by
  unfold settleOnly at h
  split at h
  case h_1 =>
    cases h
    rfl
  case h_2 =>
    obtain ⟨⟨r, db₁⟩, hsettle, h⟩ := bind_eq_ok.mp h
    cases h
    apply now_settleTicket hsettle

theorem now_recordResult {id : Uuid} {ticket : EvaluationTicket} {v : Verdict}
    {snapshot : Option Dict} {db db' : Db} {resultId : Option Uuid}
    (h : recordResult id ticket v snapshot db = .ok (resultId, db')) :
  db'.now = db.now
  := by
  unfold recordResult at h
  split at h
  case isTrue =>
    obtain ⟨⟨row, db₁⟩, hupsert, h⟩ := bind_eq_ok.mp h
    cases h
    apply (ResultRepository.upsert_ok hupsert).now
  case isFalse =>
    cases h
    rfl

theorem now_persistOnce {id : Uuid} {ticket : EvaluationTicket} {v : Verdict}
    {snapshot : Option Dict} {workerId : Option String} {db db' : Db} {outcome : TicketOutcome}
    (h : persistOnce id ticket v snapshot workerId db = .ok (outcome, db')) :
  db'.now = db.now
  := by
  unfold persistOnce at h
  split at h
  case h_1 =>
    cases h
    rfl
  case h_2 =>
    simp only at h
    split at h
    case isTrue =>
      obtain ⟨⟨r, db₁⟩, hsettle, h⟩ := bind_eq_ok.mp h
      cases h
      apply now_settleTicket hsettle
    case isFalse =>
      obtain ⟨⟨resultId, db₁⟩, hrecord, h⟩ := bind_eq_ok.mp h
      obtain ⟨⟨r, db₂⟩, hsettle, h⟩ := bind_eq_ok.mp h
      cases h
      rw [now_settleTicket hsettle]
      apply now_recordResult hrecord

/-- A transaction of an execution leaves the clock alone. -/
theorem Transacts.now {ticket : EvaluationTicket} {worker : Worker} {tag : Tag}
    {commit : Db → Db} (h : Transacts ticket worker tag commit) (db : Db) :
  (commit db).now = db.now
  := by
  cases h with
  | load => exact congrArg Db.now (committed_loadState ticket db)
  | persist id v snapshot sound =>
    exact committed_of (fun db' : Db => db'.now = db.now) rfl fun _ _ => now_persistOnce
  | settleCancelled s outcome =>
    exact committed_of (fun db' : Db => db'.now = db.now) rfl fun _ _ => now_settleOnly
  | retryTransient s outcome left =>
    exact committed_of (fun db' : Db => db'.now = db.now) rfl fun _ _ => now_settleOnly

/-! ### Queries -/

/-- A query that selects nothing skipped every row it could have selected. -/
theorem selectForUpdate_isEmpty {db : Db} {selects : EvaluationTicket → Bool}
    {order : EvaluationTicket → EvaluationTicket → Bool} {locked : Uuid → Bool} {limit : ℕ}
    (hlimit : limit ≠ 0) :
  (selectForUpdate db selects order locked limit).isEmpty = true
    ↔ ∀ t ∈ db.tickets.rows, selects t = true → locked t.id = true
  := by
  rw [List.isEmpty_iff, selectForUpdate, List.map_eq_nil_iff, List.take_eq_nil_iff,
    or_iff_right hlimit, ← List.length_eq_zero_iff, List.length_insertionSort,
    List.length_eq_zero_iff, List.filter_eq_nil_iff]
  simp

/-- A claim query returns a ticket unless it skips every claimable one, and changes nothing when
it returns none. -/
theorem claimTickets_isEmpty {settings : Settings} {locked : Uuid → Bool} {worker : Worker}
    {limit : ℕ} (hlimit : limit ≠ 0) {leaseSeconds : Option ℤ} {jobId : Option Uuid} {db db' : Db}
    {tickets : List EvaluationTicket}
    (h : claimTickets settings locked worker (some limit) leaseSeconds jobId db
      = .ok (tickets, db')) :
  (tickets = [] ↔ ∀ t ∈ db.tickets.rows, claimable db jobId t = true → locked t.id = true)
    ∧ (tickets = [] → db' = db)
  := by
  obtain ⟨⟨claimed, db₁⟩, hclaim, h⟩ := bind_eq_ok.mp h
  have hempty : claimed = tickets ∧ (tickets = [] → db' = db₁) := by
    simp only at h
    split at h <;> cases h <;> simp_all
  obtain ⟨rfl, hdb⟩ := hempty
  have hsome : (some limit).filter (· != 0) = some limit := by simpa using hlimit
  rw [hsome, Option.getD_some] at hclaim
  rw [← @selectForUpdate_isEmpty _ _ claimOrder _ _ hlimit]
  unfold claim at hclaim
  simp only at hclaim
  split at hclaim
  case isTrue hnil =>
    cases hclaim
    exact ⟨iff_of_true rfl hnil, hdb⟩
  case isFalse hsome =>
    have hne : claimed ≠ [] := by
      rw [List.isEmpty_iff] at hsome
      obtain ⟨ticketId, hid⟩ := List.exists_mem_of_ne_nil _ hsome
      obtain ⟨t, ht, rfl⟩ := List.mem_map.mp hid
      have hrow := (List.mem_filter.mp ((List.mem_insertionSort _).mp (List.mem_of_mem_take ht))).1
      split at hclaim
      case isTrue =>
        cases hclaim
        apply List.ne_nil_of_mem (mem_taken.mpr ⟨t, hrow, hid, rfl⟩)
      case isFalse => cases hclaim
    exact ⟨iff_of_false hne hsome, fun hnil => absurd hnil hne⟩

/-! ### The steps between a query and the test -/

/-- The step is one of the main thread. -/
def RunnerStep.main : RunnerStep → Prop
  | .startup _ | .recover _ | .capacity | .claim .. | .test => True
  | _ => False

namespace RunnerState

/-- The next transaction of an execution gives its ticket back, to be claimed at once. -/
def givesBack (s : RunnerState) (index : ℕ) (failure : Option Exn) : Prop :=
  ∃ r t, s.runs[index]? = some r ∧ s.db.holds r.worker r.ticket.id
    ∧ (s.executed index failure).db.ticket r.ticket.id = some t ∧ t.status = .retry
    ∧ t.availableAt ≤ s.db.now ∧ ¬ s.db.cancelRequested t.jobId

/-- A ticket that waits comes due within some microseconds. -/
def comesDue (s : RunnerState) (elapsed : ℕ) : Prop :=
  ∃ t ∈ s.db.tickets.rows, t.status.pending ∧ s.db.now < t.availableAt
    ∧ t.availableAt ≤ s.db.now + elapsed ∧ ¬ s.db.cancelRequested t.jobId

/-- The step is a claim query that the main thread is at. -/
def queries (s : RunnerState) : RunnerStep → Prop
  | .claim .. => ∃ limit, s.position = .claim limit
  | _ => False

/-- The step lets the count of the last query stand. A query neither fails nor skips every ticket
when there is one to claim, and between a query that claimed nothing and the test no execution
gives its ticket back, to be claimed at once, and no ticket comes due. -/
def heeds (settings : Settings) (runner : EvaluationRunner) (s : RunnerState) :
    RunnerStep → Prop
  | .claim failure locked _ => ∀ limit, s.position = .claim limit →
      (∃ ticketId, s.db.offers ticketId) → failure = false
        ∧ (∃ r, s.claimOnce settings runner limit locked = .ok r)
        ∧ ∃ ticketId, s.db.offers ticketId ∧ s.skipped locked ticketId = false
  | .execute index failure => s.position = .test 0 → ¬ s.givesBack index failure
  | .tick elapsed => s.position = .test 0 → ¬ s.comesDue elapsed
  | _ => True

/-- An execution's transaction makes a ticket claimable only by giving it back. -/
theorem offers_executed {s : RunnerState} (hsound : s.sound) (hagrees : s.db.agrees)
    (index : ℕ) (failure : Option Exn) :
  (∃ ticketId, (s.executed index failure).db.offers ticketId)
    ↔ (∃ ticketId, s.db.offers ticketId) ∨ s.givesBack index failure
  := by
  cases hr : s.runs[index]? with
  | none => simp [System.executed, givesBack, hr]
  | some r =>
    have hrun := hsound r (List.mem_of_getElem? hr)
    have hdb : (s.executed index failure).db = (r.program.step failure s.db).2 := by
      simp [System.executed, hr]
    have hkept : (r.program.step failure s.db).2 = s.db → ¬ s.givesBack index failure := by
      rintro hsame ⟨r', t, hr', ⟨t', ht', howns⟩, ht, hretry, -⟩
      cases hr.symm.trans hr'
      rw [hdb, hsame] at ht
      cases ht.symm.trans ht'
      rw [(owned_iff.mp howns).1] at hretry
      cases hretry
    rcases Program.step_always hrun.transacts failure s.db with
      ⟨hsame, -⟩ | ⟨tag, commit, -, -, htransacts, hcommit⟩
    · simp [hdb, hsame, hkept hsame]
    · rcases htransacts.change hrun.copies with hsame | hchange
      · simp [hdb, hcommit, hsame, hkept (hcommit.trans hsame)]
      · have hoffers := @offers_of_background _ _ _ hagrees hchange trivial (htransacts.now s.db)
        simp only [hdb, hcommit, hoffers, exists_or]
        apply or_congr Iff.rfl
        constructor
        · rintro ⟨_, ticket, worker, tag', t, heq, rfl, hholds, ht, hretry⟩
          cases heq
          exact ⟨r, t, hr, hholds, by rwa [hdb, hcommit], hretry⟩
        · rintro ⟨r', t, hr', hholds, ht, hretry⟩
          cases hr.symm.trans hr'
          rw [hdb, hcommit] at ht
          exact ⟨_, r.ticket, r.worker, tag, t, rfl, rfl, hholds, ht, hretry⟩

/-- A heartbeat makes no ticket claimable. -/
theorem offers_heartbeat {db : Db} (hagrees : db.agrees) (worker : Worker) (leaseSeconds : ℤ)
    (beaten ticketId : Uuid) :
  (committed (heartbeatTicket beaten worker.id leaseSeconds db) db).offers ticketId
    ↔ db.offers ticketId
  := by
  cases h : heartbeatTicket beaten worker.id leaseSeconds db with
  | error e => rfl
  | ok r =>
    obtain ⟨extended, db'⟩ := r
    have hnow : db'.now = db.now := by
      unfold heartbeatTicket extendLease at h
      rw [if_neg worker.nonempty] at h
      cases h
      rfl
    rcases change_heartbeat h with hsame | hchange
    · rw [hsame, committed_ok]
    · rw [committed_ok, offers_of_background hagrees hchange trivial hnow]
      simp

/-- Time makes a ticket claimable when it comes due. -/
theorem offers_tick {s : RunnerState} (hagrees : s.db.agrees) (elapsed : ℕ) :
  (∃ ticketId, (s.db.tick (s.db.now + elapsed)).offers ticketId)
    ↔ (∃ ticketId, s.db.offers ticketId) ∨ s.comesDue elapsed
  := by
  have hagrees' := agrees_of_change hagrees (change_tick s.db (s.db.now + elapsed))
  simp only [offers_iff hagrees, offers_iff hagrees']
  constructor
  · rintro ⟨ticketId, t, ht, hpending, havailable, hflag⟩
    by_cases hdue : t.availableAt ≤ s.db.now
    · exact .inl ⟨ticketId, t, ht, hpending, hdue, hflag⟩
    · right
      exact ⟨t, (Db.ticket_eq_some.mp ht).1, hpending, lt_of_not_ge hdue, havailable, hflag⟩
  · rintro (⟨ticketId, t, ht, hpending, havailable, hflag⟩ | ⟨t, ht, hpending, -, hdue, hflag⟩)
    · exact ⟨ticketId, t, ht, hpending, havailable.trans (by simp [Db.tick]), hflag⟩
    · exact ⟨t.id, t, Table.find_key ht, hpending, hdue, hflag⟩

/-! ### Runs -/

/-- The executions are sound, the jobs agree with their tickets, and a query is asked for some
tickets. -/
structure Proper (s : RunnerState) : Prop where
  sound : s.sound
  agrees : s.db.agrees
  limit : ∀ limit, s.position = .claim limit → limit ≠ 0

variable {settings : Settings} {runner : EvaluationRunner}

/-- The system may act while the main thread moves on, to a query for some tickets if to one. -/
theorem Proper.act {s : RunnerState} (h : s.Proper) (labels : List Label) {position : Position}
    (hposition : ∀ limit, position = .claim limit → limit ≠ 0) :
  (s.act settings labels position).Proper
  := by
  constructor
  · apply sound_run h.sound
  · apply run_keeps Db.agrees (fun _ _ => True) _ _ h.sound h.agrees
    · apply along_of_forall (fun _ _ _ _ => trivial)
    · exact fun _ _ _ hagrees hcreated => agrees_of_created hagrees hcreated
    · exact fun _ _ _ hagrees _ hchange => agrees_of_change hagrees hchange
  · apply hposition

theorem Proper.step {s : RunnerState} (h : s.Proper) (l : RunnerStep) :
  (s.step settings runner l).Proper
  := by
  cases l with
  | startup sweep =>
    simp only [RunnerState.step]
    split
    · apply h.act
      simp
    · apply h
  | recover sweep =>
    simp only [RunnerState.step]
    split
    · apply h.act
      simp
    · apply h
  | capacity =>
    have := runner.claimBatchSize_pos
    simp only [RunnerState.step]
    split
    · split
      · exact ⟨h.sound, h.agrees, by simp⟩
      · refine ⟨h.sound, h.agrees, ?_⟩
        rintro limit ⟨⟩
        omega
    · apply h
  | claim failure locked collaborators =>
    simp only [RunnerState.step, claimed]
    split
    · split
      · exact ⟨h.sound, h.agrees, by simp⟩
      · split
        · exact ⟨h.sound, h.agrees, by simp⟩
        · apply h.act
          simp
    · apply h
  | test =>
    simp only [RunnerState.step]
    split
    · split
      · exact ⟨h.sound, h.agrees, by simp⟩
      · exact ⟨h.sound, h.agrees, by simp⟩
    · apply h
  | done index =>
    simp only [RunnerState.step, discarded]
    split
    · exact ⟨fun r hr => h.sound r (List.mem_of_mem_eraseIdx hr), h.agrees, h.limit⟩
    · apply h
  | execute index failure => apply h.act _ h.limit
  | heartbeat ticketId => apply h.act _ h.limit
  | tick elapsed => apply h.act _ h.limit

theorem proper_initial {db : Db} (h : db.agrees) :
  (initial db).Proper
  := ⟨by simp [initial, System.sound], h, by simp [initial]⟩

theorem proper_after {db : Db} (h : db.agrees) (steps : List RunnerStep) :
  (after settings runner db steps).Proper
  := by
  apply run_invariant Proper (fun _ _ => True) (fun _ l hs _ => hs.step l) (proper_initial h)
  apply along_of_forall (fun _ _ => trivial)

/-- A query that leaves a count of zero failed, or skipped every claimable ticket, and changed
nothing. -/
theorem claim_zero {s : RunnerState} (h : s.Proper) {limit : ℕ}
    (hposition : s.position = .claim limit) {failure : Bool} {locked : Uuid → Bool}
    {collaborators : Uuid → Collaborators}
    (hzero : (s.step settings runner (.claim failure locked collaborators)).position = .test 0) :
  (s.step settings runner (.claim failure locked collaborators)).db = s.db
    ∧ (failure = false → (∃ r, s.claimOnce settings runner limit locked = .ok r) →
      ∀ ticketId, s.db.offers ticketId → s.skipped locked ticketId = true)
  := by
  simp only [step, hposition, claimed] at hzero ⊢
  cases failure with
  | true => simp
  | false =>
    cases hclaim : s.claimOnce settings runner limit locked with
    | error e => simp
    | ok r =>
      obtain ⟨tickets, db⟩ := r
      have hnil : tickets = [] := by simpa [hclaim, act] using hzero
      obtain ⟨hskipped, hdb⟩ := claimTickets_isEmpty (h.limit limit hposition) hclaim
      constructor
      · unfold claimOnce at hclaim
        simpa [act, claimLabel, System.step, System.claimed, hclaim] using hdb hnil
      · rintro - - ticketId ⟨t, ht, hclaimable⟩
        obtain ⟨hmem, rfl⟩ := Db.ticket_eq_some.mp ht
        apply hskipped.mp hnil t hmem hclaimable

/-- A query that leaves a count of zero heeds exactly when there is nothing to claim. -/
theorem heeds_claim {s : RunnerState} (h : s.Proper) {limit : ℕ}
    (hposition : s.position = .claim limit) {failure : Bool} {locked : Uuid → Bool}
    {collaborators : Uuid → Collaborators}
    (hzero : (s.step settings runner (.claim failure locked collaborators)).position = .test 0) :
  (∀ ticketId,
      ¬ (s.step settings runner (.claim failure locked collaborators)).db.offers ticketId)
    ↔ s.heeds settings runner (.claim failure locked collaborators)
  := by
  obtain ⟨hdb, hskipped⟩ := claim_zero h hposition hzero
  rw [hdb]
  constructor
  · rintro hnone - - ⟨ticketId, hoffers⟩
    exact absurd hoffers (hnone ticketId)
  · intro hheeds ticketId hoffers
    obtain ⟨hfailure, hreturns, taken, htaken, hunlocked⟩ := hheeds limit hposition ⟨_, hoffers⟩
    rw [hskipped hfailure hreturns taken htaken] at hunlocked
    cases hunlocked

/-- Only a query leads the main thread to the test of a count of zero. -/
theorem step_eq_self {s : RunnerState} {l : RunnerStep} (hmain : l.main)
    (hquery : ¬ s.queries l) (hzero : (s.step settings runner l).position = .test 0) :
  s.step settings runner l = s
  := by
  cases l with
  | startup sweep =>
    by_cases hat : s.position = .startup
    · simp [step, hat, act] at hzero
    · simp [step, hat]
  | recover sweep =>
    by_cases hat : s.position = .recover
    · simp [step, hat, act] at hzero
    · simp [step, hat]
  | capacity =>
    by_cases hat : s.position = .capacity
    · rw [step, if_pos hat] at hzero
      split at hzero <;> cases hzero
    · simp [step, hat]
  | claim failure locked collaborators =>
    simp only [step]
    split
    case h_1 limit hposition => exact absurd ⟨limit, hposition⟩ hquery
    case h_2 => rfl
  | test =>
    simp only [step]
    split
    case h_1 claimed hposition =>
      simp only [step, hposition] at hzero
      split at hzero <;> cases hzero
    case h_2 => rfl
  | _ => cases hmain

/-- Between a query that claimed nothing and the test, nothing is claimable after a step when
nothing was before it and the step lets the count stand. -/
theorem offers_step {s : RunnerState} (h : s.Proper) {l : RunnerStep} (hquery : ¬ s.queries l)
    (hzero : (s.step settings runner l).position = .test 0) :
  s.position = .test 0
    ∧ ((∀ ticketId, ¬ (s.step settings runner l).db.offers ticketId)
      ↔ s.heeds settings runner l ∧ ∀ ticketId, ¬ s.db.offers ticketId)
  := by
  have hself := @step_eq_self settings runner s l
  cases l with
  | execute index failure =>
    have hposition : s.position = .test 0 := hzero
    have hoffers := offers_executed h.sound h.agrees index failure
    use hposition
    change (∀ ticketId, ¬ (s.executed index failure).db.offers ticketId) ↔ _
    rw [← not_exists, hoffers, not_or, not_exists, and_comm]
    simp only [heeds, hposition, true_imp_iff]
  | tick elapsed =>
    have hposition : s.position = .test 0 := hzero
    have hoffers := offers_tick h.agrees elapsed
    use hposition
    change (∀ ticketId, ¬ (s.db.tick (s.db.now + elapsed)).offers ticketId) ↔ _
    rw [← not_exists, hoffers, not_or, not_exists, and_comm]
    simp only [heeds, hposition, true_imp_iff]
  | heartbeat beaten =>
    use hzero
    rw [heeds, true_and]
    · apply forall_congr'
      intro ticketId
      apply not_congr
      apply offers_heartbeat h.agrees
    all_goals simp
  | done index =>
    have hkept : (s.discarded index).position = s.position ∧ (s.discarded index).db = s.db := by
      unfold discarded
      split <;> exact ⟨rfl, rfl⟩
    change (s.discarded index).position = .test 0 at hzero
    change _ ∧ ((∀ ticketId, ¬ (s.discarded index).db.offers ticketId) ↔ _)
    rw [← hkept.1, hkept.2]
    exact ⟨hzero, (and_iff_right trivial).symm⟩
  | _ =>
    have hsame := hself trivial hquery hzero
    rw [hsame] at hzero ⊢
    simp [heeds, hzero]

/-- At the test of a count of zero, there is nothing to claim exactly when the steps since the last
query let the count stand. -/
theorem offers_after {db : Db} (hagrees : db.agrees) (steps : List RunnerStep)
    (hzero : (after settings runner db steps).position = .test 0) :
  (∀ ticketId, ¬ (after settings runner db steps).db.offers ticketId)
    ↔ AlongSince (step settings runner) queries (heeds settings runner) (initial db) steps
  := by
  induction steps using List.reverseRecOn with
  | nil => cases hzero
  | append_singleton steps l ih =>
    have hproper : (after settings runner db steps).Proper := proper_after hagrees steps
    unfold after at ih hproper hzero ⊢
    rw [run_append, run_cons, run_nil] at hzero ⊢
    rw [alongSince_concat]
    by_cases hquery : (run (step settings runner) (initial db) steps).queries l
    · cases l with
      | claim failure locked collaborators =>
        obtain ⟨limit, hlimit⟩ := hquery
        rw [heeds_claim hproper hlimit hzero]
        simp [queries, hlimit]
      | _ => cases hquery
    · obtain ⟨hbefore, hoffers⟩ := offers_step hproper hquery hzero
      rw [hoffers, ih hbefore, or_iff_right hquery]

/-- The loop is left by a test of a count of zero that finds nothing in flight. -/
theorem leaves_cases {s : RunnerState} {l : RunnerStep} (hin : s.position ≠ .left)
    (hout : (s.step settings runner l).position = .left) :
  s.position = .test 0 ∧ s.runs = [] ∧ (s.step settings runner l).toSystem = s.toSystem
  := by
  cases l with
  | test =>
    simp only [step] at hout ⊢
    split at hout
    case h_1 claimed hposition =>
      split at hout
      case isTrue hleaves =>
        obtain ⟨rfl, hcapacity⟩ := hleaves
        have hpos := runner.maxConcurrency_pos
        have hlength : s.runs.length = 0 := by
          unfold capacity at hcapacity
          omega
        refine ⟨hposition, List.length_eq_zero_iff.mp hlength, ?_⟩
        simp [hcapacity]
      case isFalse => cases hout
    case h_2 => exact absurd hout hin
  | done index =>
    simp only [step, discarded] at hout
    split at hout <;> exact absurd hout hin
  | claim failure locked collaborators =>
    simp only [step, claimed] at hout
    split at hout
    · split at hout
      · cases hout
      · split at hout <;> cases hout
    · exact absurd hout hin
  | capacity =>
    simp only [step] at hout
    split at hout
    · split at hout <;> cases hout
    · exact absurd hout hin
  | startup sweep =>
    simp only [step] at hout
    split at hout
    · cases hout
    · exact absurd hout hin
  | recover sweep =>
    simp only [step] at hout
    split at hout
    · cases hout
    · exact absurd hout hin
  | _ => exact absurd hout hin

/-- Drain mode finishes the work exactly when it does not trust a stale count. A runner that leaves
its loop has no execution in flight, and no ticket is claimable at that moment if and only if every
step since its last claim query let the count of the query stand. -/
theorem drain_finishes_iff (settings : Settings) (labels : List Label) (runner : EvaluationRunner)
    (steps : List RunnerStep) (l : RunnerStep)
    (hin : (after settings runner (System.after settings labels).db steps).position ≠ .left)
    (hout : (after settings runner (System.after settings labels).db (steps ++ [l])).position
      = .left) :
  (((after settings runner (System.after settings labels).db (steps ++ [l])).runs = []
      ∧ ∀ t ∈ (after settings runner (System.after settings labels).db
          (steps ++ [l])).db.tickets.rows,
        claimable (after settings runner (System.after settings labels).db (steps ++ [l])).db none t
          = false)
    ↔ AlongSince (step settings runner) queries (heeds settings runner)
        (initial (System.after settings labels).db) steps)
  := by
  have hagrees := agrees_after settings labels
  have hconcat : after settings runner (System.after settings labels).db (steps ++ [l])
      = (after settings runner (System.after settings labels).db steps).step settings runner l := by
    unfold after
    rw [run_append, run_cons, run_nil]
  rw [hconcat] at hout ⊢
  obtain ⟨hzero, hruns, hleft⟩ := leaves_cases hin hout
  rw [hleft, ← offers_after hagrees steps hzero, ← Db.not_offers_iff, and_iff_right hruns]

end RunnerState

namespace Demo

/-- Settings that retry without a delay. -/
def immediate : Settings :=
  { Settings.default with
    retryBackoffSeconds := [0]
    backoff_ne_nil := by decide
    backoff_nonneg := by decide }

/-- A runner that executes two tickets at a time. -/
def runner : EvaluationRunner where
  worker := worker
  maxConcurrency := 2
  claimBatchSize := 5
  leaseSeconds := 300
  maxConcurrency_pos := by decide
  claimBatchSize_pos := by decide

/-- An iteration up to the test, with a claim query that skips nothing. -/
def iteration (result : Except Exn EvaluatorOutput) : List RunnerStep :=
  [.recover none, .capacity, .claim false (fun _ => false) fun _ => collaborators result]

/-- The only ticket is claimed; it times out after the next query, which finds nothing, and before
the test that follows the query. -/
def timesOutBeforeTest : List RunnerStep :=
  [.startup none] ++ iteration (.error (.timeout "timed out")) ++ [.test]
    ++ iteration (.error (.timeout "timed out"))
    ++ [.execute 0 none, .execute 0 none, .done 0]

/-- The runner leaves its loop while the ticket is claimable. -/
theorem leaves_with_claimable :
  ¬ (∀ l, (RunnerState.after immediate runner (System.after immediate [.createJob job]).db
        timesOutBeforeTest).position ≠ .left →
      (RunnerState.after immediate runner (System.after immediate [.createJob job]).db
        (timesOutBeforeTest ++ [l])).position = .left →
      (RunnerState.after immediate runner (System.after immediate [.createJob job]).db
          (timesOutBeforeTest ++ [l])).runs = []
        ∧ ∀ t ∈ (RunnerState.after immediate runner (System.after immediate [.createJob job]).db
            (timesOutBeforeTest ++ [l])).db.tickets.rows,
          claimable (RunnerState.after immediate runner
            (System.after immediate [.createJob job]).db (timesOutBeforeTest ++ [l])).db none t
            = false)
  := by
  intro h
  have hclean := (h .test (by decide +kernel) (by decide +kernel)).2
  revert hclean
  decide +kernel

/-- The condition fails on that run. -/
theorem drain_finishes_iff_timesOut :
  ¬ AlongSince (RunnerState.step immediate runner) RunnerState.queries
      (RunnerState.heeds immediate runner)
      (RunnerState.initial (System.after immediate [.createJob job]).db) timesOutBeforeTest
  := by
  rw [← RunnerState.drain_finishes_iff immediate [.createJob job] runner timesOutBeforeTest .test
    (by decide +kernel) (by decide +kernel)]
  rintro ⟨-, hclean⟩
  revert hclean
  decide +kernel

end Demo

end Evalorch
