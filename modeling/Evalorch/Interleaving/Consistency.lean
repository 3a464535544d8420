import Evalorch.Interleaving.Deadlock
import Evalorch.Transact.Leases

/-!
# What is committed

What every interleaving of the transactions keeps of the committed rows: each turn moves tickets
along the state machine (`interleaved_refines`), the counters of jobs are those of their tickets
(`interleaved_countersAgree`), a ticket goes from one worker to another only after it was free
(`interleaved_exclusive`), its attempts are its claims (`interleaved_attempts`), and a claim that
begins after a cancellation was committed takes no ticket of the job
(`interleaved_cancellation`).
-/

namespace Evalorch

open Transact TicketRepository JobRepository

/-! ### Commits -/

/-- What a run has committed. -/
abbrev Interleaved.after (db : Db) (turns : List (Turn Operation)) : Db :=
  (interleaved db turns).committed

/-- The step of the interleaved transactions. -/
abbrev turn : Interleaved → Turn Operation → Interleaved :=
  Concurrent.step rowLocks Operation.text

/-- The state keeps to the specifications, on the tickets and jobs of a database. -/
structure OnRows (db : Db) (s : Interleaved) : Prop where
  sound : s.Sound rowLocks (Operation.spec db.jobIdOf)
  keys : SameKeys db s.committed

/-- A transaction begins with a copy of its ticket that names the job of the ticket. -/
def Turn.copies (db : Db) : Turn Operation → Prop
  | .start op => op.copies db
  | _ => True

theorem OnRows.turn {db : Db} {s : Interleaved} (h : OnRows db s) {l : Turn Operation}
    (hl : Turn.copies db l) :
  OnRows db (turn s l)
  := by
  constructor
  · apply Concurrent.sound_step h.sound
    rintro op rfl
    exact Operation.text_meets (db.jobsAre_jobIdOf.of_sameKeys h.keys)
      (Operation.copies_of_sameKeys hl h.keys)
  · obtain hsame | ⟨i, t, -, -, -, hcommitted, hcommits, -⟩ :=
      Concurrent.committed_step h.sound Operation.text l
    · exact (congrArg (SameKeys db) hsame).mpr h.keys
    · exact (congrArg (SameKeys db) hcommitted).mpr (h.keys.trans hcommits.keys)

theorem onRows_initial (db : Db) :
  OnRows db (Concurrent.initial db)
  := ⟨Concurrent.sound_initial db, .refl db⟩

/-- The turn commits the transaction. -/
def commitsAt (s : Interleaved) (l : Turn Operation) (t : Txn Db Row LockMode Operation) : Prop :=
  ∃ i, l = .act i ∧ s.txns[i]? = some t ∧ t.rest = .commit

/-- A turn that changes what is committed commits a transaction. -/
theorem OnRows.commits {db : Db} {s : Interleaved} (h : OnRows db s) (l : Turn Operation) :
  (Evalorch.turn s l).committed = s.committed
    ∨ ∃ t, commitsAt s l t
      ∧ (Evalorch.turn s l).committed = written t.writes s.committed
      ∧ Commits t.tag t.held t.writes s.committed
      ∧ t.tag.ensures s.committed (written t.writes s.committed)
  := by
  obtain hsame | ⟨i, t, hl, ht, hrest, hcommitted, hcommits⟩ :=
    Concurrent.committed_step h.sound Operation.text l
  · exact .inl hsame
  · exact .inr ⟨t, ⟨i, hl, ht, hrest⟩, hcommitted, hcommits⟩

/-- The turn that commits a transaction commits what it has written. -/
theorem OnRows.committed {db : Db} {s : Interleaved} (h : OnRows db s) {l : Turn Operation}
    {t : Txn Db Row LockMode Operation} (ht : commitsAt s l t) :
  (Evalorch.turn s l).committed = written t.writes s.committed
    ∧ t.tag.ensures s.committed (written t.writes s.committed)
  := by
  obtain ⟨i, rfl, ht, hrest⟩ := ht
  constructor
  · simp [Evalorch.turn, Concurrent.step, Concurrent.act, ht, hrest]
  · exact (h.sound.commits ht hrest).2

/-- The copies of a run, as a condition on its turns. -/
theorem along_copies {db : Db} {turns : List (Turn Operation)}
    (hcopies : ∀ op, .start op ∈ turns → op.copies db) (s : Interleaved) :
  Along turn (fun _ l => Turn.copies db l) s turns
  := by
  apply along_of_mem
  intro l hl _
  cases l with
  | start op => exact hcopies op hl
  | _ => trivial

/-- What holds of the committed database, and of what a commit makes of it, holds after a turn. -/
theorem OnRows.after_turn {db : Db} {s : Interleaved} (h : OnRows db s) (l : Turn Operation)
    {P : Db → Prop} (same : P s.committed)
    (commits : ∀ u, commitsAt s l u → Commits u.tag u.held u.writes s.committed →
      P (written u.writes s.committed)) :
  P (Evalorch.turn s l).committed
  := by
  obtain hsame | ⟨u, hu, hcommitted, hcommits, -⟩ := h.commits l
  · rw [hsame]
    exact same
  · rw [hcommitted]
    exact commits u hu hcommits

/-- A turn leaves each ticket as it is, or moves it by a step of a transaction. -/
theorem OnRows.ticket {db : Db} {s : Interleaved} (h : OnRows db s) (l : Turn Operation)
    {id : Uuid} {t : EvaluationTicket} (ht : s.committed.ticket id = some t) :
  ∃ t', (Evalorch.turn s l).committed.ticket id = some t'
    ∧ (t' = t ∨ ∃ u, commitsAt s l u ∧ TicketStep s.committed u.held u.writes u.tag t t')
  := by
  apply h.after_turn (P := fun db' => ∃ t', db'.ticket id = some t'
    ∧ (t' = t ∨ ∃ u, commitsAt s l u ∧ TicketStep s.committed u.held u.writes u.tag t t')) l
  · exact ⟨t, ht, .inl rfl⟩
  · intro u hu hcommits
    obtain ⟨t', ht', hstep⟩ := hcommits.tickets id t ht
    exact ⟨t', ht', .inr ⟨u, hu, hstep⟩⟩

/-- A turn keeps the tickets and jobs. -/
theorem OnRows.sameKeys {db : Db} {s : Interleaved} (h : OnRows db s) (l : Turn Operation) :
  SameKeys s.committed (Evalorch.turn s l).committed
  := h.after_turn l (.refl _) fun _ _ hcommits => hcommits.keys

/-- A turn takes no request to cancel a job back. -/
theorem OnRows.cancelRequested {db : Db} {s : Interleaved} (h : OnRows db s) (l : Turn Operation)
    {jobId : Uuid} (hflag : s.committed.cancelRequested jobId) :
  (Evalorch.turn s l).committed.cancelRequested jobId
  := h.after_turn (P := (Db.cancelRequested · jobId)) l hflag
    fun _ _ hcommits => hcommits.flags jobId hflag

/-- A turn keeps the results with the jobs of their tickets. -/
theorem OnRows.resultsOfJobs {db : Db} {s : Interleaved} (h : OnRows db s)
    (hbelong : s.committed.resultsOfJobs) (l : Turn Operation) :
  (Evalorch.turn s l).committed.resultsOfJobs
  := h.after_turn l hbelong fun _ _ hcommits => hcommits.belong hbelong

/-- A turn leaves the result of a ticket of a cancelled job. -/
theorem OnRows.resultOf {db : Db} {s : Interleaved} (h : OnRows db s) (l : Turn Operation)
    {id : Uuid} {t : EvaluationTicket} (ht : s.committed.ticket id = some t)
    (hflag : s.committed.cancelRequested t.jobId) :
  (Evalorch.turn s l).committed.resultOf id = s.committed.resultOf id
  := h.after_turn (P := fun db' => db'.resultOf id = s.committed.resultOf id) l rfl
    fun _ _ hcommits => hcommits.results id t ht hflag

/-- A job that stands where its tickets are still does after a turn. -/
theorem OnRows.stands {db : Db} {s : Interleaved} (h : OnRows db s) {jobId : Uuid}
    (hstands : s.committed.stands jobId) (l : Turn Operation) :
  (Evalorch.turn s l).committed.stands jobId
  := by
  apply h.after_turn (P := (Db.stands · jobId)) l hstands
  intro u _ hcommits
  obtain huntouched | ⟨-, hstands'⟩ := hcommits.standing jobId
  · exact huntouched.stands hcommits.keys hstands
  · exact hstands'

/-! ### The state machine and the counters -/

/-- In every interleaving committed tickets fit their status. -/
theorem OnRows.wellFormed {db : Db} {s : Interleaved} (h : OnRows db s)
    (hwf : s.committed.wellFormed) (l : Turn Operation) :
  (Evalorch.turn s l).committed.wellFormed
  := by
  intro t' ht'
  have hrow' := Db.ticket_eq_some.mpr ⟨ht', rfl⟩
  obtain ⟨t, ht⟩ := (h.sameKeys l).symm.exists_ticket hrow'
  have hfits := hwf t (Db.ticket_eq_some.mp ht).1
  obtain ⟨t'', ht'', hmove⟩ := h.ticket l ht
  rw [hrow'] at ht''
  cases ht''
  obtain rfl | ⟨u, -, hstep⟩ := hmove
  · exact hfits
  · exact hstep.advance.wellFormed hfits

/-- In every interleaving each turn moves committed tickets along the transitions of the state
machine only, and leaves rows that fit their status. -/
theorem interleaved_refines {db : Db} (hwf : db.wellFormed) {before : List (Turn Operation)}
    {l : Turn Operation} (hcopies : ∀ op, .start op ∈ before ++ [l] → op.copies db) :
  (Interleaved.after db (before ++ [l])).wellFormed
    ∧ ∀ id t, (Interleaved.after db before).ticket id = some t →
      ∃ t', (Interleaved.after db (before ++ [l])).ticket id = some t' ∧ t'.jobId = t.jobId
        ∧ (t'.status = t.status ∨ t'.status ∈ allowedTicketTransitions t.status)
  := by
  have hbefore := along_copies (fun op hop => hcopies op (List.mem_append_left [l] hop))
    (Concurrent.initial db)
  obtain ⟨hrows, hfits⟩ : OnRows db (interleaved db before)
      ∧ (Interleaved.after db before).wellFormed :=
    run_invariant (fun s => OnRows db s ∧ s.committed.wellFormed) (fun _ l => Turn.copies db l)
      (fun s l h hl => ⟨h.1.turn hl, h.1.wellFormed h.2 l⟩) ⟨onRows_initial db, hwf⟩ hbefore
  rw [Interleaved.after, interleaved_append, run_cons, run_nil]
  constructor
  · exact hrows.wellFormed hfits l
  · intro id t ht
    obtain ⟨t', ht', rfl | ⟨u, -, hstep⟩⟩ := hrows.ticket l ht
    · exact ⟨t', ht', rfl, .inl rfl⟩
    · exact ⟨t', ht', hstep.keys.2, hstep.advance.edge⟩

/-- In every interleaving the counters of a job are those of its tickets in every committed
state. -/
theorem interleaved_countersAgree {db : Db} {turns : List (Turn Operation)}
    (hcopies : ∀ op, .start op ∈ turns → op.copies db) {jobId : Uuid}
    (hagree : db.countersAgree jobId) :
  (Interleaved.after db turns).countersAgree jobId
  := by
  apply (interleaved_sound (I := fun db => db.countersAgree jobId) hcopies hagree _).2.2
  intro op held writes db hcommits _ hagree
  obtain huntouched | ⟨-, hstands⟩ := hcommits.standing jobId
  · exact huntouched.countersAgree hcommits.keys hagree
  · exact hstands.countersAgree

/-! ### Tickets as leased items -/

/-- Where a ticket is as an item of work: one that is not there is not to be worked on. -/
def Db.item (db : Db) (ticketId : Uuid) : Item String :=
  match db.ticket ticketId with
  | none => .closed
  | some t =>
    match t.status with
    | .ready | .retry => .waiting
    | .running => .leased (t.workerId.getD "")
    | _ => .closed

theorem TicketStep.item {op : Operation} {held : Locks} {writes : Writes} {db db' : Db} {id : Uuid}
    {t t' : EvaluationTicket} (h : TicketStep db held writes op t t') (ht : db.ticket id = some t)
    (ht' : db'.ticket id = some t') :
  (db.item id).Moves (db'.item id)
  := by
  simp only [Db.item, ht, ht']
  cases h with
  | kept => exact .stay _
  | claimed pending =>
    rcases pending with hstatus | hstatus <;> rw [hstatus] <;> exact .lease _
  | extended owns =>
    have hrunning := (owned_iff.mp owns).1
    simp only [extendedRow, hrunning]
    exact .stay _
  | settled _ target s _ owns allowed =>
    rw [(owned_iff.mp owns).1]
    obtain hterminal | rfl := mem_allowed_running.mp allowed
    · cases target <;> first | exact .close _ | cases hterminal
    · exact .release _
  | cancelled message pending =>
    rcases pending with hstatus | hstatus <;> rw [hstatus] <;> exact .withdraw
  | reset failed =>
    rw [failed]
    exact .reopen
  | recovered _ cancelled delay passed =>
    rw [(expired_iff.mp passed).1]
    simp only [recoveredRow]
    cases cancelled
    · by_cases hlast : t.attemptCount ≥ t.maxAttempts <;> simp only [hlast]
      · exact .close _
      · exact .release _
    · exact .close _
  | swept _ message passed =>
    rw [(expired_iff.mp passed).1]
    exact .close _

theorem OnRows.item {db : Db} {s : Interleaved} (h : OnRows db s) (l : Turn Operation)
    (id : Uuid) :
  (s.committed.item id).Moves ((Evalorch.turn s l).committed.item id)
  := by
  cases ht : s.committed.ticket id with
  | some t =>
    obtain ⟨t', ht', rfl | ⟨u, -, hstep⟩⟩ := h.ticket l ht
    · simp only [Db.item, ht, ht']
      exact .stay _
    · exact hstep.item ht ht'
  | none =>
    have hnone : (Evalorch.turn s l).committed.ticket id = none := by
      by_contra hsome
      obtain ⟨t', ht'⟩ := Option.ne_none_iff_exists'.mp hsome
      obtain ⟨t, ht₀⟩ := (h.sameKeys l).symm.exists_ticket ht'
      rw [ht] at ht₀
      cases ht₀
    simp only [Db.item, ht, hnone]
    exact .stay _

theorem onRows_interleaved {db : Db} {turns : List (Turn Operation)}
    (hcopies : ∀ op, .start op ∈ turns → op.copies db) :
  OnRows db (interleaved db turns)
  := run_invariant (OnRows db) (fun _ l => Turn.copies db l) (fun _ _ h hl => h.turn hl)
    (onRows_initial db) (along_copies hcopies _)

/-- In every interleaving a ticket that was leased to one worker is leased to another only after
it has waited to be claimed. -/
theorem interleaved_exclusive {db : Db} {before turns : List (Turn Operation)}
    (hcopies : ∀ op, .start op ∈ before ++ turns → op.copies db) {id : Uuid}
    {workerId workerId' : String} (hne : workerId ≠ workerId')
    (hstart : (Interleaved.after db before).item id = .leased workerId)
    (hend : (Interleaved.after db (before ++ turns)).item id = .leased workerId') :
  ∃ mid rest, turns = mid ++ rest ∧ (Interleaved.after db (before ++ mid)).item id = .waiting
  := by
  have hbefore := onRows_interleaved fun op hop => hcopies op (List.mem_append_left turns hop)
  rw [Interleaved.after, interleaved_append] at hend
  obtain ⟨mid, rest, rfl, hwaits⟩ := waits_between
    (fun s : Interleaved => s.committed.item id) (I := OnRows db)
    (P := fun _ l => Turn.copies db l)
    (fun _ _ h hl => h.turn hl) (fun _ l h _ => h.item l id) hbefore
    (along_copies (fun op hop => hcopies op (List.mem_append_right before hop)) _) hne hstart hend
  use mid, rest, rfl
  rw [Interleaved.after, interleaved_append]
  exact hwaits

/-! ### Attempts -/

/-- The turn opens a ticket again that was closed. -/
def reopens (id : Uuid) (s : Interleaved) (l : Turn Operation) : Prop :=
  s.committed.item id = .closed ∧ (turn s l).committed.item id = .waiting

/-- A turn that does not reopen a ticket counts an attempt exactly when it leases the ticket. -/
theorem OnRows.attempts {db : Db} {s : Interleaved} (h : OnRows db s) {l : Turn Operation}
    {id : Uuid} {t : EvaluationTicket} (ht : s.committed.ticket id = some t)
    (hreset : ¬ reopens id s l) :
  ∃ t', (Evalorch.turn s l).committed.ticket id = some t' ∧ t'.attemptCount = t.attemptCount
    + if leases Evalorch.turn (fun s => s.committed.item id) s l then 1 else 0
  := by
  obtain ⟨t', ht', hmove⟩ := h.ticket l ht
  use t', ht'
  have hleases : leases Evalorch.turn (fun s => s.committed.item id) s l
      = (!(t.status = .running) && t'.status = .running) := by
    have hleased : ∀ (db : Db) t, db.ticket id = some t →
        (db.item id).isLeased = decide (t.status = .running) := by
      intro db t ht
      simp only [Db.item, ht]
      cases t.status <;> rfl
    unfold leases
    rw [hleased _ t ht, hleased _ t' ht']
  rw [hleases]
  obtain rfl | ⟨u, -, hstep⟩ := hmove
  · simp
  generalize u.tag = op at hstep
  cases hstep with
  | kept => simp
  | claimed pending =>
    rcases pending with hstatus | hstatus <;> simp [claimedRow, hstatus]
  | extended owns => simp [(owned_iff.mp owns).1, extendedRow]
  | settled _ target s _ owns allowed =>
    cases target <;> simp [allowedTicketTransitions] at allowed <;> simp [transitionRow]
  | cancelled message pending => simp [cancelledRow]
  | reset failed =>
    apply absurd _ hreset
    simp only [reopens, Db.item, ht, ht', failed]
    trivial
  | recovered _ cancelled delay passed => simp [(expired_iff.mp passed).1, recoveredRow]
  | swept _ message passed => simp [(expired_iff.mp passed).1, cancelledRow]

/-- In every interleaving the attempts of a ticket that is not reopened are counted by its
claims. -/
theorem interleaved_attempts {db : Db} {before turns : List (Turn Operation)}
    (hcopies : ∀ op, .start op ∈ before ++ turns → op.copies db) {id : Uuid}
    {t : EvaluationTicket} (ht : (Interleaved.after db before).ticket id = some t)
    (hreset : Along turn (fun s l => ¬ reopens id s l) (interleaved db before) turns) :
  ∃ t', (Interleaved.after db (before ++ turns)).ticket id = some t'
    ∧ t'.attemptCount = t.attemptCount
      + steps turn (leases turn fun s => s.committed.item id) (interleaved db before) turns
  := by
  have hs := onRows_interleaved fun op hop => hcopies op (List.mem_append_left turns hop)
  have hcopies' := along_copies (fun op hop => hcopies op (List.mem_append_right before hop))
    (interleaved db before)
  rw [Interleaved.after, interleaved_append]
  rw [Interleaved.after] at ht
  clear hcopies
  generalize interleaved db before = s at *
  induction turns generalizing s t with
  | nil => exact ⟨t, ht, by simp [steps]⟩
  | cons l turns ih =>
    obtain ⟨t', ht', hcount⟩ := hs.attempts ht hreset.1
    obtain ⟨t'', ht'', hcount'⟩ := ih _ ht' hreset.2 (hs.turn hcopies'.1) hcopies'.2
    use t'', ht''
    rw [hcount', hcount, steps]
    push_cast
    ring

/-! ### Cancellation -/

/-- A transaction that leaves the tickets of a job alone. -/
def leavesAlone (jobId : Uuid) : Spec Db Row LockMode where
  waits _ _ _ := True
  commits _ writes db :=
    ∀ id t, db.ticket id = some t → t.jobId = jobId → (written writes db).ticket id = some t

/-- In every interleaving a claim that begins after the cancellation of a job was committed takes
no ticket of the job. -/
theorem interleaved_cancellation {db : Db} {before turns : List (Turn Operation)}
    (hcopies : ∀ op, .start op ∈ before ++ turns → op.copies db) {i : ℕ} {now : Instant}
    {r : ClaimRequest} {jobId : Uuid}
    (hbegins : (interleaved db before).txns[i]? = some (.begin (.claim now r) (claimText now r)))
    (hflag : (Interleaved.after db before).cancelRequested jobId) {id : Uuid}
    {t : EvaluationTicket} (ht : (Interleaved.after db (before ++ turns)).ticket id = some t)
    (hjob : t.jobId = jobId) :
  (Interleaved.after db (before ++ turns ++ [.act i])).ticket id = some t
  := by
  have hs := onRows_interleaved fun op hop => hcopies op (List.mem_append_left turns hop)
  have hmeets : KeepsTo db.jobIdOf (leavesAlone jobId) (claimText now r) [] []
      (interleaved db before).committed := by
    apply meets_claimText (db.jobsAre_jobIdOf.of_sameKeys hs.keys)
    intro held writes db' ids hjobs _ _ hids hnot id t ht hof
    by_contra hchanged
    apply hnot id (hids id fun hsame => hchanged (hsame.trans ht))
    rw [hjobs id t ht, hof]
    exact hflag
  obtain ⟨u, hu, -, hu'⟩ := @Concurrent.meets_run _ _ _ _ _ rowLocks (Operation.spec db.jobIdOf) _
    Operation.text (SameKeys db) (fun op => op.copies db)
    (fun op held writes db' hcommits hkeys => hkeys.trans hcommits.1.keys)
    (fun op db' hop hkeys => Operation.text_meets (db.jobsAre_jobIdOf.of_sameKeys hkeys)
      (Operation.copies_of_sameKeys hop hkeys)) _ hs.sound hs.keys _
    (fun op hop => hcopies op (List.mem_append_right before hop)) _ _ _ hbegins hmeets
  have hs' := onRows_interleaved hcopies
  rw [← interleaved_append] at hu hu'
  rw [Interleaved.after, interleaved_append, run_cons, run_nil]
  obtain hsame | ⟨j, u', hl, hju', hrest, hcommitted, -⟩ :=
    Concurrent.committed_step hs'.sound Operation.text (.act i)
  · exact (congrArg (Db.ticket · id) hsame).trans ht
  · cases hl
    rw [hu] at hju'
    cases hju'
    rw [hrest] at hu'
    have hcommits := hu' _ .refl id t ht hjob
    exact (congrArg (Db.ticket · id) hcommitted).trans hcommits

namespace Demo

/-- A claim of one ticket of the first job. -/
def claimOne (worker : Worker) : ClaimRequest where
  worker := worker
  limit := 1
  leaseSeconds := 300
  jobId := some 1
  scan := .stored
  jobScan := .stored

/-- A transaction begins and takes some turns. -/
def alone (i : ℕ) (op : Operation) : List (Turn Operation) :=
  .start op :: List.replicate 30 (.act i)

/-- The first worker claims the ticket of the first job. -/
def claimedByFirst : List (Turn Operation) :=
  alone 0 (.claim 0 (claimOne worker))

/-- A sweep takes the ticket back, and the second worker claims it. -/
def takenBack : List (Turn Operation) :=
  alone 1 (.recover 400000000 sweep) ++ alone 2 (.claim 500000000 (claimOne otherWorker))

/-- A run of claims, sweeps and cancellations begins no settlement. -/
theorem copies_of_all {db : Db} {turns : List (Turn Operation)}
    (h : turns.all (fun
      | .start op => op.settlement.isNone
      | _ => true) = true) :
  ∀ op, .start op ∈ turns → op.copies db
  := by
  intro op hop now r hr
  have hnone := List.all_eq_true.mp h _ hop
  simp only [hr] at hnone
  cases hnone

/-- The first worker is about to commit its claim. -/
def claimingByFirst : List (Turn Operation) :=
  .start (.claim 0 (claimOne worker)) :: List.replicate 9 (.act 0)

theorem interleaved_refines_claimingByFirst :
  (Interleaved.after twoJobs (claimingByFirst ++ [.act 0])).wellFormed
    ∧ ∀ id t, (Interleaved.after twoJobs claimingByFirst).ticket id = some t →
      ∃ t', (Interleaved.after twoJobs (claimingByFirst ++ [.act 0])).ticket id = some t'
        ∧ t'.jobId = t.jobId
        ∧ (t'.status = t.status ∨ t'.status ∈ allowedTicketTransitions t.status)
  := interleaved_refines (wellFormed_after .default _) (copies_of_all (by decide +kernel))

theorem interleaved_countersAgree_claimedByFirst :
  (Interleaved.after twoJobs claimedByFirst).countersAgree 1
  := by
  apply interleaved_countersAgree (copies_of_all (by decide +kernel))
  have hagree : (twoJobs.job 1).all (fun j => j.counters = (ticketCounts 1 twoJobs).ends)
      = true := by
    decide +kernel
  intro j hj
  rw [hj] at hagree
  exact of_decide_eq_true hagree

theorem interleaved_exclusive_takenBack :
  ∃ mid rest, takenBack = mid ++ rest
    ∧ (Interleaved.after twoJobs (claimedByFirst ++ mid)).item 10 = .waiting
  := interleaved_exclusive (copies_of_all (by decide +kernel)) 
    (show "runner:a" ≠ "runner:b" by decide) (by decide +kernel) (by decide +kernel)

theorem interleaved_attempts_takenBack :
  ∃ t t', (Interleaved.after twoJobs claimedByFirst).ticket 10 = some t
    ∧ (Interleaved.after twoJobs (claimedByFirst ++ takenBack)).ticket 10 = some t'
    ∧ t'.attemptCount = t.attemptCount + steps turn (leases turn fun s => s.committed.item 10)
      (interleaved twoJobs claimedByFirst) takenBack
  := by
  have hrow : ((Interleaved.after twoJobs claimedByFirst).ticket 10).isSome = true := by
    decide +kernel
  obtain ⟨t, ht⟩ := Option.isSome_iff_exists.mp hrow
  use t
  have hreset : Along turn (fun s l => ¬ reopens 10 s l) (interleaved twoJobs claimedByFirst)
      takenBack := by
    unfold reopens
    decide +kernel
  obtain ⟨t', ht', hcount⟩ := interleaved_attempts (copies_of_all (by decide +kernel)) ht hreset
  exact ⟨t', ht, ht', hcount⟩

/-- The first job is cancelled, and then a claim begins. -/
def cancelledFirst : List (Turn Operation) :=
  alone 0 (.cancelJob 0 1 .stored) ++ [.start (.claim 0 (claimOne worker))]

theorem interleaved_cancellation_cancelledFirst :
  ∃ t, (Interleaved.after twoJobs (cancelledFirst ++ List.replicate 2 (.act 1))).ticket 10 = some t
    ∧ (Interleaved.after twoJobs
      (cancelledFirst ++ List.replicate 2 (.act 1) ++ [.act 1])).ticket 10 = some t
  := by
  have hrow : ((Interleaved.after twoJobs (cancelledFirst ++ List.replicate 2 (.act 1))).ticket
      10).any (·.jobId = 1) = true := by decide +kernel
  obtain ⟨t, ht, hjob⟩ := (Option.any_eq_true _ _).mp hrow
  have hflag : ((Interleaved.after twoJobs cancelledFirst).job 1).any
      (·.cancellationRequestedAt.isSome) = true := by decide +kernel
  obtain ⟨j, hj, hset⟩ := (Option.any_eq_true _ _).mp hflag
  have hbegins : (interleaved twoJobs cancelledFirst).txns[1]?
      = some (.begin (.claim 0 (claimOne worker)) (claimText 0 (claimOne worker))) := by
    have hlength : (interleaved twoJobs (alone 0 (.cancelJob 0 1 .stored))).txns.length = 1 := by
      decide +kernel
    rw [cancelledFirst, interleaved_append, run_cons, run_nil]
    simp only [Concurrent.step]
    rw [List.getElem?_append_right hlength.le, hlength]
    rfl
  use t, ht
  exact interleaved_cancellation (copies_of_all (by decide +kernel)) hbegins ⟨j, hj, hset⟩ ht
    (of_decide_eq_true hjob)

end Demo

end Evalorch
