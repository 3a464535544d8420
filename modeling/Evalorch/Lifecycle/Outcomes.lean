import Evalorch.Lifecycle.Operations

/-!
# What operations report

A recovery sweep, a cancellation and a retry request return the numbers of tickets that they moved.
The numbers are those of the rows that differ before and after (`operations_report_exactly`), also
for the two statements of a sweep, of which the second looks at what the first has left.
-/

namespace Evalorch

open Transact TicketRepository JobRepository

/-- The number of tickets that went from one status to another. -/
def moved (status status' : TicketStatus) (db db' : Db) : ℕ :=
  db.tickets.count fun t =>
    t.status = status && (db'.ticket t.id).any fun t' => t'.status = status'

/-- The number of tickets whose status changed. -/
def changed (db db' : Db) : ℕ :=
  db.tickets.count fun t => (db'.ticket t.id).any fun t' => t'.status ≠ t.status

/-- The row of a ticket, when every ticket was rewritten in place. -/
theorem ticket_of_rows {db db' : Db} {f : EvaluationTicket → EvaluationTicket}
    (hrows : db'.tickets.rows = db.tickets.rows.map f) (hid : ∀ t, (f t).id = t.id)
    {t : EvaluationTicket} (ht : t ∈ db.tickets.rows) :
  db'.ticket t.id = some (f t)
  := by
  apply Db.ticket_eq_some.mpr
  rw [hrows]
  exact ⟨List.mem_map_of_mem ht, hid t⟩

/-- What was moved, when every ticket was rewritten in place. -/
theorem moved_eq {db db' : Db} {f : EvaluationTicket → EvaluationTicket}
    (hrows : db'.tickets.rows = db.tickets.rows.map f) (hid : ∀ t, (f t).id = t.id)
    (status status' : TicketStatus) :
  moved status status' db db'
    = db.tickets.count fun t => t.status = status && (f t).status = status'
  := by
  apply List.countP_congr
  intro t ht
  simp [ticket_of_rows hrows hid ht]

/-- What changed, when every ticket was rewritten in place. -/
theorem changed_eq {db db' : Db} {f : EvaluationTicket → EvaluationTicket}
    (hrows : db'.tickets.rows = db.tickets.rows.map f) (hid : ∀ t, (f t).id = t.id) :
  changed db db' = db.tickets.count fun t => (f t).status ≠ t.status
  := by
  apply List.countP_congr
  intro t ht
  simp [ticket_of_rows hrows hid ht]

/-! ### One statement -/

section Patch

variable {db db' : Db} {selects : EvaluationTicket → Bool}
  {row : EvaluationTicket → EvaluationTicket} {status' : TicketStatus}
  (hrows : db'.tickets.rows = db.tickets.rows.map (patch selects row))
  (hid : ∀ t, (row t).id = t.id) (hrow : ∀ t, (row t).status = status')

include hrows hid hrow in
/-- A statement moves the tickets it selects to the status that it gives to all of them. -/
theorem moved_patch {status : TicketStatus} (hne : status ≠ status') :
  moved status status' db db' = db.tickets.count fun t => selects t && t.status = status
  := by
  rw [moved_eq hrows (patch_field EvaluationTicket.id hid)]
  apply List.countP_congr
  intro t _
  cases hselects : selects t with
  | true => simp [patch_of_pos hselects, hrow]
  | false =>
    rw [patch_of_neg hselects]
    by_cases hstatus : t.status = status <;> simp [hstatus, hne]

include hrows hid hrow in
/-- A statement changes the status of the tickets it selects, when none of these has it already. -/
theorem changed_patch (hselected : ∀ t, selects t = true → t.status ≠ status') :
  changed db db' = db.tickets.count selects
  := by
  rw [changed_eq hrows (patch_field EvaluationTicket.id hid)]
  apply List.countP_congr
  intro t _
  cases hselects : selects t with
  | true => simp [patch_of_pos hselects, hrow, (hselected t hselects).symm]
  | false => simp [patch_of_neg hselects]

include hrows hrow in
/-- A statement leaves no ticket that it would select, besides those it has given its status. -/
theorem unselected_of_patch {t' : EvaluationTicket} (ht' : t' ∈ db'.tickets.rows)
    (hne : t'.status ≠ status') :
  selects t' = false
  := by
  rw [hrows] at ht'
  obtain ⟨t, ht, rfl⟩ := List.mem_map.mp ht'
  cases hselects : selects t with
  | true =>
    rw [patch_of_pos hselects] at hne
    exact absurd (hrow t) hne
  | false => rwa [patch_of_neg hselects]

end Patch

/-! ### Sweeps -/

/-- Elements that meet one of two conditions that exclude each other. -/
theorem filter_append_filter_perm {α : Type} {p q r : α → Bool} {l : List α}
    (h : ∀ a ∈ l, r a = (p a || q a)) (hnot : ∀ a ∈ l, p a = true → q a = false) :
  (l.filter p ++ l.filter q).Perm (l.filter r)
  := by
  have hleft : (l.filter r).filter p = l.filter p := by
    rw [List.filter_filter]
    apply List.filter_congr
    intro a ha
    cases hp : p a <;> simp [h a ha, hp]
  have hright : (l.filter r).filter (fun a => !p a) = l.filter q := by
    rw [List.filter_filter]
    apply List.filter_congr
    intro a ha
    cases hp : p a with
    | true => simp [hnot a ha hp]
    | false => simp [h a ha, hp]
  rw [← hleft, ← hright]
  apply List.filter_append_perm

/-- What two statements return that rewrite a list one after the other, when the second one does
not rewrite what the first one has returned. -/
theorem filter_map_append_filter_map {α : Type} {p p' : α → Bool} {f f' : α → α} {l : List α}
    (hp : ∀ a, p (f a) = p a) (hp' : ∀ a, p' (f' (f a)) = p' a)
    (hsame : ∀ a ∈ l, p a = true → f' (f a) = f a) :
  (l.map f).filter p ++ ((l.map f).map f').filter p'
    = (l.filter p ++ l.filter p').map (f' ∘ f)
  := by
  have hcomp : p ∘ f = p := funext hp
  have hcomp' : p' ∘ f' ∘ f = p' := funext hp'
  have hfirst : (l.map f).filter p = (l.filter p).map (f' ∘ f) := by
    rw [List.filter_map, hcomp]
    apply List.map_congr_left
    intro a ha
    obtain ⟨hmem, hchosen⟩ := List.mem_filter.mp ha
    exact (hsame a hmem hchosen).symm
  have hsecond : ((l.map f).map f').filter p' = (l.filter p').map (f' ∘ f) := by
    rw [List.map_map, List.filter_map, hcomp']
  rw [hfirst, hsecond, List.map_append]

/-- Two statements that rewrite tickets one after the other: the first takes those of `p` from
their workers, the second cancels those of `p'`, and none is taken twice. -/
structure SweepStatements (db : Db) (p p' : EvaluationTicket → Bool)
    (f f' : EvaluationTicket → EvaluationTicket) : Prop where
  keeps : ∀ t, (f t).id = t.id ∧ (f t).jobId = t.jobId
  keeps' : ∀ t, (f' t).id = t.id ∧ (f' t).jobId = t.jobId
  chosen : ∀ t, p (f t) = p t
  chosen' : ∀ t, p' (f' (f t)) = p' t
  taken : ∀ t ∈ db.tickets.rows, p t = true → t.status = .running ∧ p' t = false
    ∧ f' (f t) = f t
    ∧ ((f t).status = .retry ∨ (f t).status = .failed ∨ (f t).status = .cancelled)
  swept : ∀ t ∈ db.tickets.rows, p' t = true → t.status = .running
    ∧ (f' (f t)).status = .cancelled
  left : ∀ t, p t = false → p' t = false → f' (f t) = t

/-- What a sweep does to the tickets: it rewrites some that run, and returns these. -/
structure Sweeps (db : Db) (tickets : List EvaluationTicket)
    (f : EvaluationTicket → EvaluationTicket) : Prop where
  keepsId : ∀ t, (f t).id = t.id
  keepsJob : ∀ t, (f t).jobId = t.jobId
  moves : ∀ t ∈ db.tickets.rows, f t = t ∨ t.status = .running
    ∧ ((f t).status = .retry ∨ (f t).status = .failed ∨ (f t).status = .cancelled)
  returned : tickets.Perm
    ((db.tickets.rows.filter fun t => t.status = .running && (f t).status ≠ .running).map f)

theorem recoveredRow_status (now : Instant) (cancelled : Bool) (delay : Duration)
    (t : EvaluationTicket) :
  (recoveredRow now cancelled delay t).status = .retry
    ∨ (recoveredRow now cancelled delay t).status = .failed
    ∨ (recoveredRow now cancelled delay t).status = .cancelled
  := by
  simp only [recoveredRow]
  split
  · exact .inr (.inr rfl)
  · split
    · exact .inr (.inl rfl)
    · exact .inl rfl

/-- The two statements of a sweep take different tickets. -/
theorem exists_sweepStatements (locked locked' : Uuid → Bool) (jitter : Uuid → Duration)
    (batch : ℕ) (db : Db) :
  let first := recoverExpiredLeases locked jitter batch db
  let second := cancelRunningForCancelledJobs locked' batch first.2
  ∃ p p' f f', SweepStatements db p p' f f'
    ∧ first.1 = (db.tickets.rows.map f).filter p
    ∧ second.1 = ((db.tickets.rows.map f).map f').filter p'
    ∧ second.2.tickets.rows = (db.tickets.rows.map f).map f'
  := by
  intro first second
  set p : EvaluationTicket → Bool := fun t =>
    (selectForUpdate db (expired db.now) leaseOrder locked batch).contains t.id with hp
  set p' : EvaluationTicket → Bool := fun t =>
    (selectForUpdate first.2 (fun t => expired first.2.now t && jobCancelled first.2 t)
      leaseOrder locked' batch).contains t.id with hp'
  set f := patch p fun t => recoveredRow db.now (jobCancelled db t) (jitter t.id) t with hf
  set f' := patch p' (cancelledRow first.2.now "job cancelled while ticket was running") with hf'
  have hkeeps : ∀ t, (f t).id = t.id ∧ (f t).jobId = t.jobId := by
    intro t
    simp only [hf, patch]
    split <;> exact ⟨rfl, rfl⟩
  have hkeeps' : ∀ t, (f' t).id = t.id ∧ (f' t).jobId = t.jobId := by
    intro t
    simp only [hf', patch]
    split <;> exact ⟨rfl, rfl⟩
  have hchosen : ∀ t, p (f t) = p t := by
    intro t
    simp only [hp, (hkeeps t).1]
  have hchosen' : ∀ t, p' (f' (f t)) = p' t := by
    intro t
    simp only [hp', (hkeeps' (f t)).1, (hkeeps t).1]
  have hselected : ∀ t ∈ first.2.tickets.rows, p' t = true → t.status = .running := by
    intro t ht hchosen
    have hselects := selects_of_mem ht (List.contains_iff_mem.mp hchosen)
    rw [Bool.and_eq_true] at hselects
    exact (expired_iff.mp hselects.1).1
  -- What the first statement takes is not running any more, so the second one passes it over.
  have htaken : ∀ t ∈ db.tickets.rows, p t = true → t.status = .running ∧ p' t = false
      ∧ f' (f t) = f t
      ∧ ((f t).status = .retry ∨ (f t).status = .failed ∨ (f t).status = .cancelled) := by
    intro t ht hmem
    have hrecovered : f t = recoveredRow db.now (jobCancelled db t) (jitter t.id) t :=
      patch_of_pos hmem
    have hsame : p' (f t) = p' t := by
      simp only [hp', (hkeeps t).1]
    have hnot : p' t = false := by
      cases hmem' : p' t with
      | false => rfl
      | true =>
        have hrunning := hselected (f t) (List.mem_map_of_mem ht) (hsame.trans hmem')
        rw [hrecovered] at hrunning
        exact absurd hrunning (recoveredRow_not_running _ _ _ _)
    refine ⟨(expired_iff.mp (selects_of_mem ht (List.contains_iff_mem.mp hmem))).1, hnot, ?_, ?_⟩
    · exact patch_of_neg (hsame.trans hnot)
    · rw [hrecovered]
      apply recoveredRow_status
  refine ⟨p, p', f, f', ⟨hkeeps, hkeeps', hchosen, hchosen', htaken, ?_, ?_⟩, rfl, rfl, rfl⟩
  · intro t ht hmem'
    have hstay : f t = t := by
      apply patch_of_neg
      cases hmem : p t with
      | false => rfl
      | true =>
        rw [(htaken t ht hmem).2.1] at hmem'
        cases hmem'
    have hrow : t ∈ first.2.tickets.rows := List.mem_map.mpr ⟨t, ht, hstay⟩
    refine ⟨hselected t hrow hmem', ?_⟩
    have hcancelled : f' t
        = cancelledRow first.2.now "job cancelled while ticket was running" t :=
      patch_of_pos hmem'
    rw [hstay, hcancelled]
    rfl
  · intro t hnot hnot'
    have hstay : f t = t := patch_of_neg hnot
    rw [hstay]
    exact patch_of_neg hnot'

/-- The two statements of a sweep. -/
theorem exists_sweeps (locked locked' : Uuid → Bool) (jitter : Uuid → Duration) (batch : ℕ)
    (db : Db) :
  let first := recoverExpiredLeases locked jitter batch db
  let second := cancelRunningForCancelledJobs locked' batch first.2
  ∃ f, second.2.tickets.rows = db.tickets.rows.map f ∧ Sweeps db (first.1 ++ second.1) f
  := by
  intro first second
  obtain ⟨p, p', f, f', h, hfirst, hsecond, hrows⟩ :=
    exists_sweepStatements locked locked' jitter batch db
  refine ⟨f' ∘ f, hrows.trans List.map_map, ?_, ?_, ?_, ?_⟩
  · exact fun t => (h.keeps' (f t)).1.trans (h.keeps t).1
  · exact fun t => (h.keeps' (f t)).2.trans (h.keeps t).2
  · intro t ht
    cases hmem : p t with
    | true =>
      obtain ⟨hrunning, -, hsame, hstatus⟩ := h.taken t ht hmem
      rw [Function.comp_apply, hsame]
      exact .inr ⟨hrunning, hstatus⟩
    | false =>
      cases hmem' : p' t with
      | true =>
        obtain ⟨hrunning, hstatus⟩ := h.swept t ht hmem'
        exact .inr ⟨hrunning, .inr (.inr hstatus)⟩
      | false => exact .inl (h.left t hmem hmem')
  · have hreturned : first.1 ++ second.1
        = (db.tickets.rows.filter p ++ db.tickets.rows.filter p').map (f' ∘ f) := by
      rw [hfirst, hsecond]
      apply filter_map_append_filter_map h.chosen h.chosen'
      exact fun t ht hmem => (h.taken t ht hmem).2.2.1
    rw [hreturned]
    apply List.Perm.map
    apply filter_append_filter_perm
    · intro t ht
      cases hmem : p t with
      | true =>
        obtain ⟨hrunning, -, hsame, hstatus⟩ := h.taken t ht hmem
        rw [Function.comp_apply, hsame]
        rcases hstatus with hstatus | hstatus | hstatus <;> simp [hrunning, hstatus]
      | false =>
        cases hmem' : p' t with
        | true =>
          obtain ⟨hrunning, hstatus⟩ := h.swept t ht hmem'
          simp [hrunning, hstatus]
        | false => simp [h.left t hmem hmem']
    · exact fun t ht hmem => (h.taken t ht hmem).2.1

/-- A sweep changes the status of the tickets that run no longer. -/
theorem Sweeps.leaves_iff {db : Db} {tickets : List EvaluationTicket}
    {f : EvaluationTicket → EvaluationTicket} (h : Sweeps db tickets f) {t : EvaluationTicket}
    (ht : t ∈ db.tickets.rows) :
  (f t).status ≠ t.status ↔ t.status = .running ∧ (f t).status ≠ .running
  := by
  rcases h.moves t ht with hstay | ⟨hrunning, hstatus⟩
  · simp [hstay]
  · rcases hstatus with hstatus | hstatus | hstatus <;> simp [hrunning, hstatus]

/-- `_record_recovery` counts every ticket once. -/
theorem countP_add_countP_add_countP (tickets : List EvaluationTicket) :
  (tickets.countP fun t => t.status ≠ .cancelled && t.status ≠ .failed)
      + (tickets.countP fun t => t.status = .failed)
      + (tickets.countP fun t => t.status = .cancelled)
    = tickets.length
  := by
  induction tickets with
  | nil => rfl
  | cons t tickets ih =>
    cases hstatus : t.status <;> simp [hstatus] at ih ⊢ <;> omega

/-- Among the tickets that a sweep returns, those with a status are the ones it moved there. -/
theorem countP_returned {db db' : Db} {tickets : List EvaluationTicket}
    {f : EvaluationTicket → EvaluationTicket} (h : Sweeps db tickets f)
    (hrows : db'.tickets.rows = db.tickets.rows.map f) {status : TicketStatus}
    (hne : status ≠ .running) :
  (tickets.countP fun t => t.status = status) = moved .running status db db'
  := by
  rw [h.returned.countP_eq, List.countP_map, List.countP_filter, moved_eq hrows h.keepsId]
  apply List.countP_congr
  intro t _
  by_cases hstatus : (f t).status = status <;> simp [hstatus, hne]

/-- What a sweep reports: the tickets it moved, by where they went, and their jobs. -/
structure SweepReported (report : RecoveryReport) (db db' : Db) : Prop where
  toRetry : report.recoveredToRetry = moved .running .retry db db'
  toFailed : report.recoveredToFailed = moved .running .failed db db'
  cancelled : report.cancelledRunning = moved .running .cancelled db db'
  nothingElse : report.total = changed db db'
  jobsOnce : report.jobsUpdated.Nodup
  jobsOfMoved : ∀ jobId, jobId ∈ report.jobsUpdated ↔ ∃ t ∈ db.tickets.rows,
    t.jobId = jobId ∧ ∃ t', db'.ticket t.id = some t' ∧ t'.status ≠ t.status

theorem sweepReported (settings : Settings) (locked locked' : Uuid → Bool)
    (jitter : Uuid → Duration) (limit : Option ℕ) (db : Db) :
  let swept := recoverAbandonedTickets settings locked locked' jitter limit db
  SweepReported swept.1 db swept.2
  := by
  intro swept
  obtain ⟨f, hrows, h⟩ := exists_sweeps locked locked' jitter
    (limit.getD settings.runnerRecoveryBatchLimit) db
  set first := recoverExpiredLeases locked jitter
    (limit.getD settings.runnerRecoveryBatchLimit) db with hfirst
  set second := cancelRunningForCancelledJobs locked'
    (limit.getD settings.runnerRecoveryBatchLimit) first.2 with hsecond
  set tickets := first.1 ++ second.1 with htickets
  have hswept : swept.2.tickets.rows = db.tickets.rows.map f := by
    have hdb : swept.2 = recomputeJobs (tickets.map (·.jobId)).dedup second.2 := rfl
    rw [hdb, recomputeJobs_eq (List.nodup_dedup _)]
    exact hrows
  have hreturned : ∀ t ∈ tickets, t.status = .retry ∨ t.status = .failed
      ∨ t.status = .cancelled := by
    intro t' ht'
    obtain ⟨t, ht, rfl⟩ := List.mem_map.mp (h.returned.mem_iff.mp ht')
    obtain ⟨hrow, hleft⟩ := List.mem_filter.mp ht
    rcases h.moves t hrow with hstay | ⟨-, hstatus⟩
    · simp [hstay] at hleft
    · exact hstatus
  constructor
  · have hretry : (tickets.countP fun t => t.status = .retry)
        = moved .running .retry db swept.2 := countP_returned h hswept (by decide)
    rw [← hretry]
    apply List.countP_congr
    intro t ht
    rcases hreturned t ht with hstatus | hstatus | hstatus <;> simp [hstatus]
  · exact countP_returned h hswept (by decide)
  · exact countP_returned h hswept (by decide)
  · calc swept.1.total = tickets.length := countP_add_countP_add_countP tickets
      _ = _ := h.returned.length_eq
      _ = changed db swept.2 := by
        rw [List.length_map, ← List.countP_eq_length_filter, changed_eq hswept h.keepsId]
        apply List.countP_congr
        intro t ht
        simpa using (h.leaves_iff ht).symm
  · exact List.nodup_dedup _
  · intro jobId
    have hupdated : swept.1.jobsUpdated = (tickets.map (·.jobId)).dedup := rfl
    rw [hupdated, List.mem_dedup, List.mem_map]
    constructor
    · rintro ⟨t', ht', rfl⟩
      obtain ⟨t, ht, rfl⟩ := List.mem_map.mp (h.returned.mem_iff.mp ht')
      obtain ⟨hrow, hleft⟩ := List.mem_filter.mp ht
      refine ⟨t, hrow, (h.keepsJob t).symm, f t, ticket_of_rows hswept h.keepsId hrow, ?_⟩
      apply (h.leaves_iff hrow).mpr
      simpa using hleft
    · rintro ⟨t, ht, rfl, t', ht', hstatus⟩
      rw [ticket_of_rows hswept h.keepsId ht] at ht'
      cases ht'
      refine ⟨f t, h.returned.mem_iff.mpr (List.mem_map_of_mem ?_), h.keepsJob t⟩
      apply List.mem_filter.mpr ⟨ht, ?_⟩
      simpa using (h.leaves_iff ht).mp hstatus

/-! ### Requests -/

/-- What a cancellation reports: the tickets that it moved, and those of the job that still run. -/
structure CancellationReported (jobId : Uuid) (r : CancellationResult) (db db' : Db) : Prop where
  cancelled : r.cancelledTickets = moved .ready .cancelled db db' + moved .retry .cancelled db db'
  nothingElse : r.cancelledTickets = changed db db'
  running : r.runningTickets = db'.tickets.count fun t => t.jobId = jobId && t.status = .running
  noneWaiting : ∀ t ∈ db'.tickets.rows, t.jobId = jobId → ¬ t.status.pending
  row : db'.job jobId = some r.job

/-- The tickets that meet one of two conditions that exclude each other. -/
theorem count_add_count {db : Db} {p q r : EvaluationTicket → Bool}
    (h : ∀ t ∈ db.tickets.rows, r t = (p t || q t))
    (hnot : ∀ t ∈ db.tickets.rows, p t = true → q t = false) :
  db.tickets.count p + db.tickets.count q = db.tickets.count r
  := by
  simp only [Table.count, List.countP_eq_length_filter, ← List.length_append]
  exact (filter_append_filter_perm h hnot).length_eq

/-- The running tickets that `recompute_progress` returns for a job that there is. -/
theorem running_of_recomputeProgress {jobId : Uuid} {db : Db} {j : EvaluationJob}
    (h : (recomputeProgress jobId db).2.job jobId = some j) :
  ((recomputeProgress jobId db).1.map (·.runningTickets)).getD 0 = ticketCounts jobId db .running
  := by
  unfold recomputeProgress at h ⊢
  cases hjob : db.job jobId with
  | none => simp [hjob] at h
  | some j₀ => rfl

/-- The numbers a cancellation returns. -/
theorem cancelJob_counts {jobId : Uuid} {db db' : Db} {r : CancellationResult}
    (h : cancelJob jobId db = .ok (r, db')) :
  r.cancelledTickets = db.tickets.count (unclaimedOf jobId)
    ∧ r.runningTickets = ticketCounts jobId db' .running
    ∧ db'.job jobId = some r.job
  := by
  obtain ⟨⟨j, hjob, hopen⟩, hdb⟩ := cancelJob_ok h
  unfold cancelJob at h
  simp only [hjob] at h
  split at h
  case isTrue => cases h
  case isFalse =>
    split at h
    case h_1 => cases h
    case h_2 updated hupdated =>
      cases h
      refine ⟨rfl, ?_, hupdated⟩
      rw [running_of_recomputeProgress hupdated, recomputeProgress_db, ticketCounts_updateJobs]

theorem cancellationReported {jobId : Uuid} {db db' : Db} {r : CancellationResult}
    (h : cancelJob jobId db = .ok (r, db')) :
  CancellationReported jobId r db db'
  := by
  obtain ⟨hcancelled, hrunning, hrow⟩ := cancelJob_counts h
  obtain ⟨-, hdb⟩ := cancelJob_ok h
  have hrows : db'.tickets.rows = db.tickets.rows.map
      (patch (unclaimedOf jobId) (cancelledRow db.now "job cancellation requested")) := by
    rw [hdb, recomputeProgress_db]
    rfl
  have hid : ∀ t, (cancelledRow db.now "job cancellation requested" t).id = t.id := fun _ => rfl
  have hstatus : ∀ t, (cancelledRow db.now "job cancellation requested" t).status = .cancelled :=
    fun _ => rfl
  constructor
  · rw [hcancelled, moved_patch hrows hid hstatus (by decide),
      moved_patch hrows hid hstatus (by decide)]
    symm
    apply count_add_count
    · intro t ht
      cases hselects : unclaimedOf jobId t with
      | true => rcases (unclaimedOf_iff.mp hselects).2 with hwaits | hwaits <;> simp [hwaits]
      | false => rfl
    · intro t ht
      cases hwaits : t.status <;> simp
  · rw [hcancelled, changed_patch hrows hid hstatus]
    intro t hselects
    rcases (unclaimedOf_iff.mp hselects).2 with hwaits | hwaits <;> simp [hwaits]
  · exact hrunning
  · intro t' ht' hjob hpending
    have hunselected := unselected_of_patch hrows hstatus ht' (by
      rcases hpending with hwaits | hwaits <;> simp [hwaits])
    rw [unclaimedOf_iff.mpr ⟨hjob, hpending⟩] at hunselected
    cases hunselected
  · exact hrow

/-- What a retry request reports: the tickets it moved. -/
structure RetryReported (jobId : Uuid) (j : EvaluationJob) (count : ℕ) (db db' : Db) : Prop where
  moved : count = moved .failed .ready db db'
  nothingElse : count = changed db db'
  some_moved : 0 < count
  noneFailed : ∀ t ∈ db'.tickets.rows, t.jobId = jobId → t.status ≠ .failed
  row : db'.job jobId = some j

theorem retryReported {jobId : Uuid} {db db' : Db} {j : EvaluationJob} {count : ℕ}
    (h : retryFailedTickets jobId db = .ok ((j, count), db')) :
  RetryReported jobId j count db db'
  := by
  unfold retryFailedTickets at h
  cases hjob : db.job jobId with
  | none =>
    rw [hjob] at h
    cases h
  | some j₀ =>
    simp only [hjob] at h
    split at h
    case isTrue => cases h
    case isFalse =>
      split at h
      case isTrue => cases h
      case isFalse hsome =>
        split at h
        case h_1 => cases h
        case h_2 updated hupdated =>
          cases h
          have hrows : (recomputeProgress jobId (resetFailed jobId db).2).2.tickets.rows
              = db.tickets.rows.map (patch (failedOf jobId) (resetRow db.now)) := by
            rw [recomputeProgress_db]
            rfl
          have hid : ∀ t, (resetRow db.now t).id = t.id := fun _ => rfl
          have hstatus : ∀ t, (resetRow db.now t).status = .ready := fun _ => rfl
          have hcount : (resetFailed jobId db).1.length
              = db.tickets.count (failedOf jobId) := by
            simp [resetFailed, Table.count, List.countP_eq_length_filter]
          constructor
          · rw [hcount, moved_patch hrows hid hstatus (by decide)]
            apply List.countP_congr
            intro t ht
            cases hselects : failedOf jobId t with
            | true => simp [(failedOf_iff.mp hselects).2]
            | false => rfl
          · rw [hcount, changed_patch hrows hid hstatus]
            intro t hselects
            simp [(failedOf_iff.mp hselects).2]
          · apply List.length_pos_iff.mpr
            simpa using hsome
          · intro t' ht' hjob hfailed
            have hunselected := unselected_of_patch hrows hstatus ht' (by simp [hfailed])
            rw [failedOf_iff.mpr ⟨hjob, hfailed⟩] at hunselected
            cases hunselected
          · exact hupdated

/-! ### What is reported -/

/-- What an operation reports is what it did: a sweep names every ticket it took from its worker
by where it went, a cancellation and a retry request count every ticket they moved, and none of
the three changes the status of a ticket that it does not report. -/
theorem operations_report_exactly (settings : Settings) (db : Db) :
  (∀ locked locked' jitter limit,
      let swept := recoverAbandonedTickets settings locked locked' jitter limit db
      SweepReported swept.1 db swept.2)
    ∧ (∀ jobId r db', cancelJob jobId db = .ok (r, db') → CancellationReported jobId r db db')
    ∧ ∀ jobId j count db', retryFailedTickets jobId db = .ok ((j, count), db') →
      RetryReported jobId j count db db'
  := by
  refine ⟨?_, ?_, ?_⟩
  · exact fun locked locked' jitter limit => sweepReported settings locked locked' jitter limit db
  · exact fun _ _ _ h => cancellationReported h
  · exact fun _ _ _ _ h => retryReported h

namespace Demo

theorem operations_report_exactly_cancelled :
  ∃ r db', cancelJob 1 (System.after .default [.createJob job]).db = .ok (r, db')
    ∧ r.cancelledTickets = 1
    ∧ CancellationReported 1 r (System.after .default [.createJob job]).db db'
  := by
  obtain ⟨r, db', h, hcount⟩ : ∃ r db',
      cancelJob 1 (System.after .default [.createJob job]).db = .ok (r, db')
        ∧ r.cancelledTickets = 1 := ⟨_, _, rfl, rfl⟩
  exact ⟨r, db', h, hcount,
    (operations_report_exactly .default _).2.1 1 r db' h⟩

end Demo

end Evalorch
