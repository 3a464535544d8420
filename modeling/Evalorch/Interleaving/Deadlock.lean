import Evalorch.Interleaving.Sound
import Evalorch.Runner
import Evalorch.Transact.Completion

/-!
# Which transactions deadlock

A settlement, a cancellation and a retry lock their job before any other row, a claim and a sweep
wait for no row, and a heartbeat locks one row only. So the only transactions on a cycle of the
waits-for graph are those that a runner begins with, which lock the jobs one after another. When
all of them visit the jobs in one order there is no cycle, and some transaction can always go on
(`able_of_common_order`). When they do not, any two jobs with active tickets are enough for a
cycle (`startups_may_deadlock`).
-/

namespace Evalorch

open Transact TicketRepository JobRepository

/-- The transaction is the one of a runner before its loop. -/
def Operation.isStartup : Operation → Prop
  | .startup .. => True
  | _ => False

/-- The order in which a runner visits the jobs. -/
def Operation.visits : Operation → List Uuid → List Uuid
  | .startup _ scan _ => scan.order
  | _ => id

@[simp]
theorem LockMode.conflicts_forUpdate (mode : LockMode) :
  LockMode.forUpdate.conflicts mode = true
  := by cases mode <;> rfl

section Waits

variable {jobOf : Uuid → Uuid} {op : Operation} {held : Locks} {key : Row} {mode : LockMode}

/-- A runner that waits before its loop wants a job, and has locked jobs that come before it. -/
def WaitsInOrder (op : Operation) (held : Locks) (key : Row) : Prop :=
  op.isStartup ∧ ∃ (jobIds : List Uuid) (jobId : Uuid), jobIds.Nodup ∧ key = .job jobId
    ∧ ∀ l ∈ held, ∃ jobId', l.1 = .job jobId' ∧ [jobId', jobId].Sublist (op.visits jobIds)

/-- A transaction that waits with locks is one of a runner before its loop, or wants a row of the
only job that it has locked rows of. -/
theorem Operation.waits_cases (h : op.waits jobOf held key mode) (hnew : (key, mode) ∉ held)
    (hheld : held ≠ []) :
  WaitsInOrder op held key ∨ Within jobOf (key.job' jobOf) held
  := by
  obtain hmem | h := h
  · exact absurd hmem hnew
  cases op with
  | claim => cases h
  | recover => cases h
  | heartbeat => exact absurd h hheld
  | startup => exact .inl ⟨trivial, h⟩
  | _ =>
    obtain hnil | ⟨holds, rows⟩ := h
    · exact absurd hnil hheld
    · exact .inr ⟨holds, rows⟩

end Waits

section Sound

variable {jobOf : Uuid → Uuid} {s : Interleaved}

/-- What a transaction on a cycle waits for. -/
theorem waits_of_deadlocked (hs : s.Sound rowLocks (Operation.spec jobOf)) {i j : ℕ}
    (hcycle : s.deadlocked rowLocks i) (hwaits : s.waitsFor rowLocks i j) :
  ∃ t u key m, s.txns[i]? = some t ∧ s.txns[j]? = some u ∧ (key, m) ∈ u.held
    ∧ rowLocks.Compatible t.held u.held
    ∧ (WaitsInOrder t.tag t.held key ∨ Within jobOf (key.job' jobOf) t.held)
  := by
  obtain ⟨t, u, key, mode, m, ht, hu, hwait, hnew, hm, -, hcompatible⟩ := hs.waitsFor hwaits
  exact ⟨t, u, key, m, ht, hu, hm, hcompatible,
    Operation.waits_cases hwait hnew (hcycle.held_ne_nil ht)⟩

/-- On a cycle, every transaction is one of a runner before its loop. -/
theorem inOrder_of_deadlocked (hs : s.Sound rowLocks (Operation.spec jobOf)) {i j : ℕ}
    (hi : s.deadlocked rowLocks i) (hj : s.deadlocked rowLocks j)
    (hwaits : s.waitsFor rowLocks i j) :
  ∃ t u key m, s.txns[i]? = some t ∧ s.txns[j]? = some u ∧ (key, m) ∈ u.held
    ∧ WaitsInOrder t.tag t.held key
  := by
  obtain ⟨t, u, key, m, ht, hu, hm, hcompatible, horder | hwithin⟩ :=
    waits_of_deadlocked hs hi hwaits
  · exact ⟨t, u, key, m, ht, hu, hm, horder⟩
  -- the transaction waited for has locked the job that the row is of, and so has this one
  exfalso
  have hlocked : ∃ m', (Row.job (key.job' jobOf), m') ∈ u.held := by
    obtain ⟨k, hwaits', -⟩ := hj.waits
    obtain ⟨u', w, key', m', hu', -, -, -, horder' | hwithin'⟩ := waits_of_deadlocked hs hj hwaits'
    all_goals
      rw [hu] at hu'
      cases hu'
    · obtain ⟨-, jobIds, jobId, -, -, hjobs⟩ := horder'
      obtain ⟨jobId', hkey, -⟩ := hjobs _ hm
      change key = .job jobId' at hkey
      subst hkey
      exact ⟨m, hm⟩
    · use .forUpdate
      have hsame : key.job' jobOf = key'.job' jobOf := hwithin'.rows _ hm
      rw [hsame]
      exact hwithin'.holds
  obtain ⟨m', hm'⟩ := hlocked
  have hfalse : LockMode.forUpdate.conflicts m' = false := hcompatible _ _ _ hwithin.holds hm'
  rw [LockMode.conflicts_forUpdate] at hfalse
  cases hfalse

end Sound

/-! ### Runs -/

section Runs

variable {db : Db} {turns : List (Turn Operation)}

theorem sound_interleaved (hcopies : ∀ op, .start op ∈ turns → op.copies db) :
  (interleaved db turns).Sound rowLocks (Operation.spec db.jobIdOf)
  := (interleaved_sound (I := fun _ => True) hcopies trivial fun _ _ _ _ _ _ _ => trivial).1

theorem interleaved_append (db : Db) (turns turns' : List (Turn Operation)) :
  interleaved db (turns ++ turns')
    = run (Concurrent.step rowLocks Operation.text) (interleaved db turns) turns'
  := run_append _ _ _

/-- A transaction of a run is one that was started. -/
theorem start_mem_of_mem {t : Txn Db Row LockMode Operation}
    (ht : t ∈ (interleaved db turns).txns) :
  .start t.tag ∈ turns
  := by
  obtain ⟨u, hu, -⟩ | hstart := Concurrent.tag_of_run ht
  · cases hu
  · exact hstart

/-- Every transaction on a cycle of the waits-for graph is one that a runner begins with, and
waits for another such transaction. -/
theorem startups_of_deadlocked (hcopies : ∀ op, .start op ∈ turns → op.copies db) {i : ℕ}
    (hcycle : (interleaved db turns).deadlocked rowLocks i) :
  ∃ j t u, i ≠ j ∧ (interleaved db turns).txns[i]? = some t
    ∧ (interleaved db turns).txns[j]? = some u ∧ t.tag.isStartup ∧ u.tag.isStartup
    ∧ (interleaved db turns).waitsFor rowLocks i j
  := by
  have hs := sound_interleaved hcopies
  obtain ⟨j, hwaits, hj⟩ := hcycle.waits
  obtain ⟨k, hwaits', hk⟩ := hj.waits
  obtain ⟨t, u, key, m, ht, hu, -, ⟨hstartup, -⟩⟩ := inOrder_of_deadlocked hs hcycle hj hwaits
  obtain ⟨u', v, key', m', hu', -, -, ⟨hstartup', -⟩⟩ := inOrder_of_deadlocked hs hj hk hwaits'
  rw [hu] at hu'
  cases hu'
  have hne : i ≠ j := by
    obtain ⟨-, -, -, -, -, -, hne, -⟩ := hwaits
    exact hne
  exact ⟨j, t, u, hne, ht, hu, hstartup, hstartup', hwaits⟩

/-- The latest of the jobs that are locked. -/
def latest (rank : Uuid → ℕ) (held : Locks) : ℕ :=
  held.toFinset.sup fun l =>
    match l.1 with
    | .job jobId => rank jobId
    | _ => 0

theorem le_latest {rank : Uuid → ℕ} {held : Locks} {jobId : Uuid} {m : LockMode}
    (h : (Row.job jobId, m) ∈ held) :
  rank jobId ≤ latest rank held
  := Finset.le_sup (f := fun l : Row × LockMode =>
    match l.1 with
    | .job jobId => rank jobId
    | _ => 0) (List.mem_toFinset.mpr h)

theorem latest_lt {rank : Uuid → ℕ} {held : Locks} {n : ℕ} (hne : held ≠ [])
    (h : ∀ l ∈ held, ∃ jobId, l.1 = .job jobId ∧ rank jobId < n) :
  latest rank held < n
  := by
  obtain ⟨l, hl⟩ := List.exists_mem_of_ne_nil held hne
  have hpos : 0 < n := by
    obtain ⟨jobId, -, hlt⟩ := h l hl
    omega
  apply (Finset.sup_lt_iff hpos).mpr
  intro l hl
  obtain ⟨jobId, hkey, hlt⟩ := h l (List.mem_toFinset.mp hl)
  rw [hkey]
  exact hlt

/-- When all runners visit the jobs in one order, there is no cycle. -/
theorem not_deadlocked_of_common_order (hcopies : ∀ op, .start op ∈ turns → op.copies db)
    {rank : Uuid → ℕ} (horder : ∀ op, .start op ∈ turns → op.isStartup →
      ∀ jobIds : List Uuid, jobIds.Nodup → (op.visits jobIds).Pairwise (rank · < rank ·)) (i : ℕ) :
  ¬ (interleaved db turns).deadlocked rowLocks i
  := by
  have hs := sound_interleaved hcopies
  apply Concurrent.not_deadlocked fun i =>
    ((interleaved db turns).txns[i]?).elim 0 fun t => latest rank t.held
  intro i j hwaits hi hj
  obtain ⟨t, u, key, m, ht, hu, hm, hstartup, jobIds, jobId, hnodup, rfl, hheld⟩ :=
    inOrder_of_deadlocked hs hi hj hwaits
  rw [ht, hu]
  have hpairwise := horder t.tag (start_mem_of_mem (List.mem_of_getElem? ht)) hstartup jobIds hnodup
  calc latest rank t.held < rank jobId := by
        apply latest_lt (hi.held_ne_nil ht)
        intro l hl
        obtain ⟨jobId', hkey, hsub⟩ := hheld l hl
        use jobId', hkey
        have hpair := hpairwise.sublist hsub
        simpa using hpair
    _ ≤ latest rank u.held := le_latest hm

/-- When all runners visit the jobs in one order, the transactions under way can always be brought
to their end. -/
theorem completion_of_common_order (hcopies : ∀ op, .start op ∈ turns → op.copies db)
    {rank : Uuid → ℕ} (horder : ∀ op, .start op ∈ turns → op.isStartup →
      ∀ jobIds : List Uuid, jobIds.Nodup → (op.visits jobIds).Pairwise (rank · < rank ·)) :
  ∃ turns', (∀ l ∈ turns', ∃ i, l = .act i)
    ∧ ∀ i, ¬ (interleaved db (turns ++ turns')).unfinished i
  := by
  have hstarts : ∀ turns' : List (Turn Operation), (∀ l ∈ turns', ∃ i, l = .act i) → ∀ op,
      .start op ∈ turns ++ turns' → .start op ∈ turns := by
    intro turns' hacts op hop
    rcases List.mem_append.mp hop with hop | hop
    · exact hop
    · obtain ⟨i, hi⟩ := hacts _ hop
      cases hi
  obtain ⟨turns', hacts, hdone⟩ := Concurrent.exists_completion rowLocks Operation.text
    (s := interleaved db turns) (by
      intro turns' hacts i
      rw [← interleaved_append]
      apply not_deadlocked_of_common_order
      · exact fun op hop => hcopies op (hstarts turns' hacts op hop)
      · exact fun op hop => horder op (hstarts turns' hacts op hop))
  use turns', hacts
  intro i
  rw [interleaved_append]
  exact hdone i

end Runs

/-! ### Two runners that visit two jobs in opposite orders -/

/-- An order of the database that has two rows first. -/
def Scan.first (a b : Uuid) : Scan Uuid where
  order rows := if a ∈ rows ∧ b ∈ rows.erase a then a :: b :: (rows.erase a).erase b else rows
  perm rows := by
    split
    case isTrue h =>
      exact (((List.perm_cons_erase h.2).symm.cons a).trans (List.perm_cons_erase h.1).symm)
    case isFalse => exact .refl rows

/-- A runner that comes to two jobs, the first of which is free, locks the first one and then
waits to lock the second. -/
theorem wants_second {s : Interleaved} {i : ℕ} (hi : i < s.txns.length) {op : Operation}
    {now : Instant} {a b : Uuid} {rest : List Uuid} {next : Text} (hne : b ≠ a)
    {ja jb : EvaluationJob} (hja : s.committed.job a = some ja)
    (hjb : s.committed.job b = some jb)
    (hfree : s.blocked rowLocks i (.job a) .forUpdate = false) :
  ∃ writes next', run (Concurrent.step rowLocks Operation.text)
      (s.set i ⟨op, [], [], recomputeEach now (a :: b :: rest) next⟩) (List.replicate 6 (.act i))
    = s.set i ⟨op, [(.job a, .forUpdate)], writes, .lock (.job b) .forUpdate next'⟩
  := by
  simp only [List.replicate, run_cons, run_nil]
  have hlock : recomputeEach now (a :: b :: rest) next
      = lockJob a (recomputeRead now a (recomputeEach now (b :: rest) next)) := rfl
  rw [hlock, lockJob, Concurrent.step_read hi, written_nil, hja, Concurrent.step_lock hi _ hfree,
    Concurrent.step_read hi, written_nil, hja, recomputeRead, Concurrent.step_read hi,
    writeJob, Concurrent.step_write hi]
  set writes : Writes := [(.job a, _)] with hwrites
  have hseen : (written writes s.committed).job b = some jb := by
    rw [hwrites, written_cons, JobPatch.job_effect, if_neg hne]
    exact hjb
  have hlock' : recomputeEach now (b :: rest) next
      = lockJob b (recomputeRead now b (recomputeEach now rest next)) := rfl
  rw [hlock', lockJob, Concurrent.step_read hi, hseen]
  exact ⟨_, _, rfl⟩

/-- A job with active tickets is there. -/
theorem exists_job_of_active {db : Db} {jobId : Uuid} (h : jobId ∈ jobsWithActiveTickets db) :
  ∃ j, db.job jobId = some j
  := by
  unfold jobsWithActiveTickets at h
  obtain ⟨t, ht, rfl⟩ := List.mem_map.mp (List.mem_dedup.mp h)
  exact Db.exists_job (List.mem_filter.mp ht).1

/-- A runner that visits two jobs first, the first of which is free, locks it and then waits to
lock the second. -/
theorem startup_wants {s : Interleaved} {i : ℕ} {now : Instant} {a b : Uuid} {r : SweepRequest}
    (hstart : s.txns[i]?
      = some (.begin (.startup now (.first a b) r) (startupText now (.first a b) r)))
    (hne : b ≠ a) (ha : a ∈ jobsWithActiveTickets s.committed)
    (hb : b ∈ jobsWithActiveTickets s.committed)
    (hfree : s.blocked rowLocks i (.job a) .forUpdate = false) :
  ∃ writes next, run (Concurrent.step rowLocks Operation.text) s (List.replicate 7 (.act i))
    = s.set i ⟨.startup now (.first a b) r, [(.job a, .forUpdate)], writes,
        .lock (.job b) .forUpdate next⟩
  := by
  obtain ⟨ja, hja⟩ := exists_job_of_active ha
  obtain ⟨jb, hjb⟩ := exists_job_of_active hb
  have hi := (List.getElem?_eq_some_iff.mp hstart).1
  have hfirst : (Scan.first a b).order (jobsWithActiveTickets s.committed)
      = a :: b :: ((jobsWithActiveTickets s.committed).erase a).erase b :=
    if_pos ⟨ha, (List.mem_erase_of_ne hne).mpr hb⟩
  have hread : s.step rowLocks Operation.text (.act i)
      = s.set i ⟨.startup now (.first a b) r, [], [], recomputeEach now
          ((Scan.first a b).order (jobsWithActiveTickets s.committed)) (recoverText now r)⟩ := by
    conv_lhs => rw [← Concurrent.set_self hstart]
    exact Concurrent.step_read hi _
  obtain ⟨writes, next, hrun⟩ := wants_second hi hne hja hjb hfree
  use writes, next
  rw [List.replicate_succ, run_cons, hread, hfirst, hrun]

/-- The turns in which two runners each lock the first job that they come to. -/
def crossing (op op' : Operation) : List (Turn Operation) :=
  [.start op, .start op'] ++ (List.replicate 7 (.act 0) ++ List.replicate 7 (.act 1))

/-- On every database with two jobs to visit, two runners that visit them in opposite orders come
to wait for each other. -/
theorem startups_cross {db : Db} {a b : Uuid} (hne : a ≠ b) (ha : a ∈ jobsWithActiveTickets db)
    (hb : b ∈ jobsWithActiveTickets db) (now now' : Instant) (r r' : SweepRequest) :
  let s := interleaved db
    (crossing (.startup now (.first a b) r) (.startup now' (.first b a) r'))
  s.waitsFor rowLocks 0 1 ∧ s.waitsFor rowLocks 1 0
  := by
  let op : Operation := .startup now (.first a b) r
  let op' : Operation := .startup now' (.first b a) r'
  let s₀ : Interleaved := ⟨db, [.begin op op.text, .begin op' op'.text]⟩
  have hs₀ : interleaved db [.start op, .start op'] = s₀ := rfl
  obtain ⟨writes, next, hzero⟩ := startup_wants (s := s₀) (i := 0) rfl hne.symm ha hb
    (by simp [s₀, Concurrent.blocked, Txn.begin])
  let s₁ : Interleaved :=
    s₀.set 0 ⟨op, [(.job a, .forUpdate)], writes, .lock (.job b) .forUpdate next⟩
  obtain ⟨writes', next', hone⟩ := startup_wants (s := s₁) (i := 1) rfl hne hb ha
    (by simp [s₁, s₀, Concurrent.blocked, Concurrent.set, Txn.begin, hne])
  simp only [crossing, interleaved_append, run_append]
  rw [hs₀, hzero, hone]
  constructor
  · exact ⟨_, _, .job b, .forUpdate, next, .forUpdate, by decide, rfl, rfl, rfl,
      List.mem_cons_self, rfl⟩
  · exact ⟨_, _, .job a, .forUpdate, next', .forUpdate, by decide, rfl, rfl, rfl,
      List.mem_cons_self, rfl⟩

/-- On every database with two jobs that have active tickets, two runners may begin so that each
waits for the other. -/
theorem startups_may_deadlock {db : Db} {a b : Uuid} (hne : a ≠ b)
    (ha : a ∈ jobsWithActiveTickets db) (hb : b ∈ jobsWithActiveTickets db) (now now' : Instant)
    (r r' : SweepRequest) :
  ∃ scan scan' turns,
    (∀ op, .start op ∈ turns → op = .startup now scan r ∨ op = .startup now' scan' r')
      ∧ (interleaved db turns).deadlocked rowLocks 0 ∧ (interleaved db turns).deadlocked rowLocks 1
  := by
  obtain ⟨hzero, hone⟩ := startups_cross hne ha hb now now' r r'
  use .first a b, .first b a, crossing (.startup now (.first a b) r) (.startup now' (.first b a) r')
  refine ⟨?_, .tail (.single hzero) hone, .tail (.single hone) hzero⟩
  intro op hop
  simpa [crossing, List.mem_replicate] using hop

namespace Demo

/-- A second job. -/
def otherJob : PreparedJob :=
  { job with id := 2, tickets := [{ ticket with id := 11, payloadId := 21 }] }

/-- A database with two jobs to run. -/
def twoJobs : Db :=
  (System.after .default [.createJob job, .createJob otherJob]).db

/-- A sweep of up to ten tickets. -/
def sweep : SweepRequest where
  limit := 10
  jitter _ := 0
  scan := .stored
  scan' := .stored
  jobScan := .stored

theorem active_twoJobs :
  1 ∈ jobsWithActiveTickets twoJobs ∧ 2 ∈ jobsWithActiveTickets twoJobs
  := by decide +kernel

theorem startups_may_deadlock_twoJobs :
  ∃ scan scan' turns,
    (∀ op, .start op ∈ turns → op = .startup 0 scan sweep ∨ op = .startup 0 scan' sweep)
      ∧ (interleaved twoJobs turns).deadlocked rowLocks 0
      ∧ (interleaved twoJobs turns).deadlocked rowLocks 1
  := startups_may_deadlock (by decide) active_twoJobs.1 active_twoJobs.2 0 0 sweep sweep

/-- Two runners that visit the jobs in opposite orders. -/
def opposite : List (Turn Operation) :=
  crossing (.startup 0 (.first 1 2) sweep) (.startup 0 (.first 2 1) sweep)

theorem startups_of_deadlocked_opposite :
  ∃ j t u, 0 ≠ j ∧ (interleaved twoJobs opposite).txns[0]? = some t
    ∧ (interleaved twoJobs opposite).txns[j]? = some u ∧ t.tag.isStartup ∧ u.tag.isStartup
    ∧ (interleaved twoJobs opposite).waitsFor rowLocks 0 j
  := by
  obtain ⟨hzero, hone⟩ :=
    startups_cross (by decide) active_twoJobs.1 active_twoJobs.2 0 0 sweep sweep
  apply startups_of_deadlocked
  · intro op hop
    have hstartup : op = .startup 0 (.first 1 2) sweep ∨ op = .startup 0 (.first 2 1) sweep := by
      simpa [opposite, crossing, List.mem_replicate] using hop
    rcases hstartup with rfl | rfl <;> exact Operation.copies_of_none rfl _
  · exact .tail (.single hzero) hone

/-- An order of the database by identifiers. -/
def sorted : Scan Uuid where
  order rows := rows.insertionSort (· ≤ ·)
  perm rows := List.perm_insertionSort _ rows

/-- Two runners that visit the jobs in one order can be brought to their end. -/
theorem completion_of_common_order_sorted :
  ∃ turns', (∀ l ∈ turns', ∃ i, l = .act i)
    ∧ ∀ i, ¬ (interleaved twoJobs
      (crossing (.startup 0 sorted sweep) (.startup 0 sorted sweep) ++ turns')).unfinished i
  := by
  have hstartup : ∀ op : Operation, .start op ∈ crossing (.startup 0 sorted sweep)
      (.startup 0 sorted sweep) → op = .startup 0 sorted sweep := by
    intro op hop
    simpa [crossing, List.mem_replicate] using hop
  have horder : ∀ op : Operation, .start op ∈ crossing (.startup 0 sorted sweep)
      (.startup 0 sorted sweep) → op.isStartup → ∀ jobIds : List Uuid, jobIds.Nodup →
      (op.visits jobIds).Pairwise (id · < id ·) := by
    intro op hop _ jobIds hnodup
    rw [hstartup op hop]
    have hsorted := List.pairwise_insertionSort (· ≤ ·) jobIds
    have hnodup' := (List.perm_insertionSort (· ≤ ·) jobIds).nodup_iff.mpr hnodup
    exact hsorted.imp₂ (fun a b hle hne => lt_of_le_of_ne hle hne) hnodup'
  apply completion_of_common_order _ horder
  intro op hop
  rw [hstartup op hop]
  exact Operation.copies_of_none rfl _

end Demo

end Evalorch
