import Evalorch.Interleaving.Steps

/-!
# What a transaction may commit

`Commits` says what a transaction has done when it commits, in terms of the rows as they are
committed then: each ticket is rewritten by one `TicketStep`, whose conditions still hold, a job
whose tickets were settled or reopened is locked and stands where the new tickets are, and no
result of a cancelled job is written. `Under` is the same for a transaction under way that may
still owe the recount of some jobs. It holds whatever is committed meanwhile (`Under.meanwhile`),
and there is one rule for each kind of write.
-/

namespace Evalorch

open Transact TicketRepository JobRepository

/-! ### Commits -/

/-- A job is accounted for: it is untouched, or locked and stands where its tickets are. -/
def AccountedFor (held : Locks) (db db' : Db) (jobId : Uuid) : Prop :=
  Untouched db db' jobId ∨ held.hold jobId ∧ db'.stands jobId

/-- What an operation commits that holds some locks and has made some writes. -/
structure Commits (op : Operation) (held : Locks) (writes : Writes) (db : Db) : Prop where
  keys : SameKeys db (written writes db)
  tickets : ∀ id t, db.ticket id = some t →
    ∃ t', (written writes db).ticket id = some t' ∧ TicketStep db held writes op t t'
  flags : ∀ jobId, db.cancelRequested jobId → (written writes db).cancelRequested jobId
  requests : ∀ jobId, (written writes db).cancelRequested jobId →
    db.cancelRequested jobId ∨ op.cancels jobId
  standing : ∀ jobId, AccountedFor held db (written writes db) jobId
  results : ∀ id t, db.ticket id = some t → db.cancelRequested t.jobId →
    (written writes db).resultOf id = db.resultOf id
  belong : db.resultsOfJobs → (written writes db).resultsOfJobs

/-- The status lets the job be cancelled. -/
def JobStatus.cancellable (status : JobStatus) : Prop :=
  ¬ (status = .completed ∨ status = .failed ∨ status = .partialFailed)

/-- The ticket is not running. -/
def Db.stopped (db : Db) (ticketId : Uuid) : Prop :=
  ∀ t, db.ticket ticketId = some t → t.status ≠ .running

/-- What else is known of an operation when it commits: a settlement has stopped its ticket, a
claim rewrites no more tickets than its limit, and a cancellation is of a job that may be cancelled
and leaves none of its tickets waiting. -/
def Operation.ensures : Operation → Db → Db → Prop
  | .persist _ r, _, db' => db'.stopped r.ticket.id
  | .settle _ r, _, db' => db'.stopped r.ticket.id
  | .claim _ r, db, db' =>
      ∃ ids : List Uuid, ids.length ≤ r.limit
        ∧ ∀ id, db'.ticket id ≠ db.ticket id → id ∈ ids
  | .cancelJob _ jobId _, db, db' =>
      (∃ j, db.job jobId = some j ∧ j.status.cancellable)
        ∧ ∀ id t, db'.ticket id = some t → t.jobId = jobId → ¬ t.status.pending
  | _, _, _ => True

/-- The job that a row belongs to, when `jobOf` is the job of each ticket. -/
def Row.job' (jobOf : Uuid → Uuid) : Row → Uuid
  | .job jobId => jobId
  | .ticket ticketId => jobOf ticketId
  | .result ticketId => jobOf ticketId

/-- Where an operation may wait for a row: one it has locked already; anything, with no lock
held; a row of the one job it has locked; and, before the loop of a runner, a job, with nothing
locked but jobs that come before it in the order of the query. -/
def Operation.waits (jobOf : Uuid → Uuid) (op : Operation) (held : Locks) (key : Row)
    (mode : LockMode) : Prop :=
  (key, mode) ∈ held
    ∨ match op with
      | .claim .. | .recover .. => False
      | .heartbeat .. => held = []
      | .startup _ scan _ => ∃ (jobIds : List Uuid) (jobId : Uuid), jobIds.Nodup ∧ key = .job jobId
          ∧ ∀ l ∈ held, ∃ jobId', l.1 = .job jobId' ∧ [jobId', jobId].Sublist (scan.order jobIds)
      | _ => held = []
          ∨ held.hold (key.job' jobOf) ∧ ∀ l ∈ held, l.1.job' jobOf = key.job' jobOf

/-- The specification of an operation. -/
def Operation.spec (jobOf : Uuid → Uuid) (op : Operation) : Spec Db Row LockMode where
  waits := op.waits jobOf
  commits held writes db := Commits op held writes db ∧ op.ensures db (written writes db)

/-! ### Meanwhile -/

section Meanwhile

variable {jobOf : Uuid → Uuid} {held : Locks} {db db' : Db}

/-- What stays when others commit. -/
structure Kept (held : Locks) (db db' : Db) : Prop where
  keys : SameKeys db db'
  flags : ∀ jobId, db.cancelRequested jobId → db'.cancelRequested jobId
  jobs : ∀ jobId, held.hold jobId → Untouched db db' jobId

theorem kept_of_meanwhile (h : rowLocks.Meanwhile (Operation.spec jobOf) held db db') :
  Kept held db db'
  := by
  apply h.across
  · exact fun db => ⟨.refl db, fun _ => id, fun jobId _ => .refl db jobId⟩
  · intro db db' db'' h h'
    use h.keys.trans h'.keys, fun jobId hflag => h'.flags jobId (h.flags jobId hflag)
    exact fun jobId hheld => (h.jobs jobId hheld).trans h.keys (h'.jobs jobId hheld)
  · rintro db _ ⟨op, held', writes', hcompatible, -, ⟨hcommits, -⟩, rfl⟩
    use hcommits.keys, hcommits.flags
    intro jobId hheld
    obtain huntouched | ⟨hheld', -⟩ := hcommits.standing jobId
    · exact huntouched
    · have hconflict := hcompatible _ _ _ hheld hheld'
      cases hconflict

theorem Locks.hold.mayWrite {jobId : Uuid} (h : held.hold jobId) :
  rowLocks.mayWrite held (.job jobId)
  := ⟨.forUpdate, h, rfl⟩

/-- A ticket that may be written stays. -/
theorem ticket_of_meanwhile (h : rowLocks.Meanwhile (Operation.spec jobOf) held db db')
    {id : Uuid} (hid : rowLocks.mayWrite held (.ticket id)) :
  db'.ticket id = db.ticket id
  := h.row hid

/-- A job that is locked stays. -/
theorem job_of_meanwhile (h : rowLocks.Meanwhile (Operation.spec jobOf) held db db')
    {jobId : Uuid} (hheld : held.hold jobId) :
  db'.job jobId = db.job jobId
  := h.row hheld.mayWrite

/-- The flag of a job that is locked stays. -/
theorem cancelRequested_of_meanwhile (h : rowLocks.Meanwhile (Operation.spec jobOf) held db db')
    {jobId : Uuid} (hheld : held.hold jobId) (hflag : db'.cancelRequested jobId) :
  db.cancelRequested jobId
  := by
  unfold Db.cancelRequested at *
  rwa [job_of_meanwhile h hheld] at hflag

end Meanwhile

/-! ### A transaction under way -/

/-- `jobOf` is the job of each ticket. -/
def Db.jobsAre (db : Db) (jobOf : Uuid → Uuid) : Prop :=
  ∀ id t, db.ticket id = some t → jobOf id = t.jobId

theorem Db.jobsAre.of_sameKeys {db db' : Db} {jobOf : Uuid → Uuid} (h : db.jobsAre jobOf)
    (hkeys : SameKeys db db') :
  db'.jobsAre jobOf
  := by
  intro id t' ht'
  obtain ⟨t, ht⟩ := hkeys.symm.exists_ticket ht'
  rw [hkeys.jobId_eq ht ht']
  exact h id t ht

/-- A write keeps the keys of tickets and jobs, and the results with the jobs of their tickets. -/
structure KeepsRows (jobOf : Uuid → Uuid) (effect : Db → Db) : Prop where
  keys : ∀ db, SameKeys db (effect db)
  results : ∀ db : Db, db.jobsAre jobOf → db.resultsOfJobs → (effect db).resultsOfJobs

theorem TicketPatch.keepsRows (p : TicketPatch) (jobOf : Uuid → Uuid) (ticketId : Uuid) :
  KeepsRows jobOf (p.effect ticketId)
  := by
  use p.sameKeys ticketId
  intro db _ h r hr t' ht'
  obtain ⟨t, ht⟩ := (p.sameKeys ticketId db).symm.exists_ticket ht'
  rw [(p.sameKeys ticketId db).jobId_eq ht ht']
  exact h r hr t ht

theorem JobPatch.keepsRows (p : JobPatch) (jobOf : Uuid → Uuid) (jobId : Uuid) :
  KeepsRows jobOf (p.effect jobId)
  := by
  use p.sameKeys jobId
  exact fun db _ h => h

/-- The upsert of a result that names the job of its ticket. -/
theorem keepsRows_resultEffect {jobOf : Uuid → Uuid} (now : Instant) {result : EvaluationResult}
    (hjob : result.jobId = jobOf result.ticketId) :
  KeepsRows jobOf (resultEffect now result)
  := by
  constructor
  · intro db
    obtain ⟨hjobs, htickets, -⟩ := resultEffect_frame now result db
    exact ⟨by rw [htickets], by rw [hjobs]⟩
  · intro db hjobs h r hr t ht
    rw [ticket_resultEffect] at ht
    unfold resultEffect at hr
    split at hr
    case h_2 => exact h r hr t ht
    case h_1 row db' hupsert =>
      have hup := ResultRepository.upsert_ok hupsert
      have hrow : db'.resultOf r.ticketId = some r := Db.resultOf_eq_some.mpr ⟨hr, rfl⟩
      rw [hup.resultOf] at hrow
      split at hrow
      case isFalse => exact h r (Db.resultOf_eq_some.mp hrow).1 t ht
      case isTrue hticket =>
        cases hrow
        obtain ⟨old, hold, rfl⟩ | ⟨-, rfl⟩ := hup.written
        · obtain ⟨hmem, hid⟩ := Db.resultOf_eq_some.mp hold
          exact h old hmem t ht
        · rw [← hjobs _ t ht]
          exact hjob.symm

/-- What a transaction has done so far, if it still owes the recount of the jobs `owed`. -/
structure Under (jobOf : Uuid → Uuid) (op : Operation) (held : Locks) (writes : Writes)
    (owed : List Uuid) (db : Db) : Prop where
  jobsAre : db.jobsAre jobOf
  covered : rowLocks.Covered held writes
  keeps : ∀ w ∈ writes, KeepsRows jobOf w.2
  tickets : ∀ id t, db.ticket id = some t →
    ∃ t', (written writes db).ticket id = some t' ∧ TicketStep db held writes op t t'
  flags : ∀ jobId, db.cancelRequested jobId → (written writes db).cancelRequested jobId
  requests : ∀ jobId, (written writes db).cancelRequested jobId →
    db.cancelRequested jobId ∨ op.cancels jobId
  locked : ∀ jobId ∈ owed, held.hold jobId
  standing : ∀ jobId, jobId ∉ owed → AccountedFor held db (written writes db) jobId
  results : ∀ w ∈ writes, ∀ id, w.1 = .result id →
    held.hold (jobOf id) ∧ ¬ db.cancelRequested (jobOf id)

namespace Under

variable {jobOf : Uuid → Uuid} {op : Operation} {held : Locks} {writes : Writes}
  {owed : List Uuid} {db db' : Db}

theorem start (op : Operation) (h : db.jobsAre jobOf) :
  Under jobOf op [] [] [] db
  := by
  constructor
  · exact h
  · simp [Locking.Covered]
  · simp
  · exact fun id t ht => ⟨t, ht, .kept⟩
  · exact fun _ => id
  · exact fun _ => .inl
  · simp
  · exact fun jobId _ => .inl (.refl db jobId)
  · simp

/-- The writes keep the rows where they are, made on any database. -/
theorem keepsRows (h : Under jobOf op held writes owed db) :
  KeepsRows jobOf (written writes)
  := by
  have hkeeps := h.keeps
  clear h
  induction writes with
  | nil => exact ⟨SameKeys.refl, fun _ _ => id⟩
  | cons w writes ih =>
    have hrest := ih fun w' hw' => hkeeps w' (List.mem_cons_of_mem w hw')
    have hw := hkeeps w List.mem_cons_self
    constructor
    · exact fun db => (hrest.keys db).trans (hw.keys _)
    · exact fun db hjobs h =>
        hw.results _ (hjobs.of_sameKeys (hrest.keys db)) (hrest.results db hjobs h)

theorem sameKeys (h : Under jobOf op held writes owed db) (db : Db) :
  SameKeys db (written writes db)
  := h.keepsRows.keys db

/-- A row that is not locked for writing is the committed one. -/
theorem ticket_of_not_mayWrite (h : Under jobOf op held writes owed db) (db : Db) {id : Uuid}
    (hid : ¬ rowLocks.mayWrite held (.ticket id)) :
  (written writes db).ticket id = db.ticket id
  := row_written_of_not_mayWrite (L := rowLocks) h.covered hid

theorem job_of_not_mayWrite (h : Under jobOf op held writes owed db) (db : Db) {id : Uuid}
    (hid : ¬ rowLocks.mayWrite held (.job id)) :
  (written writes db).job id = db.job id
  := row_written_of_not_mayWrite (L := rowLocks) h.covered hid

theorem ticket_congr (h : Under jobOf op held writes owed db) {db db' : Db} {id : Uuid}
    (hrow : db.ticket id = db'.ticket id) :
  (written writes db).ticket id = (written writes db').ticket id
  := @row_written_congr _ _ _ _ rowLocks _ _ _ _ h.covered (.ticket id) rfl hrow

theorem job_congr (h : Under jobOf op held writes owed db) {db db' : Db} {id : Uuid}
    (hrow : db.job id = db'.job id) :
  (written writes db).job id = (written writes db').job id
  := @row_written_congr _ _ _ _ rowLocks _ _ _ _ h.covered (.job id) rfl hrow

/-- Taking a lock changes nothing. -/
theorem hold (h : Under jobOf op held writes owed db) (key : Row) (mode : LockMode) :
  Under jobOf op ((key, mode) :: held) writes owed db
  := by
  constructor
  · exact h.jobsAre
  · exact h.covered.cons_held key mode
  · exact h.keeps
  · intro id t ht
    obtain ⟨t', ht', hstep⟩ := h.tickets id t ht
    exact ⟨t', ht', hstep.mono (List.subset_cons_self _ _) (List.Subset.refl _)⟩
  · exact h.flags
  · exact h.requests
  · exact fun jobId hjob => List.mem_cons_of_mem _ (h.locked jobId hjob)
  · intro jobId hjob
    exact (h.standing jobId hjob).imp id fun hagree =>
      ⟨List.mem_cons_of_mem _ hagree.1, hagree.2⟩
  · intro w hw id hkey
    obtain ⟨hheld, hflag⟩ := h.results w hw id hkey
    exact ⟨List.mem_cons_of_mem _ hheld, hflag⟩

/-- A job that is untouched by a transaction stays so whatever is committed meanwhile. -/
theorem untouched_meanwhile (h : Under jobOf op held writes owed db)
    (hdb : rowLocks.Meanwhile (Operation.spec jobOf) held db db') {jobId : Uuid}
    (huntouched : Untouched db (written writes db) jobId) :
  Untouched db' (written writes db') jobId
  := by
  constructor
  · intro id t t' ht ht' hjob
    by_cases hid : rowLocks.mayWrite held (.ticket id)
    · have hrow := ticket_of_meanwhile hdb hid
      rw [h.ticket_congr hrow] at ht'
      rw [hrow] at ht
      exact huntouched.tickets id t t' ht ht' hjob
    · rw [h.ticket_of_not_mayWrite db' hid, ht] at ht'
      cases ht'
      exact .inl rfl
  · by_cases hid : rowLocks.mayWrite held (.job jobId)
    · have hrow : db'.job jobId = db.job jobId := hdb.row hid
      rw [h.job_congr hrow, hrow]
      exact huntouched.standing
    · rw [h.job_of_not_mayWrite db' hid]

/-- Between what a transaction saw and what it sees later, a locked job is untouched. -/
theorem seen_meanwhile (h : Under jobOf op held writes owed db)
    (hdb : rowLocks.Meanwhile (Operation.spec jobOf) held db db') {jobId : Uuid}
    (hheld : held.hold jobId) :
  SameKeys (written writes db) (written writes db')
    ∧ Untouched (written writes db) (written writes db') jobId
  := by
  have hkept := kept_of_meanwhile hdb
  have hkeys : SameKeys (written writes db) (written writes db') :=
    ((h.sameKeys db).symm.trans hkept.keys).trans (h.sameKeys db')
  use hkeys
  constructor
  · intro id t t' ht ht' hjob
    by_cases hid : rowLocks.mayWrite held (.ticket id)
    · rw [h.ticket_congr (ticket_of_meanwhile hdb hid), ht] at ht'
      cases ht'
      exact .inl rfl
    · rw [h.ticket_of_not_mayWrite db hid] at ht
      rw [h.ticket_of_not_mayWrite db' hid] at ht'
      exact (hkept.jobs jobId hheld).tickets id t t' ht ht' hjob
  · rw [h.job_congr (job_of_meanwhile hdb hheld)]

/-- What a transaction has done stays what it has done, whatever is committed meanwhile. -/
theorem meanwhile (h : Under jobOf op held writes owed db)
    (hdb : rowLocks.Meanwhile (Operation.spec jobOf) held db db') :
  Under jobOf op held writes owed db'
  := by
  constructor
  · exact h.jobsAre.of_sameKeys (kept_of_meanwhile hdb).keys
  · exact h.covered
  · exact h.keeps
  · intro id t ht
    by_cases hid : rowLocks.mayWrite held (.ticket id)
    · have hrow := ticket_of_meanwhile hdb hid
      rw [h.ticket_congr hrow]
      rw [hrow] at ht
      obtain ⟨t', ht', hstep⟩ := h.tickets id t ht
      exact ⟨t', ht', hstep.of_flags fun jobId => cancelRequested_of_meanwhile hdb⟩
    · rw [h.ticket_of_not_mayWrite db' hid]
      exact ⟨t, ht, .kept⟩
  · rintro jobId ⟨j, hj, hflag⟩
    by_cases hid : rowLocks.mayWrite held (.job jobId)
    · have hrow : db'.job jobId = db.job jobId := hdb.row hid
      rw [hrow] at hj
      obtain ⟨j', hj', hflag'⟩ := h.flags jobId ⟨j, hj, hflag⟩
      rw [← h.job_congr hrow] at hj'
      exact ⟨j', hj', hflag'⟩
    · rw [Db.cancelRequested, h.job_of_not_mayWrite db' hid]
      exact ⟨j, hj, hflag⟩
  · rintro jobId ⟨j', hj', hflag⟩
    by_cases hid : rowLocks.mayWrite held (.job jobId)
    · have hrow : db'.job jobId = db.job jobId := hdb.row hid
      rw [h.job_congr hrow] at hj'
      rw [Db.cancelRequested, hrow]
      exact h.requests jobId ⟨j', hj', hflag⟩
    · rw [h.job_of_not_mayWrite db' hid] at hj'
      exact .inl ⟨j', hj', hflag⟩
  · exact h.locked
  · intro jobId hjob
    obtain huntouched | ⟨hheld, hstands⟩ := h.standing jobId hjob
    · exact .inl (h.untouched_meanwhile hdb huntouched)
    · obtain ⟨hkeys, huntouched⟩ := h.seen_meanwhile hdb hheld
      exact .inr ⟨hheld, huntouched.stands hkeys hstands⟩
  · intro w hw id hkey
    obtain ⟨hheld, hnot⟩ := h.results w hw id hkey
    exact ⟨hheld, fun hflag => hnot (cancelRequested_of_meanwhile hdb hheld hflag)⟩

/-- What a job is accounted for by stays when the next write leaves it untouched. -/
theorem accounted {db db' db'' : Db} {jobId : Uuid} (h : AccountedFor held db db' jobId)
    (hkeys : SameKeys db db') (hkeys' : SameKeys db' db'')
    (huntouched : Untouched db' db'' jobId) :
  AccountedFor held db db'' jobId
  := by
  obtain h | ⟨hheld, hstands⟩ := h
  · exact .inl (h.trans hkeys huntouched)
  · exact .inr ⟨hheld, huntouched.stands hkeys' hstands⟩

/-- A job that is not owed a recount is accounted for when the next write leaves it untouched. -/
theorem next (h : Under jobOf op held writes owed db) {effect : Db → Db}
    (hkeeps : KeepsRows jobOf effect) {jobId : Uuid} (howed : jobId ∉ owed)
    (huntouched : Untouched (written writes db) (effect (written writes db)) jobId) :
  AccountedFor held db (effect (written writes db)) jobId
  := accounted (h.standing jobId howed) (h.sameKeys db) (hkeeps.keys _) huntouched

/-- The next write of a transaction. What it does to a ticket is a step, and the jobs that are not
owed a recount afterwards are accounted for. -/
theorem write (h : Under jobOf op held writes owed db) {owed' : List Uuid} {key : Row}
    {effect : Db → Db} (hkey : rowLocks.mayWrite held key) (htouches : rowLocks.Touches key effect)
    (hkeeps : KeepsRows jobOf effect)
    (tickets : ∀ id t, db.ticket id = some t → key = .ticket id →
      ∃ t', (effect (written writes db)).ticket id = some t'
        ∧ TicketStep db held ((key, effect) :: writes) op t t')
    (flags : ∀ jobId, (written writes db).cancelRequested jobId →
      (effect (written writes db)).cancelRequested jobId)
    (requests : ∀ jobId, (effect (written writes db)).cancelRequested jobId →
      (written writes db).cancelRequested jobId ∨ op.cancels jobId)
    (hsub : owed' ⊆ owed)
    (standing : ∀ jobId, jobId ∉ owed' →
      AccountedFor held db (effect (written writes db)) jobId)
    (results : ∀ id, key = .result id → held.hold (jobOf id) ∧ ¬ db.cancelRequested (jobOf id)) :
  Under jobOf op held ((key, effect) :: writes) owed' db
  := by
  constructor
  · exact h.jobsAre
  · intro w hw
    rcases List.mem_cons.mp hw with rfl | hw
    · exact ⟨hkey, htouches⟩
    · exact h.covered w hw
  · intro w hw
    rcases List.mem_cons.mp hw with rfl | hw
    · exact hkeeps
    · exact h.keeps w hw
  · intro id t ht
    by_cases hsame : key = .ticket id
    · exact tickets id t ht hsame
    · obtain ⟨t', ht', hstep⟩ := h.tickets id t ht
      have hrow : (effect (written writes db)).ticket id = (written writes db).ticket id :=
        htouches.frame _ (.ticket id) (Ne.symm hsame)
      rw [written_cons, hrow]
      exact ⟨t', ht', hstep.mono (List.Subset.refl _) (List.subset_cons_self _ _)⟩
  · exact fun jobId hflag => flags jobId (h.flags jobId hflag)
  · intro jobId hflag
    obtain hflag | hcancels := requests jobId hflag
    · exact h.requests jobId hflag
    · exact .inr hcancels
  · exact fun jobId hjob => h.locked jobId (hsub hjob)
  · exact standing
  · intro w hw id hresult
    rcases List.mem_cons.mp hw with rfl | hw
    · exact results id hresult
    · exact h.results w hw id hresult

/-- A write of a ticket that the transaction sees as it is committed. The job of the ticket is
owed a recount, unless the ticket stays as open as it was. -/
theorem writeTicket (h : Under jobOf op held writes owed db) {id : Uuid} {t : EvaluationTicket}
    {p : TicketPatch} (hid : rowLocks.mayWrite held (.ticket id)) (ht : db.ticket id = some t)
    (hseen : (written writes db).ticket id = some t)
    (hstep : TicketStep db held ((.ticket id, p.effect id) :: writes) op t (p.set t))
    (hend : sameEnd t (p.set t) ∨ t.jobId ∈ owed) :
  Under jobOf op held ((.ticket id, p.effect id) :: writes) owed db
  := by
  apply h.write hid (p.touches id) (p.keepsRows jobOf id)
  · rintro _ t₀ ht₀ ⟨⟩
    rw [ht] at ht₀
    cases ht₀
    rw [p.ticket_effect, if_pos rfl, hseen]
    exact ⟨p.set t, rfl, hstep⟩
  · exact fun _ hflag => hflag
  · exact fun _ => .inl
  · exact List.Subset.refl _
  · intro jobId hjob
    apply h.next (p.keepsRows jobOf id) hjob
    constructor
    · intro id' t' t'' ht' ht'' hof
      rw [p.ticket_effect] at ht''
      by_cases heq : id' = id
      · subst heq
        rw [hseen] at ht'
        cases ht'
        rw [if_pos rfl, hseen, Option.map_some, Option.some.injEq] at ht''
        rw [← ht'']
        obtain hsame | howed := hend
        · exact hsame
        · rw [hof] at howed
          exact absurd howed hjob
      · rw [if_neg heq, ht'] at ht''
        cases ht''
        exact .inl rfl
    · rfl
  · rintro _ ⟨⟩

/-- A write of a job leaves its tickets, and the other jobs. -/
theorem untouched_effect (p : JobPatch) {id jobId : Uuid} {db : Db}
    (hstanding : jobId = id → ∀ j, db.job id = some j → (p.set j).standing = j.standing) :
  Untouched db (p.effect id db) jobId
  := by
  constructor
  · intro id' t' t'' ht' ht'' _
    rw [p.ticket_effect, ht'] at ht''
    cases ht''
    exact .inl rfl
  · rw [p.job_effect]
    split
    case isFalse => rfl
    case isTrue hsame =>
      subst hsame
      cases hjob : db.job jobId with
      | none => rfl
      | some j => exact congrArg some (hstanding rfl j hjob)

/-- A write of a job that leaves it where it stands, or is owed a recount. -/
theorem writeJob (h : Under jobOf op held writes owed db) {id : Uuid} {p : JobPatch}
    (hid : held.hold id)
    (hstanding : id ∈ owed
      ∨ ∀ j, (written writes db).job id = some j → (p.set j).standing = j.standing)
    (hflag : ∀ j, j.cancellationRequestedAt.isSome → (p.set j).cancellationRequestedAt.isSome)
    (hrequest : op.cancels id
      ∨ ∀ j, (p.set j).cancellationRequestedAt.isSome → j.cancellationRequestedAt.isSome) :
  Under jobOf op held ((.job id, p.effect id) :: writes) owed db
  := by
  apply h.write hid.mayWrite (p.touches id) (p.keepsRows jobOf id)
  · rintro _ _ _ ⟨⟩
  · rintro jobId ⟨j, hj, hsome⟩
    rw [Db.cancelRequested, p.job_effect, hj]
    split
    · exact ⟨p.set j, rfl, hflag j hsome⟩
    · exact ⟨j, rfl, hsome⟩
  · rintro jobId ⟨j', hj', hsome⟩
    rw [p.job_effect] at hj'
    split at hj'
    case isFalse => exact .inl ⟨j', hj', hsome⟩
    case isTrue hsame =>
      obtain ⟨j, hj, rfl⟩ := Option.map_eq_some_iff.mp hj'
      subst hsame
      exact hrequest.symm.imp (fun h => ⟨j, hj, h j hsome⟩) id
  · exact List.Subset.refl _
  · intro jobId hjob
    apply h.next (p.keepsRows jobOf id) hjob
    apply untouched_effect
    rintro rfl
    exact hstanding.resolve_left hjob
  · rintro _ ⟨⟩

/-- A recount of a job. -/
theorem recount (h : Under jobOf op held writes owed db) (now : Instant) {id : Uuid}
    (hid : held.hold id) :
  Under jobOf op held
    ((.job id, (progressPatch now (ticketCounts id (written writes db))).effect id) :: writes)
    (owed.filter (· ≠ id)) db
  := by
  set p := progressPatch now (ticketCounts id (written writes db)) with hp
  have hflag : ∀ jobId, (p.effect id (written writes db)).cancelRequested jobId
      ↔ (written writes db).cancelRequested jobId := by
    intro jobId
    simp only [Db.cancelRequested, p.job_effect]
    split
    · constructor
      · rintro ⟨j', hj', hsome⟩
        obtain ⟨j, hj, rfl⟩ := Option.map_eq_some_iff.mp hj'
        exact ⟨j, hj, hsome⟩
      · rintro ⟨j, hj, hsome⟩
        exact ⟨p.set j, by rw [hj]; rfl, hsome⟩
    · exact Iff.rfl
  apply h.write hid.mayWrite (p.touches id) (p.keepsRows jobOf id)
  · rintro _ _ _ ⟨⟩
  · exact fun jobId => (hflag jobId).mpr
  · exact fun jobId hrequested => .inl ((hflag jobId).mp hrequested)
  · exact List.filter_sublist.subset
  · intro jobId hjob
    by_cases heq : jobId = id
    · subst heq
      right
      use hid
      intro j hj
      rw [p.job_effect, if_pos rfl] at hj
      obtain ⟨j₀, -, rfl⟩ := Option.map_eq_some_iff.mp hj
      exact stands_progressRow now _ j₀
    · apply h.next (p.keepsRows jobOf id)
      · exact fun hmem => hjob (List.mem_filter.mpr ⟨hmem, by simpa using heq⟩)
      · exact untouched_effect p fun hsame => absurd hsame heq
  · rintro _ ⟨⟩

/-- The upsert of a result, for a ticket whose job is locked and not cancelled. -/
theorem writeResult (h : Under jobOf op held writes owed db) (now : Instant)
    (result : EvaluationResult) (hid : rowLocks.mayWrite held (.result result.ticketId))
    (hjob : result.jobId = jobOf result.ticketId) (hheld : held.hold (jobOf result.ticketId))
    (hflag : ¬ db.cancelRequested (jobOf result.ticketId)) :
  Under jobOf op held ((.result result.ticketId, resultEffect now result) :: writes) owed db
  := by
  have hcancelled : ∀ jobId, (resultEffect now result (written writes db)).cancelRequested jobId
      ↔ (written writes db).cancelRequested jobId := by
    intro jobId
    simp only [Db.cancelRequested, job_resultEffect]
  have hkeeps := keepsRows_resultEffect now hjob
  apply h.write hid (touches_resultEffect now result) hkeeps
  · rintro _ _ _ ⟨⟩
  · exact fun jobId => (hcancelled jobId).mpr
  · exact fun jobId hrequested => .inl ((hcancelled jobId).mp hrequested)
  · exact List.Subset.refl _
  · intro jobId howed
    apply h.next hkeeps howed
    constructor
    · intro id t t' ht ht' _
      rw [ticket_resultEffect, ht] at ht'
      cases ht'
      exact .inl rfl
    · rw [job_resultEffect]
  · rintro _ ⟨⟩
    exact ⟨hheld, hflag⟩

/-- A job that is not there has no tickets to count. -/
theorem recount_none (h : Under jobOf op held writes owed db) {id : Uuid}
    (hid : (written writes db).job id = none) :
  Under jobOf op held writes (owed.filter (· ≠ id)) db
  where
  jobsAre := h.jobsAre
  covered := h.covered
  keeps := h.keeps
  tickets := h.tickets
  flags := h.flags
  requests := h.requests
  locked jobId hjob := h.locked jobId (List.mem_of_mem_filter hjob)
  standing := by
    intro jobId hjob
    by_cases heq : jobId = id
    · subst heq
      have hnone := (h.sameKeys db).symm.job_eq_none hid
      left
      constructor
      · intro id' t t' ht _ hof
        obtain ⟨j, hj⟩ := Db.exists_job (Db.ticket_eq_some.mp ht).1
        rw [hof, hnone] at hj
        cases hj
      · rw [hid, hnone]
    · apply h.standing jobId
      intro hmem
      exact hjob (List.mem_filter.mpr ⟨hmem, by simpa using heq⟩)
  results := h.results

/-- More jobs may be owed a recount. -/
theorem owe (h : Under jobOf op held writes owed db) (owed' : List Uuid) (hsub : owed ⊆ owed')
    (hheld : ∀ jobId ∈ owed', held.hold jobId) :
  Under jobOf op held writes owed' db
  where
  jobsAre := h.jobsAre
  covered := h.covered
  keeps := h.keeps
  tickets := h.tickets
  flags := h.flags
  requests := h.requests
  locked := hheld
  standing jobId hjob := h.standing jobId fun hmem => hjob (hsub hmem)
  results := h.results

/-- A transaction that owes nothing may commit. -/
theorem commits (h : Under jobOf op held writes [] db) :
  Commits op held writes db
  where
  keys := h.sameKeys db
  tickets := h.tickets
  flags := h.flags
  requests := h.requests
  standing jobId := h.standing jobId (by simp)
  results := by
    intro id t ht hflag
    apply @row_written_of_ne _ _ _ _ rowLocks _ _ _ h.covered (.result id)
    intro w hw hkey
    apply (h.results w hw id hkey).2
    rwa [h.jobsAre id t ht]
  belong := h.keepsRows.results db h.jobsAre

end Under

end Evalorch
