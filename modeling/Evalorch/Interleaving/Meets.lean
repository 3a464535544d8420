import Evalorch.Interleaving.Commits

/-!
# The transactions keep to their specifications

One rule for each text of statements: from what a transaction has done so far (`Under`), it says
what is owed to the rest of the text. The rules are put together for the operations in
`Operation.text_meets`.
-/

namespace Evalorch

open Transact TicketRepository JobRepository

variable {jobOf : Uuid → Uuid} {op : Operation} {p : Spec Db Row LockMode} {held : Locks}
  {writes : Writes} {owed : List Uuid} {db : Db} {now : Instant}

/-- From a database on, what is left of a transaction keeps to a specification while the others
keep to theirs. -/
abbrev KeepsTo (jobOf : Uuid → Uuid) (p : Spec Db Row LockMode) (text : Text) (held : Locks)
    (writes : Writes) (db : Db) : Prop :=
  text.Meets rowLocks (Operation.spec jobOf) p held writes db

/-- What may happen to the database while some locks are held. -/
abbrev Meanwhile (jobOf : Uuid → Uuid) (held : Locks) : Db → Db → Prop :=
  rowLocks.Meanwhile (Operation.spec jobOf) held

/-! ### Rows as a transaction sees them -/

/-- A ticket that a transaction sees is one it has taken a step with. -/
theorem Under.seen (h : Under jobOf op held writes owed db) {id : Uuid} {t' : EvaluationTicket}
    (ht' : (written writes db).ticket id = some t') :
  ∃ t, db.ticket id = some t ∧ TicketStep db held writes op t t'
  := by
  obtain ⟨t, ht⟩ := (h.sameKeys db).symm.exists_ticket ht'
  obtain ⟨t'', ht'', hstep⟩ := h.tickets id t ht
  rw [ht'] at ht''
  cases ht''
  exact ⟨t, ht, hstep⟩

/-- Every ticket that a transaction sees has its job. -/
theorem Under.seen_job (h : Under jobOf op held writes owed db) {id : Uuid}
    {t : EvaluationTicket} (ht : (written writes db).ticket id = some t) :
  t.jobId = jobOf id ∧ ∃ j, (written writes db).job (jobOf id) = some j
  := by
  have hjob := h.jobsAre.of_sameKeys (h.sameKeys db) id t ht
  use hjob.symm
  rw [hjob]
  exact Db.exists_job (Db.ticket_eq_some.mp ht).1

/-- The tickets `ids` are locked, meet `Q`, and have not been rewritten so far. -/
def Ready (held : Locks) (writes : Writes) (db : Db) (Q : EvaluationTicket → Prop)
    (ids : List Uuid) : Prop :=
  ∀ id ∈ ids, rowLocks.mayWrite held (.ticket id)
    ∧ ∃ t, db.ticket id = some t ∧ (written writes db).ticket id = some t ∧ Q t

namespace Ready

variable {Q : EvaluationTicket → Prop} {ids : List Uuid} {db' : Db}

theorem nil :
  Ready held writes db Q []
  := by
  intro id hid
  cases hid

theorem cons {id : Uuid} {t : EvaluationTicket} (h : Ready held writes db Q ids)
    (hlock : rowLocks.mayWrite held (.ticket id)) (ht : db.ticket id = some t)
    (hseen : (written writes db).ticket id = some t) (hQ : Q t) :
  Ready held writes db Q (id :: ids)
  := by
  intro id' hid'
  rcases List.mem_cons.mp hid' with rfl | hid'
  · exact ⟨hlock, t, ht, hseen, hQ⟩
  · exact h id' hid'

theorem hold (h : Ready held writes db Q ids) (key : Row) (mode : LockMode) :
  Ready ((key, mode) :: held) writes db Q ids
  := fun id hid => ⟨(h id hid).1.cons, (h id hid).2⟩

theorem meanwhile (h : Ready held writes db Q ids) (hunder : Under jobOf op held writes owed db)
    (hdb : Meanwhile jobOf held db db') :
  Ready held writes db' Q ids
  := by
  intro id hid
  obtain ⟨hlock, t, ht, hseen, hQ⟩ := h id hid
  have hrow := ticket_of_meanwhile hdb hlock
  use hlock, t
  rw [hunder.ticket_congr hrow, hrow]
  exact ⟨ht, hseen, hQ⟩

end Ready

/-! ### Jobs -/

/-- A transaction that owes nothing commits what is known of it then. -/
theorem meets_commit (h : Under jobOf op held writes [] db)
    (commits : ∀ db', Meanwhile jobOf held db db' → Under jobOf op held writes [] db' →
      p.commits held writes db') :
  KeepsTo jobOf p .commit held writes db
  := fun db' hdb => commits db' hdb (h.meanwhile hdb)

/-- A job is locked, or is not there. -/
theorem meets_lockJob {jobId : Uuid} {next : Option EvaluationJob → Text}
    (h : Under jobOf op held writes owed db) (wait : p.waits held (.job jobId) .forUpdate)
    (missing : ∀ db', Meanwhile jobOf held db db' → Under jobOf op held writes owed db' →
      (written writes db').job jobId = none → KeepsTo jobOf p (next none) held writes db')
    (found : ∀ db' j, Meanwhile jobOf held db db' →
      Under jobOf op ((.job jobId, .forUpdate) :: held) writes owed db' →
      (written writes db').job jobId = some j →
      KeepsTo jobOf p (next (some j)) ((.job jobId, .forUpdate) :: held) writes db') :
  KeepsTo jobOf p (lockJob jobId next) held writes db
  := by
  intro db₁ hdb₁
  have h₁ := h.meanwhile hdb₁
  dsimp only
  cases hjob : (written writes db₁).job jobId with
  | none => exact missing db₁ hdb₁ h₁ hjob
  | some j =>
    use wait
    intro db₂ hdb₂ db₃ hdb₃
    have hdb := (hdb₁.trans hdb₂).trans hdb₃.of_cons
    have h₃ := ((h₁.meanwhile hdb₂).hold (.job jobId) .forUpdate).meanwhile hdb₃
    have hkeys := (h₁.sameKeys db₁).symm.trans
      ((kept_of_meanwhile (hdb₂.trans hdb₃.of_cons)).keys.trans (h₃.sameKeys db₃))
    obtain ⟨j', hj'⟩ := hkeys.exists_job hjob
    dsimp only
    rw [hj']
    exact found db₃ j' hdb h₃ hj'

/-- The writes `writes'` are `writes` and at most one more, of a job. -/
def Recounted (jobId : Uuid) (writes writes' : Writes) : Prop :=
  writes' = writes ∨ ∃ p : JobPatch, writes' = (.job jobId, p.effect jobId) :: writes

theorem Recounted.ticket {jobId : Uuid} {writes writes' : Writes}
    (h : Recounted jobId writes writes') (db : Db) (id : Uuid) :
  (written writes' db).ticket id = (written writes db).ticket id
  := by
  obtain rfl | ⟨p, rfl⟩ := h
  · rfl
  · exact p.ticket_effect jobId (written writes db) id

/-- A job whose row has been read is recounted. -/
theorem meets_recomputeRead {jobId : Uuid} {next : Text} {job : Option EvaluationJob}
    (h : Under jobOf op held writes owed db) (hheld : held.hold jobId)
    (hjob : (written writes db).job jobId = job)
    (rest : ∀ writes' db', Meanwhile jobOf held db db' → Recounted jobId writes writes' →
      Under jobOf op held writes' (owed.filter (· ≠ jobId)) db' →
      KeepsTo jobOf p next held writes' db') :
  KeepsTo jobOf p (recomputeRead now jobId next job) held writes db
  := by
  cases job with
  | none => exact rest writes db .refl (.inl rfl) (h.recount_none hjob)
  | some j =>
    intro db' hdb
    use hheld.mayWrite, (progressPatch now _).touches jobId
    exact rest _ db' hdb (.inr ⟨_, rfl⟩) ((h.meanwhile hdb).recount now hheld)

theorem meets_recompute {jobId : Uuid} {next : Text} (h : Under jobOf op held writes owed db)
    (wait : p.waits held (.job jobId) .forUpdate)
    (missing : ∀ db', Meanwhile jobOf held db db' →
      Under jobOf op held writes (owed.filter (· ≠ jobId)) db' →
      KeepsTo jobOf p next held writes db')
    (found : ∀ writes' db', Meanwhile jobOf held db db' → Recounted jobId writes writes' →
      Under jobOf op ((.job jobId, .forUpdate) :: held) writes' (owed.filter (· ≠ jobId)) db' →
      KeepsTo jobOf p next ((.job jobId, .forUpdate) :: held) writes' db') :
  KeepsTo jobOf p (recompute now jobId next) held writes db
  := by
  apply meets_lockJob h wait
  · intro db' hdb h' hjob
    exact missing db' hdb (h'.recount_none hjob)
  · intro db' j hdb h' hjob
    apply meets_recomputeRead h' List.mem_cons_self hjob
    intro writes'' db'' hdb' hrecounted h''
    exact found writes'' db'' (hdb.trans hdb'.of_cons) hrecounted h''

theorem meets_recomputeUnlocked {jobId : Uuid} {next : Text}
    (h : Under jobOf op held writes owed db) (hheld : held.hold jobId)
    (rest : ∀ writes' db', Recounted jobId writes writes' →
      Under jobOf op held writes' (owed.filter (· ≠ jobId)) db' →
      KeepsTo jobOf p next held writes' db') :
  KeepsTo jobOf p (recomputeUnlocked now jobId next) held writes db
  := by
  intro db₁ hdb₁
  apply meets_recomputeRead (h.meanwhile hdb₁) hheld rfl
  exact fun writes' db' _ => rest writes' db'

/-- Several jobs are recounted. `R` is what is known of the locks: each job may be waited for, and
once locked keeps what is known. -/
theorem meets_recomputeEach {next : Text} {R : List Uuid → Locks → Prop} (jobIds : List Uuid)
    (h : Under jobOf op held writes owed db) (hR : R jobIds held)
    (wait : ∀ jobId rest held, R (jobId :: rest) held → p.waits held (.job jobId) .forUpdate
      ∧ R rest held ∧ R rest ((.job jobId, .forUpdate) :: held))
    (rest : ∀ held' writes' db', R [] held' →
      Under jobOf op held' writes' (owed.filter (· ∉ jobIds)) db' →
      KeepsTo jobOf p next held' writes' db') :
  KeepsTo jobOf p (recomputeEach now jobIds next) held writes db
  := by
  induction jobIds generalizing held writes owed db with
  | nil =>
    apply rest held writes db hR
    simpa using h
  | cons jobId jobIds ih =>
    obtain ⟨hwait, hskip, htake⟩ := wait jobId jobIds held hR
    have hfilter : (owed.filter (· ≠ jobId)).filter (· ∉ jobIds)
        = owed.filter (· ∉ jobId :: jobIds) := by
      rw [List.filter_filter]
      apply List.filter_congr
      intro jobId' _
      simp [Bool.and_comm]
    apply meets_recompute h hwait
    · intro db' _ h'
      apply ih h' hskip
      rw [hfilter]
      exact rest
    · intro writes' db' _ _ h'
      apply ih h' htake
      rw [hfilter]
      exact rest

/-! ### Tickets -/

/-- Tickets that are locked and not rewritten yet are rewritten. The writes say for which rows
they are. -/
theorem meets_writeEach {patch : EvaluationTicket → TicketPatch} {Q : EvaluationTicket → Prop}
    {next : Text} (ts : List EvaluationTicket) (hnodup : (ts.map EvaluationTicket.id).Nodup)
    (h : Under jobOf op held writes owed db)
    (ready : Ready held writes db Q (ts.map EvaluationTicket.id))
    (step : ∀ t ∈ ts, ∀ writes t', t'.id = t.id → jobOf t.id = t'.jobId → Q t' →
      (.ticket t.id, (patch t).effect t.id) ∈ writes →
      TicketStep db held writes op t' ((patch t).set t')
        ∧ (sameEnd t' ((patch t).set t') ∨ jobOf t.id ∈ owed))
    (rest : ∀ writes', Under jobOf op held writes' owed db →
      (∀ w ∈ writes', w ∈ writes ∨ ∃ t ∈ ts, w.1 = .ticket t.id) →
      KeepsTo jobOf p next held writes' db) :
  KeepsTo jobOf p (writeEach patch ts next) held writes db
  := by
  induction ts generalizing writes with
  | nil =>
    apply rest writes h
    exact fun w hw => .inl hw
  | cons t ts ih =>
    obtain ⟨hlock, t', ht', hseen, hQ⟩ := ready t.id (by simp)
    have hjob := h.jobsAre t.id t' ht'
    obtain ⟨hstep, hend⟩ := step t List.mem_cons_self (_ :: writes) t'
      (Db.ticket_eq_some.mp ht').2 hjob hQ List.mem_cons_self
    rw [hjob] at hend
    rw [List.map_cons, List.nodup_cons] at hnodup
    use hlock, (patch t).touches t.id
    apply ih hnodup.2 (h.writeTicket hlock ht' hseen hstep hend)
    · intro id hid
      obtain ⟨hlock', t'', ht'', hseen', hQ'⟩ := ready id (List.mem_cons_of_mem _ hid)
      use hlock', t'', ht''
      have hne : id ≠ t.id := fun heq => hnodup.1 (heq ▸ hid)
      rw [written_cons, (patch t).ticket_effect, if_neg hne]
      exact ⟨hseen', hQ'⟩
    · exact fun t' ht' => step t' (List.mem_cons_of_mem t ht')
    · intro writes' h' hwrites'
      apply rest writes' h'
      intro w hw
      obtain hw | ⟨t', ht', hkey⟩ := hwrites' w hw
      · rcases List.mem_cons.mp hw with rfl | hw
        · exact .inr ⟨t, List.mem_cons_self, rfl⟩
        · exact .inl hw
      · exact .inr ⟨t', List.mem_cons_of_mem t ht', hkey⟩

/-- What a transaction that has locked the job `jobId` knows of its locks: all its rows are of
that job. -/
structure Within (jobOf : Uuid → Uuid) (jobId : Uuid) (held : Locks) : Prop where
  holds : held.hold jobId
  rows : ∀ l ∈ held, l.1.job' jobOf = jobId

theorem Within.cons {jobId : Uuid} (h : Within jobOf jobId held) (key : Row)
    (hkey : key.job' jobOf = jobId) (mode : LockMode) :
  Within jobOf jobId ((key, mode) :: held)
  := by
  constructor
  · exact List.mem_cons_of_mem _ h.holds
  · rintro l hl
    rcases List.mem_cons.mp hl with rfl | hl
    · exact hkey
    · exact h.rows l hl

theorem Within.single (jobOf : Uuid → Uuid) (jobId : Uuid) :
  Within jobOf jobId [(.job jobId, .forUpdate)]
  := by
  constructor
  · exact List.mem_cons_self
  · simp [Row.job']

/-- What is known of a job that a transaction has locked stays known. -/
theorem known_of_meanwhile {K : Option EvaluationJob → Prop} {jobId : Uuid} {db' : Db}
    (h : K (db.job jobId)) (hheld : held.hold jobId) (hdb : Meanwhile jobOf held db db') :
  K (db'.job jobId)
  := by
  rw [job_of_meanwhile hdb hheld]
  exact h

/-- The tickets of a job that pass a test are among `ids`. -/
def SelectedAmong (selects : EvaluationTicket → Bool) (jobId : Uuid) (ids : List Uuid) (db : Db) :
    Prop :=
  ∀ id t, db.ticket id = some t → t.jobId = jobId → selects t = true → id ∈ ids

theorem SelectedAmong.of_untouched {selects : EvaluationTicket → Bool} {jobId : Uuid}
    {ids : List Uuid} {db db' : Db} (h : SelectedAmong selects jobId ids db)
    (hkeys : SameKeys db db') (huntouched : Untouched db db' jobId)
    (stable : ∀ t t', t'.jobId = t.jobId → sameEnd t t' → selects t' = true → selects t = true) :
  SelectedAmong selects jobId ids db'
  := by
  intro id t' ht' hjob hselects
  obtain ⟨t, ht⟩ := hkeys.symm.exists_ticket ht'
  have hof := hkeys.jobId_eq ht ht'
  apply h id t ht (hof.symm.trans hjob)
  exact stable t t' hof (huntouched.tickets id t t' ht ht' (hof.symm.trans hjob)) hselects

/-- The tickets of a job that a look has found are locked, tested and rewritten. A ticket that
still passes the test was not rewritten before, and after the last one none passes it. -/
theorem meets_updateEach {selects : EvaluationTicket → Bool} {patch : TicketPatch} {jobId : Uuid}
    {K : Option EvaluationJob → Prop} {next : List Uuid → Text} (ids updated : List Uuid)
    (hids : ∀ id ∈ ids, jobOf id = jobId) (h : Under jobOf op held writes owed db)
    (howed : jobId ∈ owed) (hwithin : Within jobOf jobId held) (hknown : K (db.job jobId))
    (hselected : SelectedAmong selects jobId ids (written writes db))
    (wait : ∀ held id, Within jobOf jobId held → jobOf id = jobId →
      p.waits held (.ticket id) .forNoKeyUpdate)
    (fresh : ∀ db held writes t t', TicketStep db held writes op t t' → selects t' = true → t' = t)
    (step : ∀ db held writes t, K (db.job jobId) → t.jobId = jobId → held.hold jobId →
      selects t = true → TicketStep db held writes op t (patch.set t))
    (stable : ∀ t t', t'.jobId = t.jobId → sameEnd t t' → selects t' = true → selects t = true)
    (cleared : ∀ t, selects (patch.set t) = false)
    (rest : ∀ held' writes' db' updated', Within jobOf jobId held' → K (db'.job jobId) →
      SelectedAmong selects jobId [] (written writes' db') → Under jobOf op held' writes' owed db' →
      KeepsTo jobOf p (next updated') held' writes' db') :
  KeepsTo jobOf p (updateEach selects patch next ids updated) held writes db
  := by
  induction ids generalizing held writes db updated with
  | nil => exact rest held writes db updated hwithin hknown hselected h
  | cons id ids ih =>
    have hid := hids id List.mem_cons_self
    have hids' : ∀ id ∈ ids, jobOf id = jobId :=
      fun id' hid' => hids id' (List.mem_cons_of_mem id hid')
    use wait held id hwithin hid
    intro db₁ hdb₁ db₂ hdb₂
    have hdb := hdb₁.trans hdb₂.of_cons
    have h₂ := ((h.meanwhile hdb₁).hold (.ticket id) .forNoKeyUpdate).meanwhile hdb₂
    have hwithin₂ := hwithin.cons (.ticket id) hid .forNoKeyUpdate
    have hknown₂ := known_of_meanwhile hknown hwithin.holds hdb
    obtain ⟨hkeys, huntouched⟩ := h.seen_meanwhile hdb hwithin.holds
    have hselected₂ := hselected.of_untouched hkeys huntouched stable
    dsimp only
    split
    case isFalse hnot =>
      apply ih updated hids' h₂ hwithin₂ hknown₂
      intro id' t' ht' hjob hselects
      rcases List.mem_cons.mp (hselected₂ id' t' ht' hjob hselects) with rfl | hmem
      · exact absurd ((Option.any_eq_true _ _).mpr ⟨t', ht', hselects⟩) hnot
      · exact hmem
    case isTrue hselects =>
      obtain ⟨t', ht', hselects⟩ := (Option.any_eq_true _ _).mp hselects
      obtain ⟨t, ht, hstep⟩ := h₂.seen ht'
      obtain rfl := fresh _ _ _ _ _ hstep hselects
      have hjob : t'.jobId = jobId := by rw [← h₂.jobsAre id t' ht, hid]
      have hlock : rowLocks.mayWrite ((Row.ticket id, .forNoKeyUpdate) :: held) (.ticket id) :=
        ⟨.forNoKeyUpdate, List.mem_cons_self, rfl⟩
      use hlock, patch.touches id
      apply ih (id :: updated) hids' _ hwithin₂ hknown₂
      · intro id' t'' ht'' hjob' hselects'
        rw [written_cons, patch.ticket_effect] at ht''
        split at ht''
        case isTrue hsame =>
          obtain ⟨t₀, -, rfl⟩ := Option.map_eq_some_iff.mp ht''
          rw [cleared] at hselects'
          cases hselects'
        case isFalse hne =>
          rcases List.mem_cons.mp (hselected₂ id' t'' ht'' hjob' hselects') with rfl | hmem
          · exact absurd rfl hne
          · exact hmem
      · apply h₂.writeTicket hlock ht ht'
        · exact step _ _ _ t' hknown₂ hjob hwithin₂.holds hselects
        · rw [hjob]
          exact .inr howed

/-! ### Loops over the tickets that a look has found -/

/-- A loop that locks tickets has come to `ts`, and has taken some that meet `Q`. -/
structure Picking (jobOf : Uuid → Uuid) (op : Operation) (writes : Writes) (owed : List Uuid)
    (Q : EvaluationTicket → Prop) (held : Locks) (db : Db) (ts taken : List EvaluationTicket) :
    Prop where
  under : Under jobOf op held writes owed db
  nodup : ((ts ++ taken).map EvaluationTicket.id).Nodup
  jobs : ∀ t ∈ ts ++ taken, jobOf t.id = t.jobId
  ready : Ready held writes db Q (taken.map EvaluationTicket.id)

namespace Picking

variable {Q : EvaluationTicket → Prop} {ts taken : List EvaluationTicket} {t : EvaluationTicket}
  {db' : Db}

/-- A loop starts with tickets of a look. -/
theorem start (h : Under jobOf op held writes owed db)
    (hnodup : (ts.map EvaluationTicket.id).Nodup)
    (hts : ∀ t ∈ ts, (written writes db).ticket t.id = some t) :
  Picking jobOf op writes owed Q held db ts []
  := by
  constructor
  · exact h
  · simpa using hnodup
  · intro t ht
    rw [List.append_nil] at ht
    exact (h.seen_job (hts t ht)).1.symm
  · exact .nil

theorem hold (h : Picking jobOf op writes owed Q held db ts taken) (key : Row) (mode : LockMode) :
  Picking jobOf op writes owed Q ((key, mode) :: held) db ts taken
  := ⟨h.under.hold key mode, h.nodup, h.jobs, h.ready.hold key mode⟩

theorem meanwhile (h : Picking jobOf op writes owed Q held db ts taken)
    (hdb : Meanwhile jobOf held db db') :
  Picking jobOf op writes owed Q held db' ts taken
  := ⟨h.under.meanwhile hdb, h.nodup, h.jobs, h.ready.meanwhile h.under hdb⟩

/-- Some of the tickets are passed over. -/
theorem skip {ts' : List EvaluationTicket}
    (h : Picking jobOf op writes owed Q held db ts taken) (hts : ts'.Sublist ts) :
  Picking jobOf op writes owed Q held db ts' taken
  := by
  have hsub := hts.append_right taken
  constructor
  · exact h.under
  · exact h.nodup.sublist (hsub.map _)
  · exact fun t ht => h.jobs t (hsub.subset ht)
  · exact h.ready

/-- The next ticket is taken. -/
theorem take (h : Picking jobOf op writes owed Q held db (t :: ts) taken)
    (hlock : rowLocks.mayWrite held (.ticket t.id)) {t' : EvaluationTicket}
    (ht : db.ticket t.id = some t') (hseen : (written writes db).ticket t.id = some t')
    (hQ : Q t') :
  Picking jobOf op writes owed Q held db ts (t :: taken)
  := by
  have hmove : (ts ++ t :: taken).Perm (t :: ts ++ taken) := List.perm_middle
  constructor
  · exact h.under
  · exact (hmove.map _).nodup_iff.mpr h.nodup
  · exact fun t' ht' => h.jobs t' (hmove.subset ht')
  · exact h.ready.cons hlock ht hseen hQ

end Picking

/-- Tickets are locked, each after its job, and tested; a ticket that still passes the test was
not rewritten before. -/
theorem meets_lockAbandoned {selects : Db → EvaluationTicket → Bool} {Q : EvaluationTicket → Prop}
    {next : List EvaluationTicket → Text} {held₀ : Locks} (limit : ℕ)
    (ts taken : List EvaluationTicket) (h : Picking jobOf op writes owed Q held db ts taken)
    (locked : ∀ t ∈ taken, held.hold t.jobId) (hsub : held₀ ⊆ held)
    (fresh : ∀ db held db' t t', TicketStep db held writes op t t' → selects db' t' = true →
      t' = t ∧ Q t)
    (rest : ∀ held' db' taken', Picking jobOf op writes owed Q held' db' [] taken' →
      (∀ t ∈ taken', held'.hold t.jobId) → held₀ ⊆ held' →
      KeepsTo jobOf p (next taken') held' writes db') :
  KeepsTo jobOf p (lockAbandoned selects next limit ts taken) held writes db
  := by
  induction ts generalizing held limit taken db with
  | nil => cases limit <;> exact rest held db taken h locked hsub
  | cons t ts ih =>
    cases limit with
    | zero => exact rest held db taken (h.skip (List.nil_sublist _)) locked hsub
    | succ limit =>
      have hskip := List.sublist_cons_self t ts
      intro db₁ hdb₁
      have h₁ := h.meanwhile hdb₁
      constructor
      case right => exact ih (limit + 1) taken (h₁.skip hskip) locked hsub
      intro db₂ hdb₂
      have h₂ := (h₁.hold (.job t.jobId) .forUpdate).meanwhile hdb₂
      have hsub₂ : held ⊆ (Row.job t.jobId, LockMode.forUpdate) :: held := List.subset_cons_self _ _
      constructor
      case right =>
        exact ih (limit + 1) taken (h₂.skip hskip) (fun t' ht' => hsub₂ (locked t' ht'))
          (List.Subset.trans hsub hsub₂)
      intro db₃ hdb₃
      have h₃ := (h₂.hold (.ticket t.id) .forUpdate).meanwhile hdb₃
      have hsub₃ : held
          ⊆ (.ticket t.id, .forUpdate) :: (Row.job t.jobId, LockMode.forUpdate) :: held :=
        List.Subset.trans hsub₂ (List.subset_cons_self _ _)
      dsimp only
      split
      case isFalse =>
        exact ih (limit + 1) taken (h₃.skip hskip) (fun t' ht' => hsub₃ (locked t' ht'))
          (List.Subset.trans hsub hsub₃)
      case isTrue hselects =>
        obtain ⟨t', ht', hselects⟩ := (Option.any_eq_true _ _).mp hselects
        obtain ⟨t₀, ht₀, hstep⟩ := h₃.under.seen ht'
        obtain ⟨rfl, hQ⟩ := fresh _ _ _ _ _ hstep hselects
        apply ih limit (t :: taken)
        · exact h₃.take ⟨.forUpdate, List.mem_cons_self, rfl⟩ ht₀ ht' hQ
        · intro t'' ht''
          rcases List.mem_cons.mp ht'' with rfl | ht''
          · exact List.mem_cons_of_mem _ List.mem_cons_self
          · exact hsub₃ (locked t'' ht'')
        · exact List.Subset.trans hsub hsub₃

/-- Tickets are locked and tested, as many as a claim may take. -/
theorem meets_lockClaimable {selects : EvaluationTicket → Bool} {Q : EvaluationTicket → Prop}
    {next : List EvaluationTicket → Text} (all : List EvaluationTicket) (limit : ℕ)
    (ts taken : List EvaluationTicket) (h : Picking jobOf op writes owed Q held db ts taken)
    (hall : ts ++ taken ⊆ all)
    (fresh : ∀ db held t t', TicketStep db held writes op t t' → selects t' = true → t' = t ∧ Q t)
    (rest : ∀ held' db' taken', Picking jobOf op writes owed Q held' db' [] taken' →
      taken' ⊆ all → taken'.length ≤ limit + taken.length →
      KeepsTo jobOf p (next taken') held' writes db') :
  KeepsTo jobOf p (lockClaimable selects next limit ts taken) held writes db
  := by
  induction ts generalizing held limit taken db with
  | nil => cases limit <;> exact rest held db taken h hall (by omega)
  | cons t ts ih =>
    have hsub : ts ++ taken ⊆ all :=
      List.Subset.trans ((List.sublist_cons_self t ts).append_right taken).subset hall
    cases limit with
    | zero =>
      apply rest held db taken (h.skip (List.nil_sublist _)) _ (by omega)
      exact List.Subset.trans (List.sublist_append_right _ _).subset hall
    | succ limit =>
      have hskip := List.sublist_cons_self t ts
      intro db₁ hdb₁
      have h₁ := h.meanwhile hdb₁
      constructor
      case right => exact ih (limit + 1) taken (h₁.skip hskip) hsub rest
      intro db₂ hdb₂
      have h₂ := (h₁.hold (.ticket t.id) .forUpdate).meanwhile hdb₂
      dsimp only
      split
      case isFalse => exact ih (limit + 1) taken (h₂.skip hskip) hsub rest
      case isTrue hselects =>
        obtain ⟨t', ht', hselects⟩ := (Option.any_eq_true _ _).mp hselects
        obtain ⟨t₀, ht₀, hstep⟩ := h₂.under.seen ht'
        obtain ⟨rfl, hQ⟩ := fresh _ _ _ _ hstep hselects
        apply ih limit (t :: taken)
        · exact h₂.take ⟨.forUpdate, List.mem_cons_self, rfl⟩ ht₀ ht' hQ
        · exact List.Subset.trans List.perm_middle.subset hall
        · intro held' db' taken' hpicking htaken hlength
          apply rest held' db' taken' hpicking htaken
          rw [List.length_cons] at hlength
          omega

end Evalorch
