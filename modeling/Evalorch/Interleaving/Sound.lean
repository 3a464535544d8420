import Evalorch.Interleaving.Meets

/-!
# Every interleaving keeps to the specifications

Each operation keeps to its specification, from every database on and whatever the others commit
meanwhile (`Operation.text_meets`). So every state of every run is sound, and every commit is one
that the specification of its operation allows (`interleaved_sound`).
-/

namespace Evalorch

open Transact TicketRepository JobRepository

variable {jobOf : Uuid → Uuid} {op : Operation} {p : Spec Db Row LockMode} {held : Locks}
  {writes : Writes} {owed : List Uuid} {db : Db} {now : Instant}

/-! ### Claims -/

/-- The jobs are locked, and wait to be marked as running or are running. -/
def Markable (held : Locks) (db : Db) (jobIds : List Uuid) : Prop :=
  ∀ jobId ∈ jobIds, held.hold jobId ∧ ∀ j, db.job jobId = some j → j.status.closed = none

theorem closed_of_markable {j : EvaluationJob} (h : markable j = true) :
  j.status.closed = none
  := by
  simp only [markable, Bool.or_eq_true, decide_eq_true_eq] at h
  rcases h with h | h <;> rw [h] <;> rfl

theorem meets_lockMarkable {next : List Uuid → Text} (jobIds locked : List Uuid)
    (h : Under jobOf op held writes owed db) (hlocked : Markable held (written writes db) locked)
    (rest : ∀ held' db' locked', Under jobOf op held' writes owed db' →
      Markable held' (written writes db') locked' →
      KeepsTo jobOf p (next locked') held' writes db') :
  KeepsTo jobOf p (lockMarkable next jobIds locked) held writes db
  := by
  have hmeanwhile : ∀ {held db db' locked}, Under jobOf op held writes owed db →
      Markable held (written writes db) locked → Meanwhile jobOf held db db' →
      Markable held (written writes db') locked := by
    intro held db db' locked h hlocked hdb jobId hjobId
    obtain ⟨hheld, hclosed⟩ := hlocked jobId hjobId
    use hheld
    rw [h.job_congr (job_of_meanwhile hdb hheld)]
    exact hclosed
  induction jobIds generalizing held locked db with
  | nil => exact rest held db locked h hlocked
  | cons jobId jobIds ih =>
    intro db₁ hdb₁
    have h₁ := h.meanwhile hdb₁
    have hlocked₁ := hmeanwhile h hlocked hdb₁
    constructor
    case right => exact ih locked h₁ hlocked₁
    intro db₂ hdb₂
    have hhold := h₁.hold (.job jobId) .forUpdate
    have hlocked₂ : Markable ((.job jobId, .forUpdate) :: held) (written writes db₂) locked :=
      hmeanwhile hhold (fun jobId' hjobId' =>
        ⟨List.mem_cons_of_mem _ (hlocked₁ jobId' hjobId').1, (hlocked₁ jobId' hjobId').2⟩) hdb₂
    apply ih _ (hhold.meanwhile hdb₂)
    intro jobId' hjobId'
    split at hjobId'
    case isFalse => exact hlocked₂ jobId' hjobId'
    case isTrue hmarkable =>
      rcases List.mem_cons.mp hjobId' with rfl | hjobId'
      · use List.mem_cons_self
        intro j hj
        rw [hj] at hmarkable
        exact closed_of_markable hmarkable
      · exact hlocked₂ jobId' hjobId'

theorem meets_markRunning {scan : Scan Uuid} {jobIds : List Uuid} {next : Text}
    (h : Under jobOf op held writes owed db)
    (rest : ∀ held' writes' db', Under jobOf op held' writes' owed db' → writes ⊆ writes' →
      (∀ w ∈ writes', w ∈ writes ∨ ∃ jobId, w.1 = .job jobId) →
      KeepsTo jobOf p next held' writes' db') :
  KeepsTo jobOf p (markRunning now scan jobIds next) held writes db
  := by
  intro db₁ hdb₁
  apply meets_lockMarkable _ _ (h.meanwhile hdb₁) (by simp [Markable])
  intro held' db' locked h' hlocked
  clear h hdb₁
  induction locked generalizing writes with
  | nil => exact rest held' writes db' h' (List.Subset.refl _) fun w hw => .inl hw
  | cons jobId locked ih =>
    obtain ⟨hheld, hclosed⟩ := hlocked jobId List.mem_cons_self
    use hheld.mayWrite, JobPatch.touches _ jobId
    apply ih
    · intro held' writes' db' h' hsub hwrites'
      apply rest held' writes' db' h' (List.Subset.trans (List.subset_cons_self _ _) hsub)
      intro w hw
      obtain hw | hjob := hwrites' w hw
      · rcases List.mem_cons.mp hw with rfl | hw
        · exact .inr ⟨jobId, rfl⟩
        · exact .inl hw
      · exact .inr hjob
    · apply h'.writeJob hheld
      · right
        intro j hj
        simp only [EvaluationJob.standing, markedRow, hclosed j hj]
        rfl
      · exact fun j hflag => hflag
      · exact .inr fun j hflag => hflag
    · intro jobId' hjobId'
      obtain ⟨hheld', hclosed'⟩ := hlocked jobId' (List.mem_cons_of_mem jobId hjobId')
      use hheld'
      intro j hj
      rw [written_cons, JobPatch.job_effect] at hj
      split at hj
      · obtain ⟨j₀, -, rfl⟩ := Option.map_eq_some_iff.mp hj
        rfl
      · exact hclosed' j hj

/-- A claimable ticket is a row of the look, and no row is there twice. -/
theorem mem_claimables {r : ClaimRequest} {t : EvaluationTicket} :
  t ∈ claimables now r db ↔ t ∈ db.tickets.rows ∧ claimable (db.tick now) r.jobId t = true
  := by
  unfold claimables
  rw [List.mem_insertionSort, (r.scan.perm _).mem_iff, List.mem_filter]

theorem nodup_claimables {r : ClaimRequest} :
  ((claimables now r db).map EvaluationTicket.id).Nodup
  := by
  unfold claimables
  have hperm := (List.perm_insertionSort (fun t t' => claimOrder t t' = true)
    (r.scan.order (db.tickets.rows.filter (claimable (db.tick now) r.jobId)))).trans (r.scan.perm _)
  rw [(hperm.map _).nodup_iff]
  exact db.tickets.nodup.sublist (List.filter_sublist.map _)

/-- A row that is not in a list of writes stays. -/
theorem Under.ticket_of_writes (h : Under jobOf op held writes owed db) {ids : List Uuid}
    (hwrites : ∀ w ∈ writes, ∀ id, w.1 = .ticket id → id ∈ ids) (db : Db) {id : Uuid}
    (hid : (written writes db).ticket id ≠ db.ticket id) :
  id ∈ ids
  := by
  by_contra hmem
  apply hid
  apply @row_written_of_ne _ _ _ _ rowLocks _ _ _ h.covered (.ticket id)
  exact fun w hw heq => hmem (hwrites w hw id heq)

/-- A claim may commit when it has taken no more tickets than it may, none of a job that was
cancelled before it began to look, and written no other. -/
theorem meets_claimText {r : ClaimRequest} (hjobs : db.jobsAre jobOf)
    (commits : ∀ held writes db' (ids : List Uuid), db'.jobsAre jobOf →
      Commits (.claim now r) held writes db' → ids.length ≤ r.limit →
      (∀ id, (written writes db').ticket id ≠ db'.ticket id → id ∈ ids) →
      (∀ id ∈ ids, ¬ db.cancelRequested (jobOf id)) → p.commits held writes db') :
  KeepsTo jobOf p (claimText now r) [] [] db
  := by
  intro db₁ hdb₁
  have h₁ := (Under.start (.claim now r) hjobs).meanwhile hdb₁
  have hstart : Picking jobOf (.claim now r) [] []
      (fun t => t.status.pending ∧ t.availableAt ≤ now) [] db₁ (claimables now r db₁) [] := by
    apply Picking.start h₁ nodup_claimables
    exact fun t ht => Db.ticket_eq_some.mpr ⟨(mem_claimables.mp ht).1, rfl⟩
  have hflags : ∀ t ∈ claimables now r db₁, ¬ db.cancelRequested (jobOf t.id) := by
    intro t ht hflag
    obtain ⟨hrow, hclaimable⟩ := mem_claimables.mp ht
    obtain ⟨-, -, hjob⟩ := claimable_iff hclaimable
    apply not_cancelRequested_of_claimable hjob
    rw [← h₁.jobsAre t.id t (Db.ticket_eq_some.mpr ⟨hrow, rfl⟩)]
    exact (kept_of_meanwhile hdb₁).flags _ hflag
  apply meets_lockClaimable (claimables now r db₁) r.limit _ [] hstart (by simp)
  · intro db held t t' hstep hselects
    obtain ⟨hpending, havailable, -⟩ := claimable_iff hselects
    cases hstep with
    | kept => exact ⟨rfl, hpending, havailable⟩
    | claimed => simp [claimedRow, TicketStatus.pending] at hpending
    | settled settlement => cases settlement
    | recovered sweep => cases sweep
    | swept sweep => cases sweep
  · intro held db₂ taken h₂ htaken hlength
    have hcommit : ∀ held' writes' db₃, Under jobOf (.claim now r) held' writes' [] db₃ →
        (∀ w ∈ writes', ∀ id, w.1 = .ticket id → id ∈ taken.map EvaluationTicket.id) →
        KeepsTo jobOf p .commit held' writes' db₃ := by
      intro held' writes' db₃ h₃ hwrites
      apply meets_commit h₃
      intro db₄ _ h₄
      apply commits held' writes' db₄ (taken.map EvaluationTicket.id) h₄.jobsAre h₄.commits
      · simpa using hlength
      · exact fun id => h₄.ticket_of_writes hwrites db₄
      · intro id hid
        obtain ⟨t, ht, rfl⟩ := List.mem_map.mp hid
        exact hflags t (htaken ht)
    unfold takeTickets
    split
    case isTrue => exact hcommit held [] db₂ h₂.under (by simp)
    case isFalse =>
      intro db₃ hdb₃
      have h₃ := h₂.meanwhile hdb₃
      dsimp only
      split
      case isFalse => trivial
      case isTrue hchecks =>
        have hready : Ready held [] db₃ (fun t => (t.status.pending ∧ t.availableAt ≤ now)
            ∧ Db.ticketChecks (claimedRow now r.worker.id r.leaseSeconds t) = true)
            (taken.map EvaluationTicket.id) := by
          intro id hid
          obtain ⟨hlock, t, ht, hseen, hQ⟩ := h₃.ready id hid
          obtain ⟨t', ht', rfl⟩ := List.mem_map.mp hid
          have hcheck := List.all_eq_true.mp hchecks t' ht'
          rw [hseen] at hcheck
          exact ⟨hlock, t, ht, hseen, hQ, hcheck⟩
        apply meets_writeEach taken (by simpa using h₃.nodup) h₃.under hready
        · rintro t - writes t' hid - ⟨⟨hpending, havailable⟩, hcheck⟩ hwrote
          use .claimed hpending havailable hcheck (hid ▸ hwrote)
          left
          right
          rcases hpending with h | h <;> simp [h, TicketStatus.isTerminal, claimedPatch, claimedRow]
        · intro writes' h' hwrites'
          apply meets_markRunning h'
          intro held'' writes'' db₄ h₄ _ hwrites''
          apply hcommit held'' writes'' db₄ h₄
          intro w hw id hkey
          obtain hw | ⟨jobId, hjob⟩ := hwrites'' w hw
          · obtain hw | ⟨t, ht, hticket⟩ := hwrites' w hw
            · cases hw
            · rw [hkey] at hticket
              cases hticket
              exact List.mem_map_of_mem ht
          · rw [hkey] at hjob
            cases hjob

/-! ### Settlements -/

/-- An operation that locks one job before everything else may wait for rows of that job. -/
theorem Within.waits {jobId : Uuid} (hheld : held = [] ∨ Within jobOf jobId held) {key : Row}
    (hkey : key.job' jobOf = jobId) :
  held = [] ∨ held.hold (key.job' jobOf) ∧ ∀ l ∈ held, l.1.job' jobOf = key.job' jobOf
  := by
  subst hkey
  exact hheld.imp id fun h => ⟨h.holds, h.rows⟩

/-- A settlement leaves no ticket running. -/
theorem transitionRow_not_running (now : Instant) {target : TicketStatus}
    (hallowed : target ∈ allowedTicketTransitions .running) (s : Settlement)
    (t : EvaluationTicket) :
  (transitionRow now target s t).status ≠ .running
  := by
  cases target with
  | ready | running => simp [allowedTicketTransitions] at hallowed
  | _ => simp [transitionRow]

theorem stopped_of_sameKeys {db' : Db} (hkeys : SameKeys db db') {ticketId : Uuid}
    (hnone : db.ticket ticketId = none) :
  db'.stopped ticketId
  := by
  intro t' ht'
  obtain ⟨t, ht⟩ := hkeys.symm.exists_ticket ht'
  rw [hnone] at ht
  cases ht

/-- A settlement that does not look at the job, cancels the ticket, or has locked the job and found
it not cancelled. -/
theorem meets_settleText {r : SettleRequest} {target : TicketStatus} {settlement : Settlement}
    (hsettlement : op.settlement = some (now, r)) (hjob : jobOf r.ticket.id = r.ticket.jobId)
    (h : Under jobOf op held writes [] db)
    (hheld : held = [] ∨ Within jobOf r.ticket.jobId held)
    (hheeds : op.settlesTo target ∨ target = .cancelled
      ∨ held.hold r.ticket.jobId ∧ ¬ db.cancelRequested r.ticket.jobId)
    {t₀ : EvaluationTicket} (hexists : (written writes db).ticket r.ticket.id = some t₀)
    (wait : ∀ held key mode, (held = [] ∨ Within jobOf r.ticket.jobId held) →
      key.job' jobOf = r.ticket.jobId → p.waits held key mode)
    (commits : ∀ held writes db, Commits op held writes db →
      (written writes db).stopped r.ticket.id → p.commits held writes db) :
  KeepsTo jobOf p
    (settleText now r.ticket.id r.ticket.jobId target settlement r.workerId) held writes db
  := by
  unfold settleText
  split
  case isTrue => trivial
  case isFalse hworker =>
    apply meets_lockJob h (wait held _ _ hheld rfl)
    · intro db₁ hdb₁ h₁ hnone
      have hkeys := (h.sameKeys db).symm.trans
        ((kept_of_meanwhile hdb₁).keys.trans (h₁.sameKeys db₁))
      obtain ⟨t₁, ht₁⟩ := hkeys.exists_ticket hexists
      obtain ⟨-, j, hj⟩ := h₁.seen_job ht₁
      rw [hjob, hnone] at hj
      cases hj
    · intro db₁ j hdb₁ h₁ hj db₂ hdb₂
      have h₂ := h₁.meanwhile hdb₂
      have hwithin : Within jobOf r.ticket.jobId ((.job r.ticket.jobId, .forUpdate) :: held) := by
        obtain rfl | hwithin := hheld
        · apply Within.single
        · exact hwithin.cons _ rfl _
      dsimp only
      split
      case h_1 => trivial
      case h_2 =>
        use wait _ (.ticket r.ticket.id) .forUpdate (.inr hwithin) hjob
        intro db₃ hdb₃ db₄ hdb₄
        have h₄ := ((h₂.meanwhile hdb₃).hold (.ticket r.ticket.id) .forUpdate).meanwhile hdb₄
        have hlocked := (hwithin.cons (.ticket r.ticket.id) hjob .forUpdate).holds
        have hdb : Meanwhile jobOf held db db₄ :=
          hdb₁.trans (hdb₂.trans (hdb₃.trans hdb₄.of_cons)).of_cons
        have hheeds₄ : op.heeds target db₄ r.ticket.jobId :=
          hheeds.imp_right fun h => h.imp_right fun ⟨hold, hnot⟩ hflag =>
            hnot (cancelRequested_of_meanwhile hdb hold hflag)
        dsimp only
        split
        case h_1 => trivial
        case h_2 hok =>
          obtain ⟨t', hseen, howned, hallowed, -⟩ := transition_ok hworker hok
          change (written writes db₄).ticket r.ticket.id = some t' at hseen
          obtain ⟨t, ht, hstep⟩ := h₄.seen hseen
          obtain rfl : t' = t := by
            apply hstep.eq_of_running (owned_iff.mp howned).1
            · rintro now r rfl
              cases hsettlement
            · rintro now id worker leaseSeconds rfl
              cases hsettlement
          have hof : t'.jobId = r.ticket.jobId := by rw [← hjob, h₄.jobsAre _ t' ht]
          have hlock : rowLocks.mayWrite
              ((.ticket r.ticket.id, .forUpdate) :: (.job r.ticket.jobId, .forUpdate) :: held)
              (.ticket r.ticket.id) := ⟨.forUpdate, List.mem_cons_self, rfl⟩
          have howe := h₄.owe [r.ticket.jobId] (by simp) (by simpa using hlocked)
          use hlock, TicketPatch.touches _ _
          have hwrite := howe.writeTicket (p := transitionPatch now target settlement) hlock ht
            hseen (.settled hsettlement target settlement (Db.ticket_eq_some.mp ht).2 howned
              hallowed (hof ▸ hlocked) (hof ▸ hheeds₄)) (.inr (by simp [hof]))
          apply meets_recomputeUnlocked hwrite hlocked
          intro writes' db' hrecounted h'
          rw [show List.filter (· ≠ r.ticket.jobId) [r.ticket.jobId] = [] by simp] at h'
          apply meets_commit h'
          intro db'' _ h''
          apply commits _ _ _ h''.commits
          intro t'' ht''
          rw [hrecounted.ticket, written_cons, TicketPatch.ticket_effect, if_pos rfl] at ht''
          obtain ⟨t₀, -, rfl⟩ := Option.map_eq_some_iff.mp ht''
          exact transitionRow_not_running now hallowed settlement t₀

theorem meets_settleOnlyText {r : SettleRequest} (hsettlement : op.settlement = some (now, r))
    (htarget : op.settlesTo r.target)
    (hjob : ∀ t, db.ticket r.ticket.id = some t → jobOf r.ticket.id = r.ticket.jobId)
    (hjobs : db.jobsAre jobOf)
    (wait : ∀ held key mode, (held = [] ∨ Within jobOf r.ticket.jobId held) →
      key.job' jobOf = r.ticket.jobId → p.waits held key mode)
    (commits : ∀ held writes db, Commits op held writes db →
      (written writes db).stopped r.ticket.id → p.commits held writes db) :
  KeepsTo jobOf p (settleOnlyText now r) [] [] db
  := by
  intro db₁ hdb₁
  have h₁ := (Under.start op hjobs).meanwhile hdb₁
  dsimp only
  split
  case h_1 hnone =>
    apply meets_commit h₁
    intro db₂ hdb₂ h₂
    exact commits _ _ _ h₂.commits (stopped_of_sameKeys (kept_of_meanwhile hdb₂).keys hnone)
  case h_2 t ht =>
    obtain ⟨t₀, ht₀⟩ := (kept_of_meanwhile hdb₁).keys.symm.exists_ticket ht
    exact meets_settleText hsettlement (hjob t₀ ht₀) h₁ (.inl rfl) (.inl htarget) ht wait commits

/-- What is done after the row of a result and those of its foreign keys are locked. -/
theorem meets_lockResult {ticketId jobId : Uuid} {next : Text} (hjob : jobOf ticketId = jobId)
    (h : Under jobOf op held writes [] db) (hwithin : Within jobOf jobId held)
    (wait : ∀ held key mode, Within jobOf jobId held → key.job' jobOf = jobId →
      p.waits held key mode)
    (rest : ∀ held' db', Meanwhile jobOf held db db' → Within jobOf jobId held' →
      rowLocks.mayWrite held' (.result ticketId) → Under jobOf op held' writes [] db' →
      KeepsTo jobOf p next held' writes db') :
  KeepsTo jobOf p (lockResult ticketId jobId next) held writes db
  := by
  use wait held (.result ticketId) .forNoKeyUpdate hwithin hjob
  intro db₁ hdb₁ db₂ hdb₂
  have h₂ := ((h.meanwhile hdb₁).hold (.result ticketId) .forNoKeyUpdate).meanwhile hdb₂
  have hwithin₂ := hwithin.cons (.result ticketId) hjob .forNoKeyUpdate
  have hlock : rowLocks.mayWrite ((.result ticketId, .forNoKeyUpdate) :: held) (.result ticketId) :=
    ⟨.forNoKeyUpdate, List.mem_cons_self, rfl⟩
  have hdb := hdb₁.trans hdb₂.of_cons
  dsimp only
  split
  case h_1 => exact rest _ db₂ hdb hwithin₂ hlock h₂
  case h_2 =>
    use wait _ (.job jobId) .forKeyShare hwithin₂ rfl
    intro db₃ hdb₃
    have h₃ := (h₂.meanwhile hdb₃).hold (.job jobId) .forKeyShare
    have hwithin₃ := hwithin₂.cons (.job jobId) rfl .forKeyShare
    use wait _ (.ticket ticketId) .forKeyShare hwithin₃ hjob
    intro db₄ hdb₄
    apply rest _ db₄ (hdb.trans (hdb₃.trans hdb₄.of_cons).of_cons)
    · exact hwithin₃.cons (.ticket ticketId) hjob .forKeyShare
    · exact hlock.cons.cons
    · exact (h₃.meanwhile hdb₄).hold (.ticket ticketId) .forKeyShare

theorem meets_persistText {r : PersistRequest} (hop : op.settlement = some (now, r.settle none))
    (hjob : ∀ t, db.ticket r.ticket.id = some t → jobOf r.ticket.id = r.ticket.jobId)
    (hjobs : db.jobsAre jobOf)
    (wait : ∀ held key mode, (held = [] ∨ Within jobOf r.ticket.jobId held) →
      key.job' jobOf = r.ticket.jobId → p.waits held key mode)
    (commits : ∀ held writes db, Commits op held writes db →
      (written writes db).stopped r.ticket.id → p.commits held writes db) :
  KeepsTo jobOf p (persistText now r) [] [] db
  := by
  intro db₁ hdb₁
  have h₁ := (Under.start op hjobs).meanwhile hdb₁
  dsimp only
  split
  case h_1 hnone =>
    apply meets_commit h₁
    intro db₂ hdb₂ h₂
    exact commits _ _ _ h₂.commits (stopped_of_sameKeys (kept_of_meanwhile hdb₂).keys hnone)
  case h_2 t ht =>
    obtain ⟨t₀, ht₀⟩ := (kept_of_meanwhile hdb₁).keys.symm.exists_ticket ht
    have hjob := hjob t₀ ht₀
    apply meets_lockJob h₁ (wait [] _ _ (.inl rfl) rfl)
    · intro db₂ hdb₂ h₂ hnone
      obtain ⟨t₂, ht₂⟩ := (kept_of_meanwhile hdb₂).keys.exists_ticket ht
      obtain ⟨-, j, hj⟩ := h₂.seen_job ht₂
      rw [hjob, hnone] at hj
      cases hj
    · intro db₂ j hdb₂ h₂ hj db₃ hdb₃
      have h₃ := h₂.meanwhile hdb₃
      obtain ⟨t₃, ht₃⟩ :=
        (kept_of_meanwhile (hdb₂.trans hdb₃.of_cons)).keys.exists_ticket ht
      have hwithin := Within.single jobOf r.ticket.jobId
      dsimp only
      split
      case isTrue =>
        exact meets_settleText (r := r.settle none) hop hjob h₃ (.inr hwithin) (.inr (.inl rfl)) ht₃
          wait commits
      case isFalse hheeded =>
        have hheeds : r.verdict.target = .cancelled ∨ ¬ db₃.cancelRequested r.ticket.jobId := by
          rw [Bool.and_eq_true, not_and_or, decide_eq_true_eq, not_not] at hheeded
          exact hheeded.symm.imp id fun hnot hflag => hnot (cancelRequested_of_state.mpr hflag)
        split
        case isFalse =>
          exact meets_settleText (r := r.settle none) hop hjob h₃ (.inr hwithin)
            (.inr (hheeds.imp id fun hnot => ⟨hwithin.holds, hnot⟩)) ht₃ wait commits
        case isTrue hrecords =>
          have hnot : ¬ db₃.cancelRequested r.ticket.jobId := by
            apply hheeds.resolve_left
            rintro hcancelled
            rw [hcancelled] at hrecords
            cases hrecords
          apply meets_lockResult hjob h₃ hwithin fun held key mode h => wait held key mode (.inr h)
          intro held₄ db₄ hdb₄ hwithin₄ hlock₄ h₄ db₅ hdb₅
          have h₅ := h₄.meanwhile hdb₅
          obtain ⟨t₅, ht₅⟩ :=
            ((kept_of_meanwhile hdb₄).keys.trans (kept_of_meanwhile hdb₅).keys).exists_ticket ht₃
          have hnot₅ : ¬ db₅.cancelRequested r.ticket.jobId := fun hflag =>
            hnot (cancelRequested_of_meanwhile hdb₄ hwithin.holds
              (cancelRequested_of_meanwhile hdb₅ hwithin₄.holds hflag))
          dsimp only
          split
          case h_1 => trivial
          case h_2 =>
            use hlock₄, touches_resultEffect now (r.result now)
            have hwrite := h₅.writeResult now (r.result now) hlock₄ hjob.symm
              (hjob.symm ▸ hwithin₄.holds) (hjob.symm ▸ hnot₅)
            apply meets_settleText (r := r.settle none) hop hjob hwrite (.inr hwithin₄)
              (.inr (.inr ⟨hwithin₄.holds, hnot₅⟩)) _ wait commits
            · exact t₅
            · exact (ticket_resultEffect now (r.result now) db₅ r.ticket.id).trans ht₅

/-- A ticket that a heartbeat extends stays running. -/
theorem meets_heartbeatText {ticketId : Uuid} {worker : Worker} {leaseSeconds : ℤ}
    (hjobs : db.jobsAre jobOf) (wait : ∀ key mode, p.waits [] key mode)
    (commits : ∀ held writes db,
      Commits (.heartbeat now ticketId worker leaseSeconds) held writes db →
      p.commits held writes db) :
  KeepsTo jobOf p (heartbeatText now ticketId worker leaseSeconds) [] [] db
  := by
  intro db₁ hdb₁
  have h₁ := (Under.start (.heartbeat now ticketId worker leaseSeconds) hjobs).meanwhile hdb₁
  dsimp only
  split
  case isFalse => exact meets_commit h₁ fun db' _ h' => commits _ _ _ h'.commits
  case isTrue =>
    use wait _ _
    intro db₂ hdb₂ db₃ hdb₃
    have h₃ := ((h₁.meanwhile hdb₂).hold (.ticket ticketId) .forNoKeyUpdate).meanwhile hdb₃
    dsimp only
    split
    case isFalse => exact meets_commit h₃ fun db' _ h' => commits _ _ _ h'.commits
    case isTrue howned =>
      obtain ⟨t, ht, howner⟩ := (Option.any_eq_true _ _).mp howned
      have hlock : rowLocks.mayWrite [(.ticket ticketId, .forNoKeyUpdate)] (.ticket ticketId) :=
        ⟨.forNoKeyUpdate, List.mem_cons_self, rfl⟩
      use hlock, TicketPatch.touches _ _
      obtain rfl := (Db.ticket_eq_some.mp ht).2
      exact meets_commit (h₃.writeTicket (p := extendedPatch now leaseSeconds) hlock ht ht
        (.extended howner) (.inl (.inl rfl))) fun db' _ h' => commits _ _ _ h'.commits

/-! ### Jobs -/

/-- The tickets of an `UPDATE` on the tickets of a job are tickets of that job. -/
theorem jobOf_of_mem_scan (h : db.jobsAre jobOf) {jobId id : Uuid} {scan : Scan EvaluationTicket}
    {selects : EvaluationTicket → Bool} (hselects : ∀ t, selects t = true → t.jobId = jobId)
    (hid : id ∈ (scan.order (db.tickets.rows.filter selects)).map EvaluationTicket.id) :
  jobOf id = jobId
  := by
  obtain ⟨t, ht, rfl⟩ := List.mem_map.mp hid
  rw [(scan.perm _).mem_iff, List.mem_filter] at ht
  rw [h t.id t (Db.ticket_eq_some.mpr ⟨ht.1, rfl⟩), hselects t ht.2]

/-- A transaction that owes one job a recount may commit after it. -/
theorem meets_recompute_commit {jobId : Uuid} (h : Under jobOf op held writes [jobId] db)
    (wait : p.waits held (.job jobId) .forUpdate)
    (commits : ∀ held' writes' db', Meanwhile jobOf held db db' → Recounted jobId writes writes' →
      Commits op held' writes' db' → p.commits held' writes' db') :
  KeepsTo jobOf p (recompute now jobId .commit) held writes db
  := by
  have hpaid : List.filter (· ≠ jobId) [jobId] = [] := by simp
  apply meets_recompute h wait
  · intro db₁ hdb₁ h₁
    rw [hpaid] at h₁
    apply meets_commit h₁
    exact fun db' hdb h' => commits _ _ db' (hdb₁.trans hdb) (.inl rfl) h'.commits
  · intro writes₁ db₁ hdb₁ hrecounted h₁
    rw [hpaid] at h₁
    apply meets_commit h₁
    exact fun db' hdb h' => commits _ _ db' (hdb₁.trans hdb.of_cons) hrecounted h'.commits

/-- The tickets that a look has found are the ones that pass its test. -/
theorem selected_of_scan {selects : EvaluationTicket → Bool} {scan : Scan EvaluationTicket}
    {jobId : Uuid} :
  SelectedAmong selects jobId
    ((scan.order (db.tickets.rows.filter selects)).map EvaluationTicket.id) db
  := by
  intro id t ht _ hselects
  obtain ⟨hmem, rfl⟩ := Db.ticket_eq_some.mp ht
  apply List.mem_map_of_mem
  rw [(scan.perm _).mem_iff, List.mem_filter]
  exact ⟨hmem, hselects⟩

/-- A cancellation commits when the job may be cancelled and none of its tickets waits. -/
theorem meets_cancelText {jobId : Uuid} {scan : Scan EvaluationTicket} (hjobs : db.jobsAre jobOf)
    (wait : ∀ held key mode, (held = [] ∨ Within jobOf jobId held) →
      key.job' jobOf = jobId → p.waits held key mode)
    (commits : ∀ held writes db, Commits (.cancelJob now jobId scan) held writes db →
      (Operation.cancelJob now jobId scan).ensures db (written writes db) →
      p.commits held writes db) :
  KeepsTo jobOf p (cancelText now jobId scan) [] [] db
  := by
  apply meets_lockJob (Under.start (.cancelJob now jobId scan) hjobs) (wait [] _ _ (.inl rfl) rfl)
  · intro db₁ _ _ _
    trivial
  intro db₁ j _ h₁ hj
  have hwithin := Within.single jobOf jobId
  dsimp only
  split
  case isTrue => trivial
  case isFalse hcancellable =>
    use hwithin.holds.mayWrite, JobPatch.touches _ jobId
    intro db₂ hdb₂
    have howe := h₁.owe [jobId] (by simp) (by simp [hwithin.holds])
    have h₂ := (howe.writeJob (p := flagPatch now) hwithin.holds (.inl List.mem_cons_self)
      (fun j _ => rfl) (.inl rfl)).meanwhile hdb₂
    have hknown : ∃ j, db₂.job jobId = some j ∧ j.status.cancellable := by
      rw [job_of_meanwhile hdb₂ hwithin.holds]
      exact ⟨j, hj, hcancellable⟩
    apply meets_updateEach (K := fun job => ∃ j, job = some j ∧ j.status.cancellable) _ _ _ h₂
      List.mem_cons_self hwithin hknown selected_of_scan
    · exact fun held id hheld hid => wait held _ _ (.inr hheld) hid
    · intro db held writes t t' hstep hselects
      have hpending := (unclaimedOf_iff.mp hselects).2
      cases hstep with
      | kept => rfl
      | settled hsettlement => cases hsettlement
      | cancelled => simp [cancelledRow, TicketStatus.pending] at hpending
      | recovered hsweep => cases hsweep
      | swept hsweep => cases hsweep
    · rintro db held writes t - rfl hheld hselects
      exact .cancelled _ (unclaimedOf_iff.mp hselects).2 hheld
    · intro t t' hjob hend hselects
      obtain ⟨hof, hpending⟩ := unclaimedOf_iff.mp hselects
      exact unclaimedOf_iff.mpr ⟨hjob.symm.trans hof, hend.pending hpending⟩
    · intro t
      simp [unclaimedOf, cancelledPatch, cancelledRow]
    · intro held' writes' db₃ updated hwithin' hknown₃ hselected h₃
      apply meets_recompute_commit h₃ (wait _ _ _ (.inr hwithin') rfl)
      intro held'' writes'' db₄ hdb₄ hrecounted hcommits
      apply commits held'' writes'' db₄ hcommits
      use known_of_meanwhile (K := fun job => ∃ j, job = some j ∧ j.status.cancellable)
        hknown₃ hwithin'.holds hdb₄
      intro id t ht hof hpending
      rw [hrecounted.ticket] at ht
      obtain ⟨hkeys, huntouched⟩ := h₃.seen_meanwhile hdb₄ hwithin'.holds
      obtain ⟨t₃, ht₃⟩ := hkeys.symm.exists_ticket ht
      have hof₃ := (hkeys.jobId_eq ht₃ ht).symm.trans hof
      have hpending₃ := (huntouched.tickets id t₃ t ht₃ ht hof₃).pending hpending
      have hnone := hselected id t₃ ht₃ hof₃ (unclaimedOf_iff.mpr ⟨hof₃, hpending₃⟩)
      cases hnone
    · intro id hid
      apply jobOf_of_mem_scan (h₂.jobsAre.of_sameKeys (h₂.sameKeys db₂)) _ hid
      exact fun t hselects => (unclaimedOf_iff.mp hselects).1

theorem meets_retryText {jobId : Uuid} {scan : Scan EvaluationTicket} (hjobs : db.jobsAre jobOf)
    (wait : ∀ held key mode, (held = [] ∨ Within jobOf jobId held) →
      key.job' jobOf = jobId → p.waits held key mode)
    (commits : ∀ held writes db, Commits (.retryFailed now jobId scan) held writes db →
      p.commits held writes db) :
  KeepsTo jobOf p (retryText now jobId scan) [] [] db
  := by
  apply meets_lockJob (Under.start (.retryFailed now jobId scan) hjobs)
    (wait [] _ _ (.inl rfl) rfl)
  · intro db₁ _ _ _
    trivial
  intro db₁ j _ h₁ hj
  have hwithin := Within.single jobOf jobId
  dsimp only
  split
  case isTrue => trivial
  case isFalse huncancelled =>
    intro db₂ hdb₂
    have h₂ := (h₁.meanwhile hdb₂).owe [jobId] (by simp) (by simp [hwithin.holds])
    have hknown : ¬ ∃ j, db₂.job jobId = some j ∧ j.cancellationRequestedAt.isSome := by
      rintro ⟨j', hj', hflag⟩
      rw [job_of_meanwhile hdb₂ hwithin.holds] at hj'
      cases hj.symm.trans hj'
      exact huncancelled hflag
    apply meets_updateEach
      (K := fun job => ¬ ∃ j, job = some j ∧ j.cancellationRequestedAt.isSome) _ _ _ h₂
      List.mem_cons_self hwithin hknown selected_of_scan
    · exact fun held id hheld hid => wait held _ _ (.inr hheld) hid
    · intro db held writes t t' hstep hselects
      have hfailed := (failedOf_iff.mp hselects).2
      cases hstep with
      | kept => rfl
      | settled hsettlement => cases hsettlement
      | reset => simp [resetRow] at hfailed
      | recovered hsweep => cases hsweep
      | swept hsweep => cases hsweep
    · rintro db held writes t huncancelled rfl hheld hselects
      exact .reset (failedOf_iff.mp hselects).2 hheld huncancelled
    · intro t t' hjob hend hselects
      obtain ⟨hof, hfailed⟩ := failedOf_iff.mp hselects
      exact failedOf_iff.mpr ⟨hjob.symm.trans hof, (hend.status_iff rfl).mp hfailed⟩
    · intro t
      simp [failedOf, resetPatch, resetRow]
    · intro held' writes' db₃ updated hwithin' _ _ h₃
      cases updated with
      | nil => trivial
      | cons id updated =>
        exact meets_recompute_commit h₃ (wait _ _ _ (.inr hwithin') rfl)
          fun held writes db _ _ => commits held writes db
    · intro id hid
      apply jobOf_of_mem_scan (h₂.jobsAre.of_sameKeys (h₂.sameKeys db₂)) _ hid
      exact fun t hselects => (failedOf_iff.mp hselects).1

/-! ### Sweeps -/

theorem mem_abandoned {scan : Scan EvaluationTicket} {selects : EvaluationTicket → Bool}
    {t : EvaluationTicket} :
  t ∈ abandoned scan selects db ↔ t ∈ db.tickets.rows ∧ selects t = true
  := by
  unfold abandoned
  rw [List.mem_insertionSort, (scan.perm _).mem_iff, List.mem_filter]

theorem nodup_abandoned {scan : Scan EvaluationTicket} {selects : EvaluationTicket → Bool} :
  ((abandoned scan selects db).map EvaluationTicket.id).Nodup
  := by
  unfold abandoned
  have hperm := (List.perm_insertionSort (fun t t' => leaseOrder t t' = true)
    (scan.order (db.tickets.rows.filter selects))).trans (scan.perm _)
  rw [(hperm.map _).nodup_iff]
  exact db.tickets.nodup.sublist (List.filter_sublist.map _)

/-- A loop over abandoned tickets takes tickets that were not rewritten before, and then rewrites
them. -/
theorem meets_sweep (seen : Db → EvaluationTicket → Bool) {r : SweepRequest}
    (hsweep : op.sweep = some (now, r))
    {scan : Scan EvaluationTicket} {selects : Db → EvaluationTicket → Bool} {limit : ℕ}
    {patch : EvaluationTicket → TicketPatch} {next : List EvaluationTicket → Text}
    (hselects : ∀ db t, selects db t = true → expired now t = true)
    (hpatch : ∀ db held writes t t', t'.id = t.id → held.hold t'.jobId → expired now t' = true →
      (.ticket t.id, (patch t).effect t.id) ∈ writes →
      TicketStep db held writes op t' ((patch t).set t'))
    (h : Under jobOf op held writes owed db)
    (rest : ∀ held' writes' db' taken, held ⊆ held' → (∀ t ∈ taken, held'.hold t.jobId) →
      Under jobOf op held' writes' (owed ++ taken.map EvaluationTicket.jobId) db' →
      KeepsTo jobOf p (next taken) held' writes' db') :
  KeepsTo jobOf p (.read fun db =>
      lockAbandoned selects (fun taken => writeEach patch taken (next taken)) limit
        (abandoned scan (seen db) db) []) held writes db
  := by
  intro db₁ hdb₁
  have h₁ := h.meanwhile hdb₁
  have hstart : Picking jobOf op writes owed (fun t => expired now t = true) held db₁
      (abandoned scan (seen (written writes db₁)) (written writes db₁)) [] := by
    apply Picking.start h₁ nodup_abandoned
    exact fun t ht => Db.ticket_eq_some.mpr ⟨(mem_abandoned.mp ht).1, rfl⟩
  apply meets_lockAbandoned limit _ [] hstart (by simp) (List.Subset.refl held)
  · intro db held db' t t' hstep hselected
    have hexpired := hselects db' t' hselected
    have hsame : t' = t := by
      apply hstep.eq_of_running (expired_iff.mp hexpired).1
      · rintro now r rfl
        cases hsweep
      · rintro now id worker leaseSeconds rfl
        cases hsweep
    exact ⟨hsame, hsame ▸ hexpired⟩
  · intro held' db₂ taken h₂ locked hsub
    have howe := h₂.under.owe (owed ++ taken.map EvaluationTicket.jobId) (by simp) (by
      intro jobId hjobId
      rcases List.mem_append.mp hjobId with hjobId | hjobId
      · exact h₂.under.locked jobId hjobId
      · obtain ⟨t, ht, rfl⟩ := List.mem_map.mp hjobId
        exact locked t ht)
    apply meets_writeEach taken (by simpa using h₂.nodup) howe h₂.ready
    · intro t ht writes' t' hid hjob hexpired hwrote
      have hof : jobOf t.id = t.jobId := h₂.jobs t (by simpa using ht)
      constructor
      · apply hpatch _ held' writes' t t' hid _ hexpired hwrote
        rw [← hjob, hof]
        exact locked t ht
      · right
        rw [hof]
        exact List.mem_append_right _ (List.mem_map_of_mem ht)
    · intro writes' h' _
      exact rest held' writes' db₂ taken hsub locked h'

/-- A sweep waits only for jobs that it has locked. -/
theorem meets_recoverText {r : SweepRequest} (hsweep : op.sweep = some (now, r))
    (h : Under jobOf op held writes [] db)
    (wait : ∀ held key mode, (key, mode) ∈ held → p.waits held key mode)
    (commits : ∀ held writes db, Commits op held writes db → p.commits held writes db) :
  KeepsTo jobOf p (recoverText now r) held writes db
  := by
  intro db₁ hdb₁
  apply meets_sweep (fun _ => expired now) hsweep (fun _ _ => id) _ (h.meanwhile hdb₁)
    (fun held₂ writes₂ db₂ recovered _ locked₂ h₂ => ?_) db₁ .refl
  · exact fun db held writes t t' hid hheld hexpired hwrote =>
      .recovered hsweep _ _ hexpired hheld (hid ▸ hwrote)
  unfold sweepCancelled
  apply meets_sweep (fun db t => expired now t && jobCancelled db t) hsweep _ _ h₂
  · intro held₃ writes₃ db₃ swept hsub locked₃ h₃
    set jobIds := r.jobScan.order ((recovered ++ swept).map EvaluationTicket.jobId).dedup with hids
    have hmem : ∀ jobId, jobId ∈ jobIds ↔ jobId ∈ (recovered ++ swept).map EvaluationTicket.jobId :=
      fun jobId => by rw [hids, (r.jobScan.perm _).mem_iff, List.mem_dedup]
    apply meets_recomputeEach (R := fun jobIds held => ∀ jobId ∈ jobIds, held.hold jobId) jobIds h₃
    · intro jobId hjobId
      obtain ⟨t, ht, rfl⟩ := List.mem_map.mp ((hmem jobId).mp hjobId)
      rcases List.mem_append.mp ht with ht | ht
      · exact hsub (locked₂ t ht)
      · exact locked₃ t ht
    · intro jobId rest held hheld
      have htail : ∀ jobId ∈ rest, held.hold jobId :=
        fun jobId' hjobId' => hheld jobId' (List.mem_cons_of_mem jobId hjobId')
      use wait _ _ _ (hheld jobId List.mem_cons_self), htail
      exact fun jobId' hjobId' => List.mem_cons_of_mem _ (htail jobId' hjobId')
    · intro held₄ writes₄ db₄ _ h₄
      have hpaid : (([] ++ recovered.map EvaluationTicket.jobId)
          ++ swept.map EvaluationTicket.jobId).filter (· ∉ jobIds) = [] := by
        rw [List.filter_eq_nil_iff]
        intro jobId hjobId
        have hin : jobId ∈ jobIds := (hmem jobId).mpr (by simpa using hjobId)
        simp [hin]
      rw [hpaid] at h₄
      exact meets_commit h₄ fun db' _ h' => commits _ _ _ h'.commits
  · intro db t hselects
    exact (Bool.and_eq_true _ _ ▸ hselects).1
  · exact fun db held writes t t' hid hheld hexpired _ => .swept hsweep _ hexpired hheld

/-- What a runner knows of its locks before its loop: the jobs it has locked come before those it
is still to lock, in one order of the query. -/
def Ahead (scan : Scan Uuid) (jobIds : List Uuid) (rest : List Uuid) (held : Locks) : Prop :=
  ∃ done, (done ++ rest).Sublist (scan.order jobIds)
    ∧ ∀ l ∈ held, ∃ jobId ∈ done, l.1 = .job jobId

theorem meets_startupText {scan : Scan Uuid} {r : SweepRequest} (hjobs : db.jobsAre jobOf)
    (wait : ∀ held key mode, (Operation.startup now scan r).waits jobOf held key mode →
      p.waits held key mode)
    (commits : ∀ held writes db, Commits (.startup now scan r) held writes db →
      p.commits held writes db) :
  KeepsTo jobOf p (startupText now scan r) [] [] db
  := by
  intro db₁ hdb₁
  have h₁ := (Under.start (.startup now scan r) hjobs).meanwhile hdb₁
  set jobIds := jobsWithActiveTickets db₁ with hids
  apply meets_recomputeEach (R := Ahead scan jobIds) (scan.order jobIds) h₁
  · exact ⟨[], List.Sublist.refl _, by simp⟩
  · rintro jobId rest held ⟨done, hsub, hheld⟩
    have hmove : (done ++ [jobId]) ++ rest = done ++ jobId :: rest := by simp
    refine ⟨?_, ?_, ?_⟩
    · apply wait
      right
      refine ⟨jobIds, jobId, List.nodup_dedup _, rfl, ?_⟩
      intro l hl
      obtain ⟨jobId', hjobId', hkey⟩ := hheld l hl
      use jobId', hkey
      apply List.Sublist.trans _ hsub
      exact (List.singleton_sublist.mpr hjobId').append
        (List.singleton_sublist.mpr List.mem_cons_self)
    · exact ⟨done, ((List.sublist_cons_self jobId rest).append_left done).trans hsub, hheld⟩
    · use done ++ [jobId], hmove ▸ hsub
      intro l hl
      rcases List.mem_cons.mp hl with rfl | hl
      · exact ⟨jobId, by simp, rfl⟩
      · obtain ⟨jobId', hjobId', hkey⟩ := hheld l hl
        exact ⟨jobId', by simp [hjobId'], hkey⟩
  · intro held' writes' db' _ h'
    apply meets_recoverText rfl h' _ commits
    exact fun held key mode hmem => wait held key mode (.inl hmem)

/-! ### Runs -/

/-- The copy of a ticket that an execution holds names the job of the ticket. -/
def Operation.copies (db : Db) (op : Operation) : Prop :=
  ∀ now r, op.settlement = some (now, r) →
    ∀ t, db.ticket r.ticket.id = some t → t.jobId = r.ticket.jobId

/-- An operation that settles no ticket has no copy of one. -/
theorem Operation.copies_of_none {op : Operation} (h : op.settlement = none) (db : Db) :
  op.copies db
  := by
  intro now r hr
  rw [h] at hr
  cases hr

theorem Operation.copies_of_sameKeys {db db' : Db} (h : op.copies db) (hkeys : SameKeys db db') :
  op.copies db'
  := by
  intro now r hr t' ht'
  obtain ⟨t, ht⟩ := hkeys.symm.exists_ticket ht'
  rw [hkeys.jobId_eq ht ht']
  exact h now r hr t ht

/-- Each operation keeps to its specification. -/
theorem Operation.text_meets (hjobs : db.jobsAre jobOf) (hop : op.copies db) :
  KeepsTo jobOf (op.spec jobOf) op.text [] [] db
  := by
  have hjob : ∀ now r, op.settlement = some (now, r) → ∀ t, db.ticket r.ticket.id = some t →
      jobOf r.ticket.id = r.ticket.jobId := by
    intro now r hr t ht
    rw [hjobs _ t ht, hop now r hr t ht]
  cases op with
  | persist now r =>
    exact meets_persistText rfl (hjob now _ rfl) hjobs
      (fun held key mode hheld hkey => .inr (Within.waits hheld hkey))
      fun held writes db hcommits hstopped => ⟨hcommits, hstopped⟩
  | settle now r =>
    exact meets_settleOnlyText rfl (show (Operation.settle now r).settlesTo r.target from rfl)
      (hjob now r rfl) hjobs (fun held key mode hheld hkey => .inr (Within.waits hheld hkey))
      fun held writes db hcommits hstopped => ⟨hcommits, hstopped⟩
  | cancelJob now jobId scan =>
    exact meets_cancelText hjobs
      (fun held key mode hheld hkey => .inr (Within.waits hheld hkey))
      fun held writes db hcommits hensures => ⟨hcommits, hensures⟩
  | retryFailed now jobId scan =>
    exact meets_retryText hjobs
      (fun held key mode hheld hkey => .inr (Within.waits hheld hkey))
      fun held writes db hcommits => ⟨hcommits, trivial⟩
  | claim now r =>
    exact meets_claimText hjobs
      fun held writes db ids _ hcommits hlength hids _ => ⟨hcommits, ids, hlength, hids⟩
  | heartbeat now ticketId worker leaseSeconds =>
    exact meets_heartbeatText hjobs (fun key mode => .inr rfl)
      fun held writes db hcommits => ⟨hcommits, trivial⟩
  | recover now r =>
    exact meets_recoverText rfl (Under.start _ hjobs) (fun held key mode hmem => .inl hmem)
      fun held writes db hcommits => ⟨hcommits, trivial⟩
  | startup now scan r =>
    exact meets_startupText hjobs (fun held key mode => id)
      fun held writes db hcommits => ⟨hcommits, trivial⟩

/-- The job of each ticket of a database. -/
def Db.jobIdOf (db : Db) (ticketId : Uuid) : Uuid :=
  ((db.ticket ticketId).map EvaluationTicket.jobId).getD ticketId

theorem Db.jobsAre_jobIdOf (db : Db) :
  db.jobsAre db.jobIdOf
  := by
  intro id t ht
  simp [Db.jobIdOf, ht]

/-- In every run the transactions keep to their specifications, and an invariant that every commit
keeps holds of what is committed. -/
theorem interleaved_sound {db : Db} {turns : List (Turn Operation)}
    (hcopies : ∀ op, .start op ∈ turns → op.copies db) {I : Db → Prop} (hI : I db)
    (keeps : ∀ op held writes db, Commits op held writes db →
      op.ensures db (written writes db) → I db → I (written writes db)) :
  (interleaved db turns).Sound rowLocks (Operation.spec db.jobIdOf)
    ∧ SameKeys db (interleaved db turns).committed ∧ I (interleaved db turns).committed
  := by
  apply @Concurrent.sound_run _ _ _ _ _ rowLocks (Operation.spec db.jobIdOf) _ Operation.text
    (fun db' => SameKeys db db' ∧ I db') (fun op => op.copies db)
  · rintro op held writes db' ⟨hcommits, hensures⟩ ⟨hkeys, hI⟩
    exact ⟨hkeys.trans hcommits.keys, keeps op held writes db' hcommits hensures hI⟩
  · rintro op db' hop ⟨hkeys, -⟩
    exact Operation.text_meets (db.jobsAre_jobIdOf.of_sameKeys hkeys)
      (Operation.copies_of_sameKeys hop hkeys)
  · exact Concurrent.sound_initial db
  · exact ⟨.refl db, hI⟩
  · exact hcopies

end Evalorch
