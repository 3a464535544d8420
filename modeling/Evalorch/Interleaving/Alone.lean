import Evalorch.Interleaving.Statements
import Evalorch.Lifecycle.Operations
import Evalorch.Transact.Alone

/-!
# The statements of a transaction that runs alone

What each statement leads to when no other transaction runs: the rows that a look has found are
those that are locked, none of them is passed over, and their rewriting one after another is one
`UPDATE`. Two rows that an `ORDER BY` does not tell apart may be found in either order, so the rows
taken are those of a query that passes over the ones found after them (`beyond`).
-/

namespace Evalorch

open Transact TicketRepository JobRepository

variable {db : Db} {now : Instant}

/-! ### Statements on jobs -/

@[simp]
theorem alone_lockJob (jobId : Uuid) (next : Option EvaluationJob → Text) :
  (lockJob jobId next).alone db = (next (db.job jobId)).alone db
  := by
  unfold lockJob
  cases hjob : db.job jobId <;> simp [Script.alone, hjob]

theorem alone_recomputeRead (hnow : db.now = now) (jobId : Uuid) (next : Text) :
  (recomputeRead now jobId next (db.job jobId)).alone db
    = next.alone (recomputeProgress jobId db).2
  := by
  cases hjob : db.job jobId with
  | none => simp [recomputeRead, recomputeProgress, hjob]
  | some j =>
    subst hnow
    rw [recomputeProgress_db]
    rfl

theorem alone_recompute (hnow : db.now = now) (jobId : Uuid) (next : Text) :
  (recompute now jobId next).alone db = next.alone (recomputeProgress jobId db).2
  := by rw [recompute, alone_lockJob, alone_recomputeRead hnow]

theorem alone_recomputeEach (hnow : db.now = now) (jobIds : List Uuid) (next : Text) :
  (recomputeEach now jobIds next).alone db = next.alone (recomputeJobs jobIds db)
  := by
  induction jobIds generalizing db with
  | nil => rfl
  | cons jobId jobIds ih =>
    change (recompute now jobId (recomputeEach now jobIds next)).alone db = _
    rw [alone_recompute hnow, ih]
    · rfl
    · rw [recomputeProgress_db, Db.now_updateJobs, hnow]

/-- Jobs rewritten one after another are rewritten by one `UPDATE`. -/
theorem alone_writeJobs {jobIds : List Uuid} (hnodup : jobIds.Nodup) (p : JobPatch)
    (next : Text) :
  (jobIds.foldr (fun jobId next => writeJob jobId p next) next).alone db
    = next.alone (db.updateJobs (fun j => jobIds.contains j.id) p.set p.keepsId)
  := by
  induction jobIds generalizing db with
  | nil =>
    rw [Db.updateJobs_of_forall_neg (by simp)]
    rfl
  | cons jobId jobIds ih =>
    obtain ⟨hnot, hnodup⟩ := List.nodup_cons.mp hnodup
    rw [List.foldr_cons, writeJob, Script.alone, ih hnodup]
    congr 1
    apply Db.ext
    · rfl
    · apply Table.ext
      simp only [JobPatch.effect, Db.jobs_updateJobs, Table.rows_update, List.map_map]
      apply List.map_congr_left
      intro j hj
      by_cases hid : j.id = jobId
      · subst hid
        simp [patch, p.keepsId, hnot]
      · simp [patch, hid]
    · rfl
    · rfl

theorem alone_lockMarkable {next : List Uuid → Text} {jobIds : List Uuid}
    (h : ∀ jobId ∈ jobIds, (db.job jobId).any markable = true) (locked : List Uuid) :
  (lockMarkable next jobIds locked).alone db = (next (jobIds.reverse ++ locked)).alone db
  := by
  induction jobIds generalizing locked with
  | nil => rfl
  | cons jobId jobIds ih =>
    rw [lockMarkable, Script.alone, if_pos rfl, Script.alone, if_pos (h jobId List.mem_cons_self),
      ih fun id hid => h id (List.mem_cons_of_mem jobId hid)]
    simp

theorem alone_markRunning (hnow : db.now = now) (scan : Scan Uuid) {jobIds : List Uuid}
    (hnodup : jobIds.Nodup) (next : Text) :
  (markRunning now scan jobIds next).alone db = next.alone (markRunningIfPending jobIds db).2
  := by
  subst hnow
  set found := scan.order (jobIds.filter fun jobId => (db.job jobId).any markable) with hfound
  have hperm : found.Perm (jobIds.filter fun jobId => (db.job jobId).any markable) :=
    scan.perm _
  have hmem : ∀ jobId, jobId ∈ found ↔ jobId ∈ jobIds ∧ (db.job jobId).any markable = true := by
    intro jobId
    rw [hperm.mem_iff, List.mem_filter]
  have hrev : found.reverse.Nodup := by
    rw [List.nodup_reverse, hperm.nodup_iff]
    exact hnodup.filter _
  rw [markRunning, Script.alone, ← hfound, alone_lockMarkable fun jobId h => ((hmem jobId).mp h).2,
    List.append_nil, alone_writeJobs hrev]
  congr 1
  apply Db.ext
  · rfl
  · apply Table.ext
    apply List.map_congr_left
    intro j hj
    have hjob : db.job j.id = some j := Db.job_eq_some.mpr ⟨hj, rfl⟩
    have hiff : found.reverse.contains j.id
        = (jobIds.contains j.id && (j.status = .created || j.status = .ready)) := by
      rw [Bool.eq_iff_iff, List.contains_iff_mem, List.mem_reverse, hmem, hjob, Option.any_some,
        Bool.and_eq_true, List.contains_iff_mem]
      rfl
    simp only [patch, hiff]
  · rfl
  · rfl

/-- The order in which jobs are marked does not matter. -/
theorem markRunningIfPending_congr {jobIds jobIds' : List Uuid}
    (h : ∀ jobId, jobId ∈ jobIds ↔ jobId ∈ jobIds') (db : Db) :
  (markRunningIfPending jobIds db).2 = (markRunningIfPending jobIds' db).2
  := by
  have hiff : ∀ jobId, jobIds.contains jobId = jobIds'.contains jobId := by
    intro jobId
    rw [Bool.eq_iff_iff, List.contains_iff_mem, List.contains_iff_mem, h]
  simp only [markRunningIfPending, hiff]

/-- The order in which jobs are recomputed does not matter. -/
theorem recomputeJobs_congr {jobIds jobIds' : List Uuid} (hnodup : jobIds.Nodup)
    (hnodup' : jobIds'.Nodup) (h : ∀ jobId, jobId ∈ jobIds ↔ jobId ∈ jobIds') (db : Db) :
  recomputeJobs jobIds db = recomputeJobs jobIds' db
  := by
  have hiff : ∀ jobId, jobIds.contains jobId = jobIds'.contains jobId := by
    intro jobId
    rw [Bool.eq_iff_iff, List.contains_iff_mem, List.contains_iff_mem, h]
  simp only [recomputeJobs_eq hnodup, recomputeJobs_eq hnodup', hiff]

/-! ### Statements on tickets -/

/-- Two updates that do the same to every row. -/
theorem updateTickets_congr {selects selects' : EvaluationTicket → Bool}
    {set set' : EvaluationTicket → EvaluationTicket} {keepsId : ∀ t, (set t).id = t.id}
    {keepsJob : ∀ t, (set t).jobId = t.jobId} {keepsId' : ∀ t, (set' t).id = t.id}
    {keepsJob' : ∀ t, (set' t).jobId = t.jobId}
    (h : ∀ t ∈ db.tickets.rows, patch selects set t = patch selects' set' t) :
  db.updateTickets selects set keepsId keepsJob = db.updateTickets selects' set' keepsId' keepsJob'
  := by
  apply Db.ext
  · rfl
  · rfl
  · exact Table.ext (List.map_congr_left h)
  · rfl

/-- The row of a ticket that its worker owns, rewritten under that condition. -/
theorem effect_of_owned {ticketId : Uuid} {workerId : String}
    (h : (db.ticket ticketId).any (owned workerId) = true) (p : TicketPatch) :
  p.effect ticketId db
    = db.updateTickets (fun t => t.id = ticketId && owned workerId t) p.set p.keepsId p.keepsJob
  := by
  apply updateTickets_congr
  intro t ht
  by_cases hid : t.id = ticketId
  · subst hid
    rw [Db.ticket_eq_some.mpr ⟨ht, rfl⟩, Option.any_some] at h
    simp [patch, h]
  · simp [patch, hid]

/-- Tickets rewritten one after another. -/
def rewriteEach (patch : EvaluationTicket → TicketPatch) (ts : List EvaluationTicket) (db : Db) :
    Db :=
  ts.foldl (fun db t => (patch t).effect t.id db) db

theorem alone_writeEach (patch : EvaluationTicket → TicketPatch) (ts : List EvaluationTicket)
    (next : Text) :
  (writeEach patch ts next).alone db = next.alone (rewriteEach patch ts db)
  := by
  induction ts generalizing db with
  | nil => rfl
  | cons t ts ih =>
    change (writeEach patch ts next).alone ((patch t).effect t.id db) = _
    rw [ih]
    rfl

/-- Rows of the database, each at most once. -/
structure Rows (db : Db) (ts : List EvaluationTicket) : Prop where
  nodup : (ts.map EvaluationTicket.id).Nodup
  mem : ∀ t ∈ ts, t ∈ db.tickets.rows

/-- A row that is not rewritten stays. -/
theorem Rows.tail {t : EvaluationTicket} {ts : List EvaluationTicket} (h : Rows db (t :: ts))
    (p : TicketPatch) :
  Rows (p.effect t.id db) ts
  := by
  obtain ⟨hnot, hnodup⟩ := List.nodup_cons.mp h.nodup
  use hnodup
  intro t' ht'
  rw [TicketPatch.effect, Db.tickets_updateTickets, Table.mem_update]
  use t', h.mem t' (List.mem_cons_of_mem t ht')
  apply patch_of_neg
  simp only [decide_eq_false_iff_not]
  intro heq
  exact hnot (heq ▸ List.mem_map_of_mem ht')

/-- Rewriting rows one after another is one `UPDATE`. -/
theorem rewriteEach_eq {ts : List EvaluationTicket} (h : Rows db ts)
    (patch : EvaluationTicket → TicketPatch) :
  rewriteEach patch ts db
    = db.updateTickets (fun t => (ts.map EvaluationTicket.id).contains t.id)
      (fun t => (patch t).set t) (fun t => (patch t).keepsId t) (fun t => (patch t).keepsJob t)
  := by
  induction ts generalizing db with
  | nil =>
    symm
    apply Db.updateTickets_of_forall_neg
    simp
  | cons t ts ih =>
    obtain ⟨hnot, -⟩ := List.nodup_cons.mp h.nodup
    change rewriteEach patch ts ((patch t).effect t.id db) = _
    rw [ih (h.tail (patch t))]
    apply Db.ext
    · rfl
    · rfl
    · apply Table.ext
      simp only [TicketPatch.effect, Db.tickets_updateTickets, Table.rows_update, List.map_map]
      apply List.map_congr_left
      intro t' ht'
      by_cases hid : t'.id = t.id
      · obtain rfl : t' = t := Table.eq_of_key ht' (h.mem t List.mem_cons_self) hid
        rw [Function.comp_apply, patch_of_pos (f := (patch t').set) (by simp), patch_of_neg,
          patch_of_pos (by simp)]
        rw [(patch t').keepsId]
        simpa using hnot
      · rw [Function.comp_apply, patch_of_neg (f := (patch t).set) (by simpa using hid)]
        by_cases hmem : t'.id ∈ ts.map EvaluationTicket.id
        · rw [patch_of_pos (by simpa using hmem), patch_of_pos (by simpa [hid] using hmem)]
        · rw [patch_of_neg (by simpa using hmem), patch_of_neg (by simpa [hid] using hmem)]
    · rfl

/-- Rows that a condition selects, in some order. -/
theorem rows_of_perm {selects : EvaluationTicket → Bool} {ts : List EvaluationTicket}
    (h : ts.Perm (db.tickets.rows.filter selects)) :
  Rows db ts ∧ ∀ t ∈ ts, selects t = true
  := by
  refine ⟨⟨?_, ?_⟩, ?_⟩
  · rw [(h.map _).nodup_iff]
    exact db.tickets.nodup.sublist (List.filter_sublist.map _)
  · exact fun t ht => (List.mem_filter.mp (h.subset ht)).1
  · exact fun t ht => (List.mem_filter.mp (h.subset ht)).2

theorem Rows.ticket {ts : List EvaluationTicket} (h : Rows db ts) {t : EvaluationTicket}
    (ht : t ∈ ts) :
  db.ticket t.id = some t
  := Db.ticket_eq_some.mpr ⟨h.mem t ht, rfl⟩

theorem alone_updateEach {selects : EvaluationTicket → Bool} {p : TicketPatch}
    {next : List Uuid → Text} {ts : List EvaluationTicket} (h : Rows db ts)
    (hselects : ∀ t ∈ ts, selects t = true) (updated : List Uuid) :
  (updateEach selects p next (ts.map EvaluationTicket.id) updated).alone db
    = (next ((ts.map EvaluationTicket.id).reverse ++ updated)).alone
      (rewriteEach (fun _ => p) ts db)
  := by
  induction ts generalizing db updated with
  | nil => rfl
  | cons t ts ih =>
    rw [List.map_cons, updateEach, Script.alone, Script.alone, h.ticket List.mem_cons_self,
      Option.any_some, if_pos (hselects t List.mem_cons_self), writeTicket, Script.alone,
      ih (h.tail p) fun t' ht' => hselects t' (List.mem_cons_of_mem t ht')]
    simp [rewriteEach]

/-- An `UPDATE … WHERE` rewrites the rows that it selects. -/
theorem alone_updateWhere (db : Db) (scan : Scan EvaluationTicket)
    (selects : EvaluationTicket → Bool) (p : TicketPatch) :
  ∃ updated : List Uuid, updated.Perm ((db.tickets.rows.filter selects).map EvaluationTicket.id)
    ∧ ∀ next : List Uuid → Text, (updateWhere scan selects p next).alone db
      = (next updated).alone (db.updateTickets selects p.set p.keepsId p.keepsJob)
  := by
  have hperm := scan.perm (db.tickets.rows.filter selects)
  obtain ⟨hrows, hselects⟩ := rows_of_perm hperm
  use ((scan.order (db.tickets.rows.filter selects)).map EvaluationTicket.id).reverse
  constructor
  · exact (List.reverse_perm _).trans (hperm.map _)
  · intro next
    rw [updateWhere, Script.alone, alone_updateEach hrows hselects, rewriteEach_eq hrows,
      List.append_nil]
    congr 1
    apply updateTickets_congr
    intro t ht
    have hiff : ((scan.order (db.tickets.rows.filter selects)).map EvaluationTicket.id).contains
        t.id = selects t := by
      rw [Bool.eq_iff_iff, List.contains_iff_mem, (hperm.map _).mem_iff]
      constructor
      · intro hmem
        obtain ⟨t', ht', hid⟩ := List.mem_map.mp hmem
        obtain ⟨hrow, hsel⟩ := List.mem_filter.mp ht'
        rwa [Table.eq_of_key hrow ht hid] at hsel
      · exact fun hsel => List.mem_map_of_mem (List.mem_filter.mpr ⟨ht, hsel⟩)
    simp only [patch, hiff]

theorem alone_lockClaimable {selects : EvaluationTicket → Bool}
    {next : List EvaluationTicket → Text} {ts : List EvaluationTicket} (h : Rows db ts)
    (hselects : ∀ t ∈ ts, selects t = true) (limit : ℕ) (taken : List EvaluationTicket) :
  (lockClaimable selects next limit ts taken).alone db
    = (next ((ts.take limit).reverse ++ taken)).alone db
  := by
  induction ts generalizing limit taken with
  | nil => cases limit <;> rfl
  | cons t ts ih =>
    cases limit with
    | zero => rfl
    | succ limit =>
      have hrest : Rows db ts :=
        ⟨(List.nodup_cons.mp h.nodup).2, fun t' ht' => h.mem t' (List.mem_cons_of_mem t ht')⟩
      rw [lockClaimable, Script.alone, if_pos rfl, Script.alone, h.ticket List.mem_cons_self,
        Option.any_some, if_pos (hselects t List.mem_cons_self),
        ih hrest fun t' ht' => hselects t' (List.mem_cons_of_mem t ht')]
      simp

theorem alone_lockAbandoned {selects : Db → EvaluationTicket → Bool}
    {next : List EvaluationTicket → Text} {ts : List EvaluationTicket} (h : Rows db ts)
    (hselects : ∀ t ∈ ts, selects db t = true) (limit : ℕ) (taken : List EvaluationTicket) :
  (lockAbandoned selects next limit ts taken).alone db
    = (next ((ts.take limit).reverse ++ taken)).alone db
  := by
  induction ts generalizing limit taken with
  | nil => cases limit <;> rfl
  | cons t ts ih =>
    cases limit with
    | zero => rfl
    | succ limit =>
      have hrest : Rows db ts :=
        ⟨(List.nodup_cons.mp h.nodup).2, fun t' ht' => h.mem t' (List.mem_cons_of_mem t ht')⟩
      rw [lockAbandoned, Script.alone, if_pos rfl, Script.alone, if_pos rfl, Script.alone,
        h.ticket List.mem_cons_self, Option.any_some, if_pos (hselects t List.mem_cons_self),
        ih hrest fun t' ht' => hselects t' (List.mem_cons_of_mem t ht')]
      simp

/-! ### The rows that a query takes -/

/-- The rows that a query passes over when it takes its rows from those found, in their order. -/
def beyond (limit : ℕ) (found : List EvaluationTicket) (id : Uuid) : Bool :=
  ((found.drop limit).map EvaluationTicket.id).contains id

/-- When the rows beyond the limit are passed over, a query takes those before it. -/
theorem mem_selectForUpdate_beyond {selects : EvaluationTicket → Bool}
    {found : List EvaluationTicket} (hperm : found.Perm (db.tickets.rows.filter selects))
    (order : EvaluationTicket → EvaluationTicket → Bool) (limit : ℕ) (id : Uuid) :
  id ∈ selectForUpdate db selects order (beyond limit found) limit
    ↔ id ∈ (found.take limit).map EvaluationTicket.id
  := by
  have hnodup : ((found.take limit ++ found.drop limit).map EvaluationTicket.id).Nodup := by
    rw [List.take_append_drop]
    exact (rows_of_perm hperm).1.nodup
  rw [List.map_append] at hnodup
  have hfirst : ∀ t ∈ found.take limit, (!beyond limit found t.id) = true := by
    intro t ht
    have hnot : t.id ∉ (found.drop limit).map EvaluationTicket.id :=
      fun hmem => List.disjoint_of_nodup_append hnodup (List.mem_map_of_mem ht) hmem
    simpa only [beyond, Bool.not_eq_true', Bool.eq_false_iff, ne_eq, List.contains_iff_mem] using
      hnot
  have hrest : ∀ t ∈ found.drop limit, ¬ (!beyond limit found t.id) = true := by
    intro t ht
    have hmem : t.id ∈ (found.drop limit).map EvaluationTicket.id := List.mem_map_of_mem ht
    simpa only [beyond, Bool.not_eq_true', Bool.not_eq_false, List.contains_iff_mem] using hmem
  have htaken : found.filter (fun t => !beyond limit found t.id) = found.take limit := by
    calc found.filter (fun t => !beyond limit found t.id)
        = (found.take limit ++ found.drop limit).filter (fun t => !beyond limit found t.id) := by
          rw [List.take_append_drop]
      _ = found.take limit := by
          rw [List.filter_append, List.filter_eq_self.mpr hfirst, List.filter_eq_nil_iff.mpr hrest,
            List.append_nil]
  have hselected : (db.tickets.rows.filter fun t => selects t && !beyond limit found t.id).Perm
      (found.take limit) := by
    have hfilter := hperm.filter fun t => !beyond limit found t.id
    rw [htaken, List.filter_filter] at hfilter
    simpa only [Bool.and_comm] using hfilter.symm
  have hsorted := (List.perm_insertionSort (fun t t' => order t t' = true) _).trans hselected
  rw [selectForUpdate, List.take_of_length_le (hsorted.length_eq ▸ List.length_take_le _ _)]
  exact (hsorted.map _).mem_iff

/-- The rows that an update of tickets returns. -/
def updatedRows (ids : List Uuid) (p : TicketPatch) (db : Db) : List EvaluationTicket :=
  (db.updateTickets (fun t => ids.contains t.id) p.set p.keepsId p.keepsJob).tickets.rows.filter
    fun t => ids.contains t.id

theorem mem_updatedRows {ids : List Uuid} {p : TicketPatch} {t' : EvaluationTicket} :
  t' ∈ updatedRows ids p db ↔ ∃ t ∈ db.tickets.rows, t.id ∈ ids ∧ p.set t = t'
  := by
  simp only [updatedRows, List.mem_filter, Db.tickets_updateTickets, Table.mem_update,
    List.contains_iff_mem]
  constructor
  · rintro ⟨⟨t, ht, rfl⟩, hid⟩
    rw [patch_field EvaluationTicket.id p.keepsId] at hid
    use t, ht, hid
    exact (patch_of_pos (by simpa using hid)).symm
  · rintro ⟨t, ht, hid, rfl⟩
    rw [p.keepsId]
    exact ⟨⟨t, ht, patch_of_pos (by simpa using hid)⟩, hid⟩

/-- The rows that an update returns belong to the jobs of the rows it has taken. -/
theorem mem_jobs_of_updated {taken : List EvaluationTicket} (h : Rows db taken)
    {ids : List Uuid} (hids : ∀ id, id ∈ ids ↔ id ∈ taken.map EvaluationTicket.id)
    (p : TicketPatch) (jobId : Uuid) :
  jobId ∈ (updatedRows ids p db).map EvaluationTicket.jobId
    ↔ jobId ∈ taken.map EvaluationTicket.jobId
  := by
  simp only [List.mem_map, mem_updatedRows]
  constructor
  · rintro ⟨_, ⟨t, ht, hid, rfl⟩, rfl⟩
    obtain ⟨t', ht', hid⟩ := List.mem_map.mp ((hids t.id).mp hid)
    rw [p.keepsJob, ← Table.eq_of_key (h.mem t' ht') ht hid]
    use t', ht'
  · rintro ⟨t, ht, rfl⟩
    use p.set t, ⟨t, h.mem t ht, (hids t.id).mpr (List.mem_map_of_mem ht), rfl⟩, p.keepsJob t

/-- The update of rows one after another is the update of the rows with their identifiers. -/
theorem rewriteEach_eq_of_mem {taken : List EvaluationTicket} (h : Rows db taken)
    {ids : List Uuid} (hids : ∀ id, id ∈ ids ↔ id ∈ taken.map EvaluationTicket.id)
    (patch : EvaluationTicket → TicketPatch) :
  rewriteEach patch taken db
    = db.updateTickets (fun t => ids.contains t.id)
      (fun t => (patch t).set t) (fun t => (patch t).keepsId t) (fun t => (patch t).keepsJob t)
  := by
  rw [rewriteEach_eq h]
  apply updateTickets_congr
  intro t ht
  have hiff : (taken.map EvaluationTicket.id).contains t.id = ids.contains t.id := by
    rw [Bool.eq_iff_iff, List.contains_iff_mem, List.contains_iff_mem, hids]
  simp only [Transact.patch, hiff]

/-- The rows that a look has found, in the order in which they are locked. -/
theorem perm_sorted (db : Db) (scan : Scan EvaluationTicket) (selects : EvaluationTicket → Bool)
    (order : EvaluationTicket → EvaluationTicket → Bool) :
  ((scan.order (db.tickets.rows.filter selects)).insertionSort fun t t' => order t t').Perm
    (db.tickets.rows.filter selects)
  := (List.perm_insertionSort _ _).trans (scan.perm _)

/-- The rows up to a limit, in the order in which they are taken. -/
theorem Rows.taken {ts : List EvaluationTicket} (h : Rows db ts) (limit : ℕ) :
  Rows db (ts.take limit).reverse
  := by
  constructor
  · rw [List.map_reverse, List.nodup_reverse]
    exact h.nodup.sublist ((List.take_sublist limit ts).map _)
  · exact fun t ht => h.mem t (List.mem_of_mem_take (List.mem_reverse.mp ht))

/-- The checks of the rows that an update returns. -/
theorem all_updatedRows {taken : List EvaluationTicket} (h : Rows db taken)
    {ids : List Uuid} (hids : ∀ id, id ∈ ids ↔ id ∈ taken.map EvaluationTicket.id)
    (p : TicketPatch) (checks : EvaluationTicket → Bool) :
  (updatedRows ids p db).all checks
    = taken.all fun t => (db.ticket t.id).all fun t => checks (p.set t)
  := by
  rw [Bool.eq_iff_iff, List.all_eq_true, List.all_eq_true]
  constructor
  · intro hall t ht
    rw [h.ticket ht, Option.all_some]
    apply hall
    exact mem_updatedRows.mpr
      ⟨t, h.mem t ht, (hids t.id).mpr (List.mem_map_of_mem ht), rfl⟩
  · intro hall t' ht'
    obtain ⟨t, ht, hid, rfl⟩ := mem_updatedRows.mp ht'
    obtain ⟨t₀, ht₀, heq⟩ := List.mem_map.mp ((hids t.id).mp hid)
    obtain rfl := Table.eq_of_key (h.mem t₀ ht₀) ht heq
    have hchecked := hall t₀ ht₀
    rwa [h.ticket ht₀, Option.all_some] at hchecked

/-- Each row rewritten in its own way. -/
def rowwise (patch : EvaluationTicket → TicketPatch) : TicketPatch where
  set t := (patch t).set t
  keepsId t := (patch t).keepsId t
  keepsJob t := (patch t).keepsJob t

/-- A statement of a recovery, alone: it takes the rows up to the limit, in the order in which they
are found. -/
theorem alone_statement (selects : Db → EvaluationTicket → Bool) (scan : Scan EvaluationTicket)
    (limit : ℕ) (patch : EvaluationTicket → TicketPatch) (db : Db) :
  let found := abandoned scan (selects db) db
  let ids := selectForUpdate db (selects db) leaseOrder (beyond limit found) limit
  (∀ next : List EvaluationTicket → Text,
    (lockAbandoned selects (fun taken => writeEach patch taken (next taken)) limit found []).alone
        db
      = (next (found.take limit).reverse).alone
        (db.updateTickets (fun t => ids.contains t.id) (rowwise patch).set (rowwise patch).keepsId
          (rowwise patch).keepsJob))
    ∧ ∀ jobId, jobId ∈ (updatedRows ids (rowwise patch) db).map EvaluationTicket.jobId
      ↔ jobId ∈ (found.take limit).reverse.map EvaluationTicket.jobId
  := by
  intro found ids
  have hperm : found.Perm (db.tickets.rows.filter (selects db)) :=
    perm_sorted db scan (selects db) leaseOrder
  obtain ⟨hrows, hselects⟩ := rows_of_perm hperm
  have htaken := hrows.taken limit
  have hmem : ∀ id, id ∈ ids ↔ id ∈ (found.take limit).reverse.map EvaluationTicket.id := by
    intro id
    rw [mem_selectForUpdate_beyond hperm, List.map_reverse, List.mem_reverse]
  constructor
  · intro next
    rw [alone_lockAbandoned hrows hselects, List.append_nil, alone_writeEach,
      rewriteEach_eq_of_mem htaken hmem]
    rfl
  · exact fun jobId => mem_jobs_of_updated htaken hmem (rowwise patch) jobId

end Evalorch
