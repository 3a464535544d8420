import Evalorch.Lifecycle.Execution

/-!
# Reachable states

Every step of the system leaves the database alone, creates a job, or makes a change by an
action that its label performs (`step_cases`). What creation and every change preserve
therefore holds in every reachable database (`after_invariant`), also when only runs are
considered whose actions meet a condition (`after_invariant_of`).
-/

namespace Evalorch

open Transact TicketRepository JobRepository

/-- An execution with the transactions of `execute_ticket` only, whose copy of the ticket
agrees with its row. -/
structure Run.sound (db : Db) (r : Run) : Prop where
  transacts : r.program.Always (Transacts r.ticket r.worker)
  row : ∃ t, db.ticket r.ticket.id = some t
  copies : copies db r.ticket

namespace System

/-- Every execution under way is sound. -/
def sound (s : System) : Prop :=
  ∀ r ∈ s.runs, r.sound s.db

/-- The action a label performs, if it rewrites rows. -/
def performs (s : System) : Label → Action → Prop
  | .createJob _, _ => False
  | .claim worker .., a => a = .claim worker
  | .execute index failure, a =>
      failure = none ∧ ∃ r tag, s.runs[index]? = some r ∧ r.program.pending = some tag
        ∧ a = .execute r.ticket r.worker tag
  | .heartbeat ticketId worker _, a => a = .heartbeat ticketId worker
  | .cancelJob jobId, a => a = .cancelJob jobId
  | .retryFailedTickets jobId, a => a = .retryFailedTickets jobId
  | .recover .., a => a = .recover
  | .reconcile, a => a = .reconcile
  | .tick _, a => a = .tick

end System

/-! ### Rows that stay -/

/-- The tickets of one database are in another, under the same job and with as many attempts
allowed. -/
def Db.keepsTickets (db db' : Db) : Prop :=
  ∀ ticketId t, db.ticket ticketId = some t →
    ∃ t', db'.ticket ticketId = some t' ∧ t'.jobId = t.jobId ∧ t'.maxAttempts = t.maxAttempts

theorem keepsTickets_of_change {a : Action} {db db' : Db} (h : Change a db db') :
  db.keepsTickets db'
  := by
  intro ticketId t ht
  obtain ⟨t', ht', hmove⟩ := h.exists_ticket ht
  exact ⟨t', ht', hmove.id_jobId.2⟩

theorem Created.ticket {p : PreparedJob} {db db' : Db} (h : Created p db db') {ticketId : Uuid}
    {t : EvaluationTicket} (ht : db.ticket ticketId = some t) :
  db'.ticket ticketId = some t
  := by
  obtain ⟨hmem, hid⟩ := Db.ticket_eq_some.mp ht
  apply Db.ticket_eq_some.mpr
  rw [h.tickets]
  exact ⟨List.mem_append_left _ hmem, hid⟩

theorem Created.job {p : PreparedJob} {db db' : Db} (h : Created p db db') {jobId : Uuid}
    {j : EvaluationJob} (hj : db.job jobId = some j) :
  db'.job jobId = some j
  := by
  obtain ⟨hmem, hid⟩ := Db.job_eq_some.mp hj
  apply Db.job_eq_some.mpr
  rw [h.jobs]
  exact ⟨List.mem_append_left _ hmem, hid⟩

theorem keepsTickets_of_created {p : PreparedJob} {db db' : Db} (h : Created p db db') :
  db.keepsTickets db'
  := fun _ t ht => ⟨t, h.ticket ht, rfl, rfl⟩

/-- An execution stays sound as long as its ticket stays. -/
theorem Run.sound.of_keepsTickets {db db' : Db} {r : Run} (hr : r.sound db)
    (h : db.keepsTickets db') :
  r.sound db'
  := by
  obtain ⟨t, ht⟩ := hr.row
  obtain ⟨t', ht', hjob, hmax⟩ := h _ t ht
  refine ⟨hr.transacts, ⟨t', ht'⟩, ?_⟩
  intro t'' ht''
  rw [ht'] at ht''
  cases ht''
  rw [hjob, hmax]
  apply hr.copies t ht

/-! ### Steps -/

/-- A step leaves the database alone, creates a job, or makes a change by an action of its
label. -/
theorem step_cases (settings : Settings) {s : System} (hs : s.sound) (l : Label) :
  (s.step settings l).db = s.db
    ∨ (∃ p, Created p s.db (s.step settings l).db)
    ∨ ∃ a, s.performs l a ∧ Change a s.db (s.step settings l).db
  := by
  cases l with
  | createJob job =>
    cases h : storeJob job s.db with
    | error e => simp [System.step, h]
    | ok r =>
      right
      left
      simp only [System.step, h]
      exact ⟨job, created_of_storeJob h⟩
  | claim worker limit leaseSeconds jobId locked collaborators =>
    cases h : claimTickets settings locked worker limit leaseSeconds jobId s.db with
    | error e => simp [System.step, System.claimed, h]
    | ok r =>
      right
      right
      simp only [System.step, System.claimed, h]
      exact ⟨_, rfl, change_claim h⟩
  | execute index failure =>
    cases hr : s.runs[index]? with
    | none => simp [System.step, System.executed, hr]
    | some r =>
      have hsound := hs r (List.mem_of_getElem? hr)
      simp only [System.step, System.executed, hr]
      rcases Program.step_always hsound.transacts failure s.db with
        ⟨hsame, -⟩ | ⟨tag, commit, htag, hnone, htransacts, hcommit⟩
      · exact .inl hsame
      · rw [hcommit]
        rcases htransacts.change hsound.copies with hsame | hchange
        · exact .inl hsame
        · exact .inr (.inr ⟨_, ⟨hnone, r, tag, hr, htag, rfl⟩, hchange⟩)
  | heartbeat ticketId worker leaseSeconds =>
    cases h : heartbeatTicket ticketId worker.id leaseSeconds s.db with
    | error e => simp [System.step, h]
    | ok r =>
      simp only [System.step, h]
      rcases change_heartbeat h with hsame | hchange
      · exact .inl hsame
      · exact .inr (.inr ⟨_, rfl, hchange⟩)
  | cancelJob jobId =>
    cases h : cancelJob jobId s.db with
    | error e => simp [System.step, h]
    | ok r =>
      right
      right
      simp only [System.step, h]
      exact ⟨_, rfl, change_cancelJob h⟩
  | retryFailedTickets jobId =>
    cases h : retryFailedTickets jobId s.db with
    | error e => simp [System.step, h]
    | ok r =>
      right
      right
      simp only [System.step, h]
      exact ⟨_, rfl, change_retryFailedTickets h⟩
  | recover locked locked' jitter limit =>
    exact .inr (.inr ⟨_, rfl, change_recover settings locked locked' jitter limit s.db⟩)
  | reconcile => exact .inr (.inr ⟨_, rfl, change_reconcile s.db⟩)
  | tick now => exact .inr (.inr ⟨_, rfl, change_tick s.db now⟩)

/-- Tickets stay. -/
theorem step_keepsTickets (settings : Settings) {s : System} (hs : s.sound) (l : Label) :
  s.db.keepsTickets (s.step settings l).db
  := by
  obtain hsame | ⟨p, hcreated⟩ | ⟨a, -, hchange⟩ := step_cases settings hs l
  · rw [hsame]
    exact fun _ t ht => ⟨t, ht, rfl, rfl⟩
  · apply keepsTickets_of_created hcreated
  · apply keepsTickets_of_change hchange

/-- An execution that begins is sound. -/
theorem sound_begin {settings : Settings} {worker : Worker} {collaborators : Uuid → Collaborators}
    {db : Db} {t : EvaluationTicket} (ht : db.ticket t.id = some t) :
  (System.begin settings worker collaborators t).sound db
  := by
  refine ⟨always_executeTicket, ⟨t, ht⟩, ?_⟩
  intro t' ht'
  cases ht.symm.trans ht'
  exact ⟨rfl, rfl⟩

/-- Executions stay sound. -/
theorem sound_step {settings : Settings} {s : System} (hs : s.sound) (l : Label) :
  (s.step settings l).sound
  := by
  have hkeep := step_keepsTickets settings hs l
  have hold : ∀ r ∈ s.runs, r.sound (s.step settings l).db :=
    fun r hr => (hs r hr).of_keepsTickets hkeep
  cases l with
  | claim worker limit leaseSeconds jobId locked collaborators =>
    intro r hr
    cases h : claimTickets settings locked worker limit leaseSeconds jobId s.db with
    | error e =>
      simp only [System.step, System.claimed, h] at hr ⊢
      apply hs r hr
    | ok claimed =>
      simp only [System.step, System.claimed, h] at hold hr ⊢
      rcases List.mem_append.mp hr with hr | hr
      · apply hold r hr
      · obtain ⟨t, ht, rfl⟩ := List.mem_map.mp hr
        apply sound_begin (claimed_rows h t ht).1
  | execute index failure =>
    intro r hr
    cases hrun : s.runs[index]? with
    | none =>
      simp only [System.step, System.executed, hrun] at hr ⊢
      apply hs r hr
    | some r₀ =>
      simp only [System.step, System.executed, hrun] at hold hr ⊢
      rcases List.mem_or_eq_of_mem_set hr with hr | rfl
      · apply hold r hr
      · obtain ⟨htransacts, hrow, hcopies⟩ := hold r₀ (List.mem_of_getElem? hrun)
        exact ⟨Program.always_step htransacts failure s.db, hrow, hcopies⟩
  | _ => apply hold

/-! ### Runs -/

theorem sound_initial :
  System.initial.sound
  := by simp [System.sound, System.initial]

/-- Executions are sound throughout a run. -/
theorem sound_run {settings : Settings} {s : System} (hs : s.sound) (labels : List Label) :
  System.sound (run (System.step settings) s labels)
  := by
  apply run_invariant System.sound (fun _ _ => True) _ hs
  · apply along_of_forall (fun _ _ => trivial) s labels
  · intro s l hs _
    apply sound_step hs l

theorem sound_after (settings : Settings) (labels : List Label) :
  (System.after settings labels).sound
  := sound_run sound_initial labels

/-- Tickets stay throughout a run. -/
theorem run_keepsTickets (settings : Settings) {s : System} (hs : s.sound) (labels : List Label) :
  s.db.keepsTickets (run (System.step settings) s labels).db
  := by
  apply run_relation System.sound (fun _ _ => True)
    (fun s s' : System => s.db.keepsTickets s'.db) _ _ (fun s l hs _ => sound_step hs l)
    (fun s l hs _ => step_keepsTickets settings hs l) hs
  · apply along_of_forall (fun _ _ => trivial) s labels
  · exact fun s ticketId t ht => ⟨t, ht, rfl, rfl⟩
  · intro s s' s'' h h' ticketId t ht
    obtain ⟨t', ht', hjob, hmax⟩ := h ticketId t ht
    obtain ⟨t'', ht'', hjob', hmax'⟩ := h' ticketId t' ht'
    exact ⟨t'', ht'', hjob'.trans hjob, hmax'.trans hmax⟩

/-- Every action of a run meets a condition in the state it is taken in. -/
def System.respects (settings : Settings) (allowed : Action → Db → Prop) :
    System → List Label → Prop :=
  Along (System.step settings) fun s l => ∀ a, s.performs l a → allowed a s.db

/-- What creation keeps, and every change by an action that meets a condition, holds after
every run whose actions meet it. -/
theorem run_keeps {settings : Settings} (I : Db → Prop) (allowed : Action → Db → Prop)
    (created : ∀ p db db', I db → Created p db db' → I db')
    (change : ∀ a db db', I db → allowed a db → Change a db db' → I db') {s : System}
    {labels : List Label} (hs : s.sound) (hI : I s.db)
    (h : s.respects settings allowed labels) :
  I (run (System.step settings) s labels).db
  := by
  refine (run_invariant (fun s => s.sound ∧ I s.db) _ ?_ ⟨hs, hI⟩ h).2
  rintro s l ⟨hs, hI⟩ hallowed
  use sound_step hs l
  obtain hsame | ⟨p, hcreated⟩ | ⟨a, hperforms, hchange⟩ := step_cases settings hs l
  · rw [hsame]
    apply hI
  · apply created p _ _ hI hcreated
  · apply change a _ _ hI (hallowed a hperforms) hchange

/-- What creation and every change keep holds of every reachable database. -/
theorem after_keeps (I : Db → Prop) (empty : I .empty)
    (created : ∀ p db db', I db → Created p db db' → I db')
    (change : ∀ a db db', I db → Change a db db' → I db') (settings : Settings)
    (labels : List Label) :
  I (System.after settings labels).db
  := by
  apply run_keeps I (fun _ _ => True) created _ sound_initial empty
  · apply along_of_forall (fun _ _ _ _ => trivial) _ labels
  · intro a db db' hI _ hchange
    apply change a db db' hI hchange

/-- A relation that creation and every change make hold, from databases with an invariant,
holds across every run. -/
theorem run_across {settings : Settings} (I : Db → Prop) (R : Db → Db → Prop)
    (created : ∀ p db db', I db → Created p db db' → I db' ∧ R db db')
    (change : ∀ a db db', I db → Change a db db' → I db' ∧ R db db') (refl : ∀ db, R db db)
    (trans : ∀ db db' db'', R db db' → R db' db'' → R db db'') {s : System} (hs : s.sound)
    (hI : I s.db) (labels : List Label) :
  R s.db (run (System.step settings) s labels).db
  := by
  have hstep : ∀ s l, (s.sound ∧ I s.db) →
      I (System.step settings s l).db ∧ R s.db (System.step settings s l).db := by
    rintro s l ⟨hs, hI⟩
    obtain hsame | ⟨p, hcreated⟩ | ⟨a, -, hchange⟩ := step_cases settings hs l
    · rw [hsame]
      exact ⟨hI, refl _⟩
    · apply created p _ _ hI hcreated
    · apply change a _ _ hI hchange
  apply run_relation (fun s : System => s.sound ∧ I s.db) (fun _ _ => True)
    (fun s s' : System => R s.db s'.db) (fun s => refl s.db)
    (fun s t u => trans s.db t.db u.db) _ _ ⟨hs, hI⟩
  · apply along_of_forall (fun _ _ => trivial) s labels
  · intro s l h _
    exact ⟨sound_step h.1 l, (hstep s l h).1⟩
  · intro s l h _
    apply (hstep s l h).2

end Evalorch
