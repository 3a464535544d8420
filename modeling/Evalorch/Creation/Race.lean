import Evalorch.Services.JobCreation
import Evalorch.Transact.Machine
import Mathlib.Data.Fintype.Basic

/-!
# Create requests that race

`create_evaluation_job` runs `create_job` in a transaction, and once more when the first
transaction violates a constraint. Here any number of requests take the steps of their
transactions in any order. `lookup` searches the committed jobs for the key, `prepare` reads the
dataset folder, `insert` enters the job and its tickets, and `commit` makes them visible. An
insert waits while another transaction has entered a job with its key. Between the steps other
transactions may rewrite the database as long as they leave the keys of the jobs alone.
-/

namespace Evalorch

open Transact

/-! ### Sessions -/

/-- What a transaction has prepared, and when it began: `now()` answers that throughout. -/
structure Draft where
  began : Instant
  folder : DatasetFolderContents
  preparation : Preparation
  job : PreparedJob

/-- Where the transaction of a request stands. -/
inductive Phase where
  | looking
  /-- No job was found for the key. -/
  | missed (began : Instant) (key : Option String)
  | prepared (draft : Draft)
  /-- The rows are entered, and no other transaction sees them. -/
  | inserted (draft : Draft)
  | answered (outcome : Except Exn JobCreationResult)

/-- A request that is being served. -/
structure Session where
  retried : Bool
  phase : Phase

namespace Session

/-- The transaction ends with an outcome. -/
def answer (session : Session) (outcome : Except Exn JobCreationResult) : Session :=
  { session with phase := .answered outcome }

/-- The transaction is rolled back. The handler catches `IntegrityError` around its first call of
`create_job` only. -/
def fail (session : Session) : Exn → Session
  | .integrity name =>
    if session.retried then session.answer (.error (.integrity name)) else ⟨true, .looking⟩
  | exn => session.answer (.error exn)

/-- The key under which the transaction has entered a job. -/
def enteredKey (session : Session) : Option String :=
  match session.phase with
  | .inserted draft => draft.job.idempotencyKey
  | _ => none

/-- The transaction is over. -/
def isAnswered (session : Session) : Bool :=
  match session.phase with
  | .answered _ => true
  | _ => false

/-- The request was answered by a job. -/
def Succeeds (session : Session) (result : JobCreationResult) : Prop :=
  session.phase = .answered (.ok result)

end Session

/-! ### Steps -/

/-- The steps of a transaction. Reading the folder takes the files as they are then. -/
inductive CreateStep where
  | lookup
  | prepare (files : Files) (drawn : Drawn)
  | insert
  | commit
  | abort (exn : Exn)

/-- A step of a request, or of a transaction that creates no job. -/
inductive RaceLabel (ι : Type) where
  | request (i : ι) (move : CreateStep)
  | other (db : Db)

/-- The requests and the committed database. -/
@[ext]
structure Race (ι : Type) where
  db : Db
  sessions : ι → Session

/-- The identifier, the key and the hash of every job. -/
def keyedJobs (db : Db) : List (Uuid × Option String × Option String) :=
  db.jobs.rows.map fun job => (job.id, job.idempotencyKey, job.idempotencyRequestHash)

variable (e : Surroundings) {ι : Type}

/-- The transaction begins, and the committed jobs are searched for the key. -/
def lookupKey (request : CreateRequest) (db : Db) (session : Session) : Session :=
  match requireKey e.settings request with
  | .error exn => session.fail exn
  | .ok key =>
    match key.bind (jobByKey db) with
    | some job =>
      match resultForExistingJob db job job.idempotencyRequestHash (e.digest request.body) with
      | .error exn => session.fail exn
      | .ok result => session.answer (.ok result)
    | none => { session with phase := .missed db.now key }

/-- The dataset is read and the job is prepared. -/
def prepareDraft (request : CreateRequest) (files : Files) (drawn : Drawn) (began : Instant)
    (key : Option String) (session : Session) : Session :=
  match prepareJob { e with files := files } request drawn with
  | .error exn => session.fail exn
  | .ok (folder, preparation) =>
    { session with phase := .prepared {
        began := began
        folder := folder
        preparation := preparation
        job := preparedJob e request key drawn preparation } }

/-- The rows of a draft behind the committed ones, written at the time its transaction began. -/
def storeDraft (draft : Draft) (db : Db) : Except Exn (EvaluationJob × Db) :=
  match storeJob draft.job (db.tick draft.began) with
  | .error exn => .error exn
  | .ok (job, db') => .ok (job, db'.tick db.now)

/-- The rows are entered. -/
def insertDraft (draft : Draft) (db : Db) (session : Session) : Session :=
  match storeDraft draft db with
  | .error exn => session.fail exn
  | .ok _ => { session with phase := .inserted draft }

/-- The rows become visible. Identifiers that another transaction committed meanwhile are
refused. -/
def commitDraft (request : CreateRequest) (draft : Draft) (db : Db) (session : Session) :
    Session × Db :=
  match storeDraft draft db with
  | .error exn => (session.fail exn, db)
  | .ok (job, db') =>
    (session.answer (.ok (createdResult request draft.folder draft.preparation draft.job job)),
      db')

/-- Another transaction has entered a job with the key of the draft. -/
def Race.waits (s : Race ι) (i : ι) (draft : Draft) : Prop :=
  draft.job.idempotencyKey.isSome
    ∧ ∃ i', i' ≠ i ∧ (s.sessions i').enteredKey = draft.job.idempotencyKey

instance [Fintype ι] [DecidableEq ι] (s : Race ι) (i : ι) (draft : Draft) :
    Decidable (s.waits i draft) :=
  inferInstanceAs (Decidable (_ ∧ _))

variable [Fintype ι] [DecidableEq ι] (requests : ι → CreateRequest)

/-- What a step of a request makes of its session and of the committed database. -/
def Race.act (s : Race ι) (i : ι) (move : CreateStep) : Session × Db :=
  let session := s.sessions i
  match session.phase, move with
  | .looking, .lookup => (lookupKey e (requests i) s.db session, s.db)
  | .missed began key, .prepare files drawn =>
    (prepareDraft e (requests i) files drawn began key session, s.db)
  | .prepared draft, .insert =>
    (if s.waits i draft then session else insertDraft draft s.db session, s.db)
  | .inserted draft, .commit => commitDraft (requests i) draft s.db session
  | .answered _, _ => (session, s.db)
  | _, .abort exn => (session.fail exn, s.db)
  | _, _ => (session, s.db)

/-- A step of the requests and the database. -/
def Race.step (s : Race ι) : RaceLabel ι → Race ι
  | .request i move =>
    { db := (s.act e requests i move).2
      sessions := Function.update s.sessions i (s.act e requests i move).1 }
  | .other db => if keyedJobs db = keyedJobs s.db then { s with db := db } else s

/-- No request has been served. -/
def Race.start (db : Db) : Race ι where
  db := db
  sessions _ := ⟨false, .looking⟩

/-! ### One request alone -/

/-- What the handler makes of an attempt. -/
def Session.finish (session : Session) : Except Exn (JobCreationResult × Db) → Session
  | .error exn => session.fail exn
  | .ok (result, _) => session.answer (.ok result)

/-- A request with another session, over another database. -/
def Race.set {ι : Type} [DecidableEq ι] (s : Race ι) (i : ι) (served : Session × Db) : Race ι where
  db := served.2
  sessions := Function.update s.sessions i served.1

section Attempt

variable {e : Surroundings} {ι : Type} [DecidableEq ι] {s : Race ι} {i : ι}

/-- The other transactions that have entered a job are the same. -/
theorem Race.waits_set {served : Session × Db} {draft : Draft} :
  (s.set i served).waits i draft ↔ s.waits i draft
  := by
  unfold Race.waits Race.set
  apply and_congr_right
  intro _
  apply exists_congr
  intro i'
  apply and_congr_right
  intro hne
  simp [Function.update_of_ne hne]

/-- A draft of a transaction that began now is stored as the job of `create_job`. -/
theorem storeDraft_now {draft : Draft} {db : Db} (hbegan : draft.began = db.now) :
  storeDraft draft db = storeJob draft.job db
  := by
  have htick : db.tick db.now = db := rfl
  unfold storeDraft
  rw [hbegan, htick]
  cases hstore : storeJob draft.job db with
  | error exn => rfl
  | ok stored =>
    obtain ⟨job, db'⟩ := stored
    simp only
    rw [← now_storeJob hstore]
    rfl

/-- A lookup ends an attempt as `create_job` does, or lets it create a job. -/
theorem lookupKey_createJob (request : CreateRequest) (db : Db) (session : Session)
    (drawn : Drawn) :
  (committed (createJob e request drawn db) db = db
      ∧ lookupKey e request db session = session.finish (createJob e request drawn db))
    ∨ ∃ key, createJob e request drawn db = createNewJob e request key drawn db
      ∧ lookupKey e request db session = { session with phase := .missed db.now key }
  := by
  unfold createJob lookupKey
  cases hkey : requireKey e.settings request with
  | error exn => exact .inl ⟨rfl, rfl⟩
  | ok key =>
    simp only [bind, Except.bind]
    cases hjob : Option.bind key (jobByKey db) with
    | none => exact .inr ⟨key, rfl, rfl⟩
    | some job =>
      left
      simp only
      cases hresult : resultForExistingJob db job job.idempotencyRequestHash
          (e.digest request.body) with
      | error exn => exact ⟨rfl, rfl⟩
      | ok result => exact ⟨rfl, rfl⟩

theorem fail_phase (session : Session) (phase : Phase) (exn : Exn) :
  ({ session with phase := phase } : Session).fail exn = session.fail exn
  := by cases exn <;> rfl

theorem prepareDraft_error {request : CreateRequest} {drawn : Drawn} {exn : Exn}
    (h : prepareJob e request drawn = .error exn) (began : Instant) (key : Option String)
    (session : Session) :
  prepareDraft e request e.files drawn began key session = session.fail exn
  := by
  change prepareJob { e with files := e.files } request drawn = _ at h
  unfold prepareDraft
  rw [h]

theorem prepareDraft_ok {request : CreateRequest} {drawn : Drawn} {folder : DatasetFolderContents}
    {preparation : Preparation} (h : prepareJob e request drawn = .ok (folder, preparation))
    (began : Instant) (key : Option String) (session : Session) :
  prepareDraft e request e.files drawn began key session
    = { session with phase := .prepared {
          began := began
          folder := folder
          preparation := preparation
          job := preparedJob e request key drawn preparation } }
  := by
  change prepareJob { e with files := e.files } request drawn = _ at h
  unfold prepareDraft
  rw [h]

variable [Fintype ι] {requests : ι → CreateRequest}

theorem Race.step_set (served : Session × Db) (move : CreateStep) :
  (s.set i served).step e requests (.request i move)
    = s.set i ((s.set i served).act e requests i move)
  := by simp [Race.step, Race.set]

theorem Race.run_set (served : Session × Db) (moves : List CreateStep) :
  run (Race.step e requests) (s.set i served) (moves.map (.request i))
    = s.set i (moves.foldl (fun served move => (s.set i served).act e requests i move) served)
  := by
  induction moves generalizing served with
  | nil => rfl
  | cons move moves ih => rw [List.map_cons, run_cons, Race.step_set, ih, List.foldl_cons]

/-- An attempt that is over takes no more steps. -/
theorem Race.act_answer (session : Session) (outcome : Except Exn JobCreationResult) (db : Db)
    (move : CreateStep) :
  (s.set i (session.answer outcome, db)).act e requests i move = (session.answer outcome, db)
  := by simp [Race.act, Race.set, Session.answer]

theorem Race.act_fail (session : Session) (exn : Exn) (db : Db) {move : CreateStep}
    (hlookup : move ≠ .lookup) (habort : ∀ exn, move ≠ .abort exn) :
  (s.set i (session.fail exn, db)).act e requests i move = (session.fail exn, db)
  := by
  unfold Session.fail
  split
  · split
    · apply Race.act_answer
    · cases move <;> simp_all [Race.act, Race.set]
  · apply Race.act_answer

theorem Race.acts_fail (session : Session) (exn : Exn) (db : Db) (files : Files)
    (drawn : Drawn) :
  [CreateStep.prepare files drawn, .insert, .commit].foldl
      (fun served move => (s.set i served).act e requests i move) (session.fail exn, db)
    = (session.fail exn, db)
  := by
  simp only [List.foldl_cons, List.foldl_nil]
  rw [Race.act_fail, Race.act_fail, Race.act_fail] <;> simp

theorem Race.acts_finish (session : Session) (outcome : Except Exn (JobCreationResult × Db))
    (db : Db) (files : Files) (drawn : Drawn) :
  [CreateStep.prepare files drawn, .insert, .commit].foldl
      (fun served move => (s.set i served).act e requests i move) (session.finish outcome, db)
    = (session.finish outcome, db)
  := by
  cases outcome with
  | error exn => apply Race.acts_fail
  | ok r => simp only [Session.finish, List.foldl_cons, List.foldl_nil, Race.act_answer]

/-- An attempt that has prepared its job stores it. -/
theorem Race.acts_stored (halone : ∀ draft, ¬ s.waits i draft) (session : Session)
    {draft : Draft} (hbegan : draft.began = s.db.now)
    {outcome : Except Exn (JobCreationResult × Db)}
    (houtcome : outcome = (storeJob draft.job s.db).map fun stored =>
      (createdResult (requests i) draft.folder draft.preparation draft.job stored.1, stored.2)) :
  [CreateStep.insert, .commit].foldl
      (fun served move => (s.set i served).act e requests i move)
      ({ session with phase := .prepared draft }, s.db)
    = (session.finish outcome, committed outcome s.db)
  := by
  have hinsert : (s.set i ({ session with phase := .prepared draft }, s.db)).act e requests i
      .insert = (insertDraft draft s.db { session with phase := .prepared draft }, s.db) := by
    have hwaits : ¬ (s.set i ({ session with phase := .prepared draft }, s.db)).waits i draft :=
      fun h => halone draft (Race.waits_set.mp h)
    unfold Race.set at hwaits ⊢
    unfold Race.act
    simp only [Function.update_self]
    rw [if_neg hwaits]
  rw [List.foldl_cons, hinsert]
  unfold insertDraft
  rw [storeDraft_now hbegan]
  cases hstored : storeJob draft.job s.db with
  | error exn =>
    rw [hstored] at houtcome
    subst houtcome
    simp only [List.foldl_cons, List.foldl_nil, fail_phase]
    rw [Race.act_fail] <;> simp [Session.finish, Except.map, committed]
  | ok stored =>
    obtain ⟨job, db'⟩ := stored
    rw [hstored] at houtcome
    subst houtcome
    simp [Race.act, Race.set, commitDraft, storeDraft_now hbegan, hstored, Session.finish,
      Except.map, Session.answer]

/-- An attempt that has missed goes on as `create_job` does. -/
theorem Race.acts_createNewJob (halone : ∀ draft, ¬ s.waits i draft) (drawn : Drawn)
    (session : Session) (key : Option String) :
  [CreateStep.prepare e.files drawn, .insert, .commit].foldl
      (fun served move => (s.set i served).act e requests i move)
      ({ session with phase := .missed s.db.now key }, s.db)
    = (session.finish (createNewJob e (requests i) key drawn s.db),
        committed (createNewJob e (requests i) key drawn s.db) s.db)
  := by
  have hprepare : (s.set i ({ session with phase := .missed s.db.now key }, s.db)).act e
      requests i (.prepare e.files drawn)
      = (prepareDraft e (requests i) e.files drawn s.db.now key
          { session with phase := .missed s.db.now key }, s.db) := by
    simp [Race.act, Race.set]
  rw [List.foldl_cons, hprepare]
  cases hprepared : prepareJob e (requests i) drawn with
  | error exn =>
    rw [prepareDraft_error hprepared, fail_phase]
    have hnew : createNewJob e (requests i) key drawn s.db = .error exn := by
      simp [createNewJob, hprepared, bind, Except.bind]
    rw [hnew]
    simp only [List.foldl_cons, List.foldl_nil]
    rw [Race.act_fail, Race.act_fail] <;> simp [Session.finish]
  | ok p =>
    obtain ⟨folder, preparation⟩ := p
    rw [prepareDraft_ok hprepared]
    apply Race.acts_stored halone session rfl
    simp only [createNewJob, hprepared, bind, Except.bind]
    cases storeJob (preparedJob e (requests i) key drawn preparation) s.db <;> rfl

/-- A request whose steps are taken one after another is answered as by `create_job`. -/
theorem run_request (hphase : (s.sessions i).phase = .looking)
    (halone : ∀ draft, ¬ s.waits i draft) (drawn : Drawn) :
  run (Race.step e requests) s
      ([CreateStep.lookup, .prepare e.files drawn, .insert, .commit].map (.request i))
    = { db := committed (createJob e (requests i) drawn s.db) s.db
        sessions := Function.update s.sessions i
          ((s.sessions i).finish (createJob e (requests i) drawn s.db)) }
  := by
  have hstart : s = s.set i (s.sessions i, s.db) := by simp [Race.set]
  conv_lhs => rw [hstart]
  rw [Race.run_set]
  change s.set i _ = s.set i ((s.sessions i).finish (createJob e (requests i) drawn s.db),
    committed (createJob e (requests i) drawn s.db) s.db)
  congr 1
  have hlookup : (s.set i (s.sessions i, s.db)).act e requests i .lookup
      = (lookupKey e (requests i) s.db (s.sessions i), s.db) := by
    simp [Race.act, Race.set, hphase]
  rw [List.foldl_cons, hlookup]
  rcases lookupKey_createJob (requests i) s.db (s.sessions i) drawn with ⟨hdb, h⟩ | ⟨key, hjob, h⟩
  · rw [h, Race.acts_finish, hdb]
  · rw [h, hjob]
    apply Race.acts_createNewJob halone

end Attempt

end Evalorch
