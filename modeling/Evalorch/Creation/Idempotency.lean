import Evalorch.Creation.FanOut
import Evalorch.Creation.Race
import Evalorch.Lifecycle.Change
import Mathlib.Tactic.FinCases

/-!
# Idempotency keys

Requests that race under one key create one job. Before a job is committed under the key, no
request has succeeded and at most one transaction has entered a job (`Absent`). From then on the
job stays the only one under the key, the request that created it is the only one that did, and
every other request either has the same body and replays the job or is refused (`Present`).
-/

namespace Evalorch

open Python Transact

/-! ### Jobs under a key -/

/-- The jobs with a key. -/
def jobsOf (key : String) (db : Db) : List EvaluationJob :=
  db.jobs.rows.filter fun job => job.idempotencyKey = some key

/-- The identifiers and the hashes of the jobs with a key. -/
def holders (key : String) (db : Db) : List (Uuid × Option String) :=
  (keyedJobs db).filterMap fun job => if job.2.1 = some key then some (job.1, job.2.2) else none

theorem holders_eq (key : String) (db : Db) :
  holders key db = (jobsOf key db).map fun job => (job.id, job.idempotencyRequestHash)
  := by
  unfold holders keyedJobs jobsOf
  rw [List.filterMap_map, ← List.filterMap_eq_map, List.filterMap_filter]
  apply List.filterMap_congr
  intro job _
  by_cases hkey : job.idempotencyKey = some key <;> simp [hkey]

/-- A job is found under a key when there is one. -/
theorem jobByKey_eq_none {key : String} {db : Db} :
  jobByKey db key = none ↔ holders key db = []
  := by simp [jobByKey, holders_eq, jobsOf, List.find?_eq_none, List.filter_eq_nil_iff]

/-- The job that is found under a key has it. -/
theorem mem_holders_of_jobByKey {key : String} {db : Db} {job : EvaluationJob}
    (h : jobByKey db key = some job) :
  (job.id, job.idempotencyRequestHash) ∈ holders key db
  := by
  have hkey := List.find?_some h
  rw [holders_eq, List.mem_map]
  use job
  constructor
  · rw [jobsOf, List.mem_filter]
    exact ⟨List.mem_of_find?_eq_some h, hkey⟩
  · rfl

/-- The jobs under a key, after another job was created. -/
theorem holders_of_jobs {key : String} {db db' : Db} {job : EvaluationJob}
    (h : db'.jobs.rows = db.jobs.rows ++ [job]) :
  holders key db' = holders key db
    ++ if job.idempotencyKey = some key then [(job.id, job.idempotencyRequestHash)] else []
  := by
  unfold holders keyedJobs
  rw [h, List.map_append, List.filterMap_append]
  by_cases hkey : job.idempotencyKey = some key <;> simp [hkey]

/-- A job whose key is taken is not inserted. -/
theorem insertJob_error {key : String} {db : Db} {j : EvaluationJob}
    (hkey : j.idempotencyKey = some key) (htaken : holders key db ≠ []) :
  ∃ name, db.insertJob j = .error (.integrity name)
  := by
  unfold Db.insertJob
  split
  case isTrue =>
    rw [if_neg]
    · exact ⟨_, rfl⟩
    · intro hfree
      apply htaken
      rw [holders_eq, List.map_eq_nil_iff, jobsOf, List.filter_eq_nil_iff]
      intro j' hj'
      have hne := hfree j' hj' (by simp [hkey])
      simpa [hkey] using hne
  case isFalse => exact ⟨_, rfl⟩

/-- A job whose key is taken is not stored. -/
theorem storeJob_error {key : String} {db : Db} {p : PreparedJob}
    (hkey : p.idempotencyKey = some key) (htaken : holders key db ≠ [])
    (htickets : p.tickets ≠ []) :
  ∃ name, storeJob p db = .error (.integrity name)
  := by
  unfold storeJob JobRepository.insert
  rw [if_neg (by simpa using htickets)]
  obtain ⟨name, hinsert⟩ := insertJob_error (j := { p.job db.now with
    completedTickets := 0
    failedTickets := 0
    cancelledTickets := 0
    notApplicableTickets := 0
    createdAt := db.now
    startedAt := none
    completedAt := none
    cancellationRequestedAt := none
    errorMessage := none }) hkey htaken
  use name
  simp only [hinsert, bind, Except.bind]

/-- A draft that is stored becomes the last job, and its key was free. -/
theorem storeDraft_ok {draft : Draft} {db db' : Db} {job : EvaluationJob}
    (h : storeDraft draft db = .ok (job, db')) :
  job = draft.job.readyRow draft.began ∧ db'.jobs.rows = db.jobs.rows ++ [job]
    ∧ ∀ key, draft.job.idempotencyKey = some key → holders key db = []
  := by
  unfold storeDraft at h
  cases hstore : storeJob draft.job (db.tick draft.began) with
  | error exn =>
    rw [hstore] at h
    cases h
  | ok stored =>
    rw [hstore] at h
    cases h
    have hcreated := created_of_storeJob hstore
    have hjob := storeJob_job hstore
    refine ⟨hjob, ?_, ?_⟩
    · rw [hjob]
      apply hcreated.jobs
    · intro key hkey
      by_contra htaken
      obtain ⟨name, herror⟩ := @storeJob_error key (db.tick draft.began) _ hkey htaken
        hcreated.tickets_ne
      rw [hstore] at herror
      cases herror

/-- The jobs under a key, after a draft was stored. -/
theorem holders_storeDraft {draft : Draft} {db db' : Db} {job : EvaluationJob} {key : String}
    (h : storeDraft draft db = .ok (job, db')) :
  holders key db' = holders key db ++ if draft.job.idempotencyKey = some key
    then [(draft.job.id, draft.job.idempotencyRequestHash)] else []
  := by
  obtain ⟨rfl, hjobs, -⟩ := storeDraft_ok h
  apply holders_of_jobs hjobs

theorem JobMove.key_eq {db db' : Db} {f : EvaluationTicket → EvaluationTicket} {a : Action}
    {j j' : EvaluationJob} (h : JobMove db db' f a j j') :
  j'.idempotencyKey = j.idempotencyKey ∧ j'.idempotencyRequestHash = j.idempotencyRequestHash
  := by
  cases h with
  | started => split <;> exact ⟨rfl, rfl⟩
  | _ => exact ⟨rfl, rfl⟩

/-- No change touches the keys of the jobs. -/
theorem keyedJobs_of_change {a : Action} {db db' : Db} (h : Change a db db') :
  keyedJobs db' = keyedJobs db
  := by
  obtain ⟨f, g, h⟩ := h
  unfold keyedJobs
  rw [h.jobs, List.map_map]
  apply List.map_congr_left
  intro job hjob
  have hmove := h.jobMoves job hjob
  simp [hmove.id_eq, hmove.key_eq]

/-! ### Requests -/

/-- The request carries a key. -/
def Carries (request : CreateRequest) (key : String) : Prop :=
  request.idempotencyKey.map strip = some key

/-- Two requests ask for different jobs. -/
def Differs (request request' : CreateRequest) : Prop :=
  request.datasetId ≠ request'.datasetId ∨ request.name ≠ request'.name
    ∨ request.priority ≠ request'.priority ∨ request.maxAttempts ≠ request'.maxAttempts

theorem ofNumber_injective :
  Function.Injective ofNumber
  := by
  intro n n' h
  cases n <;> cases n' <;> simp_all [ofNumber]

theorem ofText_injective :
  Function.Injective Json.ofText
  := by
  intro text text' h
  cases text <;> cases text' <;> simp_all [Json.ofText]

/-- Different requests have different bodies. -/
theorem body_ne_of_differs {request request' : CreateRequest} (h : Differs request request') :
  request.body ≠ request'.body
  := by
  intro heq
  simp only [CreateRequest.body, List.cons.injEq, Prod.mk.injEq, true_and, and_true,
    Json.str.injEq] at heq
  obtain ⟨hdataset, hattempts, hname, hpriority⟩ := heq
  rcases h with h | h | h | h
  · apply h hdataset
  · apply h (ofText_injective hname)
  · apply h (ofNumber_injective hpriority)
  · apply h (ofNumber_injective hattempts)

/-- A key that is allowed is the one that the request carries. -/
theorem requireKey_ok {settings : CreationSettings} {request : CreateRequest}
    {key : Option String} (h : requireKey settings request = .ok key) :
  request.idempotencyKey.map strip = key
  := by
  unfold requireKey at h
  split at h
  case h_1 hnone =>
    cases h
    exact hnone
  case h_2 key' hsome =>
    split at h
    case isTrue => cases h
    case isFalse =>
      split at h
      case isTrue => cases h
      case isFalse =>
        cases h
        exact hsome

/-- Requests that carry the same key are both allowed it. -/
theorem requireKey_of_carries {settings : CreationSettings} {request request' : CreateRequest}
    {key : String} (hcarries : Carries request key) (hcarries' : Carries request' key) :
  requireKey settings request = requireKey settings request'
  := by
  unfold requireKey
  rw [hcarries, hcarries']

/-! ### What a step does -/

/-- The draft is one of the request: it has the key and the hash of the request. -/
def Draft.of (e : Surroundings) (request : CreateRequest) (draft : Draft) : Prop :=
  requireKey e.settings request = .ok draft.job.idempotencyKey
    ∧ draft.job.idempotencyRequestHash
      = draft.job.idempotencyKey.map fun _ => e.digest request.body

/-- What a transaction has read and prepared belongs to its request. -/
def Session.sound (e : Surroundings) (request : CreateRequest) (session : Session) : Prop :=
  match session.phase with
  | .missed _ key => requireKey e.settings request = .ok key
  | .prepared draft | .inserted draft => draft.of e request
  | _ => True

/-- What a rolled back transaction leaves: an answer that is no success, or a second attempt. -/
theorem fail_cases (session : Session) (exn : Exn) :
  (session.fail exn).phase = .looking ∨ (session.fail exn).phase = .answered (.error exn)
  := by
  unfold Session.fail
  split
  · split
    · exact .inr rfl
    · exact .inl rfl
  · exact .inr rfl

/-- The ways a step changes the session of a request and the database. -/
inductive Acted (e : Surroundings) {ι : Type} (requests : ι → CreateRequest) (s : Race ι) (i : ι) :
    Session → Db → Prop where
  | kept : Acted e requests s i (s.sessions i) s.db
  | failed {exn} (under : (s.sessions i).isAnswered = false) :
      Acted e requests s i ((s.sessions i).fail exn) s.db
  | replayed {key job result} (under : (s.sessions i).isAnswered = false)
      (required : requireKey e.settings (requests i) = .ok (some key))
      (found : jobByKey s.db key = some job)
      (same : job.idempotencyRequestHash = some (e.digest (requests i).body))
      (named : result.job = job) (replay : result.replayed = true) :
      Acted e requests s i ((s.sessions i).answer (.ok result)) s.db
  | missed {key} (under : (s.sessions i).isAnswered = false)
      (required : requireKey e.settings (requests i) = .ok key) :
      Acted e requests s i { s.sessions i with phase := .missed s.db.now key } s.db
  | prepared {draft} (under : (s.sessions i).isAnswered = false)
      (of : draft.of e (requests i)) :
      Acted e requests s i { s.sessions i with phase := .prepared draft } s.db
  | inserted {draft stored} (under : (s.sessions i).phase = .prepared draft)
      (free : ¬ s.waits i draft) (stored : storeDraft draft s.db = .ok stored) :
      Acted e requests s i { s.sessions i with phase := .inserted draft } s.db
  | committed {draft job db'} (under : (s.sessions i).phase = .inserted draft)
      (stored : storeDraft draft s.db = .ok (job, db')) :
      Acted e requests s i ((s.sessions i).answer (.ok
        (createdResult (requests i) draft.folder draft.preparation draft.job job))) db'

section Step

variable {e : Surroundings} {ι : Type} {requests : ι → CreateRequest} {s : Race ι} {i : ι}

/-- A lookup misses, replays or fails. -/
theorem acted_lookupKey (hphase : (s.sessions i).phase = .looking) :
  Acted e requests s i (lookupKey e (requests i) s.db (s.sessions i)) s.db
  := by
  have hunder : (s.sessions i).isAnswered = false := by simp [Session.isAnswered, hphase]
  unfold lookupKey
  split
  case h_1 => exact .failed hunder
  case h_2 key hkey =>
    split
    case h_2 => exact .missed hunder hkey
    case h_1 job hjob =>
      obtain ⟨key, rfl, hjob⟩ := Option.bind_eq_some_iff.mp hjob
      split
      case h_1 => exact .failed hunder
      case h_2 result hresult =>
        unfold resultForExistingJob at hresult
        split at hresult
        case isTrue => cases hresult
        case isFalse hsame =>
          cases hresult
          exact .replayed hunder hkey hjob (not_not.mp hsame) rfl rfl

/-- A preparation is of its request, or fails. -/
theorem acted_prepareDraft {files : Files} {drawn : Drawn} {began : Instant}
    {key : Option String} (hphase : (s.sessions i).phase = .missed began key)
    (hsound : (s.sessions i).sound e (requests i)) :
  Acted e requests s i (prepareDraft e (requests i) files drawn began key (s.sessions i)) s.db
  := by
  have hunder : (s.sessions i).isAnswered = false := by simp [Session.isAnswered, hphase]
  unfold Session.sound at hsound
  rw [hphase] at hsound
  unfold prepareDraft
  split
  case h_1 => exact .failed hunder
  case h_2 => exact .prepared hunder ⟨hsound, rfl⟩

variable [Fintype ι] [DecidableEq ι]

theorem acted_act (move : CreateStep) (hsound : (s.sessions i).sound e (requests i)) :
  Acted e requests s i (s.act e requests i move).1 (s.act e requests i move).2
  := by
  unfold Race.act
  simp only
  split
  case h_1 hphase => apply acted_lookupKey hphase
  case h_2 hphase => apply acted_prepareDraft hphase hsound
  case h_3 draft hphase =>
    have hunder : (s.sessions i).isAnswered = false := by simp [Session.isAnswered, hphase]
    split
    case isTrue => exact .kept
    case isFalse hfree =>
      unfold insertDraft
      split
      case h_1 => exact .failed hunder
      case h_2 hstored => exact .inserted hphase hfree hstored
  case h_4 draft hphase =>
    have hunder : (s.sessions i).isAnswered = false := by simp [Session.isAnswered, hphase]
    unfold commitDraft
    split
    case h_1 => exact .failed hunder
    case h_2 hstored => exact .committed hphase hstored
  case h_5 => exact .kept
  case h_6 hunder =>
    apply Acted.failed
    unfold Session.isAnswered
    split
    case h_1 outcome hphase => exact absurd hphase (hunder outcome)
    case h_2 => rfl
  case h_7 => exact .kept

end Step

/-! ### Before and after the job -/

theorem enteredKey_fail (session : Session) (exn : Exn) :
  (session.fail exn).enteredKey = none
  := by
  unfold Session.enteredKey
  rcases fail_cases session exn with h | h <;> rw [h]

theorem not_succeeds_fail (session : Session) (exn : Exn) (result : JobCreationResult) :
  ¬ (session.fail exn).Succeeds result
  := by
  unfold Session.Succeeds
  rcases fail_cases session exn with h | h <;> simp [h]

theorem sound_fail (e : Surroundings) (request : CreateRequest) (session : Session) (exn : Exn) :
  (session.fail exn).sound e request
  := by
  unfold Session.sound
  rcases fail_cases session exn with h | h <;> simp [h]

section Invariant

variable (e : Surroundings) {ι : Type} (requests : ι → CreateRequest) (key : String)

/-- No job has been committed under the key. -/
structure Absent (s : Race ι) : Prop where
  none : holders key s.db = []
  alone : ∀ i i', (s.sessions i).enteredKey = some key → (s.sessions i').enteredKey = some key →
    i = i'
  fails : ∀ i result, Carries (requests i) key → ¬ (s.sessions i).Succeeds result

/-- A request has created the job under the key. -/
structure Present (creator : ι) (jobId : Uuid) (s : Race ι) : Prop where
  required : requireKey e.settings (requests creator) = .ok (some key)
  one : holders key s.db = [(jobId, some (e.digest (requests creator).body))]
  alone : ∀ i, (s.sessions i).enteredKey ≠ some key
  created : ∃ result, (s.sessions creator).Succeeds result ∧ result.replayed = false
  named : ∀ i result, Carries (requests i) key → (s.sessions i).Succeeds result →
    result.job.id = jobId ∧ e.digest (requests i).body = e.digest (requests creator).body
      ∧ (result.replayed = false → i = creator)

/-- What holds of every state of a race. -/
structure Race.sound (s : Race ι) : Prop where
  sessions : ∀ i, (s.sessions i).sound e (requests i)
  job : Absent requests key s ∨ ∃ creator jobId, Present e requests key creator jobId s

variable {e requests key} {s : Race ι} {i : ι} {session' : Session} {db' : Db}

/-- What a step leaves in a session is sound. -/
theorem Acted.sound (h : Acted e requests s i session' db')
    (hsound : (s.sessions i).sound e (requests i)) :
  session'.sound e (requests i)
  := by
  cases h with
  | kept => exact hsound
  | failed => apply sound_fail
  | replayed => trivial
  | missed _ required => exact required
  | prepared _ of => exact of
  | inserted under =>
    unfold Session.sound at hsound
    rw [under] at hsound
    exact hsound
  | committed => trivial

/-- A transaction that commits had entered its job. -/
theorem enteredKey_of_phase {session : Session} {draft : Draft}
    (h : session.phase = .inserted draft) :
  session.enteredKey = draft.job.idempotencyKey
  := by simp [Session.enteredKey, h]

/-- The draft of a request that carries the key has the key. -/
theorem idempotencyKey_of_carries {draft : Draft} (hof : draft.of e (requests i))
    (hcarries : Carries (requests i) key) :
  draft.job.idempotencyKey = some key
  := (requireKey_ok hof.1).symm.trans hcarries

/-- The draft that is entered belongs to its request. -/
theorem of_inserted {draft : Draft} (hsound : (s.sessions i).sound e (requests i))
    (h : (s.sessions i).phase = .inserted draft) :
  draft.of e (requests i)
  := by
  unfold Session.sound at hsound
  rw [h] at hsound
  exact hsound

/-- A database with the same keys has the same jobs under each. -/
theorem holders_of_keyedJobs {db db' : Db} (h : keyedJobs db' = keyedJobs db) :
  holders key db' = holders key db
  := by
  unfold holders
  rw [h]

/-- A job stays when another transaction rewrites the database. -/
theorem Present.other {creator : ι} {jobId : Uuid} (h : Present e requests key creator jobId s)
    {db : Db} (hdb : keyedJobs db = keyedJobs s.db) :
  Present e requests key creator jobId { s with db := db }
  := ⟨h.required, (holders_of_keyedJobs hdb).trans h.one, h.alone, h.created, h.named⟩

theorem Race.sound_start {db : Db} (hfree : jobsOf key db = []) :
  (Race.start db : Race ι).sound e requests key
  := by
  constructor
  · intro i
    trivial
  · left
    constructor
    · rw [Race.start, holders_eq, hfree, List.map_nil]
    · intro i i' h
      cases h
    · intro i result _ h
      cases h

variable [DecidableEq ι]

/-- A session that neither enters a job beside another nor succeeds keeps the key free. -/
theorem Absent.update (h : Absent requests key s) (hnone : holders key db' = [])
    (halone : session'.enteredKey = some key →
      ∀ i', i' ≠ i → (s.sessions i').enteredKey ≠ some key)
    (hfails : ∀ result, Carries (requests i) key → ¬ session'.Succeeds result) :
  Absent requests key ⟨db', Function.update s.sessions i session'⟩
  := by
  constructor
  · exact hnone
  · intro i₁ i₂ h₁ h₂
    simp only [Function.update_apply] at h₁ h₂
    split at h₁ <;> split at h₂
    · simp_all
    · exact absurd h₂ (halone h₁ i₂ ‹_›)
    · exact absurd h₁ (halone h₂ i₁ ‹_›)
    · apply h.alone i₁ i₂ h₁ h₂
  · intro i₁ result hcarries hsucceeds
    simp only [Function.update_apply] at hsucceeds
    split at hsucceeds
    case isTrue heq =>
      subst heq
      apply hfails result hcarries hsucceeds
    case isFalse => apply h.fails i₁ result hcarries hsucceeds

/-- A step before the job is committed leaves the key free, or commits the job. -/
theorem Absent.acted (h : Absent requests key s) (hsound : (s.sessions i).sound e (requests i))
    (hacted : Acted e requests s i session' db') :
  Absent requests key ⟨db', Function.update s.sessions i session'⟩
    ∨ ∃ jobId, Present e requests key i jobId ⟨db', Function.update s.sessions i session'⟩
  := by
  cases hacted with
  | kept =>
    left
    rw [Function.update_eq_self]
    exact h
  | failed =>
    left
    apply h.update h.none
    · simp [enteredKey_fail]
    · intro result _
      apply not_succeeds_fail
  | replayed _ required found =>
    left
    apply h.update h.none
    · simp [Session.enteredKey, Session.answer]
    · intro result hcarries
      have hkey := (requireKey_ok required).symm.trans hcarries
      rw [Option.some.injEq] at hkey
      subst hkey
      have hnone := jobByKey_eq_none.mpr h.none
      rw [found] at hnone
      cases hnone
  | missed | prepared =>
    left
    apply h.update h.none
    · simp [Session.enteredKey]
    · simp [Session.Succeeds]
  | inserted _ free =>
    left
    apply h.update h.none
    · intro hkey i' hi' hentered
      apply free
      have hentered' := hentered.trans hkey.symm
      simp only [Session.enteredKey] at hkey
      exact ⟨by simp [hkey], i', hi', hentered'⟩
    · simp [Session.Succeeds]
  | @committed draft job _ under stored =>
    have hof := of_inserted hsound under
    have hentered := enteredKey_of_phase under
    obtain ⟨hjob, -, -⟩ := storeDraft_ok stored
    have hholders := @holders_storeDraft draft s.db db' job key stored
    rw [h.none, List.nil_append] at hholders
    by_cases hkey : draft.job.idempotencyKey = some key
    case neg =>
      left
      apply h.update
      · rw [hholders, if_neg hkey]
      · simp [Session.enteredKey, Session.answer]
      · intro result hcarries
        exact absurd (idempotencyKey_of_carries hof hcarries) hkey
    case pos =>
      right
      use draft.job.id
      constructor
      · rw [← hkey]
        exact hof.1
      · rw [hholders, if_pos hkey, hof.2, hkey]
        rfl
      · intro i'
        simp only [Function.update_apply]
        split
        case isTrue => simp [Session.enteredKey, Session.answer]
        case isFalse hne =>
          intro hentered'
          apply hne
          apply h.alone i' i hentered' (hentered.trans hkey)
      · simp only [Function.update_self]
        exact ⟨_, rfl, rfl⟩
      · intro i' result hcarries hsucceeds
        simp only [Function.update_apply] at hsucceeds
        split at hsucceeds
        case isTrue heq =>
          subst heq
          cases hsucceeds
          exact ⟨by rw [hjob]; rfl, rfl, fun _ => rfl⟩
        case isFalse => exact absurd hsucceeds (h.fails i' result hcarries)

/-- A session that enters no job under the key, and succeeds only by a replay, keeps the job. -/
theorem Present.update {creator : ι} {jobId : Uuid} (h : Present e requests key creator jobId s)
    (hholders : holders key db' = holders key s.db) (hunder : (s.sessions i).isAnswered = false)
    (halone : session'.enteredKey ≠ some key)
    (hnamed : ∀ result, Carries (requests i) key → session'.Succeeds result →
      result.job.id = jobId ∧ e.digest (requests i).body = e.digest (requests creator).body
        ∧ result.replayed = true) :
  Present e requests key creator jobId ⟨db', Function.update s.sessions i session'⟩
  := by
  have hne : creator ≠ i := by
    rintro rfl
    obtain ⟨result, hsucceeds, -⟩ := h.created
    unfold Session.isAnswered at hunder
    rw [hsucceeds] at hunder
    cases hunder
  constructor
  · exact h.required
  · exact hholders.trans h.one
  · intro i'
    simp only [Function.update_apply]
    split
    · exact halone
    · apply h.alone
  · simp only [Function.update_of_ne hne]
    exact h.created
  · intro i' result hcarries hsucceeds
    simp only [Function.update_apply] at hsucceeds
    split at hsucceeds
    case isTrue heq =>
      subst heq
      obtain ⟨hid, hdigest, hreplayed⟩ := hnamed result hcarries hsucceeds
      exact ⟨hid, hdigest, by simp [hreplayed]⟩
    case isFalse => apply h.named i' result hcarries hsucceeds

/-- A step after the job was committed keeps the job. -/
theorem Present.acted {creator : ι} {jobId : Uuid} (h : Present e requests key creator jobId s)
    (hsound : (s.sessions i).sound e (requests i)) (hacted : Acted e requests s i session' db') :
  Present e requests key creator jobId ⟨db', Function.update s.sessions i session'⟩
  := by
  cases hacted with
  | kept =>
    rw [Function.update_eq_self]
    exact h
  | failed under =>
    apply h.update rfl under
    · simp [enteredKey_fail]
    · intro result _ hsucceeds
      exact absurd hsucceeds (not_succeeds_fail _ _ result)
  | @replayed _ job _ under required found same named replay =>
    apply h.update rfl under
    · simp [Session.enteredKey, Session.answer]
    · intro result hcarries hsucceeds
      cases hsucceeds
      have hkey := (requireKey_ok required).symm.trans hcarries
      rw [Option.some.injEq] at hkey
      subst hkey
      have hmem := mem_holders_of_jobByKey found
      rw [h.one, List.mem_singleton, same, Prod.mk.injEq, Option.some.injEq] at hmem
      exact ⟨by rw [named, hmem.1], hmem.2, replay⟩
  | missed under | prepared under =>
    apply h.update rfl under
    · simp [Session.enteredKey]
    · simp [Session.Succeeds]
  | @inserted draft stored under free hstored =>
    apply h.update rfl
    · simp [Session.isAnswered, under]
    · intro hkey
      obtain ⟨-, -, hfree⟩ := storeDraft_ok hstored
      have hnone := hfree key hkey
      rw [h.one] at hnone
      cases hnone
    · simp [Session.Succeeds]
  | @committed draft job _ under stored =>
    have hentered := enteredKey_of_phase under
    have hkey : draft.job.idempotencyKey ≠ some key := by
      intro hkey
      apply h.alone i (hentered.trans hkey)
    apply h.update
    · rw [holders_storeDraft stored, if_neg hkey, List.append_nil]
    · simp [Session.isAnswered, under]
    · simp [Session.enteredKey, Session.answer]
    · intro result hcarries
      exact absurd (idempotencyKey_of_carries (of_inserted hsound under) hcarries) hkey

end Invariant

/-! ### Runs -/

section Runs

variable {e : Surroundings} {ι : Type} [Fintype ι] [DecidableEq ι] {requests : ι → CreateRequest}
  {key : String} {s s' : Race ι}

/-- A race went from one state to another. -/
def Race.Leads (e : Surroundings) (requests : ι → CreateRequest) (s s' : Race ι) : Prop :=
  ∃ labels, s' = run (Race.step e requests) s labels

/-- A change that another operation of the system commits is a step of the race. -/
theorem Race.leads_of_change {a : Action} {db' : Db} (h : s.Leads e requests s')
    (hchange : Change a s'.db db') :
  s.Leads e requests { s' with db := db' }
  := by
  obtain ⟨labels, rfl⟩ := h
  use labels ++ [.other db']
  rw [run_append, run_cons, run_nil, Race.step, if_pos (keyedJobs_of_change hchange)]

theorem Race.sessions_step (hsound : ∀ i, (s.sessions i).sound e (requests i))
    (label : RaceLabel ι) (i : ι) :
  ((s.step e requests label).sessions i).sound e (requests i)
  := by
  cases label with
  | other db =>
    unfold Race.step
    simp only
    split <;> apply hsound
  | request i' move =>
    change (Function.update s.sessions i' (s.act e requests i' move).1 i).sound e (requests i)
    simp only [Function.update_apply]
    split
    case isTrue heq =>
      subst heq
      apply (acted_act move (hsound i)).sound (hsound i)
    case isFalse => apply hsound

/-- A step after the job was committed keeps the job. -/
theorem Present.step {creator : ι} {jobId : Uuid} (h : Present e requests key creator jobId s)
    (hsound : ∀ i, (s.sessions i).sound e (requests i)) (label : RaceLabel ι) :
  Present e requests key creator jobId (s.step e requests label)
  := by
  cases label with
  | request i move => apply h.acted (hsound i) (acted_act move (hsound i))
  | other db =>
    unfold Race.step
    simp only
    split
    case isTrue hdb => apply h.other hdb
    case isFalse => exact h

/-- A step keeps what holds of every state. -/
theorem Race.sound.step (h : s.sound e requests key) (label : RaceLabel ι) :
  (s.step e requests label).sound e requests key
  := by
  constructor
  · apply Race.sessions_step h.sessions label
  · rcases h.job with habsent | ⟨creator, jobId, hpresent⟩
    · cases label with
      | request i move =>
        rcases habsent.acted (h.sessions i) (acted_act move (h.sessions i)) with h' | ⟨jobId, h'⟩
        · exact .inl h'
        · exact .inr ⟨i, jobId, h'⟩
      | other db =>
        left
        unfold Race.step
        simp only
        split
        case isTrue hdb =>
          exact ⟨(holders_of_keyedJobs hdb).trans habsent.none, habsent.alone, habsent.fails⟩
        case isFalse => exact habsent
    · right
      exact ⟨creator, jobId, hpresent.step h.sessions label⟩

theorem Race.sound.leads (h : s.sound e requests key) (hs : s.Leads e requests s') :
  s'.sound e requests key
  := by
  obtain ⟨labels, rfl⟩ := hs
  apply run_invariant _ (fun _ _ => True) (fun _ label h _ => h.step label) h
  apply along_of_forall fun _ _ => trivial

/-- A job that was committed stays. -/
theorem Present.leads {creator : ι} {jobId : Uuid} (h : Present e requests key creator jobId s)
    (hsound : ∀ i, (s.sessions i).sound e (requests i)) (hs : s.Leads e requests s') :
  Present e requests key creator jobId s' ∧ ∀ i, (s'.sessions i).sound e (requests i)
  := by
  obtain ⟨labels, rfl⟩ := hs
  apply run_invariant
    (fun s => Present e requests key creator jobId s ∧ ∀ i, (s.sessions i).sound e (requests i))
    (fun _ _ => True) _ ⟨h, hsound⟩ (along_of_forall (fun _ _ => trivial) s labels)
  rintro s label ⟨h, hsound⟩ -
  exact ⟨h.step hsound label, Race.sessions_step hsound label⟩

/-! ### Requests with another body -/

/-- The error of a request whose key belongs to a job with another body. -/
def keyConflict : Exn :=
  .jobCreation "Idempotency-Key was already used for a different request" 409

variable {creator i : ι} {jobId : Uuid}

/-- A request with another body is refused when it looks the key up. -/
theorem Present.lookup (h : Present e requests key creator jobId s)
    (hcarries : Carries (requests i) key)
    (hbody : e.digest (requests i).body ≠ e.digest (requests creator).body)
    (hphase : (s.sessions i).phase = .looking) :
  (s.act e requests i .lookup).1.phase = .answered (.error keyConflict)
  := by
  have hrequired : requireKey e.settings (requests i) = .ok (some key) := by
    rw [← h.required]
    apply requireKey_of_carries hcarries (requireKey_ok h.required)
  have hact : (s.act e requests i .lookup).1
      = lookupKey e (requests i) s.db (s.sessions i) := by
    unfold Race.act
    simp only [hphase]
  rw [hact]
  unfold lookupKey
  rw [hrequired]
  simp only [Option.bind_some]
  split
  case h_2 hnone =>
    rw [jobByKey_eq_none, h.one] at hnone
    cases hnone
  case h_1 job hjob =>
    have hmem := mem_holders_of_jobByKey hjob
    rw [h.one, List.mem_singleton, Prod.mk.injEq] at hmem
    unfold resultForExistingJob
    rw [if_pos (by rw [hmem.2]; simpa using hbody.symm)]
    rfl

/-- A request does not write while it cannot enter a job under the key. -/
theorem Present.act_db (h : Present e requests key creator jobId s)
    (hsound : (s.sessions i).sound e (requests i)) (hcarries : Carries (requests i) key)
    (move : CreateStep) :
  (s.act e requests i move).2 = s.db
  := by
  have hacted := acted_act move hsound
  generalize (s.act e requests i move).1 = session', (s.act e requests i move).2 = db' at hacted
  cases hacted with
  | committed under =>
    have hkey := idempotencyKey_of_carries (of_inserted hsound under) hcarries
    exact absurd ((enteredKey_of_phase under).trans hkey) (h.alone i)
  | _ => rfl

/-- A request that looked the key up too early is refused by the index of keys. -/
theorem Present.insert (h : Present e requests key creator jobId s)
    (hsound : (s.sessions i).sound e (requests i)) (hcarries : Carries (requests i) key)
    {draft : Draft} (hphase : (s.sessions i).phase = .prepared draft)
    (htickets : draft.job.tickets ≠ []) :
  ∃ name, (s.act e requests i .insert).1 = (s.sessions i).fail (.integrity name)
  := by
  have hof : draft.of e (requests i) := by
    unfold Session.sound at hsound
    rw [hphase] at hsound
    exact hsound
  have hkey := idempotencyKey_of_carries hof hcarries
  have hfree : ¬ s.waits i draft := by
    rintro ⟨-, i', -, hentered⟩
    apply h.alone i' (hentered.trans hkey)
  have htaken : holders key (s.db.tick draft.began) ≠ [] := by
    change holders key s.db ≠ []
    simp [h.one]
  obtain ⟨name, hrefused⟩ := storeJob_error hkey htaken htickets
  use name
  have hact : (s.act e requests i .insert).1 = insertDraft draft s.db (s.sessions i) := by
    unfold Race.act
    simp only [hphase, if_neg hfree]
  rw [hact]
  unfold insertDraft storeDraft
  rw [hrefused]

/-- A request with another body that has not been looked up yet is refused, unless its
transaction is aborted. -/
theorem Present.fresh (h : Present e requests key creator jobId s)
    (hsound : ∀ i, (s.sessions i).sound e (requests i)) (hcarries : Carries (requests i) key)
    (hbody : e.digest (requests i).body ≠ e.digest (requests creator).body)
    (hphase : (s.sessions i).phase = .looking) {labels : List (RaceLabel ι)}
    (hlabels : ∀ exn, .request i (.abort exn) ∉ labels) :
  ((run (Race.step e requests) s labels).sessions i).phase = .looking
    ∨ ((run (Race.step e requests) s labels).sessions i).phase = .answered (.error keyConflict)
  := by
  refine (@run_invariant (Race ι) (RaceLabel ι) (Race.step e requests)
    (fun s => (Present e requests key creator jobId s ∧ ∀ i, (s.sessions i).sound e (requests i))
      ∧ ((s.sessions i).phase = .looking
        ∨ (s.sessions i).phase = .answered (.error keyConflict)))
    (fun _ label => ∀ exn, label ≠ .request i (.abort exn)) ?_ s labels
    ⟨⟨h, hsound⟩, .inl hphase⟩ ?_).2
  · rintro s label ⟨⟨h, hsound⟩, hphase⟩ hlabel
    refine ⟨⟨h.step hsound label, Race.sessions_step hsound label⟩, ?_⟩
    cases label with
    | other db =>
      unfold Race.step
      simp only
      split <;> exact hphase
    | request i' move =>
      change (Function.update s.sessions i' (s.act e requests i' move).1 i).phase = .looking
        ∨ (Function.update s.sessions i' (s.act e requests i' move).1 i).phase = _
      simp only [Function.update_apply]
      split
      case isFalse => exact hphase
      case isTrue heq =>
        subst heq
        rcases hphase with hphase | hphase
        · cases move with
          | lookup => exact .inr (h.lookup hcarries hbody hphase)
          | abort exn => exact absurd rfl (hlabel exn)
          | _ => exact .inl (by simp [Race.act, hphase])
        · exact .inr (by simp [Race.act, hphase])
  · apply along_of_mem
    rintro label hlabel s exn rfl
    apply hlabels exn hlabel

/-- Whatever steps are taken, a request is answered with `409` and changes nothing. -/
structure Race.Refuses (e : Surroundings) (requests : ι → CreateRequest) (s : Race ι) (i : ι) :
    Prop where
  never : ∀ s', s.Leads e requests s' → ∀ result, ¬ (s'.sessions i).Succeeds result
  silent : ∀ s', s.Leads e requests s' → ∀ move, (s'.act e requests i move).2 = s'.db
  lookup : ∀ s', s.Leads e requests s' → (s'.sessions i).phase = .looking →
    (s'.act e requests i .lookup).1.phase = .answered (.error keyConflict)
  insert : ∀ s', s.Leads e requests s' → ∀ draft, (s'.sessions i).phase = .prepared draft →
    draft.job.tickets ≠ [] →
    ∃ name, (s'.act e requests i .insert).1 = (s'.sessions i).fail (.integrity name)
  fresh : (s.sessions i).phase = .looking →
    ∀ labels, (∀ exn, RaceLabel.request i (.abort exn) ∉ labels) →
    ((run (Race.step e requests) s labels).sessions i).phase = .looking
      ∨ ((run (Race.step e requests) s labels).sessions i).phase = .answered (.error keyConflict)

/-- A request with another body is refused once the job is committed. -/
theorem Present.refuses (h : Present e requests key creator jobId s)
    (hsound : ∀ i, (s.sessions i).sound e (requests i)) (hcarries : Carries (requests i) key)
    (hbody : e.digest (requests i).body ≠ e.digest (requests creator).body) :
  s.Refuses e requests i
  := by
  constructor
  · intro s' hs result hsucceeds
    obtain ⟨h', -⟩ := h.leads hsound hs
    apply hbody (h'.named i result hcarries hsucceeds).2.1
  · intro s' hs move
    obtain ⟨h', hsound'⟩ := h.leads hsound hs
    apply h'.act_db (hsound' i) hcarries
  · intro s' hs hphase
    obtain ⟨h', -⟩ := h.leads hsound hs
    apply h'.lookup hcarries hbody hphase
  · intro s' hs draft hphase htickets
    obtain ⟨h', hsound'⟩ := h.leads hsound hs
    apply h'.insert (hsound' i) hcarries hphase htickets
  · intro hphase labels hlabels
    apply h.fresh hsound hcarries hbody hphase hlabels

/-- Create requests with one key make one job, in any order of the steps of their transactions.
There is never more than one job with the key, every success names it, one of them is no replay,
and after a success a request with another body is refused. -/
theorem race_idempotent {db : Db}
    (hdigest : Set.InjOn e.digest (Set.range fun i => (requests i).body))
    (hfree : jobsOf key db = []) (hs : (Race.start db).Leads e requests s) :
  (jobsOf key s.db).length ≤ 1
    ∧ (∀ i result, Carries (requests i) key → (s.sessions i).Succeeds result →
        ∃ job ∈ jobsOf key s.db, result.job.id = job.id)
    ∧ ((∃ i result, Carries (requests i) key ∧ (s.sessions i).Succeeds result) →
        ∃! i, Carries (requests i) key
          ∧ ∃ result, (s.sessions i).Succeeds result ∧ result.replayed = false)
    ∧ ∀ i₀ result, Carries (requests i₀) key → (s.sessions i₀).Succeeds result →
        ∀ i, Carries (requests i) key → Differs (requests i) (requests i₀) →
          s.Refuses e requests i
  := by
  have hsound := (@Race.sound_start e ι requests key db hfree).leads hs
  rcases hsound.job with habsent | ⟨creator, jobId, hpresent⟩
  · have hnone : jobsOf key s.db = [] := by
      apply List.map_eq_nil_iff.mp
      rw [← holders_eq, habsent.none]
    refine ⟨by simp [hnone], ?_, ?_, ?_⟩
    · intro i result hcarries hsucceeds
      exact absurd hsucceeds (habsent.fails i result hcarries)
    · rintro ⟨i, result, hcarries, hsucceeds⟩
      exact absurd hsucceeds (habsent.fails i result hcarries)
    · intro i result hcarries hsucceeds
      exact absurd hsucceeds (habsent.fails i result hcarries)
  · have hone := hpresent.one
    rw [holders_eq] at hone
    obtain ⟨job, hjobs, hjob⟩ := List.map_eq_singleton_iff.mp hone
    rw [Prod.mk.injEq] at hjob
    refine ⟨by simp [hjobs], ?_, ?_, ?_⟩
    · intro i result hcarries hsucceeds
      use job
      simp only [hjobs, List.mem_singleton, true_and]
      rw [(hpresent.named i result hcarries hsucceeds).1, hjob.1]
    · intro _
      use creator
      constructor
      · exact ⟨requireKey_ok hpresent.required, hpresent.created⟩
      · rintro i ⟨hcarries, result, hsucceeds, hnew⟩
        apply (hpresent.named i result hcarries hsucceeds).2.2 hnew
    · intro i₀ result hcarries₀ hsucceeds i hcarries hdiffers
      apply hpresent.refuses hsound.sessions hcarries
      rw [← (hpresent.named i₀ result hcarries₀ hsucceeds).2.1]
      intro hdigests
      apply body_ne_of_differs hdiffers
      apply hdigest ⟨i, rfl⟩ ⟨i₀, rfl⟩ hdigests

end Runs

/-! ### Two requests -/

namespace Demo

/-- The surroundings with a digest that tells the names of requests apart. -/
def digesting : Surroundings :=
  { surroundings with digest := fun body => (textOf (body.get "name")).getD "" }

/-- Two requests with one key and different names. -/
def racing (i : Fin 2) : CreateRequest :=
  { createRequest (some (if i = 0 then " key" else "key ")) with
    name := if i = 0 then none else some "other" }

/-- Both requests look the key up before one of them commits, and the other is refused. -/
def overtaking : List (RaceLabel (Fin 2)) :=
  [.request 0 .lookup, .request 1 .lookup, .request 0 (.prepare surroundings.files rowIds),
    .request 0 .insert, .request 1 (.prepare surroundings.files rowIds), .request 1 .insert,
    .request 0 .commit, .request 1 .insert, .request 1 .lookup]

/-- The request was answered by a new job. -/
def isNew (session : Session) : Bool :=
  match session.phase with
  | .answered (.ok result) => !result.replayed
  | _ => false

end Demo

theorem exists_result_of_isNew {session : Session} (h : Demo.isNew session = true) :
  ∃ result, session.Succeeds result ∧ result.replayed = false
  := by
  unfold Demo.isNew at h
  split at h
  case h_1 result hphase => exact ⟨result, hphase, by simpa using h⟩
  case h_2 => cases h

theorem race_idempotent_demo :
  ∃ s, (Race.start Db.empty).Leads Demo.digesting Demo.racing s
    ∧ (jobsOf "key" s.db).length ≤ 1
    ∧ (∃! i, Carries (Demo.racing i) "key"
        ∧ ∃ result, (s.sessions i).Succeeds result ∧ result.replayed = false)
    ∧ s.Refuses Demo.digesting Demo.racing 1
  := by
  have hdigest : Set.InjOn Demo.digesting.digest (Set.range fun i => (Demo.racing i).body) := by
    rintro _ ⟨i, rfl⟩ _ ⟨i', rfl⟩ h
    fin_cases i <;> fin_cases i' <;> first | rfl | exact absurd h (by decide)
  have hcarries : ∀ i, Carries (Demo.racing i) "key" := by
    intro i
    fin_cases i <;> rfl
  have hnew : Demo.isNew ((run (Race.step Demo.digesting Demo.racing) (Race.start Db.empty)
      Demo.overtaking).sessions 0) = true := by decide +kernel
  obtain ⟨result, hsucceeds, hreplayed⟩ := exists_result_of_isNew hnew
  obtain ⟨hone, -, hcreator, hrefused⟩ := @race_idempotent Demo.digesting (Fin 2) _ _ Demo.racing
    "key" _ Db.empty hdigest rfl ⟨Demo.overtaking, rfl⟩
  exact ⟨_, ⟨Demo.overtaking, rfl⟩, hone, hcreator ⟨0, result, hcarries 0, hsucceeds⟩,
    hrefused 0 result (hcarries 0) hsucceeds 1 (hcarries 1) (.inr (.inl (by decide)))⟩

end Evalorch
