import Evalorch.Lifecycle.Finality
import Evalorch.Lifecycle.Reports
import Evalorch.Verdicts.Coherence

/-!
# Coherent results

When executions find the registered evaluators, every result that is ever stored is coherent
(`results_are_coherent`): along the text of `execute_ticket` each transaction keeps the results
coherent (`always_keepsCoherent`), and no other step writes a result.
-/

namespace Evalorch

open Transact TicketRepository JobRepository ResultRepository

/-- The flag and the score of a result fit its status. -/
def EvaluationResult.coherent (r : EvaluationResult) : Prop :=
  Coherent r.status r.passed r.score

/-- Every result is coherent. -/
def Db.coherent (db : Db) : Prop :=
  ∀ r ∈ db.results.rows, r.coherent

theorem Db.coherent.of_results {db db' : Db} (h : db.coherent)
    (hresults : db'.results = db.results) :
  db'.coherent
  := by
  unfold Db.coherent
  rw [hresults]
  exact h

/-! ### The transactions of an execution -/

/-- The transaction keeps the results coherent. -/
def KeepsCoherent (_ : Tag) (commit : Db → Db) : Prop :=
  ∀ db, db.coherent → (commit db).coherent

theorem coherent_upsert {result row : EvaluationResult} {db db' : Db} (h : db.coherent)
    (hresult : result.coherent) (hupsert : upsert result db = .ok (row, db')) :
  db'.coherent
  := by
  have hup := upsert_ok hupsert
  intro r hr
  have hfound := hup.resultOf r.ticketId
  rw [Db.resultOf_eq_some.mpr ⟨hr, rfl⟩] at hfound
  split at hfound
  case isTrue =>
    cases hfound
    obtain ⟨old, -, rfl⟩ | ⟨-, rfl⟩ := hup.written
    · exact hresult
    · exact hresult
  case isFalse => exact h r (Db.resultOf_eq_some.mp hfound.symm).1

theorem coherent_persistOnce {id : Uuid} {ticket : EvaluationTicket} {v : Verdict}
    {snapshot : Option Dict} {worker : Worker} {db db' : Db} {outcome : TicketOutcome}
    (hv : v.output.coherent) (h : db.coherent)
    (hpersist : persistOnce id ticket v snapshot (some worker.id) db = .ok (outcome, db')) :
  db'.coherent
  := by
  unfold persistOnce at hpersist
  split at hpersist
  case h_1 =>
    cases hpersist
    exact h
  case h_2 =>
    simp only at hpersist
    split at hpersist
    case isTrue =>
      obtain ⟨⟨r, db₁⟩, hsettle, hpersist⟩ := bind_eq_ok.mp hpersist
      cases hpersist
      exact h.of_results (results_of_settleTicket hsettle)
    case isFalse =>
      obtain ⟨⟨resultId, db₁⟩, hrecord, hpersist⟩ := bind_eq_ok.mp hpersist
      obtain ⟨⟨r, db₂⟩, hsettle, hpersist⟩ := bind_eq_ok.mp hpersist
      cases hpersist
      have hrecorded : db₁.coherent := by
        unfold recordResult at hrecord
        split at hrecord
        case isTrue =>
          obtain ⟨⟨row, db₁'⟩, hupsert, hrecord⟩ := bind_eq_ok.mp hrecord
          cases hrecord
          refine coherent_upsert h ?_ hupsert
          exact hv
        case isFalse =>
          cases hrecord
          exact h
      exact hrecorded.of_results (results_of_settleTicket hsettle)

theorem coherent_settleOnly {ticket : EvaluationTicket} {target : TicketStatus} {s : Settlement}
    {worker : Worker} {o outcome : TicketOutcome} {db db' : Db} (h : db.coherent)
    (hsettled : settleOnly ticket target s (some worker.id) o db = .ok (outcome, db')) :
  db'.coherent
  := by
  unfold settleOnly at hsettled
  split at hsettled
  case h_1 =>
    cases hsettled
    exact h
  case h_2 =>
    obtain ⟨⟨r, db₁⟩, hsettle, hsettled⟩ := bind_eq_ok.mp hsettled
    cases hsettled
    exact h.of_results (results_of_settleTicket hsettle)

section Always

variable {settings : Settings} {c : Collaborators} {ticket : EvaluationTicket} {worker : Worker}

/-- A transaction keeps the results coherent when its body does where it returns. -/
theorem keepsCoherent_atomically {tag : Tag} {body : Db → Except Exn (TicketOutcome × Db)}
    (h : ∀ db outcome db', db.coherent → body db = .ok (outcome, db') → db'.coherent) :
  (Program.atomically tag body : Execution TicketOutcome).Always KeepsCoherent
  := by
  apply Program.always_atomically
  intro db hdb
  exact committed_of Db.coherent hdb fun outcome db' hbody => h db outcome db' hdb hbody

theorem keepsCoherent_orStale {p : Execution TicketOutcome} (h : p.Always KeepsCoherent) :
  (orStale ticket p).Always KeepsCoherent
  := by
  apply Program.always_attempt h
  intro r
  split <;> trivial

theorem keepsCoherent_persistLoop {once : ℕ → Execution TicketOutcome} {stale : TicketOutcome}
    (h : ∀ attempt, (once attempt).Always KeepsCoherent) (n attempt : ℕ) (last : Exn) :
  (persistLoop once stale n attempt last).Always KeepsCoherent
  := by
  induction n generalizing attempt last with
  | zero => trivial
  | succ n ih =>
    apply Program.always_attempt (h attempt)
    intro r
    split
    case h_1 => trivial
    case h_2 => trivial
    case h_3 =>
      split
      case isTrue => apply ih
      case isFalse => trivial

theorem keepsCoherent_persist {drawn : ℕ} {v : Verdict} {resolved : Option ResolvedInput}
    (hv : v.output.coherent) :
  (persist settings c drawn ticket v resolved (some worker.id)).Always KeepsCoherent
  := by
  apply keepsCoherent_persistLoop
  intro attempt
  apply keepsCoherent_atomically
  exact fun _ _ _ => coherent_persistOnce hv

theorem keepsCoherent_exceptHandlers {drawn : ℕ} {resolved : Option ResolvedInput} (exc : Exn) :
  (exceptHandlers settings c drawn ticket resolved (some worker.id) exc).Always KeepsCoherent
  := by
  unfold exceptHandlers
  split
  case h_1 =>
    apply keepsCoherent_orStale
    apply keepsCoherent_atomically
    exact fun _ _ _ => coherent_settleOnly
  case h_2 => trivial
  case h_3 =>
    unfold handleFailure
    split
    case isTrue =>
      apply keepsCoherent_orStale
      apply keepsCoherent_atomically
      exact fun _ _ _ => coherent_settleOnly
    case isFalse =>
      apply keepsCoherent_persist
      apply coherent_failureVerdict

/-- Every transaction of an execution that finds registered evaluators keeps the results
coherent. -/
theorem always_keepsCoherent (hc : c.Registered) :
  (executeTicket settings c ticket (some worker.id)).Always KeepsCoherent
  := by
  unfold executeTicket
  rw [orText_of_ne worker.nonempty]
  apply Program.always_attempt
  · apply Program.always_atomically
    intro db hdb
    simp only [committed_loadState]
    exact hdb
  · intro r
    split
    case h_2 => apply keepsCoherent_exceptHandlers
    case h_1 =>
      unfold evaluateAndPersist
      split
      case h_1 => apply keepsCoherent_exceptHandlers
      case h_2 =>
        split
        case h_1 => apply keepsCoherent_exceptHandlers
        case h_2 hv =>
          apply Program.always_handle (keepsCoherent_persist (coherent_judgeMetric hc hv))
          apply keepsCoherent_exceptHandlers

end Always

/-! ### Runs -/

/-- The executions that a claim begins find the registered evaluators. -/
def Label.registered : Label → Prop
  | .claim _ _ _ _ _ collaborators => ∀ ticketId, (collaborators ticketId).Registered
  | _ => True

/-- The results are coherent, and the executions under way keep them so. -/
structure System.Coherent (s : System) : Prop where
  sound : s.sound
  results : s.db.coherent
  runs : ∀ r ∈ s.runs, r.program.Always KeepsCoherent

/-- Only executions write results. -/
theorem results_of_performs {settings : Settings} {s : System} (hs : s.sound) {l : Label}
    (hnot : ∀ index failure, l ≠ .execute index failure) :
  (s.step settings l).db.results = s.db.results
  := by
  rcases step_cases settings hs l with hsame | ⟨p, hcreated⟩ | ⟨a, hperforms, f, g, hby⟩
  · rw [hsame]
  · exact hcreated.results
  · cases hby.results with
    | kept results => exact results
    | recorded =>
      cases l with
      | execute index failure => exact absurd rfl (hnot index failure)
      | _ => cases hperforms

theorem coherent_executed {s : System} (h : s.Coherent) (index : ℕ) (failure : Option Exn) :
  (s.executed index failure).db.coherent
    ∧ ∀ r ∈ (s.executed index failure).runs, r.program.Always KeepsCoherent
  := by
  unfold System.executed
  cases hr : s.runs[index]? with
  | none => exact ⟨h.results, h.runs⟩
  | some r =>
    have halways := h.runs r (List.mem_of_getElem? hr)
    constructor
    · rcases Program.step_always halways failure s.db with
        ⟨hsame, -⟩ | ⟨tag, commit, -, -, hkeeps, hcommit⟩
      · simp only
        rw [hsame]
        exact h.results
      · simp only
        rw [hcommit]
        exact hkeeps s.db h.results
    · intro r' hr'
      rcases List.mem_or_eq_of_mem_set hr' with hr' | rfl
      · exact h.runs r' hr'
      · exact Program.always_step halways failure s.db

theorem coherent_step (settings : Settings) {s : System} (h : s.Coherent) {l : Label}
    (hl : l.registered) :
  (s.step settings l).Coherent
  := by
  cases l with
  | execute index failure =>
    obtain ⟨hresults, hruns⟩ := coherent_executed h index failure
    exact ⟨sound_step h.sound _, hresults, hruns⟩
  | claim worker limit leaseSeconds jobId locked collaborators =>
    refine ⟨sound_step h.sound _, h.results.of_results (results_of_performs h.sound (by simp)), ?_⟩
    intro r hr
    cases hclaim : claimTickets settings locked worker limit leaseSeconds jobId s.db with
    | error e =>
      simp only [System.step, System.claimed, hclaim] at hr
      exact h.runs r hr
    | ok claimed =>
      simp only [System.step, System.claimed, hclaim] at hr
      rcases List.mem_append.mp hr with hr | hr
      · exact h.runs r hr
      · obtain ⟨t, -, rfl⟩ := List.mem_map.mp hr
        exact always_keepsCoherent (hl t.id)
  | _ =>
    exact ⟨sound_step h.sound _, h.results.of_results (results_of_performs h.sound (by simp)),
      h.runs⟩

theorem coherent_initial :
  System.initial.Coherent
  := by
  refine ⟨sound_initial, ?_, ?_⟩
  · intro r hr
    cases hr
  · intro r hr
    cases hr

theorem coherent_after (settings : Settings) {labels : List Label}
    (h : ∀ l ∈ labels, l.registered) :
  (System.after settings labels).Coherent
  := by
  apply run_invariant System.Coherent (fun _ l => l.registered)
  · exact fun s l hs hl => coherent_step settings hs hl
  · exact coherent_initial
  · exact along_of_mem (fun l hl _ => h l hl) _

/-- The results tell the verdicts on the tickets. -/
structure Db.TellsVerdicts (db : Db) : Prop where
  coherent : db.coherent
  decided : ∀ t ∈ db.tickets.rows, t.status = .done → ∃ r ∈ db.results.rows, r.ticketId = t.id
    ∧ r.passed = some (decide (r.status = .passed)) ∧ ∃ score, r.score = some score ∧ score.IsShare
  undecided : ∀ t ∈ db.tickets.rows, t.status = .notApplicable → ∃ r ∈ db.results.rows,
    r.ticketId = t.id ∧ r.passed = none ∧ r.score = none

/-- Results are coherent in every run whose executions find the registered evaluators, whatever
they evaluate, whatever models answer and whatever fails: the flag of a result is the one of its
status, a check that was decided has a score between zero and one, and one that was not has none;
every `DONE` ticket has a result that decides it, and every `NOT_APPLICABLE` ticket one that does
not. -/
theorem results_are_coherent (settings : Settings) {labels : List Label}
    (h : ∀ l ∈ labels, l.registered) :
  (System.after settings labels).db.TellsVerdicts
  := by
  have hcoherent := (coherent_after settings h).results
  have hlinked := linked_after settings labels
  have hsettled := settledFor_after settings labels
  refine ⟨hcoherent, ?_, ?_⟩
  · intro t ht hdone
    obtain ⟨r, hr, hticket, -, hpairs⟩ := exists_result_of_done hlinked hsettled ht (.inl hdone)
    obtain ⟨hflag, hscored, hbounded⟩ := hcoherent r hr
    rw [hdone] at hpairs
    refine ⟨r, hr, hticket, ?_, ?_⟩
    · rcases hpairs with hstatus | hstatus <;> simp [hflag, hstatus, ResultStatus.flag]
    · have hsome : r.score.isSome = true := by
        rcases hpairs with hstatus | hstatus <;> simp [hscored, hstatus, ResultStatus.flag]
      obtain ⟨score, hscore⟩ := Option.isSome_iff_exists.mp hsome
      exact ⟨score, hscore, hbounded score hscore⟩
  · intro t ht hskipped
    obtain ⟨r, hr, hticket, -, hpairs⟩ :=
      exists_result_of_done hlinked hsettled ht (.inr hskipped)
    obtain ⟨hflag, hscored, -⟩ := hcoherent r hr
    rw [hskipped] at hpairs
    have hstatus : r.status = .notApplicable := hpairs
    rw [hstatus] at hflag hscored
    refine ⟨r, hr, hticket, hflag, ?_⟩
    simpa [ResultStatus.flag] using hscored

namespace Demo

/-- A model that answers nothing. -/
def silent : Judge.Environment :=
  judging "" .null

/-- A claim whose execution finds the registered evaluators. -/
def claimRegistered : Label :=
  .claim worker none none none (fun _ => false) fun _ =>
    { collaborators (.ok (output .passed)) with getEvaluator := getEvaluator silent }

/-- The ticket of the job is executed, and the runner sweeps. -/
def registered : List Label :=
  [.createJob job, claimRegistered, .execute 0 none, .execute 0 none, recover]

theorem results_are_coherent_registered :
  ((System.after .default registered).db.ticket 10).map (·.status) = some .done
    ∧ (System.after .default registered).db.TellsVerdicts
  := by
  constructor
  · decide +kernel
  · apply results_are_coherent
    intro l hl
    simp only [registered, List.mem_cons, List.not_mem_nil, or_false] at hl
    rcases hl with rfl | rfl | rfl | rfl | rfl
    · trivial
    · exact fun _ => registered_with silent (collaborators (.ok (output .passed)))
    · trivial
    · trivial
    · trivial

end Demo

end Evalorch
