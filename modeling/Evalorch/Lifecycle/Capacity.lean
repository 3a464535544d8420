import Evalorch.EvaluationRunner
import Evalorch.Lifecycle.Dispatch
import Evalorch.Lifecycle.Reachable

/-!
# The capacity of a runner

The executions of a runner share `max_concurrency` threads. The runner asks for no more tickets
than it has threads for, and executions only end while it asks. So no ticket that it has claimed
waits for a thread while its lease runs (`capacity_is_respected`).
-/

namespace Evalorch

open Transact TicketRepository

/-! ### Executions under way -/

/-- The workers of the executions under way. -/
def System.workers (s : System) : List Worker :=
  s.runs.map Run.worker

/-- The label of a claim. -/
def Label.claims : Label → Prop
  | .claim .. => True
  | _ => False

/-- A step other than a claim begins and ends no execution. -/
theorem workers_step (settings : Settings) (s : System) {l : Label} (hl : ¬ l.claims) :
  (s.step settings l).workers = s.workers
  := by
  cases l with
  | claim => exact absurd trivial hl
  | execute index failure =>
    cases hr : s.runs[index]? with
    | none => simp [System.step, System.executed, hr]
    | some r =>
      have hsame : (s.runs.map Run.worker).set index r.worker = s.runs.map Run.worker := by
        have hmap : (s.runs.map Run.worker)[index]? = some r.worker := by simp [hr]
        obtain ⟨hlt, hworker⟩ := List.getElem?_eq_some_iff.mp hmap
        rw [← hworker, List.set_getElem_self]
      simpa [System.step, System.executed, hr, System.workers, List.map_set] using hsame
  | _ => rfl

theorem workers_run {settings : Settings} {s : System} {labels : List Label}
    (h : ∀ l ∈ labels, ¬ l.claims) :
  (run (System.step settings) s labels).workers = s.workers
  := by
  induction labels generalizing s with
  | nil => rfl
  | cons l labels ih =>
    obtain ⟨hl, hlabels⟩ := List.forall_mem_cons.mp h
    exact (ih hlabels).trans (workers_step settings s hl)

/-- A claim begins an execution for each ticket that it returns. -/
theorem workers_claimed {settings : Settings} {s : System} {worker : Worker} {limit : Option ℕ}
    {leaseSeconds : Option ℤ} {jobId : Option Uuid} {locked : Uuid → Bool}
    {collaborators : Uuid → Collaborators} {tickets : List EvaluationTicket} {db : Db}
    (h : claimTickets settings locked worker limit leaseSeconds jobId s.db = .ok (tickets, db)) :
  (s.step settings (.claim worker limit leaseSeconds jobId locked collaborators)).workers
    = s.workers ++ List.replicate tickets.length worker
  := by
  simp [System.step, System.claimed, h, System.workers, System.begin, Function.comp_def]

/-! ### The loop -/

namespace RunnerState

/-- The executions in flight are those of the runner and fit into its threads, also with the
tickets that it asks for, and none is left behind when the loop is left. -/
structure Bounded (runner : EvaluationRunner) (s : RunnerState) : Prop where
  own : ∀ worker ∈ s.workers, worker = runner.worker
  fits : s.workers.length ≤ runner.maxConcurrency
  asked : ∀ limit, s.position = .claim limit →
    limit ≠ 0 ∧ s.workers.length + limit ≤ runner.maxConcurrency
  left : s.position = .left → s.workers = []

variable {settings : Settings} {runner : EvaluationRunner} {s : RunnerState}

/-- The system may act while the main thread moves on, as long as no execution begins. -/
theorem Bounded.act (h : s.Bounded runner) {labels : List Label} {position : Position}
    (hlabels : ∀ l ∈ labels, ¬ l.claims)
    (hclaim : ∀ limit, position = .claim limit → s.position = .claim limit)
    (hleft : position = .left → s.position = .left) :
  (s.act settings labels position).Bounded runner
  := by
  have hsame : (s.act settings labels position).workers = s.workers := workers_run hlabels
  constructor
  · rw [hsame]
    exact h.own
  · rw [hsame]
    exact h.fits
  · rw [hsame]
    exact fun limit hlimit => h.asked limit (hclaim limit hlimit)
  · rw [hsame]
    exact fun hposition => h.left (hleft hposition)

/-- The main thread moves on. -/
theorem Bounded.move (h : s.Bounded runner) {position : Position}
    (hclaim : ∀ limit, position = .claim limit →
      limit ≠ 0 ∧ s.workers.length + limit ≤ runner.maxConcurrency)
    (hleft : position = .left → s.workers = []) :
  Bounded runner { s with position := position }
  := ⟨h.own, h.fits, hclaim, hleft⟩

theorem claims_sweepLabels (sweep : Option Sweep) :
  ∀ l ∈ sweepLabels sweep, ¬ l.claims
  := by cases sweep <;> simp [sweepLabels, Label.claims]

theorem claims_startupLabels (sweep : Option Sweep) :
  ∀ l ∈ startupLabels sweep, ¬ l.claims
  := by cases sweep <;> simp [startupLabels, sweepLabels, Label.claims]

/-- The capacity leaves room for what is in flight. -/
theorem length_add_capacity (h : s.Bounded runner) :
  s.workers.length + s.capacity runner = runner.maxConcurrency
  := by
  have hlength : s.workers.length = s.runs.length := List.length_map ..
  have hfits := h.fits
  rw [capacity]
  omega

/-- A claim of the runner fits into its threads. -/
theorem Bounded.claimed (h : s.Bounded runner) {limit : ℕ} (hposition : s.position = .claim limit)
    (failure : Bool) (locked : Uuid → Bool) (collaborators : Uuid → Collaborators) :
  (s.claimed settings runner limit failure locked collaborators).Bounded runner
  := by
  obtain ⟨hlimit, hroom⟩ := h.asked limit hposition
  unfold RunnerState.claimed
  split
  case isTrue => exact h.move (by simp) (by simp)
  case isFalse =>
    split
    case h_1 => exact h.move (by simp) (by simp)
    case h_2 tickets db hclaim =>
      have hlength : tickets.length ≤ limit := by
        have hasked : claimLimit settings (some limit) = limit := by
          simp [claimLimit, Option.filter, hlimit]
        exact hasked ▸ length_claimTickets_le hclaim
      have hworkers : (s.act settings [s.claimLabel runner limit locked collaborators]
          (.test tickets.length)).workers
            = s.workers ++ List.replicate tickets.length runner.worker :=
        workers_claimed hclaim
      constructor
      · intro worker hworker
        rw [hworkers] at hworker
        rcases List.mem_append.mp hworker with hold | hnew
        · exact h.own worker hold
        · exact (List.mem_replicate.mp hnew).2
      · rw [hworkers, List.length_append, List.length_replicate]
        omega
      · exact fun _ hclaim => by cases hclaim
      · exact fun hleft => by cases hleft

/-- A future leaves the set in flight. -/
theorem Bounded.discarded (h : s.Bounded runner) (index : ℕ) :
  (s.discarded index).Bounded runner
  := by
  unfold RunnerState.discarded
  split
  case isFalse => exact h
  case isTrue =>
    have hsublist : ((s.runs.eraseIdx index).map Run.worker).Sublist s.workers :=
      (List.eraseIdx_sublist s.runs index).map Run.worker
    have hlength := hsublist.length_le
    constructor
    · exact fun worker hworker => h.own worker (hsublist.subset hworker)
    · exact hlength.trans h.fits
    · intro limit hlimit
      obtain ⟨hne, hroom⟩ := h.asked limit hlimit
      exact ⟨hne, (Nat.add_le_add_right hlength limit).trans hroom⟩
    · intro hleft
      exact List.sublist_nil.mp (h.left hleft ▸ hsublist)

/-- A step of the runner keeps its executions within its threads. -/
theorem Bounded.step (h : s.Bounded runner) (l : RunnerStep) :
  (s.step settings runner l).Bounded runner
  := by
  cases l with
  | startup sweep =>
    simp only [RunnerState.step]
    split
    · exact h.act (claims_startupLabels sweep) (by simp) (by simp)
    · exact h
  | recover sweep =>
    simp only [RunnerState.step]
    split
    · exact h.act (claims_sweepLabels sweep) (by simp) (by simp)
    · exact h
  | capacity =>
    have hcapacity := length_add_capacity h
    have hbatch := runner.claimBatchSize_pos
    simp only [RunnerState.step]
    split
    case isFalse => exact h
    case isTrue =>
      split
      case isTrue => exact h.move (by simp) (by simp)
      case isFalse hsome =>
        apply h.move
        · intro limit hlimit
          cases hlimit
          omega
        · simp
  | claim failure locked collaborators =>
    simp only [RunnerState.step]
    split
    case h_1 limit hposition => exact h.claimed hposition failure locked collaborators
    case h_2 => exact h
  | test =>
    have hcapacity := length_add_capacity h
    simp only [RunnerState.step]
    split
    case h_1 claimed hposition =>
      split
      case isTrue hidle =>
        apply h.move
        · simp
        · exact fun _ => List.length_eq_zero_iff.mp (by omega)
      case isFalse => exact h.move (by simp) (by simp)
    case h_2 => exact h
  | execute index failure => exact h.act (by simp [Label.claims]) (fun _ => id) id
  | done index => exact h.discarded index
  | heartbeat ticketId => exact h.act (by simp [Label.claims]) (fun _ => id) id
  | tick elapsed => exact h.act (by simp [Label.claims]) (fun _ => id) id

end RunnerState

/-- In every state that a runner in drain mode reaches, from any database and with any schedule of
its main thread, its executions and their failures, there are never more executions in flight than
it has threads, also when all tickets that it asks for are claimed; all of them are its own, and
none is in flight when it has left its loop. -/
theorem capacity_is_respected (settings : Settings) (runner : EvaluationRunner) (db : Db)
    (steps : List RunnerStep) :
  (RunnerState.after settings runner db steps).Bounded runner
  := by
  apply run_invariant (fun s : RunnerState => s.Bounded runner) (fun _ _ => True)
  · exact fun s l h _ => h.step l
  · constructor <;> simp [RunnerState.initial, System.workers]
  · apply along_of_forall (fun _ _ => trivial)

end Evalorch
