import Evalorch.Runner

/-!
# The runner in drain mode

`run_forever` is the loop of one runner. Its main thread recovers abandoned work, reads how many
executions it may still begin, claims tickets, and decides whether to leave the loop, one after
another. The executions, their heartbeats and the passing of time may come between any two of
these. A future leaves the set in flight some time after its execution has ended.
-/

namespace Evalorch

/-- `EvaluationRunner`, as far as its loop reads it. -/
structure EvaluationRunner where
  worker : Worker
  maxConcurrency : ℕ
  claimBatchSize : ℕ
  leaseSeconds : ℤ
  maxConcurrency_pos : 0 < maxConcurrency
  claimBatchSize_pos : 0 < claimBatchSize

/-- What the main thread does next. -/
inductive Position where
  /-- The transaction before the loop. -/
  | startup
  /-- `_recover`. -/
  | recover
  /-- `_capacity`, in `run_once`. -/
  | capacity
  | claim (limit : ℕ)
  /-- The test at the end of an iteration, with what `run_once` returned. -/
  | test (claimed : ℤ)
  /-- The loop has been left. -/
  | left
deriving DecidableEq

/-- The database, the executions in flight, and the position of the main thread. -/
structure RunnerState extends System where
  position : Position

/-- The parameters of a recovery sweep. -/
structure Sweep where
  locked : Uuid → Bool
  locked' : Uuid → Bool
  jitter : Uuid → Duration

/-- What happens next. A step that the main thread is not at does nothing. -/
inductive RunnerStep where
  /-- The transaction before the loop, unless it fails. -/
  | startup (sweep : Option Sweep)
  /-- `_recover`, unless the interval has not passed or the sweep fails. -/
  | recover (sweep : Option Sweep)
  | capacity
  /-- `claim_once` and `_submit`. The query may fail, and skips rows that an execution in flight
  has locked. -/
  | claim (failure : Bool) (locked : Uuid → Bool) (collaborators : Uuid → Collaborators)
  | test
  /-- An execution in flight runs its next transaction. -/
  | execute (index : ℕ) (failure : Option Exn)
  /-- The callback of a future whose execution has ended. -/
  | done (index : ℕ)
  | heartbeat (ticketId : Uuid)
  /-- Microseconds pass. -/
  | tick (elapsed : ℕ)

namespace RunnerState

/-- `_capacity`. -/
def capacity (runner : EvaluationRunner) (s : RunnerState) : ℕ :=
  runner.maxConcurrency - s.runs.length

/-- An execution of the ticket is in flight. -/
def inflight (s : RunnerState) (ticketId : Uuid) : Bool :=
  s.runs.any (·.ticket.id = ticketId)

/-- The rows a claim skips: those that a transaction of an execution in flight has locked. -/
def skipped (s : RunnerState) (locked : Uuid → Bool) (ticketId : Uuid) : Bool :=
  locked ticketId && s.inflight ticketId

/-- A recovery sweep, if there is one. -/
def sweepLabels : Option Sweep → List Label
  | none => []
  | some sweep => [.recover sweep.locked sweep.locked' sweep.jitter none]

/-- The transaction before the loop, if it succeeds. -/
def startupLabels (sweep : Option Sweep) : List Label :=
  if sweep.isSome then .reconcile :: sweepLabels sweep else []

/-- The label of a claim of the runner. -/
def claimLabel (runner : EvaluationRunner) (s : RunnerState) (limit : ℕ) (locked : Uuid → Bool)
    (collaborators : Uuid → Collaborators) : Label :=
  .claim runner.worker (some limit) (some runner.leaseSeconds) none (s.skipped locked)
    collaborators

/-- What the claim query of the runner returns, and the database after it. -/
def claimOnce (settings : Settings) (runner : EvaluationRunner) (s : RunnerState) (limit : ℕ)
    (locked : Uuid → Bool) : Except Exn (List EvaluationTicket × Db) :=
  claimTickets settings (s.skipped locked) runner.worker (some limit) (some runner.leaseSeconds)
    none s.db

/-- The state before the runner starts, on a database that others have left. -/
def initial (db : Db) : RunnerState where
  db := db
  runs := []
  position := .startup

/-- The system takes the steps of some labels, and the main thread is at a position. -/
def act (settings : Settings) (s : RunnerState) (labels : List Label) (position : Position) :
    RunnerState where
  toSystem := Transact.run (System.step settings) s.toSystem labels
  position := position

/-- The step of the main thread at a claim query. -/
def claimed (settings : Settings) (runner : EvaluationRunner) (s : RunnerState) (limit : ℕ)
    (failure : Bool) (locked : Uuid → Bool) (collaborators : Uuid → Collaborators) :
    RunnerState :=
  if failure then { s with position := .test 0 }
  else
    match s.claimOnce settings runner limit locked with
    | .error _ => { s with position := .test 0 }
    | .ok (tickets, _) =>
        s.act settings [s.claimLabel runner limit locked collaborators] (.test tickets.length)

/-- The callback of the future at `index`, if its execution has ended. -/
def discarded (s : RunnerState) (index : ℕ) : RunnerState :=
  if (s.runs[index]?).any (·.program.result.isSome) then
    { s with runs := s.runs.eraseIdx index }
  else s

/-- One step of the runner. -/
def step (settings : Settings) (runner : EvaluationRunner) (s : RunnerState) :
    RunnerStep → RunnerState
  | .startup sweep =>
      if s.position = .startup then s.act settings (startupLabels sweep) .recover else s
  | .recover sweep =>
      if s.position = .recover then s.act settings (sweepLabels sweep) .capacity else s
  | .capacity =>
      if s.position = .capacity then
        if s.capacity runner = 0 then { s with position := .test (-1) }
        else { s with position := .claim (min (s.capacity runner) runner.claimBatchSize) }
      else s
  | .claim failure locked collaborators =>
      match s.position with
      | .claim limit => s.claimed settings runner limit failure locked collaborators
      | _ => s
  | .test =>
      match s.position with
      | .test claimed =>
          if claimed = 0 ∧ s.capacity runner = runner.maxConcurrency then
            { s with position := .left }
          else { s with position := .recover }
      | _ => s
  | .execute index failure => s.act settings [.execute index failure] s.position
  | .done index => s.discarded index
  | .heartbeat ticketId =>
      s.act settings [.heartbeat ticketId runner.worker runner.leaseSeconds] s.position
  | .tick elapsed => s.act settings [.tick (s.db.now + elapsed)] s.position

/-- The state after a run of the runner. -/
def after (settings : Settings) (runner : EvaluationRunner) (db : Db)
    (steps : List RunnerStep) : RunnerState :=
  Transact.run (step settings runner) (initial db) steps

end RunnerState

end Evalorch
