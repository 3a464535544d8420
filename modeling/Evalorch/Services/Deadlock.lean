import Evalorch.Graph.Chase
import Evalorch.Services.EvaluationService

/-!
# Recognizing deadlocks

`isPostgresDeadlock` on exceptions as they are raised: a finite graph, in which an exception may
have another as its `orig` and its cause, and a chain of them may come back on itself.
-/

namespace Evalorch

/-- What `is_postgres_deadlock` reads of an exception. -/
structure ExceptionFields (ι : Type) where
  /-- `isinstance(exc, DeadlockDetected)`. -/
  isDeadlockDetected : Bool
  /-- The attribute `sqlstate`, when it is a text. -/
  sqlstate : Option String
  /-- The attribute `orig`, when it is an exception. -/
  orig : Option ι
  /-- `__cause__`. -/
  cause : Option ι

/-- Exceptions by identity. -/
abbrev Exceptions (ι : Type) : Type := ι → ExceptionFields ι

namespace Exceptions

variable {ι : Type}

/-- `_DEADLOCK_SQLSTATE`. -/
def deadlockSqlstate : String := "40P01"

/-- The exception is a deadlock itself. -/
def isDeadlock (g : Exceptions ι) (exc : ι) : Bool :=
  (g exc).isDeadlockDetected || (g exc).sqlstate = some deadlockSqlstate

/-- The exception that is looked at next. -/
def next (g : Exceptions ι) (exc : ι) : Option ι :=
  (g exc).orig.or (g exc).cause

/-- `is_postgres_deadlock`: the loop with the set of what was seen. -/
def isPostgresDeadlock [Fintype ι] [DecidableEq ι] (g : Exceptions ι) (exc : ι) : Bool :=
  Chase.search g.next g.isDeadlock ∅ (some exc)

/-- The test finds a deadlock on the chain from an exception. -/
theorem isPostgresDeadlock_eq [Fintype ι] [DecidableEq ι] {g : Exceptions ι} {exc : ι} :
  g.isPostgresDeadlock exc = true ↔ ∃ e, Chase.OnChain g.next exc e ∧ g.isDeadlock e = true
  := by
  rw [isPostgresDeadlock, Chase.search_iff (Chase.Seen.empty _)]
  simp only [Chase.Meets, Option.some.injEq, exists_eq_left']

end Exceptions

/-- An exception that a transaction fails with from outside. -/
structure Raised where
  size : ℕ
  graph : Exceptions (Fin size)
  root : Fin size
  /-- `isinstance(exc, OperationalError)`, of SQLAlchemy. -/
  isOperational : Bool
  typeName : String
  message : String

namespace Raised

/-- The exception as the handlers of `_persist` tell it apart. -/
def exn (r : Raised) : Exn :=
  if (r.graph r.root).isDeadlockDetected then .deadlockDetected r.message
  else if r.isOperational then .operational r.message (r.graph.isPostgresDeadlock r.root)
  else .other r.typeName r.message

/-- The exception is a `DeadlockDetected`, or an `OperationalError` with a deadlock somewhere on
its chain. -/
def IsDeadlock (r : Raised) : Prop :=
  (r.graph r.root).isDeadlockDetected = true
    ∨ r.isOperational = true
      ∧ ∃ exc, Chase.OnChain r.graph.next r.root exc ∧ r.graph.isDeadlock exc = true

/-- `_persist` tries again after a deadlock, and after nothing else. -/
theorem isPostgresDeadlock_exn (r : Raised) :
  Evalorch.isPostgresDeadlock r.exn = true ↔ r.IsDeadlock
  := by
  unfold exn IsDeadlock
  split
  case isTrue hdetected => simp [Evalorch.isPostgresDeadlock, hdetected]
  case isFalse hdetected =>
    split
    case isTrue hoperational =>
      rw [← Exceptions.isPostgresDeadlock_eq]
      simp [Evalorch.isPostgresDeadlock, hdetected, hoperational]
    case isFalse hoperational =>
      simp [Evalorch.isPostgresDeadlock, hdetected, hoperational]

end Raised

end Evalorch

