import Sana.Lib.Locks
import Sana.Shared.Basic

/-!
# The row locks of a step's transactions

What is one atomic step elsewhere takes its row locks one after the other. A row is named
together with the rows it belongs to: an attempt is one of a step, a model invocation one
of an attempt. Only the transactions that work on the rows of a step are listed; what they
insert is locked by nobody else, and what they save they have locked before.
-/

namespace Sana.Orchestration

open Sana.Lib

/-- A row that is locked. -/
inductive RowLock
  | run (runId : Uuid)
  | step (stepId : Uuid)
  | attempt (stepId attemptId : Uuid)
  | invocation (stepId attemptId invocationId : Uuid)
deriving DecidableEq, Repr

def RowLock.isStep : RowLock → Bool
  | .step _ => true
  | _ => false

/-- A transaction, with the rows it is about. -/
inductive LockingCall
  | claim (stepId runId : Uuid)
  | succeed (stepId attemptId runId : Uuid)
  | fail (stepId attemptId runId : Uuid)
  | renew (stepId attemptId : Uuid)
  /-- The second transaction of `reuse`. -/
  | reuse (runId stepId attemptId : Uuid)
  | start (runId stepId attemptId : Uuid)
  | complete (stepId attemptId invocationId runId : Uuid)
  /-- `fail` of the audit. -/
  | failInvocation (stepId attemptId invocationId : Uuid)
  /-- `make_ready`; the open invocations and attempts it finds are updated in some order. -/
  | makeReady (stepId : Uuid) (invocations : List (Uuid × Uuid)) (attempts : List Uuid)
  | cancel (runId : Uuid)
deriving DecidableEq, Repr

namespace LockingCall

/-- `_lock_current` of the audit: the run, the step, the attempt. -/
def lockCurrent (runId stepId attemptId : Uuid) : List RowLock :=
  [.run runId, .step stepId, .attempt stepId attemptId]

/-- The step, the attempt of `_is_current_attempt`, the run. -/
def lockReported (stepId attemptId runId : Uuid) : List RowLock :=
  [.step stepId, .attempt stepId attemptId, .run runId]

/-- The locks a transaction takes, in this order, if it does not return before. -/
def script : LockingCall → List RowLock
  | .claim stepId runId => [.step stepId, .run runId]
  | .succeed stepId attemptId runId => lockReported stepId attemptId runId
  | .fail stepId attemptId runId => lockReported stepId attemptId runId
  | .renew stepId attemptId => [.step stepId, .attempt stepId attemptId]
  | .reuse runId stepId attemptId => lockCurrent runId stepId attemptId
  | .start runId stepId attemptId => lockCurrent runId stepId attemptId
  | .complete stepId attemptId invocationId runId =>
      [.invocation stepId attemptId invocationId, .run runId]
  | .failInvocation stepId attemptId invocationId => [.invocation stepId attemptId invocationId]
  | .makeReady stepId invocations attempts =>
      .step stepId :: (invocations.map fun i => .invocation stepId i.1 i.2)
        ++ attempts.map (.attempt stepId)
  | .cancel runId => [.run runId]

/-- The transaction locks the run before the step. -/
def runFirst : LockingCall → Bool
  | .reuse _ _ _ | .start _ _ _ => true
  | _ => false

end LockingCall

/-- The transactions that are under way or over. -/
abbrev LockTable := Sessions LockingCall RowLock

end Sana.Orchestration
