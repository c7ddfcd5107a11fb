import Sana.Orchestration.Completion
import Sana.Orchestration.ModelAudit

/-!
# Claiming, finishing and recovering steps

`SqlStepExecutionStore` and the reconciler's `make_ready`. Each operation is one
transaction. A worker proves that it still holds a step by `isCurrentAttempt`: its
attempt is incomplete, is the step's latest and is leased to it. Everything a
worker reports goes through that fence first.
-/

namespace Sana.Orchestration

open Sana.Lib

/-- The store's settings, with the checks of the constructors that take them. -/
structure StoreSettings where
  retryBase : Duration
  retryMax : Duration
  maxAttempts : Nat
  fetchMaxAttempts : Nat
  leaseExtension : Duration
  leaseSeconds : Duration
  retry_valid : 0 < retryBase ∧ retryBase ≤ retryMax
  limits_valid : 1 ≤ fetchMaxAttempts ∧ fetchMaxAttempts ≤ maxAttempts
  lease_valid : 0 < leaseExtension ∧ 0 < leaseSeconds

/-- The production defaults. -/
def StoreSettings.default : StoreSettings where
  retryBase := seconds 1
  retryMax := seconds 10
  maxAttempts := 3
  fetchMaxAttempts := 2
  leaseExtension := seconds 30
  leaseSeconds := seconds 30
  retry_valid := by decide
  limits_valid := by decide
  lease_valid := by decide

/-- `ClaimResult`: a lease, or why there is none. -/
structure ClaimResult where
  claimed : Option ClaimedStep
  disposition : Disposition
deriving DecidableEq, Repr

def ClaimResult.acquired (c : ClaimedStep) : ClaimResult := ⟨some c, .claimed⟩

def ClaimResult.skipped (d : Disposition) : ClaimResult := ⟨none, d⟩

/-- `_phase_for_step`. -/
def phaseForStep : StepType → BudgetPhase
  | .route | .plan => .routePlan
  | .discovery | .select => .discovery
  | .fetch | .extract => .fetchExtract
  | .verify => .verify
  | .synthesize | .complete => .synthesize

/-- `_attempt_limit`: a failed source has siblings, so a fetch is retried less often. -/
def StoreSettings.attemptLimit (cfg : StoreSettings) : StepType → Nat
  | .fetch => cfg.fetchMaxAttempts
  | _ => cfg.maxAttempts

/-- Back off exponentially up to the maximum. -/
def StoreSettings.retryDelay (cfg : StoreSettings) (attemptNo : Nat) : Duration :=
  min cfg.retryMax (cfg.retryBase * 2 ^ (attemptNo - 1))

section Store

variable (ports : Ports) (cfg : StoreSettings) (env : Env)

/-- `_add_event`. -/
def addEvent (u : Uow) (runId : Uuid) (eventType : String) (payload : List (String × EventValue)) :
    Uow :=
  let (id, u) := u.newUuid env
  { u with newEvents := u.newEvents ++ [{
      id, runId, sequence := u.tables.nextSequence runId, eventType, payload
      createdAt := env.hookNow }] }

/-- Save the step and the run, record the event and commit. -/
def saveAndCommit (u : Uow) (step : SearchStep) (run : SearchRun) (eventType : String)
    (payload : List (String × EventValue)) : Except Exn Db := do
  let t ← u.tables.saveStep env.dbNow step
  let t ← t.saveRun run
  (addEvent env { u with tables := t } run.id eventType payload).commit env

/-- The members every step event carries. -/
def stepPayload (step : SearchStep) : List (String × EventValue) :=
  [("step_id", .text step.id.str), ("step_key", .text step.stepKey)]

/-- A claimed step whose run was not started yet starts it. -/
def startOrResume (run : SearchRun) : Except Exn SearchRun :=
  match run.status with
  | .queued => run.start env.now
  | .waiting => run.resume
  | _ => .ok run

/-! ## `claim` -/

/-- The run has ended: cancel the step. -/
def claimCancelled (db : Db) (step : SearchStep) : Except Exn (ClaimResult × Db) := do
  let step ← step.cancel
  let t ← db.saveStep env.dbNow step
  let db ← ({ tables := t } : Uow).commit env
  return (.skipped .cancelled, db)

/-- The run is out of time: fail the step and the run. -/
def claimPastHardDeadline (db : Db) (step : SearchStep) (run : SearchRun) :
    Except Exn (ClaimResult × Db) := do
  let step ← step.start
  let step ← step.fail
  let run ← run.fail .timeBudget env.now
  let db ← saveAndCommit env (Uow.begin db) step run "STEP_DEADLINE_EXCEEDED" (stepPayload step)
  return (.skipped .failed, db)

/-- The error a step gets that was claimed after its phase had ended. -/
def phaseDeadlineExceeded : TypedError where
  category := .budget
  code := "phase_deadline_exceeded"
  message := "Step phase deadline was exhausted before admission"
  retryable := false

/-- The phase is out of time: fail the step and let the coordinator go on without it. -/
def claimPastPhaseDeadline (db : Db) (step : SearchStep) (run : SearchRun) :
    Except Exn (ClaimResult × Db) := do
  let run ← startOrResume env run
  let step ← step.start
  let step ← step.fail
  let (u, run) ← Coordinator.onFailure ports env (Uow.begin db) run step phaseDeadlineExceeded
    .failed
  let db ← saveAndCommit env u step run "STEP_PHASE_DEADLINE_EXCEEDED"
    (stepPayload step ++ [("phase", .text (phaseForStep step.stepType).value)])
  return (.skipped .failed, db)

/-- Lease the step to the worker under a new attempt. -/
def claimLease (db : Db) (step : SearchStep) (run : SearchRun) (workerId : String) :
    Except Exn (ClaimResult × Db) := do
  let deadline := run.budget.deadlineFor (phaseForStep step.stepType)
  let run ← startOrResume env run
  let (attemptId, u) := (Uow.begin db).newUuid env
  let (step, attempt) ← LeaseService.claim cfg.leaseSeconds step attemptId
    (db.nextAttemptNo step.id) workerId env.now deadline
  let u := { u with newAttempts := u.newAttempts ++ [attempt] }
  let db ← saveAndCommit env u step run "STEP_STARTED"
    (stepPayload step ++ [("step_type", .text step.stepType.value),
      ("attempt_no", .number attempt.attemptNo)])
  return (.acquired { attempt, runId := step.runId, stepId := step.id, deadlineAt := deadline }, db)

/-- `SqlStepExecutionStore.claim`. -/
def claim (db : Db) (stepId : Uuid) (workerId : String) : Except Exn (ClaimResult × Db) := do
  match ← db.getStep stepId with
  | none => return (.skipped .ignored, db)
  | some step =>
      if step.status ≠ .ready then
        return (.skipped .ignored, db)
      match ← db.getRun step.runId with
      | none => return (.skipped .stale, db)
      | some run =>
          if run.isTerminal then claimCancelled env db step
          else if run.budget.hardDeadlineAt ≤ env.now then claimPastHardDeadline env db step run
          else if run.budget.deadlineFor (phaseForStep step.stepType) ≤ env.now then
            claimPastPhaseDeadline ports env db step run
          else claimLease cfg env db step run workerId

/-! ## The fence -/

/-- `_is_current_attempt`. -/
def isCurrentAttempt (t : Tables) (claimed : ClaimedStep) : Bool :=
  match lookup (·.id) claimed.attempt.id t.attempts with
  | none => false
  | some record =>
      record.completedAt.isNone
        && t.latestAttemptNo claimed.stepId = claimed.attempt.attemptNo
        && record.leaseOwner = claimed.attempt.leaseOwner

/-- Load the step a worker reports on, if the worker still holds it. -/
def fenced (t : Tables) (claimed : ClaimedStep) : Except Exn (Option SearchStep) := do
  match ← t.getStep claimed.stepId with
  | none => return none
  | some step =>
      if step.status = .running && isCurrentAttempt t claimed then return some step
      else return none

/-! ## `succeed` -/

/-- The error an attempt gets whose run ended under it. -/
def runTerminal : TypedError where
  category := .cancelled
  code := "run_terminal"
  message := "Run became terminal while the Step was executing"
  retryable := false

/-- The run has ended: the output is dropped and the step cancelled. -/
def succeedCancelled (db : Db) (claimed : ClaimedStep) (step : SearchStep) (run : SearchRun) :
    Except Exn (Disposition × Db) := do
  let attempt ← claimed.attempt.fail runTerminal env.now
  let step ← step.cancel
  let t ← db.completeAttempt attempt
  let t ← t.saveStep env.dbNow step
  let db ← (addEvent env { tables := t } run.id "STEP_CANCELLED"
    [("step_id", .text step.id.str)]).commit env
  return (.cancelled, db)

/-- Record the output and the usage and let the coordinator advance the run. -/
def succeedRun (db : Db) (claimed : ClaimedStep) (result : StepExecutionResult)
    (step : SearchStep) (run : SearchRun) : Except Exn (Disposition × Db) := do
  let attempt ← claimed.attempt.succeed result.outputRef env.now
  let step ← step.succeed result.outputRef
  let elapsed := (env.now - attempt.startedAt).toNat
  let run ← run.recordUsage (result.actualCost.apply run.usage elapsed)
  let (u, run) ← Coordinator.onSuccess ports env (Uow.begin db) run step result.outputRef
  let t ← u.tables.completeAttempt attempt
  let db ← saveAndCommit env { u with tables := t } step run "STEP_SUCCEEDED"
    (stepPayload step ++ [("attempt_no", .number attempt.attemptNo)])
  return (.succeeded, db)

/-- `SqlStepExecutionStore.succeed`. -/
def succeed (db : Db) (claimed : ClaimedStep) (result : StepExecutionResult) :
    Except Exn (Disposition × Db) := do
  match ← fenced db.toTables claimed with
  | none => return (.stale, db)
  | some step =>
      match ← db.getRun claimed.runId with
      | none => return (.stale, db)
      | some run =>
          if run.isTerminal then succeedCancelled env db claimed step run
          else succeedRun ports env db claimed result step run

/-! ## `renew` -/

/-- `SqlStepExecutionStore.renew`. The heartbeat keeps the extended lease in memory. -/
def renew (db : Db) (claimed : ClaimedStep) : Except Exn (Bool × ClaimedStep × Db) := do
  match ← fenced db.toTables claimed with
  | none => return (false, claimed, db)
  | some _ =>
      if claimed.deadlineAt ≤ env.now then
        return (false, claimed, db)
      let renewedUntil := min claimed.deadlineAt (env.now + cfg.leaseExtension)
      if renewedUntil ≤ claimed.attempt.leasedUntil then
        return (true, claimed, db)
      let attempt ← claimed.attempt.renewLease renewedUntil
      let t ← db.renewAttempt attempt
      let db ← ({ tables := t } : Uow).commit env
      return (true, { claimed with attempt }, db)

/-! ## `fail` -/

/-- How a failed attempt leaves its step. -/
def failStep (claimed : ClaimedStep) (error : TypedError) (step : SearchStep) (run : SearchRun) :
    Except Exn (SearchStep × Disposition × String) := do
  if run.isTerminal || error.category = .cancelled then
    return (← step.cancel, .cancelled, "STEP_CANCELLED")
  let retryAt := env.now + cfg.retryDelay claimed.attempt.attemptNo
  if error.retryable && claimed.attempt.attemptNo < cfg.attemptLimit step.stepType
      && retryAt < run.budget.hardDeadlineAt then
    return (← step.retryLater retryAt, .retryScheduled, "STEP_RETRY_SCHEDULED")
  return (← step.fail, .failed, "STEP_FAILED")

/-- `SqlStepExecutionStore.fail`. -/
def fail (db : Db) (claimed : ClaimedStep) (error : TypedError) :
    Except Exn (Disposition × Db) := do
  match ← fenced db.toTables claimed with
  | none => return (.stale, db)
  | some step =>
      match ← db.getRun claimed.runId with
      | none => return (.stale, db)
      | some run =>
          let attempt ← claimed.attempt.fail error env.now
          let (step, disposition, eventType) ← failStep cfg env claimed error step run
          let (u, run) ← Coordinator.onFailure ports env (Uow.begin db) run step error disposition
          let t ← u.tables.completeAttempt attempt
          let db ← saveAndCommit env { u with tables := t } step run eventType
            (stepPayload step ++ [("attempt_no", .number attempt.attemptNo),
              ("error_category", .text error.category.value), ("error_code", .text error.code)])
          return (disposition, db)

end Store

/-! ## The reconciler -/

/-- `ReconcileCandidate`: what a scan saw, possibly a while ago. -/
structure ReconcileCandidate where
  stepId : Uuid
  status : StepStatus
  retryAt : Option Time := none
  leasedUntil : Option Time := none
deriving DecidableEq, Repr

/-- The error an attempt gets whose lease ran out. -/
def leaseExpired : TypedError where
  category := .transient
  code := "lease_expired"
  message := "Worker lease expired before the attempt completed"
  retryable := true

/-- `max(leased_until)` over a step's incomplete attempts. -/
def currentLease (t : Tables) (stepId : Uuid) : Option Time :=
  (((t.attemptsOf stepId).filter (·.completedAt.isNone)).map (·.leasedUntil)).max?

/-- The incomplete attempts of a step whose lease has run out. -/
def expiredAttempts (t : Tables) (stepId : Uuid) (now : Time) : List StepAttempt :=
  t.attempts.filter fun a => a.stepId = stepId && a.completedAt.isNone && a.leasedUntil ≤ now

/-- Seal the open model calls of those attempts. -/
def abandonExpired (t : Tables) (stepId : Uuid) (now : Time) : Tables :=
  let ids := (expiredAttempts t stepId now).map (·.id)
  { t with
    invocations := abandonRows t.invocations (fun i => decide (i.attemptId ∈ ids))
      "worker_lease_expired" now }

/-- Complete the incomplete attempts of a step whose lease has run out. -/
def expireAttempts (t : Tables) (stepId : Uuid) (now : Time) : Tables :=
  { t with attempts := t.attempts.map fun a =>
      if a.stepId = stepId ∧ a.completedAt = none ∧ a.leasedUntil ≤ now then
        { a with completedAt := some now, error := some leaseExpired }
      else a }

/-- `TenantReconciliationScanner.make_ready`. -/
def makeReady (env : Env) (db : Db) (candidate : ReconcileCandidate) (now : Time) :
    Except Exn (Bool × Db) := do
  match ← db.getStep candidate.stepId with
  | none => return (false, db)
  | some step =>
      if candidate.status = .retryWait ∧ step.status = .retryWait then
        match step.retryAt with
        | none => return (false, db)
        | some retryAt =>
            if now < retryAt then
              return (false, db)
            let step ← step.makeReady
            let t ← db.saveStep env.dbNow step
            return (true, ← ({ tables := t } : Uow).commit env)
      else if candidate.status = .running ∧ step.status = .running then
        match currentLease db.toTables candidate.stepId with
        | none => return (false, db)
        | some lease =>
            if now < lease then
              return (false, db)
            let t := abandonExpired db.toTables candidate.stepId now
            let t := expireAttempts t candidate.stepId now
            let step ← step.releaseExpiredLease
            let t ← t.saveStep env.dbNow step
            return (true, ← ({ tables := t } : Uow).commit env)
      else return (step.status = .ready, db)

end Sana.Orchestration
