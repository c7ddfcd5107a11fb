import Sana.Orchestration.Store

/-!
# The audit of model calls

`SqlModelInvocationAuditSink`: a provider is called only under a row that was
committed first, and the row is sealed when the call has ended. The row of a call
and the run's counters are written in one transaction under the run's lock. A
worker that dies leaves its row STARTED; the reconciler seals such rows later.
-/

namespace Sana.Orchestration

open Sana.Lib Sana.ModelGateway

/-- `_reject`. -/
def reject (code message : String) : Exn :=
  .typed { category := .permanent, code, message, retryable := false }

/-- The error of a call that would start too late. -/
def modelDeadlineExceeded : Exn :=
  .typed { category := .budget, code := "model_deadline_exceeded"
           message := "Model call cannot start after the execution deadline", retryable := false }

/-- `ModelBudgetExceeded`, for calls. -/
def modelBudgetExceeded : Exn :=
  .typed { category := .budget, code := "model_budget_exceeded"
           message := "Model budget exceeded: calls", retryable := false }

/-- What the audit needs to know of a request and the call made for it. -/
structure CallSpec where
  role : ModelRole
  model : String
  provider : String
  callNo : Nat
  logicalCallKey : String
  deadline : Time
deriving DecidableEq, Repr

section Sink

variable (env : Env)

/-- The row of an attempt, if it is the context's. -/
def contextAttempt (t : Tables) (context : ModelInvocationContext) : Option StepAttempt :=
  t.attempts.find? fun a =>
    a.id = context.attemptId && a.stepId = context.stepId && a.runId = context.runId

/-- The row of a step, if it is the context's. -/
def contextStep (t : Tables) (context : ModelInvocationContext) : Option SearchStep :=
  t.steps.find? fun s => s.id = context.stepId && s.runId = context.runId

/-- `_lock_current`: the run, if the attempt is still the one that may call. -/
def lockCurrent (t : Tables) (context : ModelInvocationContext) (deadline : Time) :
    Except Exn SearchRun := do
  check (env.now < deadline) modelDeadlineExceeded
  match lookup (·.id) context.runId t.runs, contextStep t context, contextAttempt t context with
  | some run, some step, some attempt =>
      check (!run.isTerminal)
        (reject "model_invocation_run_terminal" "Model invocation run is already terminal")
      check (step.status = .running)
        (reject "model_invocation_step_not_running" "Model invocation step is not running")
      check (attempt.attemptNo = context.attemptNo && attempt.completedAt.isNone
          && env.now < attempt.deadlineAt)
        (reject "model_invocation_attempt_stale" "Model invocation attempt is no longer current")
      check (t.latestAttemptNo context.stepId = context.attemptNo)
        (reject "model_invocation_attempt_superseded" "Model invocation attempt was superseded")
      return run
  | _, _, _ =>
      .error (reject "model_invocation_context_stale" "Model invocation context no longer exists")

/-- The row that already has a call number of an attempt. -/
def callRow (t : Tables) (attemptId : Uuid) (role : ModelRole) (callNo : Nat) :
    Option ModelInvocationRecord :=
  t.invocations.find? fun i => i.attemptId = attemptId && i.role = role && i.callNo = callNo

/-- The error of a call number that is taken. -/
def callConflict : Exn :=
  reject "model_invocation_call_conflict" "Model invocation call number is already reserved"

/-- The row of a call that was answered from an earlier one. -/
def reusedRow (id : Uuid) (context : ModelInvocationContext) (spec : CallSpec)
    (source : ModelInvocationRecord) : ModelInvocationRecord :=
  { id, runId := context.runId, stepId := context.stepId, attemptId := context.attemptId
    reusedFromId := some source.id, role := spec.role, provider := spec.provider
    model := spec.model, callNo := spec.callNo, logicalCallKey := spec.logicalCallKey
    status := .reused, billingDisposition := .notBilled, providerCalled := false
    promptTokens := 0, completionTokens := 0, outputRef := source.outputRef
    errorCategory := none, errorCode := none, startedAt := env.now, completedAt := some env.now }

/-- The second transaction of `reuse`: record that the answer of `source` was used again. -/
def reuseInvocation (db : Db) (context : ModelInvocationContext) (spec : CallSpec)
    (source : ModelInvocationRecord) : Except Exn Db := do
  let _ ← lockCurrent env db.toTables context spec.deadline
  match callRow db.toTables context.attemptId spec.role spec.callNo with
  | some existing =>
      check (existing.status = .reused && existing.reusedFromId = some source.id) callConflict
      return db
  | none =>
      ({ Uow.begin db with
         newInvocations := [reusedRow env (env.ids 0) context spec source] } : Uow).commit env

/-- The row that reserves a call. -/
def startedRow (id : Uuid) (context : ModelInvocationContext) (spec : CallSpec) :
    ModelInvocationRecord :=
  { id, runId := context.runId, stepId := context.stepId, attemptId := context.attemptId
    reusedFromId := none, role := spec.role, provider := spec.provider, model := spec.model
    callNo := spec.callNo, logicalCallKey := spec.logicalCallKey, status := .started
    billingDisposition := .possiblyBilled, providerCalled := true, promptTokens := 0
    completionTokens := 0, outputRef := none, errorCategory := none, errorCode := none
    startedAt := env.now, completedAt := none }

/-- The run with one more call. -/
def SearchRun.countCall (run : SearchRun) : SearchRun :=
  { run with
    usage := { run.usage with llmCallCount := run.usage.llmCallCount + 1 }
    version := run.version + 1 }

/-- `start`. -/
def startInvocation (db : Db) (context : ModelInvocationContext) (spec : CallSpec) :
    Except Exn (ModelInvocationReservation × Db) := do
  let run ← lockCurrent env db.toTables context spec.deadline
  check (callRow db.toTables context.attemptId spec.role spec.callNo).isNone callConflict
  check (run.usage.llmCallCount + 1 ≤ run.budget.maxLlmCalls) modelBudgetExceeded
  let t := { db.toTables with runs := update (·.id) run.id SearchRun.countCall db.runs }
  let db ← ({ tables := t
              newInvocations := [startedRow env (env.ids 0) context spec] } : Uow).commit env
  return (⟨env.ids 0, spec.callNo, spec.logicalCallKey⟩, db)

/-- The run with the tokens of a completed call. -/
def SearchRun.countTokens (response : ProviderResponse) (run : SearchRun) : SearchRun :=
  { run with
    usage := { run.usage with
      promptTokenCount := run.usage.promptTokenCount + response.promptTokens
      completionTokenCount := run.usage.completionTokenCount + response.completionTokens }
    version := run.version + 1 }

/-- The row of a call that was answered. -/
def ModelInvocationRecord.complete (response : ProviderResponse) (outputRef : ArtifactRef)
    (row : ModelInvocationRecord) : ModelInvocationRecord :=
  { row with
    status := .completed, billingDisposition := .billed, promptTokens := response.promptTokens
    completionTokens := response.completionTokens, outputRef := some outputRef
    completedAt := some env.now }

/-- The row of a reservation, if it is the context's attempt's. -/
def reservedRow (t : Tables) (id : Uuid) (context : ModelInvocationContext) :
    Option ModelInvocationRecord :=
  t.invocations.find? fun i => i.id = id && i.attemptId = context.attemptId

/-- The error of a reservation that is not there. -/
def invocationMissing : Exn :=
  reject "model_invocation_missing" "Model invocation audit reservation is missing"

/-- `complete`, where the response has been stored under `outputRef`. -/
def completeInvocation (db : Db) (id : Uuid) (context : ModelInvocationContext)
    (response : ProviderResponse) (outputRef : ArtifactRef) : Except Exn Db := do
  match reservedRow db.toTables id context with
  | none => .error invocationMissing
  | some row =>
      if row.status = .completed then
        return db
      check (row.status = .started)
        (reject "model_invocation_not_open" "Model invocation audit reservation is already sealed")
      match lookup (·.id) context.runId db.runs with
      | none => .error (reject "model_invocation_run_missing" "Model invocation run is missing")
      | some run =>
          let t := { db.toTables with
            runs := update (·.id) run.id (SearchRun.countTokens response) db.runs
            invocations := update (·.id) row.id
              (ModelInvocationRecord.complete env response outputRef) db.invocations }
          ({ tables := t } : Uow).commit env

/-- A row that is sealed without an answer. -/
def ModelInvocationRecord.seal (status : ModelInvocationStatus) (category code : String)
    (at' : Time) (row : ModelInvocationRecord) : ModelInvocationRecord :=
  { row with
    status, billingDisposition := .possiblyBilled, errorCategory := some category
    errorCode := some code, completedAt := some at' }

/-- `fail`. -/
def failInvocation (db : Db) (id : Uuid) (context : ModelInvocationContext)
    (error : RedactedInvocationError) : Except Exn Db := do
  match reservedRow db.toTables id context with
  | none => .error invocationMissing
  | some row =>
      if row.status ≠ .started then
        return db
      let t := { db.toTables with
        invocations := update (·.id) row.id
          (.seal .failed error.category error.code env.now) db.invocations }
      ({ tables := t } : Uow).commit env

end Sink

/-- Seal the open rows among those selected as abandoned. -/
def abandonRows (rows : List ModelInvocationRecord) (selected : ModelInvocationRecord → Bool)
    (code : String) (at' : Time) : List ModelInvocationRecord :=
  rows.map fun i =>
    if i.status = .started ∧ selected i = true then .seal .abandoned "TRANSIENT" code at' i else i

/-- `abandon_attempt`. -/
def abandonAttempt (env : Env) (db : Db) (attemptId : Uuid) (at' : Time) : Except Exn Db :=
  let t := { db.toTables with
    invocations := abandonRows db.invocations (·.attemptId = attemptId) "worker_lease_expired" at' }
  ({ tables := t } : Uow).commit env

/-- The attempt of an open row has ended, or its deadline or its lease has passed. -/
def isOrphaned (t : Tables) (now : Time) (i : ModelInvocationRecord) : Bool :=
  t.attempts.any fun a => a.id = i.attemptId
    && (a.completedAt.isSome || decide (a.deadlineAt ≤ now) || decide (a.leasedUntil ≤ now))

/-- The open rows `seal_orphaned_model_invocations` takes: the oldest, but none that is locked. -/
def orphanedRows (t : Tables) (now : Time) (locked : Uuid → Bool) (limit : Nat) :
    List ModelInvocationRecord :=
  (((t.invocations.filter fun i => i.status = .started && isOrphaned t now i).insertionSort
    fun a b => a.startedAt ≤ b.startedAt).filter fun i => !locked i.id).take limit

/-- `TenantReconciliationScanner.seal_orphaned_model_invocations`. -/
def sealOrphanedModelInvocations (env : Env) (db : Db) (now : Time) (locked : Uuid → Bool)
    (limit : Nat) : Except Exn Db :=
  let ids := (orphanedRows db.toTables now locked limit).map (·.id)
  let t := { db.toTables with
    invocations := abandonRows db.invocations (fun i => decide (i.id ∈ ids))
      "model_invocation_orphaned" now }
  ({ tables := t } : Uow).commit env

/-! ## The operations as values -/

/-- The context is that of a lease. -/
def isContextOf (context : ModelInvocationContext) (claimed : ClaimedStep) : Bool :=
  context.runId = claimed.runId && context.stepId = claimed.stepId
    && context.attemptId = claimed.attempt.id && context.attemptNo = claimed.attempt.attemptNo

/-- A transaction on the audit rows. A worker's own are made in the context of its lease. -/
inductive AuditOp
  | reuse (context : ModelInvocationContext) (spec : CallSpec) (source : ModelInvocationRecord)
  | start (context : ModelInvocationContext) (spec : CallSpec)
  | complete (context : ModelInvocationContext) (id : Uuid) (response : ProviderResponse)
      (outputRef : ArtifactRef)
  | fail (context : ModelInvocationContext) (id : Uuid) (error : RedactedInvocationError)
  | abandon (attemptId : Uuid) (at' : Time)
  | sealOrphaned (now : Time) (locked : Uuid → Bool) (limit : Nat)

/-- The context a worker's transaction is made in. -/
def AuditOp.context : AuditOp → Option ModelInvocationContext
  | .reuse context _ _ | .start context _ | .complete context _ _ _ | .fail context _ _ =>
      some context
  | .abandon _ _ | .sealOrphaned _ _ _ => none

/-- Perform a transaction on the audit rows. -/
def AuditOp.run (env : Env) (db : Db) : AuditOp → Except Exn Db
  | .reuse context spec source => reuseInvocation env db context spec source
  | .start context spec => (·.2) <$> startInvocation env db context spec
  | .complete context id response outputRef => completeInvocation env db id context response outputRef
  | .fail context id error => failInvocation env db id context error
  | .abandon attemptId at' => abandonAttempt env db attemptId at'
  | .sealOrphaned now locked limit => sealOrphanedModelInvocations env db now locked limit

end Sana.Orchestration
