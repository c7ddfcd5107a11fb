import Mathlib.Data.List.Sort
import Sana.Lib.Table
import Sana.ModelGateway.Domain
import Sana.Orchestration.Domain

/-!
# The tenant's database

One tenant's rows: every unit of work is scoped to one tenant, so a single set of
tables is the whole world of a run. A transaction works on `Tables`; what it
commits is a `Db`, which is `Tables` together with the fact that every uniqueness
and reference constraint holds. PostgreSQL refuses anything else, so no later
argument has to show that two rows never share a primary key.

Sessions do not autoflush: rows handed to `session.add` are staged and are not
seen by the queries of the same transaction. They are inserted at `commit`.
-/

namespace Sana.Orchestration

open Sana.Lib Sana.ModelGateway

/-! ## Rows -/

/-- `conversations`. -/
structure Conversation where
  id : Uuid
  userId : Uuid
  title : String
  creationIdempotencyKey : Option String
  creationRequestHash : Option String
  createdAt : Time
  updatedAt : Time
deriving DecidableEq, Repr

/-- `MessageRole`. -/
inductive MessageRole
  | user | assistant | system
deriving DecidableEq, Repr

/-- `messages`. -/
structure Message where
  id : Uuid
  conversationId : Uuid
  authorUserId : Option Uuid
  role : MessageRole
  content : String
  idempotencyKey : Option String
  createdAt : Time
deriving DecidableEq, Repr

/-- The statuses a `response_runs` row is given. -/
inductive ResponseStatus
  | queued | succeeded | failed
deriving DecidableEq, Repr

/-- `response_runs`. -/
structure ResponseRun where
  id : Uuid
  conversationId : Uuid
  messageId : Uuid
  status : ResponseStatus
  outputMessageId : Option Uuid
  createdAt : Time
  updatedAt : Time
deriving DecidableEq, Repr

/-- A member of an event's payload. -/
inductive EventValue
  | text (value : String)
  | number (value : Int)
deriving DecidableEq, Repr

/-- `run_events`. -/
structure RunEvent where
  id : Uuid
  runId : Uuid
  sequence : Nat
  eventType : String
  payload : List (String × EventValue)
  createdAt : Time
deriving DecidableEq, Repr

/-- `outbox_events`: a dispatch message waiting for the broker. -/
structure OutboxMessage where
  id : Uuid
  aggregateType : String
  aggregateId : Uuid
  eventType : String
  dedupeKey : String
  availableAt : Time
  createdAt : Time
  publishedAt : Option Time := none
  publishAttempts : Nat := 0
  lastError : Option String := none
deriving DecidableEq, Repr

/-- `model_invocations`: the reservation and the outcome of one model call. -/
structure ModelInvocationRecord where
  id : Uuid
  runId : Uuid
  stepId : Uuid
  attemptId : Uuid
  reusedFromId : Option Uuid
  role : ModelRole
  provider : String
  model : String
  callNo : Nat
  logicalCallKey : String
  status : ModelInvocationStatus
  billingDisposition : BillingDisposition
  providerCalled : Bool
  promptTokens : Nat
  completionTokens : Nat
  outputRef : Option ArtifactRef
  errorCategory : Option String
  errorCode : Option String
  startedAt : Time
  completedAt : Option Time
deriving DecidableEq, Repr

/-! ## Tables and constraints -/

/-- The rows a transaction works on. -/
structure Tables where
  conversations : List Conversation := []
  messages : List Message := []
  responseRuns : List ResponseRun := []
  runs : List SearchRun := []
  steps : List SearchStep := []
  attempts : List StepAttempt := []
  events : List RunEvent := []
  outbox : List OutboxMessage := []
  invocations : List ModelInvocationRecord := []
deriving DecidableEq, Repr

namespace Tables

/-- The identity of a step: `uq_search_steps_run_revision_key`. -/
def stepIdentity (s : SearchStep) : Uuid × Nat × String := (s.runId, s.planRevision, s.stepKey)

/-- The rows that carry a creation key, with the key. -/
def creationKeys (t : Tables) : List (Uuid × String) :=
  t.conversations.filterMap fun c => c.creationIdempotencyKey.map fun k => (c.userId, k)

/-- The rows that carry a message key, with the key. -/
def messageKeys (t : Tables) : List (Uuid × String) :=
  t.messages.filterMap fun m => m.idempotencyKey.map fun k => (m.conversationId, k)

/-- The identity of a model call: `uq_model_invocations_attempt_role_call`. -/
def callIdentity (i : ModelInvocationRecord) : Uuid × ModelRole × Nat := (i.attemptId, i.role, i.callNo)

/-- The constraints the schema declares on these tables. -/
structure Valid (t : Tables) : Prop where
  pk_conversations : (t.conversations.map (·.id)).Nodup
  uq_conversations_creation_key : t.creationKeys.Nodup
  pk_messages : (t.messages.map (·.id)).Nodup
  uq_messages_idempotency : t.messageKeys.Nodup
  pk_responseRuns : (t.responseRuns.map (·.id)).Nodup
  pk_runs : (t.runs.map (·.id)).Nodup
  uq_runs_responseRun : (t.runs.map (·.responseRunId)).Nodup
  pk_steps : (t.steps.map (·.id)).Nodup
  uq_steps_identity : (t.steps.map stepIdentity).Nodup
  pk_attempts : (t.attempts.map (·.id)).Nodup
  uq_attempts_number : (t.attempts.map fun a => (a.stepId, a.attemptNo)).Nodup
  pk_events : (t.events.map (·.id)).Nodup
  uq_events_sequence : (t.events.map fun e => (e.runId, e.sequence)).Nodup
  pk_outbox : (t.outbox.map (·.id)).Nodup
  uq_outbox_dedupe : (t.outbox.map (·.dedupeKey)).Nodup
  pk_invocations : (t.invocations.map (·.id)).Nodup
  uq_invocations_call : (t.invocations.map callIdentity).Nodup
  fk_messages : ∀ m ∈ t.messages, ∃ c ∈ t.conversations, c.id = m.conversationId
  fk_responseRuns : ∀ r ∈ t.responseRuns, ∃ m ∈ t.messages, m.id = r.messageId
  fk_runs : ∀ r ∈ t.runs, ∃ p ∈ t.responseRuns, p.id = r.responseRunId
  fk_steps : ∀ s ∈ t.steps, ∃ r ∈ t.runs, r.id = s.runId
  fk_attempts : ∀ a ∈ t.attempts, ∃ s ∈ t.steps, s.id = a.stepId
  fk_invocations : ∀ i ∈ t.invocations, (∃ r ∈ t.runs, r.id = i.runId) ∧
    (∃ s ∈ t.steps, s.id = i.stepId) ∧ ∃ a ∈ t.attempts, a.id = i.attemptId

instance (t : Tables) : Decidable t.Valid :=
  decidable_of_iff
    ((t.conversations.map (·.id)).Nodup ∧ t.creationKeys.Nodup ∧ (t.messages.map (·.id)).Nodup
      ∧ t.messageKeys.Nodup ∧ (t.responseRuns.map (·.id)).Nodup ∧ (t.runs.map (·.id)).Nodup
      ∧ (t.runs.map (·.responseRunId)).Nodup ∧ (t.steps.map (·.id)).Nodup
      ∧ (t.steps.map stepIdentity).Nodup ∧ (t.attempts.map (·.id)).Nodup
      ∧ (t.attempts.map fun a => (a.stepId, a.attemptNo)).Nodup ∧ (t.events.map (·.id)).Nodup
      ∧ (t.events.map fun e => (e.runId, e.sequence)).Nodup ∧ (t.outbox.map (·.id)).Nodup
      ∧ (t.outbox.map (·.dedupeKey)).Nodup ∧ (t.invocations.map (·.id)).Nodup
      ∧ (t.invocations.map callIdentity).Nodup
      ∧ (∀ m ∈ t.messages, ∃ c ∈ t.conversations, c.id = m.conversationId)
      ∧ (∀ r ∈ t.responseRuns, ∃ m ∈ t.messages, m.id = r.messageId)
      ∧ (∀ r ∈ t.runs, ∃ p ∈ t.responseRuns, p.id = r.responseRunId)
      ∧ (∀ s ∈ t.steps, ∃ r ∈ t.runs, r.id = s.runId)
      ∧ (∀ a ∈ t.attempts, ∃ s ∈ t.steps, s.id = a.stepId)
      ∧ (∀ i ∈ t.invocations, (∃ r ∈ t.runs, r.id = i.runId) ∧
          (∃ s ∈ t.steps, s.id = i.stepId) ∧ ∃ a ∈ t.attempts, a.id = i.attemptId))
    ⟨fun ⟨a, b, c, d, e, f, g, h, i, j, k, l, m, n, o, p, q, r, s, u, v, x, y⟩ =>
      ⟨a, b, c, d, e, f, g, h, i, j, k, l, m, n, o, p, q, r, s, u, v, x, y⟩,
     fun ⟨a, b, c, d, e, f, g, h, i, j, k, l, m, n, o, p, q, r, s, u, v, x, y⟩ =>
      ⟨a, b, c, d, e, f, g, h, i, j, k, l, m, n, o, p, q, r, s, u, v, x, y⟩⟩

end Tables

/-- A committed database: rows that meet every constraint. -/
structure Db extends Tables where
  /-- No constraint is broken. -/
  valid : toTables.Valid

/-- The database before the first row. -/
def Db.empty : Db := ⟨{}, by decide⟩

/-! ## Units of work -/

/--
What a transaction reads from outside the database: the identifiers it is handed
out, the service clock when the operation starts and when the completion hook
runs, and the database's transaction timestamp. Nothing relates them.
-/
structure Env where
  ids : Nat → Uuid
  now : Time
  hookNow : Time
  dbNow : Time

/-- A transaction in progress: the rows its queries see and the rows it has staged. -/
structure Uow where
  tables : Tables
  newSteps : List SearchStep := []
  newAttempts : List StepAttempt := []
  newEvents : List RunEvent := []
  newOutbox : List OutboxMessage := []
  newInvocations : List ModelInvocationRecord := []
  /-- How many identifiers the transaction has drawn. -/
  drawn : Nat := 0

namespace Uow

/-- Open a transaction. -/
def begin (db : Db) : Uow := { tables := db.toTables }

/-- `new_uuid`. -/
def newUuid (env : Env) (u : Uow) : Uuid × Uow := (env.ids u.drawn, { u with drawn := u.drawn + 1 })

/-- A new row's timestamps are the database's. -/
def stamp (env : Env) (s : SearchStep) : SearchStep :=
  { s with createdAt := env.dbNow, updatedAt := env.dbNow }

/-- The tables with the staged rows inserted. -/
def flushed (env : Env) (u : Uow) : Tables :=
  { u.tables with
    steps := u.tables.steps ++ u.newSteps.map (stamp env)
    attempts := u.tables.attempts ++ u.newAttempts
    events := u.tables.events ++ u.newEvents
    outbox := u.tables.outbox ++ u.newOutbox
    invocations := u.tables.invocations ++ u.newInvocations }

/-- `commit`: insert the staged rows, then let the database check its constraints. -/
def commit (env : Env) (u : Uow) : Except Exn Db :=
  if h : (u.flushed env).Valid then .ok ⟨u.flushed env, h⟩ else .error (.integrity "constraint")

end Uow

/-! ## Repositories -/

/-- The columns `SqlRunRepository.save` writes. -/
def SearchRun.writeTo (run row : SearchRun) : SearchRun :=
  { row with
    routing := run.routing, budget := run.budget, status := run.status
    answerQuality := run.answerQuality, stopReason := run.stopReason, usage := run.usage
    startedAt := run.startedAt, completedAt := run.completedAt, version := run.version }

/-- The columns `SqlStepRepository.save` writes. -/
def SearchStep.writeTo (dbNow : Time) (step row : SearchStep) : SearchStep :=
  { row with
    status := step.status, outputRef := step.outputRef, retryAt := step.retryAt
    version := step.version, updatedAt := dbNow }

/-- The columns `SqlAttemptRepository.complete` writes. -/
def StepAttempt.writeTo (attempt row : StepAttempt) : StepAttempt :=
  { row with
    leasedUntil := attempt.leasedUntil, completedAt := attempt.completedAt
    error := attempt.error, outputRef := attempt.outputRef }

/-- The column `SqlAttemptRepository.renew` writes. -/
def StepAttempt.writeLeaseTo (attempt row : StepAttempt) : StepAttempt :=
  { row with leasedUntil := attempt.leasedUntil }

namespace Tables

variable (t : Tables)

/-- `SqlRunRepository.get_for_update`. -/
def getRun (id : Uuid) : Except Exn (Option SearchRun) :=
  match lookup (·.id) id t.runs with
  | none => .ok none
  | some r => do return some (← r.rehydrate)

/-- `SqlStepRepository.get_for_update`. -/
def getStep (id : Uuid) : Except Exn (Option SearchStep) :=
  match lookup (·.id) id t.steps with
  | none => .ok none
  | some r => do return some (← r.rehydrate)

/-- `SqlRunRepository.save`: one row with the loaded version, or a concurrent change. -/
def saveRun (run : SearchRun) : Except Exn Tables := do
  check (t.runs.countP (fun r => r.id = run.id && r.version = run.persistedVersion) = 1)
    (.invariant "Search run was modified concurrently" "optimistic_lock_failed")
  return { t with runs := update (·.id) run.id run.writeTo t.runs }

/-- `SqlStepRepository.save`. -/
def saveStep (dbNow : Time) (step : SearchStep) : Except Exn Tables := do
  check (t.steps.countP (fun r => r.id = step.id && r.version = step.persistedVersion) = 1)
    (.invariant "Search step was modified concurrently" "optimistic_lock_failed")
  return { t with steps := update (·.id) step.id (SearchStep.writeTo dbNow step) t.steps }

/-- The attempts of one step. -/
def attemptsOf (stepId : Uuid) : List StepAttempt := t.attempts.filter (·.stepId = stepId)

/-- `max(attempt_no)` of a step, zero where it has none. -/
def latestAttemptNo (stepId : Uuid) : Nat := ((t.attemptsOf stepId).map (·.attemptNo)).foldr max 0

/-- `SqlAttemptRepository.next_attempt_no`. -/
def nextAttemptNo (stepId : Uuid) : Nat := t.latestAttemptNo stepId + 1

/-- `SqlAttemptRepository.complete`. -/
def completeAttempt (attempt : StepAttempt) : Except Exn Tables := do
  check attempt.isComplete
    (.invariant "Cannot persist an incomplete attempt as completed" "attempt_not_complete")
  check (t.attempts.countP (fun r => r.id = attempt.id && r.completedAt.isNone) = 1)
    (.invariant "Attempt was already finalized or does not exist" "attempt_finalize_conflict")
  return { t with attempts := update (·.id) attempt.id attempt.writeTo t.attempts }

/-- `SqlAttemptRepository.renew`. -/
def renewAttempt (attempt : StepAttempt) : Except Exn Tables := do
  check (!attempt.isComplete)
    (.invariant "Cannot renew a completed attempt" "attempt_already_complete")
  check (t.attempts.countP (fun r => r.id = attempt.id && r.leaseOwner = attempt.leaseOwner
      && r.completedAt.isNone && r.leasedUntil < attempt.leasedUntil) = 1)
    (.invariant "Attempt lease could not be renewed" "attempt_lease_renewal_conflict")
  return { t with attempts := update (·.id) attempt.id attempt.writeLeaseTo t.attempts }

/-- `SqlRunEventRepository.next_sequence`. -/
def nextSequence (runId : Uuid) : Nat :=
  ((t.events.filter (·.runId = runId)).map (·.sequence)).foldr max 0 + 1

/-- `(created_at, id)`, the order `_step_rows` asks for. -/
def stepBefore (a b : SearchStep) : Prop :=
  a.createdAt < b.createdAt ∨ (a.createdAt = b.createdAt ∧ a.id.le b.id = true)

instance : DecidableRel stepBefore := fun _ _ => inferInstanceAs (Decidable (_ ∨ _))

/-- `_step_rows`: the rows of a run in creation order. -/
def stepRows (runId : Uuid) : List SearchStep :=
  (t.steps.filter (·.runId = runId)).insertionSort stepBefore

@[simp] theorem mem_stepRows {runId : Uuid} {s : SearchStep} :
    s ∈ t.stepRows runId ↔ s ∈ t.steps ∧ s.runId = runId := by
  simp [stepRows, List.mem_insertionSort]

end Tables

end Sana.Orchestration
