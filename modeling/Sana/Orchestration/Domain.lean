import Sana.Shared.Basic

/-!
# Runs, steps and attempts

The pure domain state of a resumable search workflow: a `SearchRun` is advanced
by `SearchStep`s, and each execution of a step is a `StepAttempt` under a lease.
Every status change goes through a transition table, so an operation called in
the wrong state raises rather than corrupting the aggregate.

The database row and the aggregate rehydrated from it are one structure here.
`persistedVersion` is the version the row had when it was loaded; `save` compares
it with the row, which is the optimistic lock.
-/

namespace Sana.Orchestration

open Sana.Lib

/-! ## Vocabulary -/

/-- `SearchMode`. -/
inductive SearchMode
  | fast | research
deriving DecidableEq, Repr

def SearchMode.value : SearchMode → String
  | .fast => "FAST"
  | .research => "RESEARCH"

/-- `RunStatus`. -/
inductive RunStatus
  | queued | running | waiting | succeeded | failed | cancelled
deriving DecidableEq, Repr

def RunStatus.value : RunStatus → String
  | .queued => "QUEUED"
  | .running => "RUNNING"
  | .waiting => "WAITING"
  | .succeeded => "SUCCEEDED"
  | .failed => "FAILED"
  | .cancelled => "CANCELLED"

/-- The run has ended. -/
def RunStatus.isTerminal : RunStatus → Bool
  | .succeeded | .failed | .cancelled => true
  | .queued | .running | .waiting => false

/-- `AnswerQuality`. -/
inductive AnswerQuality
  | complete | partialAnswer | none
deriving DecidableEq, Repr

/-- `StopReason`. -/
inductive StopReason
  | factsCovered | timeBudget | insufficientEvidence | providerFailure | policyBlocked
  | userCancelled | infrastructureFailure
deriving DecidableEq, Repr

/-- `StepStatus`. -/
inductive StepStatus
  | ready | running | retryWait | succeeded | failed | skipped | cancelled
deriving DecidableEq, Repr

def StepStatus.value : StepStatus → String
  | .ready => "READY"
  | .running => "RUNNING"
  | .retryWait => "RETRY_WAIT"
  | .succeeded => "SUCCEEDED"
  | .failed => "FAILED"
  | .skipped => "SKIPPED"
  | .cancelled => "CANCELLED"

/-- The coordinator's `_TERMINAL` set. -/
def StepStatus.isTerminal : StepStatus → Bool
  | .succeeded | .failed | .skipped | .cancelled => true
  | .ready | .running | .retryWait => false

/-- `StepType`. -/
inductive StepType
  | route | plan | discovery | select | fetch | extract | verify | synthesize | complete
deriving DecidableEq, Repr

def StepType.value : StepType → String
  | .route => "ROUTE"
  | .plan => "PLAN"
  | .discovery => "DISCOVERY"
  | .select => "SELECT"
  | .fetch => "FETCH"
  | .extract => "EXTRACT"
  | .verify => "VERIFY"
  | .synthesize => "SYNTHESIZE"
  | .complete => "COMPLETE"

/-- `_RUN_TRANSITIONS`. -/
def RunStatus.transitions : RunStatus → List RunStatus
  | .queued => [.running, .failed, .cancelled]
  | .running => [.waiting, .succeeded, .failed, .cancelled]
  | .waiting => [.running, .failed, .cancelled]
  | .succeeded | .failed | .cancelled => []

/-- `_STEP_TRANSITIONS`. -/
def StepStatus.transitions : StepStatus → List StepStatus
  | .ready => [.running, .skipped, .cancelled]
  | .running => [.ready, .retryWait, .succeeded, .failed, .cancelled]
  | .retryWait => [.ready, .failed, .cancelled]
  | .succeeded | .failed | .skipped | .cancelled => []

/-- `assert_transition`. -/
def assertTransition {σ : Type} [DecidableEq σ] (value : σ → String) (current target : σ)
    (allowed : σ → List σ) (entity : String) : Except Exn Unit :=
  check (decide (target ∈ allowed current))
    (.invariant ("Illegal " ++ entity ++ " transition: " ++ value current ++ " -> " ++ value target)
      "illegal_state_transition")

/-- `BudgetPhase`. -/
inductive BudgetPhase
  | routePlan | discovery | fetchExtract | verify | synthesize
deriving DecidableEq, Repr

def BudgetPhase.value : BudgetPhase → String
  | .routePlan => "route_plan"
  | .discovery => "discovery"
  | .fetchExtract => "fetch_extract"
  | .verify => "verify"
  | .synthesize => "synthesize"

/-! ## Artifacts -/

/-- `ArtifactRef`: the address of an immutable payload. -/
structure ArtifactRef where
  uri : String
  sha256 : String
deriving DecidableEq, Repr

/-- One planned query, as the plan payload carries it. -/
structure PlannedQuery where
  key : String
  /-- The query's own providers; the plan's apply where it names none. -/
  providers : Option (List String)
deriving DecidableEq, Repr

/-- One fact of the plan payload. -/
structure PlannedFact where
  id : String
  required : Bool
deriving DecidableEq, Repr

/-- One selected search hit. -/
structure Hit where
  id : String
  provider : String
  factIds : List String
  factId : Option String
deriving DecidableEq, Repr

/--
The payload of a step's output artifact, restricted to what the completion
coordinator reads. Each kind of step writes some of these members; the defaults
are the ones `payload.get` is given.
-/
structure Payload where
  queries : List PlannedQuery := []
  providers : List String := []
  facts : List PlannedFact := []
  selected : List Hit := []
  planRef : Option ArtifactRef := none
  hit : Option Hit := none
  providerFailures : Int := 0
  answer : Option String := none
  quality : Option AnswerQuality := none
  stopReason : Option StopReason := none
deriving DecidableEq, Repr

/-- The document `_maybe_synthesize` puts for the synthesis step. -/
structure SynthesisInput where
  planRef : ArtifactRef
  verifyRef : Option ArtifactRef
  providerFailures : Int
  pipelineDegradationCodes : List String
deriving DecidableEq, Repr

/--
A step's input. The coordinator either passes on the address of an earlier
output or puts a document of its own; a document it puts stands here for the
address of that document, which is content-addressed.
-/
inductive StepInput
  | artifact (ref : ArtifactRef)
  | discovery (planRef : ArtifactRef) (query : PlannedQuery) (providers : List String)
  | selection (planRef : ArtifactRef) (discoveryRefs : List ArtifactRef)
  | fetch (planRef : ArtifactRef) (hit : Hit)
  | verify (planRef : ArtifactRef) (extractRefs : List ArtifactRef)
  | synthesis (input : SynthesisInput)
deriving DecidableEq, Repr

/-! ## Budgets -/

/-- `RoutingDecision`. -/
structure RoutingDecision where
  mode : SearchMode
  reasonCodes : List String
  policyVersion : String
deriving DecidableEq, Repr

/-- `BudgetSnapshot`, with the checks of its constructor. -/
structure BudgetSnapshot where
  policyVersion : String
  createdAt : Time
  softDeadlineAt : Time
  hardDeadlineAt : Time
  synthesisReserve : Duration
  maxQueries : Nat
  maxProviders : Nat
  maxFetches : Nat
  maxLlmCalls : Nat
  maxExpansionRounds : Nat
  phaseSeconds : List (String × Duration)
  /-- Deadlines are ordered from creation to the hard stop. -/
  ordered : createdAt ≤ softDeadlineAt ∧ softDeadlineAt ≤ hardDeadlineAt
  reserve_pos : 0 < synthesisReserve
deriving DecidableEq, Repr

/-- `ModePolicy`. -/
structure ModePolicy where
  softSeconds : Duration
  hardSeconds : Duration
  synthesisReserve : Duration
  maxQueries : Nat
  maxProviders : Nat
  maxFetches : Nat
  maxLlmCalls : Nat
  maxExpansionRounds : Nat
  phaseSeconds : List (String × Duration)
deriving DecidableEq, Repr

/-- `SearchPolicy`. -/
structure SearchPolicy where
  version : String
  fast : ModePolicy
  research : ModePolicy
deriving DecidableEq, Repr

/-- `SearchPolicy.snapshot`. -/
def SearchPolicy.snapshot (p : SearchPolicy) (mode : SearchMode) (createdAt : Time) :
    Except Exn BudgetSnapshot :=
  let selected := match mode with
    | .fast => p.fast
    | .research => p.research
  let soft := createdAt + selected.softSeconds
  let hard := createdAt + selected.hardSeconds
  if h : (createdAt ≤ soft ∧ soft ≤ hard) ∧ 0 < selected.synthesisReserve then
    .ok {
      policyVersion := p.version, createdAt, softDeadlineAt := soft, hardDeadlineAt := hard
      synthesisReserve := selected.synthesisReserve, maxQueries := selected.maxQueries
      maxProviders := selected.maxProviders, maxFetches := selected.maxFetches
      maxLlmCalls := selected.maxLlmCalls, maxExpansionRounds := selected.maxExpansionRounds
      phaseSeconds := selected.phaseSeconds, ordered := h.1, reserve_pos := h.2 }
  else .error (.valueError "Budget deadlines must be ordered from creation to hard stop")

/-- `SearchPolicy.default`. -/
def SearchPolicy.default : SearchPolicy where
  version := "search-v12"
  fast := {
    softSeconds := seconds 14, hardSeconds := seconds 15, synthesisReserve := seconds 1
    maxQueries := 4, maxProviders := 2, maxFetches := 4, maxLlmCalls := 4
    maxExpansionRounds := 1
    phaseSeconds := [("route_plan", 1200000), ("discovery", 4200000),
      ("fetch_extract", 3600000), ("verify", 2000000), ("synthesize", 1000000)] }
  research := {
    softSeconds := seconds 120, hardSeconds := seconds 120, synthesisReserve := seconds 8
    maxQueries := 12, maxProviders := 4, maxFetches := 12, maxLlmCalls := 8
    maxExpansionRounds := 2
    phaseSeconds := [("route_plan", 4000000), ("discovery", 28000000),
      ("fetch_extract", 52000000), ("verify", 20000000), ("synthesize", 8000000)] }

/-- `BudgetGuard.deadline_for`: synthesis may use the reserve, everything else ends before it. -/
def BudgetSnapshot.deadlineFor (b : BudgetSnapshot) : BudgetPhase → Time
  | .synthesize => b.hardDeadlineAt
  | .routePlan | .discovery | .fetchExtract | .verify => b.softDeadlineAt - b.synthesisReserve

/-- `BudgetUsage`. -/
structure BudgetUsage where
  queryCount : Nat := 0
  providerCount : Nat := 0
  fetchCount : Nat := 0
  llmCallCount : Nat := 0
  promptTokenCount : Nat := 0
  completionTokenCount : Nat := 0
  expansionRounds : Nat := 0
  phaseSeconds : List (String × Nat) := []
deriving DecidableEq, Repr

/-- Add to one entry of a mapping, creating it at zero. -/
def addPhase (phase : String) (elapsed : Nat) : List (String × Nat) → List (String × Nat)
  | [] => [(phase, elapsed)]
  | (p, n) :: rest => if p = phase then (p, n + elapsed) :: rest
      else (p, n) :: addPhase phase elapsed rest

/-- `StepBudgetCost`: what a step reports it used. -/
structure StepBudgetCost where
  phase : BudgetPhase
  queries : Nat := 0
  providers : Nat := 0
  fetches : Nat := 0
deriving DecidableEq, Repr

/--
`StepBudgetCost.apply`. Model calls are counted by the audit sink when they are
made, so a step's completion adds none.
-/
def StepBudgetCost.apply (c : StepBudgetCost) (u : BudgetUsage) (elapsed : Nat) : BudgetUsage :=
  { u with
    queryCount := u.queryCount + c.queries
    providerCount := u.providerCount + c.providers
    fetchCount := u.fetchCount + c.fetches
    phaseSeconds := addPhase c.phase.value elapsed u.phaseSeconds }

/-! ## Runs -/

/-- An `InvariantViolation` with the default code. -/
def violation (message : String) : Exn := .invariant message "invariant_violation"

/-- `SearchRun`. -/
structure SearchRun where
  id : Uuid
  conversationId : Uuid
  messageId : Uuid
  responseRunId : Uuid
  routing : RoutingDecision
  budget : BudgetSnapshot
  status : RunStatus := .queued
  answerQuality : AnswerQuality := .none
  stopReason : Option StopReason := none
  usage : BudgetUsage := {}
  startedAt : Option Time := none
  completedAt : Option Time := none
  version : Nat := 0
  persistedVersion : Nat := 0
deriving DecidableEq, Repr

namespace SearchRun

variable (run : SearchRun)

def isTerminal : Bool := run.status.isTerminal

def mode : SearchMode := run.routing.mode

/-- `_validate_loaded_state`: what a persisted run must look like to be loaded. -/
def validateLoadedState : Except Exn Unit :=
  match run.status with
  | .succeeded => do
      check (run.answerQuality ≠ .none && run.stopReason.isSome)
        (violation "Persisted successful run has no answer outcome")
      check (!(run.answerQuality = .complete && run.stopReason ≠ some .factsCovered))
        (violation "Persisted complete run has an invalid stop reason")
      check (!(run.answerQuality = .partialAnswer && run.stopReason = some .factsCovered))
        (violation "Persisted partial run has an invalid stop reason")
  | .cancelled =>
      check (run.stopReason = some .userCancelled)
        (violation "Persisted cancelled run has an invalid stop reason")
  | .failed =>
      check (run.answerQuality = .none && run.stopReason.isSome)
        (violation "Persisted failed run has an invalid answer outcome")
  | .queued | .running | .waiting =>
      check (run.answerQuality = .none && run.stopReason = none)
        (violation "Non-terminal run cannot have a final answer outcome")

/-- `run_from_record` / `SearchRun.rehydrate`. -/
def rehydrate : Except Exn SearchRun := do
  check (run.routing.policyVersion = run.budget.policyVersion)
    (.valueError "Routing and budget policy versions must match")
  run.validateLoadedState
  return { run with persistedVersion := run.version }

/-- `_transition`. -/
def transition (target : RunStatus) : Except Exn SearchRun := do
  assertTransition RunStatus.value run.status target RunStatus.transitions "search_run"
  return { run with status := target, version := run.version + 1 }

def start (at' : Time) : Except Exn SearchRun := do
  let run ← run.transition .running
  return { run with startedAt := run.startedAt <|> some at' }

def resume : Except Exn SearchRun := run.transition .running

/-- `record_usage`: counters never decrease. -/
def recordUsage (usage : BudgetUsage) : Except Exn SearchRun := do
  check (!run.isTerminal)
    (violation "Cannot update usage for a terminal run")
  check (run.usage.queryCount ≤ usage.queryCount && run.usage.providerCount ≤ usage.providerCount
      && run.usage.fetchCount ≤ usage.fetchCount && run.usage.llmCallCount ≤ usage.llmCallCount
      && run.usage.promptTokenCount ≤ usage.promptTokenCount
      && run.usage.completionTokenCount ≤ usage.completionTokenCount
      && run.usage.expansionRounds ≤ usage.expansionRounds)
    (violation "Run usage counters cannot decrease")
  return { run with usage, version := run.version + 1 }

def succeed (quality : AnswerQuality) (reason : StopReason) (at' : Time) :
    Except Exn SearchRun := do
  check (quality ≠ .none) (violation "A successful run must contain an answer")
  check (!(quality = .complete && reason ≠ .factsCovered))
    (violation "A complete answer must stop because facts are covered")
  check (!(quality = .partialAnswer && reason = .factsCovered))
    (violation "A partial answer cannot claim all facts are covered")
  check (reason ≠ .userCancelled)
    (violation "A successful run cannot be user-cancelled")
  let run ← run.transition .succeeded
  return { run with answerQuality := quality, stopReason := some reason, completedAt := some at' }

def fail (reason : StopReason) (at' : Time) : Except Exn SearchRun := do
  check (reason ≠ .factsCovered && reason ≠ .userCancelled)
    (violation "Failure stop reason is inconsistent")
  let run ← run.transition .failed
  return { run with answerQuality := .none, stopReason := some reason, completedAt := some at' }

def cancel (at' : Time) : Except Exn SearchRun := do
  let run ← run.transition .cancelled
  return { run with
    answerQuality := .none, stopReason := some .userCancelled, completedAt := some at' }

end SearchRun

/-! ## Steps -/

/-- `SearchStep`, with the row's timestamps. -/
structure SearchStep where
  id : Uuid
  runId : Uuid
  stepKey : String
  stepType : StepType
  planRevision : Nat
  input : StepInput
  status : StepStatus := .ready
  outputRef : Option ArtifactRef := none
  retryAt : Option Time := none
  version : Nat := 0
  persistedVersion : Nat := 0
  createdAt : Time := 0
  updatedAt : Time := 0
deriving DecidableEq, Repr

namespace SearchStep

variable (step : SearchStep)

/-- The step will not run again. -/
def isTerminal : Bool := step.status.isTerminal

/-- `step_from_record` / `SearchStep.rehydrate`: a step has an output exactly when it succeeded. -/
def rehydrate : Except Exn SearchStep := do
  check (!(step.status = .succeeded && step.outputRef.isNone))
    (violation "Persisted successful step has no output")
  check (!(step.status ≠ .succeeded && step.outputRef.isSome))
    (violation "Only a successful step may have an output")
  return { step with persistedVersion := step.version }

/-- `_transition`. -/
def transition (target : StepStatus) : Except Exn SearchStep := do
  assertTransition StepStatus.value step.status target StepStatus.transitions "search_step"
  return { step with status := target, version := step.version + 1 }

def start : Except Exn SearchStep := do
  let step ← step.transition .running
  return { step with retryAt := none }

def releaseExpiredLease : Except Exn SearchStep := step.transition .ready

def retryLater (retryAt : Time) : Except Exn SearchStep := do
  let step ← step.transition .retryWait
  return { step with retryAt := some retryAt }

def makeReady : Except Exn SearchStep := do
  let step ← step.transition .ready
  return { step with retryAt := none }

def succeed (outputRef : ArtifactRef) : Except Exn SearchStep := do
  check step.outputRef.isNone
    (violation "Successful step output is immutable")
  let step ← step.transition .succeeded
  return { step with outputRef := some outputRef }

def fail : Except Exn SearchStep := step.transition .failed

def cancel : Except Exn SearchStep := step.transition .cancelled

end SearchStep

/-! ## Attempts -/

/-- `StepAttempt`. -/
structure StepAttempt where
  id : Uuid
  runId : Uuid
  stepId : Uuid
  attemptNo : Nat
  leaseOwner : String
  leasedUntil : Time
  deadlineAt : Time
  startedAt : Time
  input : StepInput
  completedAt : Option Time := none
  outputRef : Option ArtifactRef := none
  error : Option TypedError := none
deriving DecidableEq, Repr

namespace StepAttempt

variable (attempt : StepAttempt)

def isComplete : Bool := attempt.completedAt.isSome

/-- `idempotency_key`. -/
def idempotencyKey : String := attempt.stepId.str ++ ":" ++ toString attempt.attemptNo

/-- `renew_lease`. -/
def renewLease (leasedUntil : Time) : Except Exn StepAttempt := do
  check (!attempt.isComplete)
    (violation "Cannot renew a completed attempt lease")
  check (attempt.leasedUntil < leasedUntil)
    (violation "Renewed lease must extend the current lease")
  check (leasedUntil ≤ attempt.deadlineAt)
    (violation "Attempt lease cannot extend beyond its deadline")
  return { attempt with leasedUntil }

/-- `_finish`. -/
def finish (at' : Time) : Except Exn StepAttempt := do
  check (!attempt.isComplete) (violation "Attempt has already completed")
  check (attempt.startedAt ≤ at')
    (violation "Attempt cannot complete before it starts")
  return { attempt with completedAt := some at' }

def succeed (outputRef : ArtifactRef) (at' : Time) : Except Exn StepAttempt := do
  let attempt ← attempt.finish at'
  return { attempt with outputRef := some outputRef }

def fail (error : TypedError) (at' : Time) : Except Exn StepAttempt := do
  let attempt ← attempt.finish at'
  return { attempt with error := some error }

end StepAttempt

/-! ## Leases -/

/-- `LeaseService.claim`: start the step and open its next attempt. -/
def LeaseService.claim (leaseSeconds : Duration) (step : SearchStep) (id : Uuid)
    (attemptNo : Nat) (workerId : String) (now deadlineAt : Time) :
    Except Exn (SearchStep × StepAttempt) := do
  check (step.status = .ready)
    (violation "Only a READY step can be leased")
  check (now < deadlineAt)
    (violation "Cannot lease a step past its deadline")
  let step ← step.start
  -- the attempt's own constructor checks
  check (!Text.isBlank workerId) (.valueError "lease_owner cannot be empty")
  let leasedUntil := min deadlineAt (now + leaseSeconds)
  check (now < leasedUntil) (.valueError "leased_until must be after started_at")
  return (step, {
    id, runId := step.runId, stepId := step.id, attemptNo, leaseOwner := workerId, leasedUntil
    deadlineAt, startedAt := now, input := step.input })

/-- What a worker holds after a successful claim. -/
structure ClaimedStep where
  attempt : StepAttempt
  /-- The context the operation runs in: which step of which run, and its deadline. -/
  runId : Uuid
  stepId : Uuid
  deadlineAt : Time
deriving DecidableEq, Repr

/-- `ExecutionDisposition`. -/
inductive Disposition
  | claimed | ignored | succeeded | retryScheduled | failed | cancelled | stale
deriving DecidableEq, Repr

/-- `StepExecutionResult`. -/
structure StepExecutionResult where
  outputRef : ArtifactRef
  actualCost : StepBudgetCost
deriving DecidableEq, Repr

end Sana.Orchestration
