import Sana.Shadow.System

/-!
# What a report is decided on

A final report is bound to the hash of its decision input: the campaign, its results,
the reviews, the gold assertions and the model invocations of its runs, as the binding
transaction reads them. A collected result also brings the digest of its source as it is
now, which `SqlShadowSnapshotReader` reads from the tables of the service again.

Both hashes are parameters. The lineage of a run is left out of its source: only the
successes of the run's own steps write it. So are the columns of a campaign that are
written once, when it is created, and that nothing in the model reads.
-/

namespace Sana.Shadow

open Sana.Lib

/-! ## The source of a result -/

/-- `SourceStep`. -/
structure SourceStep where
  id : Uuid
  stepKey : String
  stepType : Orchestration.StepType
  planRevision : Nat
  status : Orchestration.StepStatus
  outputBound : Bool
deriving DecidableEq, Repr

/-- `SourceAttempt`. -/
structure SourceAttempt where
  id : Uuid
  stepId : Uuid
  attemptNo : Nat
  startedAt : Time
  completedAt : Option Time
  errorType : Option String
deriving DecidableEq, Repr

/-- `SourceInvocation`. -/
structure SourceInvocation where
  id : Uuid
  stepId : Uuid
  attemptId : Uuid
  role : ModelGateway.ModelRole
  provider : String
  model : String
  callNo : Nat
  status : ModelGateway.ModelInvocationStatus
  billingDisposition : ModelGateway.BillingDisposition
  providerCalled : Bool
  promptTokens : Nat
  completionTokens : Nat
  startedAt : Time
  completedAt : Option Time
  errorCategory : Option String
deriving DecidableEq, Repr

/-- `SourceOutbox`. -/
structure SourceOutbox where
  id : Uuid
  aggregateType : String
  aggregateId : Uuid
  eventType : String
  createdAt : Time
  publishedAt : Option Time
deriving DecidableEq, Repr

/-- `RunSourceSnapshot`, the fields that are digested. -/
structure RunSourceSnapshot where
  runId : Uuid
  conversationId : Uuid
  responseRunId : Uuid
  responseStatus : Orchestration.ResponseStatus
  outputMessageId : Option Uuid
  mode : Orchestration.SearchMode
  status : Orchestration.RunStatus
  answerQuality : Orchestration.AnswerQuality
  stopReason : Option Orchestration.StopReason
  hardDeadlineAt : Time
  completedAt : Option Time
  version : Nat
  budgetMaxLlmCalls : Nat
  recordedLlmCallCount : Nat
  recordedPromptTokens : Nat
  recordedCompletionTokens : Nat
  steps : List SourceStep
  attempts : List SourceAttempt
  invocations : List SourceInvocation
  outbox : List SourceOutbox
deriving DecidableEq, Repr

def SourceStep.of (s : Orchestration.SearchStep) : SourceStep :=
  ⟨s.id, s.stepKey, s.stepType, s.planRevision, s.status, s.outputRef.isSome⟩

def SourceAttempt.of (a : Orchestration.StepAttempt) : SourceAttempt :=
  ⟨a.id, a.stepId, a.attemptNo, a.startedAt, a.completedAt, a.error.map (·.category.value)⟩

def SourceInvocation.of (i : Orchestration.ModelInvocationRecord) : SourceInvocation :=
  ⟨i.id, i.stepId, i.attemptId, i.role, i.provider, i.model, i.callNo, i.status,
    i.billingDisposition, i.providerCalled, i.promptTokens, i.completionTokens, i.startedAt,
    i.completedAt, i.errorCategory⟩

def SourceOutbox.of (o : Orchestration.OutboxMessage) : SourceOutbox :=
  ⟨o.id, o.aggregateType, o.aggregateId, o.eventType, o.createdAt, o.publishedAt⟩

/-- `sorted(items, key=lambda value: str(value.id))`. -/
def sortedById {α : Type} (id : α → Uuid) (items : List α) : List α :=
  items.mergeSort fun a b => (id a).le (id b)

/-- `aggregate_ids`: the run, its response and its steps. -/
def aggregateIds (t : Orchestration.Tables) (run : Orchestration.SearchRun) : List Uuid :=
  run.id :: run.responseRunId :: (t.steps.filter (·.runId = run.id)).map (·.id)

/-- The snapshot of a run and its response. -/
def sourceSnapshot (t : Orchestration.Tables) (run : Orchestration.SearchRun)
    (response : Orchestration.ResponseRun) : RunSourceSnapshot where
  runId := run.id
  conversationId := run.conversationId
  responseRunId := run.responseRunId
  responseStatus := response.status
  outputMessageId := response.outputMessageId
  mode := run.mode
  status := run.status
  answerQuality := run.answerQuality
  stopReason := run.stopReason
  hardDeadlineAt := run.budget.hardDeadlineAt
  completedAt := run.completedAt
  version := run.version
  budgetMaxLlmCalls := run.budget.maxLlmCalls
  recordedLlmCallCount := run.usage.llmCallCount
  recordedPromptTokens := run.usage.promptTokenCount
  recordedCompletionTokens := run.usage.completionTokenCount
  steps := sortedById (·.id) ((t.steps.filter (·.runId = run.id)).map .of)
  attempts := sortedById (·.id) ((t.attempts.filter (·.runId = run.id)).map .of)
  invocations := sortedById (·.id) ((t.invocations.filter (·.runId = run.id)).map .of)
  outbox := sortedById (·.id)
    ((t.outbox.filter (·.aggregateId ∈ aggregateIds t run)).map .of)

/-- `SqlShadowSnapshotReader.read`, on the row of a collected result. -/
def readSource (t : Orchestration.Tables) (r : RunResult) (conversationId runId : Uuid) :
    Except Exn RunSourceSnapshot := do
  check r.collectorLeaseOwner.isNone
    (.invariant "Collector source binding is no longer authoritative"
      "collector_source_binding_changed")
  let found := (lookup (·.id) runId t.runs).bind fun run =>
    (lookup (·.id) run.responseRunId t.responseRuns).map fun response => (run, response)
  match found with
  | some (run, response) =>
      check (run.conversationId = conversationId)
        (.invariant "Collector SearchRun source is missing" "collector_source_missing")
      return sourceSnapshot t run response
  | none => .error (.invariant "Collector SearchRun source is missing" "collector_source_missing")

/-- `COLLECTOR_SCHEMA_VERSION`. -/
def collectorSchemaVersion : String := "shadow-collector-v2"

/-- `_digest_payload`: the source, and what was derived from it. -/
structure SourcePayload where
  schema : String
  source : RunSourceSnapshot
  queryPollutionCount : Nat
  traceabilityViolationCount : Nat
  goldAssertions : List GoldAssertion
  errorSignalFlags : List String
deriving DecidableEq, Repr

/-- `code` of an exception. -/
def exnCode : Exn → String
  | .invariant _ code => code
  | _ => "result_measurement_invalid"

/-- `_source_digests` for one result. `digest` is the SHA-256 of a payload. -/
def currentSourceDigest (digest : SourcePayload → String) (t : Orchestration.Tables)
    (r : RunResult) : Option String :=
  if r.schedulingState ≠ .collected then none
  else match r.conversationId, r.searchRunId, r.sourceTerminalAt, r.metrics,
      r.collectorSchemaVersion with
  | some conversationId, some runId, some _, some metrics, some schema =>
      match readSource t r conversationId runId with
      | .error e => some ("INVALID:" ++ exnCode e)
      | .ok source =>
          if schema ≠ collectorSchemaVersion then some "INVALID:collector_schema_version_mismatch"
          else some (digest {
            schema, source
            queryPollutionCount := metrics.queryPollutionCount
            traceabilityViolationCount := metrics.traceabilityViolationCount
            goldAssertions := metrics.goldAssertions.mergeSort fun a b =>
              decide (a.assertionId ≤ b.assertionId)
            -- the settlement raises this flag after the collector has sealed its digest
            errorSignalFlags := r.errorSignalFlags.filter (· ≠ "budget_violation") })
  | _, _, _, _, _ => some "INVALID:result_measurement_incomplete"

/-! ## The decision input -/

/-- `campaign_payload`: neither the status nor the gate is decided on. -/
structure CampaignPayload where
  stopIntent : StopIntent
  stopReason : Option String
  costRate : CostRate
  collectorSchemaVersion : String
  reviewRubricVersion : String
  candidateSourceClean : Bool
  harnessSourceClean : Bool
  maxRuns : Nat
  maxConcurrency : Nat
  limits : Limits
  reviewDeadlineAt : Option Time
  counts : Counts
  ledger : Ledger
deriving DecidableEq, Repr

def Campaign.payload (c : Campaign) : CampaignPayload where
  stopIntent := c.stopIntent
  stopReason := c.stopReason
  costRate := c.costRate
  collectorSchemaVersion := c.collectorSchemaVersion
  reviewRubricVersion := c.reviewRubricVersion
  candidateSourceClean := c.candidateSourceClean
  harnessSourceClean := c.harnessSourceClean
  maxRuns := c.maxRuns
  maxConcurrency := c.maxConcurrency
  limits := c.limits
  reviewDeadlineAt := c.reviewDeadlineAt
  counts := c.counts
  ledger := c.ledger

/-- An element of `result_payload`. -/
structure ResultPayload where
  resultId : Uuid
  searchRunId : Option Uuid
  caseId : String
  repetition : Nat
  scheduleOrdinal : Nat
  manualReviewSelected : Bool
  schedulingState : SchedulingState
  submissionRequestHash : String
  /-- The measurements, without the gold assertions. -/
  metrics : Option Metrics
  modelCallCount : Nat
  promptTokens : Nat
  completionTokens : Nat
  estimatedCost : Nat
  degraded : Bool
  errorClass : Option ErrorClass
  errorCode : Option String
  failedPhase : Option String
  errorSignalFlags : List String
  stableSkipReason : Option String
  reservedProviderCalls : Nat
  reservedEstimatedCost : Nat
  reservationState : ReservationState
  settledObservedProviderCalls : Nat
  settledObservedCost : Nat
  possiblyBilledCallCharge : Nat
  possiblyBilledCostCharge : Nat
  budgetViolation : Bool
  sourceTerminalAt : Option Time
  sourceSnapshotDigest : Option String
  currentSourceDigest : Option String
  collectorSchemaVersion : Option String
deriving DecidableEq, Repr

/-- The element of a result, with the digest of its source as it is now. -/
def RunResult.payload (r : RunResult) (current : Option String) : ResultPayload where
  resultId := r.id
  searchRunId := r.searchRunId
  caseId := r.caseId
  repetition := r.repetition
  scheduleOrdinal := r.scheduleOrdinal
  manualReviewSelected := r.manualReviewSelected
  schedulingState := r.schedulingState
  submissionRequestHash := r.submissionRequestHash
  metrics := r.metrics.map ({ · with goldAssertions := [] })
  modelCallCount := r.modelCallCount
  promptTokens := r.promptTokens
  completionTokens := r.completionTokens
  estimatedCost := r.estimatedCost
  degraded := r.degraded
  errorClass := r.errorClass
  errorCode := r.errorCode
  failedPhase := r.failedPhase
  errorSignalFlags := r.errorSignalFlags
  stableSkipReason := r.stableSkipReason
  reservedProviderCalls := r.reservedProviderCalls
  reservedEstimatedCost := r.reservedEstimatedCost
  reservationState := r.reservationState
  settledObservedProviderCalls := r.settledObservedProviderCalls
  settledObservedCost := r.settledObservedCost
  possiblyBilledCallCharge := r.possiblyBilledCallCharge
  possiblyBilledCostCharge := r.possiblyBilledCostCharge
  budgetViolation := r.budgetViolation
  sourceTerminalAt := r.sourceTerminalAt
  sourceSnapshotDigest := r.sourceSnapshotDigest
  currentSourceDigest := current
  collectorSchemaVersion := r.collectorSchemaVersion

/-- An element of `review_payload`: not who has reviewed. -/
structure ReviewPayload where
  resultId : Uuid
  rubricVersion : String
  correctnessVerdict : ReviewVerdict
  citationRelevance : ReviewScore
  sourceAppropriateness : ReviewScore
  freshness : ReviewScore
  completeness : ReviewScore
  reasonCodes : List String
  actorType : ReviewActor
deriving DecidableEq, Repr

def Review.payload (v : Review) : ReviewPayload :=
  ⟨v.resultId, v.rubricVersion, v.correctnessVerdict, v.citationRelevance,
    v.sourceAppropriateness, v.freshness, v.completeness, v.reasonCodes, v.actorType⟩

/-- An element of `invocation_payload`. -/
structure InvocationPayload where
  invocationId : Uuid
  runId : Uuid
  status : ModelGateway.ModelInvocationStatus
  billingDisposition : ModelGateway.BillingDisposition
  providerCalled : Bool
  promptTokens : Nat
  completionTokens : Nat
  startedAt : Time
  completedAt : Option Time
  errorCategory : Option String
  errorCode : Option String
deriving DecidableEq, Repr

def InvocationPayload.of (i : Orchestration.ModelInvocationRecord) : InvocationPayload :=
  ⟨i.id, i.runId, i.status, i.billingDisposition, i.providerCalled, i.promptTokens,
    i.completionTokens, i.startedAt, i.completedAt, i.errorCategory, i.errorCode⟩

/-- `_decision_input`. -/
structure DecisionInput where
  campaignId : Uuid
  campaign : CampaignPayload
  results : List ResultPayload
  reviews : List ReviewPayload
  goldAssertions : List (Uuid × GoldAssertion)
  modelInvocations : List InvocationPayload
deriving DecidableEq, Repr

/-- The order by a column, and among equals by another. -/
def byKeys {α κ : Type} [DecidableEq κ] (key : α → κ) (le : κ → κ → Bool) (tie : α → α → Bool)
    (a b : α) : Bool :=
  if key a = key b then tie a b else le (key a) (key b)

/-- The results of a campaign, by `schedule_ordinal` and then by `id`. -/
def Tables.scheduledResults (t : Tables) (campaignId : Uuid) : List RunResult :=
  (t.resultsOf campaignId).mergeSort
    (byKeys (·.scheduleOrdinal) (fun a b => decide (a ≤ b)) fun a b => a.id.le b.id)

/-- `_snapshot`: the decision input as the rows are. -/
def decisionInput (digest : SourcePayload → String) (app : Orchestration.Tables) (t : Tables)
    (c : Campaign) : DecisionInput :=
  let results := t.scheduledResults c.id
  let runIds := results.filterMap (·.searchRunId)
  { campaignId := c.id
    campaign := c.payload
    results := results.map fun r => r.payload (currentSourceDigest digest app r)
    reviews := (c.reviews.mergeSort
      (byKeys (·.resultId) Uuid.le fun a b => a.id.le b.id)).map Review.payload
    goldAssertions := (results.flatMap fun r =>
        ((r.metrics.map (·.goldAssertions)).getD []).map fun g => (r.id, g)).mergeSort
      (byKeys (·.1) Uuid.le fun a b => decide (a.2.assertionId ≤ b.2.assertionId))
    modelInvocations := ((app.invocations.filter fun i => i.runId ∈ runIds).mergeSort
      (byKeys (·.runId) Uuid.le fun a b => a.id.le b.id)).map .of }

/-- The hashes: of a decision input, and of the source of a result. -/
structure Digests where
  decision : DecisionInput → String
  source : SourcePayload → String

/-- `decision_input_hash` of a campaign, computed from the rows as they are. -/
def World.decisionInputHash (w : World) (g : Digests) (c : Campaign) : String :=
  g.decision (decisionInput g.source w.app.db.toTables w.db.toTables c)

/-- A binding compares the report with the decision input it reads. -/
def Label.Reads (g : Digests) (w : World) : Label → Prop
  | .transact _ (.bindReport b current) => ∀ c ∈ w.db.campaigns, c.id = b.campaignId →
      current = w.decisionInputHash g c
  | _ => True

instance (g : Digests) (w : World) (label : Label) : Decidable (label.Reads g w) := by
  unfold Label.Reads
  split <;> infer_instance

end Sana.Shadow
