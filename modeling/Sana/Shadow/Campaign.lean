import Sana.Shadow.Domain
import Sana.Lib.Transition

/-!
# The campaign and its results

The rows of `shadow_campaigns` and `shadow_run_results`, and the lifecycle of a
campaign. The lifecycle object and the campaign row are one structure here: it is
loaded under the row lock and written back in the same transaction.
-/

namespace Sana.Shadow

open Sana.Lib

/-- `ReviewVerdict`. -/
inductive ReviewVerdict
  | correct | minorError | majorError | unreviewable
deriving DecidableEq, Repr

/-- `ReviewScore`. -/
inductive ReviewScore
  | pass | fail | notApplicable
deriving DecidableEq, Repr

/-- `ReviewActor`. -/
inductive ReviewActor
  | human | system
deriving DecidableEq, Repr

/-- `shadow_manual_reviews`. -/
structure Review where
  id : Uuid
  resultId : Uuid
  rubricVersion : String
  correctnessVerdict : ReviewVerdict
  citationRelevance : ReviewScore
  sourceAppropriateness : ReviewScore
  freshness : ReviewScore
  completeness : ReviewScore
  reasonCodes : List String
  actorType : ReviewActor
  reviewerUserId : Option Uuid
deriving DecidableEq, Repr

/--
The columns of a bound final report: all of them are set, or none (`final_report_binding`).
The references to the two artifacts spell out the campaign and their digests.
-/
structure FinalReport where
  decisionInputHash : String
  decisionHash : String
  jsonSha256 : String
  markdownSha256 : String
deriving DecidableEq, Repr

/-- `shadow_campaigns`, with the reviews of its results: both are written under its row's lock. -/
structure Campaign where
  id : Uuid
  createdByUserId : Uuid
  status : CampaignStatus := .created
  gateStatus : GateStatus := .pending
  stopIntent : StopIntent := .none
  stopReason : Option String := none
  costRate : CostRate
  collectorSchemaVersion : String
  reviewRubricVersion : String := "rubric"
  candidateSourceClean : Bool := true
  harnessSourceClean : Bool := true
  maxRuns : Nat
  maxConcurrency : Nat
  limits : Limits
  counts : Counts := {}
  ledger : Ledger := {}
  startedAt : Option Time := none
  reviewDeadlineAt : Option Time := none
  completedAt : Option Time := none
  finalReport : Option FinalReport := none
  reviews : List Review := []
  version : Nat := 0
deriving DecidableEq, Repr

/-- `GoldAssertionStatus`. -/
inductive GoldAssertionStatus
  | pass | fail | notApplicable
deriving DecidableEq, Repr

/-- `shadow_gold_assertion_results`: inserted when the result is collected, and never again. -/
structure GoldAssertion where
  assertionId : String
  critical : Bool
  status : GoldAssertionStatus
  reasonCode : String
deriving DecidableEq, Repr

/-- What the collector writes about the run it collected. -/
structure Metrics where
  actualMode : String
  runStatus : String
  answerQuality : String
  runStopReason : Option String := none
  latencyMs : Nat
  minimumRequiredFacts : Int := 0
  factTotal : Nat
  factCovered : Nat
  factGap : Int := 0
  planCompletenessFailure : Bool := false
  factualClaimCount : Nat := 0
  nonfactualClaimCount : Nat := 0
  citedFactualClaimCount : Nat := 0
  validCitationChainCount : Nat := 0
  traceabilityViolationCount : Nat
  goldAssertionTotal : Nat
  goldAssertionPassed : Nat := 0
  goldAssertionFailed : Nat := 0
  goldAssertionNotApplicable : Nat := 0
  goldAssertions : List GoldAssertion := []
  oracleVersion : Option String := none
  queryPollutionCount : Nat
  modelCallCount : Nat
  providerSuccessCount : Nat := 0
  providerFailureCount : Nat := 0
deriving DecidableEq, Repr

/-- `shadow_run_results`. -/
structure RunResult where
  id : Uuid
  campaignId : Uuid
  conversationId : Option Uuid := none
  searchRunId : Option Uuid := none
  caseId : String
  repetition : Nat
  scheduleOrdinal : Nat
  manualReviewSelected : Bool := false
  schedulingState : SchedulingState := .pending
  leaseOwner : Option String := none
  leaseExpiresAt : Option Time := none
  conversationAttemptCount : Nat := 0
  submissionAttemptCount : Nat := 0
  collectorAttemptCount : Nat := 0
  collectorLeaseOwner : Option String := none
  collectorLeaseExpiresAt : Option Time := none
  conversationIdempotencyKey : String
  messageIdempotencyKey : String
  submissionRequestHash : String
  metrics : Option Metrics := none
  modelCallCount : Nat := 0
  promptTokens : Nat := 0
  completionTokens : Nat := 0
  estimatedCost : Nat := 0
  degraded : Bool := false
  errorClass : Option ErrorClass := none
  errorCode : Option String := none
  failedPhase : Option String := none
  errorSignalFlags : List String := []
  stableSkipReason : Option String := none
  reservedProviderCalls : Nat := 0
  reservedEstimatedCost : Nat := 0
  reservationState : ReservationState := .none
  settledObservedProviderCalls : Nat := 0
  settledObservedCost : Nat := 0
  possiblyBilledCallCharge : Nat := 0
  possiblyBilledCostCharge : Nat := 0
  reservationReservedAt : Option Time := none
  budgetSettledAt : Option Time := none
  reservationReleasedAt : Option Time := none
  budgetViolation : Bool := false
  sourceTerminalAt : Option Time := none
  sourceSnapshotDigest : Option String := none
  collectedAt : Option Time := none
  collectorSchemaVersion : Option String := none
  version : Nat := 0
deriving DecidableEq, Repr

/-- The result is held under a scheduling lease. -/
def RunResult.isLeased (r : RunResult) : Bool :=
  r.schedulingState = .claimed || r.schedulingState = .conversationBound

/-! ## `CampaignLifecycle` -/

/-- `_CAMPAIGN_TRANSITIONS`. -/
def CampaignStatus.targets : CampaignStatus → List CampaignStatus
  | .created => [.running, .aborted]
  | .running => [.stopping, .awaitingReview, .completed]
  | .stopping => [.paused, .awaitingReview, .completed, .aborted]
  | .paused => [.running, .aborted]
  | .awaitingReview => [.completed, .aborted]
  | .completed => []
  | .aborted => []

namespace Campaign

/-- `is_terminal`. -/
def isTerminal (c : Campaign) : Bool := c.status = .completed || c.status = .aborted

/-- `_validate_loaded_state`. -/
def validateLoadedState (c : Campaign) : Except Exn Unit := do
  check (1 ≤ c.maxRuns && 0 ≤ c.counts.planned && c.counts.planned ≤ c.maxRuns)
    (.invariant "Campaign planning counters are invalid" "invariant_violation")
  check (c.status ≠ .created || (c.startedAt.isNone && c.completedAt.isNone))
    (.invariant "Persisted CREATED campaign has run timestamps" "invariant_violation")
  check (c.status = .created || c.status = .aborted || c.startedAt.isSome)
    (.invariant "Persisted active campaign has no started_at" "invariant_violation")
  check (c.status ≠ .stopping ||
      (c.stopIntent ≠ .none && !Text.isBlank (c.stopReason.getD "")))
    (.invariant "Persisted STOPPING campaign has no stop intent" "invariant_violation")
  check (c.status ≠ .awaitingReview || c.reviewDeadlineAt.isSome)
    (.invariant "Persisted review campaign has no deadline" "invariant_violation")
  check (c.isTerminal = c.completedAt.isSome)
    (.invariant "Persisted campaign terminal timestamp is inconsistent" "invariant_violation")
  check (c.status ≠ .completed || c.gateStatus ≠ .pending)
    (.invariant "Persisted completed campaign has no gate decision" "invariant_violation")
  check (c.startedAt.all fun s => c.completedAt.all fun e => s ≤ e)
    (.invariant "Persisted campaign timestamps move backwards" "invariant_violation")

/-- `_require_not_before_start`. -/
def requireNotBeforeStart (c : Campaign) (now : Time) (field : String) : Except Exn Unit :=
  check (c.startedAt.all (· ≤ now))
    (.invariant (field ++ " cannot precede campaign start") "invariant_violation")

/-- `_transition`. -/
def transition (c : Campaign) (target : CampaignStatus) : Except Exn Campaign := do
  check (target ∈ c.status.targets)
    (.invariant ("Illegal campaign transition: " ++ c.status.value ++ " -> " ++ target.value)
      "illegal_state_transition")
  return { c with status := target, version := c.version + 1 }

/-- `start`. -/
def start (c : Campaign) (now : Time) : Except Exn Campaign := do
  c.requireNotBeforeStart now "started_at"
  check (c.counts.planned = c.maxRuns)
    (.invariant "Campaign cannot start before every planned run is materialized"
      "campaign_not_materialized")
  let c ← c.transition .running
  return { c with startedAt := some (c.startedAt.getD now), stopIntent := .none, stopReason := none }

/-- `resume`. -/
def resume (c : Campaign) (now : Time) : Except Exn Campaign := do
  c.requireNotBeforeStart now "resumed_at"
  let c ← c.transition .running
  return { c with stopIntent := .none, stopReason := none, reviewDeadlineAt := none }

/-- `request_stop`. -/
def requestStop (c : Campaign) (intent : StopIntent) (reason : String) : Except Exn Campaign := do
  check (intent ≠ .none)
    (.invariant "Stopping a campaign requires a stop intent" "invariant_violation")
  check (!Text.isBlank reason)
    (.invariant "Stopping a campaign requires a reason" "invariant_violation")
  let c ← c.transition .stopping
  return { c with stopIntent := intent, stopReason := some (Text.strip reason) }

/-- `escalate_stop`. -/
def escalateStop (c : Campaign) (intent : StopIntent) (reason : String) : Except Exn Campaign := do
  check (c.status = .stopping)
    (.invariant "Only a STOPPING campaign can escalate its stop intent" "campaign_not_stopping")
  check (c.stopIntent = .pause && intent ≠ .none && intent ≠ .pause)
    (.invariant "Campaign stop intent cannot be downgraded or replaced"
      "stop_intent_escalation_invalid")
  check (!Text.isBlank reason)
    (.invariant "Stop escalation requires a reason" "invariant_violation")
  return { c with
    stopIntent := intent, stopReason := some (Text.strip reason), version := c.version + 1 }

/-- `settle_stop`. -/
def settleStop (c : Campaign) (now : Time) : Except Exn Campaign := do
  c.requireNotBeforeStart now "stop settled_at"
  if c.stopIntent = .pause then
    c.transition .paused
  else
    let c ← c.transition .aborted
    return { c with completedAt := some now }

/-- `await_review`. -/
def awaitReview (c : Campaign) (now deadline : Time) : Except Exn Campaign := do
  c.requireNotBeforeStart now "awaiting_review_at"
  check (now < deadline)
    (.invariant "Review deadline must be after review start" "invariant_violation")
  let c ← c.transition .awaitingReview
  return { c with reviewDeadlineAt := some deadline }

/-- `complete`. -/
def complete (c : Campaign) (decision : GateStatus) (now : Time) : Except Exn Campaign := do
  c.requireNotBeforeStart now "completed_at"
  check (decision ≠ .pending)
    (.invariant "Campaign completion requires a final gate decision" "invariant_violation")
  let c ← c.transition .completed
  return { c with gateStatus := decision, completedAt := some now }

/-- `abort`. -/
def abort (c : Campaign) (reason : String) (now : Time) : Except Exn Campaign := do
  c.requireNotBeforeStart now "completed_at"
  check (!Text.isBlank reason)
    (.invariant "Campaign abort requires a reason" "invariant_violation")
  let c ← c.transition .aborted
  return { c with
    stopIntent := .abort, stopReason := some (Text.strip reason), completedAt := some now }

end Campaign

end Sana.Shadow
