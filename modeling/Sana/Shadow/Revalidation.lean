import Sana.Shadow.Collector

/-!
# The digest of a stored result

`persist` writes what was collected into the columns of its row; the report reads the source again,
builds the outcome from the columns and the gold assertion rows, and digests both. The settlement may
have put a violation of the budget over the error that was collected.
-/

namespace Sana.Shadow.Collector

open Sana.Lib

/-- The assertions that were graded so. -/
def CollectionOutcome.graded (o : CollectionOutcome) (status : GoldAssertionStatus) : Nat :=
  o.goldAssertions.countP (·.status = status)

/-- What `persist` writes of an outcome. -/
def CollectionOutcome.row (o : CollectionOutcome) : Shadow.CollectionOutcome where
  sourceSnapshotDigest := o.sourceSnapshotDigest
  collectorSchemaVersion := o.collectorSchemaVersion
  sourceTerminalAt := o.sourceTerminalAt
  metrics := {
    actualMode := o.actualMode, runStatus := o.runStatus, answerQuality := o.answerQuality
    runStopReason := o.runStopReason, latencyMs := o.latencyMs
    minimumRequiredFacts := o.minimumRequiredFacts, factTotal := o.factTotal
    factCovered := o.factCovered, factGap := o.factGap
    planCompletenessFailure := o.planCompletenessFailure
    factualClaimCount := o.factualClaimCount, nonfactualClaimCount := o.nonfactualClaimCount
    citedFactualClaimCount := o.citedFactualClaimCount
    validCitationChainCount := o.validCitationChainCount
    traceabilityViolationCount := o.traceabilityViolationCount
    goldAssertionTotal := o.goldAssertions.length, goldAssertionPassed := o.graded .pass
    goldAssertionFailed := o.graded .fail, goldAssertionNotApplicable := o.graded .notApplicable
    goldAssertions := o.goldAssertions, oracleVersion := o.oracleVersion
    queryPollutionCount := o.queryPollutionCount, modelCallCount := o.modelCallCount
    providerSuccessCount := o.providerSuccessCount
    providerFailureCount := o.providerFailureCount }
  usage := o.usage
  degraded := o.degraded
  errorClass := o.errorClass
  errorCode := o.errorCode
  failedPhase := o.failedPhase
  errorSignalFlags := o.errorSignalFlags

/-- The gold assertion rows of a result. -/
def goldRows (r : RunResult) : List GoldAssertion := (r.metrics.map (·.goldAssertions)).getD []

/-- `_stored_outcome`; `none` where a measurement is missing. -/
def storedOutcome (r : RunResult) (gold : List GoldAssertion) : Option CollectionOutcome := do
  let sourceTerminalAt ← r.sourceTerminalAt
  let m ← r.metrics
  let collectorSchemaVersion ← r.collectorSchemaVersion
  return {
    sourceSnapshotDigest := r.sourceSnapshotDigest.getD ""
    collectorSchemaVersion
    sourceTerminalAt
    actualMode := m.actualMode, runStatus := m.runStatus, answerQuality := m.answerQuality
    runStopReason := m.runStopReason, latencyMs := m.latencyMs
    minimumRequiredFacts := m.minimumRequiredFacts, factTotal := m.factTotal
    factCovered := m.factCovered, factGap := m.factGap
    planCompletenessFailure := m.planCompletenessFailure
    factualClaimCount := m.factualClaimCount, nonfactualClaimCount := m.nonfactualClaimCount
    citedFactualClaimCount := m.citedFactualClaimCount
    validCitationChainCount := m.validCitationChainCount
    traceabilityViolationCount := m.traceabilityViolationCount
    goldAssertions := gold
    oracleVersion := m.oracleVersion
    queryPollutionCount := m.queryPollutionCount
    modelCallCount := r.modelCallCount
    usage := {
      observedProviderCalls := r.settledObservedProviderCalls, promptTokens := r.promptTokens
      completionTokens := r.completionTokens, observedEstimatedCost := r.settledObservedCost
      possiblyBilledCallCharge := r.possiblyBilledCallCharge
      possiblyBilledCostCharge := r.possiblyBilledCostCharge }
    degraded := r.degraded
    providerSuccessCount := m.providerSuccessCount, providerFailureCount := m.providerFailureCount
    errorClass := r.errorClass, errorCode := r.errorCode, failedPhase := r.failedPhase
    -- the settlement raises this flag after the collector has sealed its digest
    errorSignalFlags := r.errorSignalFlags.filter (· ≠ "budget_violation") }

/-- `_source_digests` for one result, from its gold assertion rows and what the reader returns. -/
def sourceDigestOf (b : CollectorBuiltins) (r : RunResult) (gold : List GoldAssertion)
    (source : Except Exn RunSourceSnapshot) : Option String :=
  if r.schedulingState ≠ .collected then none
  else match r.conversationId, r.searchRunId, storedOutcome r gold with
  | some _, some _, some outcome =>
      match source >>= fun snapshot => sourceSnapshotDigest b snapshot outcome with
      | .ok digest => some digest
      | .error e => some ("INVALID:" ++ exnCode e)
  | _, _, _ => some "INVALID:result_measurement_incomplete"

end Sana.Shadow.Collector
