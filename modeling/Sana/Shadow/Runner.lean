import Sana.Shadow.Campaigns
import Sana.Orchestration.Store

/-!
# Failures, skipped units and collection

`SqlShadowRunnerRepository` seals a unit that failed, before or after it was
submitted, and skips what a stopping campaign never started.
`SqlShadowCollectorRepository` seals a unit whose run is over. Both settle the
reservation of a submitted unit from what the run used.
-/

namespace Sana.Shadow

open Sana.Lib

/-! ## The state of a campaign, as the runner reads it -/

/-- `CampaignRunState`. -/
structure CampaignRunState where
  id : Uuid
  ownerUserId : Uuid
  status : CampaignStatus
  gateStatus : GateStatus
  stopIntent : StopIntent
  maxRuns : Nat
  pendingCount : Nat
  claimedCount : Nat
  submittedCount : Nat
  collectedCount : Nat
  failedCount : Nat
  skippedCount : Nat
  activeReservationCount : Nat
  selectedReviewCount : Nat
  completedReviewCount : Nat
  reviewDeadlineAt : Option Time
deriving DecidableEq, Repr

namespace CampaignRunState

/-- The constructor of `CampaignRunState`; the counts are natural numbers here. -/
def make (s : CampaignRunState) : Except Exn CampaignRunState := do
  check (1 ≤ s.maxRuns) (.valueError "Campaign Runner counters are invalid")
  return s

/-- `terminal_result_count`. -/
def terminalResultCount (s : CampaignRunState) : Nat := s.collectedCount + s.failedCount

/-- `execution_sealed`. -/
def executionSealed (s : CampaignRunState) : Bool :=
  s.terminalResultCount + s.skippedCount = s.maxRuns && s.pendingCount = 0 && s.claimedCount = 0
    && s.submittedCount = 0 && s.activeReservationCount = 0

/-- `has_inflight_work`. -/
def hasInflightWork (s : CampaignRunState) : Bool :=
  s.claimedCount ≠ 0 || s.submittedCount ≠ 0 || s.activeReservationCount ≠ 0

end CampaignRunState

/-- The state of a campaign with these results. Reviews are joined to the results they are on. -/
def Campaign.runState (c : Campaign) (rows : List RunResult) : CampaignRunState :=
  let inState (state : SchedulingState) := rows.countP (·.schedulingState = state)
  let reviewsOf (r : RunResult) := c.reviews.countP (·.resultId = r.id)
  { id := c.id
    ownerUserId := c.createdByUserId
    status := c.status
    gateStatus := c.gateStatus
    stopIntent := c.stopIntent
    maxRuns := c.maxRuns
    pendingCount := inState .pending
    claimedCount := inState .claimed + inState .conversationBound
    submittedCount := inState .submitted
    collectedCount := inState .collected
    failedCount := inState .failed
    skippedCount := inState .skipped
    activeReservationCount := rows.countP (·.reservationState = .active)
    selectedReviewCount :=
      ((rows.filter (·.manualReviewSelected)).map fun r => max 1 (reviewsOf r)).sum
    completedReviewCount := (rows.map reviewsOf).sum
    reviewDeadlineAt := c.reviewDeadlineAt }

/-- `read_owned_state`. -/
def readOwnedState (db : Db) (userId campaignId : Uuid) : Except Exn (Option CampaignRunState) := do
  let some c := lookup (·.id) campaignId db.campaigns | return none
  if c.createdByUserId ≠ userId then
    return none
  let state ← (c.runState (db.resultsOf campaignId)).make
  return some state

/-! ## Failures before submission -/

/-- A stable lowercase identifier of bounded length. -/
def isStableCode (s : String) (maximum : Nat) : Bool :=
  !s.isEmpty && s.length ≤ maximum
    && s.toList.all (· ∈ "abcdefghijklmnopqrstuvwxyz0123456789_".toList)

/-- `RunnerFailure`. -/
structure RunnerFailure where
  errorClass : ErrorClass
  errorCode : String
  failedPhase : String
  possiblyBilled : Bool
deriving DecidableEq, Repr

/-- The constructor of `RunnerFailure`. -/
def RunnerFailure.make (f : RunnerFailure) : Except Exn RunnerFailure := do
  let errorCode := Text.strip f.errorCode
  check (isStableCode errorCode 200)
    (.valueError "error_code must be a stable lowercase identifier")
  let failedPhase := Text.strip f.failedPhase
  check (isStableCode failedPhase 100)
    (.valueError "failed_phase must be a stable lowercase identifier")
  return { f with errorCode, failedPhase }

/-- The result, sealed as failed. -/
def RunResult.seal (r : RunResult) (failure : RunnerFailure) : RunResult :=
  { r with
    schedulingState := .failed
    errorClass := some failure.errorClass, errorCode := some failure.errorCode
    failedPhase := some failure.failedPhase, errorSignalFlags := [failure.errorCode]
    version := r.version + 1 }

/-- The campaign with one more failed result. -/
def Campaign.countFailed (c : Campaign) : Campaign :=
  { c with counts := { c.counts with failed := c.counts.failed + 1 }, version := c.version + 1 }

/-- The ledger without the reservation of a result. -/
def Ledger.unreserve (l : Ledger) (r : RunResult) : Ledger :=
  { l with
    reservedProviderCalls := l.reservedProviderCalls - r.reservedProviderCalls
    reservedEstimatedCost := l.reservedEstimatedCost - r.reservedEstimatedCost }

/-- An active reservation that may have been billed: all of it is charged. -/
def charged (now : Time) (digest : String) (c : Campaign) (r : RunResult) : Campaign × RunResult :=
  let l := c.ledger.unreserve r
  ({ c with ledger := { l with
      possiblyBilledCallCharge := l.possiblyBilledCallCharge + r.reservedProviderCalls
      possiblyBilledCostCharge := l.possiblyBilledCostCharge + r.reservedEstimatedCost
      possiblyBilledCount := l.possiblyBilledCount + 1 } },
   { r with
      possiblyBilledCallCharge := r.reservedProviderCalls
      possiblyBilledCostCharge := r.reservedEstimatedCost
      reservationState := .settled, budgetSettledAt := some now, sourceTerminalAt := some now
      sourceSnapshotDigest := some digest })

/-- An active reservation that was not billed: it is given back. -/
def givenBack (now : Time) (c : Campaign) (r : RunResult) : Campaign × RunResult :=
  ({ c with ledger := c.ledger.unreserve r },
   { r with reservationState := .released, reservationReleasedAt := some now })

/-- What a failure does to the reservation. -/
def failReservation (now : Time) (failure : RunnerFailure) (digest : String) (c : Campaign)
    (r : RunResult) : Except Exn (Campaign × RunResult) :=
  match r.reservationState with
  | .active => .ok (if failure.possiblyBilled then charged now digest c r else givenBack now c r)
  | .none => .ok (c, r)
  | .settled | .released => .error (.invariant "A terminal reservation cannot be failed again"
      "reservation_already_terminal")

/--
`mark_failure`. `digest` is what `snapshot_hash` returns for the failure. The
attempt counters of the result are not looked at.
-/
def markFailure (db : Db) (now : Time) (lease : RunLease) (failure : RunnerFailure)
    (digest : String) : Except Exn Db := do
  let (c, r) ← db.lockedRecords lease.campaignId lease.id
  if r.schedulingState = .failed then
    return db
  check (r.isLeased && r.leaseOwner = some lease.leaseOwner
      && r.leaseExpiresAt.any (now < ·) && r.version = lease.persistedVersion)
    (.invariant "Scheduling lease fencing token is stale" "scheduling_lease_fence_lost")
  check (!failure.possiblyBilled || r.reservationState = .active)
    (.invariant "A possibly billed failure requires an active reservation"
      "possibly_billed_without_reservation")
  let (c, r) ← failReservation now failure digest c r
  (db.toTables.put c.countFailed
    { r.seal failure with leaseOwner := none, leaseExpiresAt := none }).commit

/-! ## Failures after submission -/

/-- `billing_disposition` of a model invocation. -/
inductive BillingDisposition
  | notBilled | billed | possiblyBilled
deriving DecidableEq, Repr

/-- The status of a model invocation. -/
inductive InvocationStatus
  | started | completed | failed | abandoned | reused
deriving DecidableEq, Repr

/-- `model_invocations`, the columns that are read. -/
structure ModelInvocation where
  runId : Uuid
  status : InvocationStatus
  providerCalled : Bool
  billingDisposition : BillingDisposition
  promptTokens : Nat
  completionTokens : Nat
deriving DecidableEq, Repr

/-- The invocations that were billed. -/
def billed (invocations : List ModelInvocation) : List ModelInvocation :=
  invocations.filter fun i => i.providerCalled && i.billingDisposition = .billed

/-- The invocations that may have been billed. -/
def possiblyBilled (invocations : List ModelInvocation) : List ModelInvocation :=
  invocations.filter fun i => i.providerCalled && i.billingDisposition = .possiblyBilled

/-- What billed invocations cost at the campaign's rates, before it is rounded. -/
def CostRate.observed (rate : CostRate) (items : List ModelInvocation) : Rat :=
  ((items.map (·.promptTokens)).sum * rate.promptPerMillionUsd
    + (items.map (·.completionTokens)).sum * rate.completionPerMillionUsd) / 1000000

/-- The usage a run's invocations add up to, at the campaign's rates. -/
def invocationUsage (rate : CostRate) (invocations : List ModelInvocation) :
    Except Exn SettlementUsage := do
  let items := billed invocations
  let possibly := possiblyBilled invocations
  let observed ← nonnegativeDecimal "observed_estimated_cost" (rate.observed items)
  let reserve ← nonnegativeDecimal "possibly_billed_cost_charge"
    (if possibly.isEmpty then 0 else rate.possiblyBilledRunReserveUsd)
  return {
    observedProviderCalls := items.length, promptTokens := (items.map (·.promptTokens)).sum
    completionTokens := (items.map (·.completionTokens)).sum
    observedEstimatedCost := observed, possiblyBilledCallCharge := possibly.length
    possiblyBilledCostCharge := reserve }

/--
`mark_collector_failure`. `invocations` are the tenant's model invocations, of which
the run's are counted; `digest` is what `snapshot_hash` returns for them.
-/
def markCollectorFailure (db : Db) (app : Orchestration.Tables) (now : Time)
    (lease : CollectorLease) (failure : RunnerFailure) (invocations : List ModelInvocation)
    (digest : String) : Except Exn Db := do
  let missing := .invariant "Collector failure binding was not found" "campaign_result_not_found"
  let (c, r) ← db.lockedRows lease.campaignId lease.id missing missing
  if r.schedulingState = .failed then
    return db
  check (r.schedulingState = .submitted && r.searchRunId = some lease.searchRunId
      && r.collectorLeaseOwner = some lease.leaseOwner && r.collectorLeaseExpiresAt.any (now < ·)
      && r.version = lease.persistedVersion && r.reservationState = .active)
    (.invariant "Collector lease fencing token is stale" "collector_lease_fence_lost")
  let some completedAt := (lookup (·.id) lease.searchRunId app.runs).bind (·.completedAt)
    | .error (.invariant "Collector failure cannot seal a non-terminal source" "source_not_terminal")
  let invocations := invocations.filter (·.runId = lease.searchRunId)
  let usage ← invocationUsage c.costRate invocations
  let r := { r.seal failure with
    sourceTerminalAt := some completedAt
    collectorLeaseOwner := none, collectorLeaseExpiresAt := none
    modelCallCount := (invocations.filter (·.providerCalled)).length }
  let digest ← sourceDigest digest
  let (c, r) ← settleRows now digest usage c.countFailed r
  (db.toTables.put c r).commit

/-! ## Skipped units -/

/-- `skip_pending`. -/
def skipPending (db : Db) (campaignId : Uuid) (reason : String) : Except Exn Db := do
  let reason := Text.strip reason
  check (isStableCode reason 100)
    (.valueError "Skip reason must be a stable lowercase identifier")
  let c ← db.lockedCampaign campaignId
    (.invariant "Campaign was unavailable while skipping pending units" "campaign_not_found")
  check (c.status = .stopping)
    (.invariant "Only a STOPPING campaign can seal pending units" "campaign_not_stopping")
  let isSkipped : RunResult → Bool := fun r =>
    r.campaignId = campaignId && r.schedulingState = .pending
  let skipped := db.results.countP isSkipped
  if skipped = 0 then
    return db
  let c := { c with
    counts := { c.counts with skipped := c.counts.skipped + skipped }, version := c.version + 1 }
  ({ db.toTables.putCampaign c with
    results := db.results.map fun r => if isSkipped r then
      { r with
        schedulingState := .skipped, stableSkipReason := some reason, version := r.version + 1 }
      else r } : Tables).commit

/-! ## Collection -/

/-- `claim_next` of the collector. Rows that another transaction has locked are skipped. -/
def claimCollection (db : Db) (app : Orchestration.Tables) (now : Time) (campaignId : Uuid)
    (workerId : String) (leaseDuration : Duration) (locked : List Uuid) :
    Except Exn (Option CollectorLease × Db) := do
  let some c := lookup (·.id) campaignId db.campaigns | return (none, db)
  if c.status ≠ .running ∧ c.status ≠ .stopping ∧ c.status ≠ .paused then
    return (none, db)
  let rows := db.resultsOf campaignId
  if c.maxConcurrency ≤ rows.countP fun r => r.collectorLeaseExpiresAt.any (now < ·) then
    return (none, db)
  let sealedRun : RunResult → Bool := fun r => app.runs.any fun run =>
    r.searchRunId = some run.id && run.isTerminal
  match firstScheduled (rows.filter fun r => r.schedulingState = .submitted
      && (r.reservationState = .active || r.reservationState = .settled)
      && r.collectorLeaseExpiresAt.all (· ≤ now) && sealedRun r && r.id ∉ locked) with
  | none => return (none, db)
  | some r =>
      let r := { r with
        collectorLeaseOwner := some workerId, collectorLeaseExpiresAt := some (now + leaseDuration)
        collectorAttemptCount := r.collectorAttemptCount + 1, version := r.version + 1 }
      let db ← (db.toTables.putResult r).commit
      let some conversationId := r.conversationId
        | .error (.invariant "Submitted Result has no source binding"
            "collector_source_binding_missing")
      let some searchRunId := r.searchRunId
        | .error (.invariant "Submitted Result has no source binding"
            "collector_source_binding_missing")
      return (some {
        id := r.id, campaignId, conversationId, searchRunId, leaseOwner := workerId
        leaseExpiresAt := now + leaseDuration, persistedVersion := r.version }, db)

/-- `renew` of the collector. -/
def renewCollection (db : Db) (now : Time) (lease : CollectorLease) (leaseDuration : Duration) :
    Except Exn (CollectorLease × Db) := do
  let (_, r) ← db.lockedCollection lease.campaignId lease.id
  r.assertCollectorLease lease now
  let r := { r with
    collectorLeaseExpiresAt := some (now + leaseDuration), version := r.version + 1 }
  check (lease.leaseExpiresAt < now + leaseDuration && lease.persistedVersion < r.version)
    (.invariant "Collector lease renewal must advance expiry and fencing version"
      "collector_lease_renewal_invalid")
  let db ← (db.toTables.putResult r).commit
  return ({ lease with
    leaseExpiresAt := now + leaseDuration, persistedVersion := r.version }, db)

/-- `CollectionOutcome`. -/
structure CollectionOutcome where
  sourceSnapshotDigest : String
  collectorSchemaVersion : String
  sourceTerminalAt : Time
  metrics : Metrics
  usage : SettlementUsage
  degraded : Bool
  errorClass : Option ErrorClass
  errorCode : Option String
  failedPhase : Option String
  errorSignalFlags : List String

/-- `_matches`: not every measurement is compared, and what the run used is not. -/
def RunResult.matchesOutcome (r : RunResult) (outcome : CollectionOutcome) : Bool :=
  r.sourceSnapshotDigest = some outcome.sourceSnapshotDigest
    && r.collectorSchemaVersion = some outcome.collectorSchemaVersion
    && r.sourceTerminalAt = some outcome.sourceTerminalAt
    && (r.metrics.any fun m => m.actualMode = outcome.metrics.actualMode
      && m.runStatus = outcome.metrics.runStatus
      && m.answerQuality = outcome.metrics.answerQuality
      && m.latencyMs = outcome.metrics.latencyMs && m.factTotal = outcome.metrics.factTotal
      && m.factCovered = outcome.metrics.factCovered
      && m.traceabilityViolationCount = outcome.metrics.traceabilityViolationCount
      && m.goldAssertionTotal = outcome.metrics.goldAssertionTotal
      && m.queryPollutionCount = outcome.metrics.queryPollutionCount)
    && r.modelCallCount = outcome.metrics.modelCallCount

/-- The rows that inserting gold assertions leaves: an assertion that is there stays as it is. -/
def insertedGold (assertions : List GoldAssertion) : List GoldAssertion :=
  distinctBy (·.assertionId) assertions

/-- `_verify_gold_assertions`, on the rows of a result. -/
def verifyGoldAssertions (rows expected : List GoldAssertion) : Except Exn Unit :=
  check ((rows.all (· ∈ expected)) && (expected.all (· ∈ rows))
      && rows.length = expected.dedup.length)
    (.invariant "Gold assertion audit rows conflict with Collector output"
      "gold_assertion_audit_mismatch")

/-- The campaign and the result after a collection whose budget is settled. -/
def collected (now : Time) (outcome : CollectionOutcome) (c : Campaign) (r : RunResult) :
    Campaign × RunResult :=
  let flags := if r.budgetViolation then outcome.errorSignalFlags ++ ["budget_violation"]
    else outcome.errorSignalFlags
  ({ c with
      counts := { c.counts with
        collected := c.counts.collected + 1
        degraded := c.counts.degraded + if outcome.degraded then 1 else 0 }
      version := c.version + 1 },
   { r with
      metrics := some { outcome.metrics with
        goldAssertions := insertedGold outcome.metrics.goldAssertions }
      modelCallCount := outcome.metrics.modelCallCount
      degraded := outcome.degraded
      errorClass := if r.budgetViolation then some .candidateDefect else outcome.errorClass
      errorCode := if r.budgetViolation then some "budget_violation" else outcome.errorCode
      failedPhase := outcome.failedPhase
      errorSignalFlags := flags.dedup.mergeSort fun a b => decide (a ≤ b)
      schedulingState := .collected, collectorLeaseOwner := none, collectorLeaseExpiresAt := none
      collectedAt := some now, collectorSchemaVersion := some outcome.collectorSchemaVersion
      version := r.version + 1 })

/-- `CollectionReceipt`. -/
structure CollectionReceipt where
  resultId : Uuid
  sourceSnapshotDigest : String
  duplicate : Bool
  budgetViolation : Bool
deriving DecidableEq, Repr

/-- `persist`. -/
def persistCollection (db : Db) (now : Time) (lease : CollectorLease)
    (outcome : CollectionOutcome) : Except Exn (CollectionReceipt × Db) := do
  let (c, r) ← db.lockedCollection lease.campaignId lease.id
  if r.schedulingState = .collected then
    check (r.matchesOutcome outcome)
      (.invariant "Collected Result conflicts with the source snapshot" "collection_conflict")
    verifyGoldAssertions ((r.metrics.map (·.goldAssertions)).getD [])
      outcome.metrics.goldAssertions
    return (⟨r.id, outcome.sourceSnapshotDigest, true, r.budgetViolation⟩, db)
  r.assertCollectorLease lease now
  check (c.collectorSchemaVersion = outcome.collectorSchemaVersion
      && r.searchRunId = some lease.searchRunId)
    (.invariant "Collector frozen inputs no longer match the Result" "collector_snapshot_mismatch")
  let digest ← sourceDigest outcome.sourceSnapshotDigest
  let (c, r) ← settleRows now digest outcome.usage c
    { r with sourceTerminalAt := some outcome.sourceTerminalAt }
  let (c, r) := collected now outcome c r
  verifyGoldAssertions (insertedGold outcome.metrics.goldAssertions) outcome.metrics.goldAssertions
  check (c.counts.collected ≤ c.maxRuns)
    (.invariant "Campaign collected counter exceeds max_runs" "campaign_ledger_mismatch")
  let db ← (db.toTables.put c r).commit
  return (⟨r.id, outcome.sourceSnapshotDigest, false, r.budgetViolation⟩, db)

end Sana.Shadow
