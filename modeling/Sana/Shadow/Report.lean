import Sana.Shadow.Runner

/-!
# The report

The report of a campaign is drawn up from its rows alone. `_ledger_reconciliation`
derives every counter and every ledger column again from the results, and compares
the settled results with the invocations of their runs; whatever disagrees is named.
Binding the final report ends the campaign.
-/

namespace Sana.Shadow

open Sana.Lib

/-! ## `_ledger_reconciliation` -/

/-- `_TERMINAL_RESULT_STATES`. -/
def RunResult.isTerminal (r : RunResult) : Bool :=
  r.schedulingState = .collected || r.schedulingState = .failed

/-- How many results of a list meet a condition. -/
def tally (results : List RunResult) (p : RunResult → Bool) : Int := results.countP p

/-- A column summed over a list of results. -/
def total (results : List RunResult) (column : RunResult → Nat) : Int :=
  (results.map fun r => (column r : Int)).sum

/-- `derived_counts`. -/
def derivedCounts (results : List RunResult) : Counts where
  planned := results.length
  submitted := tally results fun r => r.searchRunId.isSome
  collected := tally results fun r => r.schedulingState = .collected
  failed := tally results fun r => r.schedulingState = .failed
  skipped := tally results fun r => r.schedulingState = .skipped
  degraded := tally results fun r => r.isTerminal && r.degraded

/-- `derived_ledger`. -/
def derivedLedger (results : List RunResult) : Ledger :=
  let active := results.filter (·.reservationState = .active)
  let settled := results.filter (·.reservationState = .settled)
  { observedProviderCalls := total settled (·.settledObservedProviderCalls)
    possiblyBilledCallCharge := total settled (·.possiblyBilledCallCharge)
    reservedProviderCalls := total active (·.reservedProviderCalls)
    observedPromptTokens := total settled (·.promptTokens)
    observedCompletionTokens := total settled (·.completionTokens)
    observedEstimatedCost := total settled (·.settledObservedCost)
    possiblyBilledCostCharge := total settled (·.possiblyBilledCostCharge)
    reservedEstimatedCost := total active (·.reservedEstimatedCost)
    possiblyBilledCount := tally settled fun r =>
      0 < r.possiblyBilledCallCharge || 0 < r.possiblyBilledCostCharge }

/-- The counters under the names the report has for them. -/
def Counts.fields (c : Counts) : List (String × Int) := [
  ("planned_count", c.planned), ("submitted_count", c.submitted),
  ("collected_count", c.collected), ("failed_count", c.failed),
  ("skipped_count", c.skipped), ("degraded_count", c.degraded)]

/-- The ledger columns under the names the report has for them. -/
def Ledger.fields (l : Ledger) : List (String × Int) := [
  ("observed_provider_calls", l.observedProviderCalls),
  ("possibly_billed_call_charge", l.possiblyBilledCallCharge),
  ("reserved_provider_calls", l.reservedProviderCalls),
  ("observed_prompt_tokens", l.observedPromptTokens),
  ("observed_completion_tokens", l.observedCompletionTokens),
  ("observed_estimated_cost", l.observedEstimatedCost),
  ("possibly_billed_cost_charge", l.possiblyBilledCostCharge),
  ("reserved_estimated_cost", l.reservedEstimatedCost),
  ("possibly_billed_count", l.possiblyBilledCount)]

/-- The names of the fields in which the stored and the derived values differ. -/
def disagreeing (stored derived : List (String × Int)) : List String :=
  (stored.zip derived).filterMap fun x => if x.1.2 = x.2.2 then none else some x.2.1

/-- A possibly billed failure without a run is settled at what it had reserved. -/
def RunResult.validUnknownOutbound (r : RunResult) : Bool :=
  r.schedulingState = .failed && r.settledObservedProviderCalls = 0 && r.promptTokens = 0
    && r.completionTokens = 0 && r.modelCallCount = 0
    && r.possiblyBilledCallCharge = r.reservedProviderCalls
    && r.possiblyBilledCostCharge = r.reservedEstimatedCost

/-- The names of a result's checks that fail. -/
def failing (r : RunResult) (checks : List (Bool × String)) : List String :=
  checks.filterMap fun x =>
    if x.1 then none else some ("result:" ++ r.id.str ++ ":" ++ x.2)

/-- What is wrong with a settled result, against the invocations of its run. -/
def settledMismatches (rate : CostRate) (invocations : List ModelInvocation) (r : RunResult) :
    List String :=
  match r.searchRunId with
  | none => failing r [(r.validUnknownOutbound, "unknown_outbound_settlement")]
  | some runId =>
      let items := invocations.filter (·.runId = runId)
      let possibly := possiblyBilled items
      let expected := if possibly.isEmpty then 0 else money rate.possiblyBilledRunReserveUsd
      failing r [
        ((billed items).length = r.settledObservedProviderCalls, "observed_calls"),
        (((billed items).map (·.promptTokens)).sum = r.promptTokens, "prompt_tokens"),
        (((billed items).map (·.completionTokens)).sum = r.completionTokens, "completion_tokens"),
        (possibly.length = r.possiblyBilledCallCharge, "possibly_billed_calls"),
        ((billed items).length + possibly.length = r.modelCallCount, "model_call_count"),
        (money (rate.observed (billed items)) = r.settledObservedCost, "observed_cost"),
        (expected = r.possiblyBilledCostCharge, "possibly_billed_cost")]

/-- A sealed result whose run was submitted has a settled budget. -/
def sealedMismatches (r : RunResult) : List String :=
  if r.schedulingState = .collected then
    failing r [(r.reservationState = .settled, "collector_settlement")]
  else if r.schedulingState = .failed ∧ r.searchRunId.isSome then
    failing r [(r.reservationState = .settled, "failed_settlement")]
  else []

/-- `_TERMINAL_INVOCATION_STATES`: the invocation is over. -/
def ModelInvocation.isTerminal (i : ModelInvocation) : Bool := i.status ≠ .started

/-- Invocations of sealed runs that never ended. -/
def orphanStarted (results : List RunResult) (invocations : List ModelInvocation) : Nat :=
  invocations.countP fun i =>
    (results.any fun r => r.isTerminal && r.searchRunId = some i.runId) && !i.isTerminal

/-- `_ledger_reconciliation`: the names of everything that does not match. -/
def ledgerReconciliation (c : Campaign) (results : List RunResult)
    (invocations : List ModelInvocation) : List String :=
  disagreeing c.counts.fields (derivedCounts results).fields
    ++ disagreeing c.ledger.fields (derivedLedger results).fields
    ++ (results.filter (·.reservationState = .settled)).flatMap
      (settledMismatches c.costRate invocations)
    ++ results.flatMap sealedMismatches
    ++ if orphanStarted results invocations = 0 then [] else ["orphan_started_model_invocations"]

/-! ## `_hard_violations` -/

/-- `_STABLE_CODE`. -/
def isReportCode (s : String) : Bool :=
  let letters := "abcdefghijklmnopqrstuvwxyzABCDEFGHIJKLMNOPQRSTUVWXYZ0123456789".toList
  s.length ≤ 200 && match s.toList with
    | [] => false
    | first :: rest => first ∈ letters && rest.all (· ∈ letters ++ "._:-".toList)

/-- A metric summed over a list of results; a result that has none counts as zero. -/
def measured (results : List RunResult) (metric : Metrics → Nat) : Nat :=
  (results.map fun r => (r.metrics.map metric).getD 0).sum

/-- The gold assertions of a list of results. -/
def goldAssertions (results : List RunResult) : List GoldAssertion :=
  results.flatMap fun r => (r.metrics.map (·.goldAssertions)).getD []

/--
`_hard_violations`: how often each was found. `current` is the digest of the source of a
collected result, as it is now.
-/
def hardViolations (c : Campaign) (results : List RunResult) (invocations : List ModelInvocation)
    (current : RunResult → Option String) : List (String × Nat) :=
  let terminal := results.filter (·.isTerminal)
  let signals := terminal.flatMap (·.errorSignalFlags)
  [("citation_traceability", measured terminal (·.traceabilityViolationCount)),
   ("source_snapshot_mismatch", terminal.countP fun r =>
      r.schedulingState = .collected && r.sourceSnapshotDigest ≠ current r),
   ("complete_without_evidence", terminal.countP fun r => r.metrics.any fun m =>
      m.answerQuality = "COMPLETE" && (m.factCovered = 0 || m.validCitationChainCount = 0)),
   ("plan_completeness", terminal.countP fun r => r.metrics.any (·.planCompletenessFailure)),
   ("query_pollution", measured terminal (·.queryPollutionCount)),
   ("model_call_budget", terminal.countP fun r =>
      r.budgetViolation || "model_call_budget_exceeded" ∈ r.errorSignalFlags),
   ("campaign_call_exposure",
      if c.limits.providerCallAdmissionCeiling < c.ledger.totalCalls then 1 else 0),
   ("campaign_ledger_mismatch", (ledgerReconciliation c results invocations).length),
   ("orphan_started_model_invocation", orphanStarted results invocations),
   ("idempotency_payload_mismatch", signals.countP
      (· ∈ ["submission_payload_mismatch", "idempotency_payload_mismatch"])),
   ("critical_gold_assertion", (goldAssertions results).countP fun g =>
      g.critical && g.status = .fail),
   ("manual_major_error", c.reviews.countP (·.correctnessVerdict = .majorError)),
   ("review_binding", c.reviews.countP fun v =>
      (!results.any fun r => r.id = v.resultId && r.manualReviewSelected)
        || v.rubricVersion ≠ c.reviewRubricVersion),
   ("gold_audit_mismatch", terminal.countP fun r => r.metrics.any fun m =>
      m.goldAssertionTotal ≠ m.goldAssertions.length),
   ("permanent_configuration", terminal.countP (·.errorClass = some .permanentConfiguration)),
   ("collector_schema_mismatch", terminal.countP fun r =>
      r.schedulingState = .collected && r.collectorSchemaVersion ≠ some c.collectorSchemaVersion),
   ("provenance", if c.candidateSourceClean && c.harnessSourceClean then 0 else 1),
   ("report_structure",
      (results.countP fun r => r.errorCode.any (!isReportCode ·)
        || r.stableSkipReason.any (!isReportCode ·))
      + (c.reviews.flatMap (·.reasonCodes)).countP (!isReportCode ·)
      + signals.countP (!isReportCode ·))]

/-! ## Finalization -/

/-- What the release gate's policy asks for and what it finds, beside the hard violations. -/
structure GateFindings where
  /-- `basic_integrity_errors` of the evaluator. -/
  integrityErrors : Nat := 0
  /-- Every rule about the sample, except the one about reviews, has passed. -/
  samplePassed : Bool := true
  requiredReviews : Nat := 0
deriving DecidableEq, Repr

/-- The reviews of the results that were selected for one. -/
def completedReviews (c : Campaign) (results : List RunResult) : List Review :=
  (results.filter (·.manualReviewSelected)).filterMap fun r =>
    (c.reviews.filter (·.resultId = r.id)).getLast?

/-- `execution_sealed` of a snapshot. -/
def isSealed (c : Campaign) (results : List RunResult) : Bool :=
  results.length = c.maxRuns && (results.all fun r => r.isTerminal || r.schedulingState = .skipped)
    && results.all (·.reservationState ≠ .active)

/-- `_finalization_state`: why the report is final, if it is. -/
def finalizationState (c : Campaign) (results : List RunResult) (now : Time)
    (violations : List (String × Nat)) (findings : GateFindings) : Option String :=
  let reviews := completedReviews c results
  if c.status = .paused ∨ c.stopIntent = .pause then none
  else if (violations.map (·.2)).sum + findings.integrityErrors ≠ 0 then some "fatal_safety"
  else if c.isTerminal then some "terminal_campaign"
  else if !isSealed c results then none
  else if !findings.samplePassed then some "sealed_insufficient_sample"
  else if findings.requiredReviews = 0 then some "operational_gate_complete"
  else if reviews.any (·.correctnessVerdict = .unreviewable) then some "unreviewable_sample"
  else if findings.requiredReviews ≤ reviews.length then some "review_complete"
  else if c.reviewDeadlineAt.any (· ≤ now) then some "review_deadline_expired"
  else if c.stopIntent ≠ .none then some "controlled_stop"
  else none

/-! ## The final report -/

/-- `FinalReportBinding`. -/
structure FinalReportBinding where
  campaignId : Uuid
  ownerUserId : Uuid
  expectedCampaignStatus : CampaignStatus
  expectedCampaignVersion : Nat
  gateStatus : GateStatus
  finalizationReason : String
  report : FinalReport
deriving DecidableEq, Repr

/-- `_validate_binding`. -/
def FinalReportBinding.validate (b : FinalReportBinding) : Except Exn Unit := do
  check (b.gateStatus ≠ .pending)
    (.valueError "Final report binding requires a terminal gate status")
  check (!Text.isBlank b.finalizationReason)
    (.valueError "Final report binding requires a finalization reason")
  check (isSha256 b.report.decisionInputHash)
    (.valueError "decision_input_hash must be a lowercase SHA-256")
  check (isSha256 b.report.decisionHash) (.valueError "decision_hash must be a lowercase SHA-256")
  check (isSha256 b.report.jsonSha256) (.valueError "json_sha256 must be a lowercase SHA-256")
  check (isSha256 b.report.markdownSha256)
    (.valueError "markdown_sha256 must be a lowercase SHA-256")

/-- `_existing_receipt`: whether the very report is bound already. -/
def Campaign.existingReceipt (c : Campaign) (b : FinalReportBinding) : Except Exn Bool :=
  match c.finalReport with
  | none => .ok false
  | some report => do
      check (report = b.report && c.gateStatus = b.gateStatus)
        (.invariant "Campaign already has a different final report" "report_conflict")
      return true

/-- `_terminal_status`. -/
def Campaign.terminalStatus (c : Campaign) : Except Exn CampaignStatus := do
  check (!(c.status = .paused || c.stopIntent = .pause))
    (.invariant "Paused Campaign cannot bind a final release report"
      "paused_campaign_finalization_forbidden")
  check (c.status ≠ .completed)
    (.invariant "Completed Campaign is missing its final report binding" "report_binding_corrupt")
  if c.status = .aborted ∨ c.stopIntent ≠ .none then
    return .aborted
  return .completed

/-- The campaign with its final report. -/
def Campaign.finalized (c : Campaign) (status : CampaignStatus) (b : FinalReportBinding)
    (now : Time) : Campaign :=
  { c with
    status, gateStatus := b.gateStatus, completedAt := some (c.completedAt.getD now)
    finalReport := some b.report, version := c.version + 1 }

/--
`bind`. `current` is the hash of the decision input that the transaction reads.
-/
def bindReport (db : Db) (now : Time) (b : FinalReportBinding) (current : String) :
    Except Exn Db := do
  b.validate
  let c ← db.lockedCampaign b.campaignId (.invariant "Campaign is missing" "campaign_not_found")
  check (c.createdByUserId = b.ownerUserId)
    (.invariant "Only the Campaign owner may bind its report" "report_owner_mismatch")
  let bound ← c.existingReceipt b
  if bound then
    return db
  check (c.status = b.expectedCampaignStatus && c.version = b.expectedCampaignVersion)
    (.invariant "Campaign changed after report artifacts were prepared" "report_input_stale")
  check (current = b.report.decisionInputHash)
    (.invariant "Campaign decision input changed before report binding" "report_input_stale")
  check (b.finalizationReason ≠ "review_deadline_expired" || c.reviewDeadlineAt.any (· ≤ now))
    (.invariant "Review deadline has not expired" "report_input_stale")
  let status ← c.terminalStatus
  (db.toTables.putCampaign (c.finalized status b now)).commit

end Sana.Shadow
