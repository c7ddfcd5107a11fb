import Sana.Shadow.Evaluator
import Sana.Shadow.Manifest
import Sana.Shadow.Report

/-!
# Preparing a report

`CampaignReportBuilder` counts the rows of a campaign into the metrics the release gate
reads, asks the gate twice, provisionally and for good, and decides whether the report is
final. The rules of the provisional decision are read again for that. A prepared report is
either handed out as a draft or bound to the campaign; `generate` checks before either that
the decision is the kind that belongs to it.
-/

namespace Sana.Shadow

open Sana.Lib
open Manifest (Answerability)

/-- A result as the decision input shows it: its row and the columns of its planned case. -/
structure ResultRow where
  result : RunResult
  locale : String
  answerability : Answerability
  expectedMode : String
  runStopReason : Option String := none
  minimumRequiredFacts : Nat := 0
  factGap : Nat := 0
deriving DecidableEq, Repr

/-- The column `actual_mode`. -/
def ResultRow.actualMode (r : ResultRow) : Option String := r.result.metrics.map (·.actualMode)

/-- The column `answer_quality`. -/
def ResultRow.answerQuality (r : ResultRow) : Option String :=
  r.result.metrics.map (·.answerQuality)

/-- The gold assertions of a result. -/
def ResultRow.gold (r : ResultRow) : List GoldAssertion :=
  (r.result.metrics.map (·.goldAssertions)).getD []

/-- One of the snapshots `_verify_frozen_assets` looks at: its digest, and the one stored. -/
structure FrozenAsset where
  asset : String
  snapshotHash : String
  storedHash : String
deriving DecidableEq, Repr

/-- `CampaignReportSnapshot`: the rows a report is prepared from. -/
structure CampaignReportSnapshot where
  campaign : Campaign
  databaseNow : Time
  results : List ResultRow
  invocations : List ModelInvocation
  /-- The column `current_source_digest`. -/
  currentSourceDigest : RunResult → Option String
  policy : GatePolicy
  assets : List FrozenAsset

/-! ## Averages over cases -/

/-- The average of some fractions. -/
def average (values : List Rat) : Rat := values.sum / values.length

/-- `_fraction_bps`. -/
def fractionBps (q : Rat) : Nat := (q.num * 10000 / q.den).toNat

/-- The fractions of every case, averaged. -/
def caseAverages (values : List (String × Rat)) : List Rat :=
  (values.map (·.1)).dedup.map fun caseId =>
    average ((values.filter (·.1 = caseId)).map (·.2))

/-- The average over the cases of their averages, in basis points; of no cases it is zero. -/
def caseMacroBps (values : List (String × Rat)) : Nat :=
  if values = [] then 0 else fractionBps (average (caseAverages values))

/-- How much of the facts it needed a result has covered. -/
def ResultRow.factsCovered (r : ResultRow) : Rat :=
  let total := (r.result.metrics.map (·.factTotal)).getD 0
  let covered := (r.result.metrics.map (·.factCovered)).getD 0
  let denominator := max total r.minimumRequiredFacts
  if denominator = 0 then 0 else (min covered denominator : Nat) / (denominator : Nat)

/-- What the results with an answer have covered, by case. -/
def coverageValues (terminal : List ResultRow) : List (String × Rat) :=
  (terminal.filter (·.answerability = .answerable)).map fun r => (r.result.caseId, r.factsCovered)

/-- The order of the strata of `_coverage`. -/
def coverageStrata : List (String × String) :=
  [("FAST", "zh-CN"), ("FAST", "en"), ("RESEARCH", "zh-CN"), ("RESEARCH", "en")]

/-- The results of a stratum. -/
def inStratum (terminal : List ResultRow) (stratum : String × String) : List ResultRow :=
  terminal.filter fun r => (r.expectedMode, r.locale) = stratum

/-- `_gold_macro`, before it is averaged: how many of a result's assertions have passed. -/
def goldValues (terminal : List ResultRow) : List (String × Rat) :=
  terminal.filterMap fun r =>
    match r.gold.filter (·.status ≠ .notApplicable) with
    | [] => none
    | valid => some (r.result.caseId, average (valid.map fun g => if g.status = .pass then 1 else 0))

/-- `_latencies` of a mode; a result that has none is counted as late. -/
def latencies (terminal : List ResultRow) (mode : String) (deadline : Nat) : List Nat :=
  (terminal.filter fun r => (r.actualMode.filter (· ≠ "")).getD r.expectedMode = mode).map fun r =>
    (r.result.metrics.map (·.latencyMs)).getD (deadline + 1)

/-- `_EXPLICIT_GAP_STOP_REASONS`. -/
def explicitGapStopReasons : List String :=
  ["FACT_GAPS_REMAIN", "INSUFFICIENT_EVIDENCE", "NO_SUPPORTED_FACTS"]

/-- The result says that something is missing. -/
def ResultRow.explicitGap (r : ResultRow) : Bool :=
  r.answerQuality ≠ some "COMPLETE" &&
    (0 < r.factGap || r.runStopReason.any (· ∈ explicitGapStopReasons))

/-! ### Averages stay between none and all -/

theorem average_le_one {values : List Rat} (h : ∀ v ∈ values, v ≤ 1) : average values ≤ 1 := by
  have hsum : values.sum ≤ values.length := by
    simpa using List.sum_le_card_nsmul values 1 h
  unfold average
  by_cases hlen : values.length = 0
  · rw [hlen]
    simp
  · have hpos : (0 : Rat) < values.length := by
      exact_mod_cast Nat.pos_of_ne_zero hlen
    rw [div_le_one hpos]
    exact hsum

theorem fractionBps_le {q : Rat} (h : q ≤ 1) : fractionBps q ≤ 10000 := by
  have hnum : q.num ≤ q.den := by
    have hle := Rat.num_le_denom_iff.mpr h
    exact hle
  have hden : (0 : Int) < q.den := by exact_mod_cast q.den_pos
  have hdiv : q.num * 10000 / q.den ≤ 10000 := by
    apply Int.ediv_le_of_le_mul hden
    nlinarith
  unfold fractionBps
  omega

theorem caseMacroBps_le {values : List (String × Rat)} (h : ∀ v ∈ values, v.2 ≤ 1) :
    caseMacroBps values ≤ 10000 := by
  unfold caseMacroBps
  split
  · omega
  · apply fractionBps_le
    apply average_le_one
    intro v hv
    obtain ⟨caseId, -, rfl⟩ := List.mem_map.mp hv
    apply average_le_one
    intro w hw
    obtain ⟨x, hx, rfl⟩ := List.mem_map.mp hw
    exact h x (List.mem_filter.mp hx).1

theorem ResultRow.factsCovered_le_one (r : ResultRow) : r.factsCovered ≤ 1 := by
  unfold factsCovered
  dsimp only
  split
  · norm_num
  · rename_i hden
    have hpos : (0 : Rat) < (max ((r.result.metrics.map (·.factTotal)).getD 0)
        r.minimumRequiredFacts : Nat) := by
      exact_mod_cast Nat.pos_of_ne_zero hden
    rw [div_le_one hpos]
    exact_mod_cast Nat.min_le_right _ _

theorem coverageValues_le_one {terminal : List ResultRow} :
    ∀ v ∈ coverageValues terminal, v.2 ≤ 1 := by
  intro v hv
  obtain ⟨r, -, rfl⟩ := List.mem_map.mp hv
  exact r.factsCovered_le_one

theorem goldValues_le_one {terminal : List ResultRow} : ∀ v ∈ goldValues terminal, v.2 ≤ 1 := by
  intro v hv
  obtain ⟨r, -, hr⟩ := List.mem_filterMap.mp hv
  split at hr
  · cases hr
  · obtain rfl := Option.some.inj hr
    apply average_le_one
    intro w hw
    obtain ⟨g, -, rfl⟩ := List.mem_map.mp hw
    split <;> norm_num

/-! ## `_aggregate` -/

/-- The hard violations have names, and different ones. -/
theorem hardViolations_named (c : Campaign) (results : List RunResult)
    (invocations : List ModelInvocation) (current : RunResult → Option String) :
    ((hardViolations c results invocations current).map (·.1)).Nodup ∧
      ∀ v ∈ hardViolations c results invocations current, Text.isBlank v.1 = false := by
  have hnames : (hardViolations c results invocations current).map (·.1) =
      ["citation_traceability", "source_snapshot_mismatch", "complete_without_evidence",
        "plan_completeness", "query_pollution", "model_call_budget", "campaign_call_exposure",
        "campaign_ledger_mismatch", "orphan_started_model_invocation",
        "idempotency_payload_mismatch", "critical_gold_assertion", "manual_major_error",
        "review_binding", "gold_audit_mismatch", "permanent_configuration",
        "collector_schema_mismatch", "provenance", "report_structure"] := rfl
  constructor
  · rw [hnames]
    decide
  · intro v hv
    have hmem := List.mem_map_of_mem (f := fun x : String × Nat => x.1) hv
    rw [hnames] at hmem
    revert hmem
    generalize v.1 = name
    revert name
    decide

namespace CampaignReportSnapshot

variable (s : CampaignReportSnapshot)

/-- The rows of the results. -/
def rows : List RunResult := s.results.map (·.result)

/-- The results that are over. -/
def terminal : List ResultRow := s.results.filter (·.result.isTerminal)

/-- The results that are over and were not to be answered. -/
def unanswerable : List ResultRow :=
  s.terminal.filter (·.answerability = .intentionallyUnanswerable)

/-- The reviews that count. -/
def reviews : List Review := completedReviews s.campaign s.rows

/-- The gold assertions that passed or failed. -/
def goldValid : List GoldAssertion := (goldAssertions s.rows).filter (·.status ≠ .notApplicable)

/-- The results whose run has a mode. -/
def modeRows : List ResultRow := s.terminal.filter (·.actualMode.isSome)

/-- `hard`: the hard violations of the campaign. -/
def hard : List (String × Nat) :=
  hardViolations s.campaign s.rows s.invocations s.currentSourceDigest

/-- A column of the ledger as an amount of money. -/
def ledgerDecimal (field : String) (value : Int) : Except Exn {q : Rat // 0 ≤ q} :=
  if h : 0 ≤ value then
    .ok ⟨(value : Rat) / moneyQuantum, by positivity⟩
  else
    .error (.valueError (field ++ " must be finite and non-negative"))

theorem nonneg_of_none : ∀ q ∈ (none : Option Rat), 0 ≤ q := by simp

/-- `projected_cost`: what a full campaign would cost at the price of this one. -/
def projectedCost : Except Exn {c : Option Rat // ∀ q ∈ c, 0 ≤ q} := do
  if s.policy.kind = .smoke ∧ s.terminal ≠ [] then
    let observed ← ledgerDecimal "observed_estimated_cost" s.campaign.ledger.observedEstimatedCost
    let possibly ← ledgerDecimal "possibly_billed_cost_charge"
      s.campaign.ledger.possiblyBilledCostCharge
    return ⟨some ((observed.1 + possibly.1) * 120 / s.terminal.length), by
      have hobserved := observed.2
      have hpossibly := possibly.2
      rintro q ⟨⟩
      positivity⟩
  return ⟨none, nonneg_of_none⟩

/-- `_aggregate`: the metrics of the campaign. -/
def aggregate : Except Exn CampaignMetrics := do
  let projected ← s.projectedCost
  return {
    terminalResults := s.terminal.length
    actualFastResults := s.terminal.countP (·.actualMode = some "FAST")
    actualResearchResults := s.terminal.countP (·.actualMode = some "RESEARCH")
    distinctCaseCount := (s.terminal.map (·.result.caseId)).dedup.length
    unanswerableCaseCount := (s.unanswerable.map (·.result.caseId)).dedup.length
    unanswerableTerminalResults := s.unanswerable.length
    completedReviews := s.reviews.length
    unreviewableReviews := s.reviews.countP (·.correctnessVerdict = .unreviewable)
    validGoldCaseCount := ((goldValues s.terminal).map (·.1)).dedup.length
    hardViolationCounts := s.hard
    fastLatencyMs := latencies s.terminal "FAST" s.policy.fastLatencyP95Ms
    researchLatencyMs := latencies s.terminal "RESEARCH" s.policy.researchLatencyP95Ms
    modeMatchCount := s.modeRows.countP fun r => r.actualMode = some r.expectedMode
    modeTotalCount := s.modeRows.length
    coverageMacroBps := caseMacroBps (coverageValues s.terminal)
    coverageStratumBps := coverageStrata.map fun stratum =>
      caseMacroBps (coverageValues (inStratum s.terminal stratum))
    goldPassCount := s.goldValid.countP (·.status = .pass)
    goldTotalCount := s.goldValid.length
    goldMacroBps := some (caseMacroBps (goldValues s.terminal))
    reviewCorrectCount := s.reviews.countP (·.correctnessVerdict = .correct)
    reviewCitationRelevancePassCount := s.reviews.countP (·.citationRelevance = .pass)
    reviewSourceAppropriatenessPassCount := s.reviews.countP (·.sourceAppropriateness = .pass)
    reviewFreshnessPassCount := s.reviews.countP (·.freshness = .pass)
    reviewCompletenessPassCount := s.reviews.countP (·.completeness = .pass)
    reviewTotalCount := s.reviews.length
    unanswerableGapCount := s.unanswerable.countP (·.explicitGap)
    unanswerableGapTotal := s.unanswerable.length
    degradedCount := s.terminal.countP (·.result.degraded)
    infrastructureFailureCount := s.terminal.countP fun r =>
      r.result.errorClass = some .infrastructure
        || "infrastructure_failure" ∈ r.result.errorSignalFlags
    projectedFullCostUsd := projected.1.map (↑)
    costStopTriggered := s.campaign.stopIntent = .budget
    callCeilingTriggered := s.campaign.stopIntent = .callCeiling
    ratios := by
      refine ⟨caseMacroBps_le coverageValues_le_one, ?_, ?_⟩
      · intro v hv
        obtain ⟨stratum, -, rfl⟩ := List.mem_map.mp hv
        exact caseMacroBps_le coverageValues_le_one
      · rintro v ⟨⟩
        exact caseMacroBps_le goldValues_le_one
    violations := hardViolations_named _ _ _ _
    cost := by
      intro q hq
      obtain ⟨c, hc, rfl⟩ := Option.map_eq_some_iff.mp hq
      exact WithTop.coe_le_coe.mpr (projected.2 c hc) }

/-! ## Finality -/

/-- `_SAMPLE_RULES_EXCEPT_REVIEW`. -/
def sampleRulesExceptReview : List String :=
  ["terminal_sample", "actual_fast_sample", "actual_research_sample", "distinct_case_sample",
    "unanswerable_case_sample", "unanswerable_run_sample", "gold_case_sample"]

/-- `_finalization_state`: why the report is final, if it is. -/
def finalizationReason (metrics : CampaignMetrics) (provisional : GateDecision) : Option String :=
  let c := s.campaign
  -- A pause is a checkpoint: even a campaign with a hard violation is not ended by it.
  if c.status = .paused ∨ c.stopIntent = .pause then none
  else if provisional.rules.any fun r => r.ruleId = "hard_safety" && !r.passed then
    some "fatal_safety"
  else if c.status = .completed ∨ c.status = .aborted then some "terminal_campaign"
  else if !isSealed c s.rows then none
  else if provisional.rules.any fun r => r.ruleId ∈ sampleRulesExceptReview && !r.passed then
    some "sealed_insufficient_sample"
  else if s.policy.requiredReviews = 0 then some "operational_gate_complete"
  else if metrics.unreviewableReviews ≠ 0 then some "unreviewable_sample"
  else if s.policy.requiredReviews ≤ metrics.completedReviews then some "review_complete"
  else if c.reviewDeadlineAt.any (· ≤ s.databaseNow) then some "review_deadline_expired"
  else if c.stopIntent = .abort ∨ c.stopIntent = .fatal ∨ c.stopIntent = .budget
      ∨ c.stopIntent = .callCeiling then some "controlled_stop"
  else none

end CampaignReportSnapshot

/-- `_only_review_is_pending`. -/
def GateDecision.onlyReviewIsPending (d : GateDecision) : Bool :=
  let failed := (d.rules.filter fun r => !r.passed && r.ruleId ∈
    "review_sample" :: CampaignReportSnapshot.sampleRulesExceptReview).map (·.ruleId)
  failed ≠ [] && failed.all (· = "review_sample")

/-- `_automatic_status`. -/
def GateDecision.automaticStatus (d : GateDecision) : String :=
  let failures := d.rules.filter fun r =>
    !r.passed && !r.ruleId.startsWith "review_"
      && !decide (r.ruleId ∈ ["hard_safety", "hard_manual_major_error"])
  if failures.any (·.ruleId.startsWith "hard_") then "FAIL"
  else if failures = [] then "PASS"
  else match d.status with
    | .pending => "PENDING"
    | .insufficientSample => "INSUFFICIENT_SAMPLE"
    | _ => "FAIL"

namespace CampaignReportSnapshot

variable (s : CampaignReportSnapshot)

/-- `_manual_status`. -/
def manualStatus (metrics : CampaignMetrics) : String :=
  if s.policy.requiredReviews = 0 then "NOT_REQUIRED"
  else if metrics.unreviewableReviews ≠ 0 then "INSUFFICIENT_SAMPLE"
  else if metrics.hardViolationCounts.any fun v => v.1 = "manual_major_error" && v.2 ≠ 0 then "FAIL"
  else if s.policy.requiredReviews ≤ metrics.completedReviews then "COMPLETE"
  else if s.campaign.reviewDeadlineAt.any (· ≤ s.databaseNow) then "INSUFFICIENT_SAMPLE"
  else "PENDING"

/-- `_verify_frozen_assets`. -/
def verifyFrozenAssets : Except Exn Unit :=
  s.assets.forM fun a =>
    check (a.snapshotHash = a.storedHash)
      (.invariant "Frozen Campaign policy asset hash does not match"
        "campaign_policy_snapshot_mismatch")

end CampaignReportSnapshot

/-- `PreparedCampaignReport`. -/
structure PreparedCampaignReport where
  campaignId : Uuid
  campaignStatus : CampaignStatus
  campaignVersion : Nat
  decision : GateDecision
  automaticGateStatus : String
  manualReviewStatus : String
  /-- `finalization_reason`; a report that has one is `finalizable`. -/
  finalizationReason : Option String
  /-- The digests of the decision input and of the two texts. -/
  text : FinalReport
deriving DecidableEq, Repr

/-- `finalizable`. -/
def PreparedCampaignReport.finalizable (p : PreparedCampaignReport) : Bool :=
  p.finalizationReason.isSome

/-- The decision of a report that is not final. -/
def GateDecision.draft (d : GateDecision) : GateDecision :=
  if d.onlyReviewIsPending then ⟨.pending, "PENDING_REVIEW", d.rules⟩
  else if d.status ≠ .pending then ⟨.pending, "PENDING_EXECUTION", d.rules⟩
  else d

/-- `decision`: of a final report, and of a draft. -/
def CampaignReportSnapshot.decision (s : CampaignReportSnapshot) (metrics : CampaignMetrics)
    (provisional : GateDecision) (finalizable : Bool) : Except Exn GateDecision :=
  if finalizable then metrics.evaluate s.policy true else .ok provisional.draft

/-- `_report_payload` and `_markdown`: the text of a report with the given decision. -/
abbrev Renderer := CampaignReportSnapshot → CampaignMetrics → GateDecision → Except Exn FinalReport

/-- `prepare`. -/
def CampaignReportSnapshot.prepare (s : CampaignReportSnapshot) (render : Renderer) :
    Except Exn PreparedCampaignReport := do
  s.verifyFrozenAssets
  let metrics ← s.aggregate
  let provisional ← metrics.evaluate s.policy false
  let reason := s.finalizationReason metrics provisional
  let decision ← s.decision metrics provisional reason.isSome
  let text ← render s metrics decision
  return {
    campaignId := s.campaign.id
    campaignStatus := s.campaign.status
    campaignVersion := s.campaign.version
    decision
    automaticGateStatus := decision.automaticStatus
    manualReviewStatus := s.manualStatus metrics
    finalizationReason := reason
    text }

/--
What `generate` does with a prepared report: a draft is handed out as it is (`none`), a final
one becomes the binding it asks for.
-/
def PreparedCampaignReport.generate (p : PreparedCampaignReport) (ownerUserId : Uuid) :
    Except Exn (Option FinalReportBinding) := do
  if !p.finalizable then
    check (p.decision.status = .pending)
      (.invariant "Non-final Campaign report produced a terminal decision"
        "report_finalization_state_invalid")
    return none
  check (p.decision.status ≠ .pending)
    (.invariant "Final Campaign report has no terminal gate decision"
      "report_finalization_state_invalid")
  return some {
    campaignId := p.campaignId
    ownerUserId
    expectedCampaignStatus := p.campaignStatus
    expectedCampaignVersion := p.campaignVersion
    gateStatus := p.decision.status
    finalizationReason := p.finalizationReason.getD "final"
    report := p.text }

end Sana.Shadow
