import Mathlib.Algebra.GroupWithZero.Nat
import Mathlib.Algebra.Order.Monoid.Unbundled.WithTop
import Mathlib.Algebra.Order.Ring.Unbundled.Rat
import Sana.Lib.Transition
import Sana.Shadow.Domain

/-!
# The release gate

The evaluator reads what the report has counted and decides by a list of rules. The hard
rules come first and end in FAIL, then the sizes of the sample, which end in PENDING or
INSUFFICIENT_SAMPLE, then the integrity of the measurements, and last the quality and
latency rules. Rates are compared in whole basis points, rounded down.
-/

namespace Sana.Shadow

open Sana.Lib

/-- `GateKind`. -/
inductive GateKind
  | smoke | full
deriving DecidableEq, Repr

/-- `GatePolicy`, with the checks of its constructor. Costs are in USD, and `⊤` is `Infinity`. -/
structure GatePolicy where
  version : String
  kind : GateKind
  minTerminalResults : Nat
  minActualFastResults : Nat
  minActualResearchResults : Nat
  minDistinctCases : Nat
  minUnanswerableCases : Nat
  minUnanswerableResults : Nat
  requiredReviews : Nat
  requiredGoldCases : Nat
  fastLatencyP95Ms : Nat
  researchLatencyP95Ms : Nat
  minModeAccuracyBps : Nat
  minCoverageMacroBps : Nat
  minCoverageStratumBps : Nat
  minGoldPassBps : Nat
  minReviewCorrectBps : Nat
  minReviewCitationBps : Nat
  minReviewSourceBps : Nat
  minReviewFreshnessBps : Nat
  minReviewCompletenessBps : Nat
  minUnanswerableGapBps : Nat
  maxDegradedBps : Nat
  maxInfrastructureFailureBps : Nat
  maxProjectedFullCostUsd : Option (WithTop Rat) := none
  requireEveryRunWithinDeadline : Bool := false
  requireExactSampleCounts : Bool := false
  named : Text.isBlank version = false
  latencies : 0 < fastLatencyP95Ms ∧ 0 < researchLatencyP95Ms
  basisPoints : ∀ v ∈ [minModeAccuracyBps, minCoverageMacroBps, minCoverageStratumBps,
    minGoldPassBps, minReviewCorrectBps, minReviewCitationBps, minReviewSourceBps,
    minReviewFreshnessBps, minReviewCompletenessBps, minUnanswerableGapBps, maxDegradedBps,
    maxInfrastructureFailureBps], v ≤ 10000
  cost : ∀ c ∈ maxProjectedFullCostUsd, ((0 : Rat) : WithTop Rat) < c

/-- `operational_only`. -/
def GatePolicy.operationalOnly (p : GatePolicy) : Bool := p.kind = .smoke

/-- `CampaignMetrics`, with the checks of its constructor. -/
structure CampaignMetrics where
  terminalResults : Nat
  actualFastResults : Nat
  actualResearchResults : Nat
  distinctCaseCount : Nat
  unanswerableCaseCount : Nat
  unanswerableTerminalResults : Nat
  completedReviews : Nat
  unreviewableReviews : Nat
  validGoldCaseCount : Nat
  hardViolationCounts : List (String × Nat) := []
  fastLatencyMs : List Nat := []
  researchLatencyMs : List Nat := []
  modeMatchCount : Nat := 0
  modeTotalCount : Nat := 0
  coverageMacroBps : Nat := 0
  coverageStratumBps : List Nat := []
  goldPassCount : Nat := 0
  goldTotalCount : Nat := 0
  goldMacroBps : Option Nat := none
  reviewCorrectCount : Nat := 0
  reviewCitationRelevancePassCount : Nat := 0
  reviewSourceAppropriatenessPassCount : Nat := 0
  reviewFreshnessPassCount : Nat := 0
  reviewCompletenessPassCount : Nat := 0
  reviewTotalCount : Nat := 0
  unanswerableGapCount : Nat := 0
  unanswerableGapTotal : Nat := 0
  degradedCount : Nat := 0
  infrastructureFailureCount : Nat := 0
  projectedFullCostUsd : Option (WithTop Rat) := none
  costStopTriggered : Bool := false
  callCeilingTriggered : Bool := false
  ratios : coverageMacroBps ≤ 10000 ∧ (∀ v ∈ coverageStratumBps, v ≤ 10000)
    ∧ ∀ v ∈ goldMacroBps, v ≤ 10000
  violations : (hardViolationCounts.map (·.1)).Nodup
    ∧ ∀ v ∈ hardViolationCounts, Text.isBlank v.1 = false
  cost : ∀ c ∈ projectedFullCostUsd, ((0 : Rat) : WithTop Rat) ≤ c

/-- What a rule shows: a count, an amount, or a text. -/
inductive Shown
  | count (n : Nat)
  | amount (q : WithTop Rat)
  | text (s : String)
deriving DecidableEq, Repr

/-- `GateRuleResult`. -/
structure GateRuleResult where
  ruleId : String
  observed : Shown
  threshold : Shown
  sampleSize : Nat
  passed : Bool
  reasonCode : String
deriving DecidableEq, Repr

/-- `GateDecision`. -/
structure GateDecision where
  status : GateStatus
  decisionState : String
  rules : List GateRuleResult
deriving DecidableEq, Repr

/-- `_rule`. -/
def rule (ruleId : String) (observed threshold : Shown) (sampleSize : Nat) (passed : Bool) :
    GateRuleResult where
  ruleId := ruleId
  observed := observed
  threshold := threshold
  sampleSize := sampleSize
  passed := passed
  reasonCode := ruleId ++ "_" ++ if passed then "passed" else "failed"

/-- `nearest_rank_percentile`. -/
def nearestRankPercentile (values : List Nat) (percentile : Nat) : Except Exn Nat := do
  check (!values.isEmpty) (.valueError "Percentile requires at least one value")
  check (1 ≤ percentile && percentile ≤ 100)
    (.valueError "Percentile must be between 1 and 100")
  let ordered := values.mergeSort fun a b => decide (a ≤ b)
  let rank := (percentile * ordered.length + 99) / 100
  return ordered.getD (rank - 1) 0

/-- `_basis_points`. -/
def basisPoints (numerator denominator : Nat) : Except Exn Nat := do
  check (0 < denominator && numerator ≤ denominator)
    (.valueError "Ratio requires 0 <= numerator <= denominator and denominator > 0")
  return numerator * 10000 / denominator

/-- A rule that a rate is at least `threshold`. -/
def rateAtLeast (ruleId : String) (numerator denominator threshold : Nat) :
    Except Exn GateRuleResult := do
  let bps ← basisPoints numerator denominator
  return rule ruleId (.count bps) (.count threshold) denominator (threshold ≤ bps)

/-- A rule that a rate is at most `threshold`. -/
def rateAtMost (ruleId : String) (numerator denominator threshold : Nat) :
    Except Exn GateRuleResult := do
  let bps ← basisPoints numerator denominator
  return rule ruleId (.count bps) (.count threshold) denominator (bps ≤ threshold)

namespace CampaignMetrics

variable (m : CampaignMetrics) (p : GatePolicy)

/-- `basic_integrity_errors`. -/
def basicIntegrityErrors : Nat :=
  [decide (m.terminalResults < m.actualFastResults + m.actualResearchResults),
   decide (m.terminalResults < m.distinctCaseCount),
   decide (m.distinctCaseCount < m.unanswerableCaseCount),
   decide (m.terminalResults < m.unanswerableTerminalResults),
   decide (m.distinctCaseCount < m.validGoldCaseCount),
   decide (m.terminalResults < m.completedReviews),
   decide (m.completedReviews < m.unreviewableReviews),
   decide (m.modeTotalCount < m.modeMatchCount),
   decide (m.goldTotalCount < m.goldPassCount),
   decide (m.completedReviews < m.reviewTotalCount),
   decide (m.reviewTotalCount < m.reviewCorrectCount),
   decide (m.reviewTotalCount < m.reviewCitationRelevancePassCount),
   decide (m.reviewTotalCount < m.reviewSourceAppropriatenessPassCount),
   decide (m.reviewTotalCount < m.reviewFreshnessPassCount),
   decide (m.reviewTotalCount < m.reviewCompletenessPassCount),
   decide (m.unanswerableGapTotal < m.unanswerableGapCount),
   decide (m.terminalResults < m.degradedCount),
   decide (m.terminalResults < m.infrastructureFailureCount)].countP id

/-- `hard_total`. -/
def hardTotal : Nat := (m.hardViolationCounts.map (·.2)).sum + m.basicIntegrityErrors

/-- The rules before the sample is looked at. -/
def hardRules : List GateRuleResult :=
  [rule "hard_safety" (.count m.hardTotal) (.count 0) m.terminalResults (m.hardTotal = 0)]
    ++ (if m.basicIntegrityErrors = 0 then [] else
      [rule "metric_integrity" (.count m.basicIntegrityErrors) (.count 0) m.terminalResults false])
    ++ (m.hardViolationCounts.mergeSort fun a b => decide (a.1 ≤ b.1)).map fun v =>
      rule ("hard_" ++ v.1) (.count v.2) (.count 0) m.terminalResults (v.2 = 0)

/-- A size of the sample that must be met, or met exactly. -/
def sampleMet (observed required : Nat) : Bool :=
  if p.requireExactSampleCounts then observed = required else required ≤ observed

/-- `sample_rules`. -/
def sampleRules : List GateRuleResult := [
  rule "terminal_sample" (.count m.terminalResults) (.count p.minTerminalResults)
    m.terminalResults (sampleMet p m.terminalResults p.minTerminalResults),
  rule "actual_fast_sample" (.count m.actualFastResults) (.count p.minActualFastResults)
    m.actualFastResults (sampleMet p m.actualFastResults p.minActualFastResults),
  rule "actual_research_sample" (.count m.actualResearchResults)
    (.count p.minActualResearchResults) m.actualResearchResults
    (sampleMet p m.actualResearchResults p.minActualResearchResults),
  rule "distinct_case_sample" (.count m.distinctCaseCount) (.count p.minDistinctCases)
    m.distinctCaseCount (sampleMet p m.distinctCaseCount p.minDistinctCases),
  rule "unanswerable_case_sample" (.count m.unanswerableCaseCount) (.count p.minUnanswerableCases)
    m.unanswerableCaseCount (p.minUnanswerableCases ≤ m.unanswerableCaseCount),
  rule "unanswerable_run_sample" (.count m.unanswerableTerminalResults)
    (.count p.minUnanswerableResults) m.unanswerableTerminalResults
    (p.minUnanswerableResults ≤ m.unanswerableTerminalResults),
  rule "review_sample" (.count m.completedReviews) (.count p.requiredReviews) m.completedReviews
    (p.requiredReviews ≤ m.completedReviews && m.unreviewableReviews = 0),
  rule "gold_case_sample" (.count m.validGoldCaseCount) (.count p.requiredGoldCases)
    m.validGoldCaseCount (p.requiredGoldCases ≤ m.validGoldCaseCount)]

/-- `quality_integrity_errors`. -/
def qualityIntegrityErrors : Nat :=
  [decide (m.fastLatencyMs.length < p.minActualFastResults),
   decide (m.researchLatencyMs.length < p.minActualResearchResults),
   !p.operationalOnly && m.coverageStratumBps.length != 4,
   !p.operationalOnly && m.modeTotalCount == 0,
   !p.operationalOnly && m.goldTotalCount == 0,
   !p.operationalOnly && m.reviewTotalCount == 0,
   !p.operationalOnly && m.unanswerableGapTotal == 0].countP id

/-- `deadline_breaches`. -/
def deadlineBreaches : Nat :=
  m.fastLatencyMs.countP (p.fastLatencyP95Ms < ·)
    + m.researchLatencyMs.countP (p.researchLatencyP95Ms < ·)

/-- The rule that every run keeps its deadline, where the policy has it. -/
def deadlineRules : List GateRuleResult :=
  if p.requireEveryRunWithinDeadline then
    [rule "all_run_deadlines" (.count (m.deadlineBreaches p)) (.count 0)
      (m.fastLatencyMs.length + m.researchLatencyMs.length) (m.deadlineBreaches p = 0)]
  else []

/-- The rule about the cost of a full campaign, where the policy has it. -/
def costRules : List GateRuleResult :=
  match p.maxProjectedFullCostUsd with
  | none => []
  | some limit =>
      [rule "projected_full_cost" (m.projectedFullCostUsd.elim (.text "MISSING") .amount)
        (.amount limit) m.terminalResults (m.projectedFullCostUsd.any (· ≤ limit))]

/-- The rules about latency, limits and cost. -/
def operationalRules : Except Exn (List GateRuleResult) := do
  let fastP95 ← nearestRankPercentile m.fastLatencyMs 95
  let researchP95 ← nearestRankPercentile m.researchLatencyMs 95
  return [
    rule "fast_p95_ms" (.count fastP95) (.count p.fastLatencyP95Ms) m.fastLatencyMs.length
      (fastP95 ≤ p.fastLatencyP95Ms),
    rule "research_p95_ms" (.count researchP95) (.count p.researchLatencyP95Ms)
      m.researchLatencyMs.length (researchP95 ≤ p.researchLatencyP95Ms),
    rule "cost_stop_not_triggered" (.count m.costStopTriggered.toNat) (.count 0) m.terminalResults
      (!m.costStopTriggered),
    rule "call_ceiling_not_triggered" (.count m.callCeilingTriggered.toNat) (.count 0)
      m.terminalResults (!m.callCeilingTriggered)] ++ m.deadlineRules p ++ m.costRules p

/-- The gold pass rate: the macro average where the report has one. -/
def goldRule : Except Exn GateRuleResult := do
  let bps ← m.goldMacroBps.elim (basisPoints m.goldPassCount m.goldTotalCount) .ok
  return rule "gold_pass_rate" (.count bps) (.count p.minGoldPassBps) m.goldTotalCount
    (p.minGoldPassBps ≤ bps)

/-- `min(coverage_stratum_bps)`. -/
def minimumStratum : Except Exn Nat :=
  match m.coverageStratumBps.min? with
  | some v => .ok v
  | none => .error (.valueError "min() iterable argument is empty")

/-- The rules about quality. -/
def ratioRules : Except Exn (List GateRuleResult) := do
  let mode ← rateAtLeast "mode_accuracy" m.modeMatchCount m.modeTotalCount p.minModeAccuracyBps
  let gold ← m.goldRule p
  let correct ← rateAtLeast "review_correct" m.reviewCorrectCount m.reviewTotalCount
    p.minReviewCorrectBps
  let citation ← rateAtLeast "review_citation_relevance" m.reviewCitationRelevancePassCount
    m.reviewTotalCount p.minReviewCitationBps
  let source ← rateAtLeast "review_source_appropriateness"
    m.reviewSourceAppropriatenessPassCount m.reviewTotalCount p.minReviewSourceBps
  let freshness ← rateAtLeast "review_freshness" m.reviewFreshnessPassCount m.reviewTotalCount
    p.minReviewFreshnessBps
  let completeness ← rateAtLeast "review_completeness" m.reviewCompletenessPassCount
    m.reviewTotalCount p.minReviewCompletenessBps
  let gap ← rateAtLeast "unanswerable_explicit_gap" m.unanswerableGapCount m.unanswerableGapTotal
    p.minUnanswerableGapBps
  let degraded ← rateAtMost "degraded_rate" m.degradedCount m.terminalResults p.maxDegradedBps
  let infrastructure ← rateAtMost "infrastructure_failure_rate" m.infrastructureFailureCount
    m.terminalResults p.maxInfrastructureFailureBps
  let stratum ← m.minimumStratum
  return [mode,
    rule "coverage_macro" (.count m.coverageMacroBps) (.count p.minCoverageMacroBps)
      m.distinctCaseCount (p.minCoverageMacroBps ≤ m.coverageMacroBps),
    rule "coverage_stratum_min" (.count stratum) (.count p.minCoverageStratumBps)
      m.coverageStratumBps.length (p.minCoverageStratumBps ≤ stratum),
    gold, correct, citation, source, freshness, completeness, gap, degraded, infrastructure]

/-- `quality_rules`. -/
def qualityRules : Except Exn (List GateRuleResult) := do
  let operational ← m.operationalRules p
  if p.operationalOnly then
    return operational ++ [rule "infrastructure_failure_count"
      (.count m.infrastructureFailureCount) (.count 0) m.terminalResults
      (m.infrastructureFailureCount = 0)]
  return operational ++ (← m.ratioRules p)

/-- `evaluate`. -/
def evaluate (final : Bool) : Except Exn GateDecision := do
  if m.hardTotal ≠ 0 then
    return ⟨.fail, "FINAL_FAIL", m.hardRules⟩
  let rules := m.hardRules ++ m.sampleRules p
  if !(m.sampleRules p).all (·.passed) then
    return if final then ⟨.insufficientSample, "FINAL_INSUFFICIENT_SAMPLE", rules⟩
      else ⟨.pending, "PENDING_SAMPLE", rules⟩
  let rules := rules ++ [rule "metric_integrity" (.count (m.qualityIntegrityErrors p)) (.count 0)
    m.terminalResults (m.qualityIntegrityErrors p = 0)]
  if m.qualityIntegrityErrors p ≠ 0 then
    return ⟨.fail, "FINAL_FAIL", rules⟩
  let quality ← m.qualityRules p
  if quality.all (·.passed) then
    return ⟨.pass, "FINAL_PASS", rules ++ quality⟩
  return ⟨.fail, "FINAL_FAIL", rules ++ quality⟩

end CampaignMetrics

end Sana.Shadow
