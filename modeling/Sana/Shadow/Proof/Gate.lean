import Mathlib.Tactic
import Sana.Lib.Table
import Sana.Shadow.Evaluator

/-!
# What a PASS of the release gate means

`Requirements` says what the gate asks of a campaign, measurement by measurement, without
the evaluator's rules. The evaluator passes a campaign exactly if it meets them
(`evaluate_pass_iff`). So a PASS can be read off, and a worse campaign cannot do better:
what turns an observation into a failure makes no requirement easier. There is one
exception, and it is not about quality. A counter above its denominator is an error of
the measurements, and lowering it mends the error.

A rate is compared in basis points rounded down. For a lower limit nothing is lost by it;
for an upper limit a rate less than one basis point above it passes.
-/

namespace Sana.Shadow

open Sana.Lib

/-! ## Rates -/

theorem basisPoints_ok {n d v : Nat} :
    basisPoints n d = .ok v ↔ 0 < d ∧ n ≤ d ∧ n * 10000 / d = v := by
  simp only [basisPoints, bind_ok_iff, pure_ok_iff, check_eq_ok, Bool.and_eq_true,
    decide_eq_true_eq, exists_and_left, exists_const, and_assoc]

/-- Rounding down does not matter for a lower limit. -/
theorem le_floor_iff {n d t : Nat} (hd : 0 < d) : t ≤ n * 10000 / d ↔ t * d ≤ n * 10000 :=
  Nat.le_div_iff_mul_le hd

/-- For an upper limit it is worth up to one basis point. -/
theorem floor_le_iff {n d t : Nat} (hd : 0 < d) : n * 10000 / d ≤ t ↔ n * 10000 < (t + 1) * d := by
  rw [← Nat.lt_succ_iff, Nat.div_lt_iff_lt_mul hd]

theorem rateAtLeast_passes (id : String) {n d t : Nat} :
    (∃ r, rateAtLeast id n d t = .ok r ∧ r.passed = true)
      ↔ 0 < d ∧ n ≤ d ∧ t * d ≤ n * 10000 := by
  simp only [rateAtLeast, bind_ok_iff, pure_ok_iff, basisPoints_ok]
  constructor
  · rintro ⟨_, ⟨v, ⟨hd, hn, rfl⟩, rfl⟩, hpass⟩
    exact ⟨hd, hn, (le_floor_iff hd).mp (of_decide_eq_true hpass)⟩
  · rintro ⟨hd, hn, ht⟩
    exact ⟨_, ⟨_, ⟨hd, hn, rfl⟩, rfl⟩, decide_eq_true ((le_floor_iff hd).mpr ht)⟩

theorem rateAtMost_passes (id : String) {n d t : Nat} :
    (∃ r, rateAtMost id n d t = .ok r ∧ r.passed = true)
      ↔ 0 < d ∧ n ≤ d ∧ n * 10000 < (t + 1) * d := by
  simp only [rateAtMost, bind_ok_iff, pure_ok_iff, basisPoints_ok]
  constructor
  · rintro ⟨_, ⟨v, ⟨hd, hn, rfl⟩, rfl⟩, hpass⟩
    exact ⟨hd, hn, (floor_le_iff hd).mp (of_decide_eq_true hpass)⟩
  · rintro ⟨hd, hn, ht⟩
    exact ⟨_, ⟨_, ⟨hd, hn, rfl⟩, rfl⟩, decide_eq_true ((floor_le_iff hd).mpr ht)⟩

/--
**How exact the ratio rules are.** A rule that a rate is at least a threshold is exact. A rule
that it is at most a threshold is exact except where the rate lies strictly between the
threshold and the next basis point; there it passes.
-/
theorem ratio_rules_exact (id : String) (n d t : Nat) (hd : 0 < d) (hn : n ≤ d) :
    (∃ r, rateAtLeast id n d t = .ok r ∧ (r.passed = true ↔ t * d ≤ n * 10000)) ∧
    ∃ r, rateAtMost id n d t = .ok r ∧
      ((r.passed = true ↔ n * 10000 ≤ t * d)
        ↔ ¬(t * d < n * 10000 ∧ n * 10000 < (t + 1) * d)) := by
  have hbps : basisPoints n d = .ok (n * 10000 / d) := basisPoints_ok.mpr ⟨hd, hn, rfl⟩
  refine ⟨⟨_, by rw [rateAtLeast, hbps]; rfl, ?_⟩, ⟨_, by rw [rateAtMost, hbps]; rfl, ?_⟩⟩
  · simp only [rule, decide_eq_true_eq]
    exact le_floor_iff hd
  · simp only [rule, decide_eq_true_eq, floor_le_iff hd]
    have hstep : (t + 1) * d = t * d + d := Nat.succ_mul t d
    constructor
    · rintro hexact ⟨habove, hbelow⟩
      exact absurd (hexact.mp hbelow) (by omega)
    · intro hnot
      constructor
      · intro hbelow
        by_contra habove
        exact hnot ⟨by omega, hbelow⟩
      · intro hle
        omega

theorem ratio_rules_exact_half :
    (∃ r, rateAtLeast "mode_accuracy" 1 2 5000 = .ok r ∧ (r.passed = true ↔ 5000 * 2 ≤ 1 * 10000)) ∧
    ∃ r, rateAtMost "degraded_rate" 1 2 5000 = .ok r ∧
      ((r.passed = true ↔ 1 * 10000 ≤ 5000 * 2)
        ↔ ¬(5000 * 2 < 1 * 10000 ∧ 1 * 10000 < (5000 + 1) * 2)) := by
  obtain ⟨hleast, _⟩ := ratio_rules_exact "mode_accuracy" 1 2 5000 (by decide) (by decide)
  obtain ⟨_, hmost⟩ := ratio_rules_exact "degraded_rate" 1 2 5000 (by decide) (by decide)
  exact ⟨hleast, hmost⟩

/-- 51 degraded results of 1019 are more than five percent, and pass a limit of 500 basis points. -/
theorem ratio_above_limit_passes :
    (∃ r, rateAtMost "degraded_rate" 51 1019 500 = .ok r ∧ r.passed = true) ∧
      ¬ 51 * 10000 ≤ 500 * 1019 :=
  ⟨⟨_, rfl, by decide⟩, by decide⟩

/-! ## Percentiles -/

/-- In a sorted list the entries up to a bound come first. -/
theorem getD_le_iff_lt_countP {l : List Nat} (hl : l.Pairwise (· ≤ ·)) (t : Nat) :
    ∀ k < l.length, l.getD k 0 ≤ t ↔ k < l.countP (· ≤ t) := by
  induction l with
  | nil => simp
  | cons a l ih =>
      rw [List.pairwise_cons] at hl
      intro k hk
      by_cases ha : a ≤ t
      · rw [List.countP_cons_of_pos (by simpa using ha)]
        cases k with
        | zero => simpa using ha
        | succ k =>
            rw [List.getD_cons_succ, ih hl.2 k (by simpa using hk)]
            omega
      · -- everything behind a value above the bound is above it as well
        have hnone : l.countP (· ≤ t) = 0 := by
          rw [List.countP_eq_zero]
          intro b hb
          have := hl.1 b hb
          simp only [decide_eq_true_eq]
          omega
        rw [List.countP_cons_of_neg (by simpa using ha), hnone]
        cases k with
        | zero => simpa using ha
        | succ k =>
            have hk' : k < l.length := by simpa using hk
            have hmem : l.getD k 0 ∈ l := by
              simp only [List.getD, List.getElem?_eq_getElem hk', Option.getD_some]
              exact List.getElem_mem hk'
            have := hl.1 _ hmem
            rw [List.getD_cons_succ]
            omega

/-- The rank of the 95th percentile. -/
def rank95 (values : List Nat) : Nat := (95 * values.length + 99) / 100

/-- **The percentile is within a bound if enough of the values are.** -/
theorem percentile_le_iff {values : List Nat} {t : Nat} :
    (∃ v, nearestRankPercentile values 95 = .ok v ∧ v ≤ t)
      ↔ values ≠ [] ∧ rank95 values ≤ values.countP (· ≤ t) := by
  have hperm := List.mergeSort_perm values fun a b => decide (a ≤ b)
  have hsorted : (values.mergeSort fun a b => decide (a ≤ b)).Pairwise (· ≤ ·) := by
    have : (values.mergeSort fun a b => decide (a ≤ b)).Pairwise fun a b => decide (a ≤ b) = true :=
      List.pairwise_mergeSort (by intro a b c; simp only [decide_eq_true_eq]; omega)
      (by intro a b; simp only [Bool.or_eq_true, decide_eq_true_eq]; omega) values
    simpa using this
  simp only [nearestRankPercentile, bind_ok_iff, pure_ok_iff, check_eq_ok]
  by_cases hne : values = []
  · subst hne
    simp
  have hpos : 0 < values.length := List.length_pos_iff.mpr hne
  have hlen : (values.mergeSort fun a b => decide (a ≤ b)).length = values.length := hperm.length_eq
  have hrank : 0 < rank95 values ∧ rank95 values ≤ values.length := by
    unfold rank95
    omega
  have hiff := getD_le_iff_lt_countP hsorted t (rank95 values - 1) (by omega)
  rw [hperm.countP_eq] at hiff
  constructor
  · rintro ⟨_, ⟨_, _, _, _, rfl⟩, hv⟩
    rw [hlen] at hv
    exact ⟨hne, by have := hiff.mp hv; omega⟩
  · rintro ⟨_, hcount⟩
    refine ⟨_, ⟨(), by simpa using hne, (), by decide, rfl⟩, ?_⟩
    rw [hlen]
    exact hiff.mpr (by omega)

/-! ## What the gate asks for -/

namespace CampaignMetrics

/-- No counter is above what it is counted among. -/
structure Consistent (m : CampaignMetrics) : Prop where
  modes : m.actualFastResults + m.actualResearchResults ≤ m.terminalResults
  cases' : m.distinctCaseCount ≤ m.terminalResults
  unanswerableCases : m.unanswerableCaseCount ≤ m.distinctCaseCount
  unanswerableResults : m.unanswerableTerminalResults ≤ m.terminalResults
  goldCases : m.validGoldCaseCount ≤ m.distinctCaseCount
  reviews : m.completedReviews ≤ m.terminalResults
  unreviewable : m.unreviewableReviews ≤ m.completedReviews
  mode : m.modeMatchCount ≤ m.modeTotalCount
  gold : m.goldPassCount ≤ m.goldTotalCount
  reviewTotal : m.reviewTotalCount ≤ m.completedReviews
  correct : m.reviewCorrectCount ≤ m.reviewTotalCount
  citation : m.reviewCitationRelevancePassCount ≤ m.reviewTotalCount
  source : m.reviewSourceAppropriatenessPassCount ≤ m.reviewTotalCount
  freshness : m.reviewFreshnessPassCount ≤ m.reviewTotalCount
  completeness : m.reviewCompletenessPassCount ≤ m.reviewTotalCount
  gap : m.unanswerableGapCount ≤ m.unanswerableGapTotal
  degraded : m.degradedCount ≤ m.terminalResults
  infrastructure : m.infrastructureFailureCount ≤ m.terminalResults

/-- The sample is as large as the policy asks for. -/
structure Sampled (m : CampaignMetrics) (p : GatePolicy) : Prop where
  terminal : sampleMet p m.terminalResults p.minTerminalResults = true
  fast : sampleMet p m.actualFastResults p.minActualFastResults = true
  research : sampleMet p m.actualResearchResults p.minActualResearchResults = true
  distinct : sampleMet p m.distinctCaseCount p.minDistinctCases = true
  unanswerableCases : p.minUnanswerableCases ≤ m.unanswerableCaseCount
  unanswerableResults : p.minUnanswerableResults ≤ m.unanswerableTerminalResults
  reviews : p.requiredReviews ≤ m.completedReviews
  reviewable : m.unreviewableReviews = 0
  gold : p.requiredGoldCases ≤ m.validGoldCaseCount

/-- Everything that is judged was measured. -/
structure Measured (m : CampaignMetrics) (p : GatePolicy) : Prop where
  fast : p.minActualFastResults ≤ m.fastLatencyMs.length
  research : p.minActualResearchResults ≤ m.researchLatencyMs.length
  strata : p.operationalOnly = false → m.coverageStratumBps.length = 4
  mode : p.operationalOnly = false → m.modeTotalCount ≠ 0
  gold : p.operationalOnly = false → m.goldTotalCount ≠ 0
  reviews : p.operationalOnly = false → m.reviewTotalCount ≠ 0
  gap : p.operationalOnly = false → m.unanswerableGapTotal ≠ 0

/-- The latencies, the limits of the campaign and its cost are in order. -/
structure Operational (m : CampaignMetrics) (p : GatePolicy) : Prop where
  fast : m.fastLatencyMs ≠ [] ∧
    rank95 m.fastLatencyMs ≤ m.fastLatencyMs.countP (· ≤ p.fastLatencyP95Ms)
  research : m.researchLatencyMs ≠ [] ∧
    rank95 m.researchLatencyMs ≤ m.researchLatencyMs.countP (· ≤ p.researchLatencyP95Ms)
  costStop : m.costStopTriggered = false
  callCeiling : m.callCeilingTriggered = false
  deadlines : p.requireEveryRunWithinDeadline = true →
    (∀ v ∈ m.fastLatencyMs, v ≤ p.fastLatencyP95Ms) ∧
      ∀ v ∈ m.researchLatencyMs, v ≤ p.researchLatencyP95Ms
  cost : ∀ limit ∈ p.maxProjectedFullCostUsd, ∃ c ∈ m.projectedFullCostUsd, c ≤ limit

/-- The quality is as high as the policy asks for. -/
structure Quality (m : CampaignMetrics) (p : GatePolicy) : Prop where
  mode : 0 < m.modeTotalCount ∧ m.modeMatchCount ≤ m.modeTotalCount ∧
    p.minModeAccuracyBps * m.modeTotalCount ≤ m.modeMatchCount * 10000
  coverage : p.minCoverageMacroBps ≤ m.coverageMacroBps
  strata : m.coverageStratumBps ≠ [] ∧ ∀ v ∈ m.coverageStratumBps, p.minCoverageStratumBps ≤ v
  goldMacro : ∀ v ∈ m.goldMacroBps, p.minGoldPassBps ≤ v
  gold : m.goldMacroBps = none → 0 < m.goldTotalCount ∧ m.goldPassCount ≤ m.goldTotalCount ∧
    p.minGoldPassBps * m.goldTotalCount ≤ m.goldPassCount * 10000
  correct : 0 < m.reviewTotalCount ∧ m.reviewCorrectCount ≤ m.reviewTotalCount ∧
    p.minReviewCorrectBps * m.reviewTotalCount ≤ m.reviewCorrectCount * 10000
  citation : 0 < m.reviewTotalCount ∧ m.reviewCitationRelevancePassCount ≤ m.reviewTotalCount ∧
    p.minReviewCitationBps * m.reviewTotalCount ≤ m.reviewCitationRelevancePassCount * 10000
  source : 0 < m.reviewTotalCount ∧ m.reviewSourceAppropriatenessPassCount ≤ m.reviewTotalCount ∧
    p.minReviewSourceBps * m.reviewTotalCount ≤ m.reviewSourceAppropriatenessPassCount * 10000
  freshness : 0 < m.reviewTotalCount ∧ m.reviewFreshnessPassCount ≤ m.reviewTotalCount ∧
    p.minReviewFreshnessBps * m.reviewTotalCount ≤ m.reviewFreshnessPassCount * 10000
  completeness : 0 < m.reviewTotalCount ∧ m.reviewCompletenessPassCount ≤ m.reviewTotalCount ∧
    p.minReviewCompletenessBps * m.reviewTotalCount ≤ m.reviewCompletenessPassCount * 10000
  gap : 0 < m.unanswerableGapTotal ∧ m.unanswerableGapCount ≤ m.unanswerableGapTotal ∧
    p.minUnanswerableGapBps * m.unanswerableGapTotal ≤ m.unanswerableGapCount * 10000
  degraded : 0 < m.terminalResults ∧ m.degradedCount ≤ m.terminalResults ∧
    m.degradedCount * 10000 < (p.maxDegradedBps + 1) * m.terminalResults
  infrastructure : 0 < m.terminalResults ∧ m.infrastructureFailureCount ≤ m.terminalResults ∧
    m.infrastructureFailureCount * 10000 < (p.maxInfrastructureFailureBps + 1) * m.terminalResults

/-- What the gate asks of a campaign. -/
structure Requirements (m : CampaignMetrics) (p : GatePolicy) : Prop where
  violations : ∀ v ∈ m.hardViolationCounts, v.2 = 0
  consistent : m.Consistent
  sampled : m.Sampled p
  measured : m.Measured p
  operational : m.Operational p
  infrastructure : p.operationalOnly = true → m.infrastructureFailureCount = 0
  quality : p.operationalOnly = false → m.Quality p

variable {m m' : CampaignMetrics} {p : GatePolicy}

/-! ## Each group of rules -/

theorem basicIntegrityErrors_eq_zero : m.basicIntegrityErrors = 0 ↔ m.Consistent := by
  simp only [basicIntegrityErrors, List.countP_eq_zero, List.forall_mem_cons, id_eq,
    decide_eq_true_eq, not_lt, List.not_mem_nil, false_implies, implies_true, and_true]
  constructor
  · rintro ⟨a, b, c, d, e, f, g, h, i, j, k, l, m, n, o, p, q, r⟩
    exact ⟨a, b, c, d, e, f, g, h, i, j, k, l, m, n, o, p, q, r⟩
  · rintro ⟨a, b, c, d, e, f, g, h, i, j, k, l, m, n, o, p, q, r⟩
    exact ⟨a, b, c, d, e, f, g, h, i, j, k, l, m, n, o, p, q, r⟩

theorem hardTotal_eq_zero :
    m.hardTotal = 0 ↔ (∀ v ∈ m.hardViolationCounts, v.2 = 0) ∧ m.Consistent := by
  rw [hardTotal, Nat.add_eq_zero_iff, List.sum_eq_zero_iff, basicIntegrityErrors_eq_zero]
  simp only [List.forall_mem_map]

theorem sampleRules_pass : (∀ r ∈ m.sampleRules p, r.passed = true) ↔ m.Sampled p := by
  simp only [sampleRules, List.forall_mem_cons, rule, decide_eq_true_eq, Bool.and_eq_true,
    List.not_mem_nil, false_implies, implies_true, and_true]
  constructor
  · rintro ⟨a, b, c, d, e, f, ⟨g, h⟩, i⟩
    exact ⟨a, b, c, d, e, f, g, h, i⟩
  · rintro ⟨a, b, c, d, e, f, g, h, i⟩
    exact ⟨a, b, c, d, e, f, ⟨g, h⟩, i⟩

theorem qualityIntegrityErrors_eq_zero : m.qualityIntegrityErrors p = 0 ↔ m.Measured p := by
  simp only [qualityIntegrityErrors, List.countP_eq_zero, List.forall_mem_cons, id_eq,
    decide_eq_true_eq, not_lt, Bool.and_eq_true, Bool.not_eq_true', bne_iff_ne, beq_iff_eq,
    not_and, not_not, List.not_mem_nil, false_implies, implies_true, and_true]
  constructor
  · rintro ⟨a, b, c, d, e, f, g⟩
    exact ⟨a, b, c, d, e, f, g⟩
  · rintro ⟨a, b, c, d, e, f, g⟩
    exact ⟨a, b, c, d, e, f, g⟩

theorem deadlineBreaches_eq_zero : m.deadlineBreaches p = 0 ↔
    (∀ v ∈ m.fastLatencyMs, v ≤ p.fastLatencyP95Ms) ∧
      ∀ v ∈ m.researchLatencyMs, v ≤ p.researchLatencyP95Ms := by
  simp only [deadlineBreaches, Nat.add_eq_zero_iff, List.countP_eq_zero, decide_eq_true_eq, not_lt]

theorem deadlineRules_pass : (∀ r ∈ m.deadlineRules p, r.passed = true) ↔
    (p.requireEveryRunWithinDeadline = true →
      (∀ v ∈ m.fastLatencyMs, v ≤ p.fastLatencyP95Ms) ∧
        ∀ v ∈ m.researchLatencyMs, v ≤ p.researchLatencyP95Ms) := by
  unfold deadlineRules
  split
  · rename_i h
    simp [rule, h, deadlineBreaches_eq_zero]
  · rename_i h
    simp [h]

theorem costRules_pass : (∀ r ∈ m.costRules p, r.passed = true) ↔
    ∀ limit ∈ p.maxProjectedFullCostUsd, ∃ c ∈ m.projectedFullCostUsd, c ≤ limit := by
  unfold costRules
  split
  · rename_i h
    simp [h]
  · rename_i limit h
    simp [h, rule, Option.any_eq_true]

theorem operationalRules_pass :
    (∃ rules, m.operationalRules p = .ok rules ∧ ∀ r ∈ rules, r.passed = true)
      ↔ m.Operational p := by
  simp only [operationalRules, bind_ok_iff, pure_ok_iff]
  constructor
  · rintro ⟨_, ⟨fast, hfast, research, hresearch, rfl⟩, hall⟩
    simp only [List.forall_mem_append, List.forall_mem_cons, deadlineRules_pass, costRules_pass]
      at hall
    obtain ⟨⟨⟨hf, hr, hcost, hcall, -⟩, hdeadlines⟩, hprojected⟩ := hall
    simp only [rule, decide_eq_true_eq, Bool.not_eq_true'] at hf hr hcost hcall
    exact ⟨percentile_le_iff.mp ⟨fast, hfast, hf⟩, percentile_le_iff.mp ⟨research, hresearch, hr⟩,
      hcost, hcall, hdeadlines, hprojected⟩
  · rintro ⟨hf, hr, hcost, hcall, hdeadlines, hprojected⟩
    obtain ⟨fast, hfast, hf⟩ := percentile_le_iff.mpr hf
    obtain ⟨research, hresearch, hr⟩ := percentile_le_iff.mpr hr
    refine ⟨_, ⟨fast, hfast, research, hresearch, rfl⟩, ?_⟩
    simp only [List.forall_mem_append, List.forall_mem_cons, deadlineRules_pass, costRules_pass]
    refine ⟨⟨⟨?_, ?_, ?_, ?_, by simp⟩, hdeadlines⟩, hprojected⟩
    · exact decide_eq_true hf
    · exact decide_eq_true hr
    · simp [rule, hcost]
    · simp [rule, hcall]

theorem goldRule_passes : (∃ r, m.goldRule p = .ok r ∧ r.passed = true) ↔
    (∀ v ∈ m.goldMacroBps, p.minGoldPassBps ≤ v) ∧
      (m.goldMacroBps = none → 0 < m.goldTotalCount ∧ m.goldPassCount ≤ m.goldTotalCount ∧
        p.minGoldPassBps * m.goldTotalCount ≤ m.goldPassCount * 10000) := by
  simp only [goldRule, bind_ok_iff, pure_ok_iff]
  cases h : m.goldMacroBps with
  | some bps => simp [rule]
  | none =>
      simp only [Option.elim_none, basisPoints_ok]
      constructor
      · rintro ⟨_, ⟨_, ⟨hd, hn, rfl⟩, rfl⟩, hpass⟩
        exact ⟨by simp, fun _ => ⟨hd, hn, (le_floor_iff hd).mp (of_decide_eq_true hpass)⟩⟩
      · rintro ⟨-, hrate⟩
        obtain ⟨hd, hn, ht⟩ := hrate trivial
        exact ⟨_, ⟨_, ⟨hd, hn, rfl⟩, rfl⟩, decide_eq_true ((le_floor_iff hd).mpr ht)⟩

theorem minimumStratum_le {t : Nat} : (∃ v, m.minimumStratum = .ok v ∧ t ≤ v) ↔
    m.coverageStratumBps ≠ [] ∧ ∀ v ∈ m.coverageStratumBps, t ≤ v := by
  unfold minimumStratum
  cases h : m.coverageStratumBps.min? with
  | none =>
      rw [List.min?_eq_none_iff] at h
      simp [h]
  | some v =>
      have hne : m.coverageStratumBps ≠ [] := by
        intro hnil
        simp [hnil] at h
      obtain ⟨hmem, hmin⟩ := List.min?_eq_some_iff.mp h
      simp only [Except.ok.injEq, exists_eq_left', ne_eq, hne, not_false_iff, true_and]
      exact ⟨fun ht x hx => ht.trans (hmin x hx), fun hall => hall v hmem⟩

theorem ratioRules_pass :
    (∃ rules, m.ratioRules p = .ok rules ∧ ∀ r ∈ rules, r.passed = true) ↔ m.Quality p := by
  simp only [ratioRules, bind_ok_iff, pure_ok_iff]
  constructor
  · rintro ⟨_, ⟨mode, hmode, gold, hgold, correct, hcorrect, citation, hcitation, source, hsource,
      freshness, hfreshness, completeness, hcompleteness, gap, hgap, degraded, hdegraded,
      infrastructure, hinfrastructure, stratum, hstratum, rfl⟩, hall⟩
    simp only [List.forall_mem_cons] at hall
    obtain ⟨pmode, pcov, pstratum, pgold, pcorrect, pcitation, psource, pfreshness, pcompleteness,
      pgap, pdegraded, pinfrastructure, -⟩ := hall
    have hg := goldRule_passes.mp ⟨gold, hgold, pgold⟩
    exact {
      mode := (rateAtLeast_passes _).mp ⟨mode, hmode, pmode⟩
      coverage := of_decide_eq_true pcov
      strata := minimumStratum_le.mp ⟨stratum, hstratum, of_decide_eq_true pstratum⟩
      goldMacro := hg.1
      gold := hg.2
      correct := (rateAtLeast_passes _).mp ⟨correct, hcorrect, pcorrect⟩
      citation := (rateAtLeast_passes _).mp ⟨citation, hcitation, pcitation⟩
      source := (rateAtLeast_passes _).mp ⟨source, hsource, psource⟩
      freshness := (rateAtLeast_passes _).mp ⟨freshness, hfreshness, pfreshness⟩
      completeness := (rateAtLeast_passes _).mp ⟨completeness, hcompleteness, pcompleteness⟩
      gap := (rateAtLeast_passes _).mp ⟨gap, hgap, pgap⟩
      degraded := (rateAtMost_passes _).mp ⟨degraded, hdegraded, pdegraded⟩
      infrastructure := (rateAtMost_passes _).mp ⟨infrastructure, hinfrastructure, pinfrastructure⟩ }
  · intro h
    obtain ⟨mode, hmode, pmode⟩ := (rateAtLeast_passes "mode_accuracy").mpr h.mode
    obtain ⟨gold, hgold, pgold⟩ := goldRule_passes.mpr ⟨h.goldMacro, h.gold⟩
    obtain ⟨correct, hcorrect, pcorrect⟩ := (rateAtLeast_passes "review_correct").mpr h.correct
    obtain ⟨citation, hcitation, pcitation⟩ :=
      (rateAtLeast_passes "review_citation_relevance").mpr h.citation
    obtain ⟨source, hsource, psource⟩ :=
      (rateAtLeast_passes "review_source_appropriateness").mpr h.source
    obtain ⟨freshness, hfreshness, pfreshness⟩ :=
      (rateAtLeast_passes "review_freshness").mpr h.freshness
    obtain ⟨completeness, hcompleteness, pcompleteness⟩ :=
      (rateAtLeast_passes "review_completeness").mpr h.completeness
    obtain ⟨gap, hgap, pgap⟩ := (rateAtLeast_passes "unanswerable_explicit_gap").mpr h.gap
    obtain ⟨degraded, hdegraded, pdegraded⟩ := (rateAtMost_passes "degraded_rate").mpr h.degraded
    obtain ⟨infrastructure, hinfrastructure, pinfrastructure⟩ :=
      (rateAtMost_passes "infrastructure_failure_rate").mpr h.infrastructure
    obtain ⟨stratum, hstratum, pstratum⟩ := minimumStratum_le.mpr h.strata
    refine ⟨_, ⟨mode, hmode, gold, hgold, correct, hcorrect, citation, hcitation, source, hsource,
      freshness, hfreshness, completeness, hcompleteness, gap, hgap, degraded, hdegraded,
      infrastructure, hinfrastructure, stratum, hstratum, rfl⟩, ?_⟩
    simp only [List.forall_mem_cons]
    exact ⟨pmode, decide_eq_true h.coverage, decide_eq_true pstratum, pgold, pcorrect, pcitation,
      psource, pfreshness, pcompleteness, pgap, pdegraded, pinfrastructure, by simp⟩

theorem qualityRules_pass :
    (∃ rules, m.qualityRules p = .ok rules ∧ ∀ r ∈ rules, r.passed = true) ↔
      m.Operational p ∧ (p.operationalOnly = true → m.infrastructureFailureCount = 0) ∧
        (p.operationalOnly = false → m.Quality p) := by
  rw [← operationalRules_pass, ← ratioRules_pass]
  simp only [qualityRules, bind_ok_iff]
  cases h : p.operationalOnly with
  | true =>
      simp only [if_true, pure_ok_iff]
      constructor
      · rintro ⟨_, ⟨operational, hop, rfl⟩, hall⟩
        rw [List.forall_mem_append, List.forall_mem_singleton] at hall
        exact ⟨⟨operational, hop, hall.1⟩, fun _ => of_decide_eq_true hall.2, fun hor => absurd hor (by simp)⟩
      · rintro ⟨⟨operational, hop, hall⟩, hinfra, -⟩
        refine ⟨_, ⟨operational, hop, rfl⟩, ?_⟩
        rw [List.forall_mem_append, List.forall_mem_singleton]
        exact ⟨hall, decide_eq_true (hinfra trivial)⟩
  | false =>
      simp only [Bool.false_eq_true, if_false, bind_ok_iff, pure_ok_iff]
      constructor
      · rintro ⟨_, ⟨operational, hop, ratios, hratios, rfl⟩, hall⟩
        rw [List.forall_mem_append] at hall
        exact ⟨⟨operational, hop, hall.1⟩, fun hor => absurd hor (by simp), fun _ => ⟨ratios, hratios, hall.2⟩⟩
      · rintro ⟨⟨operational, hop, hall⟩, -, hquality⟩
        obtain ⟨ratios, hratios, hall'⟩ := hquality trivial
        refine ⟨_, ⟨operational, hop, ratios, hratios, rfl⟩, ?_⟩
        rw [List.forall_mem_append]
        exact ⟨hall, hall'⟩

/-! ## The decision -/

/-- **The gate passes a campaign that meets its requirements, and no other.** -/
theorem evaluate_pass_iff (final : Bool) :
    (∃ d, m.evaluate p final = .ok d ∧ d.status = .pass) ↔ m.Requirements p := by
  have hreq : m.Requirements p ↔ m.hardTotal = 0 ∧ (m.sampleRules p).all (·.passed) = true ∧
      m.qualityIntegrityErrors p = 0 ∧
      ∃ rules, m.qualityRules p = .ok rules ∧ ∀ r ∈ rules, r.passed = true := by
    rw [hardTotal_eq_zero, List.all_eq_true, sampleRules_pass, qualityIntegrityErrors_eq_zero,
      qualityRules_pass]
    constructor
    · rintro ⟨a, b, c, d, e, f, g⟩
      exact ⟨⟨a, b⟩, c, d, e, f, g⟩
    · rintro ⟨⟨a, b⟩, c, d, e, f, g⟩
      exact ⟨a, b, c, d, e, f, g⟩
  rw [hreq]
  unfold evaluate
  by_cases hhard : m.hardTotal = 0
  swap
  · simp [hhard, pure_ok_iff]
  by_cases hsample : (m.sampleRules p).all (·.passed) = true
  swap
  · cases final <;> simp [hhard, hsample, pure_ok_iff]
  by_cases hint : m.qualityIntegrityErrors p = 0
  swap
  · simp [hhard, hsample, hint, pure_ok_iff]
  simp only [hhard, hsample, hint, ne_eq, not_true_eq_false, if_false, Bool.not_true,
    Bool.false_eq_true, bind_ok_iff, true_and]
  constructor
  · rintro ⟨d, ⟨quality, hq, hd⟩, hpass⟩
    by_cases hall : quality.all (·.passed) = true
    · exact ⟨quality, hq, List.all_eq_true.mp hall⟩
    · rw [if_neg hall, pure_ok_iff] at hd
      rw [← hd] at hpass
      cases hpass
  · rintro ⟨quality, hq, hall⟩
    exact ⟨_, ⟨quality, hq, if_pos (List.all_eq_true.mpr hall)⟩, rfl⟩

/-- The rules of a decision that passes have all passed. -/
theorem rules_passed {final : Bool} {d : GateDecision} (h : m.evaluate p final = .ok d)
    (hpass : d.status = .pass) : ∀ r ∈ d.rules, r.passed = true := by
  have hreq := (evaluate_pass_iff final).mp ⟨d, h, hpass⟩
  have hhard : m.hardTotal = 0 := hardTotal_eq_zero.mpr ⟨hreq.violations, hreq.consistent⟩
  have hbasic : m.basicIntegrityErrors = 0 := basicIntegrityErrors_eq_zero.mpr hreq.consistent
  have hsample := sampleRules_pass.mpr hreq.sampled
  have hint := qualityIntegrityErrors_eq_zero.mpr hreq.measured
  have hhardRules : ∀ r ∈ m.hardRules, r.passed = true := by
    simp only [hardRules, hhard, hbasic, if_true, List.append_nil, List.forall_mem_append,
      List.forall_mem_singleton, List.forall_mem_map]
    refine ⟨rfl, ?_⟩
    intro v hv
    exact decide_eq_true (hreq.violations v (List.mem_mergeSort.mp hv))
  have hsampleAll : (m.sampleRules p).all (·.passed) = true := List.all_eq_true.mpr hsample
  unfold evaluate at h
  simp only [hhard, hsampleAll, hint, ne_eq, not_true_eq_false, if_false, Bool.not_true,
    Bool.false_eq_true, bind_ok_iff] at h
  obtain ⟨quality, -, hd⟩ := h
  by_cases hall : quality.all (·.passed) = true
  · rw [if_pos hall, pure_ok_iff] at hd
    subst hd
    simp only [List.forall_mem_append, List.forall_mem_singleton]
    exact ⟨⟨⟨hhardRules, hsample⟩, rfl⟩, List.all_eq_true.mp hall⟩
  · rw [if_neg hall, pure_ok_iff] at hd
    subst hd
    cases hpass

/-! ## Worse campaigns -/

/-- Of `n` successes among `d` observations some have turned into failures. -/
def Dropped (n n' d : Nat) : Prop := n' = n ∨ n' < n ∧ n ≤ d

/-- The second campaign has a hard violation or an error of the measurements more than the first. -/
def AddsError (p : GatePolicy) (m m' : CampaignMetrics) : Prop :=
  (m.hardViolationCounts.map (·.2)).sum < (m'.hardViolationCounts.map (·.2)).sum ∨
    m.basicIntegrityErrors < m'.basicIntegrityErrors ∨
    m.qualityIntegrityErrors p < m'.qualityIntegrityErrors p

/--
The campaigns differ in observations that succeed in the first and fail in the second: as
many observations of each kind were made, and no more of them are good.
-/
structure TurnsFailed (m m' : CampaignMetrics) : Prop where
  terminal : m'.terminalResults = m.terminalResults
  fast : m'.actualFastResults = m.actualFastResults
  research : m'.actualResearchResults = m.actualResearchResults
  distinct : m'.distinctCaseCount = m.distinctCaseCount
  unanswerableCases : m'.unanswerableCaseCount = m.unanswerableCaseCount
  unanswerableResults : m'.unanswerableTerminalResults = m.unanswerableTerminalResults
  reviews : m'.completedReviews = m.completedReviews
  goldCases : m'.validGoldCaseCount = m.validGoldCaseCount
  violations : m'.hardViolationCounts = m.hardViolationCounts
  modeTotal : m'.modeTotalCount = m.modeTotalCount
  goldTotal : m'.goldTotalCount = m.goldTotalCount
  reviewTotal : m'.reviewTotalCount = m.reviewTotalCount
  gapTotal : m'.unanswerableGapTotal = m.unanswerableGapTotal
  unreviewable : m.unreviewableReviews ≤ m'.unreviewableReviews
  mode : Dropped m.modeMatchCount m'.modeMatchCount m.modeTotalCount
  gold : Dropped m.goldPassCount m'.goldPassCount m.goldTotalCount
  correct : Dropped m.reviewCorrectCount m'.reviewCorrectCount m.reviewTotalCount
  citation : Dropped m.reviewCitationRelevancePassCount m'.reviewCitationRelevancePassCount
    m.reviewTotalCount
  source : Dropped m.reviewSourceAppropriatenessPassCount m'.reviewSourceAppropriatenessPassCount
    m.reviewTotalCount
  freshness : Dropped m.reviewFreshnessPassCount m'.reviewFreshnessPassCount m.reviewTotalCount
  completeness : Dropped m.reviewCompletenessPassCount m'.reviewCompletenessPassCount
    m.reviewTotalCount
  gap : Dropped m.unanswerableGapCount m'.unanswerableGapCount m.unanswerableGapTotal
  degraded : m.degradedCount ≤ m'.degradedCount
  infrastructure : m.infrastructureFailureCount ≤ m'.infrastructureFailureCount
  fastLatency : List.Forall₂ (· ≤ ·) m.fastLatencyMs m'.fastLatencyMs
  researchLatency : List.Forall₂ (· ≤ ·) m.researchLatencyMs m'.researchLatencyMs
  coverage : m'.coverageMacroBps ≤ m.coverageMacroBps
  strata : List.Forall₂ (· ≥ ·) m.coverageStratumBps m'.coverageStratumBps
  goldMacro : Option.Rel (· ≥ ·) m.goldMacroBps m'.goldMacroBps
  cost : ∀ c' ∈ m'.projectedFullCostUsd, ∃ c ∈ m.projectedFullCostUsd, c ≤ c'
  costStop : m.costStopTriggered = true → m'.costStopTriggered = true
  callCeiling : m.callCeilingTriggered = true → m'.callCeilingTriggered = true

theorem Dropped.le {n n' d : Nat} (h : Dropped n n' d) : n' ≤ n := by
  rcases h with rfl | h
  · exact le_refl _
  · exact h.1.le

/-- If what is left is within the denominator, what was there is. -/
theorem Dropped.within {n n' d : Nat} (h : Dropped n n' d) (hn : n' ≤ d) : n ≤ d := by
  rcases h with rfl | h
  · exact hn
  · exact h.2

/-- A lower limit on a rate that is met after a drop was met before. -/
theorem Dropped.rate {n n' d t : Nat} (h : Dropped n n' d)
    (hrate : 0 < d ∧ n' ≤ d ∧ t * d ≤ n' * 10000) : 0 < d ∧ n ≤ d ∧ t * d ≤ n * 10000 :=
  ⟨hrate.1, h.within hrate.2.1, hrate.2.2.trans (Nat.mul_le_mul_right _ h.le)⟩

/-- Fewer values are within a bound after they have grown. -/
theorem countP_le_of_forall₂ {l l' : List Nat} (h : List.Forall₂ (· ≤ ·) l l') (t : Nat) :
    l'.countP (· ≤ t) ≤ l.countP (· ≤ t) := by
  induction h with
  | nil => exact le_refl _
  | @cons a b l l' hab _ ih =>
      by_cases hb : b ≤ t
      · rw [List.countP_cons_of_pos (by simpa using hb),
          List.countP_cons_of_pos (by simpa using hab.trans hb)]
        omega
      · rw [List.countP_cons_of_neg (by simpa using hb)]
        exact ih.trans ((List.sublist_cons_self a l).countP_le)

theorem ne_nil_of_forall₂ {α β : Type} {R : α → β → Prop} {l : List α} {l' : List β}
    (h : List.Forall₂ R l l') (hne : l' ≠ []) : l ≠ [] := by
  rintro rfl
  cases h
  exact hne rfl

theorem latency_of_forall₂ {l l' : List Nat} {t : Nat} (h : List.Forall₂ (· ≤ ·) l l')
    (hp : l' ≠ [] ∧ rank95 l' ≤ l'.countP (· ≤ t)) : l ≠ [] ∧ rank95 l ≤ l.countP (· ≤ t) := by
  refine ⟨ne_nil_of_forall₂ h hp.1, ?_⟩
  have hlen : rank95 l = rank95 l' := by rw [rank95, rank95, h.length_eq]
  rw [hlen]
  exact hp.2.trans (countP_le_of_forall₂ h t)

theorem forall_le_of_forall₂ {l l' : List Nat} {t : Nat} (h : List.Forall₂ (· ≤ ·) l l')
    (hall : ∀ v ∈ l', v ≤ t) : ∀ v ∈ l, v ≤ t := by
  intro v hv
  obtain ⟨v', hv', hle⟩ := exists_right_of_forall₂ h hv
  exact hle.trans (hall v' hv')

/-- A campaign with an error added does not meet the requirements. -/
theorem not_requirements_of_addsError (h : AddsError p m m') : ¬ m'.Requirements p := by
  intro hreq
  have hsum : (m'.hardViolationCounts.map (·.2)).sum = 0 := by
    rw [List.sum_eq_zero_iff, List.forall_mem_map]
    exact hreq.violations
  have hbasic := basicIntegrityErrors_eq_zero.mpr hreq.consistent
  have hquality := qualityIntegrityErrors_eq_zero.mpr hreq.measured
  rcases h with h | h | h <;> omega

theorem TurnsFailed.consistent (h : TurnsFailed m m') (hc : m'.Consistent) : m.Consistent where
  modes := by have := hc.modes; rw [h.fast, h.research, h.terminal] at this; exact this
  cases' := by have := hc.cases'; rw [h.distinct, h.terminal] at this; exact this
  unanswerableCases := by
    have := hc.unanswerableCases
    rw [h.unanswerableCases, h.distinct] at this
    exact this
  unanswerableResults := by
    have := hc.unanswerableResults
    rw [h.unanswerableResults, h.terminal] at this
    exact this
  goldCases := by have := hc.goldCases; rw [h.goldCases, h.distinct] at this; exact this
  reviews := by have := hc.reviews; rw [h.reviews, h.terminal] at this; exact this
  unreviewable := by
    have := hc.unreviewable
    rw [h.reviews] at this
    exact h.unreviewable.trans this
  mode := h.mode.within (h.modeTotal ▸ hc.mode)
  gold := h.gold.within (h.goldTotal ▸ hc.gold)
  reviewTotal := by have := hc.reviewTotal; rw [h.reviewTotal, h.reviews] at this; exact this
  correct := h.correct.within (h.reviewTotal ▸ hc.correct)
  citation := h.citation.within (h.reviewTotal ▸ hc.citation)
  source := h.source.within (h.reviewTotal ▸ hc.source)
  freshness := h.freshness.within (h.reviewTotal ▸ hc.freshness)
  completeness := h.completeness.within (h.reviewTotal ▸ hc.completeness)
  gap := h.gap.within (h.gapTotal ▸ hc.gap)
  degraded := h.degraded.trans (h.terminal ▸ hc.degraded)
  infrastructure := h.infrastructure.trans (h.terminal ▸ hc.infrastructure)

theorem TurnsFailed.sampled (h : TurnsFailed m m') (hs : m'.Sampled p) : m.Sampled p where
  terminal := h.terminal ▸ hs.terminal
  fast := h.fast ▸ hs.fast
  research := h.research ▸ hs.research
  distinct := h.distinct ▸ hs.distinct
  unanswerableCases := h.unanswerableCases ▸ hs.unanswerableCases
  unanswerableResults := h.unanswerableResults ▸ hs.unanswerableResults
  reviews := h.reviews ▸ hs.reviews
  reviewable := by
    have := h.unreviewable
    rw [hs.reviewable] at this
    exact Nat.le_zero.mp this
  gold := h.goldCases ▸ hs.gold

theorem TurnsFailed.measured (h : TurnsFailed m m') (hm : m'.Measured p) : m.Measured p where
  fast := h.fastLatency.length_eq ▸ hm.fast
  research := h.researchLatency.length_eq ▸ hm.research
  strata hop := h.strata.length_eq.trans (hm.strata hop)
  mode hop := h.modeTotal ▸ hm.mode hop
  gold hop := h.goldTotal ▸ hm.gold hop
  reviews hop := h.reviewTotal ▸ hm.reviews hop
  gap hop := h.gapTotal ▸ hm.gap hop

theorem TurnsFailed.operational (h : TurnsFailed m m') (ho : m'.Operational p) :
    m.Operational p where
  fast := latency_of_forall₂ h.fastLatency ho.fast
  research := latency_of_forall₂ h.researchLatency ho.research
  costStop := by
    by_contra hstop
    have := h.costStop (by simpa using hstop)
    rw [ho.costStop] at this
    cases this
  callCeiling := by
    by_contra hstop
    have := h.callCeiling (by simpa using hstop)
    rw [ho.callCeiling] at this
    cases this
  deadlines hreq :=
    ⟨forall_le_of_forall₂ h.fastLatency (ho.deadlines hreq).1,
      forall_le_of_forall₂ h.researchLatency (ho.deadlines hreq).2⟩
  cost limit hlimit := by
    obtain ⟨c', hc', hle⟩ := ho.cost limit hlimit
    obtain ⟨c, hc, hcc⟩ := h.cost c' hc'
    exact ⟨c, hc, hcc.trans hle⟩

theorem TurnsFailed.quality (h : TurnsFailed m m') (hq : m'.Quality p) : m.Quality p where
  mode := h.mode.rate (h.modeTotal ▸ hq.mode)
  coverage := hq.coverage.trans h.coverage
  strata := by
    refine ⟨ne_nil_of_forall₂ h.strata hq.strata.1, fun v hv => ?_⟩
    obtain ⟨v', hv', hge⟩ := exists_right_of_forall₂ h.strata hv
    exact (hq.strata.2 v' hv').trans hge
  goldMacro v hv := by
    have hrel := h.goldMacro
    rw [Option.mem_def.mp hv] at hrel
    cases hm' : m'.goldMacroBps with
    | none => rw [hm'] at hrel; cases hrel
    | some v' =>
        rw [hm'] at hrel
        cases hrel with
        | some hge => exact (hq.goldMacro v' hm').trans hge
  gold hnone := by
    have hrel := h.goldMacro
    rw [hnone] at hrel
    have hnone' : m'.goldMacroBps = none := by
      cases hm' : m'.goldMacroBps with
      | none => rfl
      | some v' => rw [hm'] at hrel; cases hrel
    exact h.gold.rate (h.goldTotal ▸ hq.gold hnone')
  correct := h.correct.rate (h.reviewTotal ▸ hq.correct)
  citation := h.citation.rate (h.reviewTotal ▸ hq.citation)
  source := h.source.rate (h.reviewTotal ▸ hq.source)
  freshness := h.freshness.rate (h.reviewTotal ▸ hq.freshness)
  completeness := h.completeness.rate (h.reviewTotal ▸ hq.completeness)
  gap := h.gap.rate (h.gapTotal ▸ hq.gap)
  degraded := by
    obtain ⟨hpos, hle, hrate⟩ := hq.degraded
    rw [h.terminal] at hpos hle hrate
    exact ⟨hpos, h.degraded.trans hle, (Nat.mul_le_mul_right _ h.degraded).trans_lt hrate⟩
  infrastructure := by
    obtain ⟨hpos, hle, hrate⟩ := hq.infrastructure
    rw [h.terminal] at hpos hle hrate
    exact ⟨hpos, h.infrastructure.trans hle,
      (Nat.mul_le_mul_right _ h.infrastructure).trans_lt hrate⟩

/-- **What a worse campaign meets, the better one met.** -/
theorem TurnsFailed.requirements (h : TurnsFailed m m') (hr : m'.Requirements p) :
    m.Requirements p where
  violations := h.violations ▸ hr.violations
  consistent := h.consistent hr.consistent
  sampled := h.sampled hr.sampled
  measured := h.measured hr.measured
  operational := h.operational hr.operational
  infrastructure hop := Nat.le_zero.mp (h.infrastructure.trans (hr.infrastructure hop).le)
  quality hop := h.quality (hr.quality hop)

end CampaignMetrics

/--
**The gate is sound, and it is monotone.** A PASS means that every requirement of the
policy is met and every rule that was looked at passed. And a campaign that does not pass
does not pass either after a hard violation or an error is added, or after observations
have turned from good to bad.
-/
theorem gate_sound_and_monotone (p : GatePolicy) (final : Bool) :
    (∀ (m : CampaignMetrics) (d : GateDecision), m.evaluate p final = .ok d → d.status = .pass →
      m.Requirements p ∧ ∀ r ∈ d.rules, r.passed = true) ∧
    ∀ (m m' : CampaignMetrics) (d d' : GateDecision),
      CampaignMetrics.AddsError p m m' ∨ CampaignMetrics.TurnsFailed m m' →
      m.evaluate p final = .ok d → m'.evaluate p final = .ok d' → d.status ≠ .pass →
      d'.status ≠ .pass := by
  refine ⟨?_, ?_⟩
  · intro m d h hpass
    exact ⟨(CampaignMetrics.evaluate_pass_iff final).mp ⟨d, h, hpass⟩,
      CampaignMetrics.rules_passed h hpass⟩
  · intro m m' d d' hworse hd hd' hno hpass
    have hreq' := (CampaignMetrics.evaluate_pass_iff final).mp ⟨d', hd', hpass⟩
    rcases hworse with hadd | hturn
    · exact CampaignMetrics.not_requirements_of_addsError hadd hreq'
    · obtain ⟨d₀, hd₀, hpass₀⟩ :=
        (CampaignMetrics.evaluate_pass_iff final).mpr (hturn.requirements hreq')
      rw [hd, Except.ok.injEq] at hd₀
      exact hno (hd₀ ▸ hpass₀)

namespace Sample

/-- A small operational gate: two runs, each within its time. -/
def smokeGate : GatePolicy where
  version := "smoke"
  kind := .smoke
  minTerminalResults := 2
  minActualFastResults := 1
  minActualResearchResults := 1
  minDistinctCases := 2
  minUnanswerableCases := 0
  minUnanswerableResults := 0
  requiredReviews := 0
  requiredGoldCases := 0
  fastLatencyP95Ms := 15000
  researchLatencyP95Ms := 120000
  minModeAccuracyBps := 0
  minCoverageMacroBps := 0
  minCoverageStratumBps := 0
  minGoldPassBps := 0
  minReviewCorrectBps := 0
  minReviewCitationBps := 0
  minReviewSourceBps := 0
  minReviewFreshnessBps := 0
  minReviewCompletenessBps := 0
  minUnanswerableGapBps := 0
  maxDegradedBps := 0
  maxInfrastructureFailureBps := 0
  named := by decide
  latencies := by decide
  basisPoints := by decide
  cost := by simp

/-- Two runs, one of each kind, with the given number of matching modes and failures. -/
def twoRuns (matching failures : Nat) : CampaignMetrics where
  terminalResults := 2
  actualFastResults := 1
  actualResearchResults := 1
  distinctCaseCount := 2
  unanswerableCaseCount := 0
  unanswerableTerminalResults := 0
  completedReviews := 0
  unreviewableReviews := 0
  validGoldCaseCount := 0
  fastLatencyMs := [900]
  researchLatencyMs := [9000]
  modeMatchCount := matching
  modeTotalCount := 2
  infrastructureFailureCount := failures
  ratios := by simp
  violations := by simp
  cost := by simp

/-- `SHADOW_FULL_GATE_V2`. -/
def fullGate : GatePolicy where
  version := "shadow-gate-v2"
  kind := .full
  minTerminalResults := 100
  minActualFastResults := 50
  minActualResearchResults := 50
  minDistinctCases := 40
  minUnanswerableCases := 8
  minUnanswerableResults := 20
  requiredReviews := 20
  requiredGoldCases := 16
  fastLatencyP95Ms := 15000
  researchLatencyP95Ms := 120000
  minModeAccuracyBps := 9500
  minCoverageMacroBps := 8000
  minCoverageStratumBps := 7000
  minGoldPassBps := 9500
  minReviewCorrectBps := 9000
  minReviewCitationBps := 9500
  minReviewSourceBps := 9500
  minReviewFreshnessBps := 9500
  minReviewCompletenessBps := 9000
  minUnanswerableGapBps := 10000
  maxDegradedBps := 1000
  maxInfrastructureFailureBps := 100
  named := by decide
  latencies := by decide
  basisPoints := by decide
  cost := by simp

def fastTimes : List Nat := 20000 :: 16000 :: List.replicate 48 9000

def researchTimes : List Nat := 130000 :: List.replicate 48 60000 ++ [125000]

theorem fastTimes_p95 : nearestRankPercentile fastTimes 95 = .ok 9000 := by
  rw [nearestRankPercentile, List.mergeSort_eq_insertionSort]
  decide +kernel

theorem researchTimes_p95 : nearestRankPercentile researchTimes 95 = .ok 60000 := by
  rw [nearestRankPercentile, List.mergeSort_eq_insertionSort]
  decide +kernel

/-- A hundred runs, two of each mode late, with so many correct reviews of twenty. -/
def hundredRuns (correct degraded : Nat) : CampaignMetrics where
  terminalResults := 100
  actualFastResults := 50
  actualResearchResults := 50
  distinctCaseCount := 40
  unanswerableCaseCount := 8
  unanswerableTerminalResults := 20
  completedReviews := 20
  unreviewableReviews := 0
  validGoldCaseCount := 16
  hardViolationCounts := [("budget_breach", 0)]
  fastLatencyMs := fastTimes
  researchLatencyMs := researchTimes
  modeMatchCount := 96
  modeTotalCount := 100
  coverageMacroBps := 8200
  coverageStratumBps := [8500, 7900, 9400, 7000]
  goldPassCount := 38
  goldTotalCount := 40
  reviewCorrectCount := correct
  reviewCitationRelevancePassCount := 19
  reviewSourceAppropriatenessPassCount := 20
  reviewFreshnessPassCount := 19
  reviewCompletenessPassCount := 18
  reviewTotalCount := 20
  unanswerableGapCount := 20
  unanswerableGapTotal := 20
  degradedCount := degraded
  infrastructureFailureCount := 1
  ratios := by decide
  violations := by decide
  cost := by simp

/-- The percentiles of the runs, late ones left out. -/
theorem hundredRuns_operational (correct degraded : Nat) :
    (hundredRuns correct degraded).operationalRules fullGate = .ok [
      rule "fast_p95_ms" (.count 9000) (.count 15000) 50 true,
      rule "research_p95_ms" (.count 60000) (.count 120000) 50 true,
      rule "cost_stop_not_triggered" (.count 0) (.count 0) 100 true,
      rule "call_ceiling_not_triggered" (.count 0) (.count 0) 100 true] := by
  have hfast : nearestRankPercentile (hundredRuns correct degraded).fastLatencyMs 95 = .ok 9000 :=
    fastTimes_p95
  have hresearch :
      nearestRankPercentile (hundredRuns correct degraded).researchLatencyMs 95 = .ok 60000 :=
    researchTimes_p95
  rw [CampaignMetrics.operationalRules, hfast, hresearch]
  rfl

/-- The verdict of a gate. -/
def verdict (p : GatePolicy) (m : CampaignMetrics) : Except Exn GateStatus :=
  (m.evaluate p true).map (·.status)

theorem exists_of_verdict {p : GatePolicy} {m : CampaignMetrics} {s : GateStatus}
    (h : verdict p m = .ok s) : ∃ d, m.evaluate p true = .ok d ∧ d.status = s := map_ok_iff.mp h

/-- Fewer correct reviews, and more answers that are degraded. -/
theorem hundredRuns_turnsFailed (correct correct' degraded degraded' : Nat)
    (hcorrect : correct' < correct) (hle : correct ≤ 20) (hdegraded : degraded ≤ degraded') :
    CampaignMetrics.TurnsFailed (hundredRuns correct degraded) (hundredRuns correct' degraded') := by
  constructor <;> first | rfl | exact le_refl _ | exact id | skip
  case correct => exact .inr ⟨hcorrect, hle⟩
  case degraded => exact hdegraded
  case fastLatency => exact List.forall₂_same.mpr fun _ _ => le_refl _
  case researchLatency => exact List.forall₂_same.mpr fun _ _ => le_refl _
  case strata => exact List.forall₂_same.mpr fun _ _ => le_refl _
  case goldMacro => exact .none
  case cost => simp [hundredRuns]
  all_goals exact .inl rfl

end Sample

/-- Eighteen correct reviews pass the full gate; seventeen do not, nor sixteen of a worse campaign. -/
theorem gate_sound_and_monotone_full :
    (∃ d, (Sample.hundredRuns 18 10).evaluate Sample.fullGate true = .ok d ∧ d.status = .pass ∧
      (Sample.hundredRuns 18 10).Requirements Sample.fullGate ∧ ∀ r ∈ d.rules, r.passed = true) ∧
    ∃ d d', (Sample.hundredRuns 17 10).evaluate Sample.fullGate true = .ok d ∧ d.status = .fail ∧
      (Sample.hundredRuns 16 11).evaluate Sample.fullGate true = .ok d' ∧ d'.status ≠ .pass := by
  obtain ⟨hsound, hmono⟩ := gate_sound_and_monotone Sample.fullGate true
  refine ⟨?_, ?_⟩
  · -- the latencies are sorted apart, the other rules are evaluated
    have hv : Sample.verdict Sample.fullGate (Sample.hundredRuns 18 10) = .ok .pass := by
      rw [Sample.verdict, CampaignMetrics.evaluate, CampaignMetrics.qualityRules,
        Sample.hundredRuns_operational]
      decide +kernel
    obtain ⟨d, hd, hpass⟩ := Sample.exists_of_verdict hv
    exact ⟨d, hd, hpass, hsound _ d hd hpass⟩
  · have hv : Sample.verdict Sample.fullGate (Sample.hundredRuns 17 10) = .ok .fail := by
      rw [Sample.verdict, CampaignMetrics.evaluate, CampaignMetrics.qualityRules,
        Sample.hundredRuns_operational]
      decide +kernel
    have hv' : Sample.verdict Sample.fullGate (Sample.hundredRuns 16 11) = .ok .fail := by
      rw [Sample.verdict, CampaignMetrics.evaluate, CampaignMetrics.qualityRules,
        Sample.hundredRuns_operational]
      decide +kernel
    obtain ⟨d, hd, hfail⟩ := Sample.exists_of_verdict hv
    obtain ⟨d', hd', -⟩ := Sample.exists_of_verdict hv'
    have hturn := Sample.hundredRuns_turnsFailed 17 16 10 11 (by decide) (by decide) (by decide)
    refine ⟨d, d', hd, hfail, hd', hmono _ _ d d' (.inr hturn) hd hd' ?_⟩
    rw [hfail]
    decide

/--
Three matching modes among two runs are an error, and the gate fails. One of them turns
into a mismatch, which leaves two of two, and the gate passes.
-/
theorem gate_passes_after_a_failure :
    (∃ d, (Sample.twoRuns 3 0).evaluate Sample.smokeGate true = .ok d ∧ d.status = .fail) ∧
    Sample.twoRuns 2 0 = { Sample.twoRuns 3 0 with modeMatchCount := 2 } ∧
    ∃ d, (Sample.twoRuns 2 0).evaluate Sample.smokeGate true = .ok d ∧ d.status = .pass := by
  refine ⟨?_, rfl, ?_⟩
  · exact Sample.exists_of_verdict (by decide +kernel)
  · exact Sample.exists_of_verdict (by decide +kernel)

end Sana.Shadow
