import Sana.Shadow.Builder
import Sana.Shadow.Proof.Gate

/-!
# Finality and the verdict

The gate is asked for good only if the report is final, and then it always decides; a draft
is set back to PENDING whatever the provisional decision was. So the two checks of
`generate` never raise (`prepare_finality`).

Finality is read off the rules of the provisional decision. `finalizationReason_eq` says
what is read there: the hard violations and the errors of the counters, and whether the
sample is large enough. It is the decision the transactions of a campaign are about.
-/

namespace Sana.Shadow

open Sana.Lib

/-! ## The decision for good -/

/-- Asked for good, the gate decides. -/
theorem CampaignMetrics.evaluate_final {m : CampaignMetrics} {p : GatePolicy} {d : GateDecision}
    (h : m.evaluate p true = .ok d) : d.status ≠ .pending := by
  unfold evaluate at h
  by_cases hhard : m.hardTotal = 0
  swap
  · rw [if_pos hhard, pure_ok_iff] at h
    subst h
    show GateStatus.fail ≠ .pending
    decide
  by_cases hsample : (m.sampleRules p).all (·.passed) = true
  swap
  · simp only [hhard, hsample, ne_eq, not_true_eq_false, if_false, if_true, Bool.not_false,
      pure_ok_iff] at h
    subst h
    show GateStatus.insufficientSample ≠ .pending
    decide
  by_cases hint : m.qualityIntegrityErrors p = 0
  swap
  · simp only [hhard, hsample, hint, ne_eq, not_true_eq_false, not_false_eq_true, if_false,
      if_true, Bool.not_true, Bool.false_eq_true, pure_ok_iff] at h
    subst h
    show GateStatus.fail ≠ .pending
    decide
  simp only [hhard, hsample, hint, ne_eq, not_true_eq_false, if_false, Bool.not_true,
    Bool.false_eq_true, bind_ok_iff] at h
  obtain ⟨quality, -, hd⟩ := h
  by_cases hall : quality.all (·.passed) = true
  · rw [if_pos hall, pure_ok_iff] at hd
    subst hd
    show GateStatus.pass ≠ .pending
    decide
  · rw [if_neg hall, pure_ok_iff] at hd
    subst hd
    show GateStatus.fail ≠ .pending
    decide

/-! ## The rules of a decision -/

/-- The rules that are looked at only after the sample: their names. -/
def measurementRuleIds : List String :=
  ["metric_integrity", "fast_p95_ms", "research_p95_ms", "cost_stop_not_triggered",
    "call_ceiling_not_triggered", "all_run_deadlines", "projected_full_cost",
    "infrastructure_failure_count", "mode_accuracy", "coverage_macro", "coverage_stratum_min",
    "gold_pass_rate", "review_correct", "review_citation_relevance",
    "review_source_appropriateness", "review_freshness", "review_completeness",
    "unanswerable_explicit_gap", "degraded_rate", "infrastructure_failure_rate"]

theorem rateAtLeast_id {id : String} {n d t : Nat} {r : GateRuleResult}
    (h : rateAtLeast id n d t = .ok r) : r.ruleId = id := by
  obtain ⟨v, -, hr⟩ := bind_ok_iff.mp h
  rw [← pure_ok_iff.mp hr]
  rfl

theorem rateAtMost_id {id : String} {n d t : Nat} {r : GateRuleResult}
    (h : rateAtMost id n d t = .ok r) : r.ruleId = id := by
  obtain ⟨v, -, hr⟩ := bind_ok_iff.mp h
  rw [← pure_ok_iff.mp hr]
  rfl

namespace CampaignMetrics

variable {m : CampaignMetrics} {p : GatePolicy}

theorem operationalRules_ids {rules : List GateRuleResult} (h : m.operationalRules p = .ok rules) :
    ∀ r ∈ rules, r.ruleId ∈ measurementRuleIds := by
  simp only [operationalRules, bind_ok_iff, pure_ok_iff] at h
  obtain ⟨fastP95, -, researchP95, -, rfl⟩ := h
  have hdeadline : ∀ r ∈ m.deadlineRules p, r.ruleId ∈ measurementRuleIds := by
    unfold deadlineRules
    split <;> simp [rule, measurementRuleIds]
  have hcost : ∀ r ∈ m.costRules p, r.ruleId ∈ measurementRuleIds := by
    unfold costRules
    split <;> simp [rule, measurementRuleIds]
  rw [List.forall_mem_append, List.forall_mem_append]
  refine ⟨⟨?_, hdeadline⟩, hcost⟩
  simp [rule, measurementRuleIds]

theorem ratioRules_ids {rules : List GateRuleResult} (h : m.ratioRules p = .ok rules) :
    ∀ r ∈ rules, r.ruleId ∈ measurementRuleIds := by
  simp only [ratioRules, goldRule, bind_ok_iff, pure_ok_iff] at h
  obtain ⟨mode, hmode, gold, ⟨-, -, rfl⟩, correct, hcorrect, citation, hcitation, source, hsource,
    freshness, hfreshness, completeness, hcompleteness, gap, hgap, degraded, hdegraded,
    infrastructure, hinfrastructure, stratum, -, rfl⟩ := h
  simp [rule, measurementRuleIds, rateAtLeast_id hmode, rateAtLeast_id hcorrect,
    rateAtLeast_id hcitation, rateAtLeast_id hsource, rateAtLeast_id hfreshness,
    rateAtLeast_id hcompleteness, rateAtLeast_id hgap, rateAtMost_id hdegraded,
    rateAtMost_id hinfrastructure]

theorem qualityRules_ids {rules : List GateRuleResult} (h : m.qualityRules p = .ok rules) :
    ∀ r ∈ rules, r.ruleId ∈ measurementRuleIds := by
  simp only [qualityRules, bind_ok_iff] at h
  obtain ⟨operational, hop, h⟩ := h
  by_cases honly : p.operationalOnly = true
  · rw [if_pos honly, pure_ok_iff] at h
    subst h
    rw [List.forall_mem_append]
    refine ⟨operationalRules_ids hop, ?_⟩
    simp [rule, measurementRuleIds]
  · simp only [honly, Bool.false_eq_true, if_false, bind_ok_iff, pure_ok_iff] at h
    obtain ⟨ratios, hratios, rfl⟩ := h
    rw [List.forall_mem_append]
    exact ⟨operationalRules_ids hop, ratioRules_ids hratios⟩

/-- The rules of a decision come in their order, and stop at the first that decides. -/
theorem evaluate_rules {final : Bool} {d : GateDecision} (h : m.evaluate p final = .ok d) :
    (m.hardTotal ≠ 0 ∧ d.rules = m.hardRules) ∨
      m.hardTotal = 0 ∧ ∃ later, d.rules = m.hardRules ++ m.sampleRules p ++ later ∧
        ∀ r ∈ later, r.ruleId ∈ measurementRuleIds := by
  unfold evaluate at h
  by_cases hhard : m.hardTotal = 0
  swap
  · rw [if_pos hhard, pure_ok_iff] at h
    subst h
    exact .inl ⟨hhard, rfl⟩
  refine .inr ⟨hhard, ?_⟩
  by_cases hsample : (m.sampleRules p).all (·.passed) = true
  swap
  · simp only [hhard, hsample, ne_eq, not_true_eq_false, if_false, if_true, Bool.not_false,
      pure_ok_iff] at h
    refine ⟨[], ?_, by simp⟩
    rw [List.append_nil, ← h]
    cases final <;> rfl
  have hintegrity : ∀ r ∈ [rule "metric_integrity" (.count (m.qualityIntegrityErrors p))
      (.count 0) m.terminalResults (m.qualityIntegrityErrors p = 0)],
      r.ruleId ∈ measurementRuleIds := by
    simp [rule, measurementRuleIds]
  by_cases hint : m.qualityIntegrityErrors p = 0
  swap
  · simp only [hhard, hsample, hint, ne_eq, not_true_eq_false, not_false_eq_true, if_false,
      if_true, Bool.not_true, Bool.false_eq_true, pure_ok_iff] at h
    subst h
    exact ⟨_, rfl, by simpa [hint] using hintegrity⟩
  simp only [hhard, hsample, hint, ne_eq, not_true_eq_false, if_false, Bool.not_true,
    Bool.false_eq_true, bind_ok_iff] at h
  obtain ⟨quality, hq, hd⟩ := h
  refine ⟨[rule "metric_integrity" (.count (m.qualityIntegrityErrors p)) (.count 0)
    m.terminalResults (m.qualityIntegrityErrors p = 0)] ++ quality, ?_, ?_⟩
  · have hrules : d.rules = m.hardRules ++ m.sampleRules p ++
        [rule "metric_integrity" (.count 0) (.count 0) m.terminalResults true] ++ quality := by
      split at hd <;> rw [← pure_ok_iff.mp hd] <;> simp
    rw [hrules, hint, List.append_assoc]
    simp
  · rw [List.forall_mem_append]
    exact ⟨hintegrity, qualityRules_ids hq⟩

end CampaignMetrics

/-! ## Drafts and final reports -/

/-- A draft is pending. -/
theorem GateDecision.draft_status (d : GateDecision) : d.draft.status = .pending := by
  unfold draft
  split
  · rfl
  · split
    · rfl
    · rename_i hpending
      exact not_not.mp hpending

namespace CampaignReportSnapshot

variable {s : CampaignReportSnapshot} {render : Renderer} {p : PreparedCampaignReport}

/-- Everything a prepared report was made from. -/
theorem prepare_ok (h : s.prepare render = .ok p) :
    ∃ metrics provisional, s.aggregate = .ok metrics ∧
      metrics.evaluate s.policy false = .ok provisional ∧
      p.finalizationReason = s.finalizationReason metrics provisional ∧
      s.decision metrics provisional p.finalizable = .ok p.decision := by
  simp only [prepare, bind_ok_iff, pure_ok_iff] at h
  obtain ⟨-, -, metrics, hmetrics, provisional, hprov, decision, hdec, -, -, rfl⟩ := h
  exact ⟨metrics, provisional, hmetrics, hprov, rfl, hdec⟩

/-- What it takes to prepare a report: unchanged assets, metrics, two decisions and a text. -/
theorem prepare_exists {metrics : CampaignMetrics} {provisional decision : GateDecision}
    {t : FinalReport} (hassets : s.verifyFrozenAssets = .ok ())
    (hmetrics : s.aggregate = .ok metrics)
    (hprov : metrics.evaluate s.policy false = .ok provisional)
    (hfinal : metrics.evaluate s.policy true = .ok decision)
    (hrender : ∀ d, render s metrics d = .ok t) :
    ∃ p, s.prepare render = .ok p ∧
      p.finalizationReason = s.finalizationReason metrics provisional := by
  have hdec : ∃ d, s.decision metrics provisional
      (s.finalizationReason metrics provisional).isSome = .ok d := by
    unfold CampaignReportSnapshot.decision
    split
    · exact ⟨decision, hfinal⟩
    · exact ⟨_, rfl⟩
  obtain ⟨d, hd⟩ := hdec
  simp only [prepare, bind_ok_iff, pure_ok_iff]
  exact ⟨_, ⟨(), hassets, metrics, hmetrics, provisional, hprov, d, hd, t, hrender d, rfl⟩, rfl⟩

theorem draft_pending (h : s.prepare render = .ok p) (hdraft : p.finalizable = false) :
    p.decision.status = .pending := by
  obtain ⟨metrics, provisional, -, -, -, hdec⟩ := prepare_ok h
  rw [hdraft, decision, if_neg (by decide)] at hdec
  rw [← Except.ok.inj hdec]
  exact provisional.draft_status

theorem final_decided (h : s.prepare render = .ok p) (hfinal : p.finalizable = true) :
    p.decision.status ≠ .pending := by
  obtain ⟨metrics, provisional, -, -, -, hdec⟩ := prepare_ok h
  rw [hfinal, decision, if_pos rfl] at hdec
  exact metrics.evaluate_final hdec

end CampaignReportSnapshot

/-! ## What finality depends on -/

namespace CampaignMetrics

variable {m : CampaignMetrics} {p : GatePolicy} {d : GateDecision}

theorem hardRules_passed (h : m.hardTotal = 0) : ∀ r ∈ m.hardRules, r.passed = true := by
  have hparts : (m.hardViolationCounts.map (·.2)).sum = 0 ∧ m.basicIntegrityErrors = 0 := by
    unfold hardTotal at h
    omega
  simp only [hardRules, h, hparts.2, if_true, List.append_nil, List.forall_mem_append,
    List.forall_mem_singleton, List.forall_mem_map]
  refine ⟨rfl, ?_⟩
  intro v hv
  have hzero : v.2 = 0 :=
    List.sum_eq_zero_iff.mp hparts.1 _ (List.mem_map_of_mem (List.mem_mergeSort.mp hv))
  exact decide_eq_true hzero

/-- The rule about safety fails exactly if there is a hard violation or a wrong counter. -/
theorem hard_safety_iff {final : Bool} (h : m.evaluate p final = .ok d) :
    (d.rules.any fun r => r.ruleId = "hard_safety" && !r.passed) = true ↔ m.hardTotal ≠ 0 := by
  rcases evaluate_rules h with ⟨hhard, hrules⟩ | ⟨hhard, later, hrules, hlater⟩
  · rw [hrules]
    simp [hardRules, rule, hhard]
  · rw [hrules, List.any_append, List.any_append]
    have hsample : ((m.sampleRules p).any fun r => r.ruleId = "hard_safety" && !r.passed) = false := by
      simp [sampleRules, rule]
    have hfirst : (m.hardRules.any fun r => r.ruleId = "hard_safety" && !r.passed) = false := by
      rw [List.any_eq_false]
      intro r hr
      simp [hardRules_passed hhard r hr]
    have hlast : (later.any fun r => r.ruleId = "hard_safety" && !r.passed) = false := by
      rw [List.any_eq_false]
      intro r hr hsafety
      have hid : r.ruleId = "hard_safety" := by simpa using (Bool.and_eq_true_iff.mp hsafety).1
      have hmem := hlater r hr
      rw [hid] at hmem
      exact absurd hmem (by decide)
    simp [hsample, hfirst, hlast, hhard]

/-- Every rule about the sample, except the one about reviews, has passed. -/
def samplePassed (m : CampaignMetrics) (p : GatePolicy) : Bool :=
  (m.sampleRules p).all fun r => r.ruleId = "review_sample" || r.passed

/-- Without a hard violation, a rule about the sample fails exactly if the sample is too small. -/
theorem sample_rule_iff {final : Bool} (h : m.evaluate p final = .ok d) (hhard : m.hardTotal = 0) :
    (d.rules.any fun r => r.ruleId ∈ CampaignReportSnapshot.sampleRulesExceptReview && !r.passed)
      = !m.samplePassed p := by
  rcases evaluate_rules h with ⟨hne, -⟩ | ⟨-, later, hrules, hlater⟩
  · exact absurd hhard hne
  rw [hrules, List.any_append, List.any_append]
  have hfirst : (m.hardRules.any fun r =>
      r.ruleId ∈ CampaignReportSnapshot.sampleRulesExceptReview && !r.passed) = false := by
    rw [List.any_eq_false]
    intro r hr
    simp [hardRules_passed hhard r hr]
  have hlast : (later.any fun r =>
      r.ruleId ∈ CampaignReportSnapshot.sampleRulesExceptReview && !r.passed) = false := by
    have hdisjoint : ∀ id ∈ measurementRuleIds,
        id ∉ CampaignReportSnapshot.sampleRulesExceptReview := by decide
    rw [List.any_eq_false]
    intro r hr
    simp [hdisjoint _ (hlater r hr)]
  rw [hfirst, hlast, Bool.false_or, Bool.or_false]
  simp [samplePassed, sampleRules, rule, CampaignReportSnapshot.sampleRulesExceptReview]

end CampaignMetrics

namespace CampaignReportSnapshot

variable {s : CampaignReportSnapshot} {m : CampaignMetrics} {d : GateDecision}

theorem aggregate_ok (h : s.aggregate = .ok m) :
    m.hardViolationCounts = s.hard ∧ m.completedReviews = s.reviews.length ∧
      m.unreviewableReviews = s.reviews.countP (·.correctnessVerdict = .unreviewable) := by
  simp only [aggregate, bind_ok_iff, pure_ok_iff] at h
  obtain ⟨projected, -, rfl⟩ := h
  exact ⟨rfl, rfl, rfl⟩

/-- What the gate finds in the metrics, beside the hard violations. -/
def findings (s : CampaignReportSnapshot) (m : CampaignMetrics) : GateFindings where
  integrityErrors := m.basicIntegrityErrors
  samplePassed := m.samplePassed s.policy
  requiredReviews := s.policy.requiredReviews

/--
**Finality read off the rules is finality of the rows.** The report reads the rules of a
provisional decision; the campaign's transactions look at its hard violations, the errors of
its counters, its sample and its reviews. They find the same reason.
-/
theorem finalizationReason_eq (hm : s.aggregate = .ok m)
    (hd : m.evaluate s.policy false = .ok d) :
    s.finalizationReason m d =
      finalizationState s.campaign s.rows s.databaseNow s.hard (s.findings m) := by
  obtain ⟨hviolations, hcompleted, hunreviewable⟩ := aggregate_ok hm
  have htotal : m.hardTotal = (s.hard.map (·.2)).sum + (s.findings m).integrityErrors := by
    rw [← hviolations]
    rfl
  have hover : s.campaign.isTerminal = true ↔
      s.campaign.status = .completed ∨ s.campaign.status = .aborted := by
    simp [Campaign.isTerminal]
  have hreviews : s.reviews.any (·.correctnessVerdict = .unreviewable) = true ↔
      m.unreviewableReviews ≠ 0 := by
    rw [hunreviewable, ← Nat.pos_iff_ne_zero, List.countP_pos_iff, List.any_eq_true]
  unfold finalizationReason finalizationState
  dsimp only
  by_cases hpause : s.campaign.status = .paused ∨ s.campaign.stopIntent = .pause
  · rw [if_pos hpause, if_pos hpause]
  have hsafety := CampaignMetrics.hard_safety_iff hd
  rw [if_neg hpause, if_neg hpause]
  by_cases hhard : m.hardTotal = 0
  swap
  · rw [htotal] at hhard
    rw [if_pos (hsafety.mpr (htotal ▸ hhard)), if_pos hhard]
  have hsum : ¬(s.hard.map (·.2)).sum + (s.findings m).integrityErrors ≠ 0 :=
    not_not.mpr (htotal ▸ hhard)
  rw [if_neg (mt hsafety.mp (not_not.mpr hhard)), if_neg hsum,
    CampaignMetrics.sample_rule_iff hd hhard]
  have hstop : s.campaign.stopIntent ≠ .none ↔ s.campaign.stopIntent = .abort ∨
      s.campaign.stopIntent = .fatal ∨ s.campaign.stopIntent = .budget ∨
      s.campaign.stopIntent = .callCeiling := by
    cases hintent : s.campaign.stopIntent with
    | pause => exact absurd (.inr hintent) hpause
    | none => simp
    | abort => simp
    | fatal => simp
    | budget => simp
    | callCeiling => simp
  simp only [← hover, hcompleted, ← hreviews, hstop, reviews, findings]

end CampaignReportSnapshot

/-! ## What `generate` finds -/

/--
**A report is final exactly if its verdict is not PENDING.** Neither of the checks that
`generate` makes before it hands a report out or binds it can raise.
-/
theorem prepare_finality (s : CampaignReportSnapshot) (render : Renderer)
    (p : PreparedCampaignReport) (h : s.prepare render = .ok p) :
    (p.finalizable = false → p.decision.status = .pending) ∧
      (p.finalizable = true → p.decision.status ≠ .pending) ∧
      ∀ owner, ∃ binding, p.generate owner = .ok binding := by
  have hdraft : p.finalizable = false → p.decision.status = .pending :=
    CampaignReportSnapshot.draft_pending h
  have hfinal : p.finalizable = true → p.decision.status ≠ .pending :=
    CampaignReportSnapshot.final_decided h
  refine ⟨hdraft, hfinal, ?_⟩
  intro owner
  unfold PreparedCampaignReport.generate
  cases hf : p.finalizable with
  | false => exact ⟨none, by simp [check, hdraft hf, bind, Except.bind, pure, Except.pure]⟩
  | true => exact ⟨_, by simp [check, hfinal hf, bind, Except.bind, pure, Except.pure]; rfl⟩

/-- What `generate` asks the campaign to bind passes the checks of `_validate_binding` on it. -/
theorem generate_binding {s : CampaignReportSnapshot} {render : Renderer}
    {p : PreparedCampaignReport} {owner : Uuid} {b : FinalReportBinding}
    (h : s.prepare render = .ok p) (hb : p.generate owner = .ok (some b)) :
    b.gateStatus ≠ .pending ∧ Text.isBlank b.finalizationReason = false := by
  obtain ⟨m, provisional, -, -, hreason, -⟩ := CampaignReportSnapshot.prepare_ok h
  cases hf : p.finalizable with
  | false =>
      simp only [PreparedCampaignReport.generate, hf, Bool.not_false, if_true, bind_ok_iff,
        pure_ok_iff] at hb
      obtain ⟨-, -, hb⟩ := hb
      cases hb
  | true =>
      simp only [PreparedCampaignReport.generate, hf, Bool.not_true, Bool.false_eq_true, if_false,
        bind_ok_iff, pure_ok_iff, Option.some.injEq] at hb
      obtain ⟨-, -, rfl⟩ := hb
      refine ⟨CampaignReportSnapshot.final_decided h hf, ?_⟩
      show Text.isBlank (p.finalizationReason.getD "final") = false
      rw [hreason]
      unfold CampaignReportSnapshot.finalizationReason
      dsimp only
      split_ifs <;> decide

namespace Sample

/-- A gate for two runs, one of which is to be reviewed and to have gold assertions. -/
def reviewGate : GatePolicy :=
  { smokeGate with
    version := "two-runs", kind := .full, minUnanswerableCases := 1, minUnanswerableResults := 1
    requiredReviews := 1, requiredGoldCases := 1, named := by decide }

/-- A run that covered its fact, selected for a review. -/
def answered : ResultRow where
  result := {
    id := ⟨21⟩, campaignId := ⟨9⟩, conversationId := some ⟨31⟩, searchRunId := some ⟨41⟩
    caseId := "city", repetition := 1, scheduleOrdinal := 1, manualReviewSelected := true
    schedulingState := .collected, reservationState := .settled
    conversationIdempotencyKey := "c1", messageIdempotencyKey := "m1", submissionRequestHash := "h1"
    metrics := some {
      actualMode := "FAST", runStatus := "SUCCEEDED", answerQuality := "COMPLETE", latencyMs := 900
      factTotal := 1, factCovered := 1, validCitationChainCount := 1
      traceabilityViolationCount := 0, goldAssertionTotal := 1
      goldAssertions := [⟨"size", true, .pass, "assertion_passed"⟩], queryPollutionCount := 0
      modelCallCount := 0 }
    sourceSnapshotDigest := some "s1", collectorSchemaVersion := some "v" }
  locale := "en"
  answerability := .answerable
  expectedMode := "FAST"
  minimumRequiredFacts := 1

/-- A run that says what is missing. -/
def unanswered : ResultRow where
  result := {
    id := ⟨22⟩, campaignId := ⟨9⟩, conversationId := some ⟨32⟩, searchRunId := some ⟨42⟩
    caseId := "future", repetition := 1, scheduleOrdinal := 2
    schedulingState := .collected, reservationState := .settled
    conversationIdempotencyKey := "c2", messageIdempotencyKey := "m2", submissionRequestHash := "h2"
    metrics := some {
      actualMode := "RESEARCH", runStatus := "SUCCEEDED", answerQuality := "PARTIAL"
      latencyMs := 9000, factTotal := 1, factCovered := 0, traceabilityViolationCount := 0
      goldAssertionTotal := 0, queryPollutionCount := 0, modelCallCount := 0 }
    sourceSnapshotDigest := some "s2", collectorSchemaVersion := some "v" }
  locale := "en"
  answerability := .intentionallyUnanswerable
  expectedMode := "RESEARCH"
  runStopReason := some "INSUFFICIENT_EVIDENCE"
  factGap := 1

/-- A review of the first run. -/
def review : Review :=
  ⟨⟨51⟩, ⟨21⟩, "rubric", .correct, .pass, .pass, .pass, .pass, ["checked"], .human, some ⟨7⟩⟩

/-- The campaign of the two runs is sealed and waits a minute for its review. -/
def sealedCampaign (reviews : List Review) (databaseNow : Time) : CampaignReportSnapshot where
  campaign := {
    id := ⟨9⟩, createdByUserId := ⟨7⟩, status := .awaitingReview, costRate := ⟨0, 0, 0, none⟩
    collectorSchemaVersion := "v", maxRuns := 2, maxConcurrency := 1, limits := ⟨0, 0, 0⟩
    counts := { planned := 2, submitted := 2, collected := 2 }, startedAt := some 0
    reviewDeadlineAt := some (seconds 60), reviews }
  databaseNow
  results := [answered, unanswered]
  invocations := []
  currentSourceDigest := fun r => r.sourceSnapshotDigest
  policy := reviewGate
  assets := [⟨"gate_policy", "p", "p"⟩]

/-- Every report has the same text. -/
def plainText : Renderer := fun _ _ _ => .ok ⟨"", "", "", ""⟩

/-- The gate can be asked about the campaign, and the rows give this reason. -/
def isReason (s : CampaignReportSnapshot) (reason : Option String) (m : CampaignMetrics) : Bool :=
  (m.evaluate s.policy false).isOk && (m.evaluate s.policy true).isOk
    && finalizationState s.campaign s.rows s.databaseNow s.hard (s.findings m) = reason

theorem prepare_of_reason (s : CampaignReportSnapshot) (reason : Option String)
    (hassets : s.verifyFrozenAssets = .ok ())
    (h : s.aggregate.toOption.any (isReason s reason) = true) :
    ∃ p, s.prepare plainText = .ok p ∧ p.finalizationReason = reason := by
  obtain ⟨m, hm, hreason⟩ := exists_ok_of_any h
  simp only [isReason, Bool.and_eq_true, decide_eq_true_eq] at hreason
  obtain ⟨⟨hprov, hdec⟩, hreason⟩ := hreason
  cases hprovisional : m.evaluate s.policy false with
  | error e =>
    rw [hprovisional] at hprov
    cases hprov
  | ok provisional =>
    cases hdecision : m.evaluate s.policy true with
    | error e =>
      rw [hdecision] at hdec
      cases hdec
    | ok decision =>
      have hrender : ∀ d, plainText s m d = .ok ⟨"", "", "", ""⟩ := fun _ => rfl
      obtain ⟨p, hp, hfinal⟩ := CampaignReportSnapshot.prepare_exists hassets hm hprovisional
        hdecision hrender
      refine ⟨p, hp, ?_⟩
      rw [hfinal, CampaignReportSnapshot.finalizationReason_eq hm hprovisional]
      exact hreason

end Sample

/-- A sealed campaign that waits for its review has a draft; once reviewed, a final report. -/
theorem prepare_finality_sealed :
    (∃ p, (Sample.sealedCampaign [] (seconds 30)).prepare Sample.plainText = .ok p ∧
      p.decision.status = .pending ∧ ∃ b, p.generate ⟨7⟩ = .ok b) ∧
    ∃ p, (Sample.sealedCampaign [Sample.review] (seconds 30)).prepare
        Sample.plainText = .ok p ∧
      p.finalizationReason = some "review_complete" ∧ p.decision.status ≠ .pending ∧
      ∃ b, p.generate ⟨7⟩ = .ok b := by
  constructor
  · obtain ⟨p, hp, hreason⟩ := Sample.prepare_of_reason (Sample.sealedCampaign [] (seconds 30)) none
      rfl (by decide +kernel)
    obtain ⟨hpending, -, hgenerate⟩ := prepare_finality _ _ p hp
    have hdraft : p.finalizable = false := by rw [PreparedCampaignReport.finalizable, hreason]; rfl
    exact ⟨p, hp, hpending hdraft, hgenerate _⟩
  · obtain ⟨p, hp, hreason⟩ := Sample.prepare_of_reason
      (Sample.sealedCampaign [Sample.review] (seconds 30)) (some "review_complete") rfl
      (by decide +kernel)
    obtain ⟨-, hdecided, hgenerate⟩ := prepare_finality _ _ p hp
    have hfinal : p.finalizable = true := by rw [PreparedCampaignReport.finalizable, hreason]; rfl
    exact ⟨p, hp, hreason, hdecided hfinal, hgenerate _⟩

end Sana.Shadow
