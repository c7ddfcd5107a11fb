import Sana.Lib.Ranking
import Sana.Lib.Reorder
import Sana.Shadow.Collector

/-!
# What the collector makes of rows in another order

Rows are counted, looked up by their identifiers and sorted before they are digested, so their order is
forgotten, with one exception: the texts of the claims are joined as they come. A snapshot is graded
alike in every order of its rows exactly where the assertions that look at the joined text say the same
of every order of the claims.
-/

namespace Sana.Shadow.Collector

open Sana.Lib Sana.Evidence

open Manifest (ShadowCase Expectation)

/-- The same run, with its rows in another order. -/
structure Reordered (s s' : RunSourceSnapshot) : Prop where
  run : s' = { s with
    steps := s'.steps, attempts := s'.attempts, invocations := s'.invocations, outbox := s'.outbox
    facts := s'.facts, queries := s'.queries, providerAttempts := s'.providerAttempts
    evidence := s'.evidence, claims := s'.claims, citations := s'.citations }
  steps : s'.steps.Perm s.steps
  attempts : s'.attempts.Perm s.attempts
  invocations : s'.invocations.Perm s.invocations
  outbox : s'.outbox.Perm s.outbox
  facts : s'.facts.Perm s.facts
  queries : s'.queries.Perm s.queries
  providerAttempts : s'.providerAttempts.Perm s.providerAttempts
  evidence : s'.evidence.Perm s.evidence
  claims : s'.claims.Perm s.claims
  citations : s'.citations.Perm s.citations

/-- The rows of a table have a primary key. -/
structure DistinctIds (s : RunSourceSnapshot) : Prop where
  steps : (s.steps.map (·.id)).Nodup
  attempts : (s.attempts.map (·.id)).Nodup
  invocations : (s.invocations.map (·.id)).Nodup
  outbox : (s.outbox.map (·.id)).Nodup
  facts : (s.facts.map (·.id)).Nodup
  queries : (s.queries.map (·.id)).Nodup
  providerAttempts : (s.providerAttempts.map (·.id)).Nodup
  evidence : (s.evidence.map (·.id)).Nodup
  claims : (s.claims.map (·.id)).Nodup
  citations : (s.citations.map (·.id)).Nodup

variable {b : CollectorBuiltins} {s s' : RunSourceSnapshot} {c : ShadowCase}

/-! ## Validation -/

theorem forM_perm {α : Type} {l l' : List α} (h : l'.Perm l) {f g : α → Except Exn Unit}
    (hfg : ∀ x, f x = g x) : l'.forM f = .ok () ↔ l.forM g = .ok () := by
  rw [forM_ok_iff, forM_ok_iff]
  exact forall_congr' fun x => by rw [h.mem_iff, hfg]

/-- Whether a snapshot is sealed does not depend on the order of its rows. -/
theorem validateSnapshot_reordered (h : Reordered s s') :
    validateSnapshot b s' = .ok () ↔ validateSnapshot b s = .ok () := by
  have hattempt : ∀ a, validateAttempt s' a = validateAttempt s a := by
    intro a
    rw [validateAttempt, validateAttempt, any_perm h.steps]
  have hinvocation : ∀ i, validateInvocation s' i = validateInvocation s i := by
    intro i
    rw [validateInvocation, validateInvocation, any_perm h.attempts]
  have hquery : ∀ q, validateQuery s' q = validateQuery s q := by
    intro q
    simp only [validateQuery, any_perm h.facts]
  have hprovider : ∀ a, validateProviderAttempt s' a = validateProviderAttempt s a := by
    intro a
    rw [validateProviderAttempt, validateProviderAttempt, any_perm h.queries]
  have hclaim : ∀ x, validateClaim s' x = validateClaim s x := by
    intro x
    simp only [validateClaim, any_perm h.facts]
  have hstatus : s'.status = s.status := congrArg (·.status) h.run
  have hcreated : s'.createdAt = s.createdAt := congrArg (·.createdAt) h.run
  have hdeadline : s'.hardDeadlineAt = s.hardDeadlineAt := congrArg (·.hardDeadlineAt) h.run
  have houtput : isOutputComplete b s' = isOutputComplete b s := by
    rw [h.run]
    rfl
  simp only [validateSnapshot, bind_ok_iff, check_eq_ok, Unique.exists_iff, decide_eq_true_eq,
    Bool.and_eq_true, (h.steps.map _).nodup_iff, (h.attempts.map _).nodup_iff,
    (h.invocations.map _).nodup_iff, (h.facts.map _).nodup_iff, (h.queries.map _).nodup_iff,
    (h.claims.map _).nodup_iff, hstatus, hcreated, hdeadline, houtput,
    forM_perm h.steps fun _ => rfl, forM_perm h.attempts hattempt,
    forM_perm h.invocations hinvocation, forM_perm h.queries hquery,
    forM_perm h.providerAttempts hprovider, forM_perm h.outbox fun _ => rfl,
    forM_perm h.claims hclaim]

/-! ## Citations -/

section Citations

variable (h : Reordered s s') (hids : DistinctIds s)
include h hids

theorem validEvidenceOf_reordered : validEvidenceOf s' = validEvidenceOf s := by
  funext x
  rw [validEvidenceOf, validEvidenceOf, lookup_perm h.claims hids.claims,
    lookup_perm h.evidence hids.evidence]

theorem validByClaim_reordered (id : Uuid) : (validByClaim s' id).Perm (validByClaim s id) := by
  rw [validByClaim, validByClaim, validEvidenceOf_reordered h hids]
  exact (h.citations.filter _).filterMap _

theorem isViolated_reordered : isViolated s' = isViolated s := by
  funext claim
  rw [isViolated, isViolated, isEmpty_perm (validByClaim_reordered h hids claim.id),
    any_perm h.citations, validEvidenceOf_reordered h hids]

omit hids in
theorem factualClaims_reordered : (factualClaims s').Perm (factualClaims s) := h.claims.filter _

theorem validEvidence_reordered : (validEvidence s').Perm (validEvidence s) :=
  (factualClaims_reordered h).flatMap fun claim _ => validByClaim_reordered h hids claim.id

theorem sourceClassEvidence_reordered :
    (sourceClassEvidence s' c).Perm (sourceClassEvidence s c) := by
  unfold sourceClassEvidence
  split
  · exact h.evidence.filter _
  · exact validEvidence_reordered h hids

end Citations

/-! ## Signals -/

section Signals

variable (h : Reordered s s')
include h

theorem hasCategory_reordered : hasCategory s' = hasCategory s := by
  funext category
  rw [hasCategory, hasCategory, any_perm h.providerAttempts, any_perm h.attempts,
    any_perm h.invocations]

theorem isTerminalValid_reordered : isTerminalValid s' = isTerminalValid s := by
  rw [h.run]
  rfl

theorem sourceSignals_reordered : sourceSignals s' = sourceSignals s := by
  have hstatus : s'.status = s.status := congrArg (·.status) h.run
  have hstop : s'.stopReason = s.stopReason := congrArg (·.stopReason) h.run
  funext signals gap
  simp only [sourceSignals, hasCategory_reordered h, isTerminalValid_reordered h, hstatus, hstop]

omit h in
/-- A set is sorted the same, however its members come. -/
theorem sortedSet_congr {l l' : List String} (hmem : ∀ x, x ∈ l' ↔ x ∈ l) :
    sortedSet l' = sortedSet l := by
  refine mergeSort_perm ?_ ?_ ?_ ?_
  · intro x y z
    simpa only [decide_eq_true_eq] using le_trans
  · intro x y
    simpa only [Bool.or_eq_true, decide_eq_true_eq] using le_total x y
  · intro x _ y _
    simpa only [decide_eq_true_eq] using le_antisymm
  · rw [List.perm_ext_iff_of_nodup l'.nodup_dedup l.nodup_dedup]
    exact fun x => by rw [List.mem_dedup, List.mem_dedup, hmem]

theorem failedPhase_reordered (hids : DistinctIds s) : failedPhase s' = failedPhase s := by
  have hstatus : s'.status = s.status := congrArg (·.status) h.run
  have htype : stepType s' = stepType s := by
    funext id
    rw [stepType, stepType, lookup_perm h.steps hids.steps]
  have hphases : (phases s').Perm (phases s) := by
    rw [phases, phases, htype, any_perm h.providerAttempts]
    exact (((h.attempts.filter _).filterMap _).append ((h.invocations.filter _).filterMap _)).append
      (List.Perm.refl _)
  rw [failedPhase, failedPhase, sortedSet_congr fun x => hphases.mem_iff, hstatus]

/-- What was used adds up to the same. -/
theorem invocationUsage_reordered (rate : CostRate) :
    invocationUsage rate (s'.invocations.map (modelInvocation s')) =
      invocationUsage rate (s.invocations.map (modelInvocation s)) := by
  have hof : modelInvocation s' = modelInvocation s := by
    rw [h.run]
    rfl
  have hall : (s'.invocations.map (modelInvocation s')).Perm
      (s.invocations.map (modelInvocation s)) := by
    rw [hof]
    exact h.invocations.map _
  have hbilled : (billed (s'.invocations.map (modelInvocation s'))).Perm
      (billed (s.invocations.map (modelInvocation s))) := hall.filter _
  have hpossibly : (possiblyBilled (s'.invocations.map (modelInvocation s'))).Perm
      (possiblyBilled (s.invocations.map (modelInvocation s))) := hall.filter _
  simp only [invocationUsage, CostRate.observed, (hbilled.map _).sum_eq, hbilled.length_eq,
    hpossibly.length_eq, isEmpty_perm hpossibly]

theorem candidateSignals_reordered (hids : DistinctIds s) :
    candidateSignals b s' c = candidateSignals b s c := by
  have hpollution : pollutionCount b s' c = pollutionCount b s c := h.queries.countP_eq _
  have hmode : s'.mode = s.mode := congrArg (·.mode) h.run
  have hbudget : s'.budgetMaxLlmCalls = s.budgetMaxLlmCalls :=
    congrArg (·.budgetMaxLlmCalls) h.run
  have hcalls : s'.recordedLlmCallCount = s.recordedLlmCallCount :=
    congrArg (·.recordedLlmCallCount) h.run
  have hprompt : s'.recordedPromptTokens = s.recordedPromptTokens :=
    congrArg (·.recordedPromptTokens) h.run
  have hcompletion : s'.recordedCompletionTokens = s.recordedCompletionTokens :=
    congrArg (·.recordedCompletionTokens) h.run
  have hquality : s'.answerQuality = s.answerQuality := congrArg (·.answerQuality) h.run
  funext usage gold
  simp only [candidateSignals, hpollution, hmode, hbudget, hcalls, hprompt, hcompletion, hquality,
    isViolated_reordered h hids, h.facts.countP_eq, (factualClaims_reordered h).countP_eq,
    h.invocations.countP_eq, any_perm h.citations, lookup_perm h.claims hids.claims,
    any_perm (sourceClassEvidence_reordered (c := c) h hids)]

end Signals

/-! ## The outcome -/

section Outcome

variable (h : Reordered s s')
include h

theorem sourceTerminalAt_reordered : sourceTerminalAt s' = sourceTerminalAt s := by
  rw [h.run]
  rfl

theorem latencyMs_reordered : latencyMs b s' = latencyMs b s := by
  rw [h.run]
  rfl

/-- All but the gold assertions is measured the same. -/
theorem preliminary_reordered (hids : DistinctIds s)
    (hgold : goldResults b c s'.claims (validEvidence s') (sourceTerminalAt s) =
      goldResults b c s.claims (validEvidence s) (sourceTerminalAt s)) :
    preliminary b s' c = preliminary b s c := by
  have hmode : s'.mode = s.mode := congrArg (·.mode) h.run
  have hstatus : s'.status = s.status := congrArg (·.status) h.run
  have hquality : s'.answerQuality = s.answerQuality := congrArg (·.answerQuality) h.run
  have hstop : s'.stopReason = s.stopReason := congrArg (·.stopReason) h.run
  have hpollution : pollutionCount b s' c = pollutionCount b s c := h.queries.countP_eq _
  funext version usage
  simp only [preliminary, sourceTerminalAt_reordered h, hgold, hmode, hstatus, hquality, hstop,
    hpollution, latencyMs_reordered h, candidateSignals_reordered h hids, sourceSignals_reordered h,
    failedPhase_reordered h hids, h.facts.countP_eq, h.claims.length_eq, h.citations.countP_eq,
    h.invocations.countP_eq, h.providerAttempts.countP_eq, (factualClaims_reordered h).length_eq,
    (factualClaims_reordered h).countP_eq, any_perm h.citations, isViolated_reordered h hids,
    validEvidenceOf_reordered h hids]

omit h in
theorem sortedById_perm {α : Type} {id : α → Uuid} {l l' : List α} (hperm : l'.Perm l)
    (hnodup : (l.map id).Nodup) : sortedById id l' = sortedById id l := by
  refine mergeSort_perm ?_ ?_ ?_ hperm
  · intro x y z
    simp only [Uuid.le, decide_eq_true_eq]
    exact le_trans
  · intro x y
    simp only [Uuid.le, Bool.or_eq_true, decide_eq_true_eq]
    exact le_total _ _
  · intro x hx y hy hxy hyx
    simp only [Uuid.le, decide_eq_true_eq] at hxy hyx
    have hbits : (id x).bits = (id y).bits := BitVec.eq_of_toNat_eq (le_antisymm hxy hyx)
    exact List.inj_on_of_nodup_map hnodup hx hy (congrArg Uuid.mk hbits)

/-- The rows are digested in the order of their identifiers. -/
theorem digestPayload_reordered (hids : DistinctIds s) : digestPayload s' = digestPayload s := by
  funext outcome
  have hrun : (digestPayload s' outcome).run = (digestPayload s outcome).run := by
    rw [h.run]
    rfl
  have htenant : s'.tenantId = s.tenantId := congrArg (·.tenantId) h.run
  rw [digestPayload, digestPayload, DigestPayload.mk.injEq]
  simp only [sortedById_perm h.facts hids.facts, sortedById_perm h.queries hids.queries,
    sortedById_perm h.providerAttempts hids.providerAttempts, sortedById_perm h.steps hids.steps,
    sortedById_perm h.attempts hids.attempts, sortedById_perm h.invocations hids.invocations,
    sortedById_perm h.evidence hids.evidence, sortedById_perm h.claims hids.claims,
    sortedById_perm h.citations hids.citations, sortedById_perm h.outbox hids.outbox, htenant,
    and_self, and_true, true_and]
  exact hrun

end Outcome

/-! ## Gold assertions -/

/-- The assertions that look at the joined text of the claims. -/
def readsText : Expectation → Bool
  | .normalizedContainsAll _ | .normalizedEquals _ | .numberInRange _ _ => true
  | .setContains _ | .sourceClassAtLeast _ => false

/-- The fold keeps the first of the best. -/
theorem foldl_firstBest (values : List String) (h : values ≠ []) : ∃ best,
    values.foldl (fun best value =>
      if best.all fun x => authorityRank x < authorityRank value then some value else best) none =
        some best ∧ FirstBest authorityRank values best := by
  induction values using List.reverseRecOn with
  | nil => exact absurd rfl h
  | append_singleton values value ih =>
    rw [List.foldl_append, List.foldl_cons, List.foldl_nil]
    by_cases hempty : values = []
    · subst hempty
      exact ⟨value, rfl, firstBest_singleton⟩
    · obtain ⟨best, hfold, hbest⟩ := ih hempty
      refine ⟨_, ?_, hbest.snoc value⟩
      rw [hfold]
      simp only [Option.all_some, decide_eq_true_eq]
      split_ifs <;> rfl

/-- Which of several equals is kept makes no difference to the rank. -/
theorem authorityRank_best {values values' : List String} (h : values'.Perm values) :
    authorityRank (bestAuthority values') = authorityRank (bestAuthority values) := by
  by_cases hempty : values = []
  · subst hempty
    rw [List.perm_nil.mp h]
  · have hempty' : values' ≠ [] := fun hnil => hempty (List.nil_perm.mp (hnil ▸ h))
    obtain ⟨best, hfold, hbest⟩ := foldl_firstBest values hempty
    obtain ⟨best', hfold', hbest'⟩ := foldl_firstBest values' hempty'
    rw [bestAuthority, bestAuthority, hfold, hfold']
    exact le_antisymm (hbest.le (h.mem_iff.mp hbest'.mem)) (hbest'.le (h.mem_iff.mpr hbest.mem))

/-- An assertion that does not look at the joined text is graded alike in any order. -/
theorem evaluate_perm {claims claims' : List SourceClaim} {evidence evidence' : List SourceEvidence}
    (hclaims : claims'.Perm claims) (hevidence : evidence'.Perm evidence) {e : Expectation}
    (he : readsText e = false) : evaluate b claims' evidence' e = evaluate b claims evidence e := by
  cases e with
  | setContains items =>
    have hcontains : ∀ x, (claims'.map fun c => b.normalize c.claimText).contains x =
        (claims.map fun c => b.normalize c.claimText).contains x := fun x =>
      (hclaims.map _).contains_eq
    simp only [evaluate, hcontains]
  | sourceClassAtLeast authority =>
    simp only [evaluate, authorityRank_best (hevidence.map (·.sourceAuthority))]
  | normalizedContainsAll | normalizedEquals | numberInRange => exact nomatch he

/-- An assertion that looks at the joined text does not look at the evidence. -/
theorem evaluate_text {claims : List SourceClaim} (evidence evidence' : List SourceEvidence)
    {e : Expectation} (he : readsText e = true) :
    evaluate b claims evidence' e = evaluate b claims evidence e := by
  cases e with
  | setContains | sourceClassAtLeast => exact nomatch he
  | normalizedContainsAll | normalizedEquals | numberInRange => rfl

/-- The grade shows the verdict. -/
theorem graded_inj {a : Manifest.GoldAssertion} {v w : Option Bool} (h : graded a v = graded a w) :
    v = w := by
  have hreason := congrArg (·.reasonCode) h
  revert hreason
  rcases v with _ | _ | _ <;> rcases w with _ | _ | _ <;> simp [graded]

/-- The assertions that look at the joined text say the same of every order of the claims. -/
def TextVerdictsAgree (b : CollectorBuiltins) (s : RunSourceSnapshot) (c : ShadowCase) : Prop :=
  c.oracleType = .deterministic → isInWindow c (sourceTerminalAt s) = true →
    ∀ a ∈ c.goldAssertions, readsText a.expected = true → ∀ claims : List SourceClaim,
      claims.Perm s.claims → evaluate b claims [] a.expected = evaluate b s.claims [] a.expected

theorem goldResults_reordered (h : Reordered s s') (hids : DistinctIds s)
    (hagree : TextVerdictsAgree b s c) :
    goldResults b c s'.claims (validEvidence s') (sourceTerminalAt s) =
      goldResults b c s.claims (validEvidence s) (sourceTerminalAt s) := by
  unfold goldResults
  split_ifs with horacle hwindow
  · rfl
  · refine List.map_congr_left fun a ha => congrArg (graded a) ?_
    by_cases htext : readsText a.expected = true
    · rw [evaluate_text [] (validEvidence s') htext, evaluate_text [] (validEvidence s) htext]
      exact hagree (not_not.mp horacle) hwindow a ha htext s'.claims h.claims
    · exact evaluate_perm h.claims (validEvidence_reordered h hids)
        (Bool.eq_false_of_not_eq_true htext)
  · rfl

/-! ## Collecting -/

/-- **A sealed run is graded alike in every order of its rows exactly where** the assertions that look
at the joined text of the claims say the same of every order of the claims. -/
theorem collection_reordered_iff {rate : CostRate} {version : Option String} {o : CollectionOutcome}
    (hids : DistinctIds s) (h : collectRunSnapshot b s c rate version = .ok o) :
    (∀ s', Reordered s s' → collectRunSnapshot b s' c rate version = .ok o) ↔
      TextVerdictsAgree b s c := by
  simp only [collectRunSnapshot, bind_ok_iff] at h
  obtain ⟨_, hvalid, _, hcitations, usage, husage, digest, hdigest, ho⟩ := h
  obtain rfl := pure_ok_iff.mp ho
  constructor
  · intro hall horacle hwindow a ha htext claims hclaims
    -- the claims alone in the other order
    have hreordered : Reordered s { s with claims } :=
      ⟨rfl, .refl _, .refl _, .refl _, .refl _, .refl _, .refl _, .refl _, .refl _, hclaims, .refl _⟩
    have hsame := hall _ hreordered
    simp only [collectRunSnapshot, bind_ok_iff] at hsame
    obtain ⟨_, -, _, -, usage', -, digest', -, ho'⟩ := hsame
    have hgold : goldResults b c claims (validEvidence { s with claims }) (sourceTerminalAt s) =
        goldResults b c s.claims (validEvidence s) (sourceTerminalAt s) :=
      congrArg (·.goldAssertions) (pure_ok_iff.mp ho')
    unfold goldResults at hgold
    rw [if_neg (not_not.mpr horacle), if_pos hwindow, if_neg (not_not.mpr horacle),
      if_pos hwindow] at hgold
    have hverdict := graded_inj (List.map_inj_left.mp hgold a ha)
    rwa [evaluate_text [] _ htext, evaluate_text [] (validEvidence s) htext] at hverdict
  · intro hagree s' hs'
    have hsame : preliminary b s' c = preliminary b s c :=
      preliminary_reordered hs' hids (goldResults_reordered hs' hids hagree)
    have hcitations' : s'.citations.forM (fun citation =>
        check (s'.claims.any (·.id = citation.answerClaimId))
          (notReady "Citation references an unknown Run Claim" "source_citation_claim_invalid")) =
        .ok () := (forM_perm hs'.citations fun x => by rw [any_perm hs'.claims]).mpr hcitations
    simp only [collectRunSnapshot, bind_ok_iff]
    refine ⟨(), (validateSnapshot_reordered hs').mpr hvalid, (), hcitations', usage, ?_, digest, ?_, ?_⟩
    · rw [invocationUsage_reordered hs', husage]
    · rw [hsame, sourceSnapshotDigest, digestPayload_reordered hs' hids]
      exact hdigest
    · rw [hsame]
      rfl

/-! ## Two claims in two orders -/

namespace Sample

/-- What is digested of the city's run, graded in one way or the other. -/
def payload (runId : Uuid) (status : GoldAssertionStatus) : DigestPayload where
  schema := Shadow.collectorSchemaVersion
  tenantId := ⟨8⟩
  run := {
    id := runId, conversationId := ⟨4⟩, responseRunId := ⟨5⟩, responseStatus := .succeeded
    outputMessageId := some ⟨6⟩, mode := .fast, status := .succeeded
    answerQuality := .partialAnswer, stopReason := some .insufficientEvidence, createdAt := 0
    hardDeadlineAt := 60000000, completedAt := some 1000000, version := 7, budgetMaxLlmCalls := 4
    recordedLlmCallCount := 0, recordedPromptTokens := 0, recordedCompletionTokens := 0 }
  facts := [⟨⟨9⟩, true, "COVERED", "STABLE", "LOW"⟩]
  queries := []
  providerAttempts := []
  steps := []
  attempts := []
  invocations := []
  evidence := []
  claims := [(⟨1⟩, some "FACTUAL", some ⟨9⟩, "SUPPORTED"),
    (⟨2⟩, some "FACTUAL", some ⟨9⟩, "SUPPORTED")]
  citations := []
  outbox := []
  queryPollutionCount := 0
  traceabilityViolationCount := 2
  goldAssertions := [⟨"size", false, status,
    if status = .pass then "assertion_passed" else "actual_value_mismatch"⟩]
  errorSignalFlags := ["citation_traceability_violation", "content_gap"]
    ++ if status = .pass then [] else ["gold_assertion_failure"]

/-- What is digested of another run, that covered its fact. -/
def coveredPayload : DigestPayload :=
  { payload ⟨1102⟩ .pass with
    run := { (payload ⟨1102⟩ .pass).run with
      answerQuality := .complete, stopReason := some .factsCovered }
    errorSignalFlags := ["citation_traceability_violation"] }

/-- The digests of these payloads. -/
def digests : List (DigestPayload × String) := [
  (payload ⟨3⟩ .pass,
    "0ae9d65830968ff31be199d64476e52468038416693473bec7a60aa392f1d56e"),
  (payload ⟨3⟩ .fail,
    "02cdcf6b636a525aea51767de6899d745c18d899b9afaccaaacc2bf28b21c357"),
  (coveredPayload,
    "c0b9c059650dca4b2ef18bb804e36db95d51305749587642bf62b729a3d3b21f")]

/-- Builtins that know the texts and the payloads of the city. -/
def builtins : CollectorBuiltins where
  nfkc := id
  casefold := Text.lowerAscii
  decimal _ := none
  str
    | .text s => s
    | .int _ | .decimal _ => ""
  milliseconds d := (d / 1000).toNat
  digest payload := ((digests.find? (·.1 = payload)).map (·.2)).getD
    (String.ofList (List.replicate 64 '0'))

def claims : List SourceClaim :=
  [⟨⟨1⟩, some "FACTUAL", some ⟨9⟩, "SUPPORTED", "Paris is"⟩,
    ⟨⟨2⟩, some "FACTUAL", some ⟨9⟩, "SUPPORTED", "big."⟩]

/-- A run that succeeded with one fact and these claims, which cite nothing. -/
def source (claims : List SourceClaim) : RunSourceSnapshot where
  runId := ⟨3⟩
  conversationId := ⟨4⟩
  responseRunId := ⟨5⟩
  responseStatus := .succeeded
  outputMessageId := some ⟨6⟩
  mode := .fast
  status := .succeeded
  answerQuality := .partialAnswer
  stopReason := some .insufficientEvidence
  hardDeadlineAt := 60000000
  completedAt := some 1000000
  version := 7
  budgetMaxLlmCalls := 4
  recordedLlmCallCount := 0
  recordedPromptTokens := 0
  recordedCompletionTokens := 0
  steps := []
  attempts := []
  invocations := []
  outbox := []
  tenantId := ⟨8⟩
  outputMessageRole := some "assistant"
  outputMessageConversationId := some ⟨4⟩
  answerText := some "Paris is big."
  createdAt := 0
  facts := [⟨⟨9⟩, true, "COVERED", "STABLE", "LOW"⟩]
  queries := []
  providerAttempts := []
  evidence := []
  claims
  citations := []

/-- The answer is known. -/
def case : ShadowCase where
  id := "city"
  prompt := "How big is Paris?"
  locale := "en"
  expectedMode := .fast
  category := .background
  answerability := .answerable
  minimumRequiredFacts := 1
  goldAssertions := [{
    id := "size", expected := .normalizedEquals (.text "Paris is big."), critical := false
    stripped := by decide, bounded := by decide, expected_ok := rfl }]
  oracleType := .deterministic
  validFrom := some 0
  validUntil := some 60000000
  requiredSourceClasses := []
  forbiddenQueryTerms := []
  mustNotComplete := false
  tags := []
  smoke := false
  valid := by decide +kernel

/-- The same case with an assertion that looks for two texts. -/
def looseCase : ShadowCase :=
  { case with
    goldAssertions := [{
      id := "size", expected := .normalizedContainsAll ["big.", "paris IS"], critical := false
      stripped := by decide, bounded := by decide, expected_ok := rfl }]
    valid := by decide +kernel }

def rate : CostRate where
  promptPerMillionUsd := 1
  completionPerMillionUsd := 2
  possiblyBilledRunReserveUsd := 1

theorem distinctIds {claims : List SourceClaim} (h : (claims.map (·.id)).Nodup) :
    DistinctIds (source claims) where
  steps := List.nodup_nil
  attempts := List.nodup_nil
  invocations := List.nodup_nil
  outbox := List.nodup_nil
  facts := List.nodup_singleton _
  queries := List.nodup_nil
  providerAttempts := List.nodup_nil
  evidence := List.nodup_nil
  claims := h
  citations := List.nodup_nil

/-- The outcome for the claims in this order. -/
def outcome (case : ShadowCase) (claims : List SourceClaim) : Except Exn CollectionOutcome :=
  collectRunSnapshot builtins (source claims) case rate none

/-- The assertion is graded so. -/
def isGraded (status : GoldAssertionStatus) (o : CollectionOutcome) : Bool :=
  o.goldAssertions.map (·.status) = [status]

end Sample

/-- Two claims that hold both texts are graded alike in either order. -/
theorem collection_reordered_sample : ∃ o, Sample.outcome Sample.looseCase Sample.claims = .ok o ∧
    Sample.isGraded .pass o = true ∧ ∀ s', Reordered (Sample.source Sample.claims) s' →
      collectRunSnapshot Sample.builtins s' Sample.looseCase Sample.rate none = .ok o := by
  have hany : (Sample.outcome Sample.looseCase Sample.claims).toOption.any
      (Sample.isGraded .pass) = true := by
    decide +kernel
  obtain ⟨o, ho, hgraded⟩ := exists_ok_of_any hany
  refine ⟨o, ho, hgraded, (collection_reordered_iff (Sample.distinctIds (by decide)) ho).mpr ?_⟩
  intro _ _ a ha _ claims hclaims
  obtain rfl := List.mem_singleton.mp ha
  -- the two texts are looked for in what the claims are joined to
  rcases List.perm_pair.mp hclaims with rfl | rfl
  · rfl
  · decide +kernel

/-- Two claims pass the assertion in one order, and fail it in the other. -/
theorem claims_order_graded : ∃ s s' o, DistinctIds s ∧ Reordered s s' ∧
    collectRunSnapshot Sample.builtins s Sample.case Sample.rate none = .ok o ∧
    collectRunSnapshot Sample.builtins s' Sample.case Sample.rate none ≠ .ok o := by
  have hpass : (Sample.outcome Sample.case Sample.claims).toOption.any
      (Sample.isGraded .pass) = true := by
    decide +kernel
  have hfail : (Sample.outcome Sample.case Sample.claims.reverse).toOption.any
      (Sample.isGraded .fail) = true := by
    decide +kernel
  obtain ⟨o, ho, hgraded⟩ := exists_ok_of_any hpass
  obtain ⟨o', ho', hgraded'⟩ := exists_ok_of_any hfail
  refine ⟨Sample.source Sample.claims, Sample.source Sample.claims.reverse, o,
    Sample.distinctIds (by decide),
    ⟨rfl, .refl _, .refl _, .refl _, .refl _, .refl _, .refl _, .refl _, .refl _,
      List.reverse_perm Sample.claims, .refl _⟩, ho, fun hsame => ?_⟩
  have hsame' : Sample.outcome Sample.case Sample.claims.reverse = .ok o := hsame
  rw [ho', Except.ok.injEq] at hsame'
  subst hsame'
  have hstatus := (of_decide_eq_true hgraded).symm.trans (of_decide_eq_true hgraded')
  exact absurd hstatus (by decide)

end Sana.Shadow.Collector
