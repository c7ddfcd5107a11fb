import Mathlib.Data.String.Basic
import Sana.Orchestration.Aggregate
import Sana.Shadow.Decision
import Sana.Shadow.Manifest
import Sana.Shared.Words

/-!
# The collector

`collect_run_snapshot` grades one sealed run: it checks the rows of the run, counts what they cover and
cite, evaluates the case's gold assertions on the claims, adds up what was used, and classifies what
went wrong. The digest binds the result to the rows, which are sorted by their identifiers first.

The reader selects the rows without an order.
-/

namespace Sana.Shadow.Collector

open Sana.Lib Sana.Evidence

open Manifest (ShadowCase Expectation Scalar)

/-! ## The source -/

structure SourceFact where
  id : Uuid
  required : Bool
  status : String
  freshness : String
  consequence : String
deriving DecidableEq, Repr

structure SourceQuery where
  id : Uuid
  factRequirementId : Option Uuid
  planRevision : Int
  providerClass : String
  queryText : String
deriving DecidableEq, Repr

structure SourceProviderAttempt where
  id : Uuid
  querySpecId : Uuid
  provider : String
  status : String
  startedAt : Time
  completedAt : Option Time
  errorType : Option String
deriving DecidableEq, Repr

structure SourceEvidence where
  id : Uuid
  candidateId : Uuid
  factRequirementId : Uuid
  documentVersionId : Uuid
  documentChunkId : Uuid
  startOffset : Int
  endOffset : Int
  quoteLength : Int
  supportType : String
  sourceAuthority : String
  verdict : String
  confidence : Rat
  reasonCodes : List String
  verifierVersion : String
  verifiedAt : Time
  documentChainValid : Bool
deriving DecidableEq, Repr

structure SourceClaim where
  id : Uuid
  claimKind : Option String
  factRequirementId : Option Uuid
  supportStatus : String
  claimText : String
deriving DecidableEq, Repr

structure SourceCitation where
  id : Uuid
  answerClaimId : Uuid
  verifiedEvidenceId : Uuid
  documentVersionId : Uuid
  documentChunkId : Uuid
  startOffset : Int
  endOffset : Int
  quoteLength : Int
  quoteMatchesEvidence : Bool
deriving DecidableEq, Repr

/-- `RunSourceSnapshot`, with the lineage of the run. -/
structure RunSourceSnapshot extends Shadow.RunSourceSnapshot where
  tenantId : Uuid
  outputMessageRole : Option String
  outputMessageConversationId : Option Uuid
  answerText : Option String
  createdAt : Time
  facts : List SourceFact
  queries : List SourceQuery
  providerAttempts : List SourceProviderAttempt
  evidence : List SourceEvidence
  claims : List SourceClaim
  citations : List SourceCitation

/-! ## What was derived -/

/-- `CollectionOutcome`. -/
structure CollectionOutcome where
  sourceSnapshotDigest : String
  collectorSchemaVersion : String
  sourceTerminalAt : Time
  actualMode : String
  runStatus : String
  answerQuality : String
  runStopReason : Option String
  latencyMs : Nat
  minimumRequiredFacts : Int
  factTotal : Nat
  factCovered : Nat
  factGap : Int
  planCompletenessFailure : Bool
  factualClaimCount : Nat
  nonfactualClaimCount : Nat
  citedFactualClaimCount : Nat
  validCitationChainCount : Nat
  traceabilityViolationCount : Nat
  goldAssertions : List GoldAssertion
  oracleVersion : Option String
  queryPollutionCount : Nat
  modelCallCount : Nat
  usage : SettlementUsage
  degraded : Bool
  providerSuccessCount : Nat
  providerFailureCount : Nat
  errorClass : Option ErrorClass
  errorCode : Option String
  failedPhase : Option String
  errorSignalFlags : List String
deriving DecidableEq, Repr

/-- The `run` of a digested payload. -/
structure RunPayload where
  id : Uuid
  conversationId : Uuid
  responseRunId : Uuid
  responseStatus : Orchestration.ResponseStatus
  outputMessageId : Option Uuid
  mode : Orchestration.SearchMode
  status : Orchestration.RunStatus
  answerQuality : Orchestration.AnswerQuality
  stopReason : Option Orchestration.StopReason
  createdAt : Time
  hardDeadlineAt : Time
  completedAt : Option Time
  version : Nat
  budgetMaxLlmCalls : Nat
  recordedLlmCallCount : Nat
  recordedPromptTokens : Nat
  recordedCompletionTokens : Nat
deriving DecidableEq, Repr

/-- `_digest_payload`: neither the texts of the queries nor those of the claims are in it. -/
structure DigestPayload where
  schema : String
  tenantId : Uuid
  run : RunPayload
  facts : List SourceFact
  queries : List (Uuid × Option Uuid × Int × String)
  providerAttempts : List SourceProviderAttempt
  steps : List SourceStep
  attempts : List SourceAttempt
  invocations : List SourceInvocation
  evidence : List SourceEvidence
  claims : List (Uuid × Option String × Option Uuid × String)
  citations : List SourceCitation
  outbox : List SourceOutbox
  queryPollutionCount : Nat
  traceabilityViolationCount : Nat
  goldAssertions : List GoldAssertion
  errorSignalFlags : List String
deriving DecidableEq, Repr

/-- What the collector calls. -/
structure CollectorBuiltins where
  /-- `unicodedata.normalize("NFKC", text)`. -/
  nfkc : String → String
  casefold : String → String
  /-- `Decimal(text)`, where it is a finite number. -/
  decimal : String → Option Rat
  /-- `str` of what `normalized_equals` compares with. -/
  str : Scalar → String
  /-- `int(duration.total_seconds() * 1000)`. -/
  milliseconds : Duration → Nat
  /-- The SHA-256 of a payload's canonical JSON. -/
  digest : DigestPayload → String

variable (b : CollectorBuiltins)

/-- `_normalize` and `_normalized_text`. -/
def CollectorBuiltins.normalize (text : String) : String := Text.squeeze (b.casefold (b.nfkc text))

/-! ## Validation -/

section Validate

variable (s : RunSourceSnapshot)

def notReady (message code : String) : Exn := .invariant message code

def invalidTopology (message : String) : Exn := notReady message "source_topology_invalid"

def notSealed (message : String) : Exn := notReady message "source_not_sealed"

/-- `_TERMINAL_STEP_STATUSES`. -/
def isSealedStep (status : Orchestration.StepStatus) : Bool :=
  status = .succeeded || status = .failed || status = .skipped || status = .cancelled

def validateStep (step : SourceStep) : Except Exn Unit := do
  check (isSealedStep step.status) (notSealed "SearchRun has an unsealed Step")
  check (decide (step.status = .succeeded) == step.outputBound)
    (invalidTopology "Step output binding is inconsistent")

def validateAttempt (attempt : SourceAttempt) : Except Exn Unit :=
  check (s.steps.any (·.id = attempt.stepId) && attempt.completedAt.isSome)
    (notSealed "SearchRun has an open or orphaned Attempt")

/-- Billing and the call go together. -/
def isBillingBound (i : SourceInvocation) : Bool :=
  !((i.providerCalled && i.billingDisposition = .notBilled)
    || (!i.providerCalled && i.billingDisposition ≠ .notBilled)
    || (i.status = .reused && (i.providerCalled || i.billingDisposition ≠ .notBilled))
    || (i.billingDisposition = .billed && i.status ≠ .completed)
    || (i.billingDisposition = .possiblyBilled && !(i.status = .failed || i.status = .abandoned)))

def validateInvocation (i : SourceInvocation) : Except Exn Unit := do
  check (s.attempts.any fun a => a.id = i.attemptId && a.stepId = i.stepId)
    (invalidTopology "ModelInvocation has an invalid Attempt chain")
  check (i.status ≠ .started && i.completedAt.isSome)
    (notSealed "SearchRun has an unsealed ModelInvocation")
  check (isBillingBound i) (invalidTopology "ModelInvocation billing binding is invalid")

def validateQuery (query : SourceQuery) : Except Exn Unit := do
  check (query.factRequirementId.any fun id => s.facts.any (·.id = id))
    (invalidTopology "QuerySpec is not bound to a Run Fact")
  check (1 ≤ query.planRevision) (invalidTopology "QuerySpec plan revision is invalid")

def validateProviderAttempt (a : SourceProviderAttempt) : Except Exn Unit :=
  check (s.queries.any (·.id = a.querySpecId) && (a.status = "SUCCEEDED" || a.status = "FAILED")
      && a.completedAt.isSome)
    (notSealed "ProviderAttempt is open or orphaned")

def validateOutbox (o : SourceOutbox) : Except Exn Unit :=
  check o.publishedAt.isSome
    (notReady "SearchRun has unpublished related outbox work" "source_outbox_unpublished")

/-- The output of a run that succeeded is there. -/
def isOutputComplete : Bool :=
  s.responseStatus = .succeeded && s.outputMessageId.isSome
    && s.outputMessageRole.any (fun role => b.casefold role = "assistant")
    && s.outputMessageConversationId = some s.conversationId && s.answerText.isSome

def validateClaim (claim : SourceClaim) : Except Exn Unit := do
  check (claim.claimKind = some "FACTUAL" || claim.claimKind = some "UNCERTAINTY"
      || claim.claimKind = some "COMMENTARY")
    (notReady "Claim kind is null or invalid" "source_claim_kind_invalid")
  check (claim.claimKind ≠ some "FACTUAL"
      || claim.factRequirementId.any fun id => s.facts.any (·.id = id))
    (notReady "Factual Claim has no valid Run Fact" "source_claim_fact_invalid")

/-- `_validate_snapshot`. The rows' identifiers are compared before the rows are looked at. -/
def validateSnapshot : Except Exn Unit := do
  check (s.status = .succeeded || s.status = .failed || s.status = .cancelled)
    (notReady "SearchRun is not terminal" "source_not_terminal")
  check (s.createdAt < s.hardDeadlineAt)
    (notReady "SearchRun deadline is invalid" "source_timestamp_invalid")
  check (decide (s.steps.map (·.id)).Nodup)
    (invalidTopology "SearchRun contains duplicate Step IDs")
  s.steps.forM validateStep
  check (decide (s.attempts.map (·.id)).Nodup)
    (invalidTopology "SearchRun contains duplicate Attempt IDs")
  s.attempts.forM (validateAttempt s)
  check (decide (s.invocations.map (·.id)).Nodup)
    (invalidTopology "SearchRun contains duplicate Invocation IDs")
  s.invocations.forM (validateInvocation s)
  check (decide (s.facts.map (·.id)).Nodup && decide (s.queries.map (·.id)).Nodup)
    (invalidTopology "SearchRun contains duplicate planning IDs")
  s.queries.forM (validateQuery s)
  s.providerAttempts.forM (validateProviderAttempt s)
  s.outbox.forM validateOutbox
  check (s.status ≠ .succeeded || isOutputComplete b s)
    (notReady "Successful SearchRun output is incomplete" "source_output_incomplete")
  check (decide (s.claims.map (·.id)).Nodup)
    (invalidTopology "SearchRun contains duplicate Claim IDs")
  s.claims.forM (validateClaim s)

end Validate

/-! ## Citations -/

/-- `_valid_citation`. -/
def isValidCitation (citation : SourceCitation) (claim : SourceClaim) (e : SourceEvidence) : Bool :=
  e.verdict = "ACCEPTED" && claim.factRequirementId = some e.factRequirementId
    && e.documentChainValid && citation.documentVersionId = e.documentVersionId
    && citation.documentChunkId = e.documentChunkId && citation.startOffset = e.startOffset
    && citation.endOffset = e.endOffset && citation.quoteLength = e.quoteLength
    && citation.quoteMatchesEvidence && 0 ≤ citation.startOffset
    && citation.startOffset < citation.endOffset
    && citation.endOffset - citation.startOffset = citation.quoteLength

section Source

variable (s : RunSourceSnapshot)

/-- The evidence of a valid citation of this claim. -/
def validEvidenceOf (citation : SourceCitation) : Option SourceEvidence := do
  let claim ← lookup (·.id) citation.answerClaimId s.claims
  let e ← lookup (·.id) citation.verifiedEvidenceId s.evidence
  if isValidCitation citation claim e then some e else none

/-- `valid_by_claim[id]`. -/
def validByClaim (id : Uuid) : List SourceEvidence :=
  (s.citations.filter (·.answerClaimId = id)).filterMap (validEvidenceOf s)

def factualClaims : List SourceClaim := s.claims.filter (·.claimKind = some "FACTUAL")

/-- The claim has no valid citation, or one that is not valid. -/
def isViolated (claim : SourceClaim) : Bool :=
  (validByClaim s claim.id).isEmpty
    || s.citations.any fun c => c.answerClaimId = claim.id && (validEvidenceOf s c).isNone

/-- `valid_evidence`: of the factual claims. -/
def validEvidence : List SourceEvidence := (factualClaims s).flatMap fun c => validByClaim s c.id

/-! ## Gold assertions -/

/-- `"\n".join(claim_texts)`. -/
def joined (claims : List SourceClaim) : String := "\n".intercalate (claims.map (·.claimText))

/-- The rank of an authority; a text that is none is below all. -/
def authorityRank (value : String) : Int :=
  match SourceAuthority.ofValue value with
  | .ok .unknown => 0
  | .ok .independent => 1
  | .ok .official => 2
  | .error _ => -1

/-- `max(values, key=rank, default="UNKNOWN")`: the first of those that rank highest. -/
def bestAuthority (values : List String) : String :=
  values.foldl (fun best value =>
      if best.all fun x => authorityRank x < authorityRank value then some value else best)
    none |>.getD "UNKNOWN"

/-- `evaluate_gold_assertion` of `_assertion_actual`; `none` for a `ValueError`. -/
def evaluate (claims : List SourceClaim) (evidence : List SourceEvidence) :
    Expectation → Option Bool
  | .normalizedContainsAll items =>
      some (items.all fun item => Text.contains (b.normalize (joined claims)) (b.normalize item))
  | .normalizedEquals value => some (b.normalize (joined claims) = b.normalize (b.str value))
  | .numberInRange minimum maximum =>
      (b.decimal (Text.strip (joined claims))).map fun value =>
        minimum.value ≤ value && value ≤ maximum.value
  | .setContains items =>
      some (items.all fun item => (claims.map fun c => b.normalize c.claimText).contains
        (b.normalize item))
  | .sourceClassAtLeast authority =>
      let best := bestAuthority (evidence.map (·.sourceAuthority))
      some (0 ≤ authorityRank best && authorityRank authority.value ≤ authorityRank best)

/-- The result of an assertion that was evaluated. -/
def graded (assertion : Manifest.GoldAssertion) (verdict : Option Bool) : GoldAssertion where
  assertionId := assertion.id
  critical := assertion.critical
  status := if verdict = some true then .pass else .fail
  reasonCode := match verdict with
    | some true => "assertion_passed"
    | some false => "actual_value_mismatch"
    | none => "actual_value_invalid"

variable (c : ShadowCase)

/-- The oracle is about this moment. -/
def isInWindow (at' : Time) : Bool :=
  c.validFrom.any (· ≤ at') && c.validUntil.any (at' ≤ ·)

/-- `_gold_results`. -/
def goldResults (claims : List SourceClaim) (evidence : List SourceEvidence)
    (sourceTerminalAt : Time) : List GoldAssertion :=
  if c.oracleType ≠ .deterministic then []
  else if isInWindow c sourceTerminalAt then
    c.goldAssertions.map fun a => graded a (evaluate b claims evidence a.expected)
  else
    c.goldAssertions.map fun a => ⟨a.id, a.critical, .notApplicable, "oracle_window_invalid"⟩

/-! ## Classification -/

/-- `_ERROR_CATEGORY`. -/
def errorCategories : List String :=
  ["TRANSIENT", "PERMANENT", "BUDGET", "CONTENT", "MODEL_OUTPUT", "CANCELLED", "INTERNAL",
    "INFRASTRUCTURE"]

/-- `category in _categories(snapshot)`. -/
def hasCategory (category : String) : Bool :=
  errorCategories.contains category
    && (s.providerAttempts.any (·.errorType = some category)
      || s.attempts.any (·.errorType = some category)
      || s.invocations.any (·.errorCategory = some category))

/-- `sorted(values)` of a set. -/
def sortedSet (values : List String) : List String :=
  values.dedup.mergeSort fun x y => decide (x ≤ y)

/-- The type of a step. -/
def stepType (id : Uuid) : Option String := (lookup (·.id) id s.steps).map (·.stepType.value)

/-- `phases`. -/
def phases : List String :=
  ((s.attempts.filter (·.errorType.isSome)).filterMap fun a => stepType s a.stepId)
    ++ ((s.invocations.filter (·.errorCategory.isSome)).filterMap fun i => stepType s i.stepId)
    ++ if s.providerAttempts.any (·.status = "FAILED") then ["DISCOVERY"] else []

/-- `_failed_phase`. -/
def failedPhase : Option String :=
  match (sortedSet (phases s)).head? with
  | some phase => some phase
  | none => if s.status = .succeeded then none else some "RUN"

/-- The names that stand for no defect of the candidate. -/
def environmentSignals : List String :=
  ["permanent_configuration", "infrastructure_failure", "provider_transient", "content_gap",
    "unclassified_terminal_failure", "source_terminal_timestamp_invalid"]

/-- A signal that is raised on a condition. -/
def raised (condition : Bool) (signal : String) : List String := if condition then [signal] else []

/-- `terminal_valid`. -/
def isTerminalValid : Bool := s.completedAt.any (s.createdAt ≤ ·)

/-- What the rows' errors and the state of the run add to the signals. -/
def sourceSignals (candidateSignals : List String) (factGap : Int) : List String :=
  let signals := candidateSignals
    ++ raised (hasCategory s "PERMANENT") "permanent_configuration"
    ++ raised (hasCategory s "INTERNAL" || hasCategory s "INFRASTRUCTURE") "infrastructure_failure"
    ++ raised (hasCategory s "TRANSIENT") "provider_transient"
    ++ raised (hasCategory s "CONTENT" || factGap ≠ 0) "content_gap"
    ++ raised (hasCategory s "MODEL_OUTPUT" || hasCategory s "BUDGET") "candidate_runtime_defect"
    ++ raised (s.stopReason = some .infrastructureFailure) "infrastructure_failure"
    ++ raised (s.stopReason = some .providerFailure) "provider_transient"
    ++ raised (s.stopReason = some .insufficientEvidence) "content_gap"
    ++ raised (s.stopReason = some .policyBlocked) "candidate_runtime_defect"
    ++ raised (s.status = .cancelled) "unexpected_candidate_cancelled"
    ++ raised (!isTerminalValid s) "source_terminal_timestamp_invalid"
  signals ++ raised (s.status = .failed && signals.isEmpty) "unclassified_terminal_failure"

/-- `_classification`, of the signals in order. -/
def classification (ordered : List String) : Option ErrorClass × Option String :=
  match ordered.filter (!environmentSignals.contains ·) with
  | signal :: _ => (some .candidateDefect, some signal)
  | [] =>
      if ordered.contains "permanent_configuration" then
        (some .permanentConfiguration, some "permanent_configuration_error")
      else if ordered.contains "infrastructure_failure"
          || ordered.contains "unclassified_terminal_failure"
          || ordered.contains "source_terminal_timestamp_invalid" then
        (some .infrastructure, some "infrastructure_error")
      else if ordered.contains "provider_transient" then
        (some .providerTransient, some "provider_transient_error")
      else if ordered.contains "content_gap" then (some .contentGap, some "content_gap")
      else (none, none)

/-! ## The digest -/

/-- `_digest_payload`. -/
def digestPayload (outcome : CollectionOutcome) : DigestPayload where
  schema := outcome.collectorSchemaVersion
  tenantId := s.tenantId
  run := {
    id := s.runId, conversationId := s.conversationId, responseRunId := s.responseRunId
    responseStatus := s.responseStatus, outputMessageId := s.outputMessageId, mode := s.mode
    status := s.status, answerQuality := s.answerQuality, stopReason := s.stopReason
    createdAt := s.createdAt, hardDeadlineAt := s.hardDeadlineAt, completedAt := s.completedAt
    version := s.version, budgetMaxLlmCalls := s.budgetMaxLlmCalls
    recordedLlmCallCount := s.recordedLlmCallCount, recordedPromptTokens := s.recordedPromptTokens
    recordedCompletionTokens := s.recordedCompletionTokens }
  facts := sortedById (·.id) s.facts
  queries := (sortedById (·.id) s.queries).map fun q =>
    (q.id, q.factRequirementId, q.planRevision, q.providerClass)
  providerAttempts := sortedById (·.id) s.providerAttempts
  steps := sortedById (·.id) s.steps
  attempts := sortedById (·.id) s.attempts
  invocations := sortedById (·.id) s.invocations
  evidence := sortedById (·.id) s.evidence
  claims := (sortedById (·.id) s.claims).map fun c =>
    (c.id, c.claimKind, c.factRequirementId, c.supportStatus)
  citations := sortedById (·.id) s.citations
  outbox := sortedById (·.id) s.outbox
  queryPollutionCount := outcome.queryPollutionCount
  traceabilityViolationCount := outcome.traceabilityViolationCount
  goldAssertions := outcome.goldAssertions.mergeSort fun x y =>
    decide (x.assertionId ≤ y.assertionId)
  errorSignalFlags := outcome.errorSignalFlags

/-- `source_snapshot_digest`. -/
def sourceSnapshotDigest (outcome : CollectionOutcome) : Except Exn String := do
  check (outcome.collectorSchemaVersion = Shadow.collectorSchemaVersion)
    (.invariant "Collector schema version is not implemented by this harness"
      "collector_schema_version_mismatch")
  return b.digest (digestPayload s outcome)

/-! ## The collector -/

/-- `_MODEL_LIMIT`. -/
def modelLimit : Orchestration.SearchMode → Nat
  | .fast => 4
  | .research => 8

/-- An invocation as the usage reads it. -/
def modelInvocation (i : SourceInvocation) : ModelInvocation where
  runId := s.runId
  status := match i.status with
    | .started => .started
    | .completed => .completed
    | .failed => .failed
    | .abandoned => .abandoned
    | .reused => .reused
  providerCalled := i.providerCalled
  billingDisposition := match i.billingDisposition with
    | .notBilled => .notBilled
    | .billed => .billed
    | .possiblyBilled => .possiblyBilled
  promptTokens := i.promptTokens
  completionTokens := i.completionTokens

/-- The evidence that can show a required source class. -/
def sourceClassEvidence : List SourceEvidence :=
  if c.answerability = .intentionallyUnanswerable then s.evidence.filter (·.documentChainValid)
  else validEvidence s

/-- `pollution_count`. -/
def pollutionCount : Nat :=
  s.queries.countP fun query => c.forbiddenQueryTerms.any fun term =>
    b.normalize term ≠ "" && Text.contains (b.normalize query.queryText) (b.normalize term)

/-- `candidate_signals`. -/
def candidateSignals (usage : SettlementUsage) (gold : List GoldAssertion) : List String :=
  let calls := s.invocations.countP (·.providerCalled)
  raised ((s.facts.countP (·.required) : Int) < c.minimumRequiredFacts) "plan_completeness_failure"
    ++ raised (0 < (factualClaims s).countP (isViolated s)) "citation_traceability_violation"
    ++ raised (s.citations.any fun x =>
        (lookup (·.id) x.answerClaimId s.claims).any (·.claimKind ≠ some "FACTUAL"))
      "nonfactual_citation"
    ++ raised (0 < pollutionCount b s c) "query_pollution"
    ++ raised (modelLimit s.mode < calls) "model_call_budget_exceeded"
    ++ raised (s.budgetMaxLlmCalls ≠ modelLimit s.mode) "run_budget_snapshot_mismatch"
    ++ raised (s.recordedLlmCallCount ≠ calls || s.recordedPromptTokens ≠ usage.promptTokens
        || s.recordedCompletionTokens ≠ usage.completionTokens)
      "model_invocation_ledger_mismatch"
    ++ raised (gold.any (·.status = .fail)) "gold_assertion_failure"
    ++ raised (c.mustNotComplete && s.answerQuality = .complete) "unanswerable_marked_complete"
    ++ raised (!(c.requiredSourceClasses.all fun required =>
        (sourceClassEvidence s c).any (·.sourceAuthority = required.value)))
      "required_source_class_missing"
    ++ raised (s.mode ≠ c.expectedMode) "mode_mismatch"

/-- `source_terminal_at`. -/
def sourceTerminalAt : Time :=
  if isTerminalValid s then s.completedAt.getD s.hardDeadlineAt else s.hardDeadlineAt

/-- `latency_ms`. -/
def latencyMs : Nat :=
  let deadline := b.milliseconds (s.hardDeadlineAt - s.createdAt) + 1
  match s.completedAt with
  | some at' =>
      if s.status ≠ .succeeded ∧ (¬isTerminalValid s ∨ s.hardDeadlineAt < at') then deadline
      else if isTerminalValid s then b.milliseconds (at' - s.createdAt) else deadline
  | none => deadline

/-- `preliminary`: all but the digest. -/
def preliminary (oracleVersion : Option String) (usage : SettlementUsage) : CollectionOutcome :=
  let total := s.facts.countP (·.required)
  let covered := s.facts.countP fun f => f.required && (f.status = "COVERED" || f.status = "VERIFIED")
  let gap := max (total : Int) c.minimumRequiredFacts - covered
  let gold := goldResults b c s.claims (validEvidence s) (sourceTerminalAt s)
  let flags := sortedSet (sourceSignals s (candidateSignals b s c usage gold) gap)
  let failures := s.providerAttempts.countP (·.status ≠ "SUCCEEDED")
  { sourceSnapshotDigest := ""
    collectorSchemaVersion := Shadow.collectorSchemaVersion
    sourceTerminalAt := sourceTerminalAt s
    actualMode := s.mode.value, runStatus := s.status.value
    answerQuality := Orchestration.Aggregate.AnswerQuality.value s.answerQuality
    runStopReason := s.stopReason.map Orchestration.Aggregate.StopReason.value
    latencyMs := latencyMs b s
    minimumRequiredFacts := c.minimumRequiredFacts
    factTotal := total, factCovered := covered, factGap := gap
    planCompletenessFailure := (total : Int) < c.minimumRequiredFacts
    factualClaimCount := (factualClaims s).length
    nonfactualClaimCount := s.claims.length - (factualClaims s).length
    citedFactualClaimCount := (factualClaims s).countP fun claim =>
      s.citations.any (·.answerClaimId = claim.id)
    validCitationChainCount := s.citations.countP fun x => (validEvidenceOf s x).isSome
    traceabilityViolationCount := (factualClaims s).countP (isViolated s)
    goldAssertions := gold
    oracleVersion := if gold.isEmpty then none else oracleVersion
    queryPollutionCount := pollutionCount b s c
    modelCallCount := s.invocations.countP (·.providerCalled)
    usage
    degraded := 0 < failures || usage.possiblyBilledCallCharge ≠ 0
      || flags.contains "provider_transient" || flags.contains "infrastructure_failure"
    providerSuccessCount := s.providerAttempts.countP (·.status = "SUCCEEDED")
    providerFailureCount := failures
    errorClass := (classification flags).1, errorCode := (classification flags).2
    failedPhase := failedPhase s
    errorSignalFlags := flags }

/-- `collect_run_snapshot`, by the schema version this harness implements. -/
def collectRunSnapshot (rate : CostRate) (oracleVersion : Option String) :
    Except Exn CollectionOutcome := do
  validateSnapshot b s
  s.citations.forM fun citation =>
    check (s.claims.any (·.id = citation.answerClaimId))
      (notReady "Citation references an unknown Run Claim" "source_citation_claim_invalid")
  let usage ← invocationUsage rate (s.invocations.map (modelInvocation s))
  let outcome := preliminary b s c oracleVersion usage
  let digest ← sourceSnapshotDigest b s outcome
  return { outcome with sourceSnapshotDigest := digest }

end Source

end Sana.Shadow.Collector
