import Sana.Answer.ModelSynthesizer
import Sana.Orchestration.Domain

/-!
# The synthesis step

`SearchStepOperations.synthesize` reads the plan and the verification, asks the
synthesizer and decides how good the answer is. COMPLETE needs every required
fact to be claimed with evidence and to be covered, and nothing to be degraded;
everything else is PARTIAL.
-/

namespace Sana.Answer

open Sana.Lib Sana.Evidence Sana.Planning Sana.Orchestration

/-- The plan artifact, as the step reads it. -/
structure Plan where
  facts : List (Uuid × Planning.FactRequirement)
  degraded : Bool
  locale : String

/-- The verification artifact; the defaults are those of a run that verified nothing. -/
structure Verification where
  evidence : List EvidencePayload := []
  degraded : Bool := false
  degradationCode : Option String := none

/-- The context the step runs in. -/
structure StepContext where
  tenantId : Uuid
  runId : Uuid
  now : Time
  deadlineAt : Time

/-- One claim of the answer artifact, with its citations. -/
structure RenderedClaim where
  claim : AnswerClaim
  citations : List Citation

/-- The answer artifact, `sana.answer.v1`. -/
structure AnswerDocument where
  answer : String
  quality : AnswerQuality
  stopReason : StopReason
  claims : List RenderedClaim
  missingFactIds : List Uuid
  degraded : Bool
  degradationCodes : List String

section Step

variable (b : Builtins) (rules : ClaimRules) (ctx : StepContext)

/-- The synthesizer, where one is configured; the deterministic answer where none is. -/
def runSynthesizer (facts : Facts) (coverage : Uuid → Option CoverageAssessment)
    (evidence : List Evidence.VerifiedEvidence) (reply : Option ModelReply) :
    Except Exn ConstrainedSynthesisResult :=
  match reply with
  | none => ConstrainedModelSynthesizer.deterministic b rules ctx.tenantId ctx.runId facts coverage
      evidence
  | some r => ConstrainedModelSynthesizer.synthesize b rules ctx.tenantId ctx.runId facts coverage
      evidence r

/-- The facts that have to be answered. -/
def requiredIds (facts : Facts) : List Uuid := (facts.filter (·.2.required)).map (·.1)

/-- The facts that some factual claim with evidence is about. -/
def supportedFactIds (claims : List AnswerClaim) : List Uuid :=
  (claims.filter fun c => c.kind = .factual && !c.evidenceIds.isEmpty).filterMap
    (·.factRequirementId)

/-- The fact counts as covered. -/
def isCovered (coverage : Uuid → Option CoverageAssessment) (id : Uuid) : Bool :=
  (coverage id).any fun a => a.status = .covered || a.status = .verified

/-- One line of the answer text. -/
def claimLine (c : RenderedClaim) : String :=
  let links := " ".intercalate (c.citations.map fun x =>
    "[" ++ x.label ++ "](" ++ x.renderedUrl ++ ")")
  "- " ++ c.claim.text ++ (if links.isEmpty then "" else " " ++ links)

/-- The text of the answer, in the language of the plan. -/
def render (zh : Bool) (claims : List RenderedClaim) (missing : List String) : String :=
  let header := if zh then "我找到并核对了以下网页原文："
    else "I found and checked these source excerpts:"
  let lines := header :: claims.map claimLine
  let lines := if missing.isEmpty then lines else
    lines ++ ["\n" ++ (if zh then "仍未获得足够证据" else "Evidence is still insufficient") ++ "："
      ++ "、".intercalate missing]
  let lines := if lines.length = 1 then
      lines ++ [if zh then "- 暂无可验证的网页证据。" else "- No verifiable web evidence is available."]
    else lines
  "\n".intercalate lines

/-- Why a partial answer is partial. -/
def partialReason (codes : List String) (modelDegraded : Bool) (claims : List RenderedClaim)
    (providerFailures : Int) : StopReason :=
  if ctx.deadlineAt ≤ ctx.now || codes.contains "phase_deadline_exceeded" then .timeBudget
  else if modelDegraded || (claims.isEmpty && 0 < providerFailures) then .providerFailure
  else .insufficientEvidence

/-- The answer artifact of a synthesis. -/
def answerDocument (input : SynthesisInput) (plan : Plan) (verification : Verification)
    (facts : Facts) (coverage : Uuid → Option CoverageAssessment)
    (synthesized : ConstrainedSynthesisResult) : AnswerDocument :=
  let codes := input.pipelineDegradationCodes.filter (· ≠ "")
  let modelDegraded := plan.degraded || verification.degraded || synthesized.degraded
  let degraded := modelDegraded || !codes.isEmpty
  let required := requiredIds facts
  let supported := supportedFactIds synthesized.answer.claims
  let complete := !required.isEmpty && required.all (supported.contains ·)
    && required.all (isCovered coverage) && !degraded
  let claims := synthesized.answer.claims.map fun c =>
    ⟨c, synthesized.answer.citations.filter (·.answerClaimId = c.id)⟩
  let missing := required.filter (!supported.contains ·)
  { answer := render (Text.startsWith (b.lower plan.locale) "zh") claims
      (missing.filterMap fun id => (lookup (·.1) id facts).map (·.2.description))
    quality := if complete then .complete else .partialAnswer
    stopReason := if complete then .factsCovered
      else partialReason ctx codes modelDegraded claims input.providerFailures
    claims, missingFactIds := missing, degraded
    degradationCodes := distinctBy id ((codes ++ verification.degradationCode.toList
      ++ synthesized.degradationCode.toList).filter (· ≠ "")) }

/-- The verification the step works on: the loaded artifact, where its input names one. -/
def verificationOf (input : SynthesisInput) (loaded : Verification) : Verification :=
  if input.verifyRef.isSome then loaded else {}

/-- `SearchStepOperations.synthesize`, once the artifacts its input names are loaded. -/
def synthesize (input : SynthesisInput) (plan : Plan) (loaded : Verification)
    (reply : Option ModelReply) : Except Exn AnswerDocument := do
  let verification := verificationOf input loaded
  let facts := dictOf plan.facts
  let evidence ← verification.evidence.mapM (fromPayload b ctx.tenantId ctx.runId)
  let coverage := coverageOf ctx.tenantId ctx.runId evidence facts
  let synthesized ← runSynthesizer b rules ctx facts coverage evidence reply
  return answerDocument b ctx input plan verification facts coverage synthesized

end Step

end Sana.Answer
