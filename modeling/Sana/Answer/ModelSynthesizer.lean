import Sana.Answer.Domain
import Sana.Evidence.ModelVerifier

/-!
# Synthesis constrained by evidence

`ConstrainedModelSynthesizer` asks a model for claims and parses the reply
strictly; when the reply is refused, or no model is needed, a deterministic
fallback quotes the supporting evidence instead. Either way the proposals go
through the same synthesizer and the same validator.
-/

namespace Sana.Answer

open Sana.Lib Sana.Evidence Sana.Planning

/-- The facts of a plan, by identifier, in order. -/
abbrev Facts := List (Uuid × FactRequirement)

/--
What the source decides by patterns over texts. The quotes and URLs of the cited
evidence are passed in order. Nothing below depends on what these decide.
-/
structure ClaimRules where
  /-- `_self_contained_text`, given the quote and the URL of each cited item. -/
  selfContainedText : FactRequirement → String → List (String × String) → Except Exn String
  /-- `_validate_requested_relationship`. -/
  validateRequestedRelationship : FactRequirement → String → Except Exn Unit
  /-- `_derived_fallback_text`. -/
  derivedFallbackText : FactRequirement → List VerifiedEvidence → Option String

/-- `item.verdict is EvidenceVerdict.ACCEPTED`. -/
def acceptedItems (evidence : List VerifiedEvidence) : List VerifiedEvidence :=
  evidence.filter (·.verdict = .accepted)

/-! ## `ProposedClaimParser` -/

namespace ProposedClaimParser

/-- `_FIELDS`. -/
def fields : List String := ["claim_key", "text", "fact_id", "evidence_ids"]

variable (b : Builtins) (rules : ClaimRules) (facts : Facts) (evidence : List VerifiedEvidence)

/-- The accepted item under an identifier: of equal identifiers the last one counts. -/
def acceptedById (id : Uuid) : Option VerifiedEvidence :=
  lookup (·.id) id (acceptedItems evidence).reverse

/-- `_evidence_fact.get(id)`. -/
def evidenceFact (id : Uuid) : Option Uuid := (acceptedById evidence id).map (·.factRequirementId)

/-- `_self_contained_text`, with the quotes and URLs looked up. -/
def selfContainedText (fact : FactRequirement) (text : String) (ids : List Uuid) :
    Except Exn String := do
  let cited ← ids.mapM fun id =>
    match acceptedById evidence id with
    | some e => .ok (e.candidate.quote, e.source.url)
    | none => .error (.keyError id.str)
  rules.selfContainedText fact text cited

/-- The evidence identifiers of a raw claim. -/
def parseEvidenceIds (members : List (String × Json)) : Except Exn (List Uuid) := do
  let raw ← match members.find? (·.1 = "evidence_ids") with
    | some m => m.2.items
    | none => .ok []
  let ids ← raw.mapM (·.uuid b)
  return distinctBy id ids

/-- One claim of the reply. -/
def parseClaim (parsed : List ProposedClaim) (raw : Json) : Except Exn ProposedClaim := do
  let .obj members := raw | .error (.valueError "claim contains unsupported fields")
  check (members.all (·.1 ∈ fields)) (.valueError "claim contains unsupported fields")
  let claimKey := (← raw.member "claim_key").text b
  check (!Text.isBlank claimKey && !parsed.any (·.claimKey = claimKey))
    (.valueError "claim keys must be non-empty and unique")
  let factId ← (← raw.member "fact_id").uuid b
  let some fact := lookup (·.1) factId facts
    | .error (.valueError "claim references an unknown fact")
  let claimText := Text.strip ((← raw.member "text").text b)
  check (!claimText.isEmpty && claimText.length ≤ 1200)
    (.valueError "claim text is empty or too long")
  let evidenceIds ← parseEvidenceIds b members
  check (!evidenceIds.isEmpty) (.valueError "factual claim must reference accepted evidence")
  check (evidenceIds.all (evidenceFact evidence · = some factId))
    (.valueError "claim references unavailable or cross-fact evidence")
  let claimText ← selfContainedText rules evidence fact.2 claimText evidenceIds
  rules.validateRequestedRelationship fact.2 claimText
  ProposedClaim.make { claimKey, text := claimText, factRequirementId := some factId, evidenceIds }

/-- The loop of `parse`. -/
def parseClaims (parsed : List ProposedClaim) : List Json → Except Exn (List ProposedClaim)
  | [] => .ok parsed
  | raw :: rest => do
      let claim ← parseClaim b rules facts evidence parsed raw
      parseClaims (parsed ++ [claim]) rest

/-- Every fact with accepted evidence is claimed. -/
def claimsEveryFact (parsed : List ProposedClaim) : Bool :=
  (acceptedItems evidence).all fun e =>
    parsed.any fun p => p.factRequirementId = evidenceFact evidence e.id && !p.evidenceIds.isEmpty

/-- `ProposedClaimParser.parse`, on the decoded reply. -/
def parse (payload : Json) : Except Exn (List ProposedClaim) := do
  let .arr claims ← payload.member "claims" | .error (.valueError "claims must be a bounded list")
  check (claims.length ≤ facts.length * 2) (.valueError "claims must be a bounded list")
  let parsed ← parseClaims b rules facts evidence [] claims
  check (claimsEveryFact evidence parsed)
    (.valueError "claims omitted facts with accepted evidence")
  return parsed

end ProposedClaimParser

/-! ## `ConstrainedModelSynthesizer` -/

/-- `ConstrainedSynthesisResult`. -/
structure ConstrainedSynthesisResult where
  answer : ValidatedAnswer
  degraded : Bool
  degradationCode : Option String := none

namespace ConstrainedModelSynthesizer

variable (b : Builtins) (rules : ClaimRules) (tenantId runId : Uuid) (facts : Facts)
  (coverage : Uuid → Option CoverageAssessment) (evidence : List VerifiedEvidence)

/-- The text the fallback gives a fact: a reviewed sentence, or the first quote. -/
def fallbackText (fact : FactRequirement) (cited : List VerifiedEvidence) (ids : List Uuid) :
    Except Exn String := do
  let some first := cited.head? | .error (.keyError "evidence")
  let quote := Text.strip (Text.replace first.candidate.quote "\n" " ")
  let quote := match rules.derivedFallbackText fact cited with
    | some text => if text.isEmpty then quote else text
    | none => quote
  match ProposedClaimParser.selfContainedText rules evidence fact quote ids with
  | .ok text => return text
  | .error (.valueError _) => return quote
  | .error e => .error e

/-- The fallback's proposal for one fact; none without supporting evidence. -/
def fallbackClaim (factId : Uuid) (fact : FactRequirement) : Except Exn (Option ProposedClaim) := do
  let some assessment := coverage factId | .error (.keyError factId.str)
  let evidenceIds := assessment.supportingIds.filter fun id =>
    (CitationValidator.evidenceById evidence id).isSome
  if evidenceIds.isEmpty then
    return none
  let cited := evidenceIds.filterMap (CitationValidator.evidenceById evidence)
  let text ← fallbackText rules evidence fact cited evidenceIds
  let proposal ← ProposedClaim.make {
    claimKey := fact.key, text := Text.slice text 0 1200, factRequirementId := some factId
    evidenceIds }
  return some proposal

/-- `_fallback`. -/
def fallback : Facts → Except Exn (List ProposedClaim)
  | [] => .ok []
  | (factId, fact) :: rest => do
      let claim ← fallbackClaim rules coverage evidence factId fact
      return claim.toList ++ (← fallback rest)

/-- The draft and the gate, which both paths share. -/
def validated (proposals : List ProposedClaim) : Except Exn ValidatedAnswer := do
  let draft ← ClaimSynthesizer.synthesize b tenantId runId coverage proposals
  CitationValidator.validate b tenantId runId evidence .markUnconfirmed draft

/-- `ConstrainedModelSynthesizer.deterministic`. -/
def deterministic : Except Exn ConstrainedSynthesisResult := do
  let proposals ← fallback rules coverage evidence facts
  let answer ← validated b tenantId runId coverage evidence proposals
  return { answer, degraded := false }

/-- The model is asked: some accepted item was not judged by a reviewed adapter. -/
def asksModel : Bool :=
  (acceptedItems evidence).any fun e => !Text.startsWith e.verifierVersion "deterministic-"

/-- The proposals of the model's reply, where it is accepted. -/
def modelProposals (reply : ModelReply) : Except Exn (List ProposedClaim) :=
  match reply with
  | .failed _ => .error (.typeError "Model call failed")
  | .answered value => ProposedClaimParser.parse b rules facts evidence value

/-- `ConstrainedModelSynthesizer.synthesize`. -/
def synthesize (reply : ModelReply) : Except Exn ConstrainedSynthesisResult := do
  if !asksModel evidence then
    deterministic b rules tenantId runId facts coverage evidence
  else
    match modelProposals b rules facts evidence reply with
    | .ok proposals =>
        let answer ← validated b tenantId runId coverage evidence proposals
        return { answer, degraded := false }
    | .error e =>
        if isAbsorbed e then
          let proposals ← fallback rules coverage evidence facts
          let answer ← validated b tenantId runId coverage evidence proposals
          return { answer, degraded := true, degradationCode := some "model_synthesizer_fallback" }
        else .error e

end ConstrainedModelSynthesizer

end Sana.Answer
