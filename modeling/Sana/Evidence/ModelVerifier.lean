import Sana.Evidence.Domain

/-!
# Model verification behind deterministic gates

`ModelEvidenceVerifier` turns selected candidates into evidence. Reviewed sources
are judged by deterministic adapters, the rest by a model whose reply is parsed
strictly. Whatever the judge was, `record` takes the quote to the candidate's own
chunk again and builds the evidence from there; every candidate ends up accepted
or rejected.
-/

namespace Sana.Evidence

open Sana.Lib Sana.Planning

/-- `SelectedCandidate`. -/
structure SelectedCandidate where
  id : Uuid
  factId : Uuid
  fact : FactRequirement
  documentId : Uuid
  version : DocumentVersion
  chunkId : Uuid
  chunk : DocumentChunk
  url : String
  sourceIdentity : String
  sourceAuthority : SourceAuthority
  quote : String
  score : Rat

/-- `ProposedVerification`. -/
structure ProposedVerification where
  factId : Uuid
  candidateId : Uuid
  supportType : SupportType
  quote : String
  confidence : Rat
  reasonCodes : List String

/-- `VerifiedBatch`. -/
structure VerifiedBatch where
  evidence : List VerifiedEvidence
  degraded : Bool
  degradationCode : Option String := none

/-- How a model call ended: a typed error, or a reply that decodes to this value. -/
inductive ModelReply
  | failed (error : TypedError)
  | answered (value : Json)

/-- The exceptions the model stages absorb. -/
def isAbsorbed : Exn → Bool
  | .valueError _ | .typeError _ | .keyError _ => true
  | .invariant _ _ | .integrity _ | .runtimeError _ | .lookupError _ | .typed _ => false

/--
What the verifier decides by patterns over texts: the adapters for reviewed
sources with their versions, in the order they are tried, and the three filters.
Nothing below depends on what they decide.
-/
structure VerifierRules where
  /-- `_deterministic_proposal`. -/
  deterministicProposal : SelectedCandidate → Option (ProposedVerification × String)
  /-- `_model_proposal_is_semantically_admissible`. -/
  isAdmissible : SelectedCandidate → ProposedVerification → Bool
  /-- `_requires_source_set_absence`. -/
  requiresSourceSetAbsence : SelectedCandidate → Bool
  /-- `_is_stale_reviewed_current_candidate`. -/
  isStale : SelectedCandidate → Bool

/-- `_ALLOWED_REASON_CODES`. -/
def allowedReasonCodes : List String :=
  ["direct_support", "direct_contradiction", "current_source", "explicit_value",
    "definition_match", "context_match"]

/-! ## `VerificationParser` -/

namespace VerificationParser

variable (b : Builtins) (candidates : List SelectedCandidate)

/-- `self._candidates.get(id)`: of equal identifiers the last one counts. -/
def candidate (id : Uuid) : Option SelectedCandidate := lookup (·.id) id candidates.reverse

/-- The reason codes of a verdict. -/
def parseReasons (members : List (String × Json)) : Except Exn (List String) := do
  let raw ← match members.find? (·.1 = "reason_codes") with
    | some m => m.2.items
    | none => .ok []
  let reasons := distinctBy id (raw.map (·.text b))
  check (!reasons.isEmpty && reasons.all (· ∈ allowedReasonCodes))
    (.valueError "verdict contains unsupported reason codes")
  return reasons

/-- One verdict; `none` for a candidate that was judged already. -/
def parseVerdict (parsed : List ProposedVerification) (raw : Json) :
    Except Exn (Option ProposedVerification) := do
  let .obj members := raw | .error (.valueError "verdict must be an object")
  let candidateId ← (← raw.member "candidate_id").uuid b
  let factId ← (← raw.member "fact_id").uuid b
  let some c := candidate candidates candidateId
    | .error (.valueError "verdict references an unknown candidate/fact pair")
  check (c.factId = factId) (.valueError "verdict references an unknown candidate/fact pair")
  if parsed.any (·.candidateId = candidateId) then
    return none
  let quote := (← raw.member "quote").text b
  check (!quote.isEmpty && quote.length ≤ 240 && Text.contains c.chunk.text quote)
    (.valueError "verdict quote is not an exact candidate span")
  check (!parsed.any (·.factId = factId))
    (.valueError "verdicts contain more than one item for one fact")
  let confidence ← (← raw.member "confidence").float b
  check (0 ≤ confidence && confidence ≤ 1) (.valueError "verdict confidence is out of range")
  let reasonCodes ← parseReasons b members
  let supportType ← SupportType.ofValue ((← raw.member "support_type").text b)
  return some { factId, candidateId, supportType, quote, confidence, reasonCodes }

/-- The loop of `parse`. -/
def parseVerdicts (parsed : List ProposedVerification) :
    List Json → Except Exn (List ProposedVerification)
  | [] => .ok parsed
  | raw :: rest => do
      let verdict ← parseVerdict b candidates parsed raw
      parseVerdicts (parsed ++ verdict.toList) rest

/-- `VerificationParser.parse`, on the decoded reply. -/
def parse (payload : Json) : Except Exn (List ProposedVerification) := do
  let .arr verdicts ← payload.member "verdicts"
    | .error (.valueError "verdicts must be a bounded list")
  check (verdicts.length ≤ (distinctBy (·.id) candidates).length)
    (.valueError "verdicts must be a bounded list")
  parseVerdicts b candidates [] verdicts

end VerificationParser

/-! ## `ModelEvidenceVerifier` -/

namespace ModelEvidenceVerifier

variable (b : Builtins) (rules : VerifierRules) (runId : Uuid) (verifiedAt : Time)

/-- `_record`. The identifiers the two factories hand out are replaced at once. -/
def record (verifierVersion : String) (verdict : EvidenceVerdict) (c : SelectedCandidate)
    (proposed : ProposedVerification) : Except Exn VerifiedEvidence := do
  let some quoteStart := Text.index c.chunk.text proposed.quote
    | .error (.valueError "substring not found")
  let grounded ← build b c.id {
    tenantId := c.version.tenantId, runId, factRequirementId := c.factId, version := c.version
    chunkId := c.chunkId, chunk := c.chunk, documentId := c.documentId, sourceUrl := c.url
    sourceIdentity := c.sourceIdentity, supportType := proposed.supportType
    quote := proposed.quote, quoteStartInChunk := quoteStart, candidateScore := c.score
    authority := c.sourceAuthority }
  Evidence.record (b.uuid5 c.id ("verified:" ++ verifierVersion)) grounded verdict
    proposed.confidence ("exact_source_span" :: proposed.reasonCodes) verifierVersion verifiedAt

/-- The verdict on a candidate that nobody accepted. -/
def insufficient (c : SelectedCandidate) : ProposedVerification where
  factId := c.factId
  candidateId := c.id
  supportType := .supports
  quote := c.quote
  confidence := 0
  reasonCodes := ["insufficient_direct_support"]

/-- Reject the candidates that have no verdict yet. -/
def auditRows (verifierVersion : String) :
    List SelectedCandidate → List VerifiedEvidence → Except Exn (List VerifiedEvidence)
  | [], rows => .ok rows
  | c :: rest, rows => do
      match lookup (·.candidate.id) c.id rows with
      | some _ => auditRows verifierVersion rest rows
      | none =>
          let rejected ← record b runId verifiedAt verifierVersion .rejected c (insufficient c)
          auditRows verifierVersion rest (rows ++ [rejected])

/-- `_complete_candidate_audit`: one verdict per candidate, in their order. -/
def completeCandidateAudit (verifierVersion : String) (candidates : List SelectedCandidate)
    (accepted : List VerifiedEvidence) : Except Exn (List VerifiedEvidence) := do
  let rows ← auditRows b runId verifiedAt verifierVersion candidates accepted.reverse
  candidates.mapM fun c =>
    match lookup (·.candidate.id) c.id rows with
    | some e => .ok e
    | none => .error (.keyError c.id.str)

/-- The evidence an adapter accepts from a candidate, if one does. -/
def deterministicValue (c : SelectedCandidate) : Except Exn (List VerifiedEvidence) :=
  match rules.deterministicProposal c with
  | some (proposed, version) => do
      let e ← record b runId verifiedAt version .accepted c proposed
      return [e]
  | none => .ok []

/-- What the adapters accept. -/
def deterministicValues : List SelectedCandidate → Except Exn (List VerifiedEvidence)
  | [] => .ok []
  | c :: rest => do
      let first ← deterministicValue b rules runId verifiedAt c
      return first ++ (← deterministicValues rest)

/-- The candidates the model is asked about. -/
def modelCandidates (candidates : List SelectedCandidate) (resolved : List VerifiedEvidence) :
    List SelectedCandidate :=
  candidates.filter fun c =>
    !resolved.any (·.factRequirementId = c.factId) && !rules.requiresSourceSetAbsence c
      && !rules.isStale c

/-- The accepted verdicts of a model's reply. -/
def modelValues (asked : List SelectedCandidate) (reply : ModelReply) :
    Except Exn (List VerifiedEvidence) := do
  let .answered value := reply | .error (.typeError "Model call failed")
  let proposals ← VerificationParser.parse b asked value
  let judged ← proposals.mapM fun p =>
    match VerificationParser.candidate asked p.candidateId with
    | some c => .ok (c, p)
    | none => .error (.keyError p.candidateId.str)
  (judged.filter fun (c, p) => rules.isAdmissible c p).mapM fun (c, p) =>
    record b runId verifiedAt "deepseek-verifier-v2" .accepted c p

/-- `ModelEvidenceVerifier.verify`. -/
def verify (candidates : List SelectedCandidate) (reply : ModelReply) :
    Except Exn VerifiedBatch := do
  if candidates.isEmpty then
    return { evidence := [], degraded := false }
  let resolved ← deterministicValues b rules runId verifiedAt candidates
  let asked := modelCandidates rules candidates resolved
  if asked.isEmpty then
    let evidence ← completeCandidateAudit b runId verifiedAt "deterministic-audit-v1" candidates
      resolved
    return { evidence, degraded := false }
  let judged := do
    let values ← modelValues b rules runId verifiedAt asked reply
    completeCandidateAudit b runId verifiedAt "deepseek-verifier-v2" candidates (resolved ++ values)
  match judged with
  | .ok evidence => return { evidence, degraded := false }
  | .error e =>
      -- no model verdict is kept: what the adapters did not accept is rejected
      if isAbsorbed e then
        let evidence ← completeCandidateAudit b runId verifiedAt "fail-closed-audit-v1" candidates
          resolved
        return { evidence, degraded := true, degradationCode := some "model_verifier_fallback" }
      else .error e

/-- `ModelEvidenceVerifier.deterministic`: no model is configured. -/
def deterministic (candidates : List SelectedCandidate) : Except Exn VerifiedBatch := do
  let resolved ← deterministicValues b rules runId verifiedAt candidates
  let evidence ← completeCandidateAudit b runId verifiedAt "deterministic-audit-v1" candidates
    resolved
  return { evidence, degraded := false }

end ModelEvidenceVerifier

/-! ## The artifact encoding -/

/-- The JSON object `evidence_to_payload` returns. -/
structure EvidencePayload where
  candidateId : String
  verifiedId : String
  factId : String
  documentId : String
  documentVersionId : String
  documentChunkId : String
  quote : String
  quoteHash : String
  startOffset : Int
  endOffset : Int
  supportType : String
  candidateScore : Rat
  sourceIdentity : String
  sourceAuthority : String
  verdict : String
  confidence : Rat
  reasonCodes : List String
  verifierVersion : String
  verifiedAt : String
  url : String
deriving DecidableEq, Repr

/-- `evidence_to_payload`. -/
def toPayload (b : Builtins) (e : VerifiedEvidence) : EvidencePayload where
  candidateId := e.candidate.id.str
  verifiedId := e.id.str
  factId := e.candidate.factRequirementId.str
  documentId := e.candidate.source.documentId.str
  documentVersionId := e.candidate.source.documentVersionId.str
  documentChunkId := e.candidate.source.documentChunkId.str
  quote := e.candidate.quote
  quoteHash := e.candidate.quoteHash
  startOffset := e.candidate.startOffset
  endOffset := e.candidate.endOffset
  supportType := e.candidate.supportType.value
  candidateScore := e.candidate.candidateScore
  sourceIdentity := e.candidate.source.sourceIdentity
  sourceAuthority := e.candidate.source.authority.value
  verdict := e.verdict.value
  confidence := e.confidence
  reasonCodes := e.reasonCodes
  verifierVersion := e.verifierVersion
  verifiedAt := b.isoformat e.verifiedAt
  url := e.candidate.source.url

/-- `UUID(str(text))`. -/
def uuidOf (s : String) : Except Exn Uuid :=
  match Uuid.parse s with
  | some u => .ok u
  | none => .error (.valueError "badly formed hexadecimal UUID string")

/-- An offset as `EvidenceCandidate` accepts it. -/
def offsetOf (n : Int) : Except Exn Nat :=
  if 0 ≤ n then .ok n.toNat else .error (.valueError "Evidence quote offsets are invalid")

/-- `evidence_from_payload`. -/
def fromPayload (b : Builtins) (tenantId runId : Uuid) (p : EvidencePayload) :
    Except Exn VerifiedEvidence := do
  let source ← EvidenceSource.make b (← uuidOf p.documentId) (← uuidOf p.documentVersionId)
    (← uuidOf p.documentChunkId) p.url p.sourceIdentity
    (← SourceAuthority.ofValue p.sourceAuthority)
  let candidate ← EvidenceCandidate.make b {
    id := ← uuidOf p.candidateId, tenantId, runId, factRequirementId := ← uuidOf p.factId, source
    quote := p.quote, quoteHash := p.quoteHash, supportType := ← SupportType.ofValue p.supportType
    candidateScore := p.candidateScore, startOffset := ← offsetOf p.startOffset
    endOffset := ← offsetOf p.endOffset }
  let some verifiedAt := b.fromisoformat p.verifiedAt
    | .error (.valueError "Invalid isoformat string")
  VerifiedEvidence.make {
    id := ← uuidOf p.verifiedId, candidate, verdict := ← EvidenceVerdict.ofValue p.verdict
    confidence := p.confidence, reasonCodes := p.reasonCodes
    verifierVersion := p.verifierVersion, verifiedAt }

end Sana.Evidence
