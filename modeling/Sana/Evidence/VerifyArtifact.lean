import Sana.Evidence.Coverage
import Sana.Evidence.ModelVerifier
import Sana.Lib.PyRecord

/-!
# The verification artifact

`verify` stores its evidence, and how well it covers each fact, in one JSON document. `synthesize` loads
the document, makes the evidence again by its constructors and computes the coverage again from that.
-/

namespace Sana.Evidence

open Sana.Lib Sana.Planning

/-- A JSON document. Rationals stand for the floats. -/
abbrev Document := PyJson Rat

/-- What `str`, `int`, `float` and a loop make of values of other types than the writer's. -/
structure Coercions where
  str : Document → String
  int : Document → Except Exn Int
  float : Document → Except Exn Rat
  items : Document → Except Exn (List Document)

namespace Coercions

variable (c : Coercions)

/-- `str(value)`. -/
def textOf : Document → String
  | .str s =>
      match s.chars? with
      | some cs => String.ofList cs
      | none => c.str (.str s)
  | v => c.str v

/-- `int(value)`. -/
def intOf : Document → Except Exn Int
  | .int n => .ok n
  | v => c.int v

/-- `float(value)`. -/
def floatOf : Document → Except Exn Rat
  | .real x => .ok x
  | v => c.float v

/-- The items of a value. -/
def itemsOf : Document → Except Exn (List Document)
  | .arr items => .ok items
  | v => c.items v

/-- `document[name]`. -/
def get (document : Document) (name : String) : Except Exn Document :=
  match document.field name with
  | some v => .ok v
  | none => .error (.keyError name)

/-- `str(document[name])`. -/
def textAt (document : Document) (name : String) : Except Exn String := do
  return c.textOf (← get document name)

end Coercions

/-! ## One piece of evidence -/

/-- The members of the dictionary of `evidence_to_payload`. -/
def EvidencePayload.members (p : EvidencePayload) : List (String × Document) := [
  ("candidate_id", .text p.candidateId),
  ("verified_id", .text p.verifiedId),
  ("fact_id", .text p.factId),
  ("document_id", .text p.documentId),
  ("document_version_id", .text p.documentVersionId),
  ("document_chunk_id", .text p.documentChunkId),
  ("quote", .text p.quote),
  ("quote_hash", .text p.quoteHash),
  ("start_offset", .int p.startOffset),
  ("end_offset", .int p.endOffset),
  ("support_type", .text p.supportType),
  ("candidate_score", .real p.candidateScore),
  ("source_identity", .text p.sourceIdentity),
  ("source_authority", .text p.sourceAuthority),
  ("verdict", .text p.verdict),
  ("confidence", .real p.confidence),
  ("reason_codes", .arr (p.reasonCodes.map .text)),
  ("verifier_version", .text p.verifierVersion),
  ("verified_at", .text p.verifiedAt),
  ("url", .text p.url)]

def EvidencePayload.document (p : EvidencePayload) : Document := .record p.members

/-- What `evidence_from_payload` reads from its argument. -/
def EvidencePayload.read (c : Coercions) (d : Document) : Except Exn EvidencePayload := do
  return {
    documentId := ← c.textAt d "document_id"
    documentVersionId := ← c.textAt d "document_version_id"
    documentChunkId := ← c.textAt d "document_chunk_id"
    url := ← c.textAt d "url"
    sourceIdentity := ← c.textAt d "source_identity"
    sourceAuthority := ← c.textAt d "source_authority"
    candidateId := ← c.textAt d "candidate_id"
    factId := ← c.textAt d "fact_id"
    quote := ← c.textAt d "quote"
    quoteHash := ← c.textAt d "quote_hash"
    supportType := ← c.textAt d "support_type"
    candidateScore := ← c.floatOf (← Coercions.get d "candidate_score")
    startOffset := ← c.intOf (← Coercions.get d "start_offset")
    endOffset := ← c.intOf (← Coercions.get d "end_offset")
    verifiedId := ← c.textAt d "verified_id"
    verdict := ← c.textAt d "verdict"
    confidence := ← c.floatOf (← Coercions.get d "confidence")
    reasonCodes := (← c.itemsOf (← Coercions.get d "reason_codes")).map c.textOf
    verifierVersion := ← c.textAt d "verifier_version"
    verifiedAt := ← c.textAt d "verified_at" }

section Step

variable (b : Builtins) (c : Coercions) (tenantId runId : Uuid)

/-- `evidence_to_payload`, as a document. -/
def evidenceToPayload (e : VerifiedEvidence) : Document := (toPayload b e).document

/-- `evidence_from_payload`, of a document. -/
def evidenceFromPayload (d : Document) : Except Exn VerifiedEvidence := do
  fromPayload b tenantId runId (← EvidencePayload.read c d)

/-! ## The document of a step -/

def EvidenceLevel.value : EvidenceLevel → String
  | .l0Discovery => "L0_DISCOVERY"
  | .l1Grounded => "L1_GROUNDED"
  | .l2Verified => "L2_VERIFIED"

/-- `coverage`: the assessment of each fact of the plan. -/
def assessFacts (facts : List (Uuid × FactRequirement)) (evidence : List VerifiedEvidence) :
    List (Uuid × CoverageAssessment) :=
  facts.map fun f => (f.1, evaluate tenantId runId f.1 evidence f.2)

/-- A list of identifiers. -/
def idsDocument (ids : List Uuid) : Document := .arr (ids.map fun id => .text id.str)

/-- What is stored of an assessment. -/
def assessmentMembers (factId : Uuid) (a : CoverageAssessment) : List (String × Document) := [
  ("fact_id", .text factId.str),
  ("fact_key", .text a.factKey),
  ("status", .text a.status.value),
  ("level", (a.level.map fun level => PyJson.text level.value).getD .null),
  ("evidence_ids", idsDocument a.evidenceIds),
  ("supporting_ids", idsDocument a.supportingIds),
  ("contradicting_ids", idsDocument a.contradictingIds),
  ("reason_codes", .arr (a.reasonCodes.map .text))]

def assessmentDocument (factId : Uuid) (a : CoverageAssessment) : Document :=
  .record (assessmentMembers factId a)

/-- The rows of `coverage`. -/
def coverageDocument (coverage : List (Uuid × CoverageAssessment)) : Document :=
  .arr (coverage.map fun row => assessmentDocument row.1 row.2)

/-- `sana.verify.v2`, what `verify` stores of a batch. -/
def verifyMembers (planRef : Document) (facts : List (Uuid × FactRequirement))
    (batch : VerifiedBatch) : List (String × Document) := [
  ("schema", .text "sana.verify.v2"),
  ("plan_ref", planRef),
  ("evidence", .arr (batch.evidence.map (evidenceToPayload b))),
  ("coverage", coverageDocument (assessFacts tenantId runId facts batch.evidence)),
  ("degraded", .bool batch.degraded),
  ("degradation_code", (batch.degradationCode.map PyJson.text).getD .null)]

def verifyDocument (planRef : Document) (facts : List (Uuid × FactRequirement))
    (batch : VerifiedBatch) : Document := .record (verifyMembers b tenantId runId planRef facts batch)

/-- The evidence `synthesize` takes from the document it loaded. -/
def loadedEvidence (loaded : Document) : Except Exn (List VerifiedEvidence) :=
  match loaded.field "evidence" with
  | some raw => do (← c.itemsOf raw).mapM (evidenceFromPayload b c tenantId runId)
  | none => .ok []

/-- `coverage`, as `synthesize` computes it. -/
def recomputedCoverage (facts : List (Uuid × FactRequirement)) (loaded : Document) :
    Except Exn (List (Uuid × CoverageAssessment)) := do
  return assessFacts tenantId runId facts (← loadedEvidence b c tenantId runId loaded)

end Step

end Sana.Evidence
