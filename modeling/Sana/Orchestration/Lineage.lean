import Sana.Orchestration.Store

/-!
# What a run leaves behind

The rows that lead from an answer back to the text it rests on: the facts a run asked
for, the queries, the attempts of the providers and their hits, what was fetched, the
documents with their versions and chunks, the evidence and the claims that cite it.
Documents, versions and chunks are shared by the runs of a tenant; everything else
belongs to one run.
-/

namespace Sana.Orchestration

/-! ## Rows -/

/-- `fact_requirements`. -/
structure FactRequirement where
  id : Uuid
  runId : Uuid
  factKey : String
  description : String
  required : Bool := true
  freshness : String
  consequence : String
  status : String := "OPEN"
deriving DecidableEq, Repr

/-- `query_specs`. -/
structure QuerySpec where
  id : Uuid
  runId : Uuid
  factRequirementId : Uuid
  planRevision : Nat
  queryKey : String
  queryText : String
  providerClass : String
  locale : String
  freshnessDays : Option Nat
deriving DecidableEq, Repr

/-- `provider_attempts`. -/
structure ProviderAttempt where
  id : Uuid
  runId : Uuid
  querySpecId : Uuid
  attemptNo : Nat := 1
  provider : String
  status : String
  startedAt : Time
  completedAt : Option Time
  latencyMs : Option Nat
  errorType : Option String
  errorCode : Option String
deriving DecidableEq, Repr

/-- `search_hits`. -/
structure SearchHit where
  id : Uuid
  runId : Uuid
  providerAttemptId : Uuid
  rank : Nat
  url : String
  canonicalUrl : String
  urlHash : String
  title : String
  snippet : String
  score : Rat
  discoveredAt : Time
deriving DecidableEq, Repr

/-- `fetch_artifacts`. -/
structure FetchArtifact where
  id : Uuid
  runId : Uuid
  searchHitId : Uuid
  url : String
  urlHash : String
  attemptNo : Nat := 1
  fetcher : String := "http"
  status : String := "SUCCEEDED"
  httpStatus : Nat
  mediaType : String
  contentHash : String
  storageUri : String
  fetchedAt : Time
deriving DecidableEq, Repr

/-- `documents`. -/
structure Document where
  id : Uuid
  canonicalUrl : String
  canonicalUrlHash : String
  title : String
  sourceHost : String
deriving DecidableEq, Repr

/-- `document_versions`. -/
structure DocumentVersion where
  id : Uuid
  documentId : Uuid
  fetchArtifactId : Uuid
  contentHash : String
  storageUri : String
  mediaType : String
  language : Option String
  textLength : Nat
  fetchedAt : Time
deriving DecidableEq, Repr

/-- `document_version_fetches`. -/
structure DocumentVersionFetch where
  id : Uuid
  runId : Uuid
  documentVersionId : Uuid
  fetchArtifactId : Uuid
  createdAt : Time
deriving DecidableEq, Repr

/-- `document_chunks`. -/
structure DocumentChunk where
  id : Uuid
  documentVersionId : Uuid
  ordinal : Nat
  textContent : String
  textHash : String
  tokenCount : Nat
  startOffset : Nat
  endOffset : Nat
deriving DecidableEq, Repr

/-- `evidence_candidates`. -/
structure EvidenceCandidate where
  id : Uuid
  runId : Uuid
  factRequirementId : Uuid
  documentVersionId : Uuid
  documentChunkId : Uuid
  quote : String
  quoteHash : String
  startOffset : Nat
  endOffset : Nat
  supportType : String
  candidateScore : Rat
  sourceIdentity : String
  sourceAuthority : String
deriving DecidableEq, Repr

/-- `verified_evidence`. -/
structure VerifiedEvidence where
  id : Uuid
  runId : Uuid
  candidateId : Uuid
  verdict : String
  confidence : Rat
  reasonCodes : List String
  verifierVersion : String
  verifiedAt : Time
deriving DecidableEq, Repr

/-- `answer_claims`. -/
structure AnswerClaim where
  id : Uuid
  runId : Uuid
  claimKey : String
  claimText : String
  claimKind : Option String
  factRequirementId : Option Uuid
  supportStatus : String
deriving DecidableEq, Repr

/-- `citations`. -/
structure Citation where
  id : Uuid
  runId : Uuid
  answerClaimId : Uuid
  verifiedEvidenceId : Uuid
  ordinal : Nat
  label : String
  renderedUrl : String
  documentVersionId : Uuid
  documentChunkId : Uuid
  quote : String
  startOffset : Nat
  endOffset : Nat
deriving DecidableEq, Repr

/-! ## Tables -/

/-- The tables of one tenant. -/
structure Lineage where
  factRequirements : List FactRequirement := []
  querySpecs : List QuerySpec := []
  providerAttempts : List ProviderAttempt := []
  searchHits : List SearchHit := []
  fetchArtifacts : List FetchArtifact := []
  documents : List Document := []
  documentVersions : List DocumentVersion := []
  documentVersionFetches : List DocumentVersionFetch := []
  documentChunks : List DocumentChunk := []
  evidenceCandidates : List EvidenceCandidate := []
  verifiedEvidence : List VerifiedEvidence := []
  answerClaims : List AnswerClaim := []
  citations : List Citation := []
deriving DecidableEq, Repr

end Sana.Orchestration
