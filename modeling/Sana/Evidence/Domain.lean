import Sana.Lib.Table
import Sana.Planning.Domain

/-!
# Evidence and where it comes from

An evidence candidate quotes a span of a fetched document. `EvidenceBuilder` is
the only way to make one from a document: it refuses a quote that is not in the
chunk at the declared position, or a chunk that is not in the document version.
A candidate becomes evidence when a verifier has recorded its verdict.
-/

namespace Sana.Evidence

open Sana.Lib Sana.Planning

/-- `SupportType`: the direction in which a quote speaks. -/
inductive SupportType
  | supports | contradicts
deriving DecidableEq, Repr

def SupportType.value : SupportType → String
  | .supports => "SUPPORTS"
  | .contradicts => "CONTRADICTS"

/-- `SupportType(text)`. -/
def SupportType.ofValue (s : String) : Except Exn SupportType :=
  if s = "SUPPORTS" then .ok .supports
  else if s = "CONTRADICTS" then .ok .contradicts
  else .error (.valueError "not a valid SupportType")

/-- `SourceAuthority`. -/
inductive SourceAuthority
  | official | independent | unknown
deriving DecidableEq, Repr

def SourceAuthority.value : SourceAuthority → String
  | .official => "OFFICIAL"
  | .independent => "INDEPENDENT"
  | .unknown => "UNKNOWN"

/-- `SourceAuthority(text)`. -/
def SourceAuthority.ofValue (s : String) : Except Exn SourceAuthority :=
  if s = "OFFICIAL" then .ok .official
  else if s = "INDEPENDENT" then .ok .independent
  else if s = "UNKNOWN" then .ok .unknown
  else .error (.valueError "not a valid SourceAuthority")

/-- `EvidenceVerdict`. -/
inductive EvidenceVerdict
  | accepted | rejected
deriving DecidableEq, Repr

def EvidenceVerdict.value : EvidenceVerdict → String
  | .accepted => "ACCEPTED"
  | .rejected => "REJECTED"

/-- `EvidenceVerdict(text)`. -/
def EvidenceVerdict.ofValue (s : String) : Except Exn EvidenceVerdict :=
  if s = "ACCEPTED" then .ok .accepted
  else if s = "REJECTED" then .ok .rejected
  else .error (.valueError "not a valid EvidenceVerdict")

/-- `EvidenceLevel`. -/
inductive EvidenceLevel
  | l0Discovery | l1Grounded | l2Verified
deriving DecidableEq, Repr

/-! ## Documents -/

/-- `DocumentVersion`. -/
structure DocumentVersion where
  id : Uuid
  tenantId : Uuid
  documentId : Uuid
  text : String
deriving DecidableEq, Repr

/-- `DocumentChunk`, with the check of its constructor. -/
structure DocumentChunk where
  text : String
  startOffset : Nat
  endOffset : Nat
  offsets : startOffset < endOffset
deriving DecidableEq, Repr

/-! ## Sources -/

namespace Url

/-- The part of a list after the last occurrence of `c`; all of it where there is none. -/
def afterLast (c : Char) (l : List Char) : List Char := (l.reverse.takeWhile (· ≠ c)).reverse

/-- `urlsplit(url).hostname` of a network location. -/
def hostOf (netloc : List Char) : List Char :=
  let info := afterLast '@' netloc
  match info.dropWhile (· ≠ '[') with
  | _ :: bracketed => bracketed.takeWhile (· ≠ ']')
  | [] => info.takeWhile (· ≠ ':')

/-- A code point `urlsplit` drops: leading controls and blanks, and line breaks anywhere. -/
def clean (url : String) : List Char :=
  (url.toList.dropWhile (·.toNat ≤ 32)).filter (· ∉ ['\t', '\r', '\n'])

/-- The URL has an HTTP(S) scheme and names a host. -/
def isHttp (url : String) : Bool :=
  let l := clean url
  let scheme := (l.takeWhile (· ≠ ':')).map Char.toLower
  let rest := l.dropWhile (· ≠ ':')
  (scheme = "http".toList || scheme = "https".toList)
    && [':', '/', '/'].isPrefixOf rest
    && !(hostOf ((rest.drop 3).takeWhile (· ∉ ['/', '?', '#']))).isEmpty

end Url

/-- `EvidenceSource`. -/
structure EvidenceSource where
  documentId : Uuid
  documentVersionId : Uuid
  documentChunkId : Uuid
  url : String
  sourceIdentity : String
  authority : SourceAuthority
deriving DecidableEq, Repr

/-- The constructor of `EvidenceSource`, which normalises the identity. -/
def EvidenceSource.make (b : Builtins) (documentId documentVersionId documentChunkId : Uuid)
    (url sourceIdentity : String) (authority : SourceAuthority) : Except Exn EvidenceSource := do
  check (Url.isHttp url) (.valueError "Evidence source requires an HTTP(S) URL")
  check (!Text.isBlank sourceIdentity) (.valueError "Evidence source identity cannot be empty")
  return { documentId, documentVersionId, documentChunkId, url, authority
           sourceIdentity := b.lower (Text.strip sourceIdentity) }

/-! ## Candidates and verdicts -/

/-- `EvidenceCandidate`: a quote, and the span of the document it was taken from. -/
structure EvidenceCandidate where
  id : Uuid
  tenantId : Uuid
  runId : Uuid
  factRequirementId : Uuid
  source : EvidenceSource
  quote : String
  quoteHash : String
  supportType : SupportType
  candidateScore : Rat
  startOffset : Nat
  endOffset : Nat
deriving DecidableEq, Repr

/-- The constructor of `EvidenceCandidate`. -/
def EvidenceCandidate.make (b : Builtins) (c : EvidenceCandidate) :
    Except Exn EvidenceCandidate := do
  check (!c.quote.isEmpty) (.valueError "Evidence quote cannot be empty")
  check (c.quoteHash = b.sha256 c.quote) (.valueError "Evidence quote hash does not match quote")
  check (c.startOffset < c.endOffset) (.valueError "Evidence quote offsets are invalid")
  check (c.endOffset - c.startOffset = c.quote.length)
    (.valueError "Evidence quote offsets do not match quote length")
  check (0 ≤ c.candidateScore && c.candidateScore ≤ 1)
    (.valueError "Evidence candidate score must be between zero and one")
  return c

/-- `VerifiedEvidence`. -/
structure VerifiedEvidence where
  id : Uuid
  candidate : EvidenceCandidate
  verdict : EvidenceVerdict
  confidence : Rat
  reasonCodes : List String
  verifierVersion : String
  verifiedAt : Time
deriving DecidableEq, Repr

namespace VerifiedEvidence

/-- The constructor of `VerifiedEvidence`. -/
def make (e : VerifiedEvidence) : Except Exn VerifiedEvidence := do
  check (0 ≤ e.confidence && e.confidence ≤ 1)
    (.valueError "Evidence confidence must be between zero and one")
  check (!Text.isBlank e.verifierVersion) (.valueError "Evidence verifier version cannot be empty")
  return e

def tenantId (e : VerifiedEvidence) : Uuid := e.candidate.tenantId

def runId (e : VerifiedEvidence) : Uuid := e.candidate.runId

def factRequirementId (e : VerifiedEvidence) : Uuid := e.candidate.factRequirementId

def source (e : VerifiedEvidence) : EvidenceSource := e.candidate.source

def supportType (e : VerifiedEvidence) : SupportType := e.candidate.supportType

end VerifiedEvidence

/-! ## `EvidenceBuilder` -/

/-- What `build` is told about the quote and its document. -/
structure BuildRequest where
  tenantId : Uuid
  runId : Uuid
  factRequirementId : Uuid
  version : DocumentVersion
  chunkId : Uuid
  chunk : DocumentChunk
  documentId : Uuid
  sourceUrl : String
  sourceIdentity : String
  supportType : SupportType
  quote : String
  quoteStartInChunk : Nat
  candidateScore : Rat
  authority : SourceAuthority

/-- `EvidenceBuilder.build`. -/
def build (b : Builtins) (newId : Uuid) (r : BuildRequest) : Except Exn EvidenceCandidate := do
  check (r.version.tenantId = r.tenantId)
    (.valueError "Evidence tenant does not match document version")
  check (r.version.documentId = r.documentId)
    (.valueError "Evidence document does not match document version")
  check (Text.slice r.version.text r.chunk.startOffset r.chunk.endOffset = r.chunk.text)
    (.valueError "Document chunk is not an exact span of the version")
  let relativeEnd := r.quoteStartInChunk + r.quote.length
  check (Text.slice r.chunk.text r.quoteStartInChunk relativeEnd = r.quote)
    (.valueError "Evidence quote is not at the declared chunk offset")
  let startOffset := r.chunk.startOffset + r.quoteStartInChunk
  let endOffset := startOffset + r.quote.length
  check (Text.slice r.version.text startOffset endOffset = r.quote)
    (.valueError "Evidence quote is not present in the document version")
  let source ← EvidenceSource.make b r.documentId r.version.id r.chunkId r.sourceUrl
    r.sourceIdentity r.authority
  EvidenceCandidate.make b {
    id := newId, tenantId := r.tenantId, runId := r.runId
    factRequirementId := r.factRequirementId, source, quote := r.quote
    quoteHash := b.sha256 r.quote, supportType := r.supportType
    candidateScore := r.candidateScore, startOffset, endOffset }

/-- `EvidenceVerifier.record`. -/
def record (newId : Uuid) (candidate : EvidenceCandidate) (verdict : EvidenceVerdict)
    (confidence : Rat) (reasonCodes : List String) (verifierVersion : String)
    (verifiedAt : Time) : Except Exn VerifiedEvidence :=
  VerifiedEvidence.make {
    id := newId, candidate, verdict, confidence
    reasonCodes := distinctBy id reasonCodes, verifierVersion, verifiedAt }

end Sana.Evidence
