import Sana.Evidence.Coverage

/-!
# Claims, citations and the final gate

A model or a fallback proposes claims. `ClaimSynthesizer` keeps the evidence the
coverage of the fact allows; `CitationValidator` is the last gate: it looks every
evidence identifier up again, drops what is not accepted evidence of the claim's
own fact, recomputes the support from what is left and writes the citations.
-/

namespace Sana.Answer

open Sana.Lib Sana.Evidence

/-- `ClaimKind`. -/
inductive ClaimKind
  | factual | uncertainty | commentary
deriving DecidableEq, Repr

def ClaimKind.value : ClaimKind → String
  | .factual => "FACTUAL"
  | .uncertainty => "UNCERTAINTY"
  | .commentary => "COMMENTARY"

/-- `ClaimSupport`. -/
inductive ClaimSupport
  | unsupported | grounded | verified | conflicted | unconfirmed
deriving DecidableEq, Repr

def ClaimSupport.value : ClaimSupport → String
  | .unsupported => "UNSUPPORTED"
  | .grounded => "GROUNDED"
  | .verified => "VERIFIED"
  | .conflicted => "CONFLICTED"
  | .unconfirmed => "UNCONFIRMED"

/-- `UnsupportedClaimPolicy`. -/
inductive UnsupportedClaimPolicy
  | drop | weaken | markUnconfirmed
deriving DecidableEq, Repr

def UnsupportedClaimPolicy.value : UnsupportedClaimPolicy → String
  | .drop => "DROP"
  | .weaken => "WEAKEN"
  | .markUnconfirmed => "MARK_UNCONFIRMED"

/-- `ProposedClaim`. -/
structure ProposedClaim where
  claimKey : String
  text : String
  factRequirementId : Option Uuid
  evidenceIds : List Uuid := []
  kind : ClaimKind := .factual
deriving DecidableEq, Repr

/-- The constructor of `ProposedClaim`. -/
def ProposedClaim.make (p : ProposedClaim) : Except Exn ProposedClaim := do
  check (!Text.isBlank p.claimKey && !Text.isBlank p.text)
    (.valueError "Proposed claim key and text cannot be empty")
  check (p.kind ≠ .factual || p.factRequirementId.isSome)
    (.valueError "Factual claims require a fact requirement")
  return p

/-- `AnswerClaim`. -/
structure AnswerClaim where
  id : Uuid
  tenantId : Uuid
  runId : Uuid
  claimKey : String
  text : String
  factRequirementId : Option Uuid
  kind : ClaimKind
  support : ClaimSupport
  evidenceIds : List Uuid
deriving DecidableEq, Repr

/-- The constructor of `AnswerClaim`. -/
def AnswerClaim.make (c : AnswerClaim) : Except Exn AnswerClaim := do
  check (!Text.isBlank c.claimKey && !Text.isBlank c.text)
    (.valueError "Answer claim key and text cannot be empty")
  check (c.kind ≠ .factual || c.factRequirementId.isSome)
    (.valueError "Factual claims require a fact requirement")
  check (c.support ∉ [.grounded, .verified, .conflicted] || !c.evidenceIds.isEmpty)
    (.valueError "Supported claims require evidence identifiers")
  return c

/-- `Citation`. -/
structure Citation where
  id : Uuid
  tenantId : Uuid
  runId : Uuid
  answerClaimId : Uuid
  verifiedEvidenceId : Uuid
  documentVersionId : Uuid
  documentChunkId : Uuid
  ordinal : Nat
  label : String
  renderedUrl : String
  quote : String
  startOffset : Nat
  endOffset : Nat
deriving DecidableEq, Repr

/-- The constructor of `Citation`. -/
def Citation.make (c : Citation) : Except Exn Citation := do
  check (1 ≤ c.ordinal && !Text.isBlank c.label && !Text.isBlank c.renderedUrl)
    (.valueError "Citation ordinal, label and URL are required")
  check (!c.quote.isEmpty && c.startOffset < c.endOffset)
    (.valueError "Citation quote offsets are invalid")
  check (c.endOffset - c.startOffset = c.quote.length)
    (.valueError "Citation quote offsets do not match quote")
  return c

/-- `ValidationIssue`. -/
structure ValidationIssue where
  claimKey : String
  code : String
  detail : String
deriving DecidableEq, Repr

/-- `ValidatedAnswer`. -/
structure ValidatedAnswer where
  tenantId : Uuid
  runId : Uuid
  claims : List AnswerClaim
  citations : List Citation
  issues : List ValidationIssue
deriving DecidableEq, Repr

/-- `uuid.NAMESPACE_URL`. -/
def namespaceUrl : Uuid := ⟨0x6ba7b8119dad11d180b400c04fd430c8#128⟩

/-- The `n`-th identifier of `DeterministicIdFactory(seed)`, counted from one. -/
def newUuid (b : Builtins) (seed : String) (n : Nat) : Uuid :=
  b.uuid5 namespaceUrl (seed ++ ":uuid:" ++ toString n)

/-! ## `ClaimSynthesizer` -/

namespace ClaimSynthesizer

/-- `_support`. -/
def support (assessment : Option CoverageAssessment) (evidenceIds : List Uuid)
    (kind : ClaimKind) : ClaimSupport :=
  match assessment with
  | none => .unsupported
  | some a =>
      if kind ≠ .factual ∨ evidenceIds = [] then .unsupported
      else match a.status with
        | .verified => .verified
        | .partially => .conflicted
        | .covered => .grounded
        | .opened => .unsupported

variable (b : Builtins) (tenantId runId : Uuid) (coverage : Uuid → Option CoverageAssessment)

/-- The evidence a proposal may cite: what the coverage of its fact lists. -/
def allowedIds (assessment : Option CoverageAssessment) (proposal : ProposedClaim) : List Uuid :=
  (distinctBy id proposal.evidenceIds).filter fun e =>
    (assessment.map (·.evidenceIds)).getD [] |>.contains e

/-- One claim of the draft. -/
def draftClaim (claimId : Uuid) (proposal : ProposedClaim) : Except Exn AnswerClaim := do
  let assessment := proposal.factRequirementId.bind coverage
  check (assessment.all fun a => a.tenantId = tenantId && a.runId = runId)
    (.valueError "Coverage tenant/run does not match draft answer")
  let evidenceIds := allowedIds assessment proposal
  AnswerClaim.make {
    id := claimId, tenantId, runId, claimKey := proposal.claimKey, text := proposal.text
    factRequirementId := proposal.factRequirementId, kind := proposal.kind
    support := support assessment evidenceIds proposal.kind, evidenceIds }

/-- The loop of `synthesize`; `n` claims were drafted before. -/
def draftClaims (n : Nat) (seen : List String) :
    List ProposedClaim → Except Exn (List AnswerClaim)
  | [] => .ok []
  | proposal :: rest => do
      check (proposal.claimKey ∉ seen) (.valueError "Answer claim keys must be unique")
      let claimId := newUuid b (runId.str ++ ":answer-claims") (n + 1)
      let claim ← draftClaim tenantId runId coverage claimId proposal
      return claim :: (← draftClaims (n + 1) (proposal.claimKey :: seen) rest)

/-- `ClaimSynthesizer.synthesize`. -/
def synthesize (proposals : List ProposedClaim) : Except Exn (List AnswerClaim) :=
  draftClaims b tenantId runId coverage 0 [] proposals

end ClaimSynthesizer

/-! ## `CitationValidator` -/

namespace CitationValidator

variable (b : Builtins) (tenantId runId : Uuid) (evidence : List VerifiedEvidence)

/-- The item the mapping has under an identifier: of equal identifiers the last one counts. -/
def evidenceById (id : Uuid) : Option VerifiedEvidence := lookup (·.id) id evidence.reverse

/-- `_valid_evidence`. -/
def validEvidence (claim : AnswerClaim) : List VerifiedEvidence :=
  (distinctBy id claim.evidenceIds).filterMap fun evidenceId =>
    (evidenceById evidence evidenceId).filter fun e =>
      e.id = evidenceId && e.verdict = .accepted && e.tenantId = claim.tenantId
        && e.runId = claim.runId && some e.factRequirementId = claim.factRequirementId

/-- `_validated_support`. -/
def validatedSupport (valid : List VerifiedEvidence) : ClaimSupport :=
  if valid.any (·.supportType = .supports) && valid.any (·.supportType = .contradicts) then
    .conflicted
  else if isAuthoritative valid then .verified else .grounded

/-- `_handle_unsupported`. -/
def handleUnsupported (policy : UnsupportedClaimPolicy) (claim : AnswerClaim) :
    Option AnswerClaim :=
  match policy with
  | .drop => none
  | .markUnconfirmed => some { claim with
      text := "尚未确认：" ++ claim.text, kind := .uncertainty, support := .unconfirmed
      evidenceIds := [] }
  | .weaken => some { claim with
      text := "现有来源仅提示、尚不能确认：" ++ claim.text, kind := .uncertainty
      support := .unconfirmed, evidenceIds := [] }

/-- The citation of one item; `n` citations were written before this claim's. -/
def citation (n : Nat) (claimId : Uuid) (indexed : VerifiedEvidence × Nat) :
    Except Exn Citation :=
  let e := indexed.1
  Citation.make {
    id := newUuid b (runId.str ++ ":citations") (n + indexed.2 + 1), tenantId, runId
    answerClaimId := claimId, verifiedEvidenceId := e.id
    documentVersionId := e.source.documentVersionId, documentChunkId := e.source.documentChunkId
    ordinal := indexed.2 + 1, label := "[" ++ toString (n + indexed.2 + 1) ++ "]"
    renderedUrl := e.source.url, quote := e.candidate.quote
    startOffset := e.candidate.startOffset, endOffset := e.candidate.endOffset }

/-- What validating one claim yields: the claim that is kept, its citations and the issues. -/
structure Outcome where
  claim : Option AnswerClaim
  citations : List Citation
  issues : List ValidationIssue

/-- One claim of the draft; `n` citations were written before. -/
def validateClaim (policy : UnsupportedClaimPolicy) (n : Nat) (claim : AnswerClaim) :
    Except Exn Outcome := do
  check (claim.tenantId = tenantId && claim.runId = runId)
    (.valueError "Claim tenant/run does not match draft answer")
  if claim.kind ≠ .factual then
    return ⟨some claim, [], []⟩
  let valid := validEvidence evidence claim
  let invalidCount := claim.evidenceIds.length - valid.length
  let dropped : List ValidationIssue := if invalidCount = 0 then [] else
    [⟨claim.claimKey, "invalid_evidence_mapping",
      "Removed " ++ toString invalidCount ++ " invalid evidence mapping(s)"⟩]
  if valid = [] then
    return ⟨handleUnsupported policy claim, [], dropped ++ [⟨claim.claimKey,
      "unsupported_factual_claim", "Applied unsupported claim policy: " ++ policy.value⟩]⟩
  let support := validatedSupport valid
  let recalculated : List ValidationIssue := if support = claim.support then [] else
    [⟨claim.claimKey, "support_recalculated",
      "Support changed from " ++ claim.support.value ++ " to " ++ support.value⟩]
  let validated ← AnswerClaim.make { claim with evidenceIds := valid.map (·.id), support }
  let citations ← valid.zipIdx.mapM (citation b tenantId runId n claim.id)
  return ⟨some validated, citations, dropped ++ recalculated⟩

/-- The loop of `validate`; `n` citations were written before. -/
def validateClaims (policy : UnsupportedClaimPolicy) (n : Nat) :
    List AnswerClaim → Except Exn (List Outcome)
  | [] => .ok []
  | claim :: rest => do
      let o ← validateClaim b tenantId runId evidence policy n claim
      return o :: (← validateClaims policy (n + o.citations.length) rest)

/-- `CitationValidator.validate`. -/
def validate (policy : UnsupportedClaimPolicy) (draft : List AnswerClaim) :
    Except Exn ValidatedAnswer := do
  let outcomes ← validateClaims b tenantId runId evidence policy 0 draft
  return { tenantId, runId, claims := outcomes.filterMap (·.claim)
           citations := outcomes.flatMap (·.citations), issues := outcomes.flatMap (·.issues) }

end CitationValidator

end Sana.Answer
