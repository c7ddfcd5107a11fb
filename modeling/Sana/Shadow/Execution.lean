import Sana.Shadow.Runner
import Sana.Orchestration.Conversation

/-!
# Submitting a unit to the candidate API

`CampaignExecutionService.execute` creates a conversation and submits the case's
prompt to it. Before each request an attempt is recorded under the lease, and each
answer is bound to the result only if the candidate's own tables bear it out. The
client retries a request that may not have arrived; what is left of its errors
is whether the request may have committed.
-/

namespace Sana.Shadow

open Sana.Lib

/-! ## `SqlShadowExecutionRepository` -/

/-- `_assert_active_reservation`. -/
def RunResult.assertActiveReservation (r : RunResult) : Except Exn Unit :=
  check (r.reservationState = .active)
    (.invariant "Candidate API calls require an active budget reservation" "reservation_not_active")

/-- `_assert_outbound_allowed`: a stopping campaign may only repeat what was sent before. -/
def assertOutboundAllowed (c : Campaign) (r : RunResult) (priorAttemptCount : Nat) :
    Except Exn Unit := do
  check (c.status = .running || (c.status = .stopping && 0 < priorAttemptCount))
    (.invariant "Campaign is not accepting a new candidate API attempt" "campaign_not_running")
  r.assertActiveReservation

/-- `prepare_conversation_attempt`. -/
def prepareConversationAttempt (db : Db) (now : Time) (lease : RunLease) :
    Except Exn (RunLease × Db) := do
  let (c, r) ← db.lockedRecords lease.campaignId lease.id
  r.assertActiveLease lease now
  r.assertActiveReservation
  assertOutboundAllowed c r r.conversationAttemptCount
  check (r.schedulingState = .claimed && r.conversationId.isNone && r.searchRunId.isNone)
    (.invariant "Conversation creation is not valid in the current Result state"
      "conversation_attempt_state_invalid")
  let r := { r with
    conversationAttemptCount := r.conversationAttemptCount + 1, version := r.version + 1 }
  let db ← (db.toTables.putResult r).commit
  let lease ← lease.acceptAttemptFence r.version
  return ({ lease with conversationAttemptCount := lease.conversationAttemptCount + 1 }, db)

/-- `campaign_conversation_title`. -/
def campaignConversationTitle (caseId : String) (repetition : Nat) : String :=
  "Shadow evaluation " ++ caseId ++ " repetition " ++ toString repetition

/-- The conversation is the one this unit asked for. -/
def isAuthoritativeConversation (ports : Orchestration.Ports) (app : Orchestration.Tables)
    (c : Campaign) (r : RunResult) (conversationId : Uuid) : Bool :=
  let title := campaignConversationTitle r.caseId r.repetition
  app.conversations.any fun row => row.id = conversationId && row.userId = c.createdByUserId
    && row.creationIdempotencyKey = some r.conversationIdempotencyKey && row.title = title
    && row.creationRequestHash = some (ports.sha256 (Text.strip title))

/-- `bind_conversation`. -/
def bindConversation (ports : Orchestration.Ports) (db : Db) (app : Orchestration.Tables)
    (now : Time) (lease : RunLease) (conversationId : Uuid) : Except Exn (RunLease × Db) := do
  let (c, r) ← db.lockedRecords lease.campaignId lease.id
  r.assertActiveLease lease now
  r.assertActiveReservation
  if r.conversationId.isSome then
    check (r.conversationId = some conversationId && r.schedulingState = .conversationBound)
      (.invariant "A Result cannot replace its bound Conversation" "conversation_binding_conflict")
    return (lease, db)
  check (r.schedulingState = .claimed)
    (.invariant "Conversation binding is not valid in the current Result state"
      "conversation_binding_state_invalid")
  check (isAuthoritativeConversation ports app c r conversationId)
    (.invariant "Candidate Conversation receipt is not authoritative"
      "candidate_conversation_mismatch")
  check (!db.results.any fun o => o.conversationId = some conversationId && o.id ≠ lease.id)
    (.invariant "Candidate Conversation is already bound to another Result"
      "conversation_already_bound")
  let r := { r with
    conversationId := some conversationId, schedulingState := .conversationBound
    version := r.version + 1 }
  let db ← (db.toTables.putResult r).commit
  let lease ← lease.acceptConversationFence r.version conversationId
  return (lease, db)

/-- `prepare_submission_attempt`. -/
def prepareSubmissionAttempt (db : Db) (now : Time) (lease : RunLease) :
    Except Exn (RunLease × Db) := do
  let (c, r) ← db.lockedRecords lease.campaignId lease.id
  r.assertActiveLease lease now
  assertOutboundAllowed c r r.submissionAttemptCount
  check (r.schedulingState = .conversationBound && r.conversationId.isSome && r.searchRunId.isNone)
    (.invariant "Message submission is not valid in the current Result state"
      "submission_attempt_state_invalid")
  let r := { r with
    submissionAttemptCount := r.submissionAttemptCount + 1, version := r.version + 1 }
  let db ← (db.toTables.putResult r).commit
  let lease ← lease.acceptAttemptFence r.version
  return ({ lease with submissionAttemptCount := lease.submissionAttemptCount + 1 }, db)

/-- `CandidateSubmissionReceipt`. -/
structure CandidateSubmissionReceipt where
  messageId : Uuid
  responseRunId : Uuid
  searchRunId : Uuid
deriving DecidableEq, Repr

/-- `_assert_authoritative_receipt`: the run is the one this unit's message started. -/
def assertAuthoritativeReceipt (ports : Orchestration.Ports) (app : Orchestration.Tables)
    (c : Campaign) (r : RunResult) (receipt : CandidateSubmissionReceipt) : Except Exn Unit := do
  let found := (lookup (·.id) receipt.searchRunId app.runs).bind fun run =>
    (lookup (·.id) run.messageId app.messages).map fun message => (run, message)
  let some (run, message) := found
    | .error (.invariant "Candidate SearchRun receipt is not authoritative"
        "candidate_search_run_not_found")
  check (run.messageId = receipt.messageId && run.responseRunId = receipt.responseRunId
      && some run.conversationId = r.conversationId
      && some message.conversationId = r.conversationId
      && message.authorUserId = some c.createdByUserId
      && message.idempotencyKey = some r.messageIdempotencyKey)
    (.invariant "Candidate SearchRun receipt does not match the Result binding"
      "candidate_receipt_mismatch")
  let hash ← Orchestration.normalizedContentSha256 ports message.content
  check (hash = r.submissionRequestHash)
    (.invariant "Candidate Message content does not match the materialized request"
      "submission_payload_mismatch")

/-- `bind_submission`. -/
def bindSubmission (ports : Orchestration.Ports) (db : Db) (app : Orchestration.Tables)
    (now : Time) (lease : RunLease) (receipt : CandidateSubmissionReceipt) : Except Exn Db := do
  let (c, r) ← db.lockedRecords lease.campaignId lease.id
  if r.searchRunId.isSome then
    check (r.searchRunId = some receipt.searchRunId && r.schedulingState = .submitted)
      (.invariant "A Result cannot replace its bound SearchRun" "search_run_binding_conflict")
    assertAuthoritativeReceipt ports app c r receipt
    return db
  r.assertActiveLease lease now
  r.assertActiveReservation
  check (r.schedulingState = .conversationBound && r.conversationId.isSome)
    (.invariant "SearchRun binding is not valid in the current Result state"
      "search_run_binding_state_invalid")
  assertAuthoritativeReceipt ports app c r receipt
  check (!db.results.any fun o => o.searchRunId = some receipt.searchRunId && o.id ≠ lease.id)
    (.invariant "Candidate SearchRun is already bound to another Result"
      "search_run_already_bound")
  check (c.counts.submitted < c.maxRuns)
    (.invariant "Campaign submitted counter cannot exceed max_runs" "campaign_ledger_mismatch")
  let r := { r with
    searchRunId := some receipt.searchRunId, schedulingState := .submitted
    leaseOwner := none, leaseExpiresAt := none, version := r.version + 1 }
  let c := { c with
    counts := { c.counts with submitted := c.counts.submitted + 1 }, version := c.version + 1 }
  (db.toTables.put c r).commit

/-! ## Requests -/

/-- What the client puts on the wire. -/
inductive Request
  | conversation (title key : String)
  | message (conversationId : Uuid) (content key : String)
deriving DecidableEq, Repr

/-- `create_conversation` of the client, up to the request. -/
def conversationRequest (title key : String) : Except Exn Request := do
  let title := Text.strip title
  let key := Text.strip key
  check (title ≠ "" && key ≠ "")
    (.valueError "Conversation title and idempotency key are required")
  return .conversation title key

/-- `submit_message` of the client, up to the request. -/
def messageRequest (conversationId : Uuid) (content key : String) : Except Exn Request := do
  let content := Text.strip content
  let key := Text.strip key
  check (content ≠ "" && key ≠ "")
    (.valueError "Message content and idempotency key are required")
  return .message conversationId content key

/--
The next request `execute` makes under a lease: a lease without a conversation asks
for one, a lease with one submits the prompt to it.
-/
def RunLease.nextRequest (ports : Orchestration.Ports) (lease : RunLease) (prompt : String) :
    Except Exn Request := do
  check (lease.reservationState = .active)
    (.invariant "Candidate submission requires an active budget reservation"
      "reservation_not_active")
  let hash ← Orchestration.normalizedContentSha256 ports prompt
  check (hash = lease.submissionRequestHash)
    (.invariant "Manifest prompt does not match the materialized request hash"
      "submission_payload_mismatch")
  match lease.conversationId with
  | none =>
      conversationRequest (campaignConversationTitle lease.caseId lease.repetition)
        lease.conversationIdempotencyKey
  | some conversationId =>
      messageRequest conversationId (Text.strip prompt) lease.messageIdempotencyKey

/-- What the candidate API answers a request with. -/
inductive Reply
  | conversation (id : Uuid)
  | message (receipt : CandidateSubmissionReceipt)
deriving DecidableEq, Repr

/-- The candidate API serves a request of an authenticated user; it routes a message itself. -/
def answer (ports : Orchestration.Ports) (policy : Orchestration.SearchPolicy)
    (env : Orchestration.Env) (routing : Orchestration.RoutingDecision) (app : Orchestration.Db)
    (userId : Uuid) : Request → Except Exn (Reply × Orchestration.Db)
  | .conversation title key => do
      let (view, app) ← Orchestration.createConversation ports env app userId title (some key)
      return (.conversation view.id, app)
  | .message conversationId content key => do
      let (receipt, app) ← Orchestration.submitMessage ports policy env app
        ⟨userId, conversationId, content, key, routing⟩
      return (.message ⟨receipt.messageId, receipt.responseRunId, receipt.searchRunId⟩, app)

/-! ## The client -/

/-- `ShadowAPIError`. -/
structure ShadowApiError where
  code : String
  retryable : Bool
  requestMayHaveCommitted : Bool
deriving DecidableEq, Repr

/-- How one HTTP exchange ended: no response, or a status with a readable body or without. -/
inductive HttpOutcome (α : Type)
  | transport
  | status (code : Nat) (body : Option α)

/-- `_TRANSIENT_STATUS`. -/
def transientStatus : List Nat := [408, 425, 429, 500, 502, 503, 504]

/-- `_invalid_response`. -/
def invalidResponse : ShadowApiError := ⟨"invalid_response", false, false⟩

/-- The error of a status that is neither transient nor a success. -/
def rejected (status : Nat) : ShadowApiError :=
  ⟨if status = 401 ∨ status = 403 then "authentication_rejected"
    else if status = 409 then "idempotency_conflict" else "request_rejected", false, false⟩

/--
`_request` for a POST: exchange after exchange, until one is final or the retries
are used up. A client that hears nothing more has given up with its last error.
-/
def request {α : Type} (retries : Nat) : List (HttpOutcome α) → Except ShadowApiError α
  | [] => .error ⟨"transport_exhausted", true, true⟩
  | outcome :: rest =>
      match outcome with
      | .transport =>
          match retries with
          | 0 => .error ⟨"transport_exhausted", true, true⟩
          | n + 1 => request n rest
      | .status code body =>
          if code ∈ transientStatus then
            match retries with
            | 0 => .error ⟨"transient_exhausted", true, true⟩
            | n + 1 => request n rest
          else if code < 200 ∨ 300 ≤ code then .error (rejected code)
          else match body with
            | some value => .ok value
            | none => .error invalidResponse

/-! ## What the runner makes of a failure -/

/-- The failure `_submit` reports for an error of the client. -/
def apiFailure (error : ShadowApiError) : RunnerFailure where
  errorClass := if error.retryable then .providerTransient else .permanentConfiguration
  errorCode := error.code
  failedPhase := "candidate_api"
  possiblyBilled := error.requestMayHaveCommitted

/-- The failure `_submit` reports for an invariant violation, wherever it was raised. -/
def invariantFailure : RunnerFailure where
  errorClass := .permanentConfiguration
  errorCode := "runner_invariant_violation"
  failedPhase := "candidate_binding"
  possiblyBilled := false

/-- The failure `_submit` reports for a case the manifest does not have. -/
def manifestFailure : RunnerFailure where
  errorClass := .permanentConfiguration
  errorCode := "manifest_case_missing"
  failedPhase := "manifest_lookup"
  possiblyBilled := false

/-- The failure `_submit` reports for a reservation that was denied. -/
def admissionFailure : RunnerFailure where
  errorClass := .permanentConfiguration
  errorCode := "budget_admission_denied"
  failedPhase := "budget_admission"
  possiblyBilled := false

end Sana.Shadow
