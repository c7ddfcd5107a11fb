import Sana.Orchestration.Store
import Sana.Orchestration.Completion

/-!
# Conversations and message submission

The API side of the workflow: a conversation is created, a message is submitted
to it, and submission creates the response run, the search run and its first
step in one transaction. Both operations are idempotent in a key the client
chooses; a repeated key returns what the first call created.
-/

namespace Sana.Orchestration

open Sana.Lib

section Api

variable (ports : Ports) (policy : SearchPolicy) (env : Env)

/-- What a client is told about a conversation. -/
structure ConversationView where
  id : Uuid
  title : String
deriving DecidableEq, Repr

/-- `idempotency_key.strip() if idempotency_key else None`, with its length check. -/
def normalizeKey (key : Option String) : Except Exn (Option String) :=
  match key with
  | none => .ok none
  | some k =>
      if k = "" then .ok none
      else do
        let n := Text.strip k
        check (1 ≤ n.length && n.length ≤ 200)
          (.valueError "Idempotency-Key must contain between 1 and 200 characters")
        return some n

/-- The conversation a user created under a key. -/
def conversationUnderKey (t : Tables) (userId : Uuid) (key : String) : Option Conversation :=
  t.conversations.find? fun c => c.userId = userId && c.creationIdempotencyKey = some key

/-- `DatabaseConversationCatalogService.create`. -/
def createConversation (db : Db) (userId : Uuid) (title : String) (key : Option String) :
    Except Exn (ConversationView × Db) := do
  let stripped := Text.strip title
  let normalizedTitle := if stripped = "" then "新会话" else stripped
  let normalizedKey ← normalizeKey key
  let requestHash := normalizedKey.map fun _ => ports.sha256 normalizedTitle
  let (conversationId, u) := (Uow.begin db).newUuid env
  match normalizedKey.bind (conversationUnderKey db.toTables userId) with
  | some conversation =>
      -- the insert did nothing: the key is taken, and it must be for the same title
      check (conversation.creationRequestHash = requestHash)
        (.invariant "Idempotency-Key was already used for a different title"
          "idempotency_conflict")
      return ({ id := conversation.id, title := conversation.title }, db)
  | none =>
      let row : Conversation := {
        id := conversationId, userId, title := normalizedTitle
        creationIdempotencyKey := normalizedKey, creationRequestHash := requestHash
        createdAt := env.now, updatedAt := env.now }
      let t := { u.tables with conversations := u.tables.conversations ++ [row] }
      let db ← ({ u with tables := t } : Uow).commit env
      return ({ id := conversationId, title := normalizedTitle }, db)

/-- `SubmitMessageCommand`. -/
structure SubmitMessageCommand where
  userId : Uuid
  conversationId : Uuid
  content : String
  idempotencyKey : String
  routing : RoutingDecision
deriving DecidableEq, Repr

/-- `SubmissionReceipt`. -/
structure SubmissionReceipt where
  messageId : Uuid
  responseRunId : Uuid
  searchRunId : Uuid
  status : RunStatus
  duplicate : Bool
  requestHash : String
deriving DecidableEq, Repr

/-- `normalized_content_sha256`. -/
def normalizedContentSha256 (content : String) : Except Exn String := do
  let normalized := Text.strip content
  check (normalized ≠ "") (.valueError "Message content cannot be empty")
  return ports.sha256 normalized

/-- The rows the join of `find_submission` yields. -/
def submissionRows (t : Tables) (conversationId : Uuid) (key : String) :
    List (Message × ResponseRun × SearchRun) :=
  (t.messages.filter fun m => m.conversationId = conversationId && m.idempotencyKey = some key).flatMap
    fun m => (t.responseRuns.filter (·.messageId = m.id)).flatMap
      fun r => (t.runs.filter (·.responseRunId = r.id)).map fun s => (m, r, s)

/-- `SqlConversationRepository.find_submission`. -/
def findSubmission (t : Tables) (conversationId : Uuid) (key : String) :
    Except Exn (Option SubmissionReceipt) :=
  match submissionRows t conversationId key with
  | [] => .ok none
  | [(m, r, s)] => do
      let requestHash ← normalizedContentSha256 ports m.content
      return some {
        messageId := m.id, responseRunId := r.id, searchRunId := s.id, status := s.status
        duplicate := false, requestHash }
  | _ => .error (.runtimeError "Multiple rows were found when one or none was required")

/-- The rows one accepted submission creates. -/
structure SubmissionRows where
  message : Message
  responseRun : ResponseRun
  run : SearchRun
  route : SearchStep
  outbox : OutboxMessage
  event : RunEvent

/-- The rows of a new submission, under the next six identifiers. -/
def newSubmission (command : SubmitMessageCommand) (content key requestHash : String)
    (budget : BudgetSnapshot) : SubmissionRows :=
  let at' := env.hookNow
  let messageId := env.ids 0
  let responseRunId := env.ids 1
  let runId := env.ids 2
  let stepId := env.ids 3
  { message := {
      id := messageId, conversationId := command.conversationId
      authorUserId := some command.userId, role := .user, content
      idempotencyKey := some key, createdAt := at' }
    responseRun := {
      id := responseRunId, conversationId := command.conversationId, messageId
      status := .queued, outputMessageId := none, createdAt := at', updatedAt := at' }
    run := {
      id := runId, conversationId := command.conversationId, messageId, responseRunId
      routing := command.routing, budget }
    route := {
      id := stepId, runId, stepKey := "route", stepType := .route, planRevision := 1
      input := .artifact ⟨"db://messages/" ++ messageId.str, requestHash⟩ }
    outbox := {
      id := env.ids 4, aggregateType := "search_step", aggregateId := stepId
      eventType := if command.routing.mode = .fast then "STEP_READY_FAST"
        else "STEP_READY_RESEARCH"
      dedupeKey := "step-ready:" ++ stepId.str, availableAt := at', createdAt := at' }
    event := {
      id := env.ids 5, runId, sequence := 1, eventType := "RUN_QUEUED"
      payload := [("mode", .text command.routing.mode.value)], createdAt := at' } }

/-- Add the rows of a submission and commit. -/
def commitSubmission (db : Db) (rows : SubmissionRows) : Except Exn Db :=
  let t := { db.toTables with
    messages := db.messages ++ [rows.message]
    responseRuns := db.responseRuns ++ [rows.responseRun]
    runs := db.runs ++ [rows.run] }
  ({ tables := t, newSteps := [rows.route], newOutbox := [rows.outbox]
     newEvents := [rows.event], drawn := 6 } : Uow).commit env

/-- `ConversationService.submit_message`. -/
def submitMessage (db : Db) (command : SubmitMessageCommand) :
    Except Exn (SubmissionReceipt × Db) := do
  -- the command's own constructor
  check (!Text.isBlank command.content) (.valueError "Message content cannot be empty")
  let key := Text.strip command.idempotencyKey
  check (1 ≤ key.length && key.length ≤ 200)
    (.valueError "Idempotency-Key must contain between 1 and 200 characters")
  check (command.routing.policyVersion = policy.version)
    (.invariant "Routing decision uses a different search policy version"
      "policy_version_mismatch")
  let content := Text.strip command.content
  let requestHash ← normalizedContentSha256 ports content
  check (db.conversations.any fun c => c.id = command.conversationId && c.userId = command.userId)
    (.invariant "Conversation does not belong to the authenticated user" "conversation_not_found")
  match ← findSubmission ports db.toTables command.conversationId key with
  | some existing =>
      check (existing.requestHash = requestHash)
        (.invariant "Idempotency-Key was already used for different content"
          "idempotency_conflict")
      return ({ existing with duplicate := true, requestHash }, db)
  | none =>
      let budget ← policy.snapshot command.routing.mode env.hookNow
      let rows := newSubmission env command content key requestHash budget
      let db ← commitSubmission env db rows
      return ({
        messageId := rows.message.id, responseRunId := rows.responseRun.id
        searchRunId := rows.run.id, status := .queued, duplicate := false, requestHash }, db)

/-- `DatabaseRunApplicationService.cancel`. -/
def cancelRun (db : Db) (runId : Uuid) : Except Exn (Option SearchRun × Db) := do
  match ← db.getRun runId with
  | none => return (none, db)
  | some run =>
      if run.isTerminal then
        return (some run, db)
      let run ← run.cancel env.now
      let t ← db.saveRun run
      let event : RunEvent := {
        id := env.ids 0, runId, sequence := t.nextSequence runId, eventType := "RUN_CANCELLED"
        payload := [("stop_reason", .text "USER_CANCELLED")], createdAt := env.now }
      let db ← ({ tables := t, newEvents := [event] } : Uow).commit env
      return (some run, db)

end Api

end Sana.Orchestration
