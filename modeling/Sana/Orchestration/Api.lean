import Sana.Orchestration.Stream
import Sana.Orchestration.Lineage

/-!
# Reading and cancelling a run

The calls a client makes about one run: `DatabaseRunApplicationService` and
`DatabaseRunEventService`. Each opens a unit of work for the tenant of the principal
and finds the run by its identifier. A call that only reads is taken at one moment; of
a subscription that is what it delivers from the database before it first waits.
-/

namespace Sana.Orchestration

open Sana.Lib

/-- `Principal`, within its tenant. -/
structure Principal where
  userId : Uuid
deriving DecidableEq, Repr

/-! ## Views -/

/-- `RunView`, without the router's confidence. -/
structure RunView where
  id : Uuid
  conversationId : Uuid
  messageId : Uuid
  mode : SearchMode
  routingReasonCodes : List String
  policyVersion : String
  status : RunStatus
  answerQuality : AnswerQuality
  stopReason : Option StopReason
  softDeadlineAt : Time
  hardDeadlineAt : Time
  createdAt : Time
  startedAt : Option Time
  completedAt : Option Time
deriving DecidableEq, Repr

/-- `_run_view`. -/
def runView (run : SearchRun) : RunView where
  id := run.id
  conversationId := run.conversationId
  messageId := run.messageId
  mode := run.mode
  routingReasonCodes := run.routing.reasonCodes
  policyVersion := run.routing.policyVersion
  status := run.status
  answerQuality := run.answerQuality
  stopReason := run.stopReason
  softDeadlineAt := run.budget.softDeadlineAt
  hardDeadlineAt := run.budget.hardDeadlineAt
  createdAt := run.budget.createdAt
  startedAt := run.startedAt
  completedAt := run.completedAt

/-- `EvidenceView`. -/
structure EvidenceView where
  factKey : String
  verdict : String
  confidence : Rat
  quote : String
  sourceUrl : String
deriving DecidableEq, Repr

/-- `MissingFactView`. -/
structure MissingFactView where
  factKey : String
  description : String
  status : String
deriving DecidableEq, Repr

/-- `EvidenceReportView`. -/
structure EvidenceReportView where
  evidence : List EvidenceView
  missingFacts : List MissingFactView
deriving DecidableEq, Repr

/-- The row of the evidence query that a verified row joins to. -/
def Lineage.evidenceRow (l : Lineage) (v : VerifiedEvidence) : Option EvidenceView := do
  let candidate ← lookup (·.id) v.candidateId l.evidenceCandidates
  let fact ← lookup (·.id) candidate.factRequirementId l.factRequirements
  let version ← lookup (·.id) candidate.documentVersionId l.documentVersions
  let document ← lookup (·.id) version.documentId l.documents
  return ⟨fact.factKey, v.verdict, v.confidence, candidate.quote, document.canonicalUrl⟩

/-- The two queries of `evidence`. -/
def Lineage.evidenceReport (l : Lineage) (runId : Uuid) : EvidenceReportView where
  evidence := ((l.verifiedEvidence.filter (·.runId = runId)).filterMap l.evidenceRow).insertionSort
    fun a b => a.factKey < b.factKey ∨ (a.factKey = b.factKey ∧ b.confidence ≤ a.confidence)
  missingFacts := ((l.factRequirements.filter fun f => f.runId = runId && f.required
      && !(f.status = "COVERED" || f.status = "VERIFIED")).insertionSort
    fun a b => a.factKey ≤ b.factKey).map fun f => ⟨f.factKey, f.description, f.status⟩

/-! ## Calls -/

/-- What the calls read and write. -/
structure ApiState where
  db : Db
  lineage : Lineage
  redis : RedisEventStream

/-- A call about a run. -/
inductive RunCall
  | get
  /-- Redis may be out of reach when the event of the cancellation is published. -/
  | cancel (env : Env) (redisUp : Bool)
  | evidence
  | subscribe (afterSequence : Nat)

/-- What a call returns. -/
inductive RunReply
  | run (view : Option RunView)
  | evidence (report : Option EvidenceReportView)
  | events (delivered : List EventView) (ended : Bool)
deriving DecidableEq, Repr

/-- `DatabaseRunApplicationService.get`. -/
def getRunView (s : ApiState) (_principal : Principal) (runId : Uuid) :
    Except Exn (RunReply × ApiState) := do
  let run ← s.db.getRun runId
  return (.run (run.map runView), s)

/-- `DatabaseRunApplicationService.cancel`; the event it added is published once it is committed. -/
def cancelRunView (s : ApiState) (_principal : Principal) (runId : Uuid) (env : Env)
    (redisUp : Bool) : Except Exn (RunReply × ApiState) := do
  let (run, db) ← cancelRun env s.db runId
  let redis := match db.events.find? (· ∉ s.db.events) with
    | some event => if redisUp then s.redis.publish runId (.ofEvent event) else s.redis
    | none => s.redis
  return (.run (run.map runView), { s with db, redis })

/-- `DatabaseRunApplicationService.evidence`. -/
def evidenceReport (s : ApiState) (_principal : Principal) (runId : Uuid) :
    Except Exn (RunReply × ApiState) := do
  match ← s.db.getRun runId with
  | none => return (.evidence none, s)
  | some _ => return (.evidence (some (s.lineage.evidenceReport runId)), s)

/-- `DatabaseRunEventService.subscribe`, up to where it waits for Redis or returns. -/
def subscribeRun (s : ApiState) (_principal : Principal) (runId : Uuid) (afterSequence : Nat) :
    Except Exn (RunReply × ApiState) := do
  let run ← s.db.getRun runId
  let sub := (Subscription.start runId afterSequence).readRun run
  let sub := match sub.phase with
    | .events terminal => sub.readEvents terminal (databaseEvents s.db.toTables runId sub.cursor)
    | _ => sub
  return (.events sub.yielded (sub.phase = .ended), s)

/-- A call of a principal about a run. -/
def RunCall.run (s : ApiState) (principal : Principal) (runId : Uuid) :
    RunCall → Except Exn (RunReply × ApiState)
  | .get => getRunView s principal runId
  | .cancel env redisUp => cancelRunView s principal runId env redisUp
  | .evidence => evidenceReport s principal runId
  | .subscribe afterSequence => subscribeRun s principal runId afterSequence

end Sana.Orchestration
