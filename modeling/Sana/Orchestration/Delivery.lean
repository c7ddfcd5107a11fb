import Sana.Orchestration.Execution

/-!
# Getting steps to workers

Two mechanisms hand a READY step to a worker. The outbox row that was written with
the step is published to the broker by the dispatcher, and marked in the same
transaction that selected it; a crash after the send leaves it unpublished, and it
is sent again. What the broker loses is found by the reconciler, which looks for
live steps of open runs that have no unpublished row: READY ones that were not
touched for a grace period, retries that are due and leases that have run out.
-/

namespace Sana.Orchestration

open Sana.Lib

/-- `SearchQueue`. -/
inductive SearchQueue
  | fast | research | crawl | maintenance
deriving DecidableEq, Repr

/-! ## The outbox -/

/-- `OutboxDispatcher._queue`. -/
def queueOf (eventType : String) : Except Exn SearchQueue :=
  if eventType = "STEP_READY_FAST" then .ok .fast
  else if eventType = "STEP_READY_RESEARCH" then .ok .research
  else if eventType = "STEP_READY_CRAWL" then .ok .crawl
  else if eventType = "STEP_READY_MAINTENANCE" then .ok .maintenance
  else .error (.valueError ("Unsupported outbox event: " ++ eventType))

/-- The condition of `claim_unpublished`. -/
def OutboxMessage.isDue (now : Time) (o : OutboxMessage) : Bool :=
  o.publishedAt.isNone && decide (o.availableAt ≤ now)

/-- `SqlOutboxRepository.claim_unpublished`: the oldest rows that are due and not locked. -/
def claimUnpublished (t : Tables) (now : Time) (locked : Uuid → Bool) (limit : Nat) :
    List OutboxMessage :=
  (((t.outbox.filter (·.isDue now)).insertionSort fun a b => a.createdAt ≤ b.createdAt).filter
    fun o => !locked o.id).take limit

/-- `mark_published`. -/
def markPublished (env : Env) (db : Db) (messageId : Uuid) (publishedAt : Time) :
    Except Exn Db :=
  let t := { db.toTables with
    outbox := update (·.id) messageId (fun o => if o.publishedAt.isNone then
      { o with publishedAt := some publishedAt, publishAttempts := o.publishAttempts + 1,
               lastError := none } else o) db.outbox }
  ({ tables := t } : Uow).commit env

/-- `mark_failed`. -/
def markFailed (env : Env) (db : Db) (messageId : Uuid) (error : String) : Except Exn Db :=
  let t := { db.toTables with
    outbox := update (·.id) messageId (fun o => if o.publishedAt.isNone then
      { o with publishAttempts := o.publishAttempts + 1
               lastError := some (String.ofList (error.toList.take 2000)) } else o) db.outbox }
  ({ tables := t } : Uow).commit env

/-! ## The scan -/

/-- `has_unpublished_outbox`. -/
def hasUnpublishedOutbox (t : Tables) (stepId : Uuid) : Bool :=
  t.outbox.any fun o => o.aggregateId = stepId && o.publishedAt.isNone

/-- What `candidates` asks of a step beyond its run and its outbox. -/
def isOverdue (t : Tables) (grace : Duration) (now : Time) (s : SearchStep) : Bool :=
  match s.status with
  | .ready => decide (s.updatedAt ≤ now - grace)
  | .retryWait => s.retryAt.any (· ≤ now)
  | .running => (currentLease t s.id).any (· ≤ now)
  | _ => false

/-- The condition of `TenantReconciliationScanner.candidates` on a step and its run. -/
def isCandidate (t : Tables) (grace : Duration) (now : Time) (s : SearchStep) (r : SearchRun) :
    Bool :=
  r.id = s.runId && (r.status = .queued || r.status = .running || r.status = .waiting)
    && !hasUnpublishedOutbox t s.id && isOverdue t grace now s

/-- `(updated_at, id)`, the order `candidates` asks for. -/
def scannedBefore (a b : SearchStep) : Prop :=
  a.updatedAt < b.updatedAt ∨ (a.updatedAt = b.updatedAt ∧ a.id.le b.id = true)

instance : DecidableRel scannedBefore := fun _ _ => inferInstanceAs (Decidable (_ ∨ _))

/-- What the scan reports of a step. -/
def candidateOf (t : Tables) (s : SearchStep) : ReconcileCandidate where
  stepId := s.id
  status := s.status
  retryAt := s.retryAt
  leasedUntil := currentLease t s.id

/-- `TenantReconciliationScanner.candidates`. -/
def candidates (t : Tables) (grace : Duration) (now : Time) (limit : Nat) :
    List ReconcileCandidate :=
  (((t.steps.filter fun s => t.runs.any (isCandidate t grace now s)).insertionSort
    scannedBefore).take limit).map (candidateOf t)

/-! ## The policy -/

/-- `ReconcileAction`. -/
inductive ReconcileAction
  | dispatchReady | releaseRetry | releaseExpiredLease
deriving DecidableEq, Repr

/-- `WorkflowReconciler.decide`. -/
def decideAction (candidate : ReconcileCandidate) (now : Time) : Option ReconcileAction :=
  if candidate.status = .ready then some .dispatchReady
  else if candidate.status = .retryWait && candidate.retryAt.any (· ≤ now) then
    some .releaseRetry
  else if candidate.status = .running && candidate.leasedUntil.any (· ≤ now) then
    some .releaseExpiredLease
  else none

/-- `TenantReconciliationScanner.mark_dispatched`: a new grace period. -/
def markDispatched (env : Env) (db : Db) (candidate : ReconcileCandidate) (now : Time) :
    Except Exn Db :=
  let t := { db.toTables with
    steps := update (·.id) candidate.stepId
      (fun s => if s.status = .ready then { s with updatedAt := now } else s) db.steps }
  ({ tables := t } : Uow).commit env

/-- A transaction of the dispatcher or the reconciler that only records a delivery. -/
inductive DeliveryOp
  | published (messageId : Uuid) (publishedAt : Time)
  | failed (messageId : Uuid) (error : String)
  | dispatched (candidate : ReconcileCandidate) (now : Time)
deriving DecidableEq, Repr

/-- Perform such a transaction. -/
def DeliveryOp.run (env : Env) (db : Db) : DeliveryOp → Except Exn Db
  | .published messageId publishedAt => markPublished env db messageId publishedAt
  | .failed messageId error => markFailed env db messageId error
  | .dispatched candidate now => markDispatched env db candidate now

end Sana.Orchestration
