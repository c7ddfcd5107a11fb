import Sana.Lib.Method
import Sana.Shadow.System

/-!
# The lifecycle object

`CampaignLifecycle` is an object: its methods check, raise, and change fields one
after the other. It is loaded from the campaign row with `rehydrate`, which validates
it, and written back with `save_lifecycle`, which writes its own columns and no others.
Times are aware by their type, and enumerations need no conversion.
-/

namespace Sana.Shadow

open Sana.Lib

/-- `CampaignLifecycle`. -/
structure CampaignLifecycle where
  id : Uuid
  createdByUserId : Uuid
  maxRuns : Nat
  plannedCount : Int
  status : CampaignStatus := .created
  gateStatus : GateStatus := .pending
  stopIntent : StopIntent := .none
  stopReason : Option String := none
  startedAt : Option Time := none
  reviewDeadlineAt : Option Time := none
  completedAt : Option Time := none
  version : Nat := 0
  persistedVersion : Nat := 0
deriving DecidableEq, Repr

namespace CampaignLifecycle

/-- `is_terminal`. -/
def isTerminal (l : CampaignLifecycle) : Bool := l.status = .completed || l.status = .aborted

/-- `_validate_loaded_state`. -/
def validateLoadedState (l : CampaignLifecycle) : Except Exn Unit := do
  check (1 ≤ l.maxRuns && 0 ≤ l.plannedCount && l.plannedCount ≤ l.maxRuns)
    (.invariant "Campaign planning counters are invalid" "invariant_violation")
  check (l.status ≠ .created || (l.startedAt.isNone && l.completedAt.isNone))
    (.invariant "Persisted CREATED campaign has run timestamps" "invariant_violation")
  check (l.status = .created || l.status = .aborted || l.startedAt.isSome)
    (.invariant "Persisted active campaign has no started_at" "invariant_violation")
  check (l.status ≠ .stopping ||
      (l.stopIntent ≠ .none && !Text.isBlank (l.stopReason.getD "")))
    (.invariant "Persisted STOPPING campaign has no stop intent" "invariant_violation")
  check (l.status ≠ .awaitingReview || l.reviewDeadlineAt.isSome)
    (.invariant "Persisted review campaign has no deadline" "invariant_violation")
  check (l.isTerminal = l.completedAt.isSome)
    (.invariant "Persisted campaign terminal timestamp is inconsistent" "invariant_violation")
  check (l.status ≠ .completed || l.gateStatus ≠ .pending)
    (.invariant "Persisted completed campaign has no gate decision" "invariant_violation")
  check (l.startedAt.all fun s => l.completedAt.all fun e => s ≤ e)
    (.invariant "Persisted campaign timestamps move backwards" "invariant_violation")

/-- `mark_persisted`. -/
def markPersisted (l : CampaignLifecycle) : CampaignLifecycle :=
  { l with persistedVersion := l.version }

/-! ## Methods -/

/-- `_require_not_before_start`. -/
def requireNotBeforeStart (at' : Time) (field : String) : Method Exn CampaignLifecycle Unit := do
  let l ← get
  .require (l.startedAt.all (· ≤ at') = true)
    (.invariant (field ++ " cannot precede campaign start") "invariant_violation")

/-- `_transition`. -/
def transition (target : CampaignStatus) : Method Exn CampaignLifecycle Unit := do
  let l ← get
  .require (target ∈ l.status.targets)
    (.invariant ("Illegal campaign transition: " ++ l.status.value ++ " -> " ++ target.value)
      "illegal_state_transition")
  modify fun l => { l with status := target, version := l.version + 1 }

/-- `start`. -/
def start (at' : Time) : Method Exn CampaignLifecycle Unit := do
  requireNotBeforeStart at' "started_at"
  let l ← get
  .require (l.plannedCount = l.maxRuns)
    (.invariant "Campaign cannot start before every planned run is materialized"
      "campaign_not_materialized")
  transition .running
  modify fun l => { l with
    startedAt := some (l.startedAt.getD at'), stopIntent := .none, stopReason := none }

/-- `resume`. -/
def resume (at' : Time) : Method Exn CampaignLifecycle Unit := do
  requireNotBeforeStart at' "resumed_at"
  transition .running
  modify fun l => { l with stopIntent := .none, stopReason := none, reviewDeadlineAt := none }

/-- `request_stop`. -/
def requestStop (intent : StopIntent) (reason : String) : Method Exn CampaignLifecycle Unit := do
  .require (intent ≠ .none)
    (.invariant "Stopping a campaign requires a stop intent" "invariant_violation")
  .require (Text.isBlank reason = false)
    (.invariant "Stopping a campaign requires a reason" "invariant_violation")
  transition .stopping
  modify fun l => { l with stopIntent := intent, stopReason := some (Text.strip reason) }

/-- `escalate_stop`. -/
def escalateStop (intent : StopIntent) (reason : String) : Method Exn CampaignLifecycle Unit := do
  let l ← get
  .require (l.status = .stopping)
    (.invariant "Only a STOPPING campaign can escalate its stop intent" "campaign_not_stopping")
  .require (l.stopIntent = .pause ∧ intent ≠ .none ∧ intent ≠ .pause)
    (.invariant "Campaign stop intent cannot be downgraded or replaced"
      "stop_intent_escalation_invalid")
  .require (Text.isBlank reason = false)
    (.invariant "Stop escalation requires a reason" "invariant_violation")
  modify fun l => { l with
    stopIntent := intent, stopReason := some (Text.strip reason), version := l.version + 1 }

/-- `settle_stop`. -/
def settleStop (at' : Time) : Method Exn CampaignLifecycle Unit := do
  requireNotBeforeStart at' "stop settled_at"
  let l ← get
  let target := if l.stopIntent = .pause then CampaignStatus.paused else .aborted
  transition target
  modify fun l => if target = .aborted then { l with completedAt := some at' } else l

/-- `await_review`. -/
def awaitReview (at' deadline : Time) : Method Exn CampaignLifecycle Unit := do
  requireNotBeforeStart at' "awaiting_review_at"
  .require (at' < deadline)
    (.invariant "Review deadline must be after review start" "invariant_violation")
  transition .awaitingReview
  modify fun l => { l with reviewDeadlineAt := some deadline }

/-- `complete`. -/
def complete (decision : GateStatus) (at' : Time) : Method Exn CampaignLifecycle Unit := do
  requireNotBeforeStart at' "completed_at"
  .require (decision ≠ .pending)
    (.invariant "Campaign completion requires a final gate decision" "invariant_violation")
  transition .completed
  modify fun l => { l with gateStatus := decision, completedAt := some at' }

/-- `abort`. -/
def abort (reason : String) (at' : Time) : Method Exn CampaignLifecycle Unit := do
  requireNotBeforeStart at' "completed_at"
  .require (Text.isBlank reason = false)
    (.invariant "Campaign abort requires a reason" "invariant_violation")
  transition .aborted
  modify fun l => { l with
    stopIntent := .abort, stopReason := some (Text.strip reason), completedAt := some at' }

end CampaignLifecycle

/-- The method a mutation calls. -/
def Mutation.method : Mutation → Method Exn CampaignLifecycle Unit
  | .start now => CampaignLifecycle.start now
  | .resume now => CampaignLifecycle.resume now
  | .requestStop intent reason => CampaignLifecycle.requestStop intent reason
  | .escalateStop intent reason => CampaignLifecycle.escalateStop intent reason
  | .settleStop now => CampaignLifecycle.settleStop now
  | .awaitReview now deadline => CampaignLifecycle.awaitReview now deadline
  | .complete decision now => CampaignLifecycle.complete decision now
  | .abort reason now => CampaignLifecycle.abort reason now

/-! ## The row -/

/-- What `_lifecycle` reads of a campaign row. -/
def Campaign.lifecycle (c : Campaign) : CampaignLifecycle where
  id := c.id
  createdByUserId := c.createdByUserId
  maxRuns := c.maxRuns
  plannedCount := c.counts.planned
  status := c.status
  gateStatus := c.gateStatus
  stopIntent := c.stopIntent
  stopReason := c.stopReason
  startedAt := c.startedAt
  reviewDeadlineAt := c.reviewDeadlineAt
  completedAt := c.completedAt
  version := c.version
  persistedVersion := c.version

/-- `rehydrate`. -/
def Campaign.rehydrate (c : Campaign) : Except Exn CampaignLifecycle := do
  c.lifecycle.validateLoadedState
  return c.lifecycle

/-- The columns `save_lifecycle` writes. -/
def CampaignLifecycle.writeTo (l : CampaignLifecycle) (c : Campaign) : Campaign :=
  { c with
    status := l.status, gateStatus := l.gateStatus, stopIntent := l.stopIntent
    stopReason := l.stopReason, startedAt := l.startedAt
    reviewDeadlineAt := l.reviewDeadlineAt, completedAt := l.completedAt, version := l.version }

/-- `save_lifecycle`, on the row of the campaign. -/
def CampaignLifecycle.save (l : CampaignLifecycle) (c : Campaign) : Except Exn Campaign := do
  check (c.id = l.id && c.version = l.persistedVersion)
    (.invariant "Shadow campaign was modified concurrently" "optimistic_lock_failed")
  return l.writeTo c

end Sana.Shadow
