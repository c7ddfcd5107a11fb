import Sana.Lib.Table
import Sana.Shadow.Campaign

/-!
# The campaign tables

One tenant's campaigns and results. A committed `Db` meets the constraints the
schema declares. Every repository operation locks the campaign row before the
result row, so an operation is one atomic transaction; the database clock it
reads is an argument.

A lease is the caller's copy of what it may write under: it carries the version
of the row it was given, and every write moves the version on.
-/

namespace Sana.Shadow

open Sana.Lib

/-! ## Constraints -/

/-- `profile_limits` and `nonnegative_ledger` of `shadow_campaigns`. -/
def Campaign.constraints (c : Campaign) : Bool :=
  0 < c.maxRuns && 1 ≤ c.maxConcurrency && c.maxConcurrency ≤ 2
    && 0 < c.limits.providerCallAdmissionCeiling
    && c.limits.providerCallAdmissionCeiling ≤ c.limits.providerCallStructuralCeiling
    && 0 < c.limits.estimatedCostStopThreshold
    && ([c.counts.planned, c.counts.submitted, c.counts.collected, c.counts.failed,
      c.counts.skipped, c.counts.degraded, c.ledger.possiblyBilledCount].all
        fun n => 0 ≤ n && n ≤ c.maxRuns)
    && ([c.ledger.observedProviderCalls, c.ledger.possiblyBilledCallCharge,
      c.ledger.reservedProviderCalls, c.ledger.observedPromptTokens,
      c.ledger.observedCompletionTokens, c.ledger.observedEstimatedCost,
      c.ledger.possiblyBilledCostCharge, c.ledger.reservedEstimatedCost].all (0 ≤ ·))
    && c.ledger.reservedProviderCalls ≤ c.limits.providerCallStructuralCeiling

namespace RunResult

/-- `state_bindings`. -/
def stateBindings (r : RunResult) : Bool :=
  match r.schedulingState with
  | .pending => r.conversationId.isNone && r.searchRunId.isNone
  | .claimed => r.searchRunId.isNone
  | .conversationBound => r.conversationId.isSome && r.searchRunId.isNone
  | .submitted | .collected => r.conversationId.isSome && r.searchRunId.isSome
  | .failed => true
  | .skipped => r.searchRunId.isNone

/-- `lease_binding` and `collector_lease_binding`. -/
def leaseBindings (r : RunResult) : Bool :=
  (if r.isLeased then r.leaseOwner.isSome && r.leaseExpiresAt.isSome
    else r.leaseOwner.isNone && r.leaseExpiresAt.isNone)
  && ((r.collectorLeaseOwner.isNone && r.collectorLeaseExpiresAt.isNone)
    || (r.schedulingState = .submitted && r.collectorLeaseOwner.isSome
      && r.collectorLeaseExpiresAt.isSome))

/-- `reservation_lifecycle`. -/
def reservationLifecycle (r : RunResult) : Bool :=
  match r.reservationState with
  | .none => r.reservedProviderCalls = 0 && r.reservedEstimatedCost = 0
      && r.reservationReservedAt.isNone && r.budgetSettledAt.isNone
      && r.reservationReleasedAt.isNone
  | .active => 0 < r.reservedProviderCalls && r.reservationReservedAt.isSome
      && r.budgetSettledAt.isNone && r.reservationReleasedAt.isNone
  | .settled => r.reservationReservedAt.isSome && r.budgetSettledAt.isSome
      && r.reservationReleasedAt.isNone && r.sourceTerminalAt.isSome
      && r.sourceSnapshotDigest.isSome
  | .released => r.reservationReservedAt.isSome && r.budgetSettledAt.isNone
      && r.reservationReleasedAt.isSome

/-- The checks of one row of `shadow_run_results`. -/
def constraints (r : RunResult) : Bool :=
  r.stateBindings && r.leaseBindings && r.reservationLifecycle && 0 < r.repetition
    && 0 < r.scheduleOrdinal

end RunResult

/-! ## Tables -/

/-- The rows a transaction works on. -/
structure Tables where
  campaigns : List Campaign := []
  results : List RunResult := []
deriving DecidableEq, Repr

namespace Tables

/-- The constraints the schema declares. -/
structure Valid (t : Tables) : Prop where
  pk_campaigns : (t.campaigns.map (·.id)).Nodup
  pk_results : (t.results.map (·.id)).Nodup
  uq_results_unit : (t.results.map fun r => (r.campaignId, r.caseId, r.repetition)).Nodup
  uq_results_conversation : (t.results.filterMap (·.conversationId)).Nodup
  uq_results_searchRun : (t.results.filterMap (·.searchRunId)).Nodup
  fk_results : ∀ r ∈ t.results, ∃ c ∈ t.campaigns, c.id = r.campaignId
  campaign_checks : ∀ c ∈ t.campaigns, c.constraints = true
  result_checks : ∀ r ∈ t.results, r.constraints = true

instance (t : Tables) : Decidable t.Valid :=
  decidable_of_iff
    ((t.campaigns.map (·.id)).Nodup ∧ (t.results.map (·.id)).Nodup
      ∧ (t.results.map fun r => (r.campaignId, r.caseId, r.repetition)).Nodup
      ∧ (t.results.filterMap (·.conversationId)).Nodup
      ∧ (t.results.filterMap (·.searchRunId)).Nodup
      ∧ (∀ r ∈ t.results, ∃ c ∈ t.campaigns, c.id = r.campaignId)
      ∧ (∀ c ∈ t.campaigns, c.constraints = true) ∧ (∀ r ∈ t.results, r.constraints = true))
    ⟨fun ⟨a, b, c, d, e, f, g, h⟩ => ⟨a, b, c, d, e, f, g, h⟩,
     fun ⟨a, b, c, d, e, f, g, h⟩ => ⟨a, b, c, d, e, f, g, h⟩⟩

/-- The results of one campaign. -/
def resultsOf (t : Tables) (campaignId : Uuid) : List RunResult :=
  t.results.filter (·.campaignId = campaignId)

/-- Write a campaign row back. -/
def putCampaign (t : Tables) (c : Campaign) : Tables :=
  { t with campaigns := update (·.id) c.id (fun _ => c) t.campaigns }

/-- Write a result row back. -/
def putResult (t : Tables) (r : RunResult) : Tables :=
  { t with results := update (·.id) r.id (fun _ => r) t.results }

/-- Write both rows back. -/
def put (t : Tables) (c : Campaign) (r : RunResult) : Tables := (t.putCampaign c).putResult r

/-- The campaign row, locked; `missing` is raised when there is none. -/
def lockedCampaign (t : Tables) (campaignId : Uuid) (missing : Exn) : Except Exn Campaign :=
  match lookup (·.id) campaignId t.campaigns with
  | some c => .ok c
  | none => .error missing

/-- The campaign row and then the result row, locked. Each repository has its own texts. -/
def lockedRows (t : Tables) (campaignId resultId : Uuid) (missing missingResult : Exn) :
    Except Exn (Campaign × RunResult) := do
  let c ← t.lockedCampaign campaignId missing
  match t.results.find? fun r => r.campaignId = campaignId && r.id = resultId with
  | some r => return (c, r)
  | none => .error missingResult

/-- `_locked_budget_records`, and the same lines of the runner's and execution's repositories. -/
def lockedRecords (t : Tables) (campaignId resultId : Uuid) : Except Exn (Campaign × RunResult) :=
  t.lockedRows campaignId resultId
    (.invariant "Shadow campaign does not exist" "campaign_not_found")
    (.invariant "Shadow campaign result does not exist" "campaign_result_not_found")

/-- `_locked_records` of the collector. -/
def lockedCollection (t : Tables) (campaignId resultId : Uuid) : Except Exn (Campaign × RunResult) :=
  t.lockedRows campaignId resultId
    (.invariant "Campaign is missing" "campaign_not_found")
    (.invariant "Campaign Result is missing" "campaign_result_not_found")

end Tables

/-- Committed campaign tables. -/
structure Db extends Tables where
  /-- No constraint is broken. -/
  valid : toTables.Valid

/-- No campaigns. -/
def Db.empty : Db := ⟨{}, by decide⟩

/-- Let the database check its constraints. -/
def Tables.commit (t : Tables) : Except Exn Db :=
  if h : t.Valid then .ok ⟨t, h⟩ else .error (.integrity "constraint")

/-! ## Leases -/

/-- `RunLease`. -/
structure RunLease where
  id : Uuid
  campaignId : Uuid
  caseId : String
  repetition : Nat
  state : SchedulingState
  leaseOwner : String
  leaseExpiresAt : Time
  conversationId : Option Uuid
  searchRunId : Option Uuid
  conversationIdempotencyKey : String
  messageIdempotencyKey : String
  submissionRequestHash : String
  reservationState : ReservationState
  version : Nat
  persistedVersion : Nat
  conversationAttemptCount : Nat
  submissionAttemptCount : Nat
deriving DecidableEq, Repr

/-- A lowercase SHA-256. -/
def isSha256 (s : String) : Bool :=
  s.length = 64 && s.toList.all (· ∈ "0123456789abcdef".toList)

namespace RunLease

/-- The constructor of `RunLease`. -/
def make (l : RunLease) : Except Exn RunLease := do
  check (l.state = .claimed || l.state = .conversationBound)
    (.valueError "A scheduling lease must be CLAIMED or CONVERSATION_BOUND")
  check (!Text.isBlank l.leaseOwner && 1 ≤ l.version)
    (.valueError "A scheduling lease requires an owner and fencing version")
  check (!Text.isBlank l.conversationIdempotencyKey)
    (.valueError "A scheduling lease requires a Conversation key")
  check (!Text.isBlank l.messageIdempotencyKey)
    (.valueError "A scheduling lease requires a Message key")
  check (isSha256 l.submissionRequestHash)
    (.valueError "A scheduling lease requires a lowercase request SHA-256")
  return l

/-- `accept_attempt_fence`. -/
def acceptAttemptFence (l : RunLease) (version : Nat) : Except Exn RunLease := do
  check (l.version < version)
    (.invariant "Execution fencing token must advance" "invariant_violation")
  return { l with version, persistedVersion := version }

/-- `accept_budget_fence`. -/
def acceptBudgetFence (l : RunLease) (version : Nat) (state : ReservationState) :
    Except Exn RunLease := do
  check (l.version < version)
    (.invariant "Budget fencing token must advance" "invariant_violation")
  return { l with version, persistedVersion := version, reservationState := state }

/-- `accept_conversation_fence`. -/
def acceptConversationFence (l : RunLease) (version : Nat) (conversationId : Uuid) :
    Except Exn RunLease := do
  let l ← l.acceptAttemptFence version
  return { l with state := .conversationBound, conversationId := some conversationId }

/-- `renew`. -/
def renew (l : RunLease) (now leaseExpiresAt : Time) : Except Exn RunLease := do
  check (now < l.leaseExpiresAt)
    (.invariant "Expired scheduling leases cannot be renewed" "scheduling_lease_expired")
  check (l.leaseExpiresAt < leaseExpiresAt)
    (.invariant "Scheduling lease renewal must extend the lease" "invariant_violation")
  return { l with leaseExpiresAt, version := l.version + 1 }

end RunLease

/-- `CollectorLease`, without the frozen inputs of the collection. -/
structure CollectorLease where
  id : Uuid
  campaignId : Uuid
  conversationId : Uuid
  searchRunId : Uuid
  leaseOwner : String
  leaseExpiresAt : Time
  persistedVersion : Nat
deriving DecidableEq, Repr

/-- `_assert_active_lease`: the row is still held under this very lease. -/
def RunResult.assertActiveLease (r : RunResult) (l : RunLease) (now : Time) : Except Exn Unit :=
  check (r.isLeased && r.schedulingState = l.state && r.leaseOwner = some l.leaseOwner
      && r.leaseExpiresAt.any (now < ·) && r.version = l.persistedVersion)
    (.invariant "Scheduling lease fencing token is stale" "scheduling_lease_fence_lost")

/-- `_assert_active_lease` of the collector. -/
def RunResult.assertCollectorLease (r : RunResult) (l : CollectorLease) (now : Time) :
    Except Exn Unit :=
  check (r.schedulingState = .submitted && r.collectorLeaseOwner = some l.leaseOwner
      && r.collectorLeaseExpiresAt.any (now < ·) && r.version = l.persistedVersion)
    (.invariant "Collector lease fencing token is stale" "collector_lease_fence_lost")

end Sana.Shadow
