import Sana.Shadow.Store

/-!
# Scheduling and the budget

`SqlShadowCampaignRepository`. A worker claims a result and gets a lease on it;
under the lease it reserves budget, or gives it back before anything was sent. A
settlement turns the reservation into what the run was observed to cost, and stops
a running campaign whose limits are exceeded.
-/

namespace Sana.Shadow

open Sana.Lib

/-! ## Materialization -/

/-- A case of the manifest, in the order it is scheduled, and which of its runs get reviewed. -/
structure PlannedCase where
  caseId : String
  submissionRequestHash : String
  reviewed : List Nat := []

/-- `f"shadow-conversation:{campaign_id}:{case.id}:{repetition}"`. -/
def conversationKey (campaignId : Uuid) (caseId : String) (repetition : Nat) : String :=
  "shadow-conversation:" ++ campaignId.str ++ ":" ++ caseId ++ ":" ++ toString repetition

/-- `f"shadow:{campaign_id}:{case.id}:{repetition}"`. -/
def messageKey (campaignId : Uuid) (caseId : String) (repetition : Nat) : String :=
  "shadow:" ++ campaignId.str ++ ":" ++ caseId ++ ":" ++ toString repetition

/-- `f"shadow-run-result:{case.id}:{repetition}"`, the name a result's identifier is derived from. -/
def resultName (caseId : String) (repetition : Nat) : String :=
  "shadow-run-result:" ++ caseId ++ ":" ++ toString repetition

/-- `materialize_run_plans`: repetition by repetition, the cases in their order. -/
def materializeRunPlans (uuid5 : Uuid → String → Uuid) (campaignId : Uuid)
    (cases : List PlannedCase) (repetitions : Nat) : List RunResult :=
  ((List.range repetitions).flatMap fun i => cases.map fun c => (i + 1, c)).zipIdx.map
    fun x => {
      id := uuid5 campaignId (resultName x.1.2.caseId x.1.1), campaignId
      caseId := x.1.2.caseId, repetition := x.1.1, scheduleOrdinal := x.2 + 1
      manualReviewSelected := decide (x.1.1 ∈ x.1.2.reviewed)
      conversationIdempotencyKey := conversationKey campaignId x.1.2.caseId x.1.1
      messageIdempotencyKey := messageKey campaignId x.1.2.caseId x.1.1
      submissionRequestHash := x.1.2.submissionRequestHash }

/-- `add`: a new campaign has spent nothing. -/
def addCampaign (db : Db) (c : Campaign) : Except Exn Db :=
  ({ db.toTables with campaigns := db.campaigns ++ [{ c with
      status := .created, gateStatus := .pending, stopIntent := .none, stopReason := none
      counts := {}, ledger := {}, startedAt := none, reviewDeadlineAt := none
      completedAt := none, finalReport := none, reviews := [], version := 0 }] } : Tables).commit

/-- `CampaignSchedulingService.materialize`, with `materialize_results`. -/
def materialize (uuid5 : Uuid → String → Uuid) (db : Db) (userId campaignId : Uuid)
    (cases : List PlannedCase) (repetitions : Nat) : Except Exn Db := do
  let some c := lookup (·.id) campaignId db.campaigns | return db
  if c.createdByUserId ≠ userId then
    return db
  let resultCount := (db.resultsOf campaignId).length
  if c.counts.planned = c.maxRuns ∧ resultCount = c.maxRuns then
    return db
  check (c.status = .created)
    (.invariant "Campaign run plan can only be created before start" "campaign_already_started")
  check (c.counts.planned = 0 && resultCount = 0)
    (.invariant "Campaign has a partial or corrupt run plan" "materialization_state_corrupt")
  let plans := materializeRunPlans uuid5 campaignId cases repetitions
  check (cases.length * repetitions = c.maxRuns)
    (.invariant "Manifest selection does not match campaign max_runs" "manifest_profile_mismatch")
  let c := { c with
    counts := { c.counts with planned := plans.length }, version := c.version + 1 }
  ({ db.toTables.putCampaign c with results := db.results ++ plans } : Tables).commit

/-! ## Lifecycle -/

/-- `_owned_mutation`; without an owner, `_system_mutation`. -/
def mutateLifecycle (db : Db) (owner : Option Uuid) (campaignId : Uuid)
    (mutate : Campaign → Except Exn Campaign) : Except Exn Db := do
  let some c := lookup (·.id) campaignId db.campaigns | return db
  if owner.any (· ≠ c.createdByUserId) then
    return db
  c.validateLoadedState
  let c' ← mutate c
  (db.toTables.putCampaign c').commit

/-! ## Leases -/

/-- The result counts against the concurrency of its campaign. -/
def RunResult.isActiveUnit (r : RunResult) (now : Time) : Bool :=
  (r.schedulingState = .submitted && r.reservationState = .active)
    || (r.isLeased && r.leaseExpiresAt.any (now < ·))

/-- The result can be claimed; a stopping campaign drains only what was sent already. -/
def RunResult.isClaimable (r : RunResult) (status : CampaignStatus) (now : Time) : Bool :=
  let expired := r.isLeased && r.leaseExpiresAt.any (· ≤ now)
  if status = .stopping then
    expired && (0 < r.conversationAttemptCount || 0 < r.submissionAttemptCount)
  else r.schedulingState = .pending || expired

/-- The first row in schedule order. -/
def firstScheduled (rows : List RunResult) : Option RunResult :=
  rows.foldl (fun best r => match best with
    | none => some r
    | some b => if r.scheduleOrdinal < b.scheduleOrdinal then some r else some b) none

/-- The lease on a result row that was just claimed. -/
def RunResult.lease (r : RunResult) (workerId : String) (leaseExpiresAt : Time) : RunLease where
  id := r.id
  campaignId := r.campaignId
  caseId := r.caseId
  repetition := r.repetition
  state := r.schedulingState
  leaseOwner := workerId
  leaseExpiresAt := leaseExpiresAt
  conversationId := r.conversationId
  searchRunId := r.searchRunId
  conversationIdempotencyKey := r.conversationIdempotencyKey
  messageIdempotencyKey := r.messageIdempotencyKey
  submissionRequestHash := r.submissionRequestHash
  reservationState := r.reservationState
  version := r.version
  persistedVersion := r.version
  conversationAttemptCount := r.conversationAttemptCount
  submissionAttemptCount := r.submissionAttemptCount

/-- `claim_next_result`. Rows that another transaction has locked are skipped. -/
def claimNextResult (db : Db) (now : Time) (campaignId : Uuid) (workerId : String)
    (leaseDuration : Duration) (locked : List Uuid) : Except Exn (Option RunLease × Db) := do
  let some c := lookup (·.id) campaignId db.campaigns | return (none, db)
  if c.status ≠ .running ∧ c.status ≠ .stopping then
    return (none, db)
  let rows := db.resultsOf campaignId
  if c.maxConcurrency ≤ rows.countP (·.isActiveUnit now) then
    return (none, db)
  match firstScheduled (rows.filter fun r => r.isClaimable c.status now && r.id ∉ locked) with
  | none => return (none, db)
  | some r =>
      let r := { r with
        schedulingState := if r.conversationId.isSome then .conversationBound else .claimed
        leaseOwner := some workerId, leaseExpiresAt := some (now + leaseDuration)
        version := r.version + 1 }
      let db ← (db.toTables.putResult r).commit
      let lease ← (r.lease workerId (now + leaseDuration)).make
      return (some lease, db)

/-- `renew_result_lease`. -/
def renewResultLease (db : Db) (now : Time) (lease : RunLease) (leaseDuration : Duration) :
    Except Exn (RunLease × Db) := do
  let lease' ← lease.renew now (max now lease.leaseExpiresAt + leaseDuration)
  match db.results.find? fun r => r.campaignId = lease.campaignId && r.id = lease.id with
  | none => .error (.invariant "Scheduling lease fencing token is stale"
      "scheduling_lease_fence_lost")
  | some r =>
      check (r.isLeased && r.leaseOwner = some lease.leaseOwner
          && r.version = lease.persistedVersion && r.leaseExpiresAt.any (now < ·))
        (.invariant "Scheduling lease fencing token is stale" "scheduling_lease_fence_lost")
      let r := { r with leaseExpiresAt := some lease'.leaseExpiresAt, version := lease'.version }
      let db ← (db.toTables.putResult r).commit
      return ({ lease' with persistedVersion := lease'.version }, db)

/-! ## Reservations -/

/-- A reservation with at least one call. -/
def ReservationRequest.make (calls cost : Nat) : Except Exn ReservationRequest :=
  if h : 1 ≤ calls then .ok ⟨calls, cost, h⟩
  else .error (.valueError "A run reservation must include provider calls")

/-- `_reservation_request`: an equal share of the calls, and the reserve of the cost rate. -/
def Campaign.reservationRequest (c : Campaign) : Except Exn ReservationRequest := do
  let ceiling := c.limits.providerCallStructuralCeiling
  check (ceiling % c.maxRuns = 0 && 1 ≤ ceiling / c.maxRuns)
    (.invariant "Campaign structural call envelope is corrupt" "campaign_budget_snapshot_invalid")
  let cost := c.costRate.runReservationUsd.getD c.costRate.possiblyBilledRunReserveUsd
  match nonnegativeDecimal "estimated_cost" cost with
  | .ok cost => ReservationRequest.make (ceiling / c.maxRuns).toNat cost
  | .error _ => .error (.invariant "Campaign cost-rate snapshot has an invalid run reserve"
      "campaign_budget_snapshot_invalid")

/-- `BudgetReservationReceipt`. -/
inductive BudgetReservationReceipt
  | reserved (request : ReservationRequest)
  | deferred
  | denied (intent : StopIntent) (reason : String)
deriving DecidableEq, Repr

/-- The campaign and the result after an admitted reservation. -/
def reserved (now : Time) (request : ReservationRequest) (c : Campaign) (r : RunResult) :
    Campaign × RunResult :=
  ({ c with
      ledger := { c.ledger with
        reservedProviderCalls := c.ledger.reservedProviderCalls + request.providerCalls
        reservedEstimatedCost := c.ledger.reservedEstimatedCost + request.estimatedCost }
      version := c.version + 1 },
   { r with
      reservedProviderCalls := request.providerCalls
      reservedEstimatedCost := request.estimatedCost
      reservationState := .active, reservationReservedAt := some now, version := r.version + 1 })

/-- The campaign and the result after a refused one. -/
def refused (intent : StopIntent) (reason : String) (c : Campaign) (r : RunResult) :
    Campaign × RunResult :=
  ({ c with
      status := .stopping, stopIntent := intent
      stopReason := some ("Budget admission denied: " ++ reason), version := c.version + 1 },
   { r with budgetViolation := true, version := r.version + 1 })

/-- `reserve_run_budget`. -/
def reserveRunBudget (db : Db) (now : Time) (lease : RunLease) :
    Except Exn (BudgetReservationReceipt × RunLease × Db) := do
  let (c, r) ← db.lockedRecords lease.campaignId lease.id
  r.assertActiveLease lease now
  if c.status ≠ .running then
    let intent := if c.stopIntent = .none then .fatal else c.stopIntent
    return (.denied intent (c.stopReason.getD "campaign_not_running"), lease, db)
  check (r.reservationState ≠ .active)
    (.invariant "An active reservation must be reconciled before retrying the run"
      "active_reservation_recovery_required")
  check (r.reservationState = .none)
    (.invariant "A terminal reservation cannot be reserved again" "reservation_already_terminal")
  let request ← c.reservationRequest
  match c.limits.admitRequest c.ledger request with
  | .denied intent reason =>
      if c.limits.admitAfterActiveReservationsSettle c.ledger request = .allowed
          ∧ (c.ledger.reservedProviderCalls ≠ 0 ∨ c.ledger.reservedEstimatedCost ≠ 0) then
        -- another run holds the capacity and will give it back or use it
        return (.deferred, lease, db)
      let (c, r) := refused intent reason c r
      let db ← (db.toTables.put c r).commit
      let lease ← lease.acceptBudgetFence r.version .none
      return (.denied intent reason, lease, db)
  | .allowed =>
      let (c, r) := reserved now request c r
      let db ← (db.toTables.put c r).commit
      let lease ← lease.acceptBudgetFence r.version .active
      return (.reserved request, lease, db)

/-! ## Settlement -/

/-- The digest a settlement is filed under. -/
def sourceDigest (digest : String) : Except Exn String := do
  let digest := Text.strip digest
  check (isSha256 digest) (.valueError "source_snapshot_digest must be a lowercase SHA-256")
  return digest

/-- `_settlement_matches`. -/
def RunResult.settlementMatches (r : RunResult) (digest : String) (usage : SettlementUsage) : Bool :=
  r.sourceSnapshotDigest = some digest
    && r.settledObservedProviderCalls = usage.observedProviderCalls
    && r.promptTokens = usage.promptTokens && r.completionTokens = usage.completionTokens
    && r.settledObservedCost = usage.observedEstimatedCost
    && r.possiblyBilledCallCharge = usage.possiblyBilledCallCharge
    && r.possiblyBilledCostCharge = usage.possiblyBilledCostCharge

/-- The ledger after the reservation of a result is replaced by what was used. -/
def Ledger.settle (l : Ledger) (r : RunResult) (usage : SettlementUsage) : Ledger where
  reservedProviderCalls := l.reservedProviderCalls - r.reservedProviderCalls
  reservedEstimatedCost := l.reservedEstimatedCost - r.reservedEstimatedCost
  observedProviderCalls := l.observedProviderCalls + usage.observedProviderCalls
  observedPromptTokens := l.observedPromptTokens + usage.promptTokens
  observedCompletionTokens := l.observedCompletionTokens + usage.completionTokens
  observedEstimatedCost := l.observedEstimatedCost + usage.observedEstimatedCost
  possiblyBilledCallCharge := l.possiblyBilledCallCharge + usage.possiblyBilledCallCharge
  possiblyBilledCostCharge := l.possiblyBilledCostCharge + usage.possiblyBilledCostCharge
  possiblyBilledCount := l.possiblyBilledCount +
    if usage.possiblyBilledCallCharge ≠ 0 ∨ usage.possiblyBilledCostCharge ≠ 0 then 1 else 0

/-- A breach stops a campaign that is running, and only that. -/
def Campaign.stopOnBreach (c : Campaign) (reservation : ReservationRequest)
    (usage : SettlementUsage) : Campaign :=
  match c.limits.breach c.ledger reservation usage with
  | some (intent, reason) =>
      if c.status = .running then
        { c with status := .stopping, stopIntent := intent, stopReason := some reason }
      else c
  | none => c

/-- The campaign and the result after a settlement. -/
def settled (now : Time) (digest : String) (reservation : ReservationRequest)
    (usage : SettlementUsage) (c : Campaign) (r : RunResult) : Campaign × RunResult :=
  ({ ({ c with ledger := c.ledger.settle r usage } : Campaign).stopOnBreach reservation usage with
      version := c.version + 1 },
   { r with
      reservationState := .settled
      settledObservedProviderCalls := usage.observedProviderCalls
      promptTokens := usage.promptTokens, completionTokens := usage.completionTokens
      settledObservedCost := usage.observedEstimatedCost
      estimatedCost := usage.observedEstimatedCost
      possiblyBilledCallCharge := usage.possiblyBilledCallCharge
      possiblyBilledCostCharge := usage.possiblyBilledCostCharge
      budgetSettledAt := some now, sourceSnapshotDigest := some digest
      budgetViolation := usage.exceeds reservation, version := r.version + 1 })

/-- `settle_run_budget` on the locked rows. -/
def settleRows (now : Time) (digest : String) (usage : SettlementUsage) (c : Campaign)
    (r : RunResult) : Except Exn (Campaign × RunResult) := do
  if r.reservationState = .settled then
    check (r.settlementMatches digest usage)
      (.invariant "A result budget was already settled from different source data"
        "settlement_conflict")
    return (c, r)
  check (r.reservationState = .active)
    (.invariant "Only active reservations can be settled" "reservation_not_active")
  check ((r.schedulingState = .submitted || r.schedulingState = .collected
      || r.schedulingState = .failed) && r.sourceTerminalAt.isSome)
    (.invariant "Budget settlement requires a terminal source snapshot" "source_not_terminal")
  check (r.sourceSnapshotDigest.all (· = digest))
    (.invariant "The terminal source snapshot changed before settlement" "settlement_conflict")
  let reservation ← ReservationRequest.make r.reservedProviderCalls r.reservedEstimatedCost
  check ((reservation.providerCalls : Int) ≤ c.ledger.reservedProviderCalls
      && (reservation.estimatedCost : Int) ≤ c.ledger.reservedEstimatedCost)
    (.invariant "Campaign reservation ledgers are inconsistent" "reservation_ledger_underflow")
  return settled now digest reservation usage c r

/-- `BudgetSettlementReceipt`. -/
structure BudgetSettlementReceipt where
  resultId : Uuid
  duplicate : Bool
  budgetViolation : Bool
deriving DecidableEq, Repr

/-- `settle_run_budget`. -/
def settleRunBudget (db : Db) (now : Time) (campaignId resultId : Uuid) (digest : String)
    (usage : SettlementUsage) : Except Exn (BudgetSettlementReceipt × Db) := do
  let digest ← sourceDigest digest
  let (c, r) ← db.lockedRecords campaignId resultId
  let (c', r') ← settleRows now digest usage c r
  let db ← (db.toTables.put c' r').commit
  return (⟨r.id, r.reservationState = .settled, r'.budgetViolation⟩, db)

/-- `release_run_budget`. -/
def releaseRunBudget (db : Db) (now : Time) (lease : RunLease) : Except Exn (RunLease × Db) := do
  let (c, r) ← db.lockedRecords lease.campaignId lease.id
  r.assertActiveLease lease now
  if r.reservationState = .released then
    return (lease, db)
  check (r.reservationState = .active)
    (.invariant "Only active reservations can be released" "reservation_not_active")
  check (r.submissionAttemptCount = 0 && r.sourceTerminalAt.isNone && r.sourceSnapshotDigest.isNone)
    (.invariant "A reservation cannot be released after submission begins"
      "reservation_release_too_late")
  check ((r.reservedProviderCalls : Int) ≤ c.ledger.reservedProviderCalls
      && (r.reservedEstimatedCost : Int) ≤ c.ledger.reservedEstimatedCost)
    (.invariant "Campaign reservation ledgers are inconsistent" "reservation_ledger_underflow")
  let c := { c with
    ledger := { c.ledger with
      reservedProviderCalls := c.ledger.reservedProviderCalls - r.reservedProviderCalls
      reservedEstimatedCost := c.ledger.reservedEstimatedCost - r.reservedEstimatedCost }
    version := c.version + 1 }
  let r := { r with
    reservationState := .released, reservationReleasedAt := some now, version := r.version + 1 }
  let db ← (db.toTables.put c r).commit
  let lease ← lease.acceptBudgetFence r.version .released
  return (lease, db)

end Sana.Shadow
