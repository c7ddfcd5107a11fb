import Mathlib.Algebra.Group.Int.Defs
import Mathlib.Algebra.Group.MinimalAxioms
import Sana.Shared.Basic

/-!
# Shadow campaigns

A campaign runs every case of a manifest a number of times against the service
and watches what that costs. The campaign row keeps counters and a ledger; each
run has a result row with its own reservation. Money is counted in units of
`0.0000000001` USD, the scale of the database's columns: every amount is rounded
to it when it enters.
-/

namespace Sana.Shadow

open Sana.Lib

/-- `CampaignStatus`. -/
inductive CampaignStatus
  | created | running | stopping | paused | awaitingReview | completed | aborted
deriving DecidableEq, Repr

def CampaignStatus.value : CampaignStatus → String
  | .created => "CREATED"
  | .running => "RUNNING"
  | .stopping => "STOPPING"
  | .paused => "PAUSED"
  | .awaitingReview => "AWAITING_REVIEW"
  | .completed => "COMPLETED"
  | .aborted => "ABORTED"

/-- `GateStatus`. -/
inductive GateStatus
  | pending | pass | fail | insufficientSample
deriving DecidableEq, Repr

/-- `StopIntent`. -/
inductive StopIntent
  | none | pause | abort | fatal | budget | callCeiling
deriving DecidableEq, Repr

/-- `SchedulingState`. -/
inductive SchedulingState
  | pending | claimed | conversationBound | submitted | collected | failed | skipped
deriving DecidableEq, Repr

/-- `ReservationState`. -/
inductive ReservationState
  | none | active | settled | released
deriving DecidableEq, Repr

/-- `ErrorClass`. -/
inductive ErrorClass
  | candidateDefect | permanentConfiguration | infrastructure | providerTransient | contentGap
deriving DecidableEq, Repr

/-! ## Money -/

/-- `_MONEY_QUANTUM`: how many units a dollar has. -/
def moneyQuantum : Nat := 10000000000

/-- `_money`: an amount rounded half up to the quantum. -/
def money (value : Rat) : Int := (value * moneyQuantum + 1 / 2).floor

/-- `_nonnegative_decimal`: refuse what is negative, round the rest. -/
def nonnegativeDecimal (field : String) (value : Rat) : Except Exn Nat := do
  check (0 ≤ value) (.valueError (field ++ " must be a finite non-negative Decimal"))
  return (money value).toNat

/-- `CostRate`, as the campaign's snapshot has it. -/
structure CostRate where
  promptPerMillionUsd : Rat
  completionPerMillionUsd : Rat
  possiblyBilledRunReserveUsd : Rat
  runReservationUsd : Option Rat := none
deriving DecidableEq, Repr

/-! ## Counters -/

/-- The counters of a campaign. -/
@[ext]
structure Counts where
  planned : Int := 0
  submitted : Int := 0
  collected : Int := 0
  failed : Int := 0
  skipped : Int := 0
  degraded : Int := 0
deriving DecidableEq, Repr

/-- The budget ledger of a campaign. -/
@[ext]
structure Ledger where
  observedProviderCalls : Int := 0
  possiblyBilledCallCharge : Int := 0
  reservedProviderCalls : Int := 0
  observedPromptTokens : Int := 0
  observedCompletionTokens : Int := 0
  observedEstimatedCost : Int := 0
  possiblyBilledCostCharge : Int := 0
  reservedEstimatedCost : Int := 0
  possiblyBilledCount : Int := 0
deriving DecidableEq, Repr

namespace Counts

instance : Zero Counts := ⟨{}⟩

instance : Add Counts where
  add a b := {
    planned := a.planned + b.planned, submitted := a.submitted + b.submitted
    collected := a.collected + b.collected, failed := a.failed + b.failed
    skipped := a.skipped + b.skipped, degraded := a.degraded + b.degraded }

instance : Neg Counts where
  neg a := {
    planned := -a.planned, submitted := -a.submitted, collected := -a.collected
    failed := -a.failed, skipped := -a.skipped, degraded := -a.degraded }

/-- Counters add up field by field. -/
instance : AddCommGroup Counts :=
  { AddGroup.ofLeftAxioms
      (fun _ _ _ => Counts.ext (add_assoc _ _ _) (add_assoc _ _ _) (add_assoc _ _ _)
        (add_assoc _ _ _) (add_assoc _ _ _) (add_assoc _ _ _))
      (fun _ => Counts.ext (zero_add _) (zero_add _) (zero_add _) (zero_add _) (zero_add _)
        (zero_add _))
      (fun _ => Counts.ext (neg_add_cancel _) (neg_add_cancel _) (neg_add_cancel _)
        (neg_add_cancel _) (neg_add_cancel _) (neg_add_cancel _)) with
    add_comm := fun _ _ => Counts.ext (add_comm _ _) (add_comm _ _) (add_comm _ _) (add_comm _ _)
      (add_comm _ _) (add_comm _ _) }

end Counts

namespace Ledger

instance : Zero Ledger := ⟨{}⟩

instance : Add Ledger where
  add a b := {
    observedProviderCalls := a.observedProviderCalls + b.observedProviderCalls
    possiblyBilledCallCharge := a.possiblyBilledCallCharge + b.possiblyBilledCallCharge
    reservedProviderCalls := a.reservedProviderCalls + b.reservedProviderCalls
    observedPromptTokens := a.observedPromptTokens + b.observedPromptTokens
    observedCompletionTokens := a.observedCompletionTokens + b.observedCompletionTokens
    observedEstimatedCost := a.observedEstimatedCost + b.observedEstimatedCost
    possiblyBilledCostCharge := a.possiblyBilledCostCharge + b.possiblyBilledCostCharge
    reservedEstimatedCost := a.reservedEstimatedCost + b.reservedEstimatedCost
    possiblyBilledCount := a.possiblyBilledCount + b.possiblyBilledCount }

instance : Neg Ledger where
  neg a := {
    observedProviderCalls := -a.observedProviderCalls
    possiblyBilledCallCharge := -a.possiblyBilledCallCharge
    reservedProviderCalls := -a.reservedProviderCalls
    observedPromptTokens := -a.observedPromptTokens
    observedCompletionTokens := -a.observedCompletionTokens
    observedEstimatedCost := -a.observedEstimatedCost
    possiblyBilledCostCharge := -a.possiblyBilledCostCharge
    reservedEstimatedCost := -a.reservedEstimatedCost
    possiblyBilledCount := -a.possiblyBilledCount }

/-- The ledger adds up field by field. -/
instance : AddCommGroup Ledger :=
  { AddGroup.ofLeftAxioms
      (fun _ _ _ => Ledger.ext (add_assoc _ _ _) (add_assoc _ _ _) (add_assoc _ _ _)
        (add_assoc _ _ _) (add_assoc _ _ _) (add_assoc _ _ _) (add_assoc _ _ _) (add_assoc _ _ _)
        (add_assoc _ _ _))
      (fun _ => Ledger.ext (zero_add _) (zero_add _) (zero_add _) (zero_add _) (zero_add _)
        (zero_add _) (zero_add _) (zero_add _) (zero_add _))
      (fun _ => Ledger.ext (neg_add_cancel _) (neg_add_cancel _) (neg_add_cancel _)
        (neg_add_cancel _) (neg_add_cancel _) (neg_add_cancel _) (neg_add_cancel _)
        (neg_add_cancel _) (neg_add_cancel _)) with
    add_comm := fun _ _ => Ledger.ext (add_comm _ _) (add_comm _ _) (add_comm _ _) (add_comm _ _)
      (add_comm _ _) (add_comm _ _) (add_comm _ _) (add_comm _ _) (add_comm _ _) }

/-- Observed, possibly billed and reserved provider calls together. -/
def totalCalls (l : Ledger) : Int :=
  l.observedProviderCalls + l.possiblyBilledCallCharge + l.reservedProviderCalls

/-- Observed, possibly billed and reserved cost together. -/
def totalCost (l : Ledger) : Int :=
  l.observedEstimatedCost + l.possiblyBilledCostCharge + l.reservedEstimatedCost

end Ledger

/-! ## The budget -/

/-- `ReservationRequest`. -/
structure ReservationRequest where
  providerCalls : Nat
  estimatedCost : Nat
  /-- A run reservation must include provider calls. -/
  some_calls : 1 ≤ providerCalls
deriving DecidableEq, Repr

/-- `SettlementUsage`, its costs rounded to the quantum. -/
structure SettlementUsage where
  observedProviderCalls : Nat
  promptTokens : Nat
  completionTokens : Nat
  observedEstimatedCost : Nat
  possiblyBilledCallCharge : Nat := 0
  possiblyBilledCostCharge : Nat := 0
deriving DecidableEq, Repr

/-- `SettlementUsage.exceeds`. -/
def SettlementUsage.exceeds (u : SettlementUsage) (request : ReservationRequest) : Bool :=
  request.providerCalls < u.observedProviderCalls + u.possiblyBilledCallCharge
    || request.estimatedCost < u.observedEstimatedCost + u.possiblyBilledCostCharge

/-- The limits a campaign is created with. -/
structure Limits where
  providerCallAdmissionCeiling : Int
  providerCallStructuralCeiling : Int
  estimatedCostStopThreshold : Int
deriving DecidableEq, Repr

/-- `BudgetAdmission`: allowed, or the intent and the reason to stop. -/
inductive BudgetAdmission
  | allowed
  | denied (intent : StopIntent) (reason : String)
deriving DecidableEq, Repr

/-- `CampaignBudgetSnapshot.admit`. -/
def Limits.admitRequest (limits : Limits) (ledger : Ledger) (request : ReservationRequest) :
    BudgetAdmission :=
  let projectedCalls := ledger.totalCalls + request.providerCalls
  let projectedCost := ledger.totalCost + request.estimatedCost
  if limits.providerCallStructuralCeiling < projectedCalls then
    .denied .callCeiling "provider_call_structural_ceiling"
  else if limits.providerCallAdmissionCeiling < projectedCalls then
    .denied .callCeiling "provider_call_admission_ceiling"
  else if limits.estimatedCostStopThreshold < projectedCost then
    .denied .budget "estimated_cost_stop_threshold"
  else .allowed

/-- `admit_after_active_reservations_settle`: what is spent already, without the holds. -/
def Limits.admitAfterActiveReservationsSettle (limits : Limits) (ledger : Ledger)
    (request : ReservationRequest) : BudgetAdmission :=
  limits.admitRequest { ledger with reservedProviderCalls := 0, reservedEstimatedCost := 0 } request

/-- `_budget_breach`, on the ledger after the settlement. -/
def Limits.breach (limits : Limits) (ledger : Ledger) (reservation : ReservationRequest)
    (usage : SettlementUsage) : Option (StopIntent × String) :=
  if limits.providerCallStructuralCeiling < ledger.totalCalls then
    some (.callCeiling, "provider_call_structural_ceiling")
  else if limits.providerCallAdmissionCeiling < ledger.totalCalls then
    some (.callCeiling, "provider_call_admission_ceiling")
  else if reservation.providerCalls
      < usage.observedProviderCalls + usage.possiblyBilledCallCharge then
    some (.callCeiling, "run_provider_call_reservation")
  else if limits.estimatedCostStopThreshold < ledger.totalCost then
    some (.budget, "estimated_cost_stop_threshold")
  else if reservation.estimatedCost
      < usage.observedEstimatedCost + usage.possiblyBilledCostCharge then
    some (.budget, "run_estimated_cost_reservation")
  else none

end Sana.Shadow
