import Sana.Lib.Dict
import Sana.Lib.FloatArithmetic
import Sana.Orchestration.SearchWorkflow

/-!
# Budget reservations

A `BudgetReservationLedger` holds what a run has used and what its pending steps have been
promised. A reservation is checked against everything promised so far before it is entered.
Completing a step takes its reservation out and adds what the step really cost.

`reserve_submissions` releases what a decision gives back and reserves for what it submits,
and takes back what it reserved itself when one of them is refused.
-/

namespace Sana.Orchestration.Aggregate

open Sana.Lib

/-! ## The budget guard -/

/--
`timedelta(seconds=s)` of seconds that are not negative: their fraction is multiplied as floats are,
and the product is taken to the nearest microsecond, halves to the even one.
-/
def timedelta (floats : FloatArithmetic) (s : Rat) : Duration :=
  s.floor * 1000000 + FloatArithmetic.halfEven (floats.times 1000000 (s - s.floor))

/-- `BudgetExceeded`. -/
def budgetExceeded (limit : String) : Exn :=
  .typed ⟨.budget, "budget_exceeded", "Budget limit exceeded: " ++ limit, false⟩

/-- What `BudgetUsage.add` is called with. -/
structure Increments where
  queries : Int := 0
  providers : Int := 0
  fetches : Int := 0
  llmCalls : Int := 0
  promptTokens : Int := 0
  completionTokens : Int := 0
  expansionRounds : Int := 0
  phase : Option String := none
  elapsedSeconds : Rat := 0

/-- `phase_seconds.get(phase, 0.0)`. -/
def UsageFields.secondsIn (u : UsageFields) (phase : String) : Rat :=
  (u.phaseSeconds.lookup phase).getD 0

/-- `BudgetUsage.add`. -/
def BudgetUsage.add (floats : FloatArithmetic) (u : BudgetUsage) (i : Increments) :
    Except Exn BudgetUsage := do
  check (0 ≤ i.queries && 0 ≤ i.providers && 0 ≤ i.fetches && 0 ≤ i.llmCalls && 0 ≤ i.promptTokens
      && 0 ≤ i.completionTokens && 0 ≤ i.expansionRounds && 0 ≤ i.elapsedSeconds)
    (.valueError "Usage increments cannot be negative")
  check (i.phase.isSome || i.elapsedSeconds = 0)
    (.valueError "phase is required when elapsed_seconds is recorded")
  BudgetUsage.make {
    queryCount := u.queryCount + i.queries
    providerCount := u.providerCount + i.providers
    fetchCount := u.fetchCount + i.fetches
    llmCallCount := u.llmCallCount + i.llmCalls
    promptTokenCount := u.promptTokenCount + i.promptTokens
    completionTokenCount := u.completionTokenCount + i.completionTokens
    expansionRounds := u.expansionRounds + i.expansionRounds
    phaseSeconds := match i.phase with
      | some phase => Dict.set phase (floats.plus (u.secondsIn phase) i.elapsedSeconds)
          u.phaseSeconds
      | none => u.phaseSeconds }

/-- `BudgetGuard`. -/
structure BudgetGuard where
  snapshot : BudgetSnapshot
deriving DecidableEq, Repr

namespace BudgetGuard

variable (floats : FloatArithmetic) (guard : BudgetGuard)

/-- `non_synthesis_deadline`. -/
def nonSynthesisDeadline : Time :=
  guard.snapshot.softDeadlineAt - timedelta floats guard.snapshot.synthesisReserveSeconds

/-- `deadline_for`. -/
def deadlineFor : BudgetPhase → Time
  | .synthesize => guard.snapshot.hardDeadlineAt
  | _ => guard.nonSynthesisDeadline floats

/-- `can_start`. -/
def canStart (phase : BudgetPhase) (now : DateTime) (estimatedSeconds : Rat := 0) :
    Except Exn Bool := do
  check now.aware (.valueError "now must be timezone-aware")
  check (0 ≤ estimatedSeconds) (.valueError "estimated_seconds cannot be negative")
  return now.instant + timedelta floats estimatedSeconds < guard.deadlineFor floats phase

/-- One turn of the second loop of `validate`: a phase without a limit may take any time. -/
def validatePhase (entry : String × Rat) : Except Exn Unit :=
  match guard.snapshot.phaseSeconds.lookup entry.1 with
  | some maximum => check (entry.2 ≤ maximum) (budgetExceeded ("phase:" ++ entry.1))
  | none => .ok ()

/-- `validate`. -/
def validate (usage : BudgetUsage) : Except Exn Unit := do
  check (usage.queryCount ≤ guard.snapshot.maxQueries) (budgetExceeded "queries")
  check (usage.providerCount ≤ guard.snapshot.maxProviders) (budgetExceeded "providers")
  check (usage.fetchCount ≤ guard.snapshot.maxFetches) (budgetExceeded "fetches")
  check (usage.llmCallCount ≤ guard.snapshot.maxLlmCalls) (budgetExceeded "llm_calls")
  check (usage.expansionRounds ≤ guard.snapshot.maxExpansionRounds)
    (budgetExceeded "expansion_rounds")
  usage.phaseSeconds.forM guard.validatePhase

end BudgetGuard

end Sana.Orchestration.Aggregate

namespace Sana.Orchestration.SearchWorkflow

open Sana.Lib Aggregate

/-! ## The ledger -/

/-- `apply`. Model calls are counted where they are made, not here. -/
def StepBudgetCost.apply (floats : FloatArithmetic) (cost : StepBudgetCost)
    (usage : Aggregate.BudgetUsage) (elapsedSeconds : Option Rat := none) :
    Except Exn Aggregate.BudgetUsage :=
  usage.add floats {
    queries := cost.queries
    providers := cost.providers
    fetches := cost.fetches
    phase := some cost.phase.value
    elapsedSeconds := elapsedSeconds.getD cost.estimatedSeconds }

/-- `BudgetReservation`. -/
structure BudgetReservation where
  stepKey : String
  cost : StepBudgetCost
deriving DecidableEq, Repr

/-- `BudgetReservationLedger`. -/
structure BudgetReservationLedger where
  guard : BudgetGuard
  usage : Aggregate.BudgetUsage
  /-- The dictionary of the reservations, by step key. -/
  reservations : List (String × StepBudgetCost) := []
deriving DecidableEq, Repr

namespace BudgetReservationLedger

variable (floats : FloatArithmetic)

/-- The keys of the steps that hold a reservation. -/
def keys (ledger : BudgetReservationLedger) : List String := ledger.reservations.map (·.1)

/-- `projected_usage`. -/
def projectedUsage (ledger : BudgetReservationLedger) : Except Exn Aggregate.BudgetUsage :=
  (ledger.reservations.map (·.2)).foldlM (fun projected cost => cost.apply floats projected)
    ledger.usage

/-- One turn of the loop of `__init__`. -/
def addPending (reservations : List (String × StepBudgetCost)) (r : BudgetReservation) :
    Except Exn (List (String × StepBudgetCost)) := do
  check (reservations.lookup r.stepKey).isNone
    (.valueError "Pending budget reservation keys must be unique")
  return Dict.set r.stepKey r.cost reservations

/-- `__init__`. -/
def new (guard : BudgetGuard) (usage : Aggregate.BudgetUsage) (pending : List BudgetReservation) :
    Except Exn BudgetReservationLedger := do
  let reservations ← pending.foldlM addPending []
  let ledger : BudgetReservationLedger := { guard, usage, reservations }
  guard.validate (← ledger.projectedUsage floats)
  return ledger

/-- `reserve`. -/
def reserve (stepKey : String) (cost : StepBudgetCost) (now : DateTime) :
    Method Exn BudgetReservationLedger BudgetReservation := do
  let ledger ← get
  .require (Text.isBlank stepKey = false ∧ ledger.reservations.lookup stepKey = none)
    (.valueError "Step already has a reservation or has an empty key")
  let starts ← .ofExcept (ledger.guard.canStart floats cost.phase now cost.estimatedSeconds)
  .require (starts = true) (budgetExceeded "deadline")
  let projected ← .ofExcept (ledger.projectedUsage floats)
  let usage ← .ofExcept (cost.apply floats projected)
  .ofExcept (ledger.guard.validate usage)
  modify fun ledger => { ledger with
    reservations := Dict.set stepKey cost ledger.reservations }
  return ⟨stepKey, cost⟩

/-- `complete`. -/
def complete (stepKey : String) (actual : StepBudgetCost) (elapsedSeconds : Rat) :
    Method Exn BudgetReservationLedger Aggregate.BudgetUsage := do
  let ledger ← get
  match ledger.reservations.lookup stepKey with
  | none => throw (.valueError "Step has no budget reservation")
  | some reserved =>
    .require (actual.phase = reserved.phase)
      (.valueError "Actual usage phase differs from reservation")
    modify fun ledger => { ledger with reservations := Dict.erase stepKey ledger.reservations }
    let usage ← .ofExcept (actual.apply floats ledger.usage (some elapsedSeconds))
    modify fun ledger => { ledger with usage }
    .ofExcept (ledger.guard.validate usage)
    return usage

/-- `release_if_present`. -/
def releaseIfPresent (stepKey : String) : Method Exn BudgetReservationLedger Bool := do
  let ledger ← get
  modify fun ledger => { ledger with reservations := Dict.erase stepKey ledger.reservations }
  return (ledger.reservations.lookup stepKey).isSome

/-- `release`. -/
def release (stepKey : String) : Method Exn BudgetReservationLedger Unit := do
  let present ← releaseIfPresent stepKey
  .require (present = true) (.valueError "Step has no budget reservation")

end BudgetReservationLedger

/-- A call of a method of a ledger. -/
inductive LedgerCall
  | reserve (stepKey : String) (cost : StepBudgetCost) (now : DateTime)
  | complete (stepKey : String) (actual : StepBudgetCost) (elapsedSeconds : Rat)
  | release (stepKey : String)
  | releaseIfPresent (stepKey : String)

open BudgetReservationLedger in
/-- The method a call is of; what it returned is not looked at. -/
def LedgerCall.method (floats : FloatArithmetic) : LedgerCall → Method Exn BudgetReservationLedger Unit
  | .reserve stepKey cost now => do let _ ← BudgetReservationLedger.reserve floats stepKey cost now
  | .complete stepKey actual elapsedSeconds => do
      let _ ← BudgetReservationLedger.complete floats stepKey actual elapsedSeconds
  | .release stepKey => BudgetReservationLedger.release stepKey
  | .releaseIfPresent stepKey => do let _ ← BudgetReservationLedger.releaseIfPresent stepKey

/-! ## Reserving what a decision submits -/

/-- Take back what was reserved for some nodes. -/
def rollBack (reserved : List WorkflowStepSpec) : Method Exn BudgetReservationLedger Unit :=
  reserved.forM fun node => do let _ ← BudgetReservationLedger.releaseIfPresent node.key

/--
The loop of `reserve_submissions`, with what it has reserved so far. The clock is read once
for every node.
-/
def reserveNodes (floats : FloatArithmetic) (clock : Nat → DateTime)
    (reserved : List WorkflowStepSpec) :
    List WorkflowStepSpec → Method Exn BudgetReservationLedger (List WorkflowStepSpec)
  | [] => return reserved
  | node :: rest => do
      tryCatch
        (do
          let _ ← BudgetReservationLedger.reserve floats node.key node.budget
            (clock reserved.length))
        (fun e => do
          rollBack reserved
          throw e)
      reserveNodes floats clock (reserved ++ [node]) rest

/-- `reserve_submissions`. -/
def reserveSubmissions (floats : FloatArithmetic) (advance : WorkflowAdvance)
    (clock : Nat → DateTime) : Method Exn BudgetReservationLedger (List WorkflowStepSpec) := do
  advance.releaseReservations.forM fun stepKey => do
    let _ ← BudgetReservationLedger.releaseIfPresent stepKey
  reserveNodes floats clock [] advance.submit

end Sana.Orchestration.SearchWorkflow
