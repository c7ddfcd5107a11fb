import Sana.Lib.Method
import Sana.Shared.Json
import Sana.Orchestration.Domain

/-!
# The run and the step as objects, and their rows

`SearchRun` and `SearchStep` are objects: a method checks, raises, and changes fields one
after the other. They are written to a row by `add` and `save` and read back by
`run_from_record` and `step_from_record`, which go through `rehydrate` and its checks.
The values they hold (a routing decision, budgets, artifacts) are immutable and checked
when they are built, so a row is only loaded if each of them passes again.

A moment is aware if it names an offset. The columns hold instants, so what is loaded is
always aware.
-/

namespace Sana.Orchestration.Aggregate

open Sana.Lib

/-! ## Values -/

/-- `datetime`. -/
structure DateTime where
  instant : Time
  aware : Bool := true
deriving DecidableEq, Repr

/-- The members of an enumeration, by their values. -/
def enumOf {α : Type} (name : String) (value : α → String) (members : List α) (text : String) :
    Except Exn α :=
  match members.find? fun m => value m = text with
  | some m => .ok m
  | none => .error (.valueError ("'" ++ text ++ "' is not a valid " ++ name))

def AnswerQuality.value : AnswerQuality → String
  | .complete => "COMPLETE"
  | .partialAnswer => "PARTIAL"
  | .none => "NONE"

def StopReason.value : StopReason → String
  | .factsCovered => "FACTS_COVERED"
  | .timeBudget => "TIME_BUDGET"
  | .insufficientEvidence => "INSUFFICIENT_EVIDENCE"
  | .providerFailure => "PROVIDER_FAILURE"
  | .policyBlocked => "POLICY_BLOCKED"
  | .userCancelled => "USER_CANCELLED"
  | .infrastructureFailure => "INFRASTRUCTURE_FAILURE"

/-- `SearchMode(text)`. -/
def searchMode : String → Except Exn SearchMode :=
  enumOf "SearchMode" SearchMode.value [.fast, .research]

/-- `RunStatus(text)`. -/
def runStatus : String → Except Exn RunStatus :=
  enumOf "RunStatus" RunStatus.value [.queued, .running, .waiting, .succeeded, .failed, .cancelled]

/-- `AnswerQuality(text)`. -/
def answerQuality : String → Except Exn AnswerQuality :=
  enumOf "AnswerQuality" AnswerQuality.value [.complete, .partialAnswer, .none]

/-- `StopReason(text)`. -/
def stopReason : String → Except Exn StopReason :=
  enumOf "StopReason" StopReason.value [.factsCovered, .timeBudget, .insufficientEvidence,
    .providerFailure, .policyBlocked, .userCancelled, .infrastructureFailure]

/-- `StepStatus(text)`. -/
def stepStatus : String → Except Exn StepStatus :=
  enumOf "StepStatus" StepStatus.value
    [.ready, .running, .retryWait, .succeeded, .failed, .skipped, .cancelled]

/-- `StepType(text)`. -/
def stepType : String → Except Exn StepType :=
  enumOf "StepType" StepType.value [.route, .plan, .discovery, .select, .fetch, .extract, .verify,
    .synthesize, .complete]

/-- Build a value whose constructor checks its fields. -/
def checked {α β : Type} (postInit : α → Except Exn Unit)
    (build : (a : α) → postInit a = .ok () → β) (a : α) : Except Exn β :=
  match h : postInit a with
  | .ok () => .ok (build a h)
  | .error e => .error e

/-- The fields of a `RoutingDecision`. -/
structure RoutingFields where
  mode : SearchMode
  reasonCodes : List String
  policyVersion : String
  confidence : Rat
deriving DecidableEq, Repr

def RoutingFields.postInit (f : RoutingFields) : Except Exn Unit := do
  check (!Text.isBlank f.policyVersion) (.valueError "policy_version cannot be empty")
  check (0 ≤ f.confidence && f.confidence ≤ 1) (.valueError "confidence must be between 0 and 1")
  check (f.reasonCodes.all (!Text.isBlank ·))
    (.valueError "reason_codes cannot contain empty values")

/-- `RoutingDecision`. -/
structure RoutingDecision extends RoutingFields where
  valid : toRoutingFields.postInit = .ok ()
deriving DecidableEq, Repr

def RoutingDecision.make : RoutingFields → Except Exn RoutingDecision :=
  checked RoutingFields.postInit RoutingDecision.mk

/-- The fields of a `BudgetSnapshot`; its moments are aware. -/
structure BudgetFields where
  policyVersion : String
  createdAt : Time
  softDeadlineAt : Time
  hardDeadlineAt : Time
  synthesisReserveSeconds : Rat
  maxQueries : Int
  maxProviders : Int
  maxFetches : Int
  maxLlmCalls : Int
  maxExpansionRounds : Int
  phaseSeconds : List (String × Rat)
deriving DecidableEq, Repr

def BudgetFields.postInit (f : BudgetFields) : Except Exn Unit := do
  check (f.createdAt ≤ f.softDeadlineAt && f.softDeadlineAt ≤ f.hardDeadlineAt)
    (.valueError "Budget deadlines must be ordered from creation to hard stop")
  check (0 < f.synthesisReserveSeconds) (.valueError "synthesis_reserve_seconds must be positive")
  check (0 ≤ f.maxQueries && 0 ≤ f.maxProviders && 0 ≤ f.maxFetches && 0 ≤ f.maxLlmCalls
      && 0 ≤ f.maxExpansionRounds)
    (.valueError "Budget limits cannot be negative")
  check (f.phaseSeconds.all (0 ≤ ·.2)) (.valueError "Phase budgets cannot be negative")

/-- `BudgetSnapshot`. -/
structure BudgetSnapshot extends BudgetFields where
  valid : toBudgetFields.postInit = .ok ()
deriving DecidableEq, Repr

def BudgetSnapshot.make : BudgetFields → Except Exn BudgetSnapshot :=
  checked BudgetFields.postInit BudgetSnapshot.mk

/-- The fields of a `BudgetUsage`. -/
structure UsageFields where
  queryCount : Int := 0
  providerCount : Int := 0
  fetchCount : Int := 0
  llmCallCount : Int := 0
  promptTokenCount : Int := 0
  completionTokenCount : Int := 0
  expansionRounds : Int := 0
  phaseSeconds : List (String × Rat) := []
deriving DecidableEq, Repr

def UsageFields.postInit (f : UsageFields) : Except Exn Unit := do
  check (0 ≤ f.queryCount && 0 ≤ f.providerCount && 0 ≤ f.fetchCount && 0 ≤ f.llmCallCount
      && 0 ≤ f.promptTokenCount && 0 ≤ f.completionTokenCount && 0 ≤ f.expansionRounds)
    (.valueError "Usage counters cannot be negative")
  check (f.phaseSeconds.all (0 ≤ ·.2)) (.valueError "Phase usage cannot be negative")

/-- `BudgetUsage`. -/
structure BudgetUsage extends UsageFields where
  valid : toUsageFields.postInit = .ok ()
deriving DecidableEq, Repr

def BudgetUsage.make : UsageFields → Except Exn BudgetUsage :=
  checked UsageFields.postInit BudgetUsage.mk

/-- A digit of `sha256`, of either case. -/
def isHexDigit (c : Char) : Bool := c ∈ "0123456789abcdefABCDEF".toList

/-- `ArtifactRef`. The digest is kept in lower case. -/
@[ext]
structure ArtifactRef where
  uri : String
  sha256 : String
  uri_text : Text.isBlank uri = false
  digits : sha256.length = 64 ∧ sha256.toList.all isHexDigit = true
  lower : Text.lowerAscii sha256 = sha256
deriving Repr

instance : DecidableEq ArtifactRef := fun _ _ => decidable_of_iff _ ArtifactRef.ext_iff.symm

theorem isHexDigit_toLower {c : Char} (h : isHexDigit c = true) :
    isHexDigit c.toLower = true ∧ c.toLower.toLower = c.toLower := by
  have hall : ("0123456789abcdefABCDEF".toList.all fun c =>
      isHexDigit c.toLower && c.toLower.toLower = c.toLower) = true := by decide
  have hc := List.all_eq_true.mp hall c (of_decide_eq_true h)
  rw [Bool.and_eq_true, decide_eq_true_eq] at hc
  exact hc

theorem lowerAscii_digits {s : String} (h : s.length = 64 ∧ s.toList.all isHexDigit = true) :
    (Text.lowerAscii s).length = 64 ∧ (Text.lowerAscii s).toList.all isHexDigit = true := by
  rw [List.all_eq_true] at h
  refine ⟨by rw [Text.lowerAscii, String.length_ofList, List.length_map, String.length_toList, h.1], ?_⟩
  simp only [Text.lowerAscii, String.toList_ofList, List.all_map, List.all_eq_true]
  intro c hc
  exact (isHexDigit_toLower (h.2 c hc)).1

theorem lowerAscii_idem {s : String} (h : s.toList.all isHexDigit = true) :
    Text.lowerAscii (Text.lowerAscii s) = Text.lowerAscii s := by
  rw [List.all_eq_true] at h
  simp only [Text.lowerAscii, String.toList_ofList, List.map_map]
  congr 1
  refine List.map_congr_left fun c hc => ?_
  exact (isHexDigit_toLower (h c hc)).2

def ArtifactRef.make (uri sha256 : String) : Except Exn ArtifactRef :=
  if huri : Text.isBlank uri = false then
    if hdigits : sha256.length = 64 ∧ sha256.toList.all isHexDigit = true then
      .ok ⟨uri, Text.lowerAscii sha256, huri, lowerAscii_digits hdigits, lowerAscii_idem hdigits.2⟩
    else .error (.valueError "Artifact sha256 must be a 64-character hex digest")
  else .error (.valueError "Artifact URI cannot be empty")

/-! ## The run -/

/-- `SearchRun`. -/
structure SearchRun where
  id : Uuid
  tenantId : Uuid
  conversationId : Uuid
  messageId : Uuid
  responseRunId : Uuid
  routing : RoutingDecision
  budget : BudgetSnapshot
  status : RunStatus := .queued
  answerQuality : AnswerQuality := .none
  stopReason : Option StopReason := none
  usage : BudgetUsage := ⟨{}, by decide⟩
  startedAt : Option Time := none
  completedAt : Option Time := none
  version : Nat := 0
  persistedVersion : Nat := 0
deriving DecidableEq, Repr

/-- `_require_aware`. -/
def requireAware {σ : Type} (at' : DateTime) (field : String) : Method Exn σ Unit :=
  .require (at'.aware = true) (.valueError (field ++ " must be timezone-aware"))

namespace SearchRun

def isTerminal (run : SearchRun) : Bool := run.status.isTerminal

def mode (run : SearchRun) : SearchMode := run.routing.mode

/-- `__post_init__`. -/
def postInit (run : SearchRun) : Except Exn Unit :=
  check (run.routing.policyVersion = run.budget.policyVersion)
    (.valueError "Routing and budget policy versions must match")

/-- `_validate_loaded_state`. -/
def validateLoadedState (run : SearchRun) : Except Exn Unit :=
  match run.status with
  | .succeeded => do
      check (run.answerQuality ≠ .none && run.stopReason.isSome)
        (violation "Persisted successful run has no answer outcome")
      check (!(run.answerQuality = .complete && run.stopReason ≠ some .factsCovered))
        (violation "Persisted complete run has an invalid stop reason")
      check (!(run.answerQuality = .partialAnswer && run.stopReason = some .factsCovered))
        (violation "Persisted partial run has an invalid stop reason")
  | .cancelled =>
      check (run.stopReason = some .userCancelled)
        (violation "Persisted cancelled run has an invalid stop reason")
  | .failed =>
      check (run.answerQuality = .none && run.stopReason.isSome)
        (violation "Persisted failed run has an invalid answer outcome")
  | .queued | .running | .waiting =>
      check (run.answerQuality = .none && run.stopReason = none)
        (violation "Non-terminal run cannot have a final answer outcome")

/-- `mark_persisted`. -/
def markPersisted (run : SearchRun) : SearchRun := { run with persistedVersion := run.version }

/-- `_transition`. -/
def transition (target : RunStatus) : Method Exn SearchRun Unit := do
  let run ← get
  .require (target ∈ run.status.transitions)
    (.invariant ("Illegal search_run transition: " ++ run.status.value ++ " -> " ++ target.value)
      "illegal_state_transition")
  modify fun run => { run with status := target, version := run.version + 1 }

/-- `start`. -/
def start (at' : DateTime) : Method Exn SearchRun Unit := do
  requireAware at' "started_at"
  transition .running
  modify fun run => { run with startedAt := some (run.startedAt.getD at'.instant) }

/-- `wait`. -/
def wait : Method Exn SearchRun Unit := transition .waiting

/-- `resume`. -/
def resume : Method Exn SearchRun Unit := transition .running

/-- No counter of the new usage is below the old one. -/
def covers (new old : BudgetUsage) : Bool :=
  old.queryCount ≤ new.queryCount && old.providerCount ≤ new.providerCount
    && old.fetchCount ≤ new.fetchCount && old.llmCallCount ≤ new.llmCallCount
    && old.promptTokenCount ≤ new.promptTokenCount
    && old.completionTokenCount ≤ new.completionTokenCount
    && old.expansionRounds ≤ new.expansionRounds

/-- `record_usage`. -/
def recordUsage (usage : BudgetUsage) : Method Exn SearchRun Unit := do
  let run ← get
  .require (run.isTerminal = false) (violation "Cannot update usage for a terminal run")
  .require (covers usage run.usage = true) (violation "Run usage counters cannot decrease")
  modify fun run => { run with usage, version := run.version + 1 }

/-- `upgrade_to_research`. -/
def upgradeToResearch (routing : RoutingDecision) (budget : BudgetSnapshot) :
    Method Exn SearchRun Unit := do
  let run ← get
  .require (run.isTerminal = false) (violation "Cannot upgrade a terminal run")
  .require (run.mode = .fast ∧ routing.mode = .research)
    (violation "Only a FAST run can upgrade to RESEARCH")
  .require (routing.policyVersion = budget.policyVersion)
    (violation "Upgrade routing and budget versions differ")
  .require (routing.policyVersion = run.routing.policyVersion)
    (violation "Upgrade cannot change the run policy version")
  .require (budget.createdAt = run.budget.createdAt)
    (violation "Upgrade must retain the original run start time")
  .require (run.budget.hardDeadlineAt < budget.hardDeadlineAt)
    (violation "Research upgrade must extend the hard deadline")
  modify fun run => { run with routing, budget, version := run.version + 1 }

/-- `succeed`. -/
def succeed (quality : AnswerQuality) (reason : StopReason) (at' : DateTime) :
    Method Exn SearchRun Unit := do
  requireAware at' "completed_at"
  .require (quality ≠ .none) (violation "A successful run must contain an answer")
  .require (¬(quality = .complete ∧ reason ≠ .factsCovered))
    (violation "A complete answer must stop because facts are covered")
  .require (¬(quality = .partialAnswer ∧ reason = .factsCovered))
    (violation "A partial answer cannot claim all facts are covered")
  .require (reason ≠ .userCancelled) (violation "A successful run cannot be user-cancelled")
  transition .succeeded
  modify fun run => { run with
    answerQuality := quality, stopReason := some reason, completedAt := some at'.instant }

/-- `fail`. -/
def fail (reason : StopReason) (at' : DateTime) : Method Exn SearchRun Unit := do
  requireAware at' "completed_at"
  .require (reason ≠ .factsCovered ∧ reason ≠ .userCancelled)
    (violation "Failure stop reason is inconsistent")
  transition .failed
  modify fun run => { run with
    answerQuality := .none, stopReason := some reason, completedAt := some at'.instant }

/-- `cancel`. -/
def cancel (at' : DateTime) : Method Exn SearchRun Unit := do
  requireAware at' "completed_at"
  transition .cancelled
  modify fun run => { run with
    answerQuality := .none, stopReason := some .userCancelled, completedAt := some at'.instant }

end SearchRun

/-- An operation on a run. -/
inductive RunOp
  | start (at' : DateTime)
  | wait
  | resume
  | recordUsage (usage : BudgetUsage)
  | upgradeToResearch (routing : RoutingDecision) (budget : BudgetSnapshot)
  | succeed (quality : AnswerQuality) (reason : StopReason) (at' : DateTime)
  | fail (reason : StopReason) (at' : DateTime)
  | cancel (at' : DateTime)

/-- The method an operation calls. -/
def RunOp.method : RunOp → Method Exn SearchRun Unit
  | .start at' => SearchRun.start at'
  | .wait => SearchRun.wait
  | .resume => SearchRun.resume
  | .recordUsage usage => SearchRun.recordUsage usage
  | .upgradeToResearch routing budget => SearchRun.upgradeToResearch routing budget
  | .succeed quality reason at' => SearchRun.succeed quality reason at'
  | .fail reason at' => SearchRun.fail reason at'
  | .cancel at' => SearchRun.cancel at'

/-! ## The step -/

/-- `SearchStep`. -/
structure SearchStep where
  id : Uuid
  tenantId : Uuid
  runId : Uuid
  stepKey : String
  stepType : StepType
  planRevision : Int
  inputRef : ArtifactRef
  status : StepStatus := .ready
  outputRef : Option ArtifactRef := none
  retryAt : Option Time := none
  version : Nat := 0
  persistedVersion : Nat := 0
deriving DecidableEq, Repr

namespace SearchStep

/-- `__post_init__`. -/
def postInit (step : SearchStep) : Except Exn Unit := do
  check (!Text.isBlank step.stepKey) (.valueError "step_key cannot be empty")
  check (1 ≤ step.planRevision) (.valueError "plan_revision must be at least 1")

/-- The checks of `rehydrate`. -/
def validateLoadedState (step : SearchStep) : Except Exn Unit := do
  check (!(step.status = .succeeded && step.outputRef.isNone))
    (violation "Persisted successful step has no output")
  check (!(step.status ≠ .succeeded && step.outputRef.isSome))
    (violation "Only a successful step may have an output")

/-- `mark_persisted`. -/
def markPersisted (step : SearchStep) : SearchStep := { step with persistedVersion := step.version }

/-- `_transition`. -/
def transition (target : StepStatus) : Method Exn SearchStep Unit := do
  let step ← get
  .require (target ∈ step.status.transitions)
    (.invariant ("Illegal search_step transition: " ++ step.status.value ++ " -> " ++ target.value)
      "illegal_state_transition")
  modify fun step => { step with status := target, version := step.version + 1 }

/-- `start`. -/
def start : Method Exn SearchStep Unit := do
  transition .running
  modify fun step => { step with retryAt := none }

/-- `release_expired_lease`: the retry time stays. -/
def releaseExpiredLease : Method Exn SearchStep Unit := transition .ready

/-- `retry_later`. -/
def retryLater (retryAt : DateTime) : Method Exn SearchStep Unit := do
  requireAware retryAt "retry_at"
  transition .retryWait
  modify fun step => { step with retryAt := some retryAt.instant }

/-- `make_ready`. -/
def makeReady : Method Exn SearchStep Unit := do
  transition .ready
  modify fun step => { step with retryAt := none }

/-- `succeed`. -/
def succeed (outputRef : ArtifactRef) : Method Exn SearchStep Unit := do
  let step ← get
  .require (step.outputRef = none) (violation "Successful step output is immutable")
  transition .succeeded
  modify fun step => { step with outputRef := some outputRef }

/-- `fail`. -/
def fail : Method Exn SearchStep Unit := transition .failed

/-- `skip`. -/
def skip : Method Exn SearchStep Unit := transition .skipped

/-- `cancel`. -/
def cancel : Method Exn SearchStep Unit := transition .cancelled

end SearchStep

/-- An operation on a step. -/
inductive StepOp
  | start
  | releaseExpiredLease
  | retryLater (retryAt : DateTime)
  | makeReady
  | succeed (outputRef : ArtifactRef)
  | fail
  | skip
  | cancel

/-- The method an operation calls. -/
def StepOp.method : StepOp → Method Exn SearchStep Unit
  | .start => SearchStep.start
  | .releaseExpiredLease => SearchStep.releaseExpiredLease
  | .retryLater retryAt => SearchStep.retryLater retryAt
  | .makeReady => SearchStep.makeReady
  | .succeed outputRef => SearchStep.succeed outputRef
  | .fail => SearchStep.fail
  | .skip => SearchStep.skip
  | .cancel => SearchStep.cancel

/-! ## The snapshots of a row -/

section Codec

variable (b : Builtins) (intOf : String → Option Int)

/-- `int(value)`; a number is cut off towards zero. -/
def int : Json → Except Exn Int
  | .number q => .ok (if 0 ≤ q then ⌊q⌋ else ⌈q⌉)
  | .bool v => .ok (if v then 1 else 0)
  | .str s =>
      match intOf s with
      | some n => .ok n
      | none => .error (.valueError "invalid literal for int() with base 10")
  | _ => .error (.typeError "int() argument must be a string or a real number")

/-- `datetime.fromisoformat(str(value))`. -/
def moment (v : Json) : Except Exn Time :=
  match b.fromisoformat (v.text b) with
  | some t => .ok t
  | none => .error (.valueError "Invalid isoformat string")

/-- `payload.get(key, default)`. -/
def getOr (key : String) (default : Json) : Json → Except Exn Json
  | .obj members => .ok ((members.find? (·.1 = key)).elim default (·.2))
  | _ => .error (.typeError "object has no members")

/-- `{str(key): float(value) for key, value in dict(value).items()}`. -/
def phases : Json → Except Exn (List (String × Rat))
  | .obj members => members.mapM fun m => do return (m.1, ← m.2.float b)
  | _ => .error (.typeError "object is not a mapping")

/-- A mapping of names to numbers. -/
def phasesToDict (l : List (String × Rat)) : Json := .obj (l.map fun p => (p.1, .number p.2))

/-- `budget_to_dict`. -/
def budgetToDict (budget : BudgetSnapshot) : Json := .obj [
  ("policy_version", .str budget.policyVersion),
  ("created_at", .str (b.isoformat budget.createdAt)),
  ("soft_deadline_at", .str (b.isoformat budget.softDeadlineAt)),
  ("hard_deadline_at", .str (b.isoformat budget.hardDeadlineAt)),
  ("synthesis_reserve_seconds", .number budget.synthesisReserveSeconds),
  ("max_queries", .number budget.maxQueries),
  ("max_providers", .number budget.maxProviders),
  ("max_fetches", .number budget.maxFetches),
  ("max_llm_calls", .number budget.maxLlmCalls),
  ("max_expansion_rounds", .number budget.maxExpansionRounds),
  ("phase_seconds", phasesToDict budget.phaseSeconds)]

/-- `budget_from_dict`. -/
def budgetFromDict (payload : Json) : Except Exn BudgetSnapshot := do
  let policyVersion := (← payload.member "policy_version").text b
  let createdAt ← moment b (← payload.member "created_at")
  let softDeadlineAt ← moment b (← payload.member "soft_deadline_at")
  let hardDeadlineAt ← moment b (← payload.member "hard_deadline_at")
  let synthesisReserveSeconds ← (← payload.member "synthesis_reserve_seconds").float b
  let maxQueries ← int intOf (← payload.member "max_queries")
  let maxProviders ← int intOf (← payload.member "max_providers")
  let maxFetches ← int intOf (← payload.member "max_fetches")
  let maxLlmCalls ← int intOf (← payload.member "max_llm_calls")
  let maxExpansionRounds ← int intOf (← payload.member "max_expansion_rounds")
  let phaseSeconds ← phases b (← payload.member "phase_seconds")
  BudgetSnapshot.make {
    policyVersion, createdAt, softDeadlineAt, hardDeadlineAt, synthesisReserveSeconds, maxQueries
    maxProviders, maxFetches, maxLlmCalls, maxExpansionRounds, phaseSeconds }

/-- `usage_to_dict`. -/
def usageToDict (usage : BudgetUsage) : Json := .obj [
  ("query_count", .number usage.queryCount),
  ("provider_count", .number usage.providerCount),
  ("fetch_count", .number usage.fetchCount),
  ("llm_call_count", .number usage.llmCallCount),
  ("prompt_token_count", .number usage.promptTokenCount),
  ("completion_token_count", .number usage.completionTokenCount),
  ("expansion_rounds", .number usage.expansionRounds),
  ("phase_seconds", phasesToDict usage.phaseSeconds)]

/-- `usage_from_dict`: a missing counter is zero. -/
def usageFromDict (payload : Json) : Except Exn BudgetUsage := do
  let queryCount ← int intOf (← getOr "query_count" (.number 0) payload)
  let providerCount ← int intOf (← getOr "provider_count" (.number 0) payload)
  let fetchCount ← int intOf (← getOr "fetch_count" (.number 0) payload)
  let llmCallCount ← int intOf (← getOr "llm_call_count" (.number 0) payload)
  let promptTokenCount ← int intOf (← getOr "prompt_token_count" (.number 0) payload)
  let completionTokenCount ← int intOf (← getOr "completion_token_count" (.number 0) payload)
  let expansionRounds ← int intOf (← getOr "expansion_rounds" (.number 0) payload)
  let phaseSeconds ← phases b (← getOr "phase_seconds" (.obj []) payload)
  BudgetUsage.make {
    queryCount, providerCount, fetchCount, llmCallCount, promptTokenCount, completionTokenCount
    expansionRounds, phaseSeconds }

/-- `artifact_to_dict`. -/
def artifactToDict (artifact : ArtifactRef) : Json :=
  .obj [("uri", .str artifact.uri), ("sha256", .str artifact.sha256)]

/-- `artifact_from_dict`. -/
def artifactFromDict (payload : Json) : Except Exn ArtifactRef := do
  let uri := (← payload.member "uri").text b
  let sha256 := (← payload.member "sha256").text b
  ArtifactRef.make uri sha256

/-! ## Rows -/

/-- A row of `search_runs`. The deadline columns repeat the snapshot and are not read back. -/
structure SearchRunRecord where
  id : Uuid
  tenantId : Uuid
  responseRunId : Uuid
  conversationId : Uuid
  messageId : Uuid
  mode : String
  routeReasonCodes : List String
  policyVersion : String
  routeConfidence : Rat
  status : String
  answerQuality : String
  stopReason : Option String
  softDeadlineAt : Time
  hardDeadlineAt : Time
  budgetSnapshot : Json
  usageSnapshot : Json
  createdAt : Time
  startedAt : Option Time
  completedAt : Option Time
  version : Nat

/-- The row `add` inserts. -/
def SearchRun.toRecord (run : SearchRun) : SearchRunRecord where
  id := run.id
  tenantId := run.tenantId
  responseRunId := run.responseRunId
  conversationId := run.conversationId
  messageId := run.messageId
  mode := run.mode.value
  routeReasonCodes := run.routing.reasonCodes
  policyVersion := run.routing.policyVersion
  routeConfidence := run.routing.confidence
  status := run.status.value
  answerQuality := AnswerQuality.value run.answerQuality
  stopReason := run.stopReason.map StopReason.value
  softDeadlineAt := run.budget.softDeadlineAt
  hardDeadlineAt := run.budget.hardDeadlineAt
  budgetSnapshot := budgetToDict b run.budget
  usageSnapshot := usageToDict run.usage
  createdAt := run.budget.createdAt
  startedAt := run.startedAt
  completedAt := run.completedAt
  version := run.version

/-- The columns `save` writes. -/
def SearchRun.writeTo (run : SearchRun) (row : SearchRunRecord) : SearchRunRecord :=
  { row with
    mode := run.mode.value, routeReasonCodes := run.routing.reasonCodes
    policyVersion := run.routing.policyVersion, routeConfidence := run.routing.confidence
    status := run.status.value, answerQuality := AnswerQuality.value run.answerQuality
    stopReason := run.stopReason.map StopReason.value
    softDeadlineAt := run.budget.softDeadlineAt, hardDeadlineAt := run.budget.hardDeadlineAt
    budgetSnapshot := budgetToDict b run.budget, usageSnapshot := usageToDict run.usage
    startedAt := run.startedAt, completedAt := run.completedAt, version := run.version }

/-- `save`: the update of the row that has the version the run was loaded with. -/
def SearchRun.save (run : SearchRun) (row : SearchRunRecord) :
    Except Exn (SearchRunRecord × SearchRun) := do
  check (row.tenantId = run.tenantId && row.id = run.id && row.version = run.persistedVersion)
    (.invariant "Search run was modified concurrently" "optimistic_lock_failed")
  return (run.writeTo b row, run.markPersisted)

/-- `StopReason(text) if text else None`. -/
def stopReasonOrNone : Option String → Except Exn (Option StopReason)
  | none | some "" => .ok none
  | some text => (stopReason text).map some

/-- `run_from_record`. -/
def runFromRecord (record : SearchRunRecord) : Except Exn SearchRun := do
  let mode ← searchMode record.mode
  let routing ← RoutingDecision.make {
    mode, reasonCodes := record.routeReasonCodes, policyVersion := record.policyVersion
    confidence := record.routeConfidence }
  let budget ← budgetFromDict b intOf record.budgetSnapshot
  let status ← runStatus record.status
  let quality ← answerQuality record.answerQuality
  let reason ← stopReasonOrNone record.stopReason
  let usage ← usageFromDict b intOf record.usageSnapshot
  let run : SearchRun := {
    id := record.id, tenantId := record.tenantId, conversationId := record.conversationId
    messageId := record.messageId, responseRunId := record.responseRunId, routing, budget, usage
    startedAt := record.startedAt, completedAt := record.completedAt, version := record.version }
  run.postInit
  let run := { run with
    status, answerQuality := quality, stopReason := reason, persistedVersion := record.version }
  run.validateLoadedState
  return run

/-- A row of `search_steps`. -/
structure SearchStepRecord where
  id : Uuid
  tenantId : Uuid
  runId : Uuid
  stepKey : String
  stepType : String
  planRevision : Int
  status : String
  inputRef : Json
  outputRef : Option Json
  retryAt : Option Time
  version : Nat

/-- The row `add` inserts. -/
def SearchStep.toRecord (step : SearchStep) : SearchStepRecord where
  id := step.id
  tenantId := step.tenantId
  runId := step.runId
  stepKey := step.stepKey
  stepType := step.stepType.value
  planRevision := step.planRevision
  status := step.status.value
  inputRef := artifactToDict step.inputRef
  outputRef := step.outputRef.map artifactToDict
  retryAt := step.retryAt
  version := step.version

/-- The columns `save` writes. -/
def SearchStep.writeTo (step : SearchStep) (row : SearchStepRecord) : SearchStepRecord :=
  { row with
    status := step.status.value, outputRef := step.outputRef.map artifactToDict
    retryAt := step.retryAt, version := step.version }

/-- `save`. -/
def SearchStep.save (step : SearchStep) (row : SearchStepRecord) :
    Except Exn (SearchStepRecord × SearchStep) := do
  check (row.tenantId = step.tenantId && row.id = step.id && row.version = step.persistedVersion)
    (.invariant "Search step was modified concurrently" "optimistic_lock_failed")
  return (step.writeTo row, step.markPersisted)

/-- `artifact_from_dict(payload) if payload is not None else None`. -/
def artifactOrNone : Option Json → Except Exn (Option ArtifactRef)
  | none => .ok none
  | some payload => (artifactFromDict b payload).map some

/-- `step_from_record`. -/
def stepFromRecord (record : SearchStepRecord) : Except Exn SearchStep := do
  let kind ← stepType record.stepType
  let inputRef ← artifactFromDict b record.inputRef
  let status ← stepStatus record.status
  let outputRef ← artifactOrNone b record.outputRef
  let step : SearchStep := {
    id := record.id, tenantId := record.tenantId, runId := record.runId, stepKey := record.stepKey
    stepType := kind, planRevision := record.planRevision, inputRef, retryAt := record.retryAt
    version := record.version }
  step.postInit
  let step := { step with status, outputRef, persistedVersion := record.version }
  step.validateLoadedState
  return step

end Codec

end Sana.Orchestration.Aggregate
