import Mathlib.Data.List.Dedup
import Sana.Orchestration.Store

/-!
# The completion coordinator

`WorkflowCompletionCoordinator` runs inside the transaction that ends a step. It
looks at the run's other steps, schedules what comes next and, where nothing
comes next, ends the run. It never saves the step or the run itself: the caller
does, after it returns. So in every query below the row of the current step still
shows its old status, and `statusOf` puts the new one in its place.

The fan-in decisions are `maybeSelect` (all searches have ended), `maybeVerify`
(all fetches and extracts have ended, or a FAST run already has what it needs)
and `maybeSynthesize` (everything has ended).
-/

namespace Sana.Orchestration

open Sana.Lib

/-- The services outside the database: artifact payloads and the two digests. -/
structure Ports where
  /-- `ArtifactStore.get_json`, where the payload is an object. -/
  artifacts : ArtifactRef → Option Payload
  /-- `uuid.uuid5`. -/
  uuid5 : Uuid → String → Uuid
  /-- Hex digest of a text's UTF-8 bytes. -/
  sha256 : String → String

namespace Coordinator

variable (ports : Ports) (env : Env)

/-- `_payload`. -/
def payload (ref : ArtifactRef) : Except Exn Payload :=
  match ports.artifacts ref with
  | some p => .ok p
  | none => .error (.typeError "Workflow artifact must contain a JSON object")

/-- `_event_type`. -/
def eventType (run : SearchRun) (stepType : StepType) : String :=
  if stepType = .fetch then "STEP_READY_CRAWL"
  else if run.mode = .research then "STEP_READY_RESEARCH" else "STEP_READY_FAST"

/-- The query of `_add_step`: does the run already have a step under this key? -/
def stepExists (t : Tables) (run : SearchRun) (planRevision : Nat) (key : String) : Bool :=
  t.steps.any fun s => s.runId = run.id && s.planRevision = planRevision && s.stepKey = key

/-- The row `_add_step` stages. -/
def newStep (id : Uuid) (run : SearchRun) (key : String) (stepType : StepType)
    (input : StepInput) : SearchStep :=
  { id, runId := run.id, stepKey := key, stepType, planRevision := 1, input }

/-- `_add_step`: stage a step and the message that dispatches it, unless the key is taken. -/
def addStep (u : Uow) (run : SearchRun) (key : String) (stepType : StepType)
    (input : StepInput) : Except Exn Uow := do
  if stepExists u.tables run 1 key then
    return u
  let (stepId, u) := u.newUuid env
  check (!Text.isBlank key) (.valueError "step_key cannot be empty")
  let u := { u with newSteps := u.newSteps ++ [newStep stepId run key stepType input] }
  let (outboxId, u) := u.newUuid env
  return { u with newOutbox := u.newOutbox ++ [{
    id := outboxId, aggregateType := "search_step", aggregateId := stepId
    eventType := eventType run stepType, dedupeKey := "step-ready:" ++ stepId.str
    availableAt := env.hookNow, createdAt := env.hookNow }] }

/-- `_status`: the row's status, except that the current step's is the one in memory. -/
def statusOf (row current : SearchStep) : StepStatus :=
  if row.id = current.id then current.status else row.status

/-- Not in `_TERMINAL`. -/
def isLive (row current : SearchStep) : Bool := !(statusOf row current).isTerminal

/-- `_plan_reference`. -/
def planReference (t : Tables) (run : SearchRun) (current : SearchStep) :
    Except Exn ArtifactRef :=
  let stored := (t.steps.find? fun s =>
    s.runId = run.id && s.stepKey = "plan" && s.status = .succeeded).bind (·.outputRef)
  let own := if current.stepType = .plan && current.status = .succeeded then current.outputRef
    else none
  match own, stored with
  | some ref, _ => .ok ref
  | none, some ref => .ok ref
  | none, none => .error (.runtimeError "Run cannot advance without a successful plan artifact")

/-- `_maybe_select`. -/
def maybeSelect (u : Uow) (run : SearchRun) (current : SearchStep) : Except Exn Uow := do
  let rows := (u.tables.stepRows run.id).filter (·.stepType = .discovery)
  if rows.isEmpty || rows.any (isLive · current) then
    return u
  let references := rows.filterMap fun row =>
    if statusOf row current ≠ .succeeded then none
    else if row.id = current.id then current.outputRef else row.outputRef
  let planRef ← planReference u.tables run current
  addStep env u run "select" .select (.selection planRef references)

/-- `sorted(set(codes))`. -/
def sortedSet (codes : List String) : List String := codes.dedup.insertionSort (· ≤ ·)

/-- The codes `_maybe_synthesize` derives from steps that ended badly. -/
def rowCodes (rows : List SearchStep) (current : SearchStep) : List String :=
  rows.filterMap fun row =>
    let status := statusOf row current
    if status = .failed ∨ status = .cancelled then
      some (Text.lowerAscii row.stepType.value ++ "_" ++ Text.lowerAscii status.value)
    else none

/-- Outputs of the run's steps of one kind, the current step's appended where it is missing. -/
def outputsOf (kind : StepType) (rows : List SearchStep) (current : SearchStep) :
    List ArtifactRef :=
  let refs := rows.filterMap fun row =>
    if row.stepType = kind ∧ statusOf row current = .succeeded then row.outputRef else none
  if current.stepType = kind ∧ current.status = .succeeded then
    match current.outputRef with
    | some ref => if ref ∈ refs then refs else refs ++ [ref]
    | none => refs
  else refs

/-- The selection artifact `_maybe_synthesize` reads the provider failures from. -/
def selectRef (rows : List SearchStep) (current : SearchStep) : Option ArtifactRef :=
  if current.stepType = .select ∧ current.status = .succeeded then current.outputRef
  else (rows.find? (·.stepType = .select)).bind (·.outputRef)

/-- The provider failures the selection reports; none where the run selected nothing. -/
def selectionFailures (rows : List SearchStep) (current : SearchStep) : Except Exn Int :=
  match selectRef rows current with
  | some ref => (payload ports ref).map (·.providerFailures)
  | none => .ok 0

/-- The error two verify outputs would raise. -/
def manyVerifyOutputs : Exn := .valueError "Workflow produced more than one VERIFY output"

/-- `_maybe_synthesize`. -/
def maybeSynthesize (u : Uow) (run : SearchRun) (current : SearchStep)
    (degradationCodes : List String) : Except Exn Uow := do
  let rows := u.tables.stepRows run.id
  let nonSynthesis := rows.filter (·.stepType ≠ .synthesize)
  if nonSynthesis.any (isLive · current) then
    return u
  let codes := degradationCodes ++ rowCodes nonSynthesis current
  let planRef ← planReference u.tables run current
  let verifyRefs := outputsOf .verify rows current
  check (verifyRefs.length ≤ 1) manyVerifyOutputs
  let providerFailures ← selectionFailures ports rows current
  addStep env u run "synthesize" .synthesize (.synthesis {
    planRef, verifyRef := verifyRefs.head?, providerFailures
    pipelineDegradationCodes := sortedSet codes })

/-- The fact ids a hit is tagged with: its list, or its single id where the list is empty. -/
def hitFactIds (hit : Option Hit) : List String :=
  match hit with
  | none => []
  | some h => if h.factIds.isEmpty then h.factId.toList else h.factIds

/--
The early exit of `_maybe_verify`: a FAST run may verify before its fetches have
ended if everything extracted so far came from a direct source and already
covers the required facts.
-/
def earlyVerify (run : SearchRun) (planRef : ArtifactRef) (extractRefs : List ArtifactRef) :
    Except Exn Bool := do
  if run.mode ≠ .fast then
    return false
  let extracted ← extractRefs.mapM (payload ports)
  if extracted.any fun p => (p.hit.map (·.provider)).getD "" ≠ "direct" then
    return false
  let plan ← payload ports planRef
  let required := (plan.facts.filter (·.required)).map (·.id)
  let covered := extracted.flatMap fun p => hitFactIds p.hit
  return !required.isEmpty && required.all (· ∈ covered)

/-- `_maybe_verify`. -/
def maybeVerify (u : Uow) (run : SearchRun) (current : SearchStep)
    (degradationCodes : List String) : Except Exn Uow := do
  let rows := u.tables.stepRows run.id
  let fetchExtract := rows.filter fun row => row.stepType = .fetch || row.stepType = .extract
  let allTerminal := !fetchExtract.any (isLive · current)
  let extractRefs := outputsOf .extract rows current
  match rows.find? (·.stepType = .verify) with
  | some existing =>
      if allTerminal && !isLive existing current then
        maybeSynthesize ports env u run current degradationCodes
      else return u
  | none =>
      if extractRefs.isEmpty then
        if allTerminal then maybeSynthesize ports env u run current degradationCodes
        else return u
      else
        let planRef ← planReference u.tables run current
        let admitted ← if allTerminal then .ok true else earlyVerify ports run planRef extractRefs
        if admitted then addStep env u run "verify" .verify (.verify planRef extractRefs)
        else return u

/-- Schedule one step per entry of a list, in order. -/
def addSteps {α : Type} (u : Uow) (run : SearchRun) (key : α → String) (stepType : StepType)
    (input : α → StepInput) : List α → Except Exn Uow
  | [] => .ok u
  | a :: rest => do
      let u ← addStep env u run (key a) stepType (input a)
      addSteps u run key stepType input rest

/-- `f"discover:{query['key']}"`. -/
def discoverKey (query : PlannedQuery) : String := "discover:" ++ query.key

/-- `f"fetch:{index}:{hit['id']}"`, with indices from one. -/
def fetchKey (indexed : Nat × Hit) : String :=
  "fetch:" ++ toString indexed.1 ++ ":" ++ indexed.2.id

/-- `enumerate(hits, start=1)`. -/
def enumerate (hits : List Hit) : List (Nat × Hit) :=
  hits.zipIdx.map fun p => (p.2 + 1, p.1)

/-- `_persist_answer`: the assistant message, the response run and the conversation's timestamp. -/
def persistAnswer (t : Tables) (run : SearchRun) (p : Payload) : Except Exn Tables := do
  let some answer := p.answer | .error (.keyError "answer")
  let message : Message := {
    id := ports.uuid5 run.id "assistant-message", conversationId := run.conversationId
    authorUserId := none, role := .assistant, content := answer
    idempotencyKey := some ("assistant:" ++ run.id.str), createdAt := env.hookNow }
  let conflict := t.messages.any fun m => m.id = message.id
    || (m.conversationId = message.conversationId && m.idempotencyKey = message.idempotencyKey)
  return { t with
    messages := if conflict then t.messages else t.messages ++ [message]
    responseRuns := update (·.id) run.responseRunId
      (fun r => { r with status := .succeeded, outputMessageId := some message.id,
                         updatedAt := env.hookNow }) t.responseRuns
    conversations := update (·.id) run.conversationId
      (fun c => { c with updatedAt := env.hookNow }) t.conversations }

/-- `_fail_run`. -/
def failRun (u : Uow) (run : SearchRun) (reason : StopReason) : Except Exn (Uow × SearchRun) := do
  let run ← if run.isTerminal then .ok run else run.fail reason env.hookNow
  return ({ u with tables := { u.tables with
    responseRuns := update (·.id) run.responseRunId
      (fun r => { r with status := .failed, updatedAt := env.hookNow }) u.tables.responseRuns } },
    run)

/-- `on_success`. -/
def onSuccess (u : Uow) (run : SearchRun) (step : SearchStep) (outputRef : ArtifactRef) :
    Except Exn (Uow × SearchRun) := do
  let p ← payload ports outputRef
  match step.stepType with
  | .route => return (← addStep env u run "plan" .plan (.artifact outputRef), run)
  | .plan =>
      let u ← addSteps env u run discoverKey .discovery
        (fun q => .discovery outputRef q (q.providers.getD p.providers)) p.queries
      if p.queries.isEmpty then
        return (← maybeSynthesize ports env u run step [], run)
      return (u, run)
  | .discovery => return (← maybeSelect env u run step, run)
  | .select =>
      if p.selected.isEmpty then
        return (← maybeSynthesize ports env u run step [], run)
      let some planRef := p.planRef | .error (.keyError "plan_ref")
      return (← addSteps env u run fetchKey .fetch (fun i => .fetch planRef i.2)
        (enumerate p.selected), run)
  | .fetch =>
      return (← addStep env u run (Text.replaceFirst step.stepKey "fetch:" "extract:") .extract
        (.artifact outputRef), run)
  | .extract => return (← maybeVerify ports env u run step [], run)
  | .verify => return (← maybeSynthesize ports env u run step [], run)
  | .synthesize =>
      let t ← persistAnswer ports env u.tables run p
      let some quality := p.quality | .error (.keyError "quality")
      let some reason := p.stopReason | .error (.keyError "stop_reason")
      return ({ u with tables := t }, ← run.succeed quality reason env.hookNow)
  | .complete => return (u, run)

/-- `on_failure`. -/
def onFailure (u : Uow) (run : SearchRun) (step : SearchStep) (error : TypedError)
    (disposition : Disposition) : Except Exn (Uow × SearchRun) := do
  if disposition = .retryScheduled || run.isTerminal then
    return (u, run)
  match step.stepType with
  | .route | .plan | .synthesize => failRun env u run .infrastructureFailure
  | .discovery => return (← maybeSelect env u run step, run)
  | .fetch | .extract => return (← maybeVerify ports env u run step [error.code], run)
  | .select | .verify | .complete =>
      return (← maybeSynthesize ports env u run step [error.code], run)

end Coordinator

end Sana.Orchestration
