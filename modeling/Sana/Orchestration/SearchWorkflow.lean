import Sana.Lib.FloatArithmetic
import Sana.Lib.Table
import Sana.Orchestration.Aggregate

/-!
# The FAST workflow as a graph

A `FastSearchGraph` is built in stages: queries fan out while it is open, fetch pipelines
once discovery is sealed, and it can be scheduled once synthesis is sealed. Its nodes are a
dictionary and keep the order they were added in; a node may only name nodes that are
there. A snapshot lists the nodes, and a graph is restored from one by adding them again.

`advance` looks at the statuses of the nodes and says which to submit, skip and cancel. A
node without a status counts as `READY`, but as a dependency it has not ended.
-/

namespace Sana.Orchestration.SearchWorkflow

open Sana.Lib Aggregate
open FloatArithmetic (toFloat)

/-! ## Nodes -/

/-- The fields of a `StepBudgetCost`. -/
structure CostFields where
  phase : BudgetPhase
  estimatedSeconds : Rat := 0
  queries : Int := 0
  providers : Int := 0
  fetches : Int := 0
  llmCalls : Int := 0
deriving DecidableEq, Repr

def CostFields.postInit (f : CostFields) : Except Exn Unit :=
  check (!(f.estimatedSeconds < 0 || f.queries < 0 || f.providers < 0 || f.fetches < 0
      || f.llmCalls < 0))
    (.valueError "Step budget cost cannot be negative")

/-- `StepBudgetCost`. -/
structure StepBudgetCost extends CostFields where
  valid : toCostFields.postInit = .ok ()
deriving DecidableEq, Repr

def StepBudgetCost.make : CostFields → Except Exn StepBudgetCost :=
  checked CostFields.postInit StepBudgetCost.mk

/-- The fields of a `WorkflowStepSpec`. -/
structure SpecFields where
  key : String
  stepType : StepType
  dependencies : List String
  budget : StepBudgetCost
  lowValueAfterDeadline : Bool
deriving DecidableEq, Repr

def SpecFields.postInit (f : SpecFields) : Except Exn Unit := do
  check (!(Text.isBlank f.key || f.dependencies.any Text.isBlank))
    (.valueError "Workflow step keys cannot be empty")
  check (f.key ∉ f.dependencies) (.valueError "Workflow step cannot depend on itself")

/-- `WorkflowStepSpec`. -/
structure WorkflowStepSpec extends SpecFields where
  valid : toSpecFields.postInit = .ok ()
deriving DecidableEq, Repr

def WorkflowStepSpec.make : SpecFields → Except Exn WorkflowStepSpec :=
  checked SpecFields.postInit WorkflowStepSpec.mk

/-! ## The graph -/

/-- `_GraphStage`. -/
inductive GraphStage
  | opened | discoverySealed | synthesisSealed
deriving DecidableEq, Repr

def GraphStage.value : GraphStage → String
  | .opened => "OPEN"
  | .discoverySealed => "DISCOVERY_SEALED"
  | .synthesisSealed => "SYNTHESIS_SEALED"

/-- `FastSearchGraph`: the dictionary of its nodes, in the order they were added. -/
structure FastSearchGraph where
  nodes : List WorkflowStepSpec
  stage : GraphStage
deriving DecidableEq, Repr

/-- `sorted(set(keys))`, printed. -/
def printSorted (b : Builtins) (keys : List String) : String :=
  b.strOf (.arr ((keys.dedup.mergeSort (· ≤ ·)).map .str))

namespace FastSearchGraph

def keys (g : FastSearchGraph) : List String := g.nodes.map (·.key)

variable (b : Builtins)

/-- `_add`. -/
def add (node : WorkflowStepSpec) : Method Exn FastSearchGraph Unit := do
  let g ← get
  .require (node.key ∉ g.keys) (.valueError ("Duplicate workflow step key: " ++ node.key))
  let missing := node.dependencies.filter (· ∉ g.keys)
  .require (missing = [])
    (.valueError ("Workflow step has unknown dependencies: " ++ printSorted b missing))
  modify fun g => { g with nodes := g.nodes ++ [node] }

def routeStep : WorkflowStepSpec where
  key := "route"
  stepType := .route
  dependencies := []
  budget := ⟨{ phase := .routePlan, estimatedSeconds := toFloat (1 / 10) }, by decide +kernel⟩
  lowValueAfterDeadline := false
  valid := by decide

def planStep : WorkflowStepSpec where
  key := "plan"
  stepType := .plan
  dependencies := ["route"]
  budget := ⟨{ phase := .routePlan, estimatedSeconds := toFloat (8 / 10) }, by decide +kernel⟩
  lowValueAfterDeadline := false
  valid := by decide

/-- `__init__`. -/
def new : FastSearchGraph :=
  (Method.call (do add b routeStep; add b planStep) { nodes := [], stage := .opened }).2

/-- `add_discovery`. -/
def addDiscovery (queryKey : String) (providerSlots : Int := 1) (estimatedSeconds : Rat := 1) :
    Method Exn FastSearchGraph String := do
  let g ← get
  .require (g.stage = .opened) (.valueError "Discovery fan-out is already sealed")
  .require (Text.isBlank queryKey = false) (.valueError "Discovery query key cannot be empty")
  let key := "discover:" ++ queryKey
  let budget ← .ofExcept (StepBudgetCost.make {
    phase := .discovery, estimatedSeconds, queries := 1, providers := providerSlots })
  let node ← .ofExcept (WorkflowStepSpec.make {
    key, stepType := .discovery, dependencies := ["plan"], budget, lowValueAfterDeadline := true })
  add b node
  return key

/-- The keys of the nodes of a type, or the one key given if there is none. -/
def keysOfType (g : FastSearchGraph) (stepType : StepType) (otherwise : String) : List String :=
  match (g.nodes.filter (·.stepType = stepType)).map (·.key) with
  | [] => [otherwise]
  | keys => keys

/-- `seal_discovery`. -/
def sealDiscovery : Method Exn FastSearchGraph Unit := do
  let g ← get
  .require (g.stage = .opened) (.valueError "Discovery fan-out is already sealed")
  let budget ← .ofExcept (StepBudgetCost.make { phase := .discovery, estimatedSeconds := toFloat (2 / 10) })
  let node ← .ofExcept (WorkflowStepSpec.make {
    key := "select", stepType := .select, dependencies := g.keysOfType .discovery "plan", budget
    lowValueAfterDeadline := true })
  add b node
  modify fun g => { g with stage := .discoverySealed }

/-- `add_fetch_pipeline`. What it was told of verification is not used. -/
def addFetchPipeline (sourceKey : String) (fetchSeconds : Rat := 1) :
    Method Exn FastSearchGraph (String × String) := do
  let g ← get
  .require (g.stage = .discoverySealed) (.valueError "Fetch pipelines require sealed discovery")
  .require (Text.isBlank sourceKey = false) (.valueError "Fetch source key cannot be empty")
  let fetchKey := "fetch:" ++ sourceKey
  let extractKey := "extract:" ++ sourceKey
  let budget ← .ofExcept (StepBudgetCost.make {
    phase := .fetchExtract, estimatedSeconds := fetchSeconds, fetches := 1 })
  let fetch ← .ofExcept (WorkflowStepSpec.make {
    key := fetchKey, stepType := .fetch, dependencies := ["select"], budget
    lowValueAfterDeadline := true })
  add b fetch
  let budget ← .ofExcept (StepBudgetCost.make {
    phase := .fetchExtract, estimatedSeconds := toFloat (2 / 10) })
  let extract ← .ofExcept (WorkflowStepSpec.make {
    key := extractKey, stepType := .extract, dependencies := [fetchKey], budget
    lowValueAfterDeadline := true })
  add b extract
  return (fetchKey, extractKey)

/-- `seal_synthesis`. -/
def sealSynthesis : Method Exn FastSearchGraph Unit := do
  let g ← get
  .require (g.stage = .discoverySealed) (.valueError "Synthesis requires sealed discovery")
  let budget ← .ofExcept (StepBudgetCost.make { phase := .verify, estimatedSeconds := toFloat (3 / 10) })
  let verify ← .ofExcept (WorkflowStepSpec.make {
    key := "verify", stepType := .verify, dependencies := g.keysOfType .extract "select", budget
    lowValueAfterDeadline := true })
  add b verify
  let budget ← .ofExcept (StepBudgetCost.make { phase := .synthesize, estimatedSeconds := toFloat (8 / 10) })
  let synthesize ← .ofExcept (WorkflowStepSpec.make {
    key := "synthesize", stepType := .synthesize, dependencies := ["verify"], budget
    lowValueAfterDeadline := false })
  add b synthesize
  modify fun g => { g with stage := .synthesisSealed }

end FastSearchGraph

/-- An operation that builds a graph. -/
inductive GraphOp
  | addDiscovery (queryKey : String) (providerSlots : Int) (estimatedSeconds : Rat)
  | sealDiscovery
  | addFetchPipeline (sourceKey : String) (fetchSeconds : Rat)
  | sealSynthesis

/-- The graph an operation leaves, whether it returned or raised. -/
def GraphOp.apply (b : Builtins) (g : FastSearchGraph) : GraphOp → FastSearchGraph
  | .addDiscovery queryKey providerSlots estimatedSeconds =>
      ((FastSearchGraph.addDiscovery b queryKey providerSlots estimatedSeconds).call g).2
  | .sealDiscovery => ((FastSearchGraph.sealDiscovery b).call g).2
  | .addFetchPipeline sourceKey fetchSeconds =>
      ((FastSearchGraph.addFetchPipeline b sourceKey fetchSeconds).call g).2
  | .sealSynthesis => ((FastSearchGraph.sealSynthesis b).call g).2

/-- The graphs the operations lead to. -/
def Built (b : Builtins) : FastSearchGraph → Prop :=
  Lib.Reachable (· = FastSearchGraph.new b) fun g g' => ∃ op : GraphOp, g' = op.apply b g

/-! ## Snapshots -/

section Snapshot

variable (b : Builtins) (intOf : String → Option Int)

/-- `WorkflowStepSpec.to_dict`. -/
def WorkflowStepSpec.toDict (node : WorkflowStepSpec) : Json := .obj [
  ("key", .str node.key),
  ("step_type", .str node.stepType.value),
  ("dependencies", .arr (node.dependencies.map .str)),
  ("budget", .obj [
    ("phase", .str node.budget.phase.value),
    ("estimated_seconds", .number node.budget.estimatedSeconds),
    ("queries", .number node.budget.queries),
    ("providers", .number node.budget.providers),
    ("fetches", .number node.budget.fetches),
    ("llm_calls", .number node.budget.llmCalls)]),
  ("low_value_after_deadline", .bool node.lowValueAfterDeadline)]

/-- `BudgetPhase(text)`. -/
def budgetPhase : String → Except Exn BudgetPhase :=
  enumOf "BudgetPhase" BudgetPhase.value [.routePlan, .discovery, .fetchExtract, .verify, .synthesize]

/-- `_GraphStage(text)`. -/
def graphStage : String → Except Exn GraphStage :=
  enumOf "_GraphStage" GraphStage.value [.opened, .discoverySealed, .synthesisSealed]

/-- `bool(value)`. -/
def truth : Json → Bool
  | .null => false
  | .bool v => v
  | .number q => q ≠ 0
  | .str s => s ≠ ""
  | .arr l => !l.isEmpty
  | .obj members => !members.isEmpty

/-- One element of what `dict(value)` is read from. A key that is no text is never looked up. -/
def entry (v : Json) : Except Exn (Option (String × Json)) := do
  match ← v.items with
  | [.str k, x] => return some (k, x)
  | [.arr _, _] | [.obj _, _] => throw (.typeError "unhashable type")
  | [_, _] => return none
  | _ => throw (.valueError "dictionary update sequence element has another length; 2 is required")

/-- `dict(value)`: of a mapping, or of a sequence of pairs. -/
def dict : Json → Except Exn Json
  | .obj members => .ok (.obj members)
  | v => do return .obj (dictOf ((← (← v.items).mapM entry).filterMap id))

/-- `WorkflowStepSpec.from_dict`. -/
def WorkflowStepSpec.fromDict (payload : Json) : Except Exn WorkflowStepSpec := do
  let budget ← dict (← payload.member "budget")
  let key := (← payload.member "key").text b
  let stepType ← stepType ((← payload.member "step_type").text b)
  let dependencies := (← (← getOr "dependencies" (.arr []) payload).items).map (·.text b)
  let phase ← budgetPhase ((← budget.member "phase").text b)
  let estimatedSeconds ← (← getOr "estimated_seconds" (.number 0) budget).float b
  let queries ← int intOf (← getOr "queries" (.number 0) budget)
  let providers ← int intOf (← getOr "providers" (.number 0) budget)
  let fetches ← int intOf (← getOr "fetches" (.number 0) budget)
  let llmCalls ← int intOf (← getOr "llm_calls" (.number 0) budget)
  let budget ← StepBudgetCost.make {
    phase, estimatedSeconds, queries, providers, fetches, llmCalls }
  let lowValueAfterDeadline := truth (← payload.member "low_value_after_deadline")
  WorkflowStepSpec.make { key, stepType, dependencies, budget, lowValueAfterDeadline }

namespace FastSearchGraph

/-- `to_dict`. -/
def toDict (g : FastSearchGraph) : Json := .obj [
  ("schema_version", .number 1),
  ("workflow", .str SearchMode.fast.value),
  ("stage", .str g.stage.value),
  ("nodes", .arr (g.nodes.map (·.toDict)))]

/-- `value == 1`. -/
def isOne : Json → Bool
  | .number q => q = 1
  | .bool v => v
  | _ => false

/-- `value == "FAST"`. -/
def isFast : Json → Bool
  | .str s => s = "FAST"
  | _ => false

/-- One turn of the loop of `from_dict`. -/
def addFromDict (value : Json) : Method Exn FastSearchGraph Unit :=
  match value with
  | .obj members => do
      let node ← .ofExcept (WorkflowStepSpec.fromDict b intOf (.obj members))
      add b node
  | _ => throw (.valueError "Workflow graph node must be an object")

/-- The nodes of a snapshot: a list with something in it. -/
def snapshotNodes : Json → Except Exn (List Json)
  | .arr (v :: l) => .ok (v :: l)
  | _ => .error (.valueError "Workflow graph snapshot has no nodes")

/-- The body of `from_dict`, on a graph that has no nodes yet. -/
def load (payload : Json) : Method Exn FastSearchGraph Unit := do
  let version ← .ofExcept (getOr "schema_version" .null payload)
  let workflow ← .ofExcept (getOr "workflow" .null payload)
  .require (isOne version = true ∧ isFast workflow = true)
    (.valueError "Unsupported FAST workflow graph snapshot")
  let stage ← .ofExcept (payload.member "stage")
  let stage ← .ofExcept (graphStage (stage.text b))
  modify fun g => { g with stage }
  let nodes ← .ofExcept (getOr "nodes" .null payload)
  let nodes ← .ofExcept (snapshotNodes nodes)
  nodes.forM (addFromDict b intOf)
  let g ← get
  .require ("route" ∈ g.keys ∧ "plan" ∈ g.keys)
    (.valueError "Workflow graph snapshot lacks required bootstrap steps")
  .require (¬(g.stage ≠ .opened ∧ "select" ∉ g.keys))
    (.valueError "Sealed workflow graph snapshot lacks select step")
  .require (¬(g.stage = .synthesisSealed ∧ "synthesize" ∉ g.keys))
    (.valueError "Sealed workflow graph snapshot lacks synthesis step")

/-- `from_dict`. -/
def fromDict (payload : Json) : Except Exn FastSearchGraph :=
  match (load b intOf payload).call { nodes := [], stage := .opened } with
  | (.ok (), g) => .ok g
  | (.error e, _) => .error e

end FastSearchGraph

end Snapshot

/-! ## Scheduling -/

/-- The statuses of the nodes, a dictionary. -/
abbrev Statuses := List (String × StepStatus)

namespace Statuses

/-- `statuses.get(key)`. -/
def get (statuses : Statuses) (key : String) : Option StepStatus := statuses.lookup key

/-- `statuses.get(key, StepStatus.READY)`. -/
def getReady (statuses : Statuses) (key : String) : StepStatus := (statuses.get key).getD .ready

/-- `statuses[key] = status`. -/
def set (key : String) (status : StepStatus) : Statuses → Statuses
  | [] => [(key, status)]
  | (k, s) :: rest => if k = key then (k, status) :: rest else (k, s) :: set key status rest

end Statuses

/-- `WorkflowAdvance`. -/
structure WorkflowAdvance where
  submit : List WorkflowStepSpec
  cancel : List String
  skip : List String
  releaseReservations : List String
  deadlineFallback : Bool
deriving DecidableEq, Repr

/-- `BudgetGuard.non_synthesis_deadline`. -/
def nonSynthesisDeadline (guard : BudgetSnapshot) : Time :=
  guard.softDeadlineAt - guard.synthesisReserve

namespace FastSearchGraph

variable (g : FastSearchGraph) (statuses : Statuses)

/-- `self._nodes[key]`. -/
def node (key : String) : Option WorkflowStepSpec := lookup (·.key) key g.nodes

/-- `self._nodes[key].step_type in types`; what a node depends on is a node. -/
def isOfType (types : List StepType) (key : String) : Bool :=
  match g.node key with
  | some node => node.stepType ∈ types
  | none => false

/-- `status in terminal`. -/
def ended (status : Option StepStatus) : Bool :=
  match status with
  | some s => s ∈ [.succeeded, .failed, .skipped, .cancelled]
  | none => false

/-- The condition of `skip`. -/
def skips (node : WorkflowStepSpec) : Bool :=
  node.stepType ∈ [StepType.extract, .verify]
    && statuses.getReady node.key = .ready
    && node.dependencies.all (fun d => ended (statuses.get d))
    && if node.stepType = .extract then
        node.dependencies.any (fun d => statuses.get d ≠ some .succeeded)
      else node.dependencies.all (fun d => statuses.get d ≠ some .succeeded)

/-- `dependencies_satisfied`. -/
def dependenciesSatisfied (node : WorkflowStepSpec) : Bool :=
  let dependencyStatuses := node.dependencies.map statuses.get
  if node.stepType ∈ [StepType.select, .synthesize]
      ∧ node.dependencies.all (g.isOfType [.discovery, .verify]) = true then
    dependencyStatuses.all ended
  else if node.stepType = .verify ∧ node.dependencies.all (g.isOfType [.extract]) = true then
    dependencyStatuses.all ended && dependencyStatuses.any (· = some .succeeded)
  else dependencyStatuses.all (· = some .succeeded)

/-- What is left to do once the deadline has passed: only synthesis. -/
def fallback : Except Exn WorkflowAdvance :=
  let cancel := (g.nodes.filter fun node => node.lowValueAfterDeadline
    && statuses.getReady node.key ∈ [StepStatus.ready, .running, .retryWait]).map (·.key)
  match g.node "synthesize" with
  | none => .error (.keyError "synthesize")
  | some synthesize => .ok {
      submit := if statuses.getReady "synthesize" = .ready then [synthesize] else []
      cancel, skip := []
      releaseReservations := cancel.filter fun key =>
        statuses.getReady key ∈ [StepStatus.ready, .retryWait]
      deadlineFallback := true }

/-- What to do before the deadline. -/
def schedule : WorkflowAdvance :=
  let skip := (g.nodes.filter (skips statuses)).map (·.key)
  { submit := g.nodes.filter fun node => statuses.getReady node.key = .ready
      && node.key ∉ skip && g.dependenciesSatisfied statuses node
    cancel := [], skip, releaseReservations := [], deadlineFallback := false }

/-- `advance`. -/
def advance (b : Builtins) (guard : BudgetSnapshot) (now : Time) : Except Exn WorkflowAdvance := do
  check (g.stage = .synthesisSealed)
    (.valueError "Workflow graph must be sealed before scheduling")
  let unknown := (statuses.map (·.1)).filter (· ∉ g.keys)
  check (unknown = []) (.valueError ("Statuses contain unknown steps: " ++ printSorted b unknown))
  if nonSynthesisDeadline guard ≤ now then g.fallback statuses else return g.schedule statuses

end FastSearchGraph

/-- Carry out a decision: the submitted nodes run. -/
def WorkflowAdvance.apply (decision : WorkflowAdvance) (statuses : Statuses) : Statuses :=
  let statuses := decision.cancel.foldl (fun s key => s.set key .cancelled) statuses
  let statuses := decision.skip.foldl (fun s key => s.set key .skipped) statuses
  decision.submit.foldl (fun s node => s.set node.key .running) statuses

/-- One step of a run of the workflow. -/
inductive Step (b : Builtins) (g : FastSearchGraph) : Statuses → Statuses → Prop
  /-- The next decision is made, at any time and under any budget, and carried out. -/
  | advance {statuses : Statuses} {guard : BudgetSnapshot} {now : Time} {decision : WorkflowAdvance}
      (h : g.advance statuses b guard now = .ok decision) :
      Step b g statuses (decision.apply statuses)
  /-- A node that was submitted ends, or goes on to another attempt. -/
  | report {statuses : Statuses} {key : String} {status status' : StepStatus}
      (h : statuses.get key = some status) (hsub : status = .running ∨ status = .retryWait)
      (hnext : status' ∈ status.transitions) :
      Step b g statuses (statuses.set key status')

/-- The statuses a run of the workflow leads to. -/
def Runs (b : Builtins) (g : FastSearchGraph) : Statuses → Prop :=
  Lib.Reachable (· = []) (Step b g)

end Sana.Orchestration.SearchWorkflow
