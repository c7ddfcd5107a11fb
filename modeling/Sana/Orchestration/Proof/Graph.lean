import Sana.Lib.Dependencies
import Sana.Orchestration.SearchWorkflow
import Sana.Orchestration.Proof.Aggregate

/-!
# A workflow graph is restored from its snapshot

A graph only grows at its end, by `_add`, which refuses a key that is taken and a
dependency that is not there. So the nodes are listed after what they depend on, in a graph
that was built and in one that was restored: the keys are distinct and nothing depends on
itself. Restoring a graph that was built adds its nodes in the order they were added in, and
no check that passed then fails now.

What a node looks like follows from its type (`Form`). The scheduling results rest on that
too, so it is kept here with the rest of the invariant.
-/

namespace Sana.Orchestration.SearchWorkflow

open Sana.Lib Aggregate Method

/-! ## What is built has the fields it was built from -/

theorem checked_ok {α β : Type} {postInit : α → Except Exn Unit}
    {build : (a : α) → postInit a = .ok () → β} {a : α} {v : β}
    (h : checked postInit build a = .ok v) : ∃ hv, v = build a hv := by
  unfold checked at h
  split at h
  · rename_i hv
    exact ⟨hv, (Except.ok.inj h).symm⟩
  · cases h

theorem WorkflowStepSpec.make_ok {f : SpecFields} {node : WorkflowStepSpec}
    (h : WorkflowStepSpec.make f = .ok node) : node.toSpecFields = f := by
  obtain ⟨hv, rfl⟩ := checked_ok h
  rfl

/-! ## The shape of a graph -/

section Shape

variable {nodes nodes' : List WorkflowStepSpec} {node : WorkflowStepSpec}

/-- There is a node of a type under a key. -/
def HasType (nodes : List WorkflowStepSpec) (stepType : StepType) (key : String) : Prop :=
  ∃ node ∈ nodes, node.key = key ∧ node.stepType = stepType

/-- What the nodes of a graph look like, by their types. -/
inductive Form (nodes : List WorkflowStepSpec) (node : WorkflowStepSpec) : Prop
  | route (htype : node.stepType = .route) (hkey : node.key = "route")
      (hdeps : node.dependencies = [])
  | plan (htype : node.stepType = .plan) (hkey : node.key = "plan")
      (hdeps : node.dependencies = ["route"])
  | discovery (htype : node.stepType = .discovery) (hkey : ∃ q, node.key = "discover:" ++ q)
      (hdeps : node.dependencies = ["plan"])
  | select (htype : node.stepType = .select) (hkey : node.key = "select")
      (hdeps : node.dependencies = ["plan"] ∨ ∀ d ∈ node.dependencies, HasType nodes .discovery d)
  | fetch (htype : node.stepType = .fetch) (hkey : ∃ s, node.key = "fetch:" ++ s)
      (hdeps : node.dependencies = ["select"])
  | extract (htype : node.stepType = .extract) (hkey : ∃ s, node.key = "extract:" ++ s)
      (hdeps : ∀ d ∈ node.dependencies, HasType nodes .fetch d)
  | verify (htype : node.stepType = .verify) (hkey : node.key = "verify")
      (hlow : node.lowValueAfterDeadline = true)
      (hdeps : node.dependencies = ["select"] ∨
        node.dependencies ≠ [] ∧ ∀ d ∈ node.dependencies, HasType nodes .extract d)
  | synthesize (htype : node.stepType = .synthesize) (hkey : node.key = "synthesize")
      (hlow : node.lowValueAfterDeadline = false) (hdeps : node.dependencies = ["verify"])

theorem HasType.mono (hsub : nodes ⊆ nodes') {t : StepType} {key : String}
    (h : HasType nodes t key) : HasType nodes' t key := by
  obtain ⟨node, hmem, hnode⟩ := h
  exact ⟨node, hsub hmem, hnode⟩

theorem Form.mono (hsub : nodes ⊆ nodes') (h : Form nodes node) : Form nodes' node := by
  cases h with
  | route htype hkey hdeps => exact .route htype hkey hdeps
  | plan htype hkey hdeps => exact .plan htype hkey hdeps
  | discovery htype hkey hdeps => exact .discovery htype hkey hdeps
  | select htype hkey hdeps =>
      exact .select htype hkey (hdeps.imp_right fun h d hd => (h d hd).mono hsub)
  | fetch htype hkey hdeps => exact .fetch htype hkey hdeps
  | extract htype hkey hdeps => exact .extract htype hkey fun d hd => (hdeps d hd).mono hsub
  | verify htype hkey hlow hdeps =>
      refine .verify htype hkey hlow (hdeps.imp_right fun h => ⟨h.1, fun d hd => ?_⟩)
      exact (h.2 d hd).mono hsub
  | synthesize htype hkey hlow hdeps => exact .synthesize htype hkey hlow hdeps

/-- **The invariant of a graph that is built.** -/
structure WellFormed (g : FastSearchGraph) : Prop where
  listed : Listed (·.key) (·.dependencies) g.nodes
  forms : ∀ node ∈ g.nodes, Form g.nodes node
  bootstrap : "route" ∈ g.keys ∧ "plan" ∈ g.keys
  selected : g.stage ≠ .opened → "select" ∈ g.keys
  synthesized : g.stage = .synthesisSealed → "synthesize" ∈ g.keys

end Shape

namespace FastSearchGraph

variable {b : Builtins} {g : FastSearchGraph} {node : WorkflowStepSpec}

/-- The graph with one more node. -/
def push (g : FastSearchGraph) (node : WorkflowStepSpec) : FastSearchGraph :=
  { g with nodes := g.nodes ++ [node] }

theorem keys_push (g : FastSearchGraph) (node : WorkflowStepSpec) :
    (g.push node).keys = g.keys ++ [node.key] := by
  simp [keys, push]

/-- **What `_add` does.** -/
theorem ensures_add {P E : FastSearchGraph → Prop} {Q : Unit → FastSearchGraph → Prop}
    (hE : ∀ g, P g → E g)
    (hQ : ∀ g, P g → node.key ∉ g.keys → (∀ d ∈ node.dependencies, d ∈ g.keys) →
      Q () (g.push node)) :
    Ensures P (add b node) Q E := by
  refine Ensures.bind ensures_get fun g₀ => ?_
  refine Ensures.bind (ensures_require fun g hg => hE g hg.1) fun _ => ?_
  refine Ensures.bind (ensures_require fun g hg => hE g hg.1.1) fun _ => ?_
  refine (ensures_modify (S := Q ()) ?_).weaken (fun _ h => h) (fun _ _ h => h) fun _ h => h
  rintro g ⟨⟨⟨hg, rfl⟩, hfresh⟩, hmissing⟩
  refine hQ g₀ hg hfresh fun d hd => ?_
  by_contra hd'
  have : d ∈ node.dependencies.filter (· ∉ g₀.keys) := List.mem_filter.mpr ⟨hd, by simpa using hd'⟩
  rw [hmissing] at this
  simp at this

/-- **A node of its form may be added.** -/
theorem wellFormed_push (h : WellFormed g) (hfresh : node.key ∉ g.keys)
    (hdeps : ∀ d ∈ node.dependencies, d ∈ g.keys) (hform : Form (g.push node).nodes node) :
    WellFormed (g.push node) where
  listed := h.listed.snoc hfresh hdeps
  forms := by
    intro n hn
    rcases List.mem_append.mp hn with hn | hn
    · exact (h.forms n hn).mono (List.subset_append_left _ _)
    · rw [List.mem_singleton.mp hn]
      exact hform
  bootstrap := by
    rw [keys_push]
    exact ⟨List.mem_append_left _ h.bootstrap.1, List.mem_append_left _ h.bootstrap.2⟩
  selected := by
    intro hstage
    rw [keys_push]
    exact List.mem_append_left _ (h.selected hstage)
  synthesized := by
    intro hstage
    rw [keys_push]
    exact List.mem_append_left _ (h.synthesized hstage)

theorem wellFormed_new (b : Builtins) : WellFormed (new b) := by
  have hnodes : new b = { nodes := [routeStep, planStep], stage := .opened } := rfl
  rw [hnodes]
  refine ⟨?_, ?_, by decide, fun h => absurd rfl h, fun h => by cases h⟩
  · have hroute : Listed (κ := String) (α := WorkflowStepSpec) (·.key) (·.dependencies) ([] ++ [routeStep]) :=
      .snoc .nil (by simp) (by simp [routeStep])
    exact hroute.snoc (x := planStep) (by decide) (by decide)
  · intro n hn
    rcases List.mem_pair.mp hn with rfl | rfl
    · exact .route rfl rfl rfl
    · exact .plan rfl rfl rfl

theorem hasType_of_mem_keysOfType {t : StepType} {otherwise : String} :
    g.keysOfType t otherwise = [otherwise] ∨
      g.keysOfType t otherwise ≠ [] ∧ ∀ d ∈ g.keysOfType t otherwise, HasType g.nodes t d := by
  unfold keysOfType
  split
  · exact .inl rfl
  · rename_i keys hne
    refine .inr ⟨hne, fun d hd => ?_⟩
    obtain ⟨node, hmem, rfl⟩ := List.mem_map.mp hd
    obtain ⟨hmem, htype⟩ := List.mem_filter.mp hmem
    exact ⟨node, hmem, rfl, of_decide_eq_true htype⟩

theorem ensures_addDiscovery (queryKey : String) (providerSlots : Int) (estimatedSeconds : Rat) :
    Ensures WellFormed (addDiscovery b queryKey providerSlots estimatedSeconds)
      (fun _ => WellFormed) WellFormed := by
  refine Ensures.bind ensures_get fun g₀ => ?_
  refine Ensures.bind (ensures_require fun g hg => hg.1) fun _ => ?_
  refine Ensures.bind (ensures_require fun g hg => hg.1.1) fun _ => ?_
  refine Ensures.bind (ensures_ofExcept fun g hg => hg.1.1.1) fun budget => ?_
  refine Ensures.bind (ensures_ofExcept fun g hg => hg.1.1.1.1) fun node => ?_
  refine Ensures.bind (Q := fun _ => WellFormed) (ensures_add (fun g hg => hg.1.1.1.1.1) ?_) fun _ =>
    ensures_pure fun _ h => h
  rintro g ⟨⟨⟨⟨⟨hg, -⟩, -⟩, -⟩, -⟩, hmake⟩ hfresh hdeps
  have hnode := WorkflowStepSpec.make_ok hmake
  exact wellFormed_push hg hfresh hdeps
    (.discovery (by rw [hnode]) ⟨queryKey, by rw [hnode]⟩ (by rw [hnode]))

theorem ensures_sealDiscovery : Ensures WellFormed (sealDiscovery b) (fun _ => WellFormed) WellFormed := by
  refine Ensures.bind ensures_get fun g₀ => ?_
  refine Ensures.bind (ensures_require fun g hg => hg.1) fun _ => ?_
  refine Ensures.bind (ensures_ofExcept fun g hg => hg.1.1) fun budget => ?_
  refine Ensures.bind (ensures_ofExcept fun g hg => hg.1.1.1) fun node => ?_
  refine Ensures.bind (Q := fun _ g => WellFormed g ∧ "select" ∈ g.keys)
    (ensures_add (fun g hg => hg.1.1.1.1) ?_) fun _ => ensures_modify ?_
  · rintro g ⟨⟨⟨⟨hg, rfl⟩, -⟩, -⟩, hmake⟩ hfresh hdeps
    have hnode := WorkflowStepSpec.make_ok hmake
    refine ⟨wellFormed_push hg hfresh hdeps (.select (by rw [hnode]) (by rw [hnode]) ?_), ?_⟩
    · rw [hnode]
      refine hasType_of_mem_keysOfType.imp_right fun h d hd => ?_
      exact (h.2 d hd).mono (List.subset_append_left _ _)
    · rw [keys_push, hnode]
      simp
  · rintro g ⟨hg, hselect⟩
    exact ⟨hg.listed, hg.forms, hg.bootstrap, fun _ => hselect, fun h => by cases h⟩

theorem ensures_addFetchPipeline (sourceKey : String) (fetchSeconds : Rat) :
    Ensures WellFormed (addFetchPipeline b sourceKey fetchSeconds) (fun _ => WellFormed)
      WellFormed := by
  refine Ensures.bind ensures_get fun g₀ => ?_
  refine Ensures.bind (ensures_require fun g hg => hg.1) fun _ => ?_
  refine Ensures.bind (ensures_require fun g hg => hg.1.1) fun _ => ?_
  refine Ensures.bind (ensures_ofExcept fun g hg => hg.1.1.1) fun budget => ?_
  refine Ensures.bind (ensures_ofExcept fun g hg => hg.1.1.1.1) fun fetch => ?_
  refine Ensures.bind
    (Q := fun _ g => WellFormed g ∧ HasType g.nodes .fetch ("fetch:" ++ sourceKey))
    (ensures_add (fun g hg => hg.1.1.1.1.1) ?_) fun _ => ?_
  · rintro g ⟨⟨⟨⟨⟨hg, -⟩, -⟩, -⟩, -⟩, hmake⟩ hfresh hdeps
    have hnode := WorkflowStepSpec.make_ok hmake
    refine ⟨wellFormed_push hg hfresh hdeps
      (.fetch (by rw [hnode]) ⟨sourceKey, by rw [hnode]⟩ (by rw [hnode])), fetch, ?_, ?_⟩
    · exact List.mem_append_right _ (List.mem_singleton_self _)
    · rw [hnode]
      exact ⟨rfl, rfl⟩
  · refine Ensures.bind (ensures_ofExcept fun g hg => hg.1) fun budget => ?_
    refine Ensures.bind (ensures_ofExcept fun g hg => hg.1.1) fun extract => ?_
    refine Ensures.bind (Q := fun _ => WellFormed) (ensures_add (fun g hg => hg.1.1.1) ?_) fun _ =>
      ensures_pure fun _ h => h
    rintro g ⟨⟨⟨hg, hfetch⟩, -⟩, hmake⟩ hfresh hdeps
    have hnode := WorkflowStepSpec.make_ok hmake
    refine wellFormed_push hg hfresh hdeps
      (.extract (by rw [hnode]) ⟨sourceKey, by rw [hnode]⟩ fun d hd => ?_)
    rw [hnode] at hd
    rw [List.mem_singleton.mp hd]
    exact hfetch.mono (List.subset_append_left _ _)

theorem ensures_sealSynthesis : Ensures WellFormed (sealSynthesis b) (fun _ => WellFormed) WellFormed := by
  refine Ensures.bind ensures_get fun g₀ => ?_
  refine Ensures.bind (ensures_require fun g hg => hg.1) fun _ => ?_
  refine Ensures.bind (ensures_ofExcept fun g hg => hg.1.1) fun budget => ?_
  refine Ensures.bind (ensures_ofExcept fun g hg => hg.1.1.1) fun verify => ?_
  refine Ensures.bind (Q := fun _ g => WellFormed g ∧ g.stage = .discoverySealed)
    (ensures_add (fun g hg => hg.1.1.1.1) ?_) fun _ => ?_
  · rintro g ⟨⟨⟨⟨hg, rfl⟩, hstage⟩, -⟩, hmake⟩ hfresh hdeps
    have hnode := WorkflowStepSpec.make_ok hmake
    refine ⟨wellFormed_push hg hfresh hdeps
      (.verify (by rw [hnode]) (by rw [hnode]) (by rw [hnode]) ?_), hstage⟩
    rw [hnode]
    refine hasType_of_mem_keysOfType.imp_right fun h => ⟨h.1, fun d hd => ?_⟩
    exact (h.2 d hd).mono (List.subset_append_left _ _)
  · refine Ensures.bind (ensures_ofExcept fun g hg => hg.1) fun budget => ?_
    refine Ensures.bind (ensures_ofExcept fun g hg => hg.1.1) fun synthesize => ?_
    refine Ensures.bind
      (Q := fun _ g => WellFormed g ∧ g.stage = .discoverySealed ∧ "synthesize" ∈ g.keys)
      (ensures_add (fun g hg => hg.1.1.1) ?_) fun _ => ensures_modify ?_
    · rintro g ⟨⟨⟨hg, hstage⟩, -⟩, hmake⟩ hfresh hdeps
      have hnode := WorkflowStepSpec.make_ok hmake
      refine ⟨wellFormed_push hg hfresh hdeps
        (.synthesize (by rw [hnode]) (by rw [hnode]) (by rw [hnode]) (by rw [hnode])), hstage, ?_⟩
      rw [keys_push, hnode]
      simp
    · rintro g ⟨hg, hstage, hkey⟩
      refine ⟨hg.listed, hg.forms, hg.bootstrap, fun _ => hg.selected ?_, fun _ => hkey⟩
      rw [hstage]
      decide

/-- A call leaves a well-formed graph, whether it returned or raised. -/
theorem wellFormed_call {α : Type} {m : Method Exn FastSearchGraph α}
    (hm : Ensures WellFormed m (fun _ => WellFormed) WellFormed) (h : WellFormed g) :
    WellFormed (m.call g).2 := by
  have := hm g h
  rcases hcall : m.call g with ⟨r, g'⟩
  rw [hcall] at this
  cases r with
  | ok a => exact this
  | error e => exact this

/-- **Every graph that is built is well formed.** -/
theorem wellFormed_of_built (h : Built b g) : WellFormed g := by
  refine Reachable.invariant ?_ ?_ h
  · rintro g rfl
    exact wellFormed_new b
  · rintro g g' hg ⟨op, rfl⟩
    cases op with
    | addDiscovery queryKey providerSlots estimatedSeconds =>
        exact wellFormed_call (ensures_addDiscovery _ _ _) hg
    | sealDiscovery => exact wellFormed_call ensures_sealDiscovery hg
    | addFetchPipeline sourceKey fetchSeconds =>
        exact wellFormed_call (ensures_addFetchPipeline _ _) hg
    | sealSynthesis => exact wellFormed_call ensures_sealSynthesis hg

end FastSearchGraph

/-! ## Snapshots -/

section Snapshot

variable {b : Builtins} {intOf : String → Option Int} {g : FastSearchGraph}
  {node : WorkflowStepSpec}

theorem budgetPhase_value (phase : BudgetPhase) : budgetPhase phase.value = .ok phase := by
  cases phase <;> rfl

theorem graphStage_value (stage : GraphStage) : graphStage stage.value = .ok stage := by
  cases stage <;> rfl

/-- **A node is read back as it was written.** -/
theorem WorkflowStepSpec.fromDict_toDict (node : WorkflowStepSpec) :
    WorkflowStepSpec.fromDict b intOf node.toDict = .ok node := by
  have hcost : StepBudgetCost.make node.budget.toCostFields = .ok node.budget :=
    checked_of_valid node.budget.valid
  have hspec : WorkflowStepSpec.make node.toSpecFields = .ok node := checked_of_valid node.valid
  unfold WorkflowStepSpec.fromDict WorkflowStepSpec.toDict
  simp (disch := decide) only [member_head, member_tail, getOr_head, getOr_tail, dict, Json.items,
    Json.text, Json.float, int_number, stepType_value, budgetPhase_value, truth, ok_bind,
    List.map_map, Function.comp_def, List.map_id']
  rw [hcost, ok_bind]
  exact hspec

namespace FastSearchGraph

theorem call_add (hfresh : node.key ∉ g.keys) (hdeps : ∀ d ∈ node.dependencies, d ∈ g.keys) :
    (add b node).call g = (.ok (), g.push node) := by
  have hmissing : node.dependencies.filter (· ∉ g.keys) = [] := by
    rw [List.filter_eq_nil_iff]
    intro d hd
    simpa using hdeps d hd
  simp only [add, call_bind, call_get, call_require, if_pos hfresh, if_pos hmissing, call_modify]
  rfl

theorem call_addFromDict (hfresh : node.key ∉ g.keys)
    (hdeps : ∀ d ∈ node.dependencies, d ∈ g.keys) :
    (addFromDict b intOf node.toDict).call g = (.ok (), g.push node) := by
  have hread : WorkflowStepSpec.fromDict b intOf node.toDict = .ok node :=
    WorkflowStepSpec.fromDict_toDict node
  unfold WorkflowStepSpec.toDict at hread ⊢
  rw [addFromDict, call_bind, call_ofExcept, hread]
  exact call_add hfresh hdeps

/-- The loop of `from_dict` adds the nodes in the order they were added in. -/
theorem call_nodes {l : List WorkflowStepSpec} (hl : Listed (·.key) (·.dependencies) l)
    (stage : GraphStage) :
    ((l.map (·.toDict)).forM (addFromDict b intOf)).call { nodes := [], stage }
      = (.ok (), { nodes := l, stage }) := by
  induction hl with
  | nil => rfl
  | @snoc l node _ hfresh hdeps ih =>
      rw [List.forM_eq_forM] at ih ⊢
      rw [List.map_append, List.forM_append, call_bind, ih]
      show ((addFromDict b intOf node.toDict >>= fun _ => pure ()).call _) = _
      rw [call_bind, call_addFromDict (g := { nodes := l, stage }) hfresh hdeps]
      rfl

/-- **A well-formed graph is restored from its snapshot.** -/
theorem fromDict_of_wellFormed (h : WellFormed g) : fromDict b intOf g.toDict = .ok g := by
  have hnodes : snapshotNodes (.arr (g.nodes.map (·.toDict))) = .ok (g.nodes.map (·.toDict)) := by
    cases hg : g.nodes with
    | nil =>
        have := h.bootstrap.1
        rw [keys, hg] at this
        cases this
    | cons n l => rfl
  have hselect : ¬(g.stage ≠ .opened ∧ "select" ∉ g.keys) := fun hno => hno.2 (h.selected hno.1)
  have hsynth : ¬(g.stage = .synthesisSealed ∧ "synthesize" ∉ g.keys) :=
    fun hno => hno.2 (h.synthesized hno.1)
  have hversion : isOne (.number 1) = true ∧ isFast (.str SearchMode.fast.value) = true :=
    ⟨by simp [isOne], rfl⟩
  have hcall : (load b intOf g.toDict).call { nodes := [], stage := .opened } = (.ok (), g) := by
    unfold load toDict
    simp (disch := decide) only [member_head, member_tail, getOr_head, getOr_tail, call_bind,
      call_ofExcept, call_require, call_modify, call_get, Json.text, graphStage_value, hnodes,
      if_pos hversion, call_nodes h.listed]
    simp only [if_pos h.bootstrap, if_pos hselect, if_pos hsynth]
  rw [fromDict, hcall]

/-- **The nodes of a graph that is restored are listed after what they depend on.** -/
theorem listed_of_fromDict {payload : Json} (h : fromDict b intOf payload = .ok g) :
    Listed (·.key) (·.dependencies) g.nodes := by
  have hadd : ∀ v : Json, Ensures (fun g => Listed (·.key) (·.dependencies) g.nodes)
      (addFromDict b intOf v) (fun _ g => Listed (·.key) (·.dependencies) g.nodes)
      fun _ => True := by
    intro v
    cases v with
    | obj members =>
        refine Ensures.bind (ensures_ofExcept fun _ _ => trivial) fun node => ?_
        refine ensures_add (fun _ _ => trivial) ?_
        rintro g ⟨hg, -⟩ hfresh hdeps
        exact hg.snoc hfresh hdeps
    | _ => exact ensures_throw fun _ _ => trivial
  have hload : Ensures (fun g => Listed (·.key) (·.dependencies) g.nodes) (load b intOf payload)
      (fun _ g => Listed (·.key) (·.dependencies) g.nodes) fun _ => True := by
    refine Ensures.bind (ensures_ofExcept fun _ _ => trivial) fun version => ?_
    refine Ensures.bind (ensures_ofExcept fun _ _ => trivial) fun workflow => ?_
    refine Ensures.bind (ensures_require fun _ _ => trivial) fun _ => ?_
    refine Ensures.bind (ensures_ofExcept fun _ _ => trivial) fun text => ?_
    refine Ensures.bind (ensures_ofExcept fun _ _ => trivial) fun stage => ?_
    refine Ensures.bind (Q := fun _ g => Listed (·.key) (·.dependencies) g.nodes)
      (ensures_modify fun g hg => hg.1.1.1.1.1) fun _ => ?_
    refine Ensures.bind (ensures_ofExcept fun _ _ => trivial) fun value => ?_
    refine Ensures.bind (ensures_ofExcept fun _ _ => trivial) fun nodes => ?_
    refine Ensures.bind (Q := fun _ g => Listed (·.key) (·.dependencies) g.nodes) ?_ fun _ => ?_
    · exact (Ensures.forM fun v _ => hadd v).weaken (fun g hg => hg.1.1) (fun _ _ h => h)
        fun _ h => h
    refine Ensures.bind ensures_get fun g₀ => ?_
    refine Ensures.bind (ensures_require fun _ _ => trivial) fun _ => ?_
    refine Ensures.bind (ensures_require fun _ _ => trivial) fun _ => ?_
    exact (ensures_require fun _ _ => trivial).weaken (fun _ h => h) (fun _ _ hg => hg.1.1.1.1)
      fun _ h => h
  have hstart := hload { nodes := [], stage := .opened } .nil
  rw [fromDict] at h
  split at h
  · rename_i g' hcall
    rw [hcall] at hstart
    rw [← Except.ok.inj h]
    exact hstart
  · cases h

/--
**A graph is restored from its snapshot, and what is restored is a graph.** However a graph
was built, its snapshot gives the same nodes in the same order, with the same dependencies,
and the same stage. Whatever snapshot is accepted, the keys of its nodes are distinct and no
node depends on itself, through any number of others.
-/
theorem snapshot_restores_graph (b : Builtins) (intOf : String → Option Int) :
    (∀ g, Built b g → fromDict b intOf g.toDict = .ok g) ∧
      ∀ payload g, fromDict b intOf payload = .ok g →
        g.keys.Nodup ∧
          ∀ key, ¬ Relation.TransGen (DependsOn (·.key) (·.dependencies) g.nodes) key key := by
  refine ⟨fun g hg => fromDict_of_wellFormed (wellFormed_of_built hg), ?_⟩
  intro payload g h
  have hlisted := listed_of_fromDict h
  exact ⟨hlisted.nodup, hlisted.acyclic⟩

end FastSearchGraph

end Snapshot

/-! ## A graph with one query and one source -/

namespace Sample

/-- The calls that build it. -/
def ops : List GraphOp :=
  [.addDiscovery "query" 1 1, .sealDiscovery, .addFetchPipeline "source" 1, .sealSynthesis]

def graph : FastSearchGraph :=
  ops.foldl (GraphOp.apply Aggregate.Sample.builtins) (.new Aggregate.Sample.builtins)

theorem built_graph : Built Aggregate.Sample.builtins graph := by
  have hcalls : ∀ (ops : List GraphOp) {g : FastSearchGraph}, Built Aggregate.Sample.builtins g →
      Built Aggregate.Sample.builtins (ops.foldl (GraphOp.apply Aggregate.Sample.builtins) g) := by
    intro ops
    induction ops with
    | nil => exact fun h => h
    | cons op ops ih => exact fun h => ih (.tail h ⟨op, rfl⟩)
  exact hcalls ops (.init rfl)

end Sample

theorem FastSearchGraph.snapshot_restores_graph_pipeline :
    Sample.graph.keys = ["route", "plan", "discover:query", "select", "fetch:source",
      "extract:source", "verify", "synthesize"] ∧
    Sample.graph.stage = .synthesisSealed ∧
    fromDict Aggregate.Sample.builtins (fun _ => none) Sample.graph.toDict = .ok Sample.graph ∧
    ∀ key, ¬ Relation.TransGen (DependsOn (·.key) (·.dependencies) Sample.graph.nodes) key key := by
  have h := snapshot_restores_graph Aggregate.Sample.builtins fun _ => none
  have hrestored := h.1 _ Sample.built_graph
  exact ⟨by decide +kernel, by decide +kernel, hrestored, (h.2 _ _ hrestored).2⟩

end Sana.Orchestration.SearchWorkflow
