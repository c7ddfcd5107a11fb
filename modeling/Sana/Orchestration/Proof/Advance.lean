import Sana.Orchestration.Proof.Graph

/-!
# The workflow advances

A decision never names a node twice, submits a node only when what it depends on is
satisfied, and submits nothing but synthesis once the deadline has passed.

When no node runs or waits for a retry, the first node that is ready depends only on nodes
that have ended, and what its type asks of them decides whether it is submitted or skipped.
Extraction and verification are one or the other whatever came of their dependencies, and
selection and synthesis accept any end of the queries and of verification. A plan, a query
and a fetch are never skipped and need a success: after a failed route or plan, or a failed
selection with fetches behind it, nothing is left to do until the deadline passes, when all
that is not needed is cancelled and synthesis is submitted.
-/

namespace Sana.Orchestration.SearchWorkflow

open Sana.Lib Aggregate

/-! ## Statuses -/

namespace Statuses

variable {s : Statuses} {k key : String} {st : StepStatus}

theorem get_set : (s.set key st).get k = if k = key then some st else s.get k := by
  induction s with
  | nil =>
      by_cases hk : k = key
      · simp [set, get, hk]
      · simp [set, get, List.lookup_cons, hk, beq_false_of_ne hk]
  | cons p s ih =>
      obtain ⟨k', st'⟩ := p
      unfold get at ih ⊢
      by_cases hk' : k' = key
      · subst hk'
        by_cases hk : k = k'
        · simp [set, hk]
        · simp [set, List.lookup_cons, hk, beq_false_of_ne hk]
      · rw [set, if_neg hk']
        by_cases hk : k = k'
        · subst hk
          simp [hk']
        · simp only [List.lookup_cons, beq_false_of_ne hk]
          exact ih

/-- Many entries written with one status. -/
theorem get_foldl_set (l : List String) (s : Statuses) :
    (l.foldl (fun s key => s.set key st) s).get k = if k ∈ l then some st else s.get k := by
  induction l generalizing s with
  | nil => simp
  | cons key l ih =>
      rw [List.foldl_cons, ih, get_set]
      by_cases hl : k ∈ l
      · simp [hl]
      · by_cases hk : k = key
        · simp [hk]
        · simp [hl, hk]

theorem mem_keys_set (h : k ∈ (s.set key st).map (·.1)) : k = key ∨ k ∈ s.map (·.1) := by
  induction s with
  | nil => exact .inl (by simpa [set] using h)
  | cons p s ih =>
      rw [set] at h
      split at h
      · exact .inr h
      · rw [List.map_cons, List.mem_cons] at h ⊢
        rcases h with h | h
        · exact .inr (.inl h)
        · exact (ih h).imp_right .inr

theorem mem_keys_of_get (h : s.get key = some st) : key ∈ s.map (·.1) := by
  obtain ⟨l, l', rfl, -⟩ := List.lookup_eq_some_iff.mp h
  simp

/-- Only keys of nodes are written. -/
theorem known_foldl_set {α : Type} {keyOf : α → String} {keys : List String} (l : List α)
    (hl : ∀ x ∈ l, keyOf x ∈ keys) (s : Statuses) (hs : ∀ k ∈ s.map (·.1), k ∈ keys) :
    ∀ k ∈ (l.foldl (fun s x => s.set (keyOf x) st) s).map (·.1), k ∈ keys := by
  induction l generalizing s with
  | nil => exact hs
  | cons x l ih =>
      refine ih (fun y hy => hl y (List.mem_cons_of_mem _ hy)) _ fun k hk => ?_
      rcases mem_keys_set hk with rfl | hk
      · exact hl x List.mem_cons_self
      · exact hs k hk

end Statuses

/-! ## Nodes by their keys -/

section Keys

variable {g : FastSearchGraph} {node : WorkflowStepSpec} {nodes : List WorkflowStepSpec}

theorem Form.of_plan (h : Form nodes node) (hkey : node.key = "plan") : node.stepType = .plan := by
  cases h with
  | plan htype _ _ => exact htype
  | discovery _ h _ | fetch _ h _ | extract _ h _ =>
      obtain ⟨q, h⟩ := h
      simpa using congrArg String.toList (hkey.symm.trans h)
  | route _ h _ | select _ h _ | verify _ h _ _ | synthesize _ h _ _ =>
      exact absurd (hkey.symm.trans h) (by decide)

theorem Form.of_verify (h : Form nodes node) (hkey : node.key = "verify") :
    node.stepType = .verify ∧ node.lowValueAfterDeadline = true := by
  cases h with
  | verify htype _ hlow _ => exact ⟨htype, hlow⟩
  | discovery _ h _ | fetch _ h _ | extract _ h _ =>
      obtain ⟨q, h⟩ := h
      simpa using congrArg String.toList (hkey.symm.trans h)
  | route _ h _ | plan _ h _ | select _ h _ | synthesize _ h _ _ =>
      exact absurd (hkey.symm.trans h) (by decide)

theorem Form.of_synthesize (h : Form nodes node) (hkey : node.key = "synthesize") :
    node.stepType = .synthesize ∧ node.lowValueAfterDeadline = false
      ∧ node.dependencies = ["verify"] := by
  cases h with
  | synthesize htype _ hlow hdeps => exact ⟨htype, hlow, hdeps⟩
  | discovery _ h _ | fetch _ h _ | extract _ h _ =>
      obtain ⟨q, h⟩ := h
      simpa using congrArg String.toList (hkey.symm.trans h)
  | route _ h _ | plan _ h _ | select _ h _ | verify _ h _ _ =>
      exact absurd (hkey.symm.trans h) (by decide)

namespace WellFormed

theorem node_eq_some (h : WellFormed g) (hnode : node ∈ g.nodes) : g.node node.key = some node :=
  lookup_of_mem h.listed.nodup hnode

theorem isOfType_iff (h : WellFormed g) {types : List StepType} {key : String} :
    g.isOfType types key = true ↔ ∃ t ∈ types, HasType g.nodes t key := by
  unfold FastSearchGraph.isOfType
  constructor
  · intro htype
    split at htype
    · rename_i node hnode
      obtain ⟨hmem, hkey⟩ := lookup_eq_some hnode
      exact ⟨node.stepType, of_decide_eq_true htype, node, hmem, hkey, rfl⟩
    · cases htype
  · rintro ⟨t, ht, node, hmem, rfl, rfl⟩
    rw [h.node_eq_some hmem]
    exact decide_eq_true ht

end WellFormed

end Keys

/-! ## Dependencies -/

section Dependencies

variable {g : FastSearchGraph} {statuses : Statuses} {node : WorkflowStepSpec}

open FastSearchGraph

/--
The dependencies of a node are satisfied. All have ended, and synthesis asks no more of them.
Verification needs one that succeeded, selection accepts any end of the queries, and
otherwise all must have succeeded.
-/
def Satisfied (nodes : List WorkflowStepSpec) (status : String → Option StepStatus)
    (node : WorkflowStepSpec) : Prop :=
  (∀ d ∈ node.dependencies, ended (status d) = true) ∧
    match node.stepType with
    | .synthesize => True
    | .verify => ∃ d ∈ node.dependencies, status d = some .succeeded
    | .select => (∀ d ∈ node.dependencies, HasType nodes .discovery d) ∨
        ∀ d ∈ node.dependencies, status d = some .succeeded
    | _ => ∀ d ∈ node.dependencies, status d = some .succeeded

/-- A node ended in another way than success. -/
def Unsuccessful (statuses : Statuses) (key : String) : Prop :=
  ended (statuses.get key) = true ∧ statuses.get key ≠ some .succeeded

/-- The route or the plan failed, or the selection did and there are fetches behind it. -/
def EarlyFailure (g : FastSearchGraph) (statuses : Statuses) : Prop :=
  Unsuccessful statuses "route" ∨ Unsuccessful statuses "plan" ∨
    Unsuccessful statuses "select" ∧ ∃ node ∈ g.nodes, node.stepType = .fetch

/-- No node runs or waits for a retry. -/
def Idle (g : FastSearchGraph) (statuses : Statuses) : Prop :=
  ∀ node ∈ g.nodes, statuses.getReady node.key ≠ .running ∧ statuses.getReady node.key ≠ .retryWait

theorem ended_of_succeeded {status : Option StepStatus} (h : status = some .succeeded) :
    ended status = true := by
  rw [h]
  rfl

theorem ready_or_ended (h : Idle g statuses) (hnode : node ∈ g.nodes) :
    statuses.getReady node.key = .ready ∨ ended (statuses.get node.key) = true := by
  obtain ⟨hrunning, hwaiting⟩ := h node hnode
  unfold Statuses.getReady at hrunning hwaiting ⊢
  cases hstatus : statuses.get node.key with
  | none => exact .inl rfl
  | some status =>
      rw [hstatus] at hrunning hwaiting
      cases status with
      | ready => exact .inl rfl
      | running => exact absurd rfl hrunning
      | retryWait => exact absurd rfl hwaiting
      | succeeded | failed | skipped | cancelled => exact .inr rfl

theorem succeeded_of_not_unsuccessful {key : String} (h : ¬ Unsuccessful statuses key)
    (hended : ended (statuses.get key) = true) : statuses.get key = some .succeeded := by
  by_contra hno
  exact h ⟨hended, hno⟩

/-- Successes satisfy every node; verification has to depend on something. -/
theorem dependenciesSatisfied_of_succeeded
    (hall : ∀ d ∈ node.dependencies, statuses.get d = some .succeeded)
    (hne : node.stepType = .verify → node.dependencies ≠ []) :
    g.dependenciesSatisfied statuses node = true := by
  have hended : (node.dependencies.map statuses.get).all ended = true := by
    rw [List.all_eq_true]
    intro st hst
    obtain ⟨d, hd, rfl⟩ := List.mem_map.mp hst
    exact ended_of_succeeded (hall d hd)
  unfold dependenciesSatisfied
  simp only
  split
  · exact hended
  · split
    · rename_i hverify
      obtain ⟨d, hd⟩ := List.exists_mem_of_ne_nil _ (hne hverify.1)
      rw [hended, Bool.true_and, List.any_eq_true]
      exact ⟨_, List.mem_map_of_mem hd, decide_eq_true (hall d hd)⟩
    · rw [List.all_eq_true]
      intro st hst
      obtain ⟨d, hd, rfl⟩ := List.mem_map.mp hst
      exact decide_eq_true (hall d hd)

/-- **What is submitted is satisfied.** -/
theorem satisfied_of_dependenciesSatisfied (h : WellFormed g) (hnode : node ∈ g.nodes)
    (hsat : g.dependenciesSatisfied statuses node = true) :
    Satisfied g.nodes statuses.get node := by
  -- the two outcomes a branch of the source asks for, read off the list of statuses
  have hended : (node.dependencies.map statuses.get).all ended = true →
      ∀ d ∈ node.dependencies, ended (statuses.get d) = true := by
    intro hall d hd
    exact List.all_eq_true.mp hall _ (List.mem_map_of_mem hd)
  have hsucceeded : (node.dependencies.map statuses.get).all (· = some .succeeded) = true →
      ∀ d ∈ node.dependencies, statuses.get d = some .succeeded := by
    intro hall d hd
    exact of_decide_eq_true (List.all_eq_true.mp hall _ (List.mem_map_of_mem hd))
  unfold dependenciesSatisfied at hsat
  simp only at hsat
  cases h.forms node hnode with
  | route htype _ _ | plan htype _ _ | discovery htype _ _ | fetch htype _ _ | extract htype _ _ =>
      rw [if_neg (by simp [htype]), if_neg (by simp [htype])] at hsat
      have hall := hsucceeded hsat
      refine ⟨fun d hd => ended_of_succeeded (hall d hd), ?_⟩
      rw [htype]
      exact hall
  | select htype hkey hdeps =>
      by_cases hqueries : node.dependencies.all (g.isOfType [.discovery, .verify]) = true
      · rw [if_pos ⟨by simp [htype], hqueries⟩] at hsat
        refine ⟨hended hsat, ?_⟩
        rw [htype]
        refine .inl (hdeps.resolve_left fun hplan => ?_)
        -- the plan is no query
        rw [hplan, List.all_cons, List.all_nil, Bool.and_true, h.isOfType_iff] at hqueries
        obtain ⟨t, ht, n, hn, hnkey, rfl⟩ := hqueries
        rw [(h.forms n hn).of_plan hnkey] at ht
        simp at ht
      · rw [if_neg fun hc => hqueries hc.2, if_neg (by simp [htype])] at hsat
        have hall := hsucceeded hsat
        refine ⟨fun d hd => ended_of_succeeded (hall d hd), ?_⟩
        rw [htype]
        exact .inr hall
  | verify htype hkey hlow hdeps =>
      rw [if_neg (by simp [htype])] at hsat
      split at hsat
      · rw [Bool.and_eq_true, List.any_eq_true] at hsat
        refine ⟨hended hsat.1, ?_⟩
        rw [htype]
        obtain ⟨st, hst, hdone⟩ := hsat.2
        obtain ⟨d, hd, rfl⟩ := List.mem_map.mp hst
        exact ⟨d, hd, of_decide_eq_true hdone⟩
      · have hall := hsucceeded hsat
        refine ⟨fun d hd => ended_of_succeeded (hall d hd), ?_⟩
        rw [htype]
        have hne : node.dependencies ≠ [] := by
          rcases hdeps with hdeps | hdeps
          · simp [hdeps]
          · exact hdeps.1
        obtain ⟨d, hd⟩ := List.exists_mem_of_ne_nil _ hne
        exact ⟨d, hd, hall d hd⟩
  | synthesize htype hkey hlow hdeps =>
      refine ⟨?_, by rw [htype]; trivial⟩
      split at hsat
      · exact hended hsat
      · rw [if_neg (by simp [htype])] at hsat
        exact fun d hd => ended_of_succeeded (hsucceeded hsat d hd)

/-- **A node whose dependencies have ended can go on**, unless an early node failed. -/
theorem skips_or_satisfied (h : WellFormed g) (hnode : node ∈ g.nodes)
    (hready : statuses.getReady node.key = .ready)
    (hended : ∀ d ∈ node.dependencies, ended (statuses.get d) = true)
    (hearly : ¬ EarlyFailure g statuses) :
    skips statuses node = true ∨ g.dependenciesSatisfied statuses node = true := by
  simp only [EarlyFailure, not_or] at hearly
  obtain ⟨hroute, hplan, hselect⟩ := hearly
  -- one dependency, which is none of the early failures
  have hone : ∀ key, node.dependencies = [key] → ¬ Unsuccessful statuses key →
      g.dependenciesSatisfied statuses node = true := by
    intro key hdeps hkey
    refine dependenciesSatisfied_of_succeeded (fun d hd => ?_) fun _ => by simp [hdeps]
    have hd' := hended d hd
    rw [hdeps, List.mem_singleton] at hd
    subst hd
    exact succeeded_of_not_unsuccessful hkey hd'
  have hall : (node.dependencies.map statuses.get).all ended = true := by
    rw [List.all_eq_true]
    intro st hst
    obtain ⟨d, hd, rfl⟩ := List.mem_map.mp hst
    exact hended d hd
  have hskip : (if node.stepType = .extract then
        node.dependencies.any (fun d => statuses.get d ≠ some .succeeded)
      else node.dependencies.all (fun d => statuses.get d ≠ some .succeeded)) = true →
      node.stepType ∈ [StepType.extract, .verify] → skips statuses node = true := by
    intro hc htype
    have hall' : node.dependencies.all (fun d => ended (statuses.get d)) = true :=
      List.all_eq_true.mpr hended
    rw [skips, decide_eq_true htype, decide_eq_true hready, hall', hc, Bool.true_and, Bool.true_and,
      Bool.true_and]
  cases h.forms node hnode with
  | route htype hkey hdeps =>
      refine .inr (dependenciesSatisfied_of_succeeded (fun d hd => ?_) fun hno => ?_)
      · rw [hdeps] at hd
        cases hd
      · rw [htype] at hno
        cases hno
  | plan htype hkey hdeps => exact .inr (hone _ hdeps hroute)
  | discovery htype hkey hdeps => exact .inr (hone _ hdeps hplan)
  | select htype hkey hdeps =>
      rcases hdeps with hdeps | hdeps
      · exact .inr (hone _ hdeps hplan)
      · have hqueries : node.dependencies.all (g.isOfType [.discovery, .verify]) = true := by
          rw [List.all_eq_true]
          exact fun d hd => h.isOfType_iff.mpr ⟨_, by simp, hdeps d hd⟩
        refine .inr ?_
        unfold dependenciesSatisfied
        simp only
        rw [if_pos ⟨by simp [htype], hqueries⟩]
        exact hall
  | fetch htype hkey hdeps =>
      exact .inr (hone _ hdeps fun hno => hselect ⟨hno, node, hnode, htype⟩)
  | extract htype hkey hdeps =>
      by_cases hno : ∃ d ∈ node.dependencies, statuses.get d ≠ some .succeeded
      · refine .inl (hskip ?_ (by simp [htype]))
        rw [if_pos htype, List.any_eq_true]
        obtain ⟨d, hd, hne⟩ := hno
        exact ⟨d, hd, decide_eq_true hne⟩
      · push Not at hno
        refine .inr (dependenciesSatisfied_of_succeeded hno fun hv => ?_)
        rw [htype] at hv
        cases hv
  | verify htype hkey hlow hdeps =>
      by_cases hsome : ∃ d ∈ node.dependencies, statuses.get d = some .succeeded
      · obtain ⟨d, hd, hdone⟩ := hsome
        refine .inr ?_
        rcases hdeps with hdeps | ⟨hne, hdeps⟩
        · refine dependenciesSatisfied_of_succeeded (fun d' hd' => ?_) fun _ => by simp [hdeps]
          rw [hdeps, List.mem_singleton] at hd hd'
          rw [hd', ← hd]
          exact hdone
        · have hextracts : node.dependencies.all (g.isOfType [.extract]) = true := by
            rw [List.all_eq_true]
            exact fun d hd => h.isOfType_iff.mpr ⟨_, by simp, hdeps d hd⟩
          unfold dependenciesSatisfied
          simp only
          rw [if_neg (by simp [htype]), if_pos ⟨htype, hextracts⟩, hall, Bool.true_and,
            List.any_eq_true]
          exact ⟨_, List.mem_map_of_mem hd, decide_eq_true hdone⟩
      · push Not at hsome
        refine .inl (hskip ?_ (by simp [htype]))
        rw [if_neg (by simp [htype]), List.all_eq_true]
        exact fun d hd => decide_eq_true (hsome d hd)
  | synthesize htype hkey hlow hdeps =>
      have hverify : node.dependencies.all (g.isOfType [.discovery, .verify]) = true := by
        rw [List.all_eq_true]
        intro d hd
        obtain ⟨n, hn, rfl⟩ := List.mem_map.mp (h.listed.mem_keys_of_dep hnode hd)
        rw [hdeps, List.mem_singleton] at hd
        exact h.isOfType_iff.mpr ⟨.verify, by simp, n, hn, rfl, ((h.forms n hn).of_verify hd).1⟩
      refine .inr ?_
      unfold dependenciesSatisfied
      simp only
      rw [if_pos ⟨by simp [htype], hverify⟩]
      exact hall

end Dependencies

/-! ## Decisions -/

/-- The statuses once the cancellations of a decision are carried out. -/
def WorkflowAdvance.cancelled (decision : WorkflowAdvance) (statuses : Statuses) : Statuses :=
  decision.cancel.foldl (fun s key => s.set key .cancelled) statuses

/-- No node is named twice. -/
structure Apart (decision : WorkflowAdvance) : Prop where
  submit_skip : (decision.submit.map (·.key)).Disjoint decision.skip
  submit_cancel : (decision.submit.map (·.key)).Disjoint decision.cancel
  skip_cancel : decision.skip.Disjoint decision.cancel

section Decisions

variable {b : Builtins} {g : FastSearchGraph} {statuses : Statuses} {guard : BudgetSnapshot}
  {now : Time} {decision : WorkflowAdvance}

open FastSearchGraph

/-- **What a decision is.** -/
theorem advance_cases (h : g.advance statuses b guard now = .ok decision) :
    nonSynthesisDeadline guard ≤ now ∧ g.fallback statuses = .ok decision ∨
      now < nonSynthesisDeadline guard ∧ decision = g.schedule statuses := by
  obtain ⟨_, -, h⟩ := bind_ok_iff.mp h
  obtain ⟨_, -, h⟩ := bind_ok_iff.mp h
  split at h
  · rename_i hpast
    exact .inl ⟨hpast, h⟩
  · rename_i hbefore
    exact .inr ⟨lt_of_not_ge hbefore, (Except.ok.inj h).symm⟩

/-- After the deadline: synthesis if it is ready, and what is no longer worth its time. -/
theorem fallback_ok (h : g.fallback statuses = .ok decision) :
    ∃ synthesize, g.node "synthesize" = some synthesize ∧
      decision.submit = (if statuses.getReady "synthesize" = .ready then [synthesize] else []) ∧
      decision.skip = [] ∧
      decision.cancel = (g.nodes.filter fun node => node.lowValueAfterDeadline
        && statuses.getReady node.key ∈ [StepStatus.ready, .running, .retryWait]).map (·.key) := by
  unfold fallback at h
  cases hnode : g.node "synthesize" with
  | none =>
      rw [hnode] at h
      cases h
  | some synthesize =>
      rw [hnode] at h
      rw [← Except.ok.inj h]
      exact ⟨synthesize, rfl, rfl, rfl, rfl⟩

theorem mem_submit_fallback (h : g.fallback statuses = .ok decision) {node : WorkflowStepSpec}
    (hsub : node ∈ decision.submit) : node ∈ g.nodes ∧ node.key = "synthesize" := by
  obtain ⟨synthesize, hnode, hsubmit, -, -⟩ := fallback_ok h
  rw [hsubmit] at hsub
  split at hsub
  · rw [List.mem_singleton.mp hsub]
    exact lookup_eq_some hnode
  · cases hsub

theorem mem_submit_schedule {node : WorkflowStepSpec} :
    node ∈ (g.schedule statuses).submit ↔ node ∈ g.nodes ∧ statuses.getReady node.key = .ready ∧
      node.key ∉ (g.schedule statuses).skip ∧ g.dependenciesSatisfied statuses node = true := by
  simp [schedule, List.mem_filter, and_assoc]

theorem mem_skip_schedule {key : String} : key ∈ (g.schedule statuses).skip ↔
    ∃ node ∈ g.nodes, skips statuses node = true ∧ node.key = key := by
  simp [schedule, List.mem_map, List.mem_filter, and_assoc]

/-- A decision is about nodes of the graph. -/
theorem advance_known (h : g.advance statuses b guard now = .ok decision) :
    (∀ node ∈ decision.submit, node.key ∈ g.keys) ∧ (∀ key ∈ decision.cancel, key ∈ g.keys) ∧
      ∀ key ∈ decision.skip, key ∈ g.keys := by
  rcases advance_cases h with ⟨-, h⟩ | ⟨-, rfl⟩
  · obtain ⟨_, -, -, hskip, hcancel⟩ := fallback_ok h
    refine ⟨fun node hnode => List.mem_map_of_mem (mem_submit_fallback h hnode).1, ?_, ?_⟩
    · intro key hkey
      rw [hcancel] at hkey
      obtain ⟨node, hnode, rfl⟩ := List.mem_map.mp hkey
      exact List.mem_map_of_mem (List.mem_filter.mp hnode).1
    · rw [hskip]
      simp
  · refine ⟨fun node hnode => List.mem_map_of_mem (mem_submit_schedule.mp hnode).1, ?_, ?_⟩
    · intro key hkey
      cases hkey
    · intro key hkey
      obtain ⟨node, hnode, -, rfl⟩ := mem_skip_schedule.mp hkey
      exact List.mem_map_of_mem hnode

/-- **Statuses are of nodes of the graph**, in every run. -/
theorem known_of_runs (h : Runs b g statuses) : ∀ key ∈ statuses.map (·.1), key ∈ g.keys := by
  refine Reachable.invariant (P := fun s : Statuses => ∀ key ∈ s.map (·.1), key ∈ g.keys) ?_ ?_ h
  · rintro s rfl
    simp
  · intro s s' hs hstep
    cases hstep with
    | advance hadv =>
        obtain ⟨hsubmit, hcancel, hskip⟩ := advance_known hadv
        refine Statuses.known_foldl_set _ hsubmit _ ?_
        refine Statuses.known_foldl_set _ hskip _ ?_
        exact Statuses.known_foldl_set _ hcancel _ hs
    | report hget _ _ =>
        intro key hkey
        rcases Statuses.mem_keys_set hkey with rfl | hkey
        · exact hs _ (Statuses.mem_keys_of_get hget)
        · exact hs key hkey

/-- A graph that is sealed always decides. -/
theorem exists_advance (h : WellFormed g) (hsealed : g.stage = .synthesisSealed)
    (hknown : ∀ key ∈ statuses.map (·.1), key ∈ g.keys) (guard : BudgetSnapshot) (now : Time) :
    ∃ decision, g.advance statuses b guard now = .ok decision := by
  have hunknown : (statuses.map (·.1)).filter (· ∉ g.keys) = [] := by
    rw [List.filter_eq_nil_iff]
    intro key hkey
    simpa using hknown key hkey
  obtain ⟨synthesize, hmem, hkey⟩ := List.mem_map.mp (h.synthesized hsealed)
  have hnode : g.node "synthesize" = some synthesize := hkey ▸ h.node_eq_some hmem
  unfold advance
  rw [hsealed, hunknown]
  simp only [decide_true, check, if_true, fallback, hnode]
  split
  · exact ⟨_, rfl⟩
  · exact ⟨_, rfl⟩

/-- **No node is named twice.** -/
theorem apart_of_advance (h : WellFormed g) (hadv : g.advance statuses b guard now = .ok decision) :
    Apart decision := by
  rcases advance_cases hadv with ⟨-, hfall⟩ | ⟨-, rfl⟩
  · obtain ⟨_, -, -, hskip, hcancel⟩ := fallback_ok hfall
    refine ⟨by rw [hskip]; exact List.disjoint_nil_right _, ?_,
      by rw [hskip]; exact List.disjoint_nil_left _⟩
    intro key hsub hcan
    obtain ⟨node, hnode, rfl⟩ := List.mem_map.mp hsub
    obtain ⟨hmem, hkey⟩ := mem_submit_fallback hfall hnode
    rw [hcancel] at hcan
    obtain ⟨low, hlow, hsame⟩ := List.mem_map.mp hcan
    obtain ⟨hlowmem, hlow⟩ := List.mem_filter.mp hlow
    -- synthesis is worth its time after the deadline
    have hval := ((h.forms low hlowmem).of_synthesize (hsame.trans hkey)).2.1
    rw [hval] at hlow
    cases hlow
  · refine ⟨?_, List.disjoint_nil_right _, List.disjoint_nil_right _⟩
    intro key hsub hskip
    obtain ⟨node, hnode, rfl⟩ := List.mem_map.mp hsub
    exact (mem_submit_schedule.mp hnode).2.2.1 hskip

theorem satisfied_of_advance (h : WellFormed g)
    (hadv : g.advance statuses b guard now = .ok decision) {node : WorkflowStepSpec}
    (hsub : node ∈ decision.submit) :
    Satisfied g.nodes (decision.cancelled statuses).get node := by
  rcases advance_cases hadv with ⟨-, hfall⟩ | ⟨-, rfl⟩
  · obtain ⟨hmem, hkey⟩ := mem_submit_fallback hfall hsub
    obtain ⟨htype, -, hdeps⟩ := (h.forms node hmem).of_synthesize hkey
    refine ⟨fun d hd => ?_, by rw [htype]; trivial⟩
    obtain ⟨verify, hverify, rfl⟩ := List.mem_map.mp (h.listed.mem_keys_of_dep hmem hd)
    rw [hdeps, List.mem_singleton] at hd
    have hlow := ((h.forms verify hverify).of_verify hd).2
    obtain ⟨_, -, -, -, hcancel⟩ := fallback_ok hfall
    rw [WorkflowAdvance.cancelled, Statuses.get_foldl_set]
    split
    · rfl
    · rename_i hkeep
      -- verification was not cancelled, so it has ended
      by_contra hopen
      refine hkeep ?_
      rw [hcancel]
      refine List.mem_map_of_mem (List.mem_filter.mpr ⟨hverify, ?_⟩)
      rw [hlow, Bool.true_and]
      unfold Statuses.getReady
      cases hstatus : statuses.get verify.key with
      | none => rfl
      | some status =>
          rw [hstatus] at hopen
          cases status with
          | ready | running | retryWait => rfl
          | succeeded | failed | skipped | cancelled => exact absurd rfl hopen
  · obtain ⟨hmem, -, -, hsat⟩ := mem_submit_schedule.mp hsub
    exact satisfied_of_dependenciesSatisfied h hmem hsat

theorem progress_of_advance (h : WellFormed g) (hsealed : g.stage = .synthesisSealed)
    (hadv : g.advance statuses b guard now = .ok decision) (hidle : Idle g statuses)
    (hopen : ended (statuses.get "synthesize") = false)
    (hearly : nonSynthesisDeadline guard ≤ now ∨ ¬ EarlyFailure g statuses) :
    decision.submit ≠ [] ∨ decision.skip ≠ [] := by
  obtain ⟨synthesize, hmem, hkey⟩ := List.mem_map.mp (h.synthesized hsealed)
  have hready : statuses.getReady synthesize.key = .ready := by
    refine (ready_or_ended hidle hmem).resolve_right fun hended => ?_
    rw [hkey, hopen] at hended
    cases hended
  rcases advance_cases hadv with ⟨-, hfall⟩ | ⟨hbefore, rfl⟩
  · obtain ⟨_, -, hsubmit, -, -⟩ := fallback_ok hfall
    rw [hkey] at hready
    rw [hsubmit, if_pos hready]
    exact .inl (List.cons_ne_nil _ _)
  · have hearly := hearly.resolve_left (not_le.mpr hbefore)
    -- the first node that is ready; what it depends on has ended
    obtain ⟨node, hnode, hnready, hfirst⟩ := h.listed.exists_first
      (p := fun node => statuses.getReady node.key = .ready) ⟨synthesize, hmem, hready⟩
    have hended : ∀ d ∈ node.dependencies, ended (statuses.get d) = true := by
      intro d hd
      obtain ⟨dep, hdep, rfl, hnot⟩ := hfirst d hd
      exact (ready_or_ended hidle hdep).resolve_left hnot
    by_cases hskip : node.key ∈ (g.schedule statuses).skip
    · exact .inr (List.ne_nil_of_mem hskip)
    · refine .inl (List.ne_nil_of_mem (mem_submit_schedule.mpr ⟨hnode, hnready, hskip, ?_⟩))
      refine (skips_or_satisfied h hnode hnready hended hearly).resolve_left fun hskips => ?_
      exact hskip (mem_skip_schedule.mpr ⟨node, hnode, hskips, rfl⟩)

/--
**A run of the workflow is safe and advances.** In every run over a sealed graph there is a
next decision. It names no node twice, what it submits is satisfied once its own
cancellations are carried out, and after the deadline it submits nothing but synthesis. While
synthesis has not ended and no node runs or waits for a retry, it submits or skips a node,
unless the deadline is still to come and an early node has failed.
-/
theorem advance_safe_and_live (hg : Built b g) (hsealed : g.stage = .synthesisSealed)
    (hruns : Runs b g statuses) (guard : BudgetSnapshot) (now : Time) :
    ∃ decision, g.advance statuses b guard now = .ok decision ∧
      Apart decision ∧
      (∀ node ∈ decision.submit, Satisfied g.nodes (decision.cancelled statuses).get node) ∧
      (nonSynthesisDeadline guard ≤ now → ∀ node ∈ decision.submit, node.key = "synthesize") ∧
      (ended (statuses.get "synthesize") = false → Idle g statuses →
        nonSynthesisDeadline guard ≤ now ∨ ¬ EarlyFailure g statuses →
        decision.submit ≠ [] ∨ decision.skip ≠ []) := by
  have h := wellFormed_of_built hg
  obtain ⟨decision, hadv⟩ := exists_advance (b := b) h hsealed (known_of_runs hruns) guard now
  refine ⟨decision, hadv, apart_of_advance h hadv, fun node => satisfied_of_advance h hadv, ?_, ?_⟩
  · intro hpast node hnode
    rcases advance_cases hadv with ⟨-, hfall⟩ | ⟨hbefore, -⟩
    · exact (mem_submit_fallback hfall hnode).2
    · exact absurd hpast (not_le.mpr hbefore)
  · exact fun hopen hidle => progress_of_advance h hsealed hadv hidle hopen

end Decisions

/-! ## The route ends -/

namespace Sample

/-- The budget of a `FAST` run that starts at zero: fourteen seconds, one of them for synthesis. -/
def guard : BudgetSnapshot where
  policyVersion := "search-v12"
  createdAt := 0
  softDeadlineAt := seconds 14
  hardDeadlineAt := seconds 15
  synthesisReserve := seconds 1
  maxQueries := 4
  maxProviders := 2
  maxFetches := 4
  maxLlmCalls := 4
  maxExpansionRounds := 1
  phaseSeconds := []
  ordered := by decide +kernel
  reserve_pos := by decide

/-- What is not worth its time after the deadline. -/
def worthless : List String :=
  ["discover:query", "select", "fetch:source", "extract:source", "verify"]

/-- The route was submitted and ended, with success or without. -/
theorem runs_route (status : StepStatus) (h : status ∈ StepStatus.running.transitions) :
    Runs Aggregate.Sample.builtins graph [("route", status)] := by
  have hfirst : graph.advance [] Aggregate.Sample.builtins guard 0 = .ok {
      submit := [FastSearchGraph.routeStep], cancel := [], skip := [], releaseReservations := []
      deadlineFallback := false } := by decide +kernel
  have hrunning : Runs Aggregate.Sample.builtins graph [("route", .running)] :=
    .tail (.init rfl) (.advance hfirst)
  have hreport : Step Aggregate.Sample.builtins graph [("route", .running)]
      (Statuses.set "route" status [("route", .running)]) := .report rfl (.inl rfl) h
  exact .tail hrunning hreport

end Sample

theorem advance_safe_and_live_planning :
    ∃ decision, Sample.graph.advance [("route", .succeeded)] Aggregate.Sample.builtins Sample.guard 0
        = .ok decision ∧
      (∀ node ∈ decision.submit,
        Satisfied Sample.graph.nodes (decision.cancelled [("route", .succeeded)]).get node) ∧
      (decision.submit ≠ [] ∨ decision.skip ≠ []) := by
  obtain ⟨decision, hadv, -, hsat, -, hlive⟩ := advance_safe_and_live Sample.built_graph
    (by decide +kernel) (Sample.runs_route .succeeded (by decide)) Sample.guard 0
  have hearly : ¬ EarlyFailure Sample.graph [("route", .succeeded)] := by
    rintro (⟨-, h⟩ | ⟨h, -⟩ | ⟨⟨h, -⟩, -⟩)
    · exact h rfl
    · cases h
    · cases h
  refine ⟨decision, hadv, hsat, hlive rfl ?_ (.inr hearly)⟩
  intro node hnode
  have hidle : ∀ node ∈ Sample.graph.nodes,
      Statuses.getReady [("route", .succeeded)] node.key ≠ .running ∧
        Statuses.getReady [("route", .succeeded)] node.key ≠ .retryWait := by decide +kernel
  exact hidle node hnode

example : Sample.graph.stage = .synthesisSealed := by decide +kernel

/--
A failed route stops the workflow until the deadline: no node runs, synthesis has not ended,
and nothing is submitted or skipped. And after the deadline synthesis is submitted although
verification, which it depends on, has not ended.
-/
theorem advance_stalls_after_failed_route :
    Built Aggregate.Sample.builtins Sample.graph ∧ Sample.graph.stage = .synthesisSealed ∧
    (Runs Aggregate.Sample.builtins Sample.graph [("route", .failed)] ∧
      Idle Sample.graph [("route", .failed)] ∧
      FastSearchGraph.ended (Statuses.get [("route", .failed)] "synthesize") = false ∧
      ∃ decision, Sample.graph.advance [("route", .failed)] Aggregate.Sample.builtins Sample.guard 0
        = .ok decision ∧ decision.submit = [] ∧ decision.skip = []) ∧
    (Runs Aggregate.Sample.builtins Sample.graph [] ∧
      ∃ decision, Sample.graph.advance [] Aggregate.Sample.builtins Sample.guard (seconds 13)
        = .ok decision ∧
        ∃ node ∈ decision.submit, "verify" ∈ node.dependencies ∧
          ¬ Satisfied Sample.graph.nodes (Statuses.get []) node) := by
  refine ⟨Sample.built_graph, by decide +kernel, ⟨Sample.runs_route .failed (by decide), ?_, rfl, ?_⟩,
    .init rfl, ?_⟩
  · have hidle : ∀ node ∈ Sample.graph.nodes,
        Statuses.getReady [("route", .failed)] node.key ≠ .running ∧
          Statuses.getReady [("route", .failed)] node.key ≠ .retryWait := by decide +kernel
    exact hidle
  · exact ⟨⟨[], [], [], [], false⟩, by decide +kernel, rfl, rfl⟩
  · have hlate : ∃ decision, Sample.graph.advance [] Aggregate.Sample.builtins Sample.guard
        (seconds 13) = .ok decision ∧ ∃ node ∈ decision.submit, "verify" ∈ node.dependencies := by
      refine ⟨⟨(Sample.graph.node "synthesize").toList, Sample.worthless, [], Sample.worthless, true⟩,
        by decide +kernel, by decide +kernel⟩
    obtain ⟨decision, hadv, node, hnode, hdep⟩ := hlate
    refine ⟨decision, hadv, node, hnode, hdep, fun hsat => ?_⟩
    have := hsat.1 _ hdep
    cases this

end Sana.Orchestration.SearchWorkflow
