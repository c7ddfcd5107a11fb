import Sana.Orchestration.Proof.Ops

/-!
# What the coordinator may schedule

The coordinator's decisions are spread over eight kinds of steps and two
outcomes. What they have in common is an order on the kinds: `level`. A step of a
higher level is only scheduled when everything below it has ended, so a run with
a live step at some level has nothing above that level. This is `Shape`, and it is
what makes a scheduled key new: the step that is just ending is still live in the
database, so no step above it can exist yet.

`Sched` says what a scheduled step looks like and `Scheduled` what a call of the
coordinator has done: every staged step is one the shape allows, and the run is not
left without work.
-/

namespace Sana.Orchestration

open Sana.Lib

/-! ## Levels and keys -/

/-- The stage of the pipeline a step belongs to. -/
def StepType.level : StepType → Nat
  | .route => 0
  | .plan => 1
  | .discovery => 2
  | .select => 3
  | .fetch | .extract | .verify => 4
  | .synthesize => 5
  | .complete => 6

/-- The keys the coordinator gives to the steps of a kind. -/
def KeyOk : StepType → String → Prop
  | .route, key => key = "route"
  | .plan, key => key = "plan"
  | .discovery, key => ∃ r, key = "discover:" ++ r
  | .select, key => key = "select"
  | .fetch, key => ∃ r, key = "fetch:" ++ r
  | .extract, key => ∃ r, key = "extract:" ++ r
  | .verify, key => key = "verify"
  | .synthesize, key => key = "synthesize"
  | .complete, _ => False

theorem keyOk_discover (q : PlannedQuery) : KeyOk .discovery (Coordinator.discoverKey q) :=
  ⟨q.key, rfl⟩

theorem keyOk_fetch (i : Nat × Hit) : KeyOk .fetch (Coordinator.fetchKey i) :=
  ⟨toString i.1 ++ ":" ++ i.2.id, by simp [Coordinator.fetchKey, String.append_assoc]⟩

/-- The first two letters of a key give its kind away. -/
def keyTag : StepType → List Char
  | .route => ['r', 'o']
  | .plan => ['p', 'l']
  | .discovery => ['d', 'i']
  | .select => ['s', 'e']
  | .fetch => ['f', 'e']
  | .extract => ['e', 'x']
  | .verify => ['v', 'e']
  | .synthesize => ['s', 'y']
  | .complete => []

theorem keyOk_tag {ty : StepType} {key : String} (h : KeyOk ty key) :
    key.toList.take 2 = keyTag ty := by
  cases ty with
  | complete => exact h.elim
  | discovery | fetch | extract =>
      obtain ⟨r, rfl⟩ := h
      simp [keyTag]
  | route | plan | select | verify | synthesize =>
      obtain rfl := h
      decide

/-- A key belongs to one kind. -/
theorem keyOk_unique {ty ty' : StepType} {key : String} (h : KeyOk ty key) (h' : KeyOk ty' key) :
    ty = ty' := by
  have htag : keyTag ty = keyTag ty' := (keyOk_tag h).symm.trans (keyOk_tag h')
  revert htag
  cases ty <;> cases ty' <;> decide

/-! ## The shape of a run -/

/-- What the steps of a tenant's runs look like. -/
structure Shape (t : Tables) : Prop where
  /-- Plans are never revised. -/
  revision : ∀ s ∈ t.steps, s.planRevision = 1
  /-- The key says what kind of step it is. -/
  key : ∀ s ∈ t.steps, KeyOk s.stepType s.stepKey
  /-- A step has an output exactly when it succeeded. -/
  output : ∀ s ∈ t.steps, s.status = .succeeded ↔ s.outputRef.isSome = true
  /-- **Everything below a step has ended.** -/
  layered : ∀ a ∈ t.steps, ∀ b ∈ t.steps, a.runId = b.runId →
    a.stepType.level < b.stepType.level → a.isTerminal = true
  /-- An extract comes from a fetch that has ended. -/
  extract : ∀ e ∈ t.steps, e.stepType = .extract → ∃ f ∈ t.steps, f.runId = e.runId ∧
    f.isTerminal = true ∧ ∃ r, f.stepKey = "fetch:" ++ r ∧ e.stepKey = "extract:" ++ r

/-- A step that did not succeed has no output. -/
theorem Shape.output_none {t : Tables} (h : Shape t) {s : SearchStep} (hs : s ∈ t.steps)
    (hn : s.status ≠ .succeeded) : s.outputRef = none := by
  have := mt (h.output s hs).mpr hn
  simpa using this

/-- FAILED or CANCELLED. -/
def StepStatus.endedBadly : StepStatus → Bool
  | .failed | .cancelled => true
  | .ready | .running | .retryWait | .succeeded | .skipped => false

/-- The output a row has once the current step is saved. -/
def outputAfter (row current : SearchStep) : Option ArtifactRef :=
  if row.id = current.id then current.outputRef else row.outputRef

/-- `cur` is a live step of the run, and `step` is what it has become in memory: it has ended. -/
structure Ending (db : Db) (run : SearchRun) (cur step : SearchStep) : Prop where
  shape : Shape db.toTables
  mem : cur ∈ db.steps
  live : cur.isTerminal = false
  run_id : cur.runId = run.id
  same : cur.Same step
  ended : step.isTerminal = true
  output : step.status = .succeeded ↔ step.outputRef.isSome = true

namespace Ending

variable {db : Db} {run : SearchRun} {cur step row : SearchStep}

/-- Nothing is above a live step. -/
theorem top (e : Ending db run cur step) (hr : row ∈ db.steps) (hrun : row.runId = run.id) :
    row.stepType.level ≤ cur.stepType.level := by
  by_contra hlt
  have := e.shape.layered cur e.mem row hr (e.run_id.trans hrun.symm) (by omega)
  simp [e.live] at this

/-- The current step has ended. -/
theorem not_isLive_self (e : Ending db run cur step) (hid : row.id = cur.id) :
    Coordinator.isLive row step = false := by
  have : row.id = step.id := hid.trans e.same.id.symm
  simp only [Coordinator.isLive, Coordinator.statusOf, this, if_true]
  simpa [SearchStep.isTerminal] using e.ended

/-- Everything below the current step has ended. -/
theorem not_isLive_below (e : Ending db run cur step) (hr : row ∈ db.steps)
    (hrun : row.runId = run.id) (hlt : row.stepType.level < cur.stepType.level) :
    Coordinator.isLive row step = false := by
  by_cases hid : row.id = cur.id
  · exact e.not_isLive_self hid
  · have hne : row.id ≠ step.id := by rwa [e.same.id]
    have hterm := e.shape.layered row hr cur e.mem (hrun.trans e.run_id.symm) hlt
    simpa [Coordinator.isLive, Coordinator.statusOf, hne, SearchStep.isTerminal] using hterm

/-- A key names one step of a run. -/
theorem eq_of_key {db : Db} {a b : SearchStep} (hsh : Shape db.toTables) (ha : a ∈ db.steps)
    (hb : b ∈ db.steps) (hrun : a.runId = b.runId) (hkey : a.stepKey = b.stepKey) : a = b := by
  refine eq_of_key_eq db.valid.uq_steps_identity ha hb ?_
  simp [Tables.stepIdentity, hrun, hkey, hsh.revision a ha, hsh.revision b hb]

/-- A kind with a single key has the current step as its only step. -/
theorem not_isLive_kind (e : Ending db run cur step) (hr : row ∈ db.steps)
    (hrun : row.runId = run.id) (hty : row.stepType = cur.stepType)
    (hone : ∀ a b, KeyOk cur.stepType a → KeyOk cur.stepType b → a = b) :
    Coordinator.isLive row step = false := by
  have hkey : row.stepKey = cur.stepKey :=
    hone _ _ (hty ▸ e.shape.key row hr) (e.shape.key cur e.mem)
  have : row = cur := eq_of_key e.shape hr e.mem (hrun.trans e.run_id.symm) hkey
  exact e.not_isLive_self (by rw [this])

/-- **A key above the current step is new.** -/
theorem fresh (e : Ending db run cur step) {t : StepType} {key : String} (hk : KeyOk t key)
    (hlt : cur.stepType.level < t.level) :
    Coordinator.stepExists db.toTables run 1 key = false := by
  rw [Bool.eq_false_iff]
  intro hex
  simp only [Coordinator.stepExists, List.any_eq_true, Bool.and_eq_true, decide_eq_true_eq] at hex
  obtain ⟨row, hr, ⟨hrun, _⟩, hkey⟩ := hex
  have hty : row.stepType = t := keyOk_unique (e.shape.key row hr) (hkey ▸ hk)
  have := e.top hr hrun
  rw [hty] at this
  omega

end Ending

/-! ## Staging -/

/-- The outbox row is the message that dispatches the step. -/
structure Announces (s : SearchStep) (o : OutboxMessage) : Prop where
  aggregateId : o.aggregateId = s.id
  dedupeKey : o.dedupeKey = "step-ready:" ++ s.id.str
  unpublished : o.publishedAt = none
  queue : ∃ q, queueOf o.eventType = .ok q

/-- A call staged these steps and touched nothing else the argument is about. -/
structure Stages (u u' : Uow) (added : List SearchStep) : Prop where
  tables : u'.tables = u.tables
  attempts : u'.newAttempts = u.newAttempts
  events : u'.newEvents = u.newEvents
  invocations : u'.newInvocations = u.newInvocations
  steps : u'.newSteps = u.newSteps ++ added
  /-- Every step comes with its message. -/
  outbox : ∃ rows, u'.newOutbox = u.newOutbox ++ rows ∧ List.Forall₂ Announces added rows

theorem Stages.rfl {u : Uow} : Stages u u [] :=
  ⟨.refl _, .refl _, .refl _, .refl _, by simp, [], by simp, .nil⟩

theorem Stages.trans {u v w : Uow} {a b : List SearchStep} (h : Stages u v a) (h' : Stages v w b) :
    Stages u w (a ++ b) := by
  obtain ⟨rows, hrows, hall⟩ := h.outbox
  obtain ⟨rows', hrows', hall'⟩ := h'.outbox
  exact ⟨h'.tables.trans h.tables, h'.attempts.trans h.attempts, h'.events.trans h.events,
    h'.invocations.trans h.invocations, by rw [h'.steps, h.steps, List.append_assoc],
    rows ++ rows', by rw [hrows', hrows, List.append_assoc], List.rel_append hall hall'⟩

theorem eventType_queue (run : SearchRun) (ty : StepType) :
    ∃ q, queueOf (Coordinator.eventType run ty) = .ok q := by
  unfold Coordinator.eventType
  split
  · exact ⟨.crawl, rfl⟩
  · split
    · exact ⟨.research, rfl⟩
    · exact ⟨.fast, rfl⟩

/-- A key that is free is scheduled. -/
theorem addStep_ok {env : Env} {u u' : Uow} {run : SearchRun} {key : String} {ty : StepType}
    {input : StepInput} (h : Coordinator.addStep env u run key ty input = .ok u')
    (hfresh : Coordinator.stepExists u.tables run 1 key = false) :
    ∃ id, Stages u u' [Coordinator.newStep id run key ty input] := by
  simp only [Coordinator.addStep, hfresh, Bool.false_eq_true, if_false, Uow.newUuid, bind_ok_iff,
    pure_ok_iff] at h
  obtain ⟨_, _, rfl⟩ := h
  exact ⟨_, rfl, rfl, rfl, rfl, rfl, _, rfl,
    .cons ⟨rfl, rfl, rfl, eventType_queue run ty⟩ .nil⟩

/-- Scheduling a list of free keys schedules one step for each entry. -/
theorem addSteps_ok {α : Type} {env : Env} {run : SearchRun} {key : α → String} {ty : StepType}
    {input : α → StepInput} {items : List α} {u u' : Uow}
    (h : Coordinator.addSteps env u run key ty input items = .ok u')
    (hfresh : ∀ a, Coordinator.stepExists u.tables run 1 (key a) = false) :
    ∃ added, Stages u u' added ∧ added.length = items.length ∧
      ∀ s ∈ added, ∃ id a, s = Coordinator.newStep id run (key a) ty (input a) := by
  induction items generalizing u with
  | nil =>
      obtain rfl := Except.ok.inj h
      exact ⟨[], Stages.rfl, rfl, by simp⟩
  | cons a rest ih =>
      simp only [Coordinator.addSteps, bind_ok_iff] at h
      obtain ⟨v, hv, h⟩ := h
      obtain ⟨id, hone⟩ := addStep_ok hv (hfresh a)
      obtain ⟨added, hrest, hlen, hall⟩ := ih h (by rw [hone.tables]; exact hfresh)
      refine ⟨_, hone.trans hrest, by simp [hlen], ?_⟩
      intro s hs
      rcases List.mem_append.mp hs with hs | hs
      · exact ⟨id, a, by simpa using hs⟩
      · exact hall s hs

/-! ## What a scheduled step looks like -/

/-- A step the coordinator may schedule when `step` has just ended. -/
structure Sched (db : Db) (run : SearchRun) (step s : SearchStep) : Prop where
  runId : s.runId = run.id
  planRevision : s.planRevision = 1
  status : s.status = .ready
  outputRef : s.outputRef = none
  key : KeyOk s.stepType s.stepKey
  /-- It is scheduled because `step` has ended. -/
  ended : step.isTerminal = true
  /-- It belongs to the same stage or a later one. -/
  above : step.stepType.level ≤ s.stepType.level
  /-- Everything below it has ended. -/
  below : ∀ row ∈ db.steps, row.runId = run.id → row.stepType.level < s.stepType.level →
    Coordinator.isLive row step = false
  /-- An extract continues the fetch that just ended. -/
  extract : s.stepType = .extract → ∃ r, step.stepKey = "fetch:" ++ r ∧ s.stepKey = "extract:" ++ r
  /-- Synthesis is given the output of the run's verification. -/
  synthesis : s.stepType = .synthesize → ∃ i, s.input = .synthesis i ∧ ∀ ref,
    i.verifyRef = some ref ↔ ∃ row ∈ db.steps, row.runId = run.id ∧ row.stepType = .verify ∧
      outputAfter row step = some ref
  /-- Synthesis is told about every step that ended badly. -/
  degraded : s.stepType = .synthesize → ∀ i, s.input = .synthesis i → ∀ row ∈ db.steps,
    row.runId = run.id → row.stepType ≠ .synthesize →
      (Coordinator.statusOf row step).endedBadly = true →
        ∃ code ∈ i.pipelineDegradationCodes, code ≠ ""
  /-- Nothing comes after the plan unless the plan succeeded. -/
  planned : 2 ≤ s.stepType.level →
    2 ≤ step.stepType.level ∨ step.stepType = .plan ∧ step.status = .succeeded

/-- What a call of the coordinator did: it staged allowed steps, and the run has work left. -/
def Scheduled (db : Db) (run : SearchRun) (step : SearchStep) (u u' : Uow) : Prop :=
  ∃ added, Stages u u' added ∧ (∀ s ∈ added, Sched db run step s) ∧
    (∃ k, ∀ s ∈ added, s.stepType = k) ∧
    (added ≠ [] ∨ ∃ row ∈ db.steps, row.runId = run.id ∧ Coordinator.isLive row step = true)

/-- One allowed step was staged. -/
theorem Scheduled.one {db : Db} {run : SearchRun} {step s : SearchStep} {u u' : Uow}
    (hst : Stages u u' [s]) (hs : Sched db run step s) : Scheduled db run step u u' :=
  ⟨[s], hst, by simpa using hs, ⟨s.stepType, by simp⟩, .inl (by simp)⟩

/-- Nothing was staged, because a live step of the run is left. -/
theorem Scheduled.wait {db : Db} {run : SearchRun} {step row : SearchStep} {u : Uow}
    (hr : row ∈ db.steps) (hrun : row.runId = run.id) (hl : Coordinator.isLive row step = true) :
    Scheduled db run step u u :=
  ⟨[], Stages.rfl, by simp, ⟨.route, by simp⟩, .inr ⟨row, hr, hrun, hl⟩⟩

/-- A new step below which everything has ended, and which is neither extract nor synthesis. -/
theorem sched_newStep {db : Db} {run : SearchRun} {cur step : SearchStep}
    (e : Ending db run cur step) {id : Uuid} {ty : StepType} {key : String} {input : StepInput}
    (hk : KeyOk ty key) (habove : cur.stepType.level ≤ ty.level) (hne : ty ≠ .extract)
    (hns : ty ≠ .synthesize)
    (hplanned : 2 ≤ ty.level →
      2 ≤ step.stepType.level ∨ step.stepType = .plan ∧ step.status = .succeeded)
    (hbelow : ∀ row ∈ db.steps, row.runId = run.id → row.stepType.level < ty.level →
      Coordinator.isLive row step = false) :
    Sched db run step (Coordinator.newStep id run key ty input) where
  runId := rfl
  planRevision := rfl
  status := rfl
  outputRef := rfl
  key := hk
  ended := e.ended
  above := by rw [e.same.stepType]; exact habove
  below := hbelow
  extract h := absurd h hne
  synthesis h := absurd h hns
  degraded h := absurd h hns
  planned := hplanned

/-- Only discovery, fetch and extract have more than one key. -/
theorem keyOk_one {ty : StepType} (h : ty ≠ .discovery) (h' : ty ≠ .fetch) (h'' : ty ≠ .extract) :
    ∀ a b, KeyOk ty a → KeyOk ty b → a = b := by
  intro a b ha hb
  cases ty with
  | discovery => exact absurd rfl h
  | fetch => exact absurd rfl h'
  | extract => exact absurd rfl h''
  | complete => exact ha.elim
  | route | plan | select | verify | synthesize => exact Eq.trans ha (Eq.symm hb)

namespace Ending

variable {db : Db} {run : SearchRun} {cur step row : SearchStep} {u u' : Uow} {env : Env}

/-- Outside the fetch stage a level has one kind. -/
theorem kind_of_level {a b : StepType} (h : a.level = b.level) (hb : b.level ≠ 4) : a = b := by
  revert h hb
  cases a <;> cases b <;> simp [StepType.level]

/-- A single-step stage has ended with its step, and so has everything below. -/
theorem not_isLive_all (e : Ending db run cur step) (hone : cur.stepType.level ≠ 4)
    (hd : cur.stepType ≠ .discovery) (hr : row ∈ db.steps) (hrun : row.runId = run.id) :
    Coordinator.isLive row step = false := by
  rcases Nat.lt_or_ge row.stepType.level cur.stepType.level with hlt | hge
  · exact e.not_isLive_below hr hrun hlt
  · have hty : row.stepType = cur.stepType :=
      kind_of_level (Nat.le_antisymm (e.top hr hrun) hge) hone
    refine e.not_isLive_kind hr hrun hty (keyOk_one hd ?_ ?_)
    · intro hf; simp [hf, StepType.level] at hone
    · intro hf; simp [hf, StepType.level] at hone

/-- The plan is scheduled when routing ends. -/
theorem addStep_plan (e : Ending db run cur step) (hu : u.tables = db.toTables)
    (hty : cur.stepType = .route) {input : StepInput}
    (h : Coordinator.addStep env u run "plan" .plan input = .ok u') :
    Scheduled db run step u u' := by
  have hfresh : Coordinator.stepExists u.tables run 1 "plan" = false := by
    rw [hu]; exact e.fresh (t := .plan) rfl (by simp [hty, StepType.level])
  obtain ⟨id, hst⟩ := addStep_ok h hfresh
  refine Scheduled.one hst ?_
  refine sched_newStep e rfl (by simp [hty, StepType.level]) (by simp) (by simp)
    (by simp [StepType.level]) ?_
  intro row hr hrun _
  exact e.not_isLive_all (by simp [hty, StepType.level]) (by simp [hty]) hr hrun

/-- A batch of steps for the next stage: the searches of a plan, the fetches of a selection. -/
theorem addSteps_next (e : Ending db run cur step) (hu : u.tables = db.toTables) {α : Type}
    {key : α → String} {ty : StepType} {input : α → StepInput} {items : List α}
    (hne : items ≠ []) (hk : ∀ a, KeyOk ty (key a)) (hone : cur.stepType.level ≠ 4)
    (hd : cur.stepType ≠ .discovery) (hlt : cur.stepType.level < ty.level) (hx : ty ≠ .extract)
    (hy : ty ≠ .synthesize)
    (hplanned : 2 ≤ step.stepType.level ∨ step.stepType = .plan ∧ step.status = .succeeded)
    (h : Coordinator.addSteps env u run key ty input items = .ok u') :
    Scheduled db run step u u' := by
  obtain ⟨added, hst, hlen, hall⟩ := addSteps_ok h fun a => by
    rw [hu]; exact e.fresh (hk a) hlt
  refine ⟨added, hst, ?_, ⟨ty, ?_⟩, .inl ?_⟩
  · intro s hs
    obtain ⟨id, a, rfl⟩ := hall s hs
    refine sched_newStep e (hk a) (Nat.le_of_lt hlt) hx hy (fun _ => hplanned) ?_
    intro row hr hrun _
    exact e.not_isLive_all hone hd hr hrun
  · intro s hs
    obtain ⟨id, a, rfl⟩ := hall s hs
    rfl
  · rintro rfl
    exact hne (List.length_eq_zero_iff.mp hlen.symm)

/-- `_maybe_select` schedules the selection once every search has ended. -/
theorem maybeSelect_ok (e : Ending db run cur step) (hu : u.tables = db.toTables)
    (hty : cur.stepType = .discovery) (h : Coordinator.maybeSelect env u run step = .ok u') :
    Scheduled db run step u u' := by
  simp only [Coordinator.maybeSelect, hu] at h
  split at h
  · -- returned early: the current step is a search, so some other search is live
    rename_i hearly
    obtain rfl := pure_ok_iff.mp h
    rw [Bool.or_eq_true] at hearly
    rcases hearly with hempty | hany
    · have hcur : cur ∈ (db.stepRows run.id).filter (·.stepType = .discovery) := by
        simp [e.mem, e.run_id, hty]
      rw [List.isEmpty_iff.mp hempty] at hcur
      simp at hcur
    · obtain ⟨row, hrow, hl⟩ := List.any_eq_true.mp hany
      simp only [List.mem_filter, Tables.mem_stepRows] at hrow
      exact .wait hrow.1.1 hrow.1.2 hl
  · rename_i hall
    simp only [Bool.or_eq_true, not_or, Bool.not_eq_true, List.any_eq_false] at hall
    rw [bind_ok_iff] at h
    obtain ⟨planRef, _, h⟩ := h
    have hfresh : Coordinator.stepExists u.tables run 1 "select" = false := by
      rw [hu]; exact e.fresh (t := .select) rfl (by simp [hty, StepType.level])
    obtain ⟨id, hst⟩ := addStep_ok h hfresh
    refine Scheduled.one hst ?_
    refine sched_newStep e rfl (by simp [hty, StepType.level]) (by simp) (by simp)
      (fun _ => .inl (by simp [e.same.stepType, hty, StepType.level])) ?_
    intro row hr hrun hlt
    rcases Nat.lt_or_ge row.stepType.level cur.stepType.level with hb | hge
    · exact e.not_isLive_below hr hrun hb
    · have hd : row.stepType = .discovery := by
        rw [← hty]
        exact kind_of_level (Nat.le_antisymm (e.top hr hrun) hge) (by simp [hty, StepType.level])
      simpa using hall.2 row (by simp [hr, hrun, hd])

/-- The extract of a fetch that is ending is new: no extract outlives its fetch. -/
theorem extract_fresh (e : Ending db run cur step) (hty : cur.stepType = .fetch) :
    ∃ r, step.stepKey = "fetch:" ++ r ∧
      Coordinator.stepExists db.toTables run 1 ("extract:" ++ r) = false := by
  have hkey := e.shape.key cur e.mem
  rw [hty] at hkey
  obtain ⟨r, hr⟩ := hkey
  refine ⟨r, e.same.stepKey.trans hr, ?_⟩
  rw [Bool.eq_false_iff]
  intro hex
  simp only [Coordinator.stepExists, List.any_eq_true, Bool.and_eq_true, decide_eq_true_eq] at hex
  obtain ⟨x, hx, ⟨hxrun, _⟩, hxkey⟩ := hex
  have hxty : x.stepType = .extract := keyOk_unique (e.shape.key x hx) ⟨r, hxkey⟩
  obtain ⟨f, hf, hfrun, hfterm, r', hfkey, hxkey'⟩ := e.shape.extract x hx hxty
  have hrr : r' = r := by
    have := hxkey'.symm.trans hxkey
    exact String.toList_inj.mp (by simpa using congrArg String.toList this)
  have : f = cur := eq_of_key e.shape hf e.mem ((hfrun.trans hxrun).trans e.run_id.symm)
    (by rw [hfkey, hr, hrr])
  rw [this, e.live] at hfterm
  simp at hfterm

/-- The extract continues the fetch. -/
theorem addStep_extract (e : Ending db run cur step) (hu : u.tables = db.toTables)
    (hty : cur.stepType = .fetch) {input : StepInput}
    (h : Coordinator.addStep env u run (Text.replaceFirst step.stepKey "fetch:" "extract:") .extract
      input = .ok u') :
    Scheduled db run step u u' := by
  obtain ⟨r, hstepKey, hfresh⟩ := e.extract_fresh hty
  rw [← hu] at hfresh
  rw [hstepKey, Text.replaceFirst_append _ _ _ (by decide)] at h
  obtain ⟨id, hst⟩ := addStep_ok h hfresh
  refine Scheduled.one hst ?_
  exact {
    runId := rfl, planRevision := rfl, status := rfl, outputRef := rfl, key := ⟨r, rfl⟩
    ended := e.ended
    above := by rw [e.same.stepType, hty]; simp [Coordinator.newStep, StepType.level]
    below := fun row hrow hrun hlt =>
      e.not_isLive_below hrow hrun (by simpa [hty, StepType.level, Coordinator.newStep] using hlt)
    extract := fun _ => ⟨r, hstepKey, rfl⟩
    synthesis := fun hsyn => by simp [Coordinator.newStep] at hsyn
    degraded := fun hsyn => by simp [Coordinator.newStep] at hsyn
    planned := fun _ => .inl (by simp [e.same.stepType, hty, StepType.level]) }

/-! ## Synthesis -/

/-- The rows of a run come without repetition. -/
theorem stepRows_nodup (db : Db) (runId : Uuid) : (db.stepRows runId).Nodup := by
  have h : db.steps.Nodup := nodup_of_keys db.valid.pk_steps
  exact (List.perm_insertionSort _ _).nodup_iff.mpr (h.filter _)

/-- A run has one verify step. -/
theorem verify_unique (hsh : Shape db.toTables) {a b : SearchStep} (ha : a ∈ db.steps)
    (hb : b ∈ db.steps) (hrun : a.runId = b.runId) (hta : a.stepType = .verify)
    (htb : b.stepType = .verify) : a = b := by
  have hka := hsh.key a ha
  have hkb := hsh.key b hb
  rw [hta] at hka
  rw [htb] at hkb
  exact eq_of_key hsh ha hb hrun (Eq.trans hka (Eq.symm hkb))

/--
**There is at most one verify output, and it is the verify step's.** The row of
the step that is just ending has no output in the database yet; the coordinator
takes it from memory.
-/
theorem outputsOf_verify (e : Ending db run cur step) :
    ∃ o : Option ArtifactRef,
      Coordinator.outputsOf .verify (db.stepRows run.id) step = o.toList ∧
      ∀ ref, o = some ref ↔ ∃ row ∈ db.steps, row.runId = run.id ∧ row.stepType = .verify ∧
        outputAfter row step = some ref := by
  by_cases hex : ∃ v ∈ db.steps, v.runId = run.id ∧ v.stepType = .verify
  · obtain ⟨v, hv, hvrun, hvty⟩ := hex
    have honly : ∀ x ∈ db.stepRows run.id, x ≠ v → x.stepType ≠ .verify := by
      intro x hx hne hxty
      rw [Tables.mem_stepRows] at hx
      exact hne (verify_unique e.shape hx.1 hv (hx.2.trans hvrun.symm) hxty hvty)
    have hvmem : v ∈ db.stepRows run.id := by simp [hv, hvrun]
    have hrefs := filterMap_of_unique (g := fun row : SearchStep =>
        if row.stepType = .verify ∧ Coordinator.statusOf row step = .succeeded then row.outputRef
        else none) (stepRows_nodup db run.id) hvmem
      (fun x hx hne => by simp [honly x hx hne])
    have hrhs : ∀ ref, outputAfter v step = some ref ↔ ∃ row ∈ db.steps, row.runId = run.id ∧
        row.stepType = .verify ∧ outputAfter row step = some ref := by
      intro ref
      refine ⟨fun h => ⟨v, hv, hvrun, hvty, h⟩, ?_⟩
      rintro ⟨row, hr, hrun, hty, h⟩
      rwa [verify_unique e.shape hv hr (hvrun.trans hrun.symm) hvty hty]
    refine ⟨outputAfter v step, ?_, hrhs⟩
    by_cases hid : v.id = step.id
    · -- the verify step is the one that is ending
      have hvc : v = cur := eq_of_key_eq db.valid.pk_steps hv e.mem (hid.trans e.same.id)
      subst hvc
      have hnone : v.outputRef = none := by
        refine e.shape.output_none hv fun hs => ?_
        have := e.live
        simp [SearchStep.isTerminal, hs, StepStatus.isTerminal] at this
      have hst : step.stepType = .verify := e.same.stepType.trans hvty
      simp only [Coordinator.outputsOf, hrefs, hst, outputAfter, hid, if_true, true_and]
      rw [hnone]
      by_cases hs : step.status = .succeeded
      · cases ho : step.outputRef <;> simp [hs]
      · have : step.outputRef = none := by
          have := mt e.output.mpr hs
          simpa using this
        simp [hs, this]
    · have hst : step.stepType ≠ .verify := by
        intro hs
        have hct : cur.stepType = .verify := e.same.stepType.symm.trans hs
        have : v = cur := verify_unique e.shape hv e.mem (hvrun.trans e.run_id.symm) hvty hct
        exact hid (by rw [this, e.same.id])
      simp only [Coordinator.outputsOf, hrefs, hst, false_and, if_false]
      simp only [hvty, true_and, outputAfter, Coordinator.statusOf, if_neg hid]
      by_cases hs : v.status = .succeeded
      · rw [if_pos hs]
      · rw [if_neg hs, e.shape.output_none hv hs]
  · have hno : ∀ x ∈ db.stepRows run.id, x.stepType ≠ .verify := by
      intro x hx hty
      rw [Tables.mem_stepRows] at hx
      exact hex ⟨x, hx.1, hx.2, hty⟩
    have hst : step.stepType ≠ .verify := by
      rw [e.same.stepType]
      exact hno cur (by simp [e.mem, e.run_id])
    refine ⟨none, ?_, ?_⟩
    · simp only [Coordinator.outputsOf, hst, false_and, if_false, Option.toList_none,
        List.filterMap_eq_nil_iff]
      intro x hx
      simp [hno x hx]
    · intro ref
      simp only [reduceCtorEq, false_iff]
      rintro ⟨row, hr, hrun, hty, -⟩
      exact hex ⟨row, hr, hrun, hty⟩

/-- A step that ended badly leaves a code. -/
theorem rowCodes_mem {rows : List SearchStep} {row step : SearchStep} {codes : List String}
    (hrow : row ∈ rows) (hbad : (Coordinator.statusOf row step).endedBadly = true) :
    ∃ code ∈ Coordinator.sortedSet (codes ++ Coordinator.rowCodes rows step), code ≠ "" := by
  have hst : Coordinator.statusOf row step = .failed ∨ Coordinator.statusOf row step = .cancelled := by
    revert hbad
    cases Coordinator.statusOf row step <;> simp [StepStatus.endedBadly]
  refine ⟨Text.lowerAscii row.stepType.value ++ "_"
    ++ Text.lowerAscii (Coordinator.statusOf row step).value, ?_, ?_⟩
  · rw [Coordinator.sortedSet, List.mem_insertionSort, List.mem_dedup, List.mem_append]
    refine .inr (List.mem_filterMap.mpr ⟨row, hrow, ?_⟩)
    simp only [if_pos hst]
  · intro hempty
    have := congrArg String.length hempty
    simp at this

/-- `_maybe_synthesize` schedules synthesis once everything else has ended. -/
theorem maybeSynthesize_ok (e : Ending db run cur step) (hu : u.tables = db.toTables)
    (hty : cur.stepType ≠ .synthesize)
    (hplanned : 2 ≤ step.stepType.level ∨ step.stepType = .plan ∧ step.status = .succeeded)
    {ports : Ports} {codes : List String}
    (h : Coordinator.maybeSynthesize ports env u run step codes = .ok u') :
    Scheduled db run step u u' := by
  simp only [Coordinator.maybeSynthesize, hu] at h
  split at h
  · rename_i hany
    obtain rfl := pure_ok_iff.mp h
    obtain ⟨row, hrow, hl⟩ := List.any_eq_true.mp hany
    simp only [List.mem_filter, Tables.mem_stepRows] at hrow
    exact .wait hrow.1.1 hrow.1.2 hl
  · rename_i hall
    rw [Bool.not_eq_true, List.any_eq_false] at hall
    simp only [bind_ok_iff] at h
    obtain ⟨planRef, _, _, _, failures, _, h⟩ := h
    have hkey := e.shape.key cur e.mem
    have hlt : cur.stepType.level < StepType.synthesize.level := by
      revert hty hkey
      cases cur.stepType <;> simp [StepType.level, KeyOk]
    have hfresh : Coordinator.stepExists u.tables run 1 "synthesize" = false := by
      rw [hu]; exact e.fresh (t := .synthesize) rfl hlt
    obtain ⟨id, hst⟩ := addStep_ok h hfresh
    refine Scheduled.one hst ?_
    obtain ⟨o, ho, hiff⟩ := e.outputsOf_verify
    exact {
      runId := rfl, planRevision := rfl, status := rfl, outputRef := rfl, key := rfl
      ended := e.ended
      above := by rw [e.same.stepType]; exact Nat.le_of_lt hlt
      below := fun row hr hrun hl => by
        have hns : row.stepType ≠ .synthesize := by
          intro hs
          simp [hs, Coordinator.newStep] at hl
        simpa using hall row (by simp [hr, hrun, hns])
      extract := fun hex => by simp [Coordinator.newStep] at hex
      synthesis := fun _ => ⟨_, rfl, fun ref => by
        simp only [ho, ← hiff ref]
        cases o <;> simp⟩
      degraded := fun _ i hi row hr hrun hns hbad => by
        obtain rfl := StepInput.synthesis.inj hi
        exact rowCodes_mem (by simp [hr, hrun, hns]) hbad
      planned := fun _ => hplanned }

/-! ## Verification -/

/-- The stage before synthesis that holds fetches, extracts and the verification. -/
theorem verify_fresh (e : Ending db run cur step)
    (hnone : (db.stepRows run.id).find? (·.stepType = .verify) = none) :
    Coordinator.stepExists db.toTables run 1 "verify" = false := by
  rw [Bool.eq_false_iff]
  intro hex
  simp only [Coordinator.stepExists, List.any_eq_true, Bool.and_eq_true, decide_eq_true_eq] at hex
  obtain ⟨row, hr, ⟨hrun, _⟩, hkey⟩ := hex
  have hty : row.stepType = .verify := keyOk_unique (e.shape.key row hr) hkey
  have := List.find?_eq_none.mp hnone row (by simp [hr, hrun])
  simp [hty] at this

/-- The verification is scheduled while the current step's stage is the last one. -/
theorem addStep_verify (e : Ending db run cur step) (hu : u.tables = db.toTables)
    (hlevel : cur.stepType.level = 4)
    (hnone : (db.stepRows run.id).find? (·.stepType = .verify) = none) {input : StepInput}
    (h : Coordinator.addStep env u run "verify" .verify input = .ok u') :
    Scheduled db run step u u' := by
  obtain ⟨id, hst⟩ := addStep_ok h (by rw [hu]; exact e.verify_fresh hnone)
  refine Scheduled.one hst ?_
  refine sched_newStep e rfl (by rw [hlevel]; simp [StepType.level]) (by simp) (by simp)
    (fun _ => .inl (by rw [e.same.stepType, hlevel]; omega)) ?_
  intro row hr hrun hlt
  refine e.not_isLive_below hr hrun ?_
  rw [hlevel]
  exact hlt

/--
`_maybe_verify`: with a verification on record it only waits for synthesis;
without one it schedules it, early or once the stage is done.
-/
theorem maybeVerify_ok (e : Ending db run cur step) (hu : u.tables = db.toTables)
    (hlevel : cur.stepType.level = 4) {ports : Ports} {codes : List String}
    (h : Coordinator.maybeVerify ports env u run step codes = .ok u') :
    Scheduled db run step u u' := by
  have hsyn : cur.stepType ≠ .synthesize := by
    intro hs; simp [hs, StepType.level] at hlevel
  have hplanned : 2 ≤ step.stepType.level ∨ step.stepType = .plan ∧ step.status = .succeeded :=
    .inl (by rw [e.same.stepType, hlevel]; omega)
  -- a live fetch or extract is the work that is left
  have hwait : ((db.stepRows run.id).filter fun row =>
        row.stepType = .fetch || row.stepType = .extract).any (Coordinator.isLive · step) = true →
      Scheduled db run step u u := by
    intro hany
    obtain ⟨row, hrow, hl⟩ := List.any_eq_true.mp hany
    simp only [List.mem_filter, Tables.mem_stepRows] at hrow
    exact .wait hrow.1.1 hrow.1.2 hl
  simp only [Coordinator.maybeVerify, hu] at h
  split at h
  · -- a verification exists
    rename_i existing hfind
    split at h
    · exact e.maybeSynthesize_ok hu hsyn hplanned h
    · rename_i hnot
      obtain rfl := pure_ok_iff.mp h
      simp only [Bool.and_eq_true, Bool.not_eq_true', not_and, Bool.not_eq_false] at hnot
      by_cases hall : ((db.stepRows run.id).filter fun row =>
          row.stepType = .fetch || row.stepType = .extract).any (Coordinator.isLive · step) = true
      · exact hwait hall
      · have hmem := List.mem_of_find?_eq_some hfind
        rw [Tables.mem_stepRows] at hmem
        exact .wait hmem.1 hmem.2 (hnot (by simpa using hall))
  · rename_i hfind
    split at h
    · split at h
      · exact e.maybeSynthesize_ok hu hsyn hplanned h
      · rename_i hnot
        obtain rfl := pure_ok_iff.mp h
        rw [Bool.not_eq_true, Bool.not_eq_false'] at hnot
        exact hwait hnot
    · rw [bind_ok_iff] at h
      obtain ⟨planRef, _, h⟩ := h
      split at h
      · -- the stage is done
        rw [bind_ok_iff] at h
        obtain ⟨_, hadm, h⟩ := h
        obtain rfl := Except.ok.inj hadm
        exact e.addStep_verify hu hlevel hfind h
      · rename_i hnot
        rw [Bool.not_eq_true, Bool.not_eq_false'] at hnot
        rw [bind_ok_iff] at h
        obtain ⟨admitted, _, h⟩ := h
        split at h
        · exact e.addStep_verify hu hlevel hfind h
        · obtain rfl := pure_ok_iff.mp h
          exact hwait hnot

end Ending

/-! ## The two hooks -/

/-- Which conversation a row is, whatever its timestamp. -/
structure Conversation.Same (c c' : Conversation) : Prop where
  id : c'.id = c.id
  userId : c'.userId = c.userId
  title : c'.title = c.title
  creationIdempotencyKey : c'.creationIdempotencyKey = c.creationIdempotencyKey
  creationRequestHash : c'.creationRequestHash = c.creationRequestHash

/-- Which response a row is, whatever has become of it. -/
structure ResponseRun.Same (r r' : ResponseRun) : Prop where
  id : r'.id = r.id
  conversationId : r'.conversationId = r.conversationId
  messageId : r'.messageId = r.messageId

/-- What the coordinator writes beside the workflow's tables. -/
inductive Beside (db : Db) (run run' : SearchRun) (u' : Uow) : Prop
  /-- Nothing: the run goes on. -/
  | nothing (hrun : run' = run) (htables : u'.tables = db.toTables)
  /-- The run ends, and its response with it. -/
  | settled (hterm : run'.isTerminal = true) (hnew : u'.newSteps = [])
      (messages : List Message) (answer : ResponseRun → ResponseRun)
      (touch : Conversation → Conversation)
      (hmessages : u'.tables.messages = db.messages ++ messages)
      (hauthor : ∀ m ∈ messages, m.authorUserId = none)
      (hanswer : ∀ r, ResponseRun.Same r (answer r) ∧ (answer r).status ≠ .queued)
      (hresponses : u'.tables.responseRuns
        = update (·.id) run.responseRunId answer db.responseRuns)
      (htouch : ∀ c, Conversation.Same c (touch c))
      (hconversations : u'.tables.conversations = db.conversations.map touch)

/-- What the coordinator did to the transaction and the run. -/
structure Advanced (db : Db) (run run' : SearchRun) (step : SearchStep) (u' : Uow) : Prop where
  steps : u'.tables.steps = db.steps
  runs : u'.tables.runs = db.runs
  attempts : u'.tables.attempts = db.attempts
  events : u'.tables.events = db.events
  outbox : u'.tables.outbox = db.outbox
  invocations : u'.tables.invocations = db.invocations
  newAttempts : u'.newAttempts = []
  newEvents : u'.newEvents = []
  newInvocations : u'.newInvocations = []
  newOutbox : List.Forall₂ Announces u'.newSteps u'.newOutbox
  ran : SearchRun.Ran run run'
  usage : run'.usage = run.usage
  beside : Beside db run run' u'
  sched : ∀ s ∈ u'.newSteps, Sched db run step s
  kind : ∃ k, ∀ s ∈ u'.newSteps, s.stepType = k
  /-- **The run has ended, or it has work left.** -/
  progress : run'.isTerminal = true ∨ u'.newSteps ≠ [] ∨
    ∃ row ∈ db.steps, row.runId = run.id ∧ Coordinator.isLive row step = true
  /-- The coordinator ends a run only when nothing of it is left to do. -/
  lone : run' = run ∨
    ∀ row ∈ db.steps, row.runId = run.id → Coordinator.isLive row step = false

theorem Scheduled.advanced {db : Db} {run : SearchRun} {step : SearchStep} {u' : Uow}
    (h : Scheduled db run step (Uow.begin db) u') : Advanced db run run step u' := by
  obtain ⟨added, hst, hsched, hkind, hprog⟩ := h
  have hnew : u'.newSteps = added := by simpa [Uow.begin] using hst.steps
  obtain ⟨rows, hrows, hall⟩ := hst.outbox
  exact {
    steps := by rw [hst.tables]; rfl
    runs := by rw [hst.tables]; rfl
    attempts := by rw [hst.tables]; rfl
    events := by rw [hst.tables]; rfl
    outbox := by rw [hst.tables]; rfl
    invocations := by rw [hst.tables]; rfl
    newAttempts := by rw [hst.attempts]; rfl
    newEvents := by rw [hst.events]; rfl
    newInvocations := by rw [hst.invocations]; rfl
    newOutbox := by
      rw [hnew, hrows]
      simpa [Uow.begin] using hall
    ran := .rfl
    usage := rfl
    beside := .nothing rfl hst.tables
    sched := by rw [hnew]; exact hsched
    kind := by rw [hnew]; exact hkind
    progress := by rw [hnew]; exact .inr hprog
    lone := .inl rfl }

/-- A run that ends without new work. -/
theorem advanced_of_settled {db : Db} {run run' : SearchRun} {step : SearchStep} {t : Tables}
    (hsteps : t.steps = db.steps) (hruns : t.runs = db.runs) (hatt : t.attempts = db.attempts)
    (hev : t.events = db.events) (hout : t.outbox = db.outbox)
    (hinv : t.invocations = db.invocations) (hran : SearchRun.Ran run run')
    (husage : run'.usage = run.usage) (hterm : run'.isTerminal = true)
    (hlone : ∀ row ∈ db.steps, row.runId = run.id → Coordinator.isLive row step = false)
    (hbeside : Beside db run run' { Uow.begin db with tables := t }) :
    Advanced db run run' step { Uow.begin db with tables := t } where
  steps := hsteps
  runs := hruns
  attempts := hatt
  events := hev
  outbox := hout
  invocations := hinv
  newAttempts := rfl
  newEvents := rfl
  newInvocations := rfl
  newOutbox := .nil
  ran := hran
  usage := husage
  beside := hbeside
  sched := by simp [Uow.begin]
  kind := ⟨.route, by simp [Uow.begin]⟩
  progress := .inl hterm
  lone := .inr hlone

/-- The answer is written beside the workflow's tables. -/
theorem persistAnswer_ok {db : Db} {run run' : SearchRun} {step : SearchStep} {ports : Ports}
    {env : Env} {t : Tables} {p : Payload}
    (h : Coordinator.persistAnswer ports env db.toTables run p = .ok t)
    (hran : SearchRun.Ran run run') (husage : run'.usage = run.usage)
    (hterm : run'.isTerminal = true)
    (hlone : ∀ row ∈ db.steps, row.runId = run.id → Coordinator.isLive row step = false) :
    Advanced db run run' step { Uow.begin db with tables := t } := by
  unfold Coordinator.persistAnswer at h
  split at h
  · rename_i answer _
    obtain rfl := pure_ok_iff.mp h
    refine advanced_of_settled rfl rfl rfl rfl rfl rfl hran husage hterm hlone ?_
    let message : Message := {
      id := ports.uuid5 run.id "assistant-message", conversationId := run.conversationId
      authorUserId := none, role := .assistant, content := answer
      idempotencyKey := some ("assistant:" ++ run.id.str), createdAt := env.hookNow }
    let conflict := db.messages.any fun m => m.id = message.id
      || (m.conversationId = message.conversationId && m.idempotencyKey = message.idempotencyKey)
    refine .settled hterm rfl (if conflict then [] else [message])
      (fun r => { r with status := .succeeded, outputMessageId := some message.id,
                         updatedAt := env.hookNow })
      (fun c => if c.id = run.conversationId then { c with updatedAt := env.hookNow } else c)
      ?_ ?_ (fun r => ⟨⟨rfl, rfl, rfl⟩, ?_⟩) rfl ?_ rfl
    · show (if conflict then db.messages else db.messages ++ [message]) = _
      split
      · rw [List.append_nil]
      · rfl
    · intro m hm
      split at hm
      · simp at hm
      · obtain rfl := List.mem_singleton.mp hm
        rfl
    · simp
    · intro c
      split
      · exact ⟨rfl, rfl, rfl, rfl, rfl⟩
      · exact ⟨rfl, rfl, rfl, rfl, rfl⟩
  · simp at h

/-- **A step that succeeds leaves its run with work or ends it.** -/
theorem onSuccess_ok {db : Db} {run run' : SearchRun} {cur step : SearchStep} {u' : Uow}
    {ports : Ports} {env : Env} {ref : ArtifactRef} (e : Ending db run cur step)
    (hst : step.status = .succeeded)
    (h : Coordinator.onSuccess ports env (Uow.begin db) run step ref = .ok (u', run')) :
    Advanced db run run' step u' := by
  simp only [Coordinator.onSuccess, bind_ok_iff] at h
  obtain ⟨p, _, h⟩ := h
  have hkey := e.shape.key cur e.mem
  have hlevel : ∀ {ty}, cur.stepType = ty → 2 ≤ ty.level →
      2 ≤ step.stepType.level ∨ step.stepType = .plan ∧ step.status = .succeeded := by
    intro ty hty hle
    exact .inl (by rw [e.same.stepType, hty]; exact hle)
  rw [e.same.stepType] at h
  cases hty : cur.stepType with
  | route =>
      simp only [hty, bind_ok_iff, pure_ok_iff, Prod.mk.injEq] at h
      obtain ⟨v, hv, rfl, rfl⟩ := h
      exact (e.addStep_plan rfl hty hv).advanced
  | plan =>
      simp only [hty, bind_ok_iff] at h
      obtain ⟨v, hv, h⟩ := h
      have hplan : 2 ≤ step.stepType.level ∨ step.stepType = .plan ∧ step.status = .succeeded :=
        .inr ⟨e.same.stepType.trans hty, hst⟩
      by_cases hq : p.queries = []
      · rw [hq] at hv
        obtain rfl := Except.ok.inj hv
        simp only [hq, List.isEmpty_nil, if_true, bind_ok_iff, pure_ok_iff, Prod.mk.injEq] at h
        obtain ⟨v, hv, rfl, rfl⟩ := h
        exact (e.maybeSynthesize_ok rfl (by simp [hty]) hplan hv).advanced
      · simp only [List.isEmpty_iff, hq, if_false, pure_ok_iff, Prod.mk.injEq] at h
        obtain ⟨rfl, rfl⟩ := h
        exact (e.addSteps_next rfl hq keyOk_discover (by simp [hty, StepType.level])
          (by simp [hty]) (by simp [hty, StepType.level]) (by simp) (by simp) hplan hv).advanced
  | discovery =>
      simp only [hty, bind_ok_iff, pure_ok_iff, Prod.mk.injEq] at h
      obtain ⟨v, hv, rfl, rfl⟩ := h
      exact (e.maybeSelect_ok rfl hty hv).advanced
  | select =>
      simp only [hty] at h
      by_cases hsel : p.selected = []
      · simp only [hsel, List.isEmpty_nil, if_true, bind_ok_iff, pure_ok_iff, Prod.mk.injEq] at h
        obtain ⟨v, hv, rfl, rfl⟩ := h
        exact (e.maybeSynthesize_ok rfl (by simp [hty]) (hlevel hty (by decide)) hv).advanced
      · simp only [List.isEmpty_iff, hsel, if_false] at h
        split at h
        · simp only [bind_ok_iff, pure_ok_iff, Prod.mk.injEq] at h
          obtain ⟨v, hv, rfl, rfl⟩ := h
          have hne : Coordinator.enumerate p.selected ≠ [] := by
            simp [Coordinator.enumerate, hsel]
          exact (e.addSteps_next rfl hne keyOk_fetch (by simp [hty, StepType.level])
            (by simp [hty]) (by simp [hty, StepType.level]) (by simp) (by simp)
            (hlevel hty (by decide)) hv).advanced
        · simp at h
  | fetch =>
      simp only [hty, bind_ok_iff, pure_ok_iff, Prod.mk.injEq] at h
      obtain ⟨v, hv, rfl, rfl⟩ := h
      exact (e.addStep_extract rfl hty hv).advanced
  | extract =>
      simp only [hty, bind_ok_iff, pure_ok_iff, Prod.mk.injEq] at h
      obtain ⟨v, hv, rfl, rfl⟩ := h
      exact (e.maybeVerify_ok rfl (by simp [hty, StepType.level]) hv).advanced
  | verify =>
      simp only [hty, bind_ok_iff, pure_ok_iff, Prod.mk.injEq] at h
      obtain ⟨v, hv, rfl, rfl⟩ := h
      exact (e.maybeSynthesize_ok rfl (by simp [hty]) (hlevel hty (by decide)) hv).advanced
  | synthesize =>
      simp only [hty, bind_ok_iff] at h
      obtain ⟨t, ht, h⟩ := h
      split at h
      · split at h
        · simp only [bind_ok_iff, pure_ok_iff, Prod.mk.injEq] at h
          obtain ⟨r, hr, rfl, rfl⟩ := h
          obtain ⟨hran, hstatus, husage⟩ := SearchRun.succeed_ok hr
          exact persistAnswer_ok ht hran husage
            (by simp [SearchRun.isTerminal, hstatus, RunStatus.isTerminal])
            (fun _ => e.not_isLive_all (by simp [hty, StepType.level]) (by simp [hty]))
        · simp at h
      · simp at h
  | complete => rw [hty] at hkey; exact hkey.elim

/-- A retry, or a run that has ended, asks nothing of the coordinator. -/
theorem onFailure_quiet {run run' : SearchRun} {step : SearchStep} {u u' : Uow} {ports : Ports}
    {env : Env} {error : TypedError} {disposition : Disposition}
    (hq : disposition = .retryScheduled ∨ run.isTerminal = true)
    (h : Coordinator.onFailure ports env u run step error disposition = .ok (u', run')) :
    u' = u ∧ run' = run := by
  have hc : (decide (disposition = .retryScheduled) || run.isTerminal) = true := by
    rcases hq with hd | hr
    · simp [hd]
    · simp [hr]
  simp only [Coordinator.onFailure, hc, if_true, pure_ok_iff, Prod.mk.injEq] at h
  exact ⟨h.1.symm, h.2.symm⟩

/-- Failing the run ends it and leaves the workflow's tables alone. -/
theorem failRun_ok {db : Db} {run run' : SearchRun} {step : SearchStep} {u' : Uow} {env : Env}
    {reason : StopReason}
    (hlone : ∀ row ∈ db.steps, row.runId = run.id → Coordinator.isLive row step = false)
    (h : Coordinator.failRun env (Uow.begin db) run reason = .ok (u', run')) :
    Advanced db run run' step u' := by
  simp only [Coordinator.failRun] at h
  have key : ∀ r, SearchRun.Ran run r → r.usage = run.usage → r.isTerminal = true → run' = r →
      u' = { Uow.begin db with tables := { (Uow.begin db).tables with
        responseRuns := update (·.id) r.responseRunId
          (fun r => { r with status := .failed, updatedAt := env.hookNow })
          (Uow.begin db).tables.responseRuns } } → Advanced db run run' step u' := by
    rintro r hran husage hterm rfl rfl
    refine advanced_of_settled rfl rfl rfl rfl rfl rfl hran husage hterm hlone ?_
    refine .settled hterm rfl [] (fun r => { r with status := .failed, updatedAt := env.hookNow })
      id (List.append_nil _).symm (by simp) (fun r => ⟨⟨rfl, rfl, rfl⟩, by simp⟩) ?_
      (fun c => ⟨rfl, rfl, rfl, rfl, rfl⟩) (List.map_id _).symm
    rw [← hran.responseRunId]
    rfl
  split at h
  · rename_i hterm
    simp only [bind_ok_iff, pure_ok_iff, Prod.mk.injEq] at h
    obtain ⟨r, hr, rfl, rfl⟩ := h
    obtain rfl := Except.ok.inj hr
    exact key _ .rfl rfl hterm rfl rfl
  · simp only [bind_ok_iff, pure_ok_iff, Prod.mk.injEq] at h
    obtain ⟨r, hr, rfl, rfl⟩ := h
    obtain ⟨hran, hstatus, husage⟩ := SearchRun.fail_ok hr
    exact key _ hran husage (by simp [SearchRun.isTerminal, hstatus, RunStatus.isTerminal]) rfl rfl

/-- **A step that ends badly leaves its run with work or ends it.** -/
theorem onFailure_ok {db : Db} {run run' : SearchRun} {cur step : SearchStep} {u' : Uow}
    {ports : Ports} {env : Env} {error : TypedError} {disposition : Disposition}
    (e : Ending db run cur step) (hd : disposition ≠ .retryScheduled)
    (hr : run.isTerminal = false)
    (h : Coordinator.onFailure ports env (Uow.begin db) run step error disposition
      = .ok (u', run')) :
    Advanced db run run' step u' := by
  have hc : (decide (disposition = .retryScheduled) || run.isTerminal) = false := by simp [hd, hr]
  simp only [Coordinator.onFailure, hc, Bool.false_eq_true, if_false] at h
  have hkey := e.shape.key cur e.mem
  rw [e.same.stepType] at h
  cases hty : cur.stepType with
  | route | plan | synthesize =>
      simp only [hty] at h
      exact failRun_ok
        (fun _ => e.not_isLive_all (by simp [hty, StepType.level]) (by simp [hty])) h
  | discovery =>
      simp only [hty, bind_ok_iff, pure_ok_iff, Prod.mk.injEq] at h
      obtain ⟨v, hv, rfl, rfl⟩ := h
      exact (e.maybeSelect_ok rfl hty hv).advanced
  | fetch | extract =>
      simp only [hty, bind_ok_iff, pure_ok_iff, Prod.mk.injEq] at h
      obtain ⟨v, hv, rfl, rfl⟩ := h
      exact (e.maybeVerify_ok rfl (by simp [hty, StepType.level]) hv).advanced
  | select | verify =>
      simp only [hty, bind_ok_iff, pure_ok_iff, Prod.mk.injEq] at h
      obtain ⟨v, hv, rfl, rfl⟩ := h
      exact (e.maybeSynthesize_ok rfl (by simp [hty])
        (.inl (by simp [e.same.stepType, hty, StepType.level])) hv).advanced
  | complete => rw [hty] at hkey; exact hkey.elim

end Sana.Orchestration
