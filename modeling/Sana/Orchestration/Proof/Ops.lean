import Sana.Orchestration.System

/-!
# What the domain operations and repositories do

One inversion lemma for each aggregate operation and each repository call: if it
returned, here is the value it returned. Every later argument about a transaction
cites these and never unfolds the operation again.
-/

namespace Sana.Orchestration

open Sana.Lib

attribute [simp] bind_ok_iff pure_ok_iff map_ok_iff

/-! ## Aggregates -/

@[simp] theorem assertTransition_ok {σ : Type} [DecidableEq σ] {value : σ → String} {c t : σ}
    {allowed : σ → List σ} {e : String} {u : Unit} :
    assertTransition value c t allowed e = .ok u ↔ t ∈ allowed c := by
  simp [assertTransition]

namespace SearchStep

/-- The fields no operation on a step changes. -/
structure Same (s s' : SearchStep) : Prop where
  id : s'.id = s.id
  runId : s'.runId = s.runId
  stepKey : s'.stepKey = s.stepKey
  stepType : s'.stepType = s.stepType
  planRevision : s'.planRevision = s.planRevision
  input : s'.input = s.input

theorem Same.rfl {s : SearchStep} : Same s s := ⟨.refl _, .refl _, .refl _, .refl _, .refl _, .refl _⟩

theorem Same.trans {a b c : SearchStep} (h : Same a b) (h' : Same b c) : Same a c :=
  ⟨h'.id.trans h.id, h'.runId.trans h.runId, h'.stepKey.trans h.stepKey,
    h'.stepType.trans h.stepType, h'.planRevision.trans h.planRevision, h'.input.trans h.input⟩

/-- The step went to status `t` along the transition table and got output `out`. -/
structure Became (s : SearchStep) (t : StepStatus) (out : Option ArtifactRef) (s' : SearchStep) :
    Prop where
  allowed : t ∈ s.status.transitions
  same : s.Same s'
  status : s'.status = t
  outputRef : s'.outputRef = out

variable {s s' : SearchStep} {t : StepStatus} {at' : Time} {ref : ArtifactRef}

theorem transition_ok (h : s.transition t = .ok s') : Became s t s.outputRef s' := by
  simp only [transition, bind_ok_iff, pure_ok_iff, assertTransition_ok] at h
  obtain ⟨_, hallowed, rfl⟩ := h
  exact ⟨hallowed, ⟨rfl, rfl, rfl, rfl, rfl, rfl⟩, rfl, rfl⟩

theorem start_ok (h : s.start = .ok s') : Became s .running s.outputRef s' := by
  simp only [start, bind_ok_iff, pure_ok_iff] at h
  obtain ⟨v, hv, rfl⟩ := h
  obtain ⟨hallowed, hsame, hst, hout⟩ := transition_ok hv
  exact ⟨hallowed, ⟨hsame.1, hsame.2, hsame.3, hsame.4, hsame.5, hsame.6⟩, hst, hout⟩

theorem retryLater_ok (h : s.retryLater at' = .ok s') : Became s .retryWait s.outputRef s' := by
  simp only [retryLater, bind_ok_iff, pure_ok_iff] at h
  obtain ⟨v, hv, rfl⟩ := h
  obtain ⟨hallowed, hsame, hst, hout⟩ := transition_ok hv
  exact ⟨hallowed, ⟨hsame.1, hsame.2, hsame.3, hsame.4, hsame.5, hsame.6⟩, hst, hout⟩

theorem retryLater_retryAt (h : s.retryLater at' = .ok s') : s'.retryAt.isSome = true := by
  simp only [retryLater, bind_ok_iff, pure_ok_iff] at h
  obtain ⟨v, hv, rfl⟩ := h
  rfl

theorem makeReady_ok (h : s.makeReady = .ok s') : Became s .ready s.outputRef s' := by
  simp only [makeReady, bind_ok_iff, pure_ok_iff] at h
  obtain ⟨v, hv, rfl⟩ := h
  obtain ⟨hallowed, hsame, hst, hout⟩ := transition_ok hv
  exact ⟨hallowed, ⟨hsame.1, hsame.2, hsame.3, hsame.4, hsame.5, hsame.6⟩, hst, hout⟩

theorem succeed_ok (h : s.succeed ref = .ok s') : Became s .succeeded (some ref) s' := by
  simp only [succeed, bind_ok_iff, pure_ok_iff] at h
  obtain ⟨_, _, v, hv, rfl⟩ := h
  obtain ⟨hallowed, hsame, hst, -⟩ := transition_ok hv
  exact ⟨hallowed, ⟨hsame.1, hsame.2, hsame.3, hsame.4, hsame.5, hsame.6⟩, hst, rfl⟩

/-- A row that can be loaded has an output exactly when it succeeded. -/
theorem rehydrate_ok (h : s.rehydrate = .ok s') :
    (s.status = .succeeded ↔ s.outputRef.isSome = true) ∧ s.Same s' ∧ s'.status = s.status ∧
      s'.outputRef = s.outputRef := by
  simp only [rehydrate, bind_ok_iff, pure_ok_iff, check_eq_ok] at h
  obtain ⟨_, h1, _, h2, rfl⟩ := h
  refine ⟨?_, ⟨rfl, rfl, rfl, rfl, rfl, rfl⟩, rfl, rfl⟩
  cases ho : s.outputRef <;> by_cases hs : s.status = .succeeded <;> simp_all

/-- A row whose output agrees with its status can be loaded. -/
theorem rehydrate_eq (h : s.status = .succeeded ↔ s.outputRef.isSome = true) :
    s.rehydrate = .ok { s with persistedVersion := s.version } := by
  cases ho : s.outputRef <;> by_cases hs : s.status = .succeeded <;>
    simp_all [rehydrate, check, bind, Except.bind, pure, Except.pure]

end SearchStep

namespace SearchRun

variable {r r' : SearchRun} {t : RunStatus} {at' : Time}

theorem transition_ok :
    r.transition t = .ok r' ↔
      t ∈ r.status.transitions ∧ { r with status := t, version := r.version + 1 } = r' := by
  simp [transition]

/-- The row can be loaded again. -/
def Sound (r : SearchRun) : Prop :=
  r.routing.policyVersion = r.budget.policyVersion ∧ r.validateLoadedState = .ok ()

/-- What every transaction leaves of a run: which run it is, its limits, and that it has ended. -/
structure Kept (r r' : SearchRun) : Prop where
  id : r'.id = r.id
  conversationId : r'.conversationId = r.conversationId
  messageId : r'.messageId = r.messageId
  responseRunId : r'.responseRunId = r.responseRunId
  routing : r'.routing = r.routing
  budget : r'.budget = r.budget
  sound : r.Sound → r'.Sound
  /-- A run that has ended keeps its status. -/
  final : r.isTerminal = true → r'.status = r.status

/-- What the workflow leaves of a run: it never counts model calls or expansions. -/
structure Ran (r r' : SearchRun) : Prop extends Kept r r' where
  llmCallCount : r'.usage.llmCallCount = r.usage.llmCallCount
  promptTokenCount : r'.usage.promptTokenCount = r.usage.promptTokenCount
  completionTokenCount : r'.usage.completionTokenCount = r.usage.completionTokenCount
  expansionRounds : r'.usage.expansionRounds = r.usage.expansionRounds

theorem Kept.isTerminal {a b : SearchRun} (h : Kept a b) (ha : a.isTerminal = true) :
    b.isTerminal = true := by
  rw [SearchRun.isTerminal, h.final ha]
  exact ha

theorem Kept.trans {a b c : SearchRun} (h : Kept a b) (h' : Kept b c) : Kept a c where
  id := h'.id.trans h.id
  conversationId := h'.conversationId.trans h.conversationId
  messageId := h'.messageId.trans h.messageId
  responseRunId := h'.responseRunId.trans h.responseRunId
  routing := h'.routing.trans h.routing
  budget := h'.budget.trans h.budget
  sound hs := h'.sound (h.sound hs)
  final ha := (h'.final (h.isTerminal ha)).trans (h.final ha)

theorem Ran.trans {a b c : SearchRun} (h : Ran a b) (h' : Ran b c) : Ran a c :=
  ⟨h.toKept.trans h'.toKept, h'.llmCallCount.trans h.llmCallCount,
    h'.promptTokenCount.trans h.promptTokenCount,
    h'.completionTokenCount.trans h.completionTokenCount,
    h'.expansionRounds.trans h.expansionRounds⟩

theorem Kept.rfl {r : SearchRun} : Kept r r :=
  ⟨.refl _, .refl _, .refl _, .refl _, .refl _, .refl _, fun hs => hs, fun _ => .refl _⟩

theorem Ran.rfl {r : SearchRun} : Ran r r := ⟨.rfl, .refl _, .refl _, .refl _, .refl _⟩

/-- A run that has not ended may go on in any way that leaves it loadable. -/
theorem ran_of_open (hopen : r.isTerminal = false) (hid : r'.id = r.id)
    (hconv : r'.conversationId = r.conversationId) (hmsg : r'.messageId = r.messageId)
    (hresp : r'.responseRunId = r.responseRunId) (hrt : r'.routing = r.routing)
    (hb : r'.budget = r.budget) (husage : r'.usage = r.usage)
    (hstate : r.validateLoadedState = .ok () → r'.validateLoadedState = .ok ()) : Ran r r' where
  id := hid
  conversationId := hconv
  messageId := hmsg
  responseRunId := hresp
  routing := hrt
  budget := hb
  sound hs := ⟨by rw [hrt, hb]; exact hs.1, hstate hs.2⟩
  final ht := by simp [hopen] at ht
  llmCallCount := by rw [husage]
  promptTokenCount := by rw [husage]
  completionTokenCount := by rw [husage]
  expansionRounds := by rw [husage]

/-- A status with a successor is not final. -/
theorem open_of_transitions (h : t ∈ r.status.transitions) : r.isTerminal = false := by
  revert h
  unfold isTerminal
  cases r.status <;> simp [RunStatus.transitions, RunStatus.isTerminal]

/-- A loaded run is its row. -/
theorem rehydrate_ok (h : r.rehydrate = .ok r') :
    Ran r r' ∧ r'.status = r.status ∧ r'.usage = r.usage := by
  simp only [rehydrate, bind_ok_iff, pure_ok_iff] at h
  obtain ⟨_, _, _, _, rfl⟩ := h
  exact ⟨⟨⟨rfl, rfl, rfl, rfl, rfl, rfl, fun hs => hs, fun _ => rfl⟩, rfl, rfl, rfl, rfl⟩, rfl, rfl⟩

theorem fail_ok {reason : StopReason} (h : r.fail reason at' = .ok r') :
    Ran r r' ∧ r'.status = .failed ∧ r'.usage = r.usage := by
  simp only [fail, bind_ok_iff, pure_ok_iff, transition_ok] at h
  obtain ⟨_, _, _, ⟨htr, rfl⟩, rfl⟩ := h
  refine ⟨ran_of_open (open_of_transitions htr) rfl rfl rfl rfl rfl rfl rfl fun _ => ?_, rfl, rfl⟩
  simp [validateLoadedState]

theorem cancel_ok (h : r.cancel at' = .ok r') :
    Ran r r' ∧ r'.status = .cancelled ∧ r'.usage = r.usage := by
  simp only [cancel, bind_ok_iff, pure_ok_iff, transition_ok] at h
  obtain ⟨_, ⟨htr, rfl⟩, rfl⟩ := h
  refine ⟨ran_of_open (open_of_transitions htr) rfl rfl rfl rfl rfl rfl rfl fun _ => ?_, rfl, rfl⟩
  simp [validateLoadedState]

theorem succeed_ok {quality : AnswerQuality} {reason : StopReason}
    (h : r.succeed quality reason at' = .ok r') :
    Ran r r' ∧ r'.status = .succeeded ∧ r'.usage = r.usage := by
  simp only [succeed, bind_ok_iff, pure_ok_iff, transition_ok, check_eq_ok] at h
  obtain ⟨_, hq, _, hc, _, hp, _, _, _, ⟨htr, rfl⟩, rfl⟩ := h
  refine ⟨ran_of_open (open_of_transitions htr) rfl rfl rfl rfl rfl rfl rfl fun _ => ?_, rfl, rfl⟩
  simp_all [validateLoadedState]

/-- A run that is loaded before it has ended has no outcome yet. -/
theorem validateLoadedState_open (hopen : r.isTerminal = false) :
    r.validateLoadedState = .ok () ↔ r.answerQuality = .none ∧ r.stopReason = none := by
  revert hopen
  unfold isTerminal validateLoadedState
  cases r.status <;> simp [RunStatus.isTerminal]

theorem recordUsage_ok {cost : StepBudgetCost} {elapsed : Nat}
    (h : r.recordUsage (cost.apply r.usage elapsed) = .ok r') :
    Ran r r' ∧ r'.status = r.status ∧ r'.usage = cost.apply r.usage elapsed := by
  simp only [recordUsage, bind_ok_iff, pure_ok_iff, check_eq_ok] at h
  obtain ⟨_, hopen, _, _, rfl⟩ := h
  refine ⟨⟨⟨rfl, rfl, rfl, rfl, rfl, rfl, fun hs => hs, fun _ => rfl⟩, rfl, rfl, rfl, rfl⟩, rfl, rfl⟩

/-- Saving a run writes it into its row. -/
theorem Kept.writeTo {row : SearchRun} (h : Kept row r) : Kept row (r.writeTo row) :=
  ⟨.refl _, .refl _, .refl _, .refl _, h.routing, h.budget, fun hs => h.sound hs, h.final⟩

theorem Ran.writeTo {row : SearchRun} (h : Ran row r) : Ran row (r.writeTo row) :=
  ⟨h.toKept.writeTo, h.llmCallCount, h.promptTokenCount, h.completionTokenCount,
    h.expansionRounds⟩

end SearchRun

theorem startOrResume_ok {env : Env} {r r' : SearchRun} (h : startOrResume env r = .ok r') :
    SearchRun.Ran r r' ∧ (r.isTerminal = false → r'.isTerminal = false) ∧ r'.usage = r.usage := by
  unfold startOrResume at h
  split at h
  · rename_i hst
    simp only [SearchRun.start, bind_ok_iff, pure_ok_iff, SearchRun.transition_ok] at h
    obtain ⟨_, ⟨htr, rfl⟩, rfl⟩ := h
    refine ⟨SearchRun.ran_of_open (SearchRun.open_of_transitions htr) rfl rfl rfl rfl rfl rfl rfl
      fun hv => ?_, fun _ => rfl, rfl⟩
    rw [SearchRun.validateLoadedState_open (SearchRun.open_of_transitions htr)] at hv
    exact (SearchRun.validateLoadedState_open rfl).mpr hv
  · rename_i hst
    simp only [SearchRun.resume, SearchRun.transition_ok] at h
    obtain ⟨htr, rfl⟩ := h
    refine ⟨SearchRun.ran_of_open (SearchRun.open_of_transitions htr) rfl rfl rfl rfl rfl rfl rfl
      fun hv => ?_, fun _ => rfl, rfl⟩
    rw [SearchRun.validateLoadedState_open (SearchRun.open_of_transitions htr)] at hv
    exact (SearchRun.validateLoadedState_open rfl).mpr hv
  · obtain rfl := Except.ok.inj h
    exact ⟨.rfl, id, rfl⟩

namespace StepAttempt

variable {a a' : StepAttempt} {at' : Time} {ref : ArtifactRef} {e : TypedError}

/-- The fields that say which attempt of which step this is, and whose. -/
structure Same (a a' : StepAttempt) : Prop where
  id : a'.id = a.id
  stepId : a'.stepId = a.stepId
  attemptNo : a'.attemptNo = a.attemptNo
  leaseOwner : a'.leaseOwner = a.leaseOwner
  deadlineAt : a'.deadlineAt = a.deadlineAt
  runId : a'.runId = a.runId

theorem Same.rfl : a.Same a := ⟨.refl _, .refl _, .refl _, .refl _, .refl _, .refl _⟩

theorem fail_ok (h : a.fail e at' = .ok a') : a'.id = a.id ∧ a'.completedAt = some at' := by
  simp only [fail, finish, bind_ok_iff, pure_ok_iff] at h
  obtain ⟨_, ⟨_, _, _, _, rfl⟩, rfl⟩ := h
  exact ⟨rfl, rfl⟩

theorem succeed_ok (h : a.succeed ref at' = .ok a') :
    a'.id = a.id ∧ a'.completedAt = some at' := by
  simp only [succeed, finish, bind_ok_iff, pure_ok_iff] at h
  obtain ⟨_, ⟨_, _, _, _, rfl⟩, rfl⟩ := h
  exact ⟨rfl, rfl⟩

theorem renewLease_ok (h : a.renewLease at' = .ok a') :
    a.Same a' ∧ a'.completedAt = a.completedAt := by
  simp only [renewLease, bind_ok_iff, pure_ok_iff] at h
  obtain ⟨_, _, _, _, _, _, rfl⟩ := h
  exact ⟨⟨rfl, rfl, rfl, rfl, rfl, rfl⟩, rfl⟩

end StepAttempt

/-- A lease starts a READY step and opens an attempt of it. -/
theorem leaseClaim_ok {lease : Duration} {s s' : SearchStep} {id : Uuid} {n : Nat} {worker : String}
    {now deadline : Time} {a : StepAttempt}
    (h : LeaseService.claim lease s id n worker now deadline = .ok (s', a)) :
    s.status = .ready ∧ SearchStep.Became s .running s.outputRef s' ∧ a.stepId = s.id ∧
      a.attemptNo = n ∧ a.completedAt = none ∧ a.runId = s.runId := by
  simp only [LeaseService.claim, bind_ok_iff, pure_ok_iff, check_eq_ok, decide_eq_true_eq,
    Prod.mk.injEq] at h
  obtain ⟨_, hr, _, _, v, hv, _, _, _, _, rfl, rfl⟩ := h
  have hb := SearchStep.start_ok hv
  exact ⟨hr, hb, hb.same.id, rfl, rfl, hb.same.runId⟩

/-! ## Repositories -/

namespace Tables

variable {t t' : Tables} {id : Uuid} {now : Time}

theorem getStep_some {s : SearchStep} (h : t.getStep id = .ok (some s)) :
    ∃ row ∈ t.steps, row.id = id ∧ row.Same s ∧ s.status = row.status ∧
      s.outputRef = row.outputRef := by
  unfold getStep at h
  cases hl : lookup (·.id) id t.steps with
  | none => simp [hl] at h
  | some row =>
      obtain ⟨hmem, hid⟩ := lookup_eq_some hl
      simp only [hl, bind_ok_iff, pure_ok_iff, Option.some.injEq] at h
      obtain ⟨_, hv, rfl⟩ := h
      exact ⟨row, hmem, hid, (SearchStep.rehydrate_ok hv).2⟩

theorem getRun_some {r : SearchRun} (h : t.getRun id = .ok (some r)) :
    ∃ row ∈ t.runs, row.id = id ∧ row.Ran r ∧ r.status = row.status ∧ r.usage = row.usage := by
  unfold getRun at h
  cases hl : lookup (·.id) id t.runs with
  | none => simp [hl] at h
  | some row =>
      obtain ⟨hmem, hid⟩ := lookup_eq_some hl
      simp only [hl, bind_ok_iff, pure_ok_iff, Option.some.injEq] at h
      obtain ⟨_, hr, rfl⟩ := h
      exact ⟨row, hmem, hid, SearchRun.rehydrate_ok hr⟩

theorem saveStep_ok {s : SearchStep} (h : t.saveStep now s = .ok t') :
    { t with steps := update (·.id) s.id (SearchStep.writeTo now s) t.steps } = t' := by
  simp only [saveStep, bind_ok_iff, pure_ok_iff] at h
  obtain ⟨_, _, rfl⟩ := h
  rfl

theorem saveRun_ok {r : SearchRun} (h : t.saveRun r = .ok t') :
    { t with runs := update (·.id) r.id r.writeTo t.runs } = t' := by
  simp only [saveRun, bind_ok_iff, pure_ok_iff] at h
  obtain ⟨_, _, rfl⟩ := h
  rfl

theorem completeAttempt_ok {a : StepAttempt} (h : t.completeAttempt a = .ok t') :
    { t with attempts := update (·.id) a.id a.writeTo t.attempts } = t' := by
  simp only [completeAttempt, bind_ok_iff, pure_ok_iff] at h
  obtain ⟨_, _, _, _, rfl⟩ := h
  rfl

theorem renewAttempt_ok {a : StepAttempt} (h : t.renewAttempt a = .ok t') :
    { t with attempts := update (·.id) a.id a.writeLeaseTo t.attempts } = t' := by
  simp only [renewAttempt, bind_ok_iff, pure_ok_iff] at h
  obtain ⟨_, _, _, _, rfl⟩ := h
  rfl

/-- The latest number is an upper bound, and one of the step's attempts has it. -/
theorem le_latestAttemptNo {a : StepAttempt} (ha : a ∈ t.attempts) :
    a.attemptNo ≤ t.latestAttemptNo a.stepId := by
  have hmem : a.attemptNo ∈ (t.attemptsOf a.stepId).map (·.attemptNo) :=
    List.mem_map_of_mem (by simp [attemptsOf, ha])
  unfold latestAttemptNo
  exact List.le_max_of_le hmem (le_refl _)

end Tables

/-- What a commit leaves: the rows the transaction saw with the staged ones behind them. -/
theorem commit_ok {env : Env} {u : Uow} {db : Db} (h : u.commit env = .ok db) :
    db.toTables = u.flushed env := by
  unfold Uow.commit at h
  split at h
  · obtain rfl := Except.ok.inj h
    rfl
  · simp at h

/-- The three tables the workflow argument is about, after saving a step and its run. -/
theorem saveAndCommit_ok {env : Env} {u : Uow} {s : SearchStep} {r : SearchRun} {e : String}
    {p : List (String × EventValue)} {db : Db} (h : saveAndCommit env u s r e p = .ok db) :
    db.steps = update (·.id) s.id (SearchStep.writeTo env.dbNow s) u.tables.steps
        ++ u.newSteps.map (Uow.stamp env) ∧
      db.runs = update (·.id) r.id r.writeTo u.tables.runs ∧
      db.attempts = u.tables.attempts ++ u.newAttempts := by
  simp only [saveAndCommit, bind_ok_iff] at h
  obtain ⟨t, hs, t', hr, hc⟩ := h
  obtain rfl := Tables.saveStep_ok hs
  obtain rfl := Tables.saveRun_ok hr
  have hflush := commit_ok hc
  simp [hflush, Uow.flushed, addEvent, Uow.newUuid]

end Sana.Orchestration
